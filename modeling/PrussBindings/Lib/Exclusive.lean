import PrussBindings.Lib.Effect
import Mathlib.Logic.Relation

/-!
# Two programs and a device for one user

Two programs run at the same time on a device that one of them can hold at a
time; a second one is turned away, and does not wait.

* `Discipline` — which calls take the device, give it back, use it, or have
  nothing to do with it, and what they do to the lock.
* `Outside`, `Inside` — programs that take the device at most once, give it back
  before they end, and end with one answer if they are turned away.
* `Alone`, `Together` — what one program can do, and two, with a surrounding
  that may act at any time.
* `Serial`, `TurnedAway` — one program after the other, and one program with the
  other turned away while the device is held.
* `Phase` — where the two can be; `Phase.step` and `Phase.run` say that every step
  keeps to it.
* `serial_or_turnedAway` — **two such programs run one after the other, or one of
  them is turned away and the other runs as if it were alone.**
* `Outside.alone_ret`, `Alone.exec` — what a program does by itself.
-/

namespace Exclusive

open Effect Relation

variable {Op : Type} {Res : Op → Type} {E α β σ : Type}

/-- The lock of a device: the calls that take it are refused while it is held,
and the surrounding leaves it alone. -/
structure Discipline (R : Env Res σ) (env : σ → σ → Prop) where
  locked : σ → Bool
  acquires : Op → Prop
  releases : Op → Prop
  uses : Op → Prop
  neutral : Op → Prop
  granted : (o : Op) → Res o → Prop
  refused : (o : Op) → Res o → Prop
  acquire_free : ∀ {o s r s'}, acquires o → locked s = false → R o s r s' →
    granted o r ∧ locked s' = true
  acquire_held : ∀ {o s r s'}, acquires o → locked s = true → R o s r s' →
    refused o r ∧ s' = s ∧ ∀ t, locked t = true → R o t r t
  release_free : ∀ {o s r s'}, releases o → R o s r s' → locked s' = false
  use_lock : ∀ {o s r s'}, uses o → R o s r s' → locked s' = locked s
  neutral_idle : ∀ {o s r s'}, neutral o → R o s r s' → s' = s ∧ ∀ t, R o t r t
  env_lock : ∀ {s s'}, env s s' → locked s' = locked s

/-! ## The programs -/

/-- The program makes no more calls. -/
def Finished : Prog Res E α → Prop
  | .call _ _ => False
  | _ => True

section Programs

variable {R : Env Res σ} {env : σ → σ → Prop} (D : Discipline R env)

/-- The program holds the device, and gives it back before it ends. -/
inductive Inside : Prog Res E α → Prop where
  | spin : Inside .spin
  | use {o : Op} {k : Res o → Prog Res E α} : D.uses o → (∀ r, Inside (k r)) → Inside (.call o k)
  | release {o : Op} {k : Res o → Prog Res E α} :
    D.releases o → (∀ r, Finished (k r)) → Inside (.call o k)

/-- The program does not hold the device; it may take it once, and if it is
refused what is left of it is `refusal`. -/
inductive Outside (refusal : Prog Res E α) : Prog Res E α → Prop where
  | done {p : Prog Res E α} : Finished p → Outside refusal p
  | neutral {o : Op} {k : Res o → Prog Res E α} :
    D.neutral o → (∀ r, Outside refusal (k r)) → Outside refusal (.call o k)
  | acquire {o : Op} {k : Res o → Prog Res E α} : D.acquires o →
    (∀ r, D.refused o r → k r = refusal) → (∀ r, D.granted o r → Inside D (k r)) →
    Outside refusal (.call o k)

theorem finished_bind {p : Prog Res E β} {f : β → Prog Res E α} (hp : Finished p)
    (hf : ∀ b, Finished (f b)) : Finished (p >>= f) := by
  cases p with
  | ret b => exact hf b
  | raise e => trivial
  | spin => trivial
  | call o k => exact hp.elim

theorem finished_tryCatch {p : Prog Res E α} {h : E → Prog Res E α} (hp : Finished p)
    (hh : ∀ e, Finished (h e)) : Finished (p.tryCatch h) := by
  cases p with
  | ret b => trivial
  | raise e => exact hh e
  | spin => trivial
  | call o k => exact hp.elim

variable {D}

/-- What comes after the device is given back makes no calls. -/
theorem Inside.bind {p : Prog Res E β} {f : β → Prog Res E α} (hp : Inside D p)
    (hf : ∀ b, Finished (f b)) : Inside D (p >>= f) := by
  induction hp with
  | spin => exact .spin
  | use ho _ ih => exact .use ho ih
  | release ho hk => exact .release ho fun r => finished_bind (hk r) hf

theorem Inside.tryCatch {p : Prog Res E α} {h : E → Prog Res E α} (hp : Inside D p)
    (hh : ∀ e, Finished (h e)) : Inside D (p.tryCatch h) := by
  induction hp with
  | spin => exact .spin
  | use ho _ ih => exact .use ho ih
  | release ho hk => exact .release ho fun r => finished_tryCatch (hk r) hh

theorem Outside.bind {refusal p : Prog Res E β} {f : β → Prog Res E α} (hp : Outside D refusal p)
    (hf : ∀ b, Finished (f b)) : Outside D (refusal >>= f) (p >>= f) := by
  induction hp with
  | done hp => exact .done (finished_bind hp hf)
  | neutral ho _ ih => exact .neutral ho ih
  | acquire ho hrefused hgranted =>
    refine .acquire ho (fun r hr => ?_) fun r hr => (hgranted r hr).bind hf
    rw [hrefused r hr]
    rfl

theorem Outside.tryCatch {refusal p : Prog Res E α} {h : E → Prog Res E α}
    (hp : Outside D refusal p) (hh : ∀ e, Finished (h e)) :
    Outside D (refusal.tryCatch h) (p.tryCatch h) := by
  induction hp with
  | done hp => exact .done (finished_tryCatch hp hh)
  | neutral ho _ ih => exact .neutral ho ih
  | acquire ho hrefused hgranted =>
    refine .acquire ho (fun r hr => ?_) fun r hr => (hgranted r hr).tryCatch hh
    rw [hrefused r hr]

/-- A block that only uses the device, and gives it back however it ends. -/
theorem inside_tryCatch_bind {p : Prog Res E β} {h : E → Prog Res E β} {f : β → Prog Res E α}
    (hp : Uses D.uses p) (hf : ∀ b, Inside D (f b)) (hh : ∀ e, Inside D (h e >>= f)) :
    Inside D (p.tryCatch h >>= f) := by
  induction p with
  | ret b => exact hf b
  | raise e => exact hh e
  | spin => exact .spin
  | call o k ih => exact .use hp.1 fun r => ih r (hp.2 r)

/-- What comes before the device is taken has nothing to do with it. -/
theorem outside_bind {refusal : Prog Res E α} {p : Prog Res E β} {f : β → Prog Res E α}
    (hp : Uses D.neutral p) (hf : ∀ b, Outside D refusal (f b)) :
    Outside D refusal (p >>= f) := by
  induction p with
  | ret b => exact hf b
  | raise e => exact .done trivial
  | spin => exact .done trivial
  | call o k ih => exact .neutral hp.1 fun r => ih r (hp.2 r)

end Programs

/-! ## Alone and together -/

section Steps

variable (R : Env Res σ) (env : σ → σ → Prop)

/-- A call of the program, or something the surrounding does. -/
inductive AloneStep : Prog Res E α × σ → Prog Res E α × σ → Prop where
  | call {o : Op} {k : Res o → Prog Res E α} {s s' : σ} (r : Res o) :
    R o s r s' → AloneStep (.call o k, s) (k r, s')
  | env {s s' : σ} (p : Prog Res E α) : env s s' → AloneStep (p, s) (p, s')

/-- What is left of a program, and the state, after some steps. -/
abbrev Alone : Prog Res E α × σ → Prog Res E α × σ → Prop := ReflTransGen (AloneStep R env)

/-- A call of one of two programs, or something the surrounding does. -/
inductive TogetherStep :
    Prog Res E α × Prog Res E α × σ → Prog Res E α × Prog Res E α × σ → Prop where
  | left {o : Op} {k : Res o → Prog Res E α} {s s' : σ} (r : Res o) (q : Prog Res E α) :
    R o s r s' → TogetherStep (.call o k, q, s) (k r, q, s')
  | right {o : Op} {k : Res o → Prog Res E α} {s s' : σ} (p : Prog Res E α) (r : Res o) :
    R o s r s' → TogetherStep (p, .call o k, s) (p, k r, s')
  | env {s s' : σ} (p q : Prog Res E α) : env s s' → TogetherStep (p, q, s) (p, q, s')

/-- What is left of two programs, and the state, after some steps of both. -/
abbrev Together :
    Prog Res E α × Prog Res E α × σ → Prog Res E α × Prog Res E α × σ → Prop :=
  ReflTransGen (TogetherStep R env)

/-- First the steps of `p`, then those of `q`. -/
def Serial (p q : Prog Res E α) (s : σ) (p' q' : Prog Res E α) (s' : σ) : Prop :=
  ∃ m, Alone R env (p, s) (p', m) ∧ Alone R env (q, m) (q', s')

variable {R env}

/-- The program `q` was turned away while `p` held the device, and left no trace;
`p` ran as if it were alone. -/
def TurnedAway (D : Discipline R env) (refusal p q : Prog Res E α) (s : σ)
    (p' q' : Prog Res E α) (s' : σ) : Prop :=
  ∃ p₁ m, Alone R env (p, s) (p₁, m) ∧ Inside D p₁ ∧ D.locked m = true ∧
    Alone R env (q, m) (q', m) ∧ q' = refusal ∧ Alone R env (p₁, m) (p', s')

theorem TogetherStep.swap {p q p' q' : Prog Res E α} {s s' : σ}
    (h : TogetherStep R env (p, q, s) (p', q', s')) :
    TogetherStep R env (q, p, s) (q', p', s') := by
  cases h with
  | left r q hr => exact .right q r hr
  | right p r hr => exact .left r p hr
  | env p q hs => exact .env q p hs

theorem alone_env (p : Prog Res E α) {s s' : σ} (h : ReflTransGen env s s') :
    Alone R env (p, s) (p, s') := by
  induction h with
  | refl => exact .refl
  | tail _ hstep ih => exact ih.tail (.env p hstep)

end Steps

/-! ## One step of a program -/

section Step

variable {R : Env Res σ} {env : σ → σ → Prop} {D : Discipline R env} {refusal : Prog Res E α}
  {o : Op} {k : Res o → Prog Res E α} {r : Res o} {s s' : σ}

/-- A call of a program that finds the device free: either it has nothing to do
with the device, or it takes it. -/
theorem Outside.step_free (h : Outside D refusal (.call o k)) (hs : D.locked s = false)
    (hr : R o s r s') :
    (s' = s ∧ (∀ t, R o t r t) ∧ Outside D refusal (k r)) ∨
      (Inside D (k r) ∧ D.locked s' = true) := by
  cases h with
  | done hfin => exact hfin.elim
  | neutral ho hk => exact .inl ⟨(D.neutral_idle ho hr).1, (D.neutral_idle ho hr).2, hk r⟩
  | acquire ho _ hgranted =>
    obtain ⟨hr, hs'⟩ := D.acquire_free ho hs hr
    exact .inr ⟨hgranted r hr, hs'⟩

/-- A call of a program that finds the device held: it changes nothing, and if it
is an attempt to take the device it is refused. -/
theorem Outside.step_held (h : Outside D refusal (.call o k)) (hs : D.locked s = true)
    (hr : R o s r s') :
    s' = s ∧ (((∀ t, R o t r t) ∧ Outside D refusal (k r)) ∨
      ((∀ t, D.locked t = true → R o t r t) ∧ k r = refusal)) := by
  cases h with
  | done hfin => exact hfin.elim
  | neutral ho hk =>
    exact ⟨(D.neutral_idle ho hr).1, .inl ⟨(D.neutral_idle ho hr).2, hk r⟩⟩
  | acquire ho hrefused _ =>
    obtain ⟨hno, hs', hidle⟩ := D.acquire_held ho hs hr
    exact ⟨hs', .inr ⟨hidle, hrefused r hno⟩⟩

/-- The program has taken the device: it holds it, or is done with it. -/
inductive Holds (D : Discipline R env) (p : Prog Res E α) (s : σ) : Prop where
  | inside : Inside D p → D.locked s = true → Holds D p s
  | after : Finished p → D.locked s = false → Holds D p s

theorem Holds.step (h : Holds D (.call o k) s) (hr : R o s r s') : Holds D (k r) s' := by
  cases h with
  | inside hin hs =>
    cases hin with
    | use ho hk => exact .inside (hk r) ((D.use_lock ho hr).trans hs)
    | release ho hk => exact .after (hk r) (D.release_free ho hr)
  | after hfin _ => exact hfin.elim

theorem Holds.env_step {p : Prog Res E α} (h : Holds D p s) (hs : env s s') : Holds D p s' := by
  cases h with
  | inside hin hlock => exact .inside hin ((D.env_lock hs).trans hlock)
  | after hfin hlock => exact .after hfin ((D.env_lock hs).trans hlock)

end Step

/-! ## Two programs -/

section Phases

variable {R : Env Res σ} {env : σ → σ → Prop} {D : Discipline R env}
  {refusal p q p' q' : Prog Res E α} {s s' s'' : σ}

/-- The program can get from `p` to `p'` without changing the state, in any state
of `I`. -/
def Idle (R : Env Res σ) (env : σ → σ → Prop) (I : σ → Prop) (p p' : Prog Res E α) : Prop :=
  ∀ s, I s → Alone R env (p, s) (p', s)

theorem Idle.refl (I : σ → Prop) (p : Prog Res E α) : Idle R env I p p := fun _ _ => .refl

theorem Idle.step {I : σ → Prop} {o : Op} {k : Res o → Prog Res E α} {r : Res o}
    (h : Idle R env I p (.call o k)) (hr : ∀ s, I s → R o s r s) : Idle R env I p (k r) :=
  fun s hs => (h s hs).tail (.call r (hr s hs))

/-- Where two programs are of which only `p` has taken the device, or `p` was the
first to take it. -/
inductive Phase (D : Discipline R env) (refusal p q : Prog Res E α) (s : σ) :
    Prog Res E α → Prog Res E α → σ → Prop where
  /-- Neither has tried to take it. -/
  | before {p' q' : Prog Res E α} {s' : σ} :
    Idle R env (fun _ => True) p p' → Idle R env (fun _ => True) q q' → Outside D refusal p' →
    Outside D refusal q' → ReflTransGen env s s' → D.locked s' = false →
    Phase D refusal p q s p' q' s'
  /-- Only `p` has tried to take it. -/
  | first {p' q' : Prog Res E α} {s' : σ} :
    Alone R env (p, s) (p', s') → Holds D p' s' → Idle R env (fun _ => True) q q' →
    Outside D refusal q' → Phase D refusal p q s p' q' s'
  /-- `q` took it when `p` was done with it. -/
  | second {p' q' : Prog Res E α} {m s' : σ} :
    Alone R env (p, s) (p', m) → Finished p' → Alone R env (q, m) (q', s') → Holds D q' s' →
    Phase D refusal p q s p' q' s'
  /-- `q` was refused while `p` held it. -/
  | refused {p' q' : Prog Res E α} {s' : σ} :
    TurnedAway D refusal p q s p' q' s' → Holds D p' s' → Phase D refusal p q s p' q' s'
  /-- It was held by somebody else from the start. -/
  | shut {p' q' : Prog Res E α} {s' : σ} :
    Idle R env (D.locked · = true) p p' → Idle R env (D.locked · = true) q q' →
    Outside D refusal p' → Outside D refusal q' → ReflTransGen env s s' → D.locked s' = true →
    Phase D refusal p q s p' q' s'

theorem Phase.start (hp : Outside D refusal p) (hq : Outside D refusal q) (s : σ) :
    Phase D refusal p q s p q s := by
  cases hs : D.locked s with
  | false => exact .before (.refl _ p) (.refl _ q) hp hq .refl hs
  | true => exact .shut (.refl _ p) (.refl _ q) hp hq .refl hs

theorem Phase.left {o : Op} {k : Res o → Prog Res E α} {r : Res o} (hrefusal : Finished refusal)
    (h : Phase D refusal p q s (.call o k) q' s') (hr : R o s' r s'') :
    Phase D refusal p q s (k r) q' s'' := by
  cases h with
  | before hp hq hop hoq henv hs =>
    obtain ⟨rfl, hidle, hk⟩ | ⟨hk, hs'⟩ := hop.step_free hs hr
    · exact .before (hp.step fun t _ => hidle t) hq hk hoq henv hs
    · have hpk : Alone R env (p, s) (k r, s'') :=
        ((alone_env p henv).trans (hp s' trivial)).tail (.call r hr)
      exact .first hpk (.inside hk hs') hq hoq
  | first hp hheld hq hoq => exact .first (hp.tail (.call r hr)) (hheld.step hr) hq hoq
  | second _ hfin => exact hfin.elim
  | refused hturned hheld =>
    obtain ⟨p₁, m, hp₁, hin, hm, hq, hq', hp⟩ := hturned
    exact .refused ⟨p₁, m, hp₁, hin, hm, hq, hq', hp.tail (.call r hr)⟩ (hheld.step hr)
  | shut hp hq hop hoq henv hs =>
    obtain ⟨rfl, ⟨hidle, hk⟩ | ⟨hidle, hk⟩⟩ := hop.step_held hs hr
    · exact .shut (hp.step fun t _ => hidle t) hq hk hoq henv hs
    · exact .shut (hp.step hidle) hq (.done (hk ▸ hrefusal)) hoq henv hs

theorem Phase.right {o : Op} {k : Res o → Prog Res E α} {r : Res o} (hrefusal : Finished refusal)
    (h : Phase D refusal p q s p' (.call o k) s') (hr : R o s' r s'') :
    Phase D refusal p q s p' (k r) s'' ∨ Phase D refusal q p s (k r) p' s'' := by
  cases h with
  | before hp hq hop hoq henv hs =>
    obtain ⟨rfl, hidle, hk⟩ | ⟨hk, hs'⟩ := hoq.step_free hs hr
    · exact .inl (.before hp (hq.step fun t _ => hidle t) hop hk henv hs)
    · have hqk : Alone R env (q, s) (k r, s'') :=
        ((alone_env q henv).trans (hq s' trivial)).tail (.call r hr)
      exact .inr (.first hqk (.inside hk hs') hp hop)
  | first hp hheld hq hoq =>
    cases hheld with
    | inside hin hs =>
      obtain ⟨rfl, ⟨hidle, hk⟩ | ⟨hidle, hk⟩⟩ := hoq.step_held hs hr
      · exact .inl (.first hp (.inside hin hs) (hq.step fun t _ => hidle t) hk)
      · have hqk : Alone R env (q, s'') (k r, s'') :=
          (hq s'' trivial).tail (.call r (hidle s'' hs))
        exact .inl (.refused ⟨p', s'', hp, hin, hs, hqk, hk, .refl⟩ (.inside hin hs))
    | after hfin hs =>
      obtain ⟨rfl, hidle, hk⟩ | ⟨hk, hs'⟩ := hoq.step_free hs hr
      · exact .inl (.first hp (.after hfin hs) (hq.step fun t _ => hidle t) hk)
      · exact .inl (.second hp hfin ((hq s' trivial).tail (.call r hr)) (.inside hk hs'))
  | second hp hfin hq hheld =>
    exact .inl (.second hp hfin (hq.tail (.call r hr)) (hheld.step hr))
  | refused hturned _ =>
    obtain ⟨p₁, m, -, -, -, -, hq', -⟩ := hturned
    rw [← hq'] at hrefusal
    exact hrefusal.elim
  | shut hp hq hop hoq henv hs =>
    obtain ⟨rfl, ⟨hidle, hk⟩ | ⟨hidle, hk⟩⟩ := hoq.step_held hs hr
    · exact .inl (.shut hp (hq.step fun t _ => hidle t) hop hk henv hs)
    · exact .inl (.shut hp (hq.step hidle) hop (.done (hk ▸ hrefusal)) henv hs)

theorem Phase.env_step (h : Phase D refusal p q s p' q' s') (hs : env s' s'') :
    Phase D refusal p q s p' q' s'' := by
  cases h with
  | before hp hq hop hoq henv hlock =>
    exact .before hp hq hop hoq (henv.tail hs) ((D.env_lock hs).trans hlock)
  | first hp hheld hq hoq => exact .first (hp.tail (.env p' hs)) (hheld.env_step hs) hq hoq
  | second hp hfin hq hheld => exact .second hp hfin (hq.tail (.env q' hs)) (hheld.env_step hs)
  | refused hturned hheld =>
    obtain ⟨p₁, m, hp₁, hin, hm, hq, hq', hp⟩ := hturned
    exact .refused ⟨p₁, m, hp₁, hin, hm, hq, hq', hp.tail (.env p' hs)⟩ (hheld.env_step hs)
  | shut hp hq hop hoq henv hlock =>
    exact .shut hp hq hop hoq (henv.tail hs) ((D.env_lock hs).trans hlock)

/-- What one step of the two preserves. -/
theorem Phase.step {x y x' y' : Prog Res E α} (hrefusal : Finished refusal)
    (h : Phase D refusal p q s x y s') (hstep : TogetherStep R env (x, y, s') (x', y', s'')) :
    Phase D refusal p q s x' y' s'' ∨ Phase D refusal q p s y' x' s'' := by
  cases hstep with
  | left r y hr => exact .inl (h.left hrefusal hr)
  | right x r hr => exact h.right hrefusal hr
  | env x y hs => exact .inl (h.env_step hs)

/-- What a whole run of the two preserves. -/
theorem Phase.run (hrefusal : Finished refusal) (hp : Outside D refusal p)
    (hq : Outside D refusal q) {z : Prog Res E α × Prog Res E α × σ}
    (h : Together R env (p, q, s) z) :
    Phase D refusal p q s z.1 z.2.1 z.2.2 ∨ Phase D refusal q p s z.2.1 z.1 z.2.2 := by
  induction h with
  | refl => exact .inl (.start hp hq s)
  | tail _ hstep ih =>
    rcases ih with ih | ih
    · exact ih.step hrefusal hstep
    · exact (ih.step hrefusal hstep.swap).symm

theorem Phase.serial_or_turnedAway (h : Phase D refusal p q s p' q' s') :
    Serial R env p q s p' q' s' ∨ TurnedAway D refusal p q s p' q' s' := by
  cases h with
  | before hp hq _ _ henv _ =>
    exact .inl ⟨s', (alone_env p henv).trans (hp s' trivial), hq s' trivial⟩
  | first hp _ hq _ => exact .inl ⟨s', hp, hq s' trivial⟩
  | second hp _ hq _ => exact .inl ⟨_, hp, hq⟩
  | refused hturned _ => exact .inr hturned
  | shut hp hq _ _ henv hs =>
    exact .inl ⟨s', (alone_env p henv).trans (hp s' hs), hq s' hs⟩

/-- **Two programs that take the device at most once run one after the other, or
one of them is turned away while the other holds it.** -/
theorem serial_or_turnedAway (hrefusal : Finished refusal) (hp : Outside D refusal p)
    (hq : Outside D refusal q) (h : Together R env (p, q, s) (p', q', s')) :
    (Serial R env p q s p' q' s' ∨ Serial R env q p s q' p' s') ∨
      (TurnedAway D refusal p q s p' q' s' ∨ TurnedAway D refusal q p s q' p' s') := by
  rcases Phase.run hrefusal hp hq h with h | h
  · exact h.serial_or_turnedAway.imp .inl .inl
  · exact h.serial_or_turnedAway.imp .inr .inr

end Phases

/-! ## A program by itself -/

section Alone

variable {R : Env Res σ} {env : σ → σ → Prop} {D : Discipline R env}
  {refusal p p' : Prog Res E α} {s s' : σ}

/-- A program by itself that found the device free either has not taken it or
holds it or has given it back. -/
theorem Outside.alone (hp : Outside D refusal p) (hs : D.locked s = false)
    (h : Alone R env (p, s) (p', s')) :
    (Outside D refusal p' ∧ D.locked s' = false) ∨ Holds D p' s' := by
  generalize hx : (p', s') = x at h
  induction h generalizing p' s' with
  | refl =>
    cases hx
    exact .inl ⟨hp, hs⟩
  | tail _ hstep ih =>
    cases hx
    cases hstep with
    | call r hr =>
      rcases ih rfl with ⟨hout, hs⟩ | hheld
      · obtain ⟨rfl, -, hk⟩ | ⟨hk, hs'⟩ := hout.step_free hs hr
        · exact .inl ⟨hk, hs⟩
        · exact .inr (.inside hk hs')
      · exact .inr (hheld.step hr)
    | env _ hstep =>
      rcases ih rfl with ⟨hout, hs⟩ | hheld
      · exact .inl ⟨hout, (D.env_lock hstep).trans hs⟩
      · exact .inr (hheld.env_step hstep)

/-- A program that found the device free and returned leaves it free. -/
theorem Outside.alone_ret {a : α} (hp : Outside D refusal p) (hs : D.locked s = false)
    (h : Alone R env (p, s) (.ret a, s')) : D.locked s' = false := by
  rcases hp.alone hs h with ⟨-, hs'⟩ | ⟨hin, -⟩ | ⟨-, hs'⟩
  · exact hs'
  · cases hin
  · exact hs'

/-- The calls of a program in a surrounding that acts before each of them. -/
def around (R : Env Res σ) (env : σ → σ → Prop) : Env Res σ :=
  fun o s r s' => ∃ m, ReflTransGen env s m ∧ R o m r s'

/-- A program that ran to its end by itself is one that was executed in its
surrounding. -/
theorem Alone.exec {a : α} (h : Alone R env (p, s) (.ret a, s')) :
    ∃ m, Exec (around R env) p s (.ret a) m ∧ ReflTransGen env m s' := by
  generalize hx : (p, s) = x at h
  induction h using ReflTransGen.head_induction_on generalizing p s with
  | refl =>
    cases hx
    exact ⟨s', .ret a s', .refl⟩
  | head hstep _ ih =>
    cases hx
    cases hstep with
    | call r hr =>
      obtain ⟨m, hexec, hm⟩ := ih rfl
      exact ⟨m, .call ⟨s, .refl, hr⟩ hexec, hm⟩
    | env _ hs =>
      obtain ⟨m, hexec, hm⟩ := ih rfl
      cases hexec with
      | ret => exact ⟨_, .ret a s, hm.head hs⟩
      | call hr hk =>
        obtain ⟨m₁, hm₁, hr⟩ := hr
        exact ⟨m, .call ⟨m₁, hm₁.head hs, hr⟩ hk, hm⟩

end Alone

end Exclusive
