import Mathlib.Tactic

/-!
# Programs that call their environment

A handler of a daemon, or a method of a client, is a program that now and then
asks its environment for something (does this file exist? write these bytes)
and carries on with the answer.  This file models such programs as trees:
`Prog` has a node for every call and a branch for every answer the environment
may give, and a leaf for each way a program can end.

* `Prog.bind`, `Prog.tryCatch` — sequencing and exception handling, with the
  monad laws (`instLawfulMonad`).
* `Exec R p s o s'` — from the environment state `s`, program `p` ends with `o`
  and leaves the environment in `s'`, where `R` says which answers and which
  effects a call may have.
* `wp` — the weakest precondition, a predicate transformer computed from the
  program; `wp_iff_exec` says that it speaks about exactly the executions.
* `wp_bind`, `wp_tryCatch`, `wp_mono` — the structural rules, and
  `wp_bind_invariant`, `wp_tryCatch_invariant` for a postcondition that does not
  look at the outcome.
* `Uses` — every call a program can make is an allowed one; `wp_of_uses` turns
  an invariant of the allowed calls into an invariant of the program.
* `run` — the executable reading, for environments that are functions;
  `exec_run_iff` identifies it with `Exec`.
-/

namespace Effect

/-- How a program ends: with a value, with an exception, or still inside a loop
when the bound on its iterations is used up. -/
inductive Outcome (E α : Type) where
  | ret (a : α)
  | raise (e : E)
  | spin
  deriving DecidableEq, Repr

/-- A program over operations `Op`, whose answers have the types `Res`, that
raises exceptions `E` and returns `α`. -/
inductive Prog {Op : Type} (Res : Op → Type) (E α : Type) where
  | ret (a : α)
  | raise (e : E)
  | spin
  | call (o : Op) (k : Res o → Prog Res E α)

variable {Op : Type} {Res : Op → Type} {E α β γ σ : Type}

namespace Prog

/-- Sequencing: an exception or an unfinished loop ends the whole program. -/
def bind (p : Prog Res E α) (f : α → Prog Res E β) : Prog Res E β :=
  match p with
  | .ret a => f a
  | .raise e => .raise e
  | .spin => .spin
  | .call o k => .call o fun r => (k r).bind f

/-- Exception handling: the handler takes over where `p` raises. -/
def tryCatch (p : Prog Res E α) (h : E → Prog Res E α) : Prog Res E α :=
  match p with
  | .ret a => .ret a
  | .raise e => h e
  | .spin => .spin
  | .call o k => .call o fun r => (k r).tryCatch h

/-- A single call, returning its answer. -/
def perform (o : Op) : Prog Res E (Res o) := .call o .ret

instance : Monad (Prog Res E) where
  pure := .ret
  bind := bind

@[simp] theorem pure_eq (a : α) : (pure a : Prog Res E α) = .ret a := rfl

@[simp] theorem ret_bind (a : α) (f : α → Prog Res E β) : (.ret a : Prog Res E α) >>= f = f a := rfl

@[simp] theorem raise_bind (e : E) (f : α → Prog Res E β) :
    (.raise e : Prog Res E α) >>= f = .raise e := rfl

@[simp] theorem call_bind (o : Op) (k : Res o → Prog Res E α) (f : α → Prog Res E β) :
    .call o k >>= f = .call o fun r => k r >>= f := rfl

@[simp] theorem perform_bind (o : Op) (f : Res o → Prog Res E β) :
    (perform o : Prog Res E (Res o)) >>= f = .call o f := rfl

@[simp] theorem tryCatch_ret (a : α) (h : E → Prog Res E α) : (ret a).tryCatch h = .ret a := rfl

@[simp] theorem tryCatch_raise (e : E) (h : E → Prog Res E α) : (raise e).tryCatch h = h e := rfl

@[simp] theorem tryCatch_call (o : Op) (k : Res o → Prog Res E α) (h : E → Prog Res E α) :
    (call o k).tryCatch h = .call o fun r => (k r).tryCatch h := rfl

theorem bind_ret (p : Prog Res E α) : p.bind .ret = p := by
  induction p with
  | ret a => rfl
  | raise e => rfl
  | spin => rfl
  | call o k ih => simp only [bind, ih]

theorem bind_assoc (p : Prog Res E α) (f : α → Prog Res E β) (g : β → Prog Res E γ) :
    (p.bind f).bind g = p.bind fun a => (f a).bind g := by
  induction p with
  | ret a => rfl
  | raise e => rfl
  | spin => rfl
  | call o k ih => simp only [bind, ih]

instance instLawfulMonad : LawfulMonad (Prog Res E) :=
  LawfulMonad.mk' (Prog Res E) bind_ret (fun _ _ => rfl) bind_assoc

end Prog

/-! ## Executions -/

/-- Which answers a call may get in an environment state, and what it does to
that state. -/
abbrev Env (Res : Op → Type) (σ : Type) := (o : Op) → σ → Res o → σ → Prop

/-- `Exec R p s o s'`: in an environment `R`, program `p` can go from `s` to
`s'` and end with `o`. -/
inductive Exec (R : Env Res σ) : Prog Res E α → σ → Outcome E α → σ → Prop where
  | ret (a : α) (s : σ) : Exec R (.ret a) s (.ret a) s
  | raise (e : E) (s : σ) : Exec R (.raise e) s (.raise e) s
  | spin (s : σ) : Exec R .spin s .spin s
  | call {o : Op} {k : Res o → Prog Res E α} {s s' s'' : σ} {r : Res o} {out : Outcome E α} :
      R o s r s' → Exec R (k r) s' out s'' → Exec R (.call o k) s out s''

theorem Exec.mono {R R' : Env Res σ} {p : Prog Res E α} {s s' : σ} {out : Outcome E α}
    (h : ∀ o s r s', R o s r s' → R' o s r s') (hx : Exec R p s out s') : Exec R' p s out s' := by
  induction hx with
  | ret a s => exact .ret a s
  | raise e s => exact .raise e s
  | spin s => exact .spin s
  | call hr _ ih => exact .call (h _ _ _ _ hr) ih

theorem Exec.bind {R : Env Res σ} {p : Prog Res E β} {f : β → Prog Res E α} {s s' s'' : σ} {b : β}
    {out : Outcome E α} (hp : Exec R p s (.ret b) s') (hf : Exec R (f b) s' out s'') :
    Exec R (p >>= f) s out s'' := by
  induction p generalizing s with
  | ret a =>
    cases hp
    exact hf
  | raise e => cases hp
  | spin => cases hp
  | call o k ih =>
    cases hp with
    | call hr hk => exact .call hr (ih _ hk)

/-- A call is answered, and the rest runs from there. -/
@[simp] theorem exec_call_iff {R : Env Res σ} {o : Op} {k : Res o → Prog Res E α} {s s'' : σ}
    {out : Outcome E α} :
    Exec R (.call o k) s out s'' ↔ ∃ r s', R o s r s' ∧ Exec R (k r) s' out s'' := by
  constructor
  · intro h
    cases h with
    | call hr hk => exact ⟨_, _, hr, hk⟩
  · rintro ⟨r, s', hr, hk⟩
    exact .call hr hk

@[simp] theorem exec_ret_iff {R : Env Res σ} {a : α} {s s' : σ} {out : Outcome E α} :
    Exec R (.ret a) s out s' ↔ out = .ret a ∧ s' = s := by
  constructor
  · intro h
    cases h
    exact ⟨rfl, rfl⟩
  · rintro ⟨rfl, rfl⟩
    exact .ret a s'

@[simp] theorem exec_raise_iff {R : Env Res σ} {e : E} {s s' : σ} {out : Outcome E α} :
    Exec R (.raise e) s out s' ↔ out = .raise e ∧ s' = s := by
  constructor
  · intro h
    cases h
    exact ⟨rfl, rfl⟩
  · rintro ⟨rfl, rfl⟩
    exact .raise e s'

@[simp] theorem exec_spin_iff {R : Env Res σ} {s s' : σ} {out : Outcome E α} :
    Exec R .spin s out s' ↔ out = .spin ∧ s' = s := by
  constructor
  · intro h
    cases h
    exact ⟨rfl, rfl⟩
  · rintro ⟨rfl, rfl⟩
    exact .spin s'

/-- A sequence returns where its first part does, and the second from there. -/
theorem exec_bind_ret_iff {R : Env Res σ} {p : Prog Res E β} {f : β → Prog Res E α} {s s'' : σ}
    {a : α} :
    Exec R (p >>= f) s (.ret a) s'' ↔
      ∃ b s', Exec R p s (.ret b) s' ∧ Exec R (f b) s' (.ret a) s'' := by
  induction p generalizing s with
  | ret b => simp
  | raise e => simp
  | spin => exact iff_of_false (fun h => by cases h) fun ⟨_, _, h, _⟩ => by cases h
  | call o k ih =>
    simp only [Prog.call_bind, exec_call_iff, ih]
    constructor
    · rintro ⟨r, t, hr, b, s', hk, hf⟩
      exact ⟨b, s', ⟨r, t, hr, hk⟩, hf⟩
    · rintro ⟨b, s', ⟨r, t, hr, hk⟩, hf⟩
      exact ⟨r, t, hr, b, s', hk, hf⟩

/-- A program with a handler that never returns this returns it by itself. -/
theorem exec_tryCatch_ret_iff {R : Env Res σ} {p : Prog Res E α} {h : E → Prog Res E α} {s s' : σ}
    {a : α} (hh : ∀ e t, ¬ Exec R (h e) t (.ret a) s') :
    Exec R (p.tryCatch h) s (.ret a) s' ↔ Exec R p s (.ret a) s' := by
  induction p generalizing s with
  | ret b => rfl
  | raise e => simp [hh]
  | spin => rfl
  | call o k ih => simp only [Prog.tryCatch_call, exec_call_iff, ih]

/-- A handler has nothing to do with a program that returns. -/
theorem Exec.tryCatch_ret {R : Env Res σ} {p : Prog Res E α} (h : E → Prog Res E α) {s s' : σ} {a : α}
    (hp : Exec R p s (.ret a) s') : Exec R (p.tryCatch h) s (.ret a) s' := by
  induction p generalizing s with
  | ret b => exact hp
  | raise e => cases hp
  | spin => exact hp
  | call o k ih =>
    cases hp with
    | call hr hk => exact .call hr (ih _ hk)

theorem Exec.bind_raise {R : Env Res σ} {p : Prog Res E β} (f : β → Prog Res E α) {s s' : σ} {e : E}
    (hp : Exec R p s (.raise e) s') : Exec R (p >>= f) s (.raise e) s' := by
  induction p generalizing s with
  | ret a => cases hp
  | raise e =>
    cases hp
    exact .raise _ _
  | spin => cases hp
  | call o k ih =>
    cases hp with
    | call hr hk => exact .call hr (ih _ hk)

/-- The weakest precondition of a program: what must hold of `s` for every
execution from `s` to end in `Q`. -/
def wp (R : Env Res σ) : Prog Res E α → (Outcome E α → σ → Prop) → σ → Prop
  | .ret a, Q, s => Q (.ret a) s
  | .raise e, Q, s => Q (.raise e) s
  | .spin, Q, s => Q .spin s
  | .call o k, Q, s => ∀ r s', R o s r s' → wp R (k r) Q s'

section Wp

variable {R : Env Res σ} {Q Q' : Outcome E α → σ → Prop} {s : σ}

@[simp] theorem wp_call (o : Op) (k : Res o → Prog Res E α) :
    wp R (.call o k) Q s ↔ ∀ r s', R o s r s' → wp R (k r) Q s' := Iff.rfl

/-- **The predicate transformer speaks about exactly the executions.** -/
theorem wp_iff_exec (p : Prog Res E α) :
    wp R p Q s ↔ ∀ out s', Exec R p s out s' → Q out s' := by
  induction p generalizing s with
  | ret a =>
    refine ⟨fun h out s' hx => ?_, fun h => h _ _ (.ret a s)⟩
    cases hx
    exact h
  | raise e =>
    refine ⟨fun h out s' hx => ?_, fun h => h _ _ (.raise e s)⟩
    cases hx
    exact h
  | spin =>
    refine ⟨fun h out s' hx => ?_, fun h => h _ _ (.spin s)⟩
    cases hx
    exact h
  | call o k ih =>
    refine ⟨fun h out s' hx => ?_, fun h r s' hr => (ih r).2 fun out s'' hx => h _ _ (.call hr hx)⟩
    cases hx with
    | call hr hx => exact (ih _).1 (h _ _ hr) _ _ hx

theorem wp_mono {p : Prog Res E α} (hQ : ∀ out s', Q out s' → Q' out s') (h : wp R p Q s) :
    wp R p Q' s := by
  rw [wp_iff_exec] at h ⊢
  exact fun out s' hx => hQ out s' (h out s' hx)

/-- The rule for sequencing: the rest runs from wherever the first part
returned. -/
theorem wp_bind (p : Prog Res E β) (f : β → Prog Res E α) :
    wp R (p >>= f) Q s ↔
      wp R p (fun out s' => match out with
        | .ret b => wp R (f b) Q s'
        | .raise e => Q (.raise e) s'
        | .spin => Q .spin s') s := by
  induction p generalizing s with
  | ret b => rfl
  | raise e => rfl
  | spin => rfl
  | call o k ih =>
    simp only [Prog.call_bind, wp_call]
    exact forall_congr' fun r => forall_congr' fun s' => imp_congr_right fun _ => ih r

/-- The rule for exception handling. -/
theorem wp_tryCatch (p : Prog Res E α) (h : E → Prog Res E α) :
    wp R (p.tryCatch h) Q s ↔
      wp R p (fun out s' => match out with
        | .ret a => Q (.ret a) s'
        | .raise e => wp R (h e) Q s'
        | .spin => Q .spin s') s := by
  induction p generalizing s with
  | ret a => rfl
  | raise e => rfl
  | spin => rfl
  | call o k ih =>
    simp only [Prog.tryCatch_call, wp_call]
    exact forall_congr' fun r => forall_congr' fun s' => imp_congr_right fun _ => ih r

/-- An invariant of both parts is an invariant of the sequence. -/
theorem wp_bind_invariant {I : σ → Prop} {p : Prog Res E β} {f : β → Prog Res E α}
    (hp : wp R p (fun _ s' => I s') s)
    (hf : ∀ b s', I s' → wp R (f b) (fun _ s'' => I s'') s') :
    wp R (p >>= f) (fun _ s' => I s') s := by
  rw [wp_bind]
  apply wp_mono _ hp
  intro out s' hs'
  cases out with
  | ret b => exact hf b s' hs'
  | raise e => exact hs'
  | spin => exact hs'

/-- An invariant of a program and of its handler is one of both together. -/
theorem wp_tryCatch_invariant {I : σ → Prop} {p : Prog Res E α} {h : E → Prog Res E α}
    (hp : wp R p (fun _ s' => I s') s)
    (hh : ∀ e s', I s' → wp R (h e) (fun _ s'' => I s'') s') :
    wp R (p.tryCatch h) (fun _ s' => I s') s := by
  rw [wp_tryCatch]
  apply wp_mono _ hp
  intro out s' hs'
  cases out with
  | ret b => exact hs'
  | raise e => exact hh e s' hs'
  | spin => exact hs'

end Wp

/-! ## The calls a program can make -/

/-- Every call `p` can make, whatever the answers before it, satisfies `ok`. -/
def Uses (ok : Op → Prop) : Prog Res E α → Prop
  | .call o k => ok o ∧ ∀ r, Uses ok (k r)
  | _ => True

section Uses

variable {ok ok' : Op → Prop}

theorem uses_bind {p : Prog Res E α} {f : α → Prog Res E β} (hp : Uses ok p)
    (hf : ∀ a, Uses ok (f a)) : Uses ok (p >>= f) := by
  induction p with
  | ret a => exact hf a
  | raise e => trivial
  | spin => trivial
  | call o k ih => exact ⟨hp.1, fun r => ih r (hp.2 r)⟩

theorem uses_tryCatch {p : Prog Res E α} {h : E → Prog Res E α} (hp : Uses ok p)
    (hh : ∀ e, Uses ok (h e)) : Uses ok (p.tryCatch h) := by
  induction p with
  | ret a => trivial
  | raise e => exact hh e
  | spin => trivial
  | call o k ih => exact ⟨hp.1, fun r => ih r (hp.2 r)⟩

theorem Uses.mono {p : Prog Res E α} (hok : ∀ o, ok o → ok' o) (hp : Uses ok p) : Uses ok' p := by
  induction p with
  | ret a => trivial
  | raise e => trivial
  | spin => trivial
  | call o k ih => exact ⟨hok o hp.1, fun r => ih r (hp.2 r)⟩

/-- **The invariant rule.**  What every allowed call preserves, a program that
makes only allowed calls preserves. -/
theorem wp_of_uses {R : Env Res σ} {I : σ → Prop} {p : Prog Res E α} {s : σ} (hp : Uses ok p)
    (hstep : ∀ o s r s', ok o → R o s r s' → I s → I s') (hs : I s) :
    wp R p (fun _ s' => I s') s := by
  induction p generalizing s with
  | ret a => exact hs
  | raise e => exact hs
  | spin => exact hs
  | call o k ih => exact fun r s' hr => ih r (hp.2 r) (hstep o s r s' hp.1 hr hs)

end Uses

/-! ## Environments that are functions -/

/-- Run a program in an environment that answers every call in one way. -/
def run (h : (o : Op) → σ → Res o × σ) : Prog Res E α → σ → Outcome E α × σ
  | .ret a, s => (.ret a, s)
  | .raise e, s => (.raise e, s)
  | .spin, s => (.spin, s)
  | .call o k, s => run h (k (h o s).1) (h o s).2

/-- A function as an environment. -/
def Env.ofFun (h : (o : Op) → σ → Res o × σ) : Env Res σ := fun o s r s' => h o s = (r, s')

section Run

variable (h : (o : Op) → σ → Res o × σ) (s : σ)

@[simp] theorem run_ret (a : α) : run h (.ret a : Prog Res E α) s = (.ret a, s) := rfl

@[simp] theorem run_raise (e : E) : run h (.raise e : Prog Res E α) s = (.raise e, s) := rfl

@[simp] theorem run_spin : run h (.spin : Prog Res E α) s = (.spin, s) := rfl

@[simp] theorem run_call (o : Op) (k : Res o → Prog Res E α) :
    run h (.call o k) s = run h (k (h o s).1) (h o s).2 := rfl

theorem run_bind (p : Prog Res E β) (f : β → Prog Res E α) :
    run h (p >>= f) s = match run h p s with
      | (.ret b, s') => run h (f b) s'
      | (.raise e, s') => (.raise e, s')
      | (.spin, s') => (.spin, s') := by
  induction p generalizing s with
  | ret b => rfl
  | raise e => rfl
  | spin => rfl
  | call o k ih => exact ih _ _

theorem run_tryCatch (p : Prog Res E α) (g : E → Prog Res E α) :
    run h (p.tryCatch g) s = match run h p s with
      | (.ret a, s') => (.ret a, s')
      | (.raise e, s') => run h (g e) s'
      | (.spin, s') => (.spin, s') := by
  induction p generalizing s with
  | ret a => rfl
  | raise e => rfl
  | spin => rfl
  | call o k ih => exact ih _ _

theorem exec_run (p : Prog Res E α) :
    Exec (Env.ofFun h) p s (run h p s).1 (run h p s).2 := by
  induction p generalizing s with
  | ret a => exact .ret a s
  | raise e => exact .raise e s
  | spin => exact .spin s
  | call o k ih => exact .call rfl (ih _ _)

/-- **In a functional environment a program has one execution, the run.** -/
theorem exec_run_iff (p : Prog Res E α) (out : Outcome E α) (s' : σ) :
    Exec (Env.ofFun h) p s out s' ↔ run h p s = (out, s') := by
  constructor
  · intro hx
    induction hx with
    | ret a s => rfl
    | raise e s => rfl
    | spin s => rfl
    | call hr _ ih => rw [run_call, hr]; exact ih
  · intro hrun
    have hx := exec_run h s p
    rwa [hrun] at hx

end Run

end Effect
