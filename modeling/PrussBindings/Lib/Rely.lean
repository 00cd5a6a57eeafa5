import PrussBindings.Lib.Trace

/-!
# Programs with others beside them

A program shares its environment with others, which take steps of their own between
any two of its calls.

* `interleaved` — an environment with the steps of the others.
* `Stable` — what the others cannot make false; `Stable.star`.
* `wp_call_stable` — **the rule for a call**: what holds before it and is stable
  holds when the call is answered.
* `Returning`, `wp_bind_returning` — a program that always returns, and what follows it.
* `Recorded.bind_returning`, `Recorded.wp` — the same where the others keep no rules at all,
  and may answer anything.
* `Exec.view` — an execution seen through a view of the environment.
-/

namespace Effect

variable {Op : Type} {Res : Op → Type} {E α σ τ : Type}

/-- The environment in which others take any number of steps before a call is
answered. -/
def interleaved (rely : σ → σ → Prop) (R : Env Res σ) : Env Res σ :=
  fun o s r s' => ∃ t, Relation.ReflTransGen rely s t ∧ R o t r s'

/-- No step of the others makes `P` false. -/
def Stable (rely : σ → σ → Prop) (P : σ → Prop) : Prop := ∀ s t, P s → rely s t → P t

section Stable

variable {rely : σ → σ → Prop} {P P' : σ → Prop} {s t : σ}

theorem Stable.star (h : Stable rely P) (hs : P s) (hst : Relation.ReflTransGen rely s t) :
    P t := by
  induction hst with
  | refl => exact hs
  | tail _ hstep ih => exact h _ _ ih hstep

theorem Stable.and (h : Stable rely P) (h' : Stable rely P') :
    Stable rely fun s => P s ∧ P' s :=
  fun s t hs hst => ⟨h s t hs.1 hst, h' s t hs.2 hst⟩

/-- **The rule for a call.** -/
theorem wp_call_stable {R : Env Res σ} {o : Op} {k : Res o → Prog Res E α}
    {Q : Outcome E α → σ → Prop} (hP : Stable rely P) (hs : P s)
    (h : ∀ t r s', P t → R o t r s' → wp (interleaved rely R) (k r) Q s') :
    wp (interleaved rely R) (.call o k) Q s := by
  rintro r s' ⟨t, hst, hr⟩
  exact h t r s' (hP.star hs hst) hr

end Stable

/-- The program returns, and `Q` holds of what it returns. -/
def Returning (Q : α → σ → Prop) : Outcome E α → σ → Prop
  | .ret a, s => Q a s
  | _, _ => False

section Returning

variable {β : Type} {R : Env Res σ} {s : σ}

theorem Returning.mono {Q Q' : α → σ → Prop} (h : ∀ a s, Q a s → Q' a s) (out : Outcome E α)
    (s : σ) (hQ : Returning Q out s) : Returning Q' out s := by
  cases out with
  | ret a => exact h a s hQ
  | raise e => exact hQ
  | spin => exact hQ

theorem wp_bind_returning {p : Prog Res E β} {f : β → Prog Res E α} {Q : Outcome E α → σ → Prop}
    {P : β → σ → Prop} (hp : wp R p (Returning P) s) (hf : ∀ b s', P b s' → wp R (f b) Q s') :
    wp R (p >>= f) Q s := by
  rw [wp_bind]
  refine wp_mono (fun out s' hout => ?_) hp
  cases out with
  | ret b => exact hf b s' hout
  | raise e => exact hout.elim
  | spin => exact hout.elim

/-- Where anything may be answered, what follows adds to the record. -/
theorem Recorded.bind_returning {p : Prog Res E β} {f : β → Prog Res E α}
    {P : β → Trace Res → Prop} {Q : Outcome E α → Trace Res → Prop} (hp : Recorded p (Returning P))
    (hf : ∀ b tr, P b tr → Recorded (f b) fun out tr' => Q out (tr ++ tr')) :
    Recorded (p >>= f) Q :=
  hp.bind hf (fun _ _ h => h.elim) fun _ h => h.elim

/-- A program that returns, with something else in the record. -/
theorem Recorded.returning {p : Prog Res E α} {P P' : α → Trace Res → Prop}
    {f : Trace Res → Trace Res} (hp : Recorded p (Returning P))
    (h : ∀ a tr, P a tr → P' a (f tr)) :
    Recorded p fun out tr => Returning P' out (f tr) :=
  hp.mono fun out tr hout => by
    cases out with
    | ret a => exact h a tr hout
    | raise e => exact hout
    | spin => exact hout

/-- What a program adds to the record, wherever it is called. -/
theorem Recorded.wp {p : Prog Res E α} {Q Q' : Outcome E α → Trace Res → Prop} {tr : Trace Res}
    (hp : Recorded p Q) (h : ∀ out new, Q out new → Q' out (tr ++ new)) :
    Effect.wp traced p Q' tr := by
  rw [wp_iff_exec]
  intro out tr' hx
  obtain ⟨new, rfl, hnew⟩ := hp.exec hx
  exact h out new hnew

end Returning

/-- What a call does to the environment it does to the view of it. -/
theorem Exec.view {R : Env Res σ} {R' : Env Res τ} (f : σ → τ)
    (h : ∀ o s r s', R o s r s' → R' o (f s) r (f s')) {p : Prog Res E α} {s s' : σ}
    {out : Outcome E α} (hx : Exec R p s out s') : Exec R' p (f s) out (f s') := by
  induction hx with
  | ret a s => exact .ret a _
  | raise e s => exact .raise e _
  | spin s => exact .spin _
  | call hr _ ih => exact .call (h _ _ _ _ hr) ih

end Effect
