import PrussBindings.Lib.Effect

/-!
# When does a program end well?

A program whose environment may answer anything ends well after some answers
and badly after others.  This file is a calculus for saying after which.

* `Trace`, `traced` — the calls a run made with their answers, and the
  environment that answers anything and writes it down.
* `Recorded p Q` — every run of `p` ends in an outcome and with a record that go
  together as `Q` says, with the rules `Recorded.bind` and `Recorded.tryCatch`;
  `Recorded.exec` applies it to a run.
* `EndsWell G K p Q` — `p` returns a value of `Q`, or raises an exception of
  `G`, on exactly the traces of `K`.  It is computed from the program, one call
  at a time.
* `EndsWell.bind`, `EndsWell.tryCatch` — the structural rules.
* `EndsWell.exec_iff` — **the calculus speaks about every run**.
-/

namespace Effect

variable {Op : Type} {Res : Op → Type} {E α β : Type}

/-- A call and its answer. -/
abbrev Call (Res : Op → Type) := (o : Op) × Res o

/-- The calls of a run, in order. -/
abbrev Trace (Res : Op → Type) := List (Call Res)

/-- The environment that may answer anything, and keeps a record. -/
def traced : Env Res (Trace Res) := fun o tr r tr' => tr' = tr ++ [⟨o, r⟩]

/-! ## What the record says about the outcome -/

/-- In every run of the program, outcome and record are related by `Q`. -/
def Recorded : Prog Res E α → (Outcome E α → Trace Res → Prop) → Prop
  | .ret a, Q => Q (.ret a) []
  | .raise e, Q => Q (.raise e) []
  | .spin, Q => Q .spin []
  | .call o k, Q => ∀ r, Recorded (k r) fun out tr => Q out (⟨o, r⟩ :: tr)

namespace Recorded

variable {Q Q' : Outcome E α → Trace Res → Prop}

theorem mono {p : Prog Res E α} (h : Recorded p Q) (hQ : ∀ out tr, Q out tr → Q' out tr) :
    Recorded p Q' := by
  induction p generalizing Q Q' with
  | ret a => exact hQ _ _ h
  | raise e => exact hQ _ _ h
  | spin => exact hQ _ _ h
  | call o k ih => exact fun r => ih r (h r) fun out tr => hQ out _

/-- The rule for sequencing: the record of the rest comes after the record so
far. -/
theorem bind {p : Prog Res E β} {f : β → Prog Res E α} {P : Outcome E β → Trace Res → Prop}
    (hp : Recorded p P)
    (hret : ∀ b tr, P (.ret b) tr → Recorded (f b) fun out tr' => Q out (tr ++ tr'))
    (hraise : ∀ e tr, P (.raise e) tr → Q (.raise e) tr)
    (hspin : ∀ tr, P .spin tr → Q .spin tr) : Recorded (p >>= f) Q := by
  induction p generalizing P Q with
  | ret b => exact hret b [] hp
  | raise e => exact hraise e [] hp
  | spin => exact hspin [] hp
  | call o k ih =>
    intro r
    exact ih r (hp r) (fun b tr => hret b _) (fun e tr => hraise e _) fun tr => hspin _

/-- The rule for exception handling. -/
theorem tryCatch {p : Prog Res E α} {h : E → Prog Res E α} {P : Outcome E α → Trace Res → Prop}
    (hp : Recorded p P) (hret : ∀ a tr, P (.ret a) tr → Q (.ret a) tr)
    (hraise : ∀ e tr, P (.raise e) tr → Recorded (h e) fun out tr' => Q out (tr ++ tr'))
    (hspin : ∀ tr, P .spin tr → Q .spin tr) : Recorded (p.tryCatch h) Q := by
  induction p generalizing P Q with
  | ret a => exact hret a [] hp
  | raise e => exact hraise e [] hp
  | spin => exact hspin [] hp
  | call o k ih =>
    intro r
    exact ih r (hp r) (fun a tr => hret a _) (fun e tr => hraise e _) fun tr => hspin _

/-- **The record speaks about every run.** -/
theorem exec {p : Prog Res E α} {out : Outcome E α} {tr tr' : Trace Res} (hp : Recorded p Q)
    (hx : Exec traced p tr out tr') : ∃ new, tr' = tr ++ new ∧ Q out new := by
  induction p generalizing Q tr with
  | ret a =>
    cases hx
    exact ⟨[], by simp, hp⟩
  | raise e =>
    cases hx
    exact ⟨[], by simp, hp⟩
  | spin =>
    cases hx
    exact ⟨[], by simp, hp⟩
  | call o k ih =>
    cases hx with
    | @call _ _ _ _ _ r _ hr hx =>
      unfold traced at hr
      subst hr
      obtain ⟨new, rfl, hnew⟩ := ih r (hp r) hx
      exact ⟨⟨o, r⟩ :: new, by simp, hnew⟩

end Recorded

/-! ## Good ends -/

/-- The outcomes that count as good. -/
def Well (G : E → Prop) (Q : α → Prop) : Outcome E α → Prop
  | .ret a => Q a
  | .raise e => G e
  | .spin => False

/-- The program ends well on exactly the traces of `K`. -/
def EndsWell (G : E → Prop) (K : Trace Res → Prop) : Prog Res E α → (α → Prop) → Prop
  | .ret a, Q => Q a ↔ K []
  | .raise e, _ => G e ↔ K []
  | .spin, _ => ¬ K []
  | .call o k, Q => ∀ r, EndsWell G (fun tr => K (⟨o, r⟩ :: tr)) (k r) Q

namespace EndsWell

variable {G G' : E → Prop} {K K' : Trace Res → Prop} {Q Q' : α → Prop}

theorem congr {p : Prog Res E α} (h : EndsWell G K p Q) (hK : ∀ tr, K tr ↔ K' tr) :
    EndsWell G K' p Q := by
  obtain rfl : K = K' := funext fun tr => propext (hK tr)
  exact h

/-- The rule for sequencing: the rest is judged by the traces that complete the
trace so far. -/
theorem bind {p : Prog Res E β} {f : β → Prog Res E α} {Q' : β → Prop} (hp : EndsWell G K p Q')
    (hf : ∀ b tr, (Q' b ↔ K tr) → EndsWell G (fun tr' => K (tr ++ tr')) (f b) Q) :
    EndsWell G K (p >>= f) Q := by
  induction p generalizing K with
  | ret b => exact hf b [] hp
  | raise e => exact hp
  | spin => exact hp
  | call o k ih =>
    intro r
    apply ih r (hp r)
    intro b tr htr
    exact hf b (⟨o, r⟩ :: tr) htr

/-- The rule for exception handling. -/
theorem tryCatch {p : Prog Res E α} {h : E → Prog Res E α} (hp : EndsWell G' K p Q)
    (hh : ∀ e tr, (G' e ↔ K tr) → EndsWell G (fun tr' => K (tr ++ tr')) (h e) Q) :
    EndsWell G K (p.tryCatch h) Q := by
  induction p generalizing K with
  | ret b => exact hp
  | raise e => exact hh e [] hp
  | spin => exact hp
  | call o k ih =>
    intro r
    apply ih r (hp r)
    intro e tr htr
    exact hh e (⟨o, r⟩ :: tr) htr

/-- A program that ends well is one whose record tells how it ends. -/
theorem recorded {p : Prog Res E α} (hp : EndsWell G K p Q) :
    Recorded p fun out tr => Well G Q out ↔ K tr := by
  induction p generalizing K with
  | ret a => exact hp
  | raise e => exact hp
  | spin => exact iff_of_false id hp
  | call o k ih => exact fun r => ih r (hp r)

/-- **The calculus speaks about every run**: whatever the environment answers,
the run ends well exactly if its trace is one of `K`. -/
theorem exec_iff {p : Prog Res E α} {out : Outcome E α} {tr tr' : Trace Res}
    (hp : EndsWell G K p Q) (hx : Exec traced p tr out tr') :
    ∃ new, tr' = tr ++ new ∧ (Well G Q out ↔ K new) :=
  hp.recorded.exec hx

end EndsWell

end Effect
