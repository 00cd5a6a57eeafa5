import Mathlib.Tactic

/-!
# Labelled runs

A system is a step relation `σ → ε → σ → Prop` whose labels record what each
step was asked and what it answered.

* `Run step s es s'` — the steps labelled `es`, in that order, lead from `s` to
  `s'`; `run_append_iff` cuts a run anywhere, so a statement about the end of
  every run is a statement about every state a run passes through.
* `Run.invariant`, `Run.invariant_of` — what a step preserves a run preserves,
  the second for steps whose labels satisfy a side condition.
* `Run.history` — the same for a statement about a state and the labels that led
  to it.
* `Guarded C step` — the steps that a condition on the state and the label
  allows; `Throughout` — what holds all along a run; `Run.throughout` and
  `Run.guard` lead from the one to the other and back.
* `Run.simulates` — **the simulation rule**: if every step is matched by an
  abstract step with the same label, every run is matched by an abstract run
  with the same labels.
* `Run.simulates_view` — the same where the abstract system sees only some of the
  steps.
-/

namespace Transition

variable {σ τ ε : Type}

/-- The steps labelled by the list, in that order, lead from the first state to
the second. -/
inductive Run (step : σ → ε → σ → Prop) : σ → List ε → σ → Prop where
  | nil (s : σ) : Run step s [] s
  | cons {s s' s'' : σ} {e : ε} {es : List ε} :
      step s e s' → Run step s' es s'' → Run step s (e :: es) s''

section Run

variable {step step' : σ → ε → σ → Prop} {s s' s'' : σ} {e : ε} {es es' : List ε}

@[simp] theorem run_nil_iff : Run step s [] s' ↔ s = s' := by
  refine ⟨fun h => ?_, fun h => h ▸ .nil s⟩
  cases h
  rfl

@[simp] theorem run_cons_iff :
    Run step s (e :: es) s' ↔ ∃ t, step s e t ∧ Run step t es s' := by
  refine ⟨fun h => ?_, fun ⟨t, ht, hrun⟩ => .cons ht hrun⟩
  cases h with
  | cons ht hrun => exact ⟨_, ht, hrun⟩

theorem run_append_iff :
    Run step s (es ++ es') s' ↔ ∃ t, Run step s es t ∧ Run step t es' s' := by
  induction es generalizing s with
  | nil => simp
  | cons e es ih =>
    simp only [List.cons_append, run_cons_iff, ih]
    constructor
    · rintro ⟨t, ht, u, hu, hrest⟩
      exact ⟨u, ⟨t, ht, hu⟩, hrest⟩
    · rintro ⟨u, ⟨t, ht, hu⟩, hrest⟩
      exact ⟨t, ht, u, hu, hrest⟩

theorem Run.mono (h : Run step s es s') (hstep : ∀ s e s', step s e s' → step' s e s') :
    Run step' s es s' := by
  induction h with
  | nil s => exact .nil s
  | cons ht _ ih => exact .cons (hstep _ _ _ ht) ih

/-- A run whose steps only see a view of their labels is a run over the views. -/
theorem Run.map {δ : Type} {f : δ → ε} {ds : List δ}
    (h : Run (fun s d s' => step s (f d) s') s ds s') : Run step s (ds.map f) s' := by
  induction h with
  | nil s => exact .nil s
  | cons ht _ ih => exact .cons ht ih

/-- **The invariant rule.** -/
theorem Run.invariant {I : σ → Prop} (h : Run step s es s')
    (hstep : ∀ s e s', I s → step s e s' → I s') (hs : I s) : I s' := by
  induction h with
  | nil s => exact hs
  | cons ht _ ih => exact ih (hstep _ _ _ hs ht)

/-- The invariant rule for runs all of whose labels satisfy a condition. -/
theorem Run.invariant_of {I : σ → Prop} {ok : ε → Prop} (h : Run step s es s')
    (hstep : ∀ s e s', ok e → I s → step s e s' → I s') (hok : ∀ e ∈ es, ok e) (hs : I s) :
    I s' := by
  induction h with
  | nil s => exact hs
  | cons ht _ ih =>
    exact ih (fun e he => hok e (List.mem_cons_of_mem _ he))
      (hstep _ _ _ (hok _ (List.mem_cons_self ..)) hs ht)

/-- **The invariant rule with a history**: what holds of a state may mention the
labels of the steps that led to it. -/
theorem Run.history {P : List ε → σ → Prop} (h : Run step s es s') (h0 : P [] s)
    (hstep : ∀ past t e t', Run step s past t → P past t → step t e t' → P (past ++ [e]) t') :
    P es s' := by
  induction es using List.reverseRecOn generalizing s' with
  | nil =>
    cases h
    exact h0
  | append_singleton past e ih =>
    obtain ⟨t, hpast, he⟩ := run_append_iff.1 h
    obtain ⟨t', hte, hnil⟩ := run_cons_iff.1 he
    rw [← run_nil_iff.1 hnil]
    exact hstep past t e t' hpast (ih hpast) hte

/-- A run that one more step extends. -/
theorem Run.concat (h : Run step s es s') (he : step s' e s'') : Run step s (es ++ [e]) s'' :=
  run_append_iff.2 ⟨s', h, .cons he (.nil _)⟩

/-- Where a label leaves no choice, a list of labels leaves none. -/
theorem Run.unique (hdet : ∀ s e t t', step s e t → step s e t' → t = t') (h : Run step s es s')
    (h' : Run step s es s'') : s' = s'' := by
  induction h with
  | nil s => exact run_nil_iff.1 h'
  | cons ht _ ih =>
    obtain ⟨t', ht', hrun⟩ := run_cons_iff.1 h'
    rw [← hdet _ _ _ _ ht ht'] at hrun
    exact ih hrun

/-- What holds of the label of every allowed step holds of every label of a run. -/
theorem Run.labels {ok P : ε → Prop} (h : Run step s es s')
    (hstep : ∀ s e s', ok e → step s e s' → P e) (hok : ∀ e ∈ es, ok e) : ∀ e ∈ es, P e := by
  induction h with
  | nil s => simp
  | cons ht _ ih =>
    refine List.forall_mem_cons.2 ⟨hstep _ _ _ (hok _ (List.mem_cons_self ..)) ht, ?_⟩
    exact ih fun e he => hok e (List.mem_cons_of_mem _ he)

/-- **The simulation rule.**  A relation between concrete and abstract states
that every concrete step (with an allowed label) carries over to an abstract
step carries every concrete run over to an abstract run. -/
theorem Run.simulates (astep : τ → ε → τ → Prop) {rel : σ → τ → Prop} {ok : ε → Prop}
    (h : Run step s es s')
    (hstep : ∀ s t e s', ok e → rel s t → step s e s' → ∃ t', astep t e t' ∧ rel s' t')
    (hok : ∀ e ∈ es, ok e) {t : τ} (hs : rel s t) : ∃ t', Run astep t es t' ∧ rel s' t' := by
  induction h generalizing t with
  | nil s => exact ⟨t, .nil t, hs⟩
  | cons ht _ ih =>
    obtain ⟨u, hu, hrel⟩ := hstep _ _ _ _ (hok _ (List.mem_cons_self ..)) hs ht
    obtain ⟨t', hrun, hrel'⟩ := ih (fun e he => hok e (List.mem_cons_of_mem _ he)) hrel
    exact ⟨t', .cons hu hrun, hrel'⟩

/-- The simulation rule for a system that does more than the abstract one sees. -/
theorem Run.simulates_view {α : Type} (astep : τ → α → τ → Prop) {rel : σ → τ → Prop}
    {ok : ε → Prop} {view : ε → Option α} (h : Run step s es s')
    (hstep : ∀ s t e s', ok e → rel s t → step s e s' →
      ∃ t', Run astep t (view e).toList t' ∧ rel s' t')
    (hok : ∀ e ∈ es, ok e) {t : τ} (hs : rel s t) :
    ∃ t', Run astep t (es.filterMap view) t' ∧ rel s' t' := by
  induction h generalizing t with
  | nil s => exact ⟨t, .nil t, hs⟩
  | cons ht _ ih =>
    obtain ⟨u, hu, hrel⟩ := hstep _ _ _ _ (hok _ (List.mem_cons_self ..)) hs ht
    obtain ⟨t', hrun, hrel'⟩ := ih (fun e he => hok e (List.mem_cons_of_mem _ he)) hrel
    refine ⟨t', ?_, hrel'⟩
    rw [List.filterMap_eq_flatMap_toList, List.flatMap_cons, ← List.filterMap_eq_flatMap_toList]
    exact run_append_iff.2 ⟨u, hu, hrun⟩

end Run

/-! ## Conditions on the steps, and what holds along a run -/

section Guarded

variable {step : σ → ε → σ → Prop} {s s' : σ} {es : List ε}

/-- The steps taken where the condition allows them. -/
def Guarded (C : σ → ε → Prop) (step : σ → ε → σ → Prop) : σ → ε → σ → Prop :=
  fun s e s' => C s e ∧ step s e s'

theorem Run.unguard {C : σ → ε → Prop} (h : Run (Guarded C step) s es s') : Run step s es s' :=
  h.mono fun _ _ _ hstep => hstep.2

/-- `P` holds of every state the steps `es` lead through, with the labels so
far. -/
def Throughout (step : σ → ε → σ → Prop) (s : σ) (es : List ε) (P : List ε → σ → Prop) : Prop :=
  ∀ past rest t, es = past ++ rest → Run step s past t → P past t

/-- What holds at the end of every allowed run holds throughout each of them, if
the steps are determined by their labels. -/
theorem Run.throughout {C : σ → ε → Prop} {P : List ε → σ → Prop}
    (hdet : ∀ s e t t', step s e t → step s e t' → t = t') (h : Run (Guarded C step) s es s')
    (hend : ∀ past t, Run (Guarded C step) s past t → P past t) : Throughout step s es P := by
  rintro past rest t rfl hpast
  obtain ⟨u, hu, -⟩ := run_append_iff.1 h
  rw [Run.unique hdet hpast hu.unguard]
  exact hend past u hu

/-- If a statement that holds all along a run tells of every step that it was
allowed, the run is one of allowed steps. -/
theorem Run.guard {C : σ → ε → Prop} {P : List ε → σ → Prop} (h : Run step s es s')
    (hall : Throughout step s es P)
    (hC : ∀ past t e t', P past t → step t e t' → P (past ++ [e]) t' → C t e) :
    Run (Guarded C step) s es s' := by
  refine h.history (P := fun es t => Throughout step s es P → Run (Guarded C step) s es t)
    (fun _ => .nil s) ?_ hall
  intro past t e t' hpast ih hstep hall
  have hbefore : Throughout step s past P := by
    rintro past' rest u rfl hu
    exact hall past' (rest ++ [e]) u (List.append_assoc ..) hu
  have hfirst := hbefore past [] t (List.append_nil _).symm hpast
  have hlast := hall (past ++ [e]) [] t' (List.append_nil _).symm (hpast.concat hstep)
  exact (ih hbefore).concat ⟨hC past t e t' hfirst hstep hlast, hstep⟩

end Guarded

end Transition
