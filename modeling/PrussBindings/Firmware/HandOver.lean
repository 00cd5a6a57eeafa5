import PrussBindings.Firmware.Stepper

/-!
# The hand-over to PRU0

`sendMsg_raw` returns when its message is queued, and `activateMotor` starts PRU0
after three of them: nothing makes PRU0 wait until PRU1 has stored the words.

* `currentCall`, `pulses`, `triggered` — what a run has done for the call it is in.
* `HandedOver` — what is asked of a load and of a `done`.
* `Ready` — PRU0 loads a word after PRU1 has stored it.
* `Phase`, `Phase.step` — where the three parties are in a call, and that every step
  keeps them there.
* `handedOver_of_ready` — the words are those of the current call in every run in
  which PRU0 finds them stored; `pru0_loads_stale_word` is one in which it does not.
* `triggered_of_done` — that PRU0 has raised the event before `done` needs no
  condition.
-/

namespace Stepper

open Transition

/-! ## What a run has done for its current call -/

/-- The last call of a run. -/
def currentCall (past : List Label) : Option Command :=
  past.foldl (fun call e => match e with | .call c => some c | _ => call) none

/-- The labels since the last call. -/
def sinceCall (past : List Label) : List Label :=
  past.foldl (fun since e => match e with | .call _ => [] | _ => since ++ [e]) []

/-- The pulses since the last call. -/
def pulses (past : List Label) : Nat :=
  (sinceCall past).count .pulse

/-- PRU0 has raised the event since the last call. -/
def triggered (past : List Label) : Prop :=
  .trigger ∈ sinceCall past

section History

variable (past : List Label) (e : Label)

@[simp] theorem currentCall_concat :
    currentCall (past ++ [e]) = match e with | .call c => some c | _ => currentCall past := by
  simp [currentCall]

theorem sinceCall_concat :
    sinceCall (past ++ [e]) = match e with | .call _ => [] | _ => sinceCall past ++ [e] := by
  simp [sinceCall]

@[simp] theorem pulses_concat :
    pulses (past ++ [e]) =
      match e with | .call _ => 0 | .pulse => pulses past + 1 | _ => pulses past := by
  cases e <;> simp [pulses, sinceCall_concat]

@[simp] theorem triggered_concat :
    triggered (past ++ [e]) ↔
      match e with | .call _ => False | .trigger => True | _ => triggered past := by
  cases e <;> simp [triggered, sinceCall_concat]

end History

/-- What is asked of a step: that PRU0 loads the words of the current call, and that
`done` is sent after PRU0 has made the pulses of the current call. -/
def HandedOver (past : List Label) : Label → Prop
  | .load j w => ∃ c, currentCall past = some c ∧ w = c.word j
  | .done => ∃ c, currentCall past = some c ∧ triggered past ∧
      (c.word 2).toNat ≤ pulses past ∧ (c.word 2 ≠ 0 → pulses past = (c.word 2).toNat)
  | _ => True

/-- It is asked of every step of a run. -/
def HandsOver (es : List Label) : Prop :=
  ∀ past e rest, es = past ++ e :: rest → HandedOver past e

/-! ## The pulses for a word -/

/-- The pulses PRU0 makes when `R8` is the word: it counts a pulse after it has made
it, so that 0 is met after all `2 ^ 32` values. -/
def pulsesFor (w : Word) : Nat :=
  if w = 0 then 2 ^ 32 else w.toNat

theorem pulsesFor_pos (w : Word) : 0 < pulsesFor w := by
  unfold pulsesFor
  split
  · decide
  · rename_i hw
    have hne : w.toNat ≠ 0 := fun h => hw (BitVec.eq_of_toNat_eq (by simpa using h))
    omega

theorem toNat_le_pulsesFor (w : Word) : w.toNat ≤ pulsesFor w := by
  unfold pulsesFor
  split
  · exact w.isLt.le
  · exact le_refl _

/-- `QBEQ stop, R10, R8`, on the counts. -/
theorem count_eq_iff {w r10 : Word} (hlt : r10.toNat < pulsesFor w) :
    r10 + 1 = w ↔ r10.toNat + 1 = pulsesFor w := by
  have hr := r10.isLt
  have hw := w.isLt
  have hsum : (r10 + 1).toNat = (r10.toNat + 1) % 2 ^ 32 := by simp [BitVec.toNat_add]
  rw [← BitVec.toNat_inj, hsum]
  unfold pulsesFor at hlt ⊢
  split
  · subst w
    rw [show (0 : Word).toNat = 0 from rfl]
    omega
  · rename_i hne
    rw [if_neg hne] at hlt
    have : w.toNat ≠ 0 := fun h => hne (BitVec.eq_of_toNat_eq (by simpa using h))
    omega

theorem toNat_count {w r10 : Word} (hlt : r10.toNat < pulsesFor w) (hne : r10 + 1 ≠ w) :
    (r10 + 1).toNat = r10.toNat + 1 ∧ r10.toNat + 1 < pulsesFor w := by
  have hlast : r10.toNat + 1 ≠ pulsesFor w := fun h => hne ((count_eq_iff hlt).2 h)
  have hmax : pulsesFor w ≤ 2 ^ 32 := by
    unfold pulsesFor
    split
    · exact le_refl _
    · exact w.isLt.le
  refine ⟨?_, by omega⟩
  rw [BitVec.toNat_add]
  exact Nat.mod_eq_of_lt (by simp; omega)

/-! ## Where the three parties are -/

/-- The words from the `i`-th on. -/
def Command.rest (c : Command) (i : Nat) : List Word :=
  (List.range' i (3 - i)).map c.word

theorem Command.rest_of_lt (c : Command) {i : Nat} (h : i < 3) :
    c.rest i = c.word i :: c.rest (i + 1) := by
  unfold Command.rest
  rw [show 3 - i = 3 - (i + 1) + 1 by omega, List.range'_succ, List.map_cons]

theorem Command.rest_of_ge (c : Command) {i : Nat} (h : 3 ≤ i) : c.rest i = [] := by
  simp [Command.rest, Nat.sub_eq_zero_of_le h]

/-- One more place is as it should be. -/
theorem update_eq_of_lt {f g : Nat → Word} {i : Nat} {x : Word} (hf : ∀ j < i, f j = g j)
    (hx : x = g i) : ∀ j < i + 1, Function.update f i x j = g j := by
  intro j hj
  by_cases hji : j = i
  · subst hji
    rw [Function.update_self, hx]
  · rw [Function.update_of_ne hji]
    exact hf j (by omega)

/-- The words that PRU1 has stored since it was enabled. -/
def Pru1Pc.stored : Pru1Pc → Nat
  | .stopped => 0
  | .receive i => i
  | .awaitEvent => 3
  | .notify => 3

/-- PRU0 loads a word after PRU1 has stored it. -/
def Ready (s : State) : Label → Prop
  | .load j _ => j < s.pru1.stored
  | _ => True

/-- Nothing is under way. -/
structure Still (s : State) : Prop where
  flight : s.flight = []
  answers : s.answers = 0
  event : s.event = false
  pru0 : s.pru0 = .stopped ∨ s.pru0 = .halted
  pru1 : s.pru1 = .stopped ∨ s.pru1 = .receive 3

/-- The call the ARM is in, in the history. -/
def Current (past : List Label) (s : State) : Prop :=
  currentCall past = some s.command

/-- PRU1 is to receive the words that the ARM has not sent yet after those in
flight, and has stored the others. -/
def Receives (unsent : Nat) (s : State) : Prop :=
  ∃ i ≤ 3, s.pru1 = (if i = 3 then .awaitEvent else .receive i) ∧
    s.flight ++ s.command.rest unsent = s.command.rest i ∧ ∀ j < i, s.sram j = s.command.word j

/-- PRU0 has made the pulses of the call: of as many as it was asked for if `good`. -/
def Finished (good : Prop) (past : List Label) (s : State) : Prop :=
  triggered past ∧ (good → pulses past = pulsesFor (s.command.word 2))

/-- Where PRU0 is, once it has been enabled.  If `good`, every word it has loaded was
stored. -/
def Core0 (good : Prop) (past : List Label) (s : State) : Prop :=
  match s.pru0 with
  | .stopped => False
  | .configIntc => s.event = false ∧ pulses past = 0
  | .load j regs => s.event = false ∧ j < 3 ∧ pulses past = 0 ∧
      (good → ∀ i < j, regs i = s.command.word i)
  | .generate regs r10 => s.event = false ∧ (good → regs 2 = s.command.word 2 ∧
      pulses past = r10.toNat ∧ r10.toNat < pulsesFor (s.command.word 2))
  | .trigger => s.event = false ∧ (good → pulses past = pulsesFor (s.command.word 2))
  | .halted => Finished good past s

/-- The words the ARM has sent, from `enable1` until it enables PRU0. -/
def ArmPc.sent : ArmPc → Option Nat
  | .send k => some k
  | .enable0 => some 3
  | _ => none

theorem ArmPc.sent_next (k : Fin 3) : (ArmPc.next k).sent = some (k + 1 : Nat) := by
  fin_cases k <;> rfl

/-- The phases of a call. -/
inductive Phase (good : Prop) (past : List Label) (s : State) : Prop where
  | rest (arm : s.arm = .idle ∨ s.arm = .clearBusy) (still : Still s)
  | starting (arm : s.arm = .waitIdle ∨ s.arm = .disable0 ∨ s.arm = .disable1 ∨ s.arm = .enable1)
      (current : Current past s) (fresh : pulses past = 0) (still : Still s)
  | sending (k : Nat) (arm : s.arm.sent = some k)
      (current : Current past s) (fresh : pulses past = 0) (receives : Receives k s)
      (pru0 : s.pru0 = .stopped ∨ s.pru0 = .halted) (event : s.event = false)
      (answers : s.answers = 0)
  | running (arm : s.arm = .setBusy ∨ s.arm = .waitDone) (current : Current past s)
      (receives : Receives 3 s) (core0 : Core0 good past s) (answers : s.answers = 0)
  | answering (arm : s.arm = .setBusy ∨ s.arm = .waitDone) (current : Current past s)
      (pru1 : s.pru1 = .notify) (flight : s.flight = []) (pru0 : s.pru0 = .halted)
      (event : s.event = false) (finished : Finished good past s) (answers : s.answers = 0)
  | answered (arm : s.arm = .setBusy ∨ s.arm = .waitDone) (pru1 : s.pru1 = .receive 3)
      (flight : s.flight = []) (pru0 : s.pru0 = .halted) (event : s.event = false)
      (answers : s.answers = 1)

section Steps

variable {good : Prop} {past : List Label} {s s' : State} {e : Label}

theorem pru0Step_eq_none (h : s.pru0 = .stopped ∨ s.pru0 = .halted) : pru0Step s = none := by
  rcases h with h | h <;> simp [pru0Step, h]

theorem Still.pru1Step (h : Still s) : pru1Step s = none := by
  rcases h.pru1 with hpru1 | hpru1 <;> simp [Stepper.pru1Step, hpru1, h.flight]

/-- What a step of PRU1 is. -/
theorem pru1Step_cases (h : pru1Step s = some (e, s')) :
    (∃ i x flight, s.pru1 = .receive i ∧ s.flight = x :: flight ∧ e = .store i ∧
      s' = { s with
        flight := flight
        sram := Function.update s.sram i x
        pru1 := if i + 1 = 3 then .awaitEvent else .receive (i + 1) }) ∨
    (s.pru1 = .awaitEvent ∧ s.event = true ∧ e = .seen ∧
      s' = { s with event := false, pru1 := .notify }) ∨
    (s.pru1 = .notify ∧ e = .done ∧
      s' = { s with answers := s.answers + 1, pru1 := .receive 3 }) := by
  unfold Stepper.pru1Step at h
  split at h
  · cases h
  · rename_i i hpru1
    split at h
    · cases h
    · rename_i x flight hflight
      cases h
      exact .inl ⟨i, x, flight, hpru1, hflight, rfl, rfl⟩
  · rename_i hpru1
    split at h
    · rename_i hevent
      cases h
      exact .inr (.inl ⟨hpru1, hevent, rfl, rfl⟩)
    · cases h
  · rename_i hpru1
    cases h
    exact .inr (.inr ⟨hpru1, rfl, rfl⟩)

theorem Receives.pru1_ne_notify {k : Nat} (h : Receives k s) : s.pru1 ≠ .notify := by
  obtain ⟨i, -, hpru1, -⟩ := h
  rw [hpru1]
  split <;> simp

/-- PRU1 stores a word of the call, or has stored all three and sees the event. -/
theorem Receives.pru1Step {k : Nat} (h : Receives k s) (hstep : pru1Step s = some (e, s')) :
    (∃ i flight sram pru1, e = .store i ∧
      s' = { s with flight := flight, sram := sram, pru1 := pru1 } ∧ Receives k s') ∨
    (e = .seen ∧ s.event = true ∧ s.flight = [] ∧
      s' = { s with event := false, pru1 := .notify }) := by
  have hnotify := h.pru1_ne_notify
  obtain ⟨i, hi, hpru1, hflight, hsram⟩ := h
  obtain ⟨i', x, flight, hpru1', hq, rfl, rfl⟩ | ⟨hpru1', hevent, rfl, rfl⟩ | ⟨hpru1', -⟩ :=
    pru1Step_cases hstep
  · rw [hpru1] at hpru1'
    split at hpru1'
    · cases hpru1'
    cases hpru1'
    rename_i hlast
    have hlt : i < 3 := by omega
    rw [hq, Command.rest_of_lt _ hlt, List.cons_append, List.cons.injEq] at hflight
    exact .inl ⟨i, _, _, _, rfl, rfl, i + 1, hlt, rfl, hflight.2,
      update_eq_of_lt hsram hflight.1⟩
  · rw [hpru1] at hpru1'
    split at hpru1'
    · rename_i hlast
      rw [hlast, Command.rest_of_ge _ (le_refl 3)] at hflight
      exact .inr ⟨rfl, hevent, (List.append_eq_nil_iff.1 hflight).1, rfl⟩
    · cases hpru1'
  · exact absurd hpru1' hnotify

/-- A word that PRU1 has stored is that of the call. -/
theorem Receives.sram_eq {k j : Nat} (h : Receives k s) (hj : j < s.pru1.stored) :
    s.sram j = s.command.word j := by
  obtain ⟨i, -, hpru1, -, hsram⟩ := h
  refine hsram j ?_
  rw [hpru1] at hj
  split at hj
  · rename_i hi
    exact hi ▸ hj
  · exact hj

/-- A step of PRU0, which loads what is in the shared memory and makes its pulses. -/
theorem Core0.pru0Step (h : Core0 good past s) (hsram : ∀ j w, good → e = .load j w →
    s.sram j = s.command.word j) (hstep : pru0Step s = some (e, s')) :
    Core0 good (past ++ [e]) s' ∧ (∃ event pru0, s' = { s with event := event, pru0 := pru0 }) ∧
      currentCall (past ++ [e]) = currentCall past := by
  unfold Stepper.pru0Step at hstep
  unfold Core0 at h
  split at hstep
  · cases hstep
  · cases hstep
    rename_i hpru0
    simp only [hpru0] at h
    refine ⟨?_, ⟨_, _, rfl⟩, by simp⟩
    simp [Core0, h.2]
  · cases hstep
    rename_i j regs hpru0
    simp only [hpru0] at h
    obtain ⟨hevent, hj, hnone, hregs⟩ := h
    refine ⟨?_, ⟨_, _, rfl⟩, by simp⟩
    have hregs' (hgood : good) : ∀ i < j + 1,
        Function.update regs j (s.sram j) i = s.command.word i :=
      update_eq_of_lt (hregs hgood) (hsram j _ hgood rfl)
    by_cases hlast : j + 1 = 3
    · simp only [Core0, if_pos hlast, pulses_concat]
      refine ⟨hevent, fun hgood => ⟨hregs' hgood 2 (by omega), by simpa using hnone, ?_⟩⟩
      exact pulsesFor_pos _
    · simp only [Core0, if_neg hlast, pulses_concat]
      exact ⟨hevent, by omega, hnone, hregs'⟩
  · cases hstep
    rename_i regs r10 hpru0
    simp only [hpru0] at h
    obtain ⟨hevent, hcount⟩ := h
    refine ⟨?_, ⟨_, _, rfl⟩, by simp⟩
    by_cases hlast : r10 + 1 = regs 2
    · simp only [Core0, if_pos hlast, pulses_concat]
      refine ⟨hevent, fun hgood => ?_⟩
      obtain ⟨hregs, hpulses, hlt⟩ := hcount hgood
      rw [hpulses]
      exact (count_eq_iff hlt).1 (hlast.trans hregs)
    · simp only [Core0, if_neg hlast, pulses_concat]
      refine ⟨hevent, fun hgood => ?_⟩
      obtain ⟨hregs, hpulses, hlt⟩ := hcount hgood
      obtain ⟨hnext, hlt'⟩ := toNat_count hlt (hregs ▸ hlast)
      exact ⟨hregs, by rw [hpulses, hnext], by rwa [hnext]⟩
  · cases hstep
    rename_i hpru0
    simp only [hpru0] at h
    refine ⟨?_, ⟨_, _, rfl⟩, by simp⟩
    simp only [Core0, Finished, triggered_concat, pulses_concat]
    exact ⟨trivial, h.2⟩
  · cases hstep

/-- The event is that of the call. -/
theorem Core0.of_event (h : Core0 good past s) (hevent : s.event = true) :
    s.pru0 = .halted ∧ Finished good past s := by
  unfold Core0 at h
  split at h
  case h_6 hpru0 => exact ⟨hpru0, h⟩
  all_goals simp [hevent] at h

/-! ## Every step keeps the phase -/

theorem Phase.call (h : Phase good past s) (c : Command) (harm : s.arm = .idle) :
    Phase good (past ++ [.call c]) { s with arm := .waitIdle, command := c } := by
  cases h with
  | rest _ still =>
    exact .starting (.inl rfl) (by simp [Current]) (by simp)
      ⟨still.flight, still.answers, still.event, still.pru0, still.pru1⟩
  | starting arm => simp [harm] at arm
  | sending _ arm => simp [harm, ArmPc.sent] at arm
  | running arm => simp [harm] at arm
  | answering arm => simp [harm] at arm
  | answered arm => simp [harm] at arm

/-- Until PRU1 is enabled nothing is under way. -/
theorem Phase.of_starting (arm : s.arm = .waitIdle ∨ s.arm = .disable0 ∨ s.arm = .disable1 ∨
    s.arm = .enable1) (current : Current past s) (fresh : pulses past = 0) (still : Still s)
    (hstep : armStep s = some s') : Phase good (past ++ [.arm]) s' := by
  have current : Current (past ++ [.arm]) s := by simpa [Current] using current
  have fresh : pulses (past ++ [.arm]) = 0 := by simpa using fresh
  obtain ⟨flight, answers, event, pru0, pru1⟩ := still
  rcases arm with arm | arm | arm | arm <;>
    simp only [Stepper.armStep, arm, Option.ite_none_left_eq_some] at hstep
  · obtain ⟨-, hs⟩ := hstep
    cases hs
    exact .starting (.inr (.inl rfl)) current fresh ⟨flight, answers, event, pru0, pru1⟩
  · cases hstep
    exact .starting (.inr (.inr (.inl rfl))) current fresh
      ⟨flight, answers, event, .inl rfl, pru1⟩
  · cases hstep
    exact .starting (.inr (.inr (.inr rfl))) current fresh
      ⟨flight, answers, event, pru0, .inl rfl⟩
  · cases hstep
    refine .sending 0 rfl current fresh ⟨0, by omega, rfl, ?_, ?_⟩ pru0 event answers
    · simp [flight]
    · exact fun j hj => absurd hj (Nat.not_lt_zero j)

/-- A word more is in flight, or PRU0 is enabled after the last one. -/
theorem Phase.of_sending {k : Nat} (arm : s.arm.sent = some k) (current : Current past s)
    (fresh : pulses past = 0) (receives : Receives k s) (pru0 : s.pru0 = .stopped ∨ s.pru0 = .halted)
    (event : s.event = false) (answers : s.answers = 0) (hstep : armStep s = some s') :
    Phase good (past ++ [.arm]) s' := by
  have current : Current (past ++ [.arm]) s := by simpa [Current] using current
  have fresh : pulses (past ++ [.arm]) = 0 := by simpa using fresh
  cases harm : s.arm with
  | send i =>
    simp only [Stepper.armStep, harm] at hstep
    cases hstep
    have hk : i = k := by simpa [harm, ArmPc.sent] using arm
    subst hk
    obtain ⟨m, hm, hpru1, hflight, hsram⟩ := receives
    refine .sending (i + 1) (ArmPc.sent_next i) current fresh ⟨m, hm, hpru1, ?_, hsram⟩ pru0
      event answers
    rw [s.command.rest_of_lt i.isLt] at hflight
    simpa using hflight
  | enable0 =>
    simp only [Stepper.armStep, harm] at hstep
    cases hstep
    have hk : 3 = k := by simpa [harm, ArmPc.sent] using arm
    subst hk
    exact .running (.inl rfl) current receives ⟨event, fresh⟩ answers
  | _ => simp [harm, ArmPc.sent] at arm

theorem Phase.armStep (h : Phase good past s) (hstep : armStep s = some s') :
    Phase good (past ++ [.arm]) s' := by
  cases h with
  | rest arm still =>
    rcases arm with arm | arm <;> simp only [Stepper.armStep, arm, reduceCtorEq] at hstep
    cases hstep
    exact .rest (.inl rfl) ⟨still.flight, still.answers, still.event, still.pru0, still.pru1⟩
  | starting arm current fresh still => exact .of_starting arm current fresh still hstep
  | sending k arm current fresh receives pru0 event answers =>
    exact .of_sending arm current fresh receives pru0 event answers hstep
  | running arm current receives core0 answers =>
    rcases arm with arm | arm <;> simp only [Stepper.armStep, arm, answers, reduceCtorEq] at hstep
    cases hstep
    exact .running (.inr rfl) (by simpa [Current] using current) receives
      (by simpa [Core0, Finished] using core0) rfl
  | answering arm current pru1 flight pru0 event finished answers =>
    rcases arm with arm | arm <;> simp only [Stepper.armStep, arm, answers, reduceCtorEq] at hstep
    cases hstep
    exact .answering (.inr rfl) (by simpa [Current] using current) pru1 flight pru0 event
      (by simpa [Finished] using finished) rfl
  | answered arm pru1 flight pru0 event answers =>
    rcases arm with arm | arm <;> simp only [Stepper.armStep, arm, answers] at hstep <;>
      cases hstep
    · exact .answered (.inr rfl) pru1 flight pru0 event rfl
    · exact .rest (.inr rfl) ⟨flight, rfl, event, .inr pru0, .inr pru1⟩

theorem Phase.pru1Step (h : Phase good past s) (hstep : pru1Step s = some (e, s')) :
    Phase good (past ++ [e]) s' := by
  cases h with
  | rest _ still => simp [still.pru1Step] at hstep
  | starting _ _ _ still => simp [still.pru1Step] at hstep
  | sending k arm current fresh receives pru0 event answers =>
    obtain ⟨i, flight, sram, pru1, rfl, rfl, receives'⟩ | ⟨-, hevent, -⟩ :=
      receives.pru1Step hstep
    · exact .sending k arm (by simpa [Current] using current) (by simpa using fresh) receives'
        pru0 event answers
    · simp [event] at hevent
  | running arm current receives core0 answers =>
    obtain ⟨i, flight, sram, pru1, rfl, rfl, receives'⟩ | ⟨rfl, hevent, hflight, rfl⟩ :=
      receives.pru1Step hstep
    · exact .running arm (by simpa [Current] using current) receives'
        (by simpa [Core0, Finished] using core0) answers
    · obtain ⟨hpru0, finished⟩ := core0.of_event hevent
      exact .answering arm (by simpa [Current] using current) rfl hflight hpru0 rfl
        (by simpa [Finished] using finished) answers
  | answering arm current pru1 flight pru0 event finished answers =>
    simp only [Stepper.pru1Step, pru1] at hstep
    cases hstep
    exact .answered arm rfl flight pru0 event (by simp [answers])
  | answered _ pru1 flight => simp [Stepper.pru1Step, pru1, flight] at hstep

/-- PRU0 runs only where the ARM waits for its pulses. -/
theorem Phase.of_pru0Step (h : Phase good past s) (hstep : pru0Step s = some (e, s')) :
    (s.arm = .setBusy ∨ s.arm = .waitDone) ∧ Current past s ∧ Receives 3 s ∧
      Core0 good past s ∧ s.answers = 0 := by
  cases h with
  | rest _ still => simp [pru0Step_eq_none still.pru0] at hstep
  | starting _ _ _ still => simp [pru0Step_eq_none still.pru0] at hstep
  | sending _ _ _ _ _ pru0 => simp [pru0Step_eq_none pru0] at hstep
  | running arm current receives core0 answers => exact ⟨arm, current, receives, core0, answers⟩
  | answering _ _ _ _ pru0 => simp [pru0Step_eq_none (.inr pru0)] at hstep
  | answered _ _ _ pru0 => simp [pru0Step_eq_none (.inr pru0)] at hstep

theorem Phase.pru0Step (h : Phase good past s) (hready : good → Ready s e)
    (hstep : pru0Step s = some (e, s')) : Phase good (past ++ [e]) s' := by
  obtain ⟨arm, current, receives, core0, answers⟩ := h.of_pru0Step hstep
  have hsram : ∀ j w, good → e = .load j w → s.sram j = s.command.word j := by
    rintro j w hgood rfl
    exact receives.sram_eq (hready hgood)
  obtain ⟨core0', ⟨event, pru0, rfl⟩, hcall⟩ := core0.pru0Step hsram hstep
  exact .running arm (hcall.trans current) receives core0' answers

/-- **The step lemma.** -/
theorem Phase.step (h : Phase good past s) (hready : good → Ready s e) (hstep : Step s e s') :
    Phase good (past ++ [e]) s' := by
  cases hstep with
  | call c harm => exact h.call c harm
  | arm hstep => exact h.armStep hstep
  | pru1 hstep => exact h.pru1Step hstep
  | pru0 hstep => exact h.pru0Step hready hstep

/-! ## What the phases say of a step -/

/-- A load is one of PRU0, of what is in the shared memory. -/
theorem load_of_step {j : Nat} {w : Word} (h : Step s (.load j w) s') :
    pru0Step s = some (.load j w, s') ∧ w = s.sram j := by
  cases h with
  | pru1 hstep =>
    obtain ⟨_, _, _, -, -, h, -⟩ | ⟨-, -, h, -⟩ | ⟨-, h, -⟩ := pru1Step_cases hstep <;> cases h
  | pru0 hstep =>
    refine ⟨hstep, ?_⟩
    unfold Stepper.pru0Step at hstep
    split at hstep <;> cases hstep
    rfl

/-- `done` is sent where PRU1 has seen the event. -/
theorem notify_of_step (h : Step s .done s') : s.pru1 = .notify := by
  cases h with
  | pru1 hstep =>
    obtain ⟨_, _, _, -, -, h, -⟩ | ⟨-, -, h, -⟩ | ⟨hpru1, -⟩ := pru1Step_cases hstep
    · cases h
    · cases h
    · exact hpru1
  | pru0 hstep =>
    unfold Stepper.pru0Step at hstep
    split at hstep <;> cases hstep

theorem Phase.of_notify (h : Phase good past s) (hpru1 : s.pru1 = .notify) :
    Current past s ∧ Finished good past s := by
  cases h with
  | rest _ still => have := still.pru1; simp [hpru1] at this
  | starting _ _ _ still => have := still.pru1; simp [hpru1] at this
  | sending _ _ _ _ receives => exact absurd hpru1 receives.pru1_ne_notify
  | running _ _ receives => exact absurd hpru1 receives.pru1_ne_notify
  | answering _ current _ _ _ _ finished => exact ⟨current, finished⟩
  | answered _ pru1 => simp [hpru1] at pru1

/-- Where the phases are kept, a step hands over as it is asked to. -/
theorem Phase.handedOver (h : Phase good past s) (hgood : good) (hready : Ready s e)
    (hstep : Step s e s') : HandedOver past e := by
  cases e with
  | load j w =>
    obtain ⟨hpru0, rfl⟩ := load_of_step hstep
    obtain ⟨-, current, receives, -⟩ := h.of_pru0Step hpru0
    exact ⟨s.command, current, receives.sram_eq hready⟩
  | done =>
    obtain ⟨current, htriggered, hpulses⟩ := h.of_notify (notify_of_step hstep)
    refine ⟨s.command, current, htriggered, ?_, fun hne => ?_⟩
    · rw [hpulses hgood]
      exact toNat_le_pulsesFor _
    · rw [hpulses hgood, pulsesFor, if_neg hne]
  | _ => trivial

end Steps

/-! ## Every run -/

theorem Phase.init (good : Prop) (sram : Nat → Word) : Phase good [] (.init sram) :=
  .rest (.inl rfl) ⟨rfl, rfl, rfl, .inl rfl, .inl rfl⟩

/-- **The run lemma.** -/
theorem Phase.run {good : Prop} {sram : Nat → Word} {es : List Label} {s : State}
    (h : Run (Guarded (fun s e => good → Ready s e) Step) (.init sram) es s) :
    Phase good es s :=
  h.history (Phase.init good sram) fun _ _ _ _ _ hphase hstep => hphase.step hstep.1 hstep.2

/-- **In every run in which PRU0 finds each word stored, it loads the words of the
current call, and `done` is sent after it has made that call's pulses.** -/
theorem handedOver_of_ready {sram : Nat → Word} {es : List Label} {s : State}
    (h : Run (Guarded Ready Step) (.init sram) es s) : HandsOver es := by
  rintro past e rest rfl
  obtain ⟨t, hpast, hrest⟩ := run_append_iff.1 h
  obtain ⟨u, ⟨hready, hstep⟩, -⟩ := run_cons_iff.1 hrest
  have hphase : Phase True past t :=
    Phase.run (hpast.mono fun _ _ _ hstep => ⟨fun _ => hstep.1, hstep.2⟩)
  exact hphase.handedOver trivial hready hstep

/-- A call of one pulse, in which PRU0 is enabled after PRU1 has stored the words. -/
def onePulse : List Label :=
  [.call ⟨50, 100, 1⟩, .arm, .arm, .arm, .arm, .arm, .arm, .arm, .store 0, .store 1, .store 2,
    .arm, .config, .load 0 50, .load 1 100, .load 2 1, .pulse, .trigger, .seen, .done]

theorem handedOver_of_ready_onePulse : HandsOver onePulse := by
  have hrun : ∃ s, Run (Guarded Ready Step) (.init fun _ => 0) onePulse s :=
    ⟨_, .cons ⟨trivial, .call _ rfl⟩ <| .cons ⟨trivial, .arm rfl⟩ <|
      .cons ⟨trivial, .arm rfl⟩ <| .cons ⟨trivial, .arm rfl⟩ <| .cons ⟨trivial, .arm rfl⟩ <|
      .cons ⟨trivial, .arm rfl⟩ <| .cons ⟨trivial, .arm rfl⟩ <| .cons ⟨trivial, .arm rfl⟩ <|
      .cons ⟨trivial, .pru1 rfl⟩ <| .cons ⟨trivial, .pru1 rfl⟩ <|
      .cons ⟨trivial, .pru1 rfl⟩ <| .cons ⟨trivial, .arm rfl⟩ <| .cons ⟨trivial, .pru0 rfl⟩ <|
      .cons ⟨show 0 < 3 by omega, .pru0 rfl⟩ <| .cons ⟨show 1 < 3 by omega, .pru0 rfl⟩ <|
      .cons ⟨show 2 < 3 by omega, .pru0 rfl⟩ <| .cons ⟨trivial, .pru0 rfl⟩ <|
      .cons ⟨trivial, .pru0 rfl⟩ <| .cons ⟨trivial, .pru1 rfl⟩ <|
      .cons ⟨trivial, .pru1 rfl⟩ <| .nil _⟩
  obtain ⟨s, hrun⟩ := hrun
  exact handedOver_of_ready hrun

/-- PRU0, enabled when the words are queued, loads what was in the shared memory. -/
theorem pru0_loads_stale_word :
    ¬ ∀ sram es s, Run Step (.init sram) es s → HandsOver es := by
  intro h
  let es : List Label := [.call ⟨50, 100, 10⟩, .arm, .arm, .arm, .arm, .arm, .arm, .arm, .arm,
    .config]
  have hrun : ∃ s, Run Step (.init fun _ => 0) (es ++ [.load 0 0]) s :=
    ⟨_, .cons (.call _ rfl) <| .cons (.arm rfl) <| .cons (.arm rfl) <| .cons (.arm rfl) <|
      .cons (.arm rfl) <| .cons (.arm rfl) <| .cons (.arm rfl) <| .cons (.arm rfl) <|
      .cons (.arm rfl) <| .cons (.pru0 rfl) <| .cons (.pru0 rfl) <| .nil _⟩
  obtain ⟨s, hrun⟩ := hrun
  obtain ⟨c, hcall, hword⟩ := h _ _ _ hrun es (.load 0 0) [] rfl
  obtain rfl : (⟨50, 100, 10⟩ : Command) = c := by simpa [es, currentCall] using hcall
  exact absurd hword (by decide)

/-- Whenever PRU0 loads the words, `done` is sent in a call after PRU0 has raised the
event in it. -/
theorem triggered_of_done {sram : Nat → Word} {past rest : List Label} {s : State}
    (h : Run Step (.init sram) (past ++ .done :: rest) s) :
    triggered past ∧ (currentCall past).isSome := by
  obtain ⟨t, hpast, hrest⟩ := run_append_iff.1 h
  obtain ⟨u, hstep, -⟩ := run_cons_iff.1 hrest
  have hphase : Phase False past t :=
    Phase.run (hpast.mono fun _ _ _ hstep => ⟨fun hgood => hgood.elim, hstep⟩)
  obtain ⟨current, htriggered, -⟩ := hphase.of_notify (notify_of_step hstep)
  rw [Current] at current
  exact ⟨htriggered, by simp [current]⟩

end Stepper
