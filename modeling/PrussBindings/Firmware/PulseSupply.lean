import PrussBindings.Firmware.HandOver
import PrussBindings.Firmware.SharedRam
import PrussBindings.Lib.PruPulse

/-!
# The pulses of the stepper motor

`example7-stepper-control/PRU0/pulse-supply.asm`: `start` loads three words from
the shared memory, makes pulses on `R30.t0`, and returns.

* `text`, `program` — the listing.
* `pulse` — what is seen of a pulse of the pin.
* `run_start` — **what `start` does, whatever the three words are**; the number of
  pulses is the `pulsesFor` of the model of the three parties.
* `makesPulses_iff` — it makes as many pulses as it is asked for exactly if that is
  not zero.
-/

namespace PulseSupply

open PruIsa SharedRam
open Stepper (pulsesFor)

/-! ## The listing -/

inductive Label where
  | start
  | countCheck
  | sampleStart
  | sampleHigh
  | sampleLow
  | stop
  deriving DecidableEq, Repr

/-- The instructions under each label. -/
def text : Label → List (Instr Label)
  | .start => [
    .ldi32 R9 pruSram,
    .sub R6 R6 R6,
    .sub R7 R7 R7,
    .sub R8 R8 R8,
    .lbbo R6 R9 (.imm 0) 4,
    .lbbo R7 R9 (.imm 4) 4,
    .lbbo R8 R9 (.imm 8) 4,
    .ldi R11 0,
    .ldi R10 0,
    .qba .sampleStart,
    -- "To equalize the pulse count"; the branch before it is always taken
    .add R8 R8 (.imm 1)]
  | .countCheck => [
    .add R10 R10 (.imm 1),
    .qbeq .stop R10 R8]
  | .sampleStart => [.set R30 R30 0]
  | .sampleHigh => [
    .add R11 R11 (.imm 1),
    .qbne .sampleHigh R11 R6,
    .nop,
    .nop,
    .clr R30 R30 0]
  | .sampleLow => [
    .add R11 R11 (.imm 1),
    .qbne .sampleLow R11 R7,
    .sub R11 R11 R11,
    .qba .countCheck]
  | .stop => [.jmp R3.w2]

def next : Label → Option Label
  | .start => some .countCheck
  | .countCheck => some .sampleStart
  | .sampleStart => some .sampleHigh
  | .sampleHigh => some .sampleLow
  | .sampleLow => some .stop
  | .stop => none

/-- `pulse-supply.asm`. -/
def program : Program Label := ⟨text, next⟩

/-- What is watched: the pin `R30.t0` and the counter `R11`. -/
def watch : Watch Label Empty where
  program := program
  bit := 0
  counter := R11
  counter_ne := by decide
  marks _ _ := []

/-- The three words in the shared memory. -/
def onCycles (d : Data) : Word := d.word pruSram
def totalCycles (d : Data) : Word := d.word (pruSram + 4)
def noOfPulses (d : Data) : Word := d.word (pruSram + 8)

/-- The pin rises, stays high for some increments of the counter, falls, and stays low for
some. -/
def pulse (high low : ℕ) : List (Event Empty) :=
  .rise :: List.replicate high (.count true) ++ .fall :: List.replicate low (.count false)

/-! ## A pulse, and the count -/

/-- The blocks of a pulse. -/
def pulseLoop : PulseLoop watch where
  start := .sampleStart
  high := .sampleHigh
  low := .sampleLow
  onPart := .all
  totalPart := .all
  on := R6
  total := R7
  nops := 2
  rest := [.sub R11 R11 R11, .qba .countCheck]
  text_start := rfl
  next_start := rfl
  text_high := rfl
  next_high := rfl
  text_low := rfl
  onPart_lo := Part.lo_all
  totalPart_lo := Part.lo_all
  marks_high _ := rfl
  marks_low _ := rfl
  on_keeps h := h.read (by decide)
  total_keeps h := h.read (by decide)

/-- Before a pulse: the bounds and the number are in their registers, `R10` counts the
pulses, and the pin is low. -/
structure Ready (on total n k : Word) (d : Data) : Prop where
  on : d.read R6 = on
  total : d.read R7 = total
  number : d.read R8 = n
  counter : d.read R11 = 0
  count : d.read R10 = k
  low : pin 0 d = false

variable {on total n k : Word} {d : Data}

/-- The pulse is counted, and the count compared. -/
theorem does_countCheck (d : Data) :
    Does program watch.see ⟨.countCheck, 0, d⟩ []
      ⟨if d.read R10 + 1 = d.read R8 then .stop else .sampleStart, 0,
        d.write R10 (d.read R10 + 1)⟩ :=
  Does.countCheck (r := R10) (b := R8) rfl rfl
    (d.read_write_of_apart (f := R10) (g := R8) _ (by decide))
    fun k _ => Watch.see_nil (w := watch) rfl rfl k

/-- The loops of one pulse. -/
theorem does_loops (h : Ready on total n k d) :
    ∃ d', Does program watch.see ⟨.sampleStart, 0, d⟩
        (pulse (laps 32 0 on.toNat) (laps 32 on.toNat total.toNat)) ⟨.countCheck, 0, d'⟩ ∧
      Ready on total n k d' ∧ Keeps [R11, R30] d d' := by
  have hlow : pin watch.bit d = false := h.low
  have hon : pulseLoop.on.val d = on := h.on
  have htotal : pulseLoop.total.val d = total := h.total
  obtain ⟨d', hpulse, hk, hzero, hpin⟩ := pulseLoop.does_and_back (d := d)
    (n := laps 32 0 on.toNat) (m := laps 32 on.toNat total.toNat) rfl h.counter
    (by rw [hon]; exact on.isLt) (by rw [htotal]; exact total.isLt) (by rw [hon]; rfl)
    (by rw [htotal]; exact (laps_laps on.isLt _).symm)
  rw [hlow] at hpulse
  refine ⟨d', hpulse, ?_, hk⟩
  constructor
  · exact (hk.read (by decide)).trans h.on
  · exact (hk.read (by decide)).trans h.total
  · exact (hk.read (by decide)).trans h.number
  · exact hzero
  · exact (hk.read (by decide)).trans h.count
  · exact hpin

/-- One pulse, and the count after it. -/
theorem does_pulse (h : Ready on total n k d) :
    ∃ d', Does program watch.see ⟨.sampleStart, 0, d⟩
        (pulse (laps 32 0 on.toNat) (laps 32 on.toNat total.toNat))
        ⟨if k + 1 = n then .stop else .sampleStart, 0, d'⟩ ∧
      Ready on total n (k + 1) d' ∧ Keeps [R10, R11, R30] d d' := by
  obtain ⟨d₁, hpulse, h₁, hk₁⟩ := does_loops h
  have hcheck := does_countCheck d₁
  rw [h₁.count, h₁.number] at hcheck
  have hk₂ : Keeps [R10] d₁ (d₁.write R10 (k + 1)) := .write (by decide) d₁ _
  refine ⟨_, by simpa using hpulse.trans hcheck, ?_, (hk₁.mono (by decide)).trans (hk₂.mono (by decide))⟩
  constructor
  · exact (hk₂.read (by decide)).trans h₁.on
  · exact (hk₂.read (by decide)).trans h₁.total
  · exact (hk₂.read (by decide)).trans h₁.number
  · exact (hk₂.read (by decide)).trans h₁.counter
  · exact d₁.read_write_reg _ _
  · rw [pin, hk₂.read (by decide)]
    exact h₁.low

/-- The pulses from one count on. -/
theorem does_pulses {m : ℕ} (h : Ready on total n k d) (hm : k.toNat + (m + 1) = pulsesFor n) :
    ∃ d', Does program watch.see ⟨.sampleStart, 0, d⟩
        (List.replicate (m + 1) (pulse (laps 32 0 on.toNat) (laps 32 on.toNat total.toNat))).flatten
        ⟨.stop, 0, d'⟩ ∧
      pin 0 d' = false ∧ Keeps [R10, R11, R30] d d' := by
  have hlt : k.toNat < pulsesFor n := by omega
  obtain ⟨d₁, hpulse, hready, hk⟩ := does_pulse h
  induction m generalizing k d d₁ with
  | zero =>
    rw [if_pos ((Stepper.count_eq_iff hlt).2 hm)] at hpulse
    exact ⟨d₁, by simpa using hpulse, hready.low, hk⟩
  | succ m ih =>
    have hne : ¬ k + 1 = n := fun heq => by
      have := (Stepper.count_eq_iff hlt).1 heq
      omega
    rw [if_neg hne] at hpulse
    obtain ⟨hcount, hlt'⟩ := Stepper.toNat_count hlt hne
    obtain ⟨d₂, hpulse', hready', hk'⟩ := does_pulse hready
    obtain ⟨d', hdoes, hpin, hk''⟩ := ih hready (by omega) (by omega) d₂ hpulse' hready' hk'
    refine ⟨d', ?_, hpin, hk.trans hk''⟩
    rw [List.replicate_succ, List.flatten_cons]
    exact hpulse.trans hdoes

/-! ## The whole of `start` -/

/-- The words are loaded, and the counters cleared. -/
theorem does_start (d : Data) (hlow : pin 0 d = false) :
    ∃ d', Does program watch.see ⟨.start, 0, d⟩ [] ⟨.sampleStart, 0, d'⟩ ∧
      Ready (onCycles d) (totalCycles d) (noOfPulses d) 0 d' ∧
      Keeps [R6, R7, R8, R9, R10, R11] d d' := by
  have hload := Watch.straight (w := watch) (l := .start) (n := 0) ((text .start).take 9) rfl rfl
    rfl (fun _ _ => rfl) d
  have hk : Keeps [R6, R7, R8, R9, R10, R11] d (Instr.effects ((text .start).take 9) d) :=
    Instr.keeps_effects (by decide) d
  refine ⟨_, hload.trans (Watch.jump rfl rfl (fun _ => rfl) rfl rfl), ?_, hk⟩
  constructor
  · simp (disch := decide) [text, Data.read_write_of_apart, onCycles]
  · simp (disch := decide) [text, Data.read_write_of_apart, totalCycles]
  · simp (disch := decide) [text, Data.read_write_of_apart, noOfPulses]
  · simp (disch := decide) [text, Data.read_write_of_apart]
  · simp (disch := decide) [text, Data.read_write_of_apart]
  · rw [pin, hk.read (by decide)]
    exact hlow

/-- **What `start` does, whatever the three words are**: it returns, after as many
pulses as the count of pulses, made before it is compared, takes to reach `R8`. -/
theorem run_start (d : Data) (hlow : pin 0 d = false) :
    ∃ d', Does program watch.see ⟨.start, 0, d⟩
        (List.replicate (pulsesFor (noOfPulses d)) (pulse (laps 32 0 (onCycles d).toNat)
          (laps 32 (onCycles d).toNat (totalCycles d).toNat))).flatten ⟨.stop, 0, d'⟩ ∧
      pin 0 d' = false ∧ d'.read R3.w2 = d.read R3.w2 := by
  obtain ⟨d₁, hstart, hready, hk₁⟩ := does_start d hlow
  have hpos := Stepper.pulsesFor_pos (noOfPulses d)
  obtain ⟨m, hm⟩ : ∃ m, pulsesFor (noOfPulses d) = m + 1 := ⟨pulsesFor (noOfPulses d) - 1, by omega⟩
  obtain ⟨d', hpulses, hpin, hk₂⟩ := does_pulses hready (m := m) (by simp [hm])
  refine ⟨d', ?_, hpin, ?_⟩
  · rw [hm]
    simpa using hstart.trans hpulses
  · rw [hk₂.read (by decide), hk₁.read (by decide)]

theorem step_stop (d : Data) : program.step ⟨.stop, 0, d⟩ = none := rfl

/-- `start` returns after exactly the pulses it is asked for, each of them high for the
one number of increments and low for the rest of the other, and with the pin low. -/
def MakesPulses (d : Data) : Prop :=
  ∃ d', Does program watch.see ⟨.start, 0, d⟩
      (List.replicate (noOfPulses d).toNat (pulse (onCycles d).toNat
        ((totalCycles d).toNat - (onCycles d).toNat))).flatten ⟨.stop, 0, d'⟩ ∧
    pin 0 d' = false ∧ d'.read R3.w2 = d.read R3.w2

/-- It makes a pulse before it counts any. -/
theorem not_makesPulses_zero {d : Data} (hlow : pin 0 d = false) (h : noOfPulses d = 0) :
    ¬ MakesPulses d := by
  rintro ⟨d₁, hasked, -⟩
  obtain ⟨d₂, hdone, -⟩ := run_start d hlow
  obtain ⟨heq, -⟩ := hasked.unique_of_stopped (step_stop d₁) hdone (step_stop d₂)
  obtain ⟨m, hm⟩ : ∃ m, pulsesFor (noOfPulses d) = m + 1 :=
    Nat.exists_eq_succ_of_ne_zero (Stepper.pulsesFor_pos _).ne'
  rw [h] at heq hm
  rw [hm, List.replicate_succ] at heq
  simp [pulse] at heq

/-- **As many pulses as asked for, if any.** -/
theorem makesPulses_iff {d : Data} (hlow : pin 0 d = false) (hon : 1 ≤ (onCycles d).toNat)
    (htotal : (onCycles d).toNat < (totalCycles d).toNat) :
    MakesPulses d ↔ noOfPulses d ≠ 0 := by
  refine ⟨fun h hzero => not_makesPulses_zero hlow hzero h, fun hne => ?_⟩
  have hhigh : laps 32 0 (onCycles d).toNat = (onCycles d).toNat :=
    laps_of_lt hon (onCycles d).isLt
  have hlaps := laps_of_lt htotal (totalCycles d).isLt
  have hpulses : pulsesFor (noOfPulses d) = (noOfPulses d).toNat := if_neg hne
  obtain ⟨d', hdone, hpin, hret⟩ := run_start d hlow
  rw [hhigh, hlaps, hpulses] at hdone
  exact ⟨d', hdone, hpin, hret⟩

/-- The shared memory with three small words. -/
def asked (on total n : BitVec 8) : Data where
  reg _ := 0
  mem a := if a = pruSram then on else if a = pruSram + 4 then total
    else if a = pruSram + 8 then n else 0

theorem makesPulses_iff_three : MakesPulses (asked 50 100 3) ↔ noOfPulses (asked 50 100 3) ≠ 0 :=
  makesPulses_iff (by decide) (by decide) (by decide)

/-- `activateMotor` with a small angle: no pulse is asked for. -/
theorem pulses_without_request : pin 0 (asked 50 100 0) = false ∧
    1 ≤ (onCycles (asked 50 100 0)).toNat ∧
    (onCycles (asked 50 100 0)).toNat < (totalCycles (asked 50 100 0)).toNat ∧
    ¬ MakesPulses (asked 50 100 0) :=
  ⟨by decide, by decide, by decide, not_makesPulses_zero (by decide) (by decide)⟩

end PulseSupply
