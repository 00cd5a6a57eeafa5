import PrussBindings.Firmware.SharedRam
import PrussBindings.Lib.PruPulse
import PrussBindings.Lib.Rounding

/-!
# One PWM channel

`example3-pwm/pwm-assembly/PRU0/pru-asm-pwm.asm`: the words `ON` and `TOTAL` are
loaded from the shared memory, and `R30.t0` is set and cleared for ever.

* `text`, `program` — the listing.
* `see` — the beginnings of the periods, and the increments of the counter.
* `run_start` — **the periods, whatever the two words are**.
* `keepsPeriod_iff` — every period is the one that was asked for exactly if it has
  both a high and a low part.
-/

namespace Pwm

open PruIsa SharedRam

/-! ## The listing -/

inductive Label where
  | start
  | sampleStart
  | sampleHigh
  | sampleLow
  deriving DecidableEq, Repr

/-- The instructions under each label. -/
def text : Label → List (Instr Label)
  | .start => [
    .ldi32 R10 pruSram,
    .sub R1 R1 R1,
    .sub R2 R2 R2,
    .lbbo R1 R10 (.imm 0) 4,
    .lbbo R2 R10 (.imm 4) 4,
    .ldi R0 0,
    .qba .sampleStart]
  | .sampleStart => [.set R30 R30 0]
  | .sampleHigh => [
    .add R0 R0 (.imm 1),
    .qbne .sampleHigh R0 R1,
    .nop,
    .nop,
    .nop,
    .clr R30 R30 0]
  | .sampleLow => [
    .add R0 R0 (.imm 1),
    .qbne .sampleLow R0 R2,
    .sub R0 R0 R0,
    .qba .sampleStart,
    .halt]

def next : Label → Option Label
  | .start => some .sampleStart
  | .sampleStart => some .sampleHigh
  | .sampleHigh => some .sampleLow
  | .sampleLow => none

/-- `pru-asm-pwm.asm`. -/
def program : Program Label := ⟨text, next⟩

/-- What is watched: the pin `R30.t0`, the counter `R0`, and where a period begins. -/
def watch : Watch Label Unit where
  program := program
  bit := 0
  counter := R0
  counter_ne := by decide
  marks
    | .sampleStart, _ => [()]
    | _, _ => []

/-- What is told of it. -/
inductive Tick where
  | period
  | count (high : Bool)
  deriving DecidableEq, Repr

def tick : Event Unit → Option Tick
  | .mark () => some .period
  | .count high => some (.count high)
  | .rise | .fall => none

/-- The periods, and the increments of the counter. -/
def see (s : State Label) : List Tick := (watch.see s).filterMap tick

/-- The two words in the shared memory. -/
def onSamples (d : Data) : Word := d.word pruSram
def totalSamples (d : Data) : Word := d.word (pruSram + 4)

/-- The increments of a period, those that are high first. -/
def counts (high low : ℕ) : List Tick :=
  List.replicate high (.count true) ++ List.replicate low (.count false)

/-- A period. -/
def period (high low : ℕ) : List Tick := .period :: counts high low

/-! ## A period -/

/-- The blocks of a pulse. -/
def pulseLoop : PulseLoop watch where
  start := .sampleStart
  high := .sampleHigh
  low := .sampleLow
  onPart := .all
  totalPart := .all
  on := R1
  total := R2
  nops := 3
  rest := [.sub R0 R0 R0, .qba .sampleStart, .halt]
  text_start := rfl
  next_start := rfl
  text_high := rfl
  next_high := rfl
  text_low := rfl
  onPart_lo := Part.lo_all
  totalPart_lo := Part.lo_all
  marks_high _ := rfl
  marks_low _ := rfl
  on_keeps h := h.read (by decide)
  total_keeps h := h.read (by decide)

/-- Before a period: the bounds are in their registers, and the counter is zero. -/
structure Ready (on total : Word) (d : Data) : Prop where
  on : d.read R1 = on
  total : d.read R2 = total
  counter : d.read R0 = 0

variable {on total : Word} {d : Data}

/-- What is told of a pulse. -/
theorem filterMap_pulse (before : Bool) (high low : ℕ) :
    (pulseSeen [()] before high low).filterMap tick = period high low := by
  cases before <;>
    simp [pulseSeen, edge, List.filterMap_cons, List.filterMap_replicate, tick, period, counts]

/-- One period. -/
theorem does_period (h : Ready on total d) :
    ∃ d', Does program see ⟨.sampleStart, 0, d⟩
        (period (laps 32 0 on.toNat) (laps 32 on.toNat total.toNat)) ⟨.sampleStart, 0, d'⟩ ∧
      Ready on total d' := by
  have hon : pulseLoop.on.val d = on := h.on
  have htotal : pulseLoop.total.val d = total := h.total
  obtain ⟨d', hpulse, hk, hzero, -⟩ := pulseLoop.does_and_back (d := d)
    (n := laps 32 0 on.toNat) (m := laps 32 on.toNat total.toNat) rfl h.counter
    (by rw [hon]; exact on.isLt) (by rw [htotal]; exact total.isLt) (by rw [hon]; rfl)
    (by rw [htotal]; exact (laps_laps on.isLt _).symm)
  have hall := hpulse.filterMap tick
  rw [show watch.marks pulseLoop.start d = [()] from rfl, filterMap_pulse] at hall
  refine ⟨d', hall, ?_⟩
  constructor
  · exact (hk.read (by decide)).trans h.on
  · exact (hk.read (by decide)).trans h.total
  · exact hzero

/-! ## The whole run -/

/-- The words are loaded, and the counter cleared. -/
theorem does_start (d : Data) :
    ∃ d', Does program see ⟨.start, 0, d⟩ [] ⟨.sampleStart, 0, d'⟩ ∧
      Ready (onSamples d) (totalSamples d) d' := by
  have hload := Watch.straight (w := watch) (l := .start) (n := 0) ((text .start).take 6) rfl rfl
    rfl (fun _ _ => rfl) d
  have hall := (hload.trans (Watch.jump rfl rfl (fun _ => rfl) rfl rfl)).filterMap tick
  refine ⟨_, hall, ?_⟩
  constructor
  · simp (disch := decide) [text, Data.read_write_of_apart, onSamples]
  · simp (disch := decide) [text, Data.read_write_of_apart, totalSamples]
  · simp (disch := decide) [text, Data.read_write_of_apart]

/-- **The periods, whatever the two words are.** -/
theorem run_start (d : Data) (k : ℕ) :
    ∃ d', Does program see ⟨.start, 0, d⟩
        (List.replicate k (period (laps 32 0 (onSamples d).toNat)
          (laps 32 (onSamples d).toNat (totalSamples d).toNat))).flatten ⟨.sampleStart, 0, d'⟩ ∧
      Ready (onSamples d) (totalSamples d) d' := by
  induction k with
  | zero => exact does_start d
  | succ k ih =>
    obtain ⟨d₁, hdoes, hready⟩ := ih
    obtain ⟨d', hperiod, hready'⟩ := does_period hready
    refine ⟨d', ?_, hready'⟩
    rw [List.replicate_succ', List.flatten_append, List.flatten_singleton]
    exact hdoes.trans hperiod

/-- Every period has as many increments as the one word says, of which the first are
high, as many as the other says. -/
def KeepsPeriod (d : Data) : Prop :=
  ∀ k, ∃ d', Does program see ⟨.start, 0, d⟩
    (List.replicate k (period (onSamples d).toNat
      ((totalSamples d).toNat - (onSamples d).toNat))).flatten ⟨.sampleStart, 0, d'⟩

theorem takeWhile_counts (a b : ℕ) (r : List Tick) :
    (counts a b ++ .period :: r).takeWhile (· ≠ .period) = counts a b := by
  rw [List.takeWhile_append_of_pos]
  · simp
  · intro t ht
    rcases List.mem_append.1 ht with ht | ht <;> simp [List.eq_of_mem_replicate ht]

/-- What lies between the beginnings of two periods. -/
theorem counts_unique {a b a' b' : ℕ} {r r' : List Tick}
    (h : counts a b ++ .period :: r = counts a' b' ++ .period :: r') : a = a' ∧ b = b' := by
  have hcounts : counts a b = counts a' b' := by
    rw [← takeWhile_counts a b r, h, takeWhile_counts]
  have hhigh := congrArg (List.count (.count true)) hcounts
  have hlow := congrArg (List.count (.count false)) hcounts
  constructor
  · simpa [counts, List.count_replicate] using hhigh
  · simpa [counts, List.count_replicate] using hlow

/-- The loops end where they are asked to exactly if both have something to count. -/
theorem laps_eq_iff (on total : Word) :
    laps 32 0 on.toNat = on.toNat ∧ laps 32 on.toNat total.toNat = total.toNat - on.toNat ↔
      0 < on.toNat ∧ on.toNat < total.toNat := by
  have hon := on.isLt
  have htotal := total.isLt
  constructor
  · rintro ⟨hhigh, hlow⟩
    have hpos := laps_pos (Nat.two_pow_pos 32) hon
    have hpos' := laps_pos hon htotal
    omega
  · rintro ⟨hhigh, hlow⟩
    exact ⟨laps_of_lt hhigh hon, laps_of_lt hlow htotal⟩

/-- Where every period is the one asked for, the loops end where they are asked to. -/
theorem laps_of_keepsPeriod {d : Data} (h : KeepsPeriod d) :
    laps 32 0 (onSamples d).toNat = (onSamples d).toNat ∧
      laps 32 (onSamples d).toNat (totalSamples d).toNat =
        (totalSamples d).toNat - (onSamples d).toNat := by
  obtain ⟨d₁, hasked⟩ := h 2
  obtain ⟨d₂, hdone, -⟩ := run_start d 2
  simp only [period, List.replicate_succ, List.replicate_zero, List.flatten_cons, List.cons_append,
    List.flatten_nil, List.append_nil] at hasked hdone
  -- two periods of the one are the beginning of two of the other, or the other way round
  rcases hasked.prefix_or hdone with ⟨rest, hrest⟩ | ⟨rest, hrest⟩
  · simp only [List.cons_append, List.cons.injEq, true_and, List.append_assoc] at hrest
    obtain ⟨hhigh, hlow⟩ := counts_unique hrest
    exact ⟨hhigh.symm, hlow.symm⟩
  · simp only [List.cons_append, List.cons.injEq, true_and, List.append_assoc] at hrest
    exact counts_unique hrest

/-- **Every period is the one asked for exactly if it has a high and a low part.** -/
theorem keepsPeriod_iff (d : Data) :
    KeepsPeriod d ↔
      0 < (onSamples d).toNat ∧ (onSamples d).toNat < (totalSamples d).toNat := by
  rw [← laps_eq_iff]
  refine ⟨laps_of_keepsPeriod, fun ⟨hhigh, hlow⟩ k => ?_⟩
  obtain ⟨d', hdone, -⟩ := run_start d k
  rw [hhigh, hlow] at hdone
  exact ⟨d', hdone⟩

/-- The shared memory with two small words. -/
def asked (on total : BitVec 8) : Data where
  reg _ := 0
  mem a := if a = pruSram then on else if a = pruSram + 4 then total else 0

/-- A duty cycle of zero, and one of one, at 1 MHz. -/
theorem extreme_duty_loses_period :
    ¬ KeepsPeriod (asked 0 100) ∧ ¬ KeepsPeriod (asked 100 100) := by
  constructor
  · intro h
    exact absurd (laps_of_keepsPeriod h).1 (by decide)
  · intro h
    exact absurd (laps_of_keepsPeriod h).2 (by decide)

/-! ## The words that are asked for -/

section Userspace

open Rounding

/-- `multiplier` of `userspace.cpp`: a division in double precision, kept as a
`float`. -/
def multiplier (frequency : ℚ) : ℚ := binary32.round (binary64.round (1000000 / frequency))

/-- `(int)on_samples`. -/
def sentOn (frequency dutyCycle : ℚ) : ℤ :=
  truncate (binary32.round (binary32.round (dutyCycle * 100) * multiplier frequency))

/-- `(int)total_samples`. -/
def sentTotal (frequency : ℚ) : ℤ :=
  truncate (binary32.round (100 * multiplier frequency))

variable {frequency dutyCycle : ℚ}

theorem multiplier_bounds (hf : 1 ≤ frequency) (hf' : frequency ≤ 1000000) :
    1 ≤ multiplier frequency ∧ multiplier frequency ≤ 1000000 := by
  have hpos : 0 < frequency := by linarith
  have hlow : 1 ≤ 1000000 / frequency := (one_le_div hpos).2 hf'
  have hhigh : 1000000 / frequency ≤ 1000000 := div_le_self (by norm_num) hf
  have hlow' : 1 ≤ binary64.round (1000000 / frequency) :=
    Format.le_round_of_representable ⟨1, 0, by decide, by decide, by norm_num⟩ zero_le_one hlow
  have hhigh' : binary64.round (1000000 / frequency) ≤ 1000000 :=
    Format.round_le_of_representable ⟨1000000, 0, by decide, by decide, by norm_num⟩ (by linarith)
      hhigh
  constructor
  · exact Format.le_round_of_representable ⟨1, 0, by decide, by decide, by norm_num⟩ zero_le_one
      hlow'
  · exact Format.round_le_of_representable ⟨1000000, 0, by decide, by decide, by norm_num⟩
      (by linarith) hhigh'

/-- **The words of every frequency and duty cycle that are accepted.** -/
theorem sent_bounds (hf : 1 ≤ frequency) (hf' : frequency ≤ 1000000) (hd : 0 ≤ dutyCycle)
    (hd' : dutyCycle ≤ 1) :
    0 ≤ sentOn frequency dutyCycle ∧ sentOn frequency dutyCycle ≤ sentTotal frequency ∧
      100 ≤ sentTotal frequency ∧ sentTotal frequency ≤ 10 ^ 8 := by
  obtain ⟨hlow, hhigh⟩ := multiplier_bounds hf hf'
  have hduty : 0 ≤ binary32.round (dutyCycle * 100) := Format.round_nonneg (by linarith)
  have hduty' : binary32.round (dutyCycle * 100) ≤ 100 :=
    Format.round_le_of_representable ⟨100, 0, by decide, by decide, by norm_num⟩ (by linarith)
      (by linarith)
  have hon : 0 ≤ binary32.round (dutyCycle * 100) * multiplier frequency :=
    mul_nonneg hduty (by linarith)
  have hle : binary32.round (dutyCycle * 100) * multiplier frequency ≤
      100 * multiplier frequency :=
    mul_le_mul_of_nonneg_right hduty' (by linarith)
  have htotal : 100 ≤ binary32.round (100 * multiplier frequency) :=
    Format.le_round_of_representable ⟨100, 0, by decide, by decide, by norm_num⟩ (by norm_num)
      (by linarith)
  have htotal' : binary32.round (100 * multiplier frequency) ≤ 100000000 :=
    Format.round_le_of_representable ⟨390625, 8, by decide, by decide, by norm_num⟩ (by linarith)
      (by linarith)
  refine ⟨?_, truncate_mono (Format.round_nonneg hon) (Format.round_mono hon hle), ?_, ?_⟩
  · exact truncate_mono le_rfl (Format.round_nonneg hon)
  · simpa [sentTotal] using truncate_mono (by norm_num) htotal
  · simpa [sentTotal] using truncate_mono (by linarith) htotal'

end Userspace

end Pwm
