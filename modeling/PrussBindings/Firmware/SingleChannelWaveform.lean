import PrussBindings.Firmware.SharedRam
import PrussBindings.Lib.Period
import PrussBindings.Lib.PruPulse

/-!
# A waveform on one channel

`example4-analog-wave-gen`: the user-space program sends a number of samples and the
samples, PRU1 stores them, and PRU0 plays them: each sample is the duty cycle of
9999 PWM periods.

* `text`, `program` — the listing of `PRU0/single-channel-waveform.asm`.
* `clamp` — the duty cycle of a sample.
* `does_pass` — **what is played between two visits of `sample_start`**.
* `place` — where the sample of a pass lies; `place_succ`: the last sample is left out.
* `playsSamples_iff` — the samples are repeated in order exactly if they are all played
  alike.
-/

namespace SingleChannelWaveform

open PruIsa SharedRam

/-! ## The listing -/

inductive Label where
  | start
  | sampleStart
  | sameSample
  | greaterthanZero
  | correctedValues
  | countCheck
  | startPwm
  | pwmHigh
  | pwmLow
  | doneSample
  | stop
  deriving DecidableEq, Repr

/-- The instructions under each label. -/
def text : Label → List (Instr Label)
  | .start => [
    .ldi32 R10 pruSram,
    .sub R7 R7 R7,
    .lbbo R7.b0 R10 (.imm 1) 1,
    .ldi R11 1,
    .ldi R12 1,
    .qba .sampleStart]
  | .sampleStart => [
    .qblt .sameSample R7.b0 R11.b0,
    .ldi R11 1,
    .ldi R12 1]
  | .sameSample => [
    .add R12 R12 (.imm 1),
    .lbbo R13.b0 R10 R12.b0 1,
    .qblt .greaterthanZero R13.b0 (.imm 1),
    .ldi R13.b0 1]
  | .greaterthanZero => [
    .qbgt .correctedValues R13.b0 (.imm 100),
    .ldi R13.b0 99]
  | .correctedValues => [
    .ldi32 R14 100,
    .ldi32 R15 10000,
    .ldi32 R16 0,
    .ldi32 R17 0]
  | .countCheck => [
    .add R16 R16 (.imm 1),
    .qbeq .doneSample R16 R15]
  | .startPwm => [.set R30 R30 0]
  | .pwmHigh => [
    .add R17 R17 (.imm 1),
    .qbne .pwmHigh R17.b0 R13.b0,
    .nop,
    .nop,
    .clr R30 R30 0]
  | .pwmLow => [
    .add R17 R17 (.imm 1),
    .qbne .pwmLow R17 R14,
    .sub R17 R17 R17,
    .qba .countCheck]
  | .doneSample => [
    .add R11.b0 R11.b0 (.imm 1),
    .qba .sampleStart]
  | .stop => [.halt]

def next : Label → Option Label
  | .start => some .sampleStart
  | .sampleStart => some .sameSample
  | .sameSample => some .greaterthanZero
  | .greaterthanZero => some .correctedValues
  | .correctedValues => some .countCheck
  | .countCheck => some .startPwm
  | .startPwm => some .pwmHigh
  | .pwmHigh => some .pwmLow
  | .pwmLow => some .doneSample
  | .doneSample => some .stop
  | .stop => none

/-- `single-channel-waveform.asm`. -/
def program : Program Label := ⟨text, next⟩

/-- What is watched: the pin `R30.t0`, the counter `R17`, and the duty cycle once it is
corrected. -/
def watch : Watch Label ℕ where
  program := program
  bit := 0
  counter := R17
  counter_ne := by decide
  marks
    | .correctedValues, d => [(d.read R13.b0).toNat]
    | _, _ => []

/-- What is told of it. -/
inductive Play where
  | duty (v : ℕ)
  | count (high : Bool)
  deriving DecidableEq, Repr

def play : Event ℕ → Option Play
  | .mark v => some (.duty v)
  | .count high => some (.count high)
  | .rise | .fall => none

/-- The duty cycles, and the increments of the counter. -/
def see (s : State Label) : List Play := (watch.see s).filterMap play

/-- A PWM period: of 100 increments the first are high. -/
def period (v : ℕ) : List Play :=
  List.replicate v (.count true) ++ List.replicate (100 - v) (.count false)

/-- A number of periods. -/
def periods (n v : ℕ) : List Play := (List.replicate n (period v)).flatten

/-- What is played of a sample: its duty cycle, and 9999 periods. -/
def pass (v : ℕ) : List Play := .duty v :: periods 9999 v

/-- The duty cycle of a sample. -/
def clamp (v : ℕ) : ℕ := if v ≤ 1 then 1 else if 100 ≤ v then 99 else v

theorem clamp_bounds (v : ℕ) : 1 ≤ clamp v ∧ clamp v ≤ 99 := by
  unfold clamp
  split_ifs <;> omega

theorem periods_succ (n v : ℕ) : periods (n + 1) v = period v ++ periods n v := by
  rw [periods, List.replicate_succ, List.flatten_cons]
  rfl

theorem length_periods (n : ℕ) {v : ℕ} (hv : v ≤ 100) : (periods n v).length = n * 100 := by
  simp [periods, period, hv]

/-- Nothing is seen of a block with neither pin nor counter. -/
theorem see_nil {l : Label} (hquiet : (text l).all watch.quiet = true)
    (hmarks : ∀ d, watch.marks l d = []) (n : ℕ) (d : Data) : see ⟨l, n, d⟩ = [] := by
  rw [see, Watch.see_nil (w := watch) hquiet (hmarks d)]
  rfl

/-- A pulse of the pin, as it is told. -/
theorem filterMap_pulse (before : Bool) (v : ℕ) :
    (pulseSeen [] before v (100 - v)).filterMap play = period v := by
  cases before <;>
    simp [pulseSeen, edge, List.filterMap_cons, List.filterMap_replicate, play, period]

/-! ## The periods of a sample -/

/-- The blocks of a pulse. -/
def pulseLoop : PulseLoop watch where
  start := .startPwm
  high := .pwmHigh
  low := .pwmLow
  onPart := .b0
  totalPart := .all
  on := R13.b0
  total := R14
  nops := 2
  rest := [.sub R17 R17 R17, .qba .countCheck]
  text_start := rfl
  next_start := rfl
  text_high := rfl
  next_high := rfl
  text_low := rfl
  onPart_lo := Part.lo_b0
  totalPart_lo := Part.lo_all
  marks_high _ := rfl
  marks_low _ := rfl
  on_keeps h := h.read (by decide)
  total_keeps h := h.read (by decide)

/-- Before the pulses are counted: `R13.b0` is the duty cycle, and `R16` counts the
periods. -/
structure Ready (v p : ℕ) (d : Data) : Prop where
  duty : (d.read R13.b0).toNat = v
  total : d.read R14 = 100
  last : d.read R15 = 10000
  periods : d.read R16 = .ofNat 32 p
  counter : d.read R17 = 0

variable {v p : ℕ} {d : Data}

/-- A period. -/
theorem does_period (h : Ready v p d) (hv : 1 ≤ v) (hv' : v ≤ 99) :
    ∃ d', Does program see ⟨.startPwm, 0, d⟩ (period v) ⟨.countCheck, 0, d'⟩ ∧
      Ready v p d' ∧ Keeps [R17, R30] d d' := by
  have hon : (pulseLoop.on.val d).toNat = v := h.duty
  have htotal : pulseLoop.total.val d = 100 := h.total
  have hhigh : laps 8 0 v = v := laps_of_lt (by omega) (by omega)
  have hlow : laps 32 (v % 2 ^ 32) 100 = 100 - v := by
    rw [Nat.mod_eq_of_lt (by omega)]
    exact laps_of_lt (by omega) (by decide)
  obtain ⟨d', hpulse, hk, hzero, -⟩ := pulseLoop.does_and_back (d := d) (n := v) (m := 100 - v) rfl
    h.counter (by rw [hon]; show v < 2 ^ 8; omega) (by rw [htotal]; decide)
    (by rw [hon]; exact hhigh.symm) (by rw [htotal]; exact hlow.symm)
  have hall := hpulse.filterMap play
  rw [show watch.marks pulseLoop.start d = [] from rfl, filterMap_pulse] at hall
  refine ⟨d', hall, ?_, hk⟩
  constructor
  · rw [hk.read (by decide)]
    exact h.duty
  · exact (hk.read (by decide)).trans h.total
  · exact (hk.read (by decide)).trans h.last
  · exact (hk.read (by decide)).trans h.periods
  · exact hzero

/-- The pulses are counted, up to the last. -/
theorem does_countCheck (h : Ready v p d) (hp : p < 10000) :
    ∃ d', Does program see ⟨.countCheck, 0, d⟩ []
        ⟨if p + 1 = 10000 then .doneSample else .startPwm, 0, d'⟩ ∧
      Ready v (p + 1) d' ∧ Keeps [R16] d d' := by
  have hcheck := Does.countCheck (p := program) (o := see) (l := .countCheck) (d := d) rfl rfl
    (d.read_write_of_apart (f := R16) (g := R15) _ (by decide)) (see_nil rfl fun _ => rfl)
  have hk : Keeps [R16] d (d.write R16 (d.read R16 + 1)) := .write (by decide) d _
  have hcount : d.read R16 + 1 = .ofNat 32 (p + 1) := by
    rw [h.periods]
    exact BitVec.ofNat_add_ofNat p 1
  have hlast : d.read R16 + 1 = Op.val d R15 ↔ p + 1 = 10000 := by
    rw [hcount, Op.val, h.last, ← BitVec.toNat_inj, BitVec.toNat_ofNat, Nat.mod_eq_of_lt (by omega)]
    rfl
  simp only [hlast] at hcheck
  refine ⟨_, hcheck, ?_, hk⟩
  constructor
  · rw [hk.read (by decide)]
    exact h.duty
  · exact (hk.read (by decide)).trans h.total
  · exact (hk.read (by decide)).trans h.last
  · rw [Data.read_write_reg, hcount]
  · exact (hk.read (by decide)).trans h.counter

/-- **The periods of a sample**: as many as are missing from 10000, less one. -/
theorem does_periods {n : ℕ} (h : Ready v p d) (hn : p + n = 9999) (hv : 1 ≤ v) (hv' : v ≤ 99) :
    ∃ d', Does program see ⟨.countCheck, 0, d⟩ (periods n v) ⟨.doneSample, 0, d'⟩ ∧
      Keeps [R16, R17, R30] d d' := by
  induction n generalizing p d with
  | zero =>
    obtain ⟨d₁, hcheck, -, hk₁⟩ := does_countCheck h (by omega)
    rw [if_pos (by omega)] at hcheck
    exact ⟨d₁, hcheck, hk₁.mono (by decide)⟩
  | succ n ih =>
    obtain ⟨d₁, hcheck, hready₁, hk₁⟩ := does_countCheck h (by omega)
    rw [if_neg (by omega)] at hcheck
    obtain ⟨d₂, hperiod, hready₂, hk₂⟩ := does_period hready₁ hv hv'
    obtain ⟨d', hrest, hk'⟩ := ih hready₂ (by omega)
    rw [periods_succ]
    exact ⟨d', hcheck.trans (hperiod.trans hrest),
      (hk₁.mono (by decide)).trans ((hk₂.mono (by decide)).trans hk')⟩

/-- What is played once the duty cycle is corrected. -/
theorem does_correctedValues (hduty : (d.read R13.b0).toNat = v) (hv : 1 ≤ v) (hv' : v ≤ 99) :
    ∃ d', Does program see ⟨.correctedValues, 0, d⟩ (pass v) ⟨.doneSample, 0, d'⟩ ∧
      Keeps [R14, R15, R16, R17, R30] d d' := by
  have hfirst : Does program see ⟨.correctedValues, 0, d⟩ [.duty v]
      ⟨.correctedValues, 1, d.write R14 100⟩ := by
    refine Does.pass (i := .ldi32 R14 100) rfl rfl rfl ?_
    rw [← hduty]
    have hquiet := Watch.observe_of_quiet (w := watch) (i := .ldi32 R14 100) rfl d
    have hsee : watch.see ⟨.correctedValues, 0, d⟩ =
        .mark (d.read R13.b0).toNat :: watch.observe (.ldi32 R14 100) d := rfl
    rw [see, hsee, hquiet]
    rfl
  have hrest := Watch.straight (w := watch) (l := .correctedValues) (n := 1)
    [.ldi32 R15 10000, .ldi32 R16 0, .ldi32 R17 0] rfl rfl rfl (by simp) (d.write R14 100)
  have hend := Watch.fallThrough (w := watch) (l := .correctedValues) (n := 4)
    (d := (((d.write R14 100).write R15 10000).write R16 0).write R17 0) rfl rfl (by simp)
  set d₁ := (((d.write R14 100).write R15 10000).write R16 0).write R17 0 with hd₁
  have hk₁ : Keeps [R14, R15, R16, R17, R30] d d₁ :=
    (((Keeps.write (by decide) _ _).trans (.write (by decide) _ _)).trans
      (.write (by decide) _ _)).trans (.write (by decide) _ _)
  have hready : Ready v 0 d₁ := by
    constructor
    · rw [hk₁.read (by decide)]
      exact hduty
    all_goals
      simp (disch := decide) [hd₁, Data.read_write_of_apart]
  obtain ⟨d₂, hperiods, hk₂⟩ := does_periods hready (Nat.zero_add 9999) hv hv'
  exact ⟨d₂, (hfirst.trans ((hrest.trans hend).filterMap play)).trans hperiods,
    hk₁.trans (hk₂.mono (by decide))⟩

/-! ## The sample of a pass -/

/-- The bounds of the duty cycle. -/
theorem does_clamp (hduty : (d.read R13.b0).toNat = v) :
    ∃ d', Does program see ⟨.sameSample, 2, d⟩ [] ⟨.correctedValues, 0, d'⟩ ∧
      (d'.read R13.b0).toNat = clamp v ∧ KeepsApart [R13.b0] d d' := by
  obtain ⟨d', hdoes, hk, hval⟩ := Does.clamp (p := program) (o := see) (l := .sameSample)
    (n := 2) (d := d) (f := R13.b0) (a := 1) (b := 1) (c := 100) (e := 99) rfl rfl rfl rfl
    (fun k d' => see_nil rfl (fun _ => rfl) _ d') (fun k d' => see_nil rfl (fun _ => rfl) _ d')
    (by decide) (by decide) (by decide) (by decide) (by decide)
  rw [hduty] at hval
  exact ⟨d', hdoes, hval, hk⟩

/-- The duty cycle for the sample at a place of the list. -/
def dutyAt (samples : List ℕ) (i : ℕ) : ℕ := clamp (samples.getD i 0)

/-- The counter at the beginning of a pass. -/
def place (N : ℕ) : ℕ → ℕ
  | 0 => 1
  | k + 1 => (if place N k < N then place N k else 1) + 1

/-- It starts again one sample too early. -/
theorem place_succ (N k : ℕ) : place N (k + 1) = k % max (N - 1) 1 + 2 := by
  induction k with
  | zero =>
    rw [Nat.zero_mod]
    unfold place
    split_ifs <;> rfl
  | succ k ih =>
    have hlt := Nat.mod_lt k (show 0 < max (N - 1) 1 by omega)
    rw [place, ih, Nat.add_mod_eq_ite]
    have hone : 1 % max (N - 1) 1 = if N ≤ 2 then 0 else 1 := by
      split_ifs with hN
      · rw [show max (N - 1) 1 = 1 by omega]
      · exact Nat.mod_eq_of_lt (by omega)
    rw [hone]
    split_ifs <;> omega

theorem place_le {N : ℕ} (hN : 1 ≤ N) (k : ℕ) : 1 ≤ place N k ∧ place N k ≤ N + 1 := by
  cases k with
  | zero => exact ⟨le_rfl, by simp [place]⟩
  | succ k =>
    have hlt := Nat.mod_lt k (show 0 < max (N - 1) 1 by omega)
    rw [place_succ]
    omega

/-- The core at the beginning of a pass. -/
structure AtPass (samples : List ℕ) (k : ℕ) (d : Data) : Prop where
  base : d.read R10 = pruSram
  number : d.read R7.b0 = .ofNat 32 samples.length
  counter : d.read R11.b0 = .ofNat 32 (place samples.length k)
  offset : d.read R12 = .ofNat 32 (place samples.length k)
  bytes : ∀ j (hj : j < samples.length), d.mem (addr (2 + j)) = .ofNat 8 samples[j]

variable {samples : List ℕ} {k : ℕ}

/-- The counter is reset, or not. -/
theorem does_sampleStart (h : AtPass samples k d) (hN : 1 ≤ samples.length)
    (hN' : samples.length ≤ 254) :
    ∃ d', Does program see ⟨.sampleStart, 0, d⟩ [] ⟨.sameSample, 0, d'⟩ ∧
      Keeps [R11, R12] d d' ∧
      d'.read R11.b0 = .ofNat 32 (if place samples.length k < samples.length
        then place samples.length k else 1) ∧
      d'.read R12 = .ofNat 32 (if place samples.length k < samples.length
        then place samples.length k else 1) := by
  have hskip := Does.skip (p := program) (o := see) (l := .sampleStart) (n := 0) (d := d)
    (i := .qblt .sameSample R7.b0 R11.b0) (r := [.ldi R11 1, .ldi R12 1]) rfl rfl rfl rfl rfl rfl
    fun k d' => see_nil rfl (fun _ => rfl) _ d'
  have hplace := place_le hN k
  have hbranch : (Instr.qblt Label.sameSample R7.b0 R11.b0).target d = none ↔
      ¬ place samples.length k < samples.length := by
    simp only [Instr.target, Op.val, h.number, h.counter, BitVec.lt_def, BitVec.toNat_ofNat,
      Nat.mod_eq_of_lt (show samples.length < 2 ^ 32 by omega),
      Nat.mod_eq_of_lt (show place samples.length k < 2 ^ 32 by omega)]
    simp
  refine ⟨_, hskip, ?_, ?_⟩
  · split
    · exact Instr.keeps_effects (by decide) d
    · exact .refl _ d
  · by_cases hlt : place samples.length k < samples.length
    · rw [if_neg (mt hbranch.1 (not_not.2 hlt)), if_pos hlt]
      exact ⟨h.counter, h.offset⟩
    · rw [if_pos (hbranch.2 hlt), if_neg hlt]
      have hlow : (d.write R11 1).read R11.b0 = 1 :=
        d.read_write_of_low (f := R11) (g := R11.b0) 1 rfl rfl (by decide)
      exact ⟨(Data.read_write_of_apart (f := R12) (g := R11.b0) _ 1 (by decide)).trans hlow,
        Data.read_write_reg _ _ _⟩

/-- The sample is loaded. -/
theorem does_sameSample (h : AtPass samples k d) (hN : 1 ≤ samples.length)
    (hN' : samples.length ≤ 254) (hbyte : ∀ v ∈ samples, v < 2 ^ 8) {d₁ : Data}
    (hk : Keeps [R11, R12] d d₁)
    (hoffset : d₁.read R12 = .ofNat 32 (if place samples.length k < samples.length
      then place samples.length k else 1)) :
    ∃ d', Does program see ⟨.sameSample, 0, d₁⟩ [] ⟨.sameSample, 2, d'⟩ ∧
      Keeps [R12, R13] d₁ d' ∧ d'.read R12 = .ofNat 32 (place samples.length (k + 1)) ∧
      (d'.read R13.b0).toNat = samples.getD (k % max (samples.length - 1) 1) 0 := by
  have hlt := Nat.mod_lt k (show 0 < max (samples.length - 1) 1 by omega)
  have hj : k % max (samples.length - 1) 1 < samples.length := by omega
  have hcode := Does.straight (p := program) (o := see) (l := .sameSample) (n := 0) (d := d₁)
    [.add R12 R12 (.imm 1), .lbbo R13.b0 R10 R12.b0 1] rfl rfl
    fun k d' _ => see_nil rfl (fun _ => rfl) _ d'
  set d₂ := d₁.write R12 (d₁.read R12 + (1 : BitVec 8).setWidth 32) with hd₂
  have hk₂ : Keeps [R12] d₁ d₂ := .write (by decide) d₁ _
  have hplace : d₂.read R12 = .ofNat 32 (place samples.length (k + 1)) := by
    rw [hd₂, Data.read_write_reg, hoffset]
    exact BitVec.ofNat_add_ofNat _ 1
  have haddr : d₂.read R10 + d₂.read R12.b0 = addr (2 + k % max (samples.length - 1) 1) := by
    have hlow : d₂.read R12.b0 = d₂.read R12 := by
      apply BitVec.eq_of_toNat_eq
      rw [show R12.b0 = ⟨R12, .b0⟩ from rfl, toNat_read_low rfl, hplace, place_succ,
        BitVec.toNat_ofNat]
      show _ % 2 ^ 32 % 2 ^ 8 = _
      omega
    rw [hlow, hplace, place_succ, hk₂.read (by decide), hk.read (by decide), h.base, Nat.add_comm 2]
    rfl
  have hmem : d₂.mem (addr (2 + k % max (samples.length - 1) 1)) =
      .ofNat 8 samples[k % max (samples.length - 1) 1] := by
    rw [hk₂.mem, hk.mem]
    exact h.bytes _ hj
  have hbound : samples[k % max (samples.length - 1) 1] < 2 ^ 8 := hbyte _ (List.getElem_mem hj)
  have hload : Instr.effects (L := Label) [.add R12 R12 (.imm 1), .lbbo R13.b0 R10 R12.b0 1] d₁ =
      d₂.write R13.b0 ((d₂.mem (d₂.read R10 + d₂.read R12.b0)).setWidth 32) := rfl
  rw [hload, haddr, hmem] at hcode
  refine ⟨_, hcode, (hk₂.mono (by decide)).trans (.write (by decide) d₂ _), ?_, ?_⟩
  · rw [d₂.read_write_of_apart _ (by decide), hplace]
  · rw [d₂.read_write_byte (k := 0) rfl, BitVec.toNat_setWidth, BitVec.toNat_ofNat,
      Nat.mod_eq_of_lt hbound, Nat.mod_eq_of_lt (by omega)]
    exact List.getElem_eq_getD 0

/-- **What is played between two visits of `sample_start`.** -/
theorem does_pass (h : AtPass samples k d) (hN : 1 ≤ samples.length)
    (hN' : samples.length ≤ 254) (hbyte : ∀ v ∈ samples, v < 2 ^ 8) :
    ∃ d', Does program see ⟨.sampleStart, 0, d⟩
        (pass (dutyAt samples (k % max (samples.length - 1) 1))) ⟨.sampleStart, 0, d'⟩ ∧
      AtPass samples (k + 1) d' := by
  obtain ⟨d₁, hstart, hk₁, hcounter₁, hoffset₁⟩ := does_sampleStart h hN hN'
  obtain ⟨d₂, hload, hk₂, hoffset₂, hduty₂⟩ := does_sameSample h hN hN' hbyte hk₁ hoffset₁
  obtain ⟨d₃, hclamp, hduty₃, hk₃⟩ := does_clamp hduty₂
  have hk₃ : Keeps [R13] d₂ d₃ := hk₃.keeps (by decide)
  have hbounds := clamp_bounds (samples.getD (k % max (samples.length - 1) 1) 0)
  obtain ⟨d₄, hplay, hk₄⟩ := does_correctedValues hduty₃ hbounds.1 hbounds.2
  have hcode := Does.straight (p := program) (o := see) (l := .doneSample) (n := 0) (d := d₄)
    [.add R11.b0 R11.b0 (.imm 1)] rfl rfl fun k d' _ => see_nil rfl (fun _ => rfl) _ d'
  set d₅ := d₄.write R11.b0 (d₄.read R11.b0 + (1 : BitVec 8).setWidth 32) with hd₅
  have hback := Does.jump (p := program) (o := see) (l := .doneSample) (n := 1) (d := d₅)
    (i := .qba .sampleStart) rfl rfl rfl (see_nil rfl (fun _ => rfl) _ _)
  have hk : Keeps [R11, R12, R13, R14, R15, R16, R17, R30] d d₅ :=
    (((hk₁.mono (by decide)).trans (hk₂.mono (by decide))).trans (hk₃.mono (by decide))).trans
      ((hk₄.mono (by decide)).trans (.write (by decide) d₄ _))
  have hk₅ : Keeps [R11, R13, R14, R15, R16, R17, R30] d₂ d₅ :=
    (hk₃.mono (by decide)).trans ((hk₄.mono (by decide)).trans (.write (by decide) d₄ _))
  have hk₁₄ : Keeps [R12, R13, R14, R15, R16, R17, R30] d₁ d₄ :=
    (hk₂.mono (by decide)).trans ((hk₃.mono (by decide)).trans (hk₄.mono (by decide)))
  refine ⟨d₅, ?_, ?_⟩
  · simpa [dutyAt] using hstart.trans (hload.trans (hclamp.trans (hplay.trans (hcode.trans hback))))
  constructor
  · exact (hk.read (by decide)).trans h.base
  · exact (hk.read (by decide)).trans h.number
  · have hval : d₄.read R11.b0 + (1 : BitVec 8).setWidth 32 =
        .ofNat 32 (place samples.length (k + 1)) := by
      rw [hk₁₄.read (by decide), hcounter₁]
      exact BitVec.ofNat_add_ofNat _ 1
    have hplace := place_succ samples.length k
    have hlt := Nat.mod_lt k (show 0 < max (samples.length - 1) 1 by omega)
    rw [hd₅, hval]
    apply BitVec.eq_of_toNat_eq
    refine Data.toNat_read_write _ _ ?_
    rw [BitVec.toNat_ofNat]
    show _ % 2 ^ 32 < 2 ^ 8
    omega
  · exact (hk₅.read (by decide)).trans hoffset₂
  · intro j hj
    rw [hk.mem]
    exact h.bytes j hj

/-! ## From the start -/

/-- What the user-space program sends: the delay factor, the number of samples, the samples. -/
def sent (samplestep : ℤ) (samples : List ℕ) : List ℤ :=
  samplestep :: samples.length :: samples.map (↑)

/-- The core that is started after PRU1 has stored them. -/
def stored (samplestep : ℤ) (samples : List ℕ) (d : Data) : Data :=
  { d with mem := storeBytes 0 ((sent samplestep samples).map rawMessage) d.mem }

/-- Where the bytes lie. -/
theorem stored_addr (samplestep : ℤ) (d : Data) {j n : ℕ}
    (hj : (sent samplestep samples)[j]? = some (n : ℤ)) (hn : n < 2 ^ 8)
    (hN : samples.length ≤ 254) : (stored samplestep samples d).mem (addr j) = .ofNat 8 n := by
  obtain ⟨hlt, hget⟩ := List.getElem?_eq_some_iff.1 hj
  have hlen : (sent samplestep samples).length = samples.length + 2 := by simp [sent]
  have hstore := storeBytes_addr (i := 0) (l := (sent samplestep samples).map rawMessage) d.mem
    (by rwa [List.length_map]) (by rw [List.length_map]; omega)
  rw [Nat.zero_add, List.getElem_map, hget] at hstore
  exact hstore.trans (byteLoad_rawMessage hn)

/-- The one-time setup. -/
theorem does_start (samplestep : ℤ) (hN' : samples.length ≤ 254) (hbyte : ∀ v ∈ samples, v < 2 ^ 8)
    (d : Data) :
    ∃ d', Does program see ⟨.start, 0, stored samplestep samples d⟩ [] ⟨.sampleStart, 0, d'⟩ ∧
      AtPass samples 0 d' := by
  have hnumber := stored_addr samplestep d (j := 1) (n := samples.length) rfl (by omega) hN'
  have hbytes : ∀ j (hj : j < samples.length),
      (stored samplestep samples d).mem (addr (2 + j)) = .ofNat 8 samples[j] := by
    intro j hj
    refine stored_addr samplestep d ?_ (hbyte _ (List.getElem_mem hj)) hN'
    rw [Nat.add_comm]
    simp [sent, hj]
  set d₀ := stored samplestep samples d
  have hcode := Does.straight (p := program) (o := see) (l := .start) (n := 0) (d := d₀)
    ((text .start).take 5) rfl rfl fun k d' _ => see_nil rfl (fun _ => rfl) _ d'
  set d₁ := Instr.effects ((text .start).take 5) d₀ with hd₁
  have hjump := Does.jump (p := program) (o := see) (l := .start) (n := 5) (d := d₁)
    (i := .qba .sampleStart) rfl rfl rfl (see_nil rfl (fun _ => rfl) _ _)
  have hk : Keeps [R7, R10, R11, R12] d₀ d₁ := Instr.keeps_effects (by decide) d₀
  set d₂ := Instr.effects ((text .start).take 2) d₀ with hd₂
  have hbase : d₂.read R10 = pruSram := by
    simp (disch := decide) [hd₂, text, Data.read_write_of_apart]
  have hmem : d₂.mem (d₂.read R10 + 1) = .ofNat 8 samples.length := by
    rw [hbase]
    exact hnumber
  have hlast : d₁ =
      ((d₂.write R7.b0 ((d₂.mem (d₂.read R10 + 1)).setWidth 32)).write R11 1).write R12 1 := rfl
  refine ⟨d₁, hcode.trans hjump, ?_⟩
  constructor
  · simp (disch := decide) [hd₁, text, Data.read_write_of_apart]
  · rw [hlast, Data.read_write_of_apart _ _ (by decide), Data.read_write_of_apart _ _ (by decide),
      d₂.read_write_byte (k := 0) rfl, hmem]
    apply BitVec.eq_of_toNat_eq
    rw [BitVec.toNat_setWidth, BitVec.toNat_ofNat, BitVec.toNat_ofNat]
    omega
  · rw [hlast, Data.read_write_of_apart _ _ (by decide)]
    exact Data.read_write_of_low (f := R11) (g := R11.b0) _ 1 rfl rfl (by decide)
  · simp [hd₁, text, place]
  · intro j hj
    rw [hk.mem]
    exact hbytes j hj

/-- The passes, one after the other. -/
theorem does_passes (samplestep : ℤ) (hN : 1 ≤ samples.length) (hN' : samples.length ≤ 254)
    (hbyte : ∀ v ∈ samples, v < 2 ^ 8) (d : Data) (n : ℕ) :
    ∃ d', Does program see ⟨.start, 0, stored samplestep samples d⟩
        ((List.range n).flatMap fun k => pass (dutyAt samples (k % max (samples.length - 1) 1)))
        ⟨.sampleStart, 0, d'⟩ := by
  obtain ⟨d₁, hstart, hzero⟩ := does_start samplestep hN' hbyte d
  obtain ⟨d₂, hpasses, -⟩ := Does.pieces (p := program) (o := see)
    (g := fun _ d => ⟨.sampleStart, 0, d⟩) (P := AtPass samples)
    (f := fun k => pass (dutyAt samples (k % max (samples.length - 1) 1))) (n := n)
    (fun k _ d h => does_pass h hN hN' hbyte) hzero
  exact ⟨d₂, hstart.trans hpasses⟩

/-- All the samples are played in order, again and again. -/
def PlaysSamples (samples : List ℕ) (d : Data) : Prop :=
  ∀ n, ∃ d', Does program see ⟨.start, 0, d⟩
    ((List.range n).flatMap fun k => pass (dutyAt samples (k % samples.length)))
    ⟨.sampleStart, 0, d'⟩

theorem length_pass (i : ℕ) : (pass (dutyAt samples i)).length = 9999 * 100 + 1 := by
  have hbounds : dutyAt samples i ≤ 99 := (clamp_bounds _).2
  rw [pass, List.length_cons, length_periods _ (by omega)]

theorem pass_inj {v w : ℕ} (h : pass v = pass w) : v = w :=
  Play.duty.inj (List.cons.inj h).1

/-- The samples that are played are to be those that should be. -/
theorem playsSamples_iff_dutyAt (samplestep : ℤ) (hN : 1 ≤ samples.length)
    (hN' : samples.length ≤ 254) (hbyte : ∀ v ∈ samples, v < 2 ^ 8) (d : Data) :
    PlaysSamples samples (stored samplestep samples d) ↔
      ∀ k, dutyAt samples (k % samples.length) =
        dutyAt samples (k % max (samples.length - 1) 1) := by
  have hdone := does_passes samplestep hN hN' hbyte d
  constructor
  · intro h k
    refine pass_inj (Does.pieces_unique h hdone (fun k => ?_) k)
    rw [length_pass, length_pass]
  · intro h n
    obtain ⟨d', hdoes⟩ := hdone n
    simp only [← h] at hdoes
    exact ⟨d', hdoes⟩

/-- **The samples are repeated in order** exactly if they are all played alike: of
two or more the last is never played. -/
theorem playsSamples_iff (samplestep : ℤ) (hN : 1 ≤ samples.length)
    (hN' : samples.length ≤ 254) (hbyte : ∀ v ∈ samples, v < 2 ^ 8) (d : Data) :
    PlaysSamples samples (stored samplestep samples d) ↔
      ∀ v ∈ samples, ∀ w ∈ samples, clamp v = clamp w := by
  rw [playsSamples_iff_dutyAt samplestep hN hN' hbyte, Period.repeat_short_iff hN]
  exact Period.const_iff 0 clamp hN

/-- A core with nothing in its registers and memory. -/
def blank : Data := ⟨fun _ => 0, fun _ => 0⟩

/-- Two samples that are both above the end of the range. -/
theorem playsSamples_iff_two : PlaysSamples [150, 200] (stored 1 [150, 200] blank) ↔
    ∀ v ∈ [150, 200], ∀ w ∈ [150, 200], clamp v = clamp w :=
  playsSamples_iff 1 (by decide) (by decide) (by decide) blank

/-- Of two samples only the first is played. -/
theorem second_of_two_left_out : ¬ PlaysSamples [10, 20] (stored 1 [10, 20] blank) := by
  rw [playsSamples_iff_dutyAt 1 (by decide) (by decide) (by decide)]
  intro h
  exact absurd (h 1) (by decide)

end SingleChannelWaveform
