import PrussBindings.Firmware.SharedRam
import PrussBindings.Lib.Period
import PrussBindings.Lib.PruPulse

/-!
# Waveforms on eight channels

`example9-multichannel-waveform-gen`: the user-space program sends the samples of eight
channels in turn, with an end marker for each, PRU1 stores them, and PRU0 plays
them: each sample is the duty cycle of 1211 PWM periods of its channel.

* `text`, `program` — the listing of `PRU0/waveform_gen.asm`; the eight copies of a
  block are one block with the channel as parameter.
* `does_load` — the sample that a channel loads, and where its offset goes.
* `does_pulse` — the PWM period of a channel.
* `does_pass` — **what is played between two visits of `sample_start`**.
* `playsWaves_iff` — the waveforms are repeated exactly if no channel has two samples
  that are played differently.
-/

namespace MultichannelWaveform

open PruIsa SharedRam

/-! ## The listing -/

/-- The labels; the channels are counted from 0, the numbers of the listing are `c` for
`sameSample c`, and `c + 1` for the others. -/
inductive Label where
  | start
  | sampleStart
  | sameSample (c : Fin 8)
  | sameSample8
  | greaterthanZero (c : Fin 8)
  | lesserthanHun (c : Fin 7)
  | countCheck
  | startPwm (c : Fin 8)
  | pwmHigh (c : Fin 8)
  | pwmLow (c : Fin 8)
  | doneSample
  | stop
  deriving DecidableEq, Repr

/-- The duty cycle of a channel. -/
def duty : Fin 8 → Field
  | 0 => R7.b0
  | 1 => R8.b0
  | 2 => R7.b1
  | 3 => R8.b1
  | 4 => R7.b2
  | 5 => R8.b2
  | 6 => R7.b3
  | 7 => R8.b3

/-- The offset of the next sample of a channel. -/
def offset : Fin 8 → Field
  | 0 => R4.w0
  | 1 => R4.w2
  | 2 => R5.w0
  | 3 => R5.w2
  | 4 => R6.w0
  | 5 => R6.w2
  | 6 => R11.w0
  | 7 => R11.w2

/-- The offset of the first sample of a channel. -/
def first (c : Fin 8) : BitVec 16 := .ofNat 16 (4 + c)

/-- The pin of a channel. -/
def pinOf : Fin 8 → Fin 32
  | 0 => 0
  | 1 => 2
  | 2 => 1
  | 3 => 3
  | 4 => 7
  | 5 => 14
  | 6 => 5
  | 7 => 15

/-- What is cleared of the counter `R9` after the period of a channel. -/
def cleared : Fin 8 → Field
  | 0 | 5 | 6 | 7 => R9.w0
  | 1 | 2 | 3 | 4 => R9.b0

/-- The blocks that load the samples, and the block after them. -/
def loadLabel (m : ℕ) : Label := if h : m < 8 then .sameSample ⟨m, h⟩ else .sameSample8

/-- The block after the upper bound of a channel. -/
def clampLabel (m : ℕ) : Label := if h : m < 7 then .lesserthanHun ⟨m, h⟩ else .countCheck

/-- The instructions under each label. -/
def text : Label → List (Instr Label)
  | .start => [
    .ldi32 R10 pruSram,
    .ldi R0 100,
    .ldi R4.w0 4,
    .ldi R4.w2 5,
    .ldi R5.w0 6,
    .ldi R5.w2 7,
    .ldi R6.w0 8,
    .ldi R6.w2 9,
    .ldi R11.w0 10,
    .ldi R11.w2 11]
  | .sampleStart => []
  | .sameSample c => [
    .lbbo (duty c) R10 (offset c) 1,
    .add (offset c) (offset c) (.imm 8),
    .qbne (loadLabel (c + 1)) (duty c) (.imm 150),
    .ldi (offset c) (first c),
    .lbbo (duty c) R10 (offset c) 1]
  | .sameSample8 => [
    .ldi32 R12 1212,
    .ldi R9.w0 0,
    .ldi R15 0,
    .ldi32 R13 0,
    .qblt (.greaterthanZero 0) (duty 0) (.imm 1),
    .ldi (duty 0) 1]
  | .greaterthanZero c => [
    .qbgt (clampLabel c) (duty c) (.imm 99),
    .ldi (duty c) 99]
  | .lesserthanHun c => [
    .qblt (.greaterthanZero c.succ) (duty c.succ) (.imm 1),
    .ldi (duty c.succ) 1]
  | .countCheck => [
    .add R13 R13 (.imm 1),
    .qbeq .sampleStart R13 R12]
  | .startPwm c => [
    .set R30 R30 (pinOf c),
    .sub R14.b0 R0.b0 (duty c)]
  | .pwmHigh c => [
    .add R9 R9 (.imm 1),
    .qbne (.pwmHigh c) R9.b0 (duty c),
    .clr R30 R30 (pinOf c)]
  | .pwmLow c => [
    .add R15 R15 (.imm 1),
    .qbne (.pwmLow c) R15.b0 R14.b0,
    .sub R15 R15 R15,
    .sub (cleared c) (cleared c) (cleared c)] ++
    -- the last channel branches back, the others go on with the next
    if c = 7 then [.qba .countCheck] else []
  | .doneSample => [.qba .sampleStart]
  | .stop => [.halt]

def next : Label → Option Label
  | .start => some .sampleStart
  | .sampleStart => some (.sameSample 0)
  | .sameSample c => some (loadLabel (c + 1))
  | .sameSample8 => some (.greaterthanZero 0)
  | .greaterthanZero c => some (clampLabel c)
  | .lesserthanHun c => some (.greaterthanZero c.succ)
  | .countCheck => some (.startPwm 0)
  | .startPwm c => some (.pwmHigh c)
  | .pwmHigh c => some (.pwmLow c)
  | .pwmLow c => some (if c = 7 then .doneSample else .startPwm (c + 1))
  | .doneSample => some .stop
  | .stop => none

/-- `waveform_gen.asm`. -/
def program : Program Label := ⟨text, next⟩

/-- What is told of it: where a pass begins, the duty cycle of a period, and the
increments of the counters, with the level of the pin. -/
inductive Play where
  | pass
  | duty (c : Fin 8) (v : ℕ)
  | count (c : Fin 8) (high : Bool)
  deriving DecidableEq, Repr

def see : State Label → List Play
  | ⟨.sampleStart, 0, _⟩ => [.pass]
  | ⟨.startPwm c, 0, d⟩ => [.duty c (d.read (duty c)).toNat]
  | ⟨.pwmHigh c, 0, d⟩ => [.count c (pin (pinOf c) d)]
  | ⟨.pwmLow c, 0, d⟩ => [.count c (pin (pinOf c) d)]
  | _ => []

/-- The PWM period of a channel: of 100 increments the first are high. -/
def period (c : Fin 8) (v : ℕ) : List Play :=
  .duty c v :: List.replicate v (.count c true) ++ List.replicate (100 - v) (.count c false)

/-- A period of each channel. -/
def round (v : Fin 8 → ℕ) : List Play := (List.finRange 8).flatMap fun c => period c (v c)

/-- A number of periods of each channel. -/
def rounds (n : ℕ) (v : Fin 8 → ℕ) : List Play := (List.range n).flatMap fun _ => round v

/-- What is played of a sample of each channel. -/
def pass (v : Fin 8 → ℕ) : List Play := .pass :: rounds 1211 v

/-- The duty cycle of a sample. -/
def clamp (v : ℕ) : ℕ := if v ≤ 1 then 1 else if 99 ≤ v then 99 else v

theorem clamp_bounds (v : ℕ) : 1 ≤ clamp v ∧ clamp v ≤ 99 := by
  unfold clamp
  split_ifs <;> omega

/-! ## The sample of a channel -/

theorem duty_apart_offset (c c' : Fin 8) : (duty c).Apart (offset c') := by
  revert c c'
  decide

theorem duty_apart {c c' : Fin 8} (h : c ≠ c') : (duty c).Apart (duty c') := by
  revert c c'
  decide

theorem offset_apart {c c' : Fin 8} (h : c ≠ c') : (offset c).Apart (offset c') := by
  revert c c'
  decide

theorem duty_reg (c : Fin 8) : (duty c).reg ∈ [R7, R8] := by
  revert c
  decide

theorem duty_not_mem {rs : List Reg} (h : ∀ r ∈ [R7, R8], r ∉ rs) (c : Fin 8) :
    (duty c).reg ∉ rs :=
  h _ (duty_reg c)

theorem offset_not_mem {rs : List Reg} (h : ∀ r ∈ [R4, R5, R6, R11], r ∉ rs) (c : Fin 8) :
    (offset c).reg ∉ rs := by
  have hreg : (offset c).reg ∈ [R4, R5, R6, R11] := by
    revert c
    decide
  exact h _ hreg

theorem firstByte_duty (c : Fin 8) : (duty c).firstByte = duty c := by
  revert c
  decide

/-- The load of the sample at the offset. -/
theorem effect_load (c : Fin 8) (d : Data) :
    (Instr.lbbo (L := Label) (duty c) R10 (offset c) 1).effect d =
      d.write (duty c) ((d.mem (d.read R10 + d.read (offset c))).setWidth 32) := by
  show d.write (duty c).firstByte _ = _
  rw [firstByte_duty]
  rfl

/-- The samples of eight channels: equally many of each, none of which is the end
marker, and with it they fit the shared memory. -/
structure Waves where
  n : ℕ
  samples : Fin 8 → List ℕ
  pos : 1 ≤ n
  length_samples : ∀ c, (samples c).length = n
  byte : ∀ c, ∀ v ∈ samples c, v < 2 ^ 8
  ne_marker : ∀ c, ∀ v ∈ samples c, v ≠ 150
  fits : 4 + 8 * (n + 1) ≤ 0x3000

namespace Waves

variable (w : Waves)

/-- The sample at a place. -/
def sample (c : Fin 8) (j : ℕ) : ℕ := (w.samples c).getD j 0

/-- What is sent for a channel. -/
def marked (c : Fin 8) : List ℕ := w.samples c ++ [150]

theorem marked_of_lt (c : Fin 8) {j : ℕ} (hj : j < w.n) : (w.marked c).getD j 0 = w.sample c j := by
  rw [marked, sample, List.getD_eq_getElem?_getD, List.getD_eq_getElem?_getD,
    List.getElem?_append_left (by rwa [w.length_samples])]

theorem marked_self (c : Fin 8) : (w.marked c).getD w.n 0 = 150 := by
  rw [marked, List.getD_eq_getElem?_getD, List.getElem?_append_right (by rw [w.length_samples]),
    w.length_samples, Nat.sub_self]
  rfl

theorem sample_mem (c : Fin 8) {j : ℕ} (hj : j < w.n) : w.sample c j ∈ w.samples c := by
  have hlt : j < (w.samples c).length := by rwa [w.length_samples]
  rw [sample, ← List.getElem_eq_getD (h := hlt) 0]
  exact List.getElem_mem hlt

theorem sample_lt (c : Fin 8) {j : ℕ} (hj : j < w.n) : w.sample c j < 2 ^ 8 :=
  w.byte c _ (w.sample_mem c hj)

theorem marked_lt (c : Fin 8) {j : ℕ} (hj : j ≤ w.n) : (w.marked c).getD j 0 < 2 ^ 8 := by
  rcases Nat.lt_or_eq_of_le hj with hlt | rfl
  · rw [w.marked_of_lt c hlt]
    exact w.sample_lt c hlt
  · rw [w.marked_self]
    decide

end Waves

/-- What PRU1 has stored, and what `start` has set. -/
structure Holds (w : Waves) (d : Data) : Prop where
  base : d.read R10 = pruSram
  cycles : d.read R0.b0 = 100
  bytes : ∀ (c : Fin 8) (j : ℕ), j ≤ w.n →
    d.mem (addr (4 + 8 * j + c)) = .ofNat 8 ((w.marked c).getD j 0)

variable {w : Waves} {d : Data}

theorem Holds.load (h : Holds w d) (c : Fin 8) {j : ℕ} (hj : j ≤ w.n)
    (hoffset : d.read (offset c) = .ofNat 32 (4 + 8 * j + c)) :
    (Instr.lbbo (L := Label) (duty c) R10 (offset c) 1).effect d =
      d.write (duty c) ((BitVec.ofNat 8 ((w.marked c).getD j 0)).setWidth 32) := by
  rw [effect_load, h.base, hoffset, ← h.bytes c j hj]
  rfl

/-- What is loaded for one channel leaves this alone. -/
theorem Holds.of_keeps (h : Holds w d) {c : Fin 8} {d' : Data}
    (hk : KeepsApart [duty c, offset c] d d') : Holds w d' := by
  have hregs : ∀ c : Fin 8, ∀ f ∈ [duty c, offset c], f.reg ≠ R10 ∧ f.reg ≠ R0 := by decide
  constructor
  · exact (hk.read_of_reg fun f hf => (hregs c f hf).1).trans h.base
  · exact (hk.read_of_reg fun f hf => (hregs c f hf).2).trans h.cycles
  · rw [hk.mem]
    exact h.bytes

/-- What is read of a duty cycle that was loaded. -/
theorem toNat_duty (c : Fin 8) (d : Data) {v : ℕ} (hv : v < 2 ^ 8) :
    ((d.write (duty c) ((BitVec.ofNat 8 v).setWidth 32)).read (duty c)).toNat = v := by
  have hwidth : (duty c).part.width = 8 := by
    revert c
    decide
  have hval : ((BitVec.ofNat 8 v).setWidth 32).toNat = v := by
    rw [BitVec.toNat_setWidth, BitVec.toNat_ofNat]
    omega
  rw [d.toNat_read_write _ (by rwa [hval, hwidth]), hval]

/-- What is read of an offset that was set. -/
theorem read_offset (c : Fin 8) (d : Data) {a : ℕ} (ha : a < 2 ^ 16) :
    (d.write (offset c) (.ofNat 32 a)).read (offset c) = .ofNat 32 a := by
  have hwidth : (offset c).part.width = 16 := by
    revert c
    decide
  have hval : (BitVec.ofNat 32 a).toNat = a := by
    rw [BitVec.toNat_ofNat]
    omega
  exact BitVec.eq_of_toNat_eq (d.toNat_read_write _ (by rwa [hval, hwidth]))

theorem setWidth_first (c : Fin 8) : (first c).setWidth 32 = .ofNat 32 (4 + 8 * 0 + c) := by
  revert c
  decide

/-- After the end marker the first sample is loaded, and the offset is not advanced. -/
theorem does_reload (h : Holds w d) (c : Fin 8) :
    ∃ d', Does program see ⟨.sameSample c, 3, d⟩ [] ⟨loadLabel (c + 1), 0, d'⟩ ∧
      KeepsApart [duty c, offset c] d d' ∧ (d'.read (duty c)).toNat = w.sample c 0 ∧
      d'.read (offset c) = .ofNat 32 (4 + 8 * 0 + c) := by
  have hcode := Does.straight (p := program) (o := see) (l := .sameSample c) (n := 3) (d := d)
    [.ldi (offset c) (first c), .lbbo (duty c) R10 (offset c) 1] rfl rfl fun k d' _ => by
      rw [Nat.add_comm]
      rfl
  have hend := fun d' => Does.fallThrough (p := program) (o := see) (l := .sameSample c) (n := 5)
    (d := d') (e := []) rfl rfl rfl
  set d₁ := d.write (offset c) (.ofNat 32 (4 + 8 * 0 + c)) with hd₁
  have hk₁ : KeepsApart [duty c, offset c] d d₁ := .write (by simp) d _
  have hoffset₁ : d₁.read (offset c) = .ofNat 32 (4 + 8 * 0 + c) := read_offset c d (by omega)
  rw [Instr.effects_cons, Instr.effect, setWidth_first, Instr.effects_cons, Instr.effects_nil,
    (h.of_keeps hk₁).load c (Nat.zero_le _) hoffset₁, w.marked_of_lt c w.pos] at hcode
  refine ⟨_, hcode.trans (hend _), hk₁.trans (.write (by simp) d₁ _), ?_, ?_⟩
  · exact toNat_duty c d₁ (w.sample_lt c w.pos)
  · rw [d₁.read_write_of_apart _ (duty_apart_offset c c), hoffset₁]

/-- **The sample of a channel**: at the end marker the offset is reset and the first
sample is loaded, without the offset being advanced. -/
theorem does_load (h : Holds w d) (c : Fin 8) {j : ℕ} (hj : j ≤ w.n)
    (hoffset : d.read (offset c) = .ofNat 32 (4 + 8 * j + c)) :
    ∃ d', Does program see ⟨.sameSample c, 0, d⟩ [] ⟨loadLabel (c + 1), 0, d'⟩ ∧
      KeepsApart [duty c, offset c] d d' ∧
      (d'.read (duty c)).toNat = w.sample c (if j < w.n then j else 0) ∧
      d'.read (offset c) = .ofNat 32 (4 + 8 * (if j < w.n then j + 1 else 0) + c) := by
  have hfits := w.fits
  have hpos := w.pos
  -- the load, and the offset of the next one
  have hload := Does.straight (p := program) (o := see) (l := .sameSample c) (n := 0) (d := d)
    [.lbbo (duty c) R10 (offset c) 1, .add (offset c) (offset c) (.imm 8)] rfl rfl
    fun k d' _ => rfl
  set d₁ := d.write (duty c) ((BitVec.ofNat 8 ((w.marked c).getD j 0)).setWidth 32) with hd₁
  have hnext : d₁.read (offset c) + (8 : BitVec 8).setWidth 32 =
      .ofNat 32 (4 + 8 * (j + 1) + c) := by
    rw [hd₁, d.read_write_of_apart _ (duty_apart_offset c c), hoffset,
      show 4 + 8 * (j + 1) + c.val = 4 + 8 * j + c + 8 by omega]
    exact BitVec.ofNat_add_ofNat _ 8
  rw [Instr.effects_cons, h.load c hj hoffset, Instr.effects_cons, Instr.effects_nil, Instr.effect,
    Op.val, hnext] at hload
  set d₂ := d₁.write (offset c) (.ofNat 32 (4 + 8 * (j + 1) + c)) with hd₂
  have hk₂ : KeepsApart [duty c, offset c] d d₂ :=
    (KeepsApart.write (by simp) d _).trans (.write (by simp) d₁ _)
  have hduty₂ : (d₂.read (duty c)).toNat = (w.marked c).getD j 0 := by
    rw [hd₂, d₁.read_write_of_apart _ (duty_apart_offset c c).symm, hd₁,
      toNat_duty c d (w.marked_lt c hj)]
  have hqbne : (program.text (.sameSample c))[2]? =
    some (.qbne (loadLabel (c + 1)) (duty c) (.imm 150)) := rfl
  have hmarker : d₂.read (duty c) = (150 : BitVec 8).setWidth 32 ↔ (w.marked c).getD j 0 = 150 := by
    rw [← BitVec.toNat_inj, hduty₂]
    rfl
  rcases Nat.lt_or_eq_of_le hj with hlt | rfl
  · -- a sample
    rw [w.marked_of_lt c hlt] at hduty₂ hmarker
    have htaken := Does.jump (o := see) (d := d₂) hqbne rfl
      (if_pos (mt hmarker.1 (w.ne_marker c _ (w.sample_mem c hlt)))) rfl
    refine ⟨d₂, hload.trans htaken, hk₂, ?_, ?_⟩
    · rw [if_pos hlt, hduty₂]
    · rw [if_pos hlt, hd₂, read_offset c d₁ (by omega)]
  · -- the end marker
    have hpass := Does.pass (o := see) (d := d₂) (e := []) hqbne rfl
      (if_neg (not_not.2 (hmarker.2 (w.marked_self c)))) rfl
    obtain ⟨d', hreload, hk', hduty', hoffset'⟩ := does_reload (h.of_keeps hk₂) c
    refine ⟨d', hload.trans (hpass.trans hreload), hk₂.trans hk', ?_, ?_⟩
    · rw [if_neg (lt_irrefl _), hduty']
    · rw [if_neg (lt_irrefl _), hoffset']

/-- The sample that a channel plays in a pass. -/
def Waves.played (w : Waves) (c : Fin 8) (k : ℕ) : ℕ :=
  w.sample c (if k % (w.n + 1) < w.n then k % (w.n + 1) else 0)

/-- The core in a pass, after some channels have loaded their sample. -/
structure Loading (w : Waves) (k m : ℕ) (d : Data) : Prop where
  holds : Holds w d
  offsets : ∀ c, d.read (offset c) =
    .ofNat 32 (4 + 8 * ((if c.val < m then k + 1 else k) % (w.n + 1)) + c)
  duties : ∀ c, c.val < m → (d.read (duty c)).toNat = w.played c k

variable {k m : ℕ}

/-- One more channel. -/
theorem does_sameSample (hm : m < 8) (h : Loading w k m d) :
    ∃ d', Does program see ⟨loadLabel m, 0, d⟩ [] ⟨loadLabel (m + 1), 0, d'⟩ ∧
      Loading w k (m + 1) d' := by
  have hoffset := h.offsets ⟨m, hm⟩
  rw [if_neg (lt_irrefl m)] at hoffset
  obtain ⟨d', hdoes, hk, hduty, hoffset'⟩ := does_load h.holds ⟨m, hm⟩
    (Nat.le_of_lt_succ (Nat.mod_lt k w.n.succ_pos)) hoffset
  have hlabel : loadLabel m = .sameSample ⟨m, hm⟩ := dif_pos hm
  have hother : ∀ c : Fin 8, c.val ≠ m → ⟨m, hm⟩ ≠ c := fun c hc heq => hc (heq ▸ rfl)
  rw [hlabel]
  refine ⟨d', hdoes, h.holds.of_keeps hk, fun c => ?_, fun c hc => ?_⟩
  · by_cases hcm : c.val = m
    · obtain rfl : c = ⟨m, hm⟩ := Fin.ext hcm
      rw [hoffset', if_pos (Nat.lt_succ_self m), Period.add_one_mod_add_one]
    · have hapart : ∀ f ∈ [duty ⟨m, hm⟩, offset ⟨m, hm⟩], f.Apart (offset c) := by
        simp only [List.mem_cons, List.not_mem_nil, or_false, forall_eq_or_imp, forall_eq]
        exact ⟨duty_apart_offset _ _, offset_apart (hother c hcm)⟩
      rw [hk.read _ hapart, h.offsets c]
      simp only [show c.val < m + 1 ↔ c.val < m by omega]
  · by_cases hcm : c.val = m
    · obtain rfl : c = ⟨m, hm⟩ := Fin.ext hcm
      exact hduty
    · have hapart : ∀ f ∈ [duty ⟨m, hm⟩, offset ⟨m, hm⟩], f.Apart (duty c) := by
        simp only [List.mem_cons, List.not_mem_nil, or_false, forall_eq_or_imp, forall_eq]
        exact ⟨duty_apart (hother c hcm), (duty_apart_offset _ _).symm⟩
      rw [hk.read _ hapart]
      exact h.duties c (by omega)

/-- All channels. -/
theorem does_loads (h : Loading w k 0 d) :
    ∃ d', Does program see ⟨.sameSample 0, 0, d⟩ [] ⟨.sameSample8, 0, d'⟩ ∧ Loading w k 8 d' := by
  exact Does.pieces (p := program) (o := see) (g := fun m d => ⟨loadLabel m, 0, d⟩)
    (P := Loading w k) (f := fun _ => []) (n := 8) (fun m hm d => does_sameSample hm) h

/-! ## The bounds of the duty cycles -/

/-- Where the duty cycle of a channel is bounded. -/
def clampPoint : ℕ → Label × ℕ
  | 0 => (.sameSample8, 4)
  | m + 1 => (clampLabel m, 0)

/-- The bounds of one duty cycle. -/
theorem does_clamp (c : Fin 8) (d : Data) :
    ∃ d', Does program see ⟨(clampPoint c).1, (clampPoint c).2, d⟩ []
        ⟨(clampPoint (c + 1)).1, (clampPoint (c + 1)).2, d'⟩ ∧
      KeepsApart [duty c] d d' ∧ (d'.read (duty c)).toNat = clamp (d.read (duty c)).toNat := by
  have htext : (text (clampPoint c).1).drop (clampPoint c).2 =
      [.qblt (.greaterthanZero c) (duty c) (.imm 1), .ldi (duty c) 1] := by
    revert c
    decide
  have hnext : next (clampPoint c).1 = some (.greaterthanZero c) := by
    revert c
    decide
  have hwidth : 8 ≤ (duty c).part.width := by
    revert c
    decide
  have hsee : ∀ k d', see ⟨(clampPoint c).1, (clampPoint c).2 + k, d'⟩ = [] := by
    intro k d'
    fin_cases c <;> rfl
  exact Does.clamp (p := program) (o := see) (f := duty c) (a := 1) (b := 1) (c := 99) (e := 99)
    htext hnext rfl rfl hsee (fun k d' => rfl) (by decide) (by decide) (by decide) (by decide)
    hwidth

/-- The core after the duty cycles of some channels are bounded. -/
structure Clamping (v : Fin 8 → ℕ) (d₀ : Data) (m : ℕ) (d : Data) : Prop where
  duties : ∀ c, (d.read (duty c)).toNat = if c.val < m then clamp (v c) else v c
  keeps : Keeps [R7, R8] d₀ d

/-- All duty cycles. -/
theorem does_clamps {v : Fin 8 → ℕ} (h : ∀ c, (d.read (duty c)).toNat = v c) :
    ∃ d', Does program see ⟨.sameSample8, 4, d⟩ [] ⟨.countCheck, 0, d'⟩ ∧ Clamping v d 8 d' := by
  refine Does.pieces (p := program) (o := see)
    (g := fun m d => ⟨(clampPoint m).1, (clampPoint m).2, d⟩) (P := Clamping v d) (f := fun _ => [])
    (n := 8) (fun m hm d₁ h₁ => ?_) ⟨h, .refl _ d⟩
  obtain ⟨d', hdoes, hk, hduty⟩ := does_clamp ⟨m, hm⟩ d₁
  refine ⟨d', hdoes, fun c => ?_, h₁.keeps.trans (hk.keeps fun f hf => ?_)⟩
  · by_cases hcm : c.val = m
    · obtain rfl : c = ⟨m, hm⟩ := Fin.ext hcm
      rw [hduty, h₁.duties, if_neg (lt_irrefl m), if_pos (Nat.lt_succ_self m)]
    · have hapart : (duty ⟨m, hm⟩).Apart (duty c) := duty_apart fun heq => hcm (heq ▸ rfl)
      rw [hk.read _ (by simpa using hapart), h₁.duties]
      simp only [show c.val < m + 1 ↔ c.val < m by omega]
  · rw [List.mem_singleton.1 hf]
    exact duty_reg _

/-! ## The period of a channel -/

/-- The block after the periods of some channels. -/
def pwmLabel (m : ℕ) : Label := if h : m < 8 then .startPwm ⟨m, h⟩ else .countCheck

/-- The core between two periods: a number of rounds is counted. -/
structure Ready (v : Fin 8 → ℕ) (p : ℕ) (d : Data) : Prop where
  duties : ∀ c, (d.read (duty c)).toNat = v c
  cycles : d.read R0.b0 = 100
  on : d.read R9.b0 = 0
  off : d.read R15 = 0
  last : d.read R12 = 1212
  rounds : d.read R13 = .ofNat 32 p

variable {v : Fin 8 → ℕ} {p : ℕ}

/-- A counting loop of a channel. -/
theorem does_count {l : Label} {r : Reg} {b : Field} {c : Fin 8} {high : Bool} {x : ℕ}
    {is : List (Instr Label)} (htext : text l = .add r r (.imm 1) :: .qbne l r.b0 b :: is)
    (hsee : ∀ d, see ⟨l, 0, d⟩ = [.count c (pin (pinOf c) d)]) (hsee' : ∀ d, see ⟨l, 1, d⟩ = [])
    (hr : r ≠ R30) (hb : r ≠ b.reg) (hpin : pin (pinOf c) d = high) (hzero : d.read r.b0 = 0)
    (hx : (d.read b).toNat = x) (hpos : 1 ≤ x) (hlt : x < 2 ^ 8) :
    Does program see ⟨l, 0, d⟩ (List.replicate x (.count c high))
      ⟨l, 2, d.write r (d.read r + .ofNat 32 x)⟩ := by
  have hadd : (program.text l)[0]? = some (.add r r (.imm 1)) := by
    show (text l)[0]? = _
    rw [htext]
    rfl
  have hqbne : (program.text l)[1]? = some (.qbne l ⟨r, .b0⟩ b) := by
    show (text l)[1]? = _
    rw [htext]
    rfl
  have hloop := Does.countLoop (p := program) (o := see) (d := d) (e := [.count c high]) (n := x)
    hadd hqbne rfl (fun y => d.read_write_of_apart y (.inl hb)) (by rw [Op.val, hx]; exact hlt)
    (fun y => by rw [hsee, pin_write hr, hpin]) (fun y => hsee' _)
    (by rw [Op.val, hx, show (⟨r, .b0⟩ : Field) = r.b0 from rfl, hzero]
        exact (laps_of_lt (w := 8) hpos hlt).symm)
  simpa using hloop

/-- The pin is set. -/
theorem does_startPwm (c : Fin 8) (h : Ready v p d) (hv' : v c ≤ 99) :
    ∃ d', Does program see ⟨.startPwm c, 0, d⟩ [.duty c (v c)] ⟨.pwmHigh c, 0, d'⟩ ∧
      Keeps [R14, R30] d d' ∧ pin (pinOf c) d' = true ∧ (d'.read R14.b0).toNat = 100 - v c := by
  have hset := Does.pass (p := program) (o := see) (l := .startPwm c) (n := 0) (d := d)
    (i := .set R30 R30 (pinOf c)) (e := [.duty c (v c)]) rfl rfl rfl (by rw [← h.duties c]; rfl)
  set d₁ := d.write R30 (d.read R30 ||| (1 : Word) <<< (pinOf c).val) with hd₁
  have hsub := Does.pass (p := program) (o := see) (l := .startPwm c) (n := 1) (d := d₁)
    (i := .sub R14.b0 R0.b0 (duty c)) (e := []) rfl rfl rfl rfl
  set d₂ := d₁.write R14.b0 (d₁.read R0.b0 - d₁.read (duty c)) with hd₂
  have hend := Does.fallThrough (p := program) (o := see) (l := .startPwm c) (n := 2) (d := d₂)
    (e := []) rfl rfl rfl
  have hk₁ : Keeps [R30] d d₁ := .write (by decide) d _
  have hduty : (d₁.read (duty c)).toNat = v c := by
    rw [hk₁.read (duty_not_mem (by decide) c), h.duties]
  have hcycles : d₁.read R0.b0 = 100 := (hk₁.read (by decide)).trans h.cycles
  have hrest : (d₁.read R0.b0 - d₁.read (duty c)).toNat = 100 - v c := by
    rw [hcycles, BitVec.toNat_sub_of_le, hduty]
    · rfl
    · rw [BitVec.le_def, hduty]
      show v c ≤ 100
      omega
  refine ⟨d₂, hset.trans (hsub.trans hend), (hk₁.mono (by decide)).trans (.write (by decide) d₁ _),
    ?_, ?_⟩
  · rw [hd₂, pin_write (by decide), hd₁, pin_set]
  · rw [hd₂, d₁.toNat_read_write _ (by rw [hrest]; show _ < 2 ^ 8; omega), hrest]

/-- The pin is high, and is cleared. -/
theorem does_pwmHigh {c : Fin 8} {x : ℕ} (hpin : pin (pinOf c) d = true)
    (hduty : (d.read (duty c)).toNat = x) (hzero : d.read R9.b0 = 0) (hpos : 1 ≤ x)
    (hlt : x < 2 ^ 8) :
    ∃ d', Does program see ⟨.pwmHigh c, 0, d⟩ (List.replicate x (.count c true))
        ⟨.pwmLow c, 0, d'⟩ ∧ Keeps [R9, R30] d d' ∧ pin (pinOf c) d' = false := by
  have hloop := does_count (l := .pwmHigh c) (r := R9) (b := duty c) rfl (fun _ => rfl)
    (fun _ => rfl) (by decide) (ne_of_mem_of_not_mem (List.mem_singleton.2 rfl)
      (duty_not_mem (by decide) c)) hpin hzero hduty hpos hlt
  set d₁ := d.write R9 (d.read R9 + .ofNat 32 x) with hd₁
  have hclr := Does.pass (p := program) (o := see) (l := .pwmHigh c) (n := 2) (d := d₁)
    (i := .clr R30 R30 (pinOf c)) (e := []) rfl rfl rfl rfl
  set d₂ := d₁.write R30 (d₁.read R30 &&& ~~~((1 : Word) <<< (pinOf c).val)) with hd₂
  have hend := Does.fallThrough (p := program) (o := see) (l := .pwmHigh c) (n := 3) (d := d₂)
    (e := []) rfl rfl rfl
  refine ⟨d₂, by simpa using hloop.trans (hclr.trans hend),
    (Keeps.write (by decide) d _).trans (.write (by decide) d₁ _), ?_⟩
  rw [hd₂, pin_clr]

/-- After the period of the last channel the rounds are counted. -/
theorem does_pwmLow_end (c : Fin 8) (d : Data) :
    Does program see ⟨.pwmLow c, 4, d⟩ [] ⟨pwmLabel (c + 1), 0, d⟩ := by
  by_cases hc : c = 7
  · subst hc
    exact Does.jump (i := .qba .countCheck) rfl rfl rfl rfl
  · have hend : (text (.pwmLow c))[4]? = none := by simp [text, hc]
    have hnext : next (.pwmLow c) = some (pwmLabel (c + 1)) := by
      revert c
      decide
    exact Does.fallThrough hend hnext rfl

theorem cleared_low (c : Fin 8) :
    (cleared c).reg = R9 ∧ (cleared c).part.lo = 0 ∧ 8 ≤ (cleared c).part.width := by
  revert c
  decide

/-- The pin is low, and the counters are cleared. -/
theorem does_pwmLow {c : Fin 8} {x : ℕ} (hpin : pin (pinOf c) d = false)
    (hrest : (d.read R14.b0).toNat = x) (hzero : d.read R15 = 0) (hpos : 1 ≤ x) (hlt : x < 2 ^ 8) :
    ∃ d', Does program see ⟨.pwmLow c, 0, d⟩ (List.replicate x (.count c false))
        ⟨pwmLabel (c + 1), 0, d'⟩ ∧
      Keeps [R9, R15] d d' ∧ d'.read R9.b0 = 0 ∧ d'.read R15 = 0 := by
  have hzero' : d.read R15.b0 = 0 := by
    apply BitVec.eq_of_toNat_eq
    rw [show R15.b0 = ⟨R15, .b0⟩ from rfl, toNat_read_low rfl, hzero]
    rfl
  have hloop := does_count (l := .pwmLow c) (r := R15) (b := R14.b0) rfl (fun _ => rfl)
    (fun _ => rfl) (by decide) (by decide) hpin hzero' hrest hpos hlt
  set d₁ := d.write R15 (d.read R15 + .ofNat 32 x) with hd₁
  have hclear := Does.straight (p := program) (o := see) (l := .pwmLow c) (n := 2) (d := d₁)
    [.sub R15 R15 R15, .sub (cleared c) (cleared c) (cleared c)] rfl rfl fun k d' _ => by
      rw [Nat.add_comm]
      rfl
  set d₂ := d₁.write R15 (d₁.read R15 - d₁.read R15) with hd₂
  set d₃ := d₂.write (cleared c) (d₂.read (cleared c) - d₂.read (cleared c)) with hd₃
  have hcleared := cleared_low c
  refine ⟨d₃, by simpa using hloop.trans (hclear.trans (does_pwmLow_end c d₃)), ?_, ?_, ?_⟩
  · exact ((Keeps.write (by decide) d _).trans (.write (by decide) d₁ _)).trans
      (.write (by rw [hcleared.1]; decide) d₂ _)
  · rw [hd₃, BitVec.sub_self]
    exact d₂.read_write_of_low (g := R9.b0) 0 hcleared.1.symm hcleared.2.1.symm hcleared.2.2
  · rw [hd₃, d₂.read_write_of_apart _ (.inl (by rw [hcleared.1]; decide)), hd₂,
      Data.read_write_reg, BitVec.sub_self]
    rfl

/-- **The period of a channel.** -/
theorem does_pulse (c : Fin 8) (h : Ready v p d) (hv : 1 ≤ v c) (hv' : v c ≤ 99) :
    ∃ d', Does program see ⟨.startPwm c, 0, d⟩ (period c (v c)) ⟨pwmLabel (c + 1), 0, d'⟩ ∧
      Ready v p d' ∧ Keeps [R9, R13, R14, R15, R30] d d' := by
  obtain ⟨d₁, hstart, hk₁, hpin₁, hrest₁⟩ := does_startPwm c h hv'
  have hduty₁ : (d₁.read (duty c)).toNat = v c := by
    rw [hk₁.read (duty_not_mem (by decide) c), h.duties]
  obtain ⟨d₂, hhigh, hk₂, hpin₂⟩ := does_pwmHigh hpin₁ hduty₁ ((hk₁.read (by decide)).trans h.on) hv
    (by omega)
  have hrest₂ : (d₂.read R14.b0).toNat = 100 - v c := by
    rw [hk₂.read (by decide), hrest₁]
  have hk₁₂ : Keeps [R9, R14, R30] d d₂ := (hk₁.mono (by decide)).trans (hk₂.mono (by decide))
  obtain ⟨d₃, hlow, hk₃, hon, hoff⟩ := does_pwmLow hpin₂ hrest₂
    ((hk₁₂.read (by decide)).trans h.off) (by omega) (by omega)
  have hk : Keeps [R9, R14, R15, R30] d d₃ := (hk₁₂.mono (by decide)).trans (hk₃.mono (by decide))
  refine ⟨d₃, by simpa [period] using hstart.trans (hhigh.trans hlow), ?_, hk.mono (by decide)⟩
  constructor
  · intro c'
    rw [hk.read (duty_not_mem (by decide) c'), h.duties]
  · exact (hk.read (by decide)).trans h.cycles
  · exact hon
  · exact hoff
  · exact (hk.read (by decide)).trans h.last
  · exact (hk.read (by decide)).trans h.rounds

/-- A period of each channel. -/
theorem does_round (h : Ready v p d) (hv : ∀ c, 1 ≤ v c ∧ v c ≤ 99) :
    ∃ d', Does program see ⟨.startPwm 0, 0, d⟩ (round v) ⟨.countCheck, 0, d'⟩ ∧
      Ready v p d' ∧ Keeps [R9, R13, R14, R15, R30] d d' := by
  refine Does.pieces (p := program) (o := see) (g := fun m d => ⟨pwmLabel m, 0, d⟩)
    (P := fun _ d' => Ready v p d' ∧ Keeps [R9, R13, R14, R15, R30] d d')
    (f := fun m => if h : m < 8 then period ⟨m, h⟩ (v ⟨m, h⟩) else []) (n := 8)
    (fun m hm d₁ h₁ => ?_) ⟨h, .refl _ d⟩
  obtain ⟨d', hdoes, hready, hk⟩ := does_pulse ⟨m, hm⟩ h₁.1 (hv _).1 (hv _).2
  have hlabel : pwmLabel m = .startPwm ⟨m, hm⟩ := dif_pos hm
  rw [hlabel]
  simp only [dif_pos hm]
  exact ⟨d', hdoes, hready, h₁.2.trans hk⟩

/-- The rounds are counted. -/
theorem does_countCheck (h : Ready v p d) (hp : p < 1212) :
    ∃ d', Does program see ⟨.countCheck, 0, d⟩ []
        ⟨if p + 1 = 1212 then .sampleStart else .startPwm 0, 0, d'⟩ ∧
      Ready v (p + 1) d' ∧ Keeps [R9, R13, R14, R15, R30] d d' := by
  have hcheck := Does.countCheck (p := program) (o := see) (l := .countCheck) (d := d) rfl rfl
    (d.read_write_of_apart (f := R13) (g := R12) _ (by decide)) fun k d' => rfl
  have hk : Keeps [R13] d (d.write R13 (d.read R13 + 1)) := .write (by decide) d _
  have hcount : d.read R13 + 1 = .ofNat 32 (p + 1) := by
    rw [h.rounds]
    exact BitVec.ofNat_add_ofNat p 1
  have hlast : d.read R13 + 1 = Op.val d R12 ↔ p + 1 = 1212 := by
    rw [hcount, Op.val, h.last, ← BitVec.toNat_inj, BitVec.toNat_ofNat, Nat.mod_eq_of_lt (by omega)]
    rfl
  simp only [hlast] at hcheck
  refine ⟨_, hcheck, ?_, hk.mono (by decide)⟩
  constructor
  · intro c
    rw [hk.read (duty_not_mem (by decide) c), h.duties]
  · exact (hk.read (by decide)).trans h.cycles
  · exact (hk.read (by decide)).trans h.on
  · exact (hk.read (by decide)).trans h.off
  · exact (hk.read (by decide)).trans h.last
  · rw [Data.read_write_reg, hcount]

/-- **The periods of a pass.** -/
theorem does_rounds (h : Ready v 0 d) (hv : ∀ c, 1 ≤ v c ∧ v c ≤ 99) {n : ℕ} (hn : n = 1211) :
    ∃ d', Does program see ⟨.countCheck, 0, d⟩ (rounds n v) ⟨.sampleStart, 0, d'⟩ ∧
      Keeps [R9, R13, R14, R15, R30] d d' := by
  obtain ⟨d₀, hfirst, hready₀, hk₀⟩ := does_countCheck h (by omega)
  obtain ⟨d', hall, -, hk'⟩ := Does.pieces (p := program) (o := see)
    (g := fun m d => ⟨if m = n then .sampleStart else .startPwm 0, 0, d⟩)
    (P := fun m d' => Ready v (m + 1) d' ∧ Keeps [R9, R13, R14, R15, R30] d d')
    (f := fun _ => round v) (n := n) (d := d₀) (fun m hm d₁ h₁ => by
      obtain ⟨d₂, hround, hready₂, hk₂⟩ := does_round h₁.1 hv
      obtain ⟨d₃, hcheck, hready₃, hk₃⟩ := does_countCheck hready₂ (by omega)
      rw [if_neg (by omega)]
      simp only [show m + 1 + 1 = 1212 ↔ m + 1 = n by omega] at hcheck
      exact ⟨d₃, by simpa using hround.trans hcheck, hready₃, h₁.2.trans (hk₂.trans hk₃)⟩)
    ⟨hready₀, hk₀⟩
  rw [if_neg (by omega)] at hfirst
  rw [if_neg (by omega), if_pos rfl] at hall
  exact ⟨d', hfirst.trans hall, hk'⟩

/-! ## The passes -/

/-- The counters are set up, and the duty cycles bounded. -/
theorem does_sameSample8 (h : Loading w k 8 d) :
    ∃ d', Does program see ⟨.sameSample8, 0, d⟩ [] ⟨.countCheck, 0, d'⟩ ∧
      Ready (fun c => clamp (w.played c k)) 0 d' ∧ Keeps [R7, R8, R9, R12, R13, R15] d d' := by
  have hcode := Does.straight (p := program) (o := see) (l := .sameSample8) (n := 0) (d := d)
    ((text .sameSample8).take 4) rfl rfl fun k d' _ => rfl
  set d₁ := Instr.effects ((text .sameSample8).take 4) d with hd₁
  have hk₁ : Keeps [R9, R12, R13, R15] d d₁ := Instr.keeps_effects (by decide) d
  have hlast : d₁ = (((d.write R12 1212).write R9.w0 0).write R15 0).write R13 0 := rfl
  have hduties : ∀ c, (d₁.read (duty c)).toNat = w.played c k := by
    intro c
    rw [hk₁.read (duty_not_mem (by decide) c), h.duties c c.isLt]
  obtain ⟨d₂, hclamp, hclamped⟩ := does_clamps hduties
  have hk₂ := hclamped.keeps
  refine ⟨d₂, hcode.trans hclamp, ?_, (hk₁.mono (by decide)).trans (hk₂.mono (by decide))⟩
  constructor
  · intro c
    rw [hclamped.duties, if_pos c.isLt]
  · rw [hk₂.read (by decide), hk₁.read (by decide), h.holds.cycles]
  · rw [hk₂.read (by decide), hlast, Data.read_write_of_apart _ _ (by decide),
      Data.read_write_of_apart _ _ (by decide)]
    exact Data.read_write_of_low (f := R9.w0) (g := R9.b0) _ 0 rfl rfl (by decide)
  · rw [hk₂.read (by decide), hlast, Data.read_write_of_apart _ _ (by decide), Data.read_write_reg]
  · rw [hk₂.read (by decide), hlast, Data.read_write_of_apart _ _ (by decide),
      Data.read_write_of_apart _ _ (by decide), Data.read_write_of_apart _ _ (by decide),
      Data.read_write_reg]
  · rw [hk₂.read (by decide), hlast, Data.read_write_reg]
    rfl

/-- **What is played between two visits of `sample_start`.** -/
theorem does_pass (h : Loading w k 0 d) :
    ∃ d', Does program see ⟨.sampleStart, 0, d⟩ (pass fun c => clamp (w.played c k))
        ⟨.sampleStart, 0, d'⟩ ∧ Loading w (k + 1) 0 d' := by
  have hstart := Does.fallThrough (p := program) (o := see) (l := .sampleStart) (n := 0) (d := d)
    (e := [.pass]) rfl rfl rfl
  obtain ⟨d₁, hload, hloaded⟩ := does_loads h
  obtain ⟨d₂, hclamp, hready, hk₂⟩ := does_sameSample8 hloaded
  obtain ⟨d₃, hplay, hk₃⟩ := does_rounds hready (fun c => clamp_bounds _) rfl
  have hk : Keeps [R7, R8, R9, R12, R13, R14, R15, R30] d₁ d₃ :=
    (hk₂.mono (by decide)).trans (hk₃.mono (by decide))
  have hall := hstart.trans (hload.trans (hclamp.trans hplay))
  rw [List.nil_append, List.nil_append, List.singleton_append] at hall
  refine ⟨d₃, hall, ⟨?_, ?_, ?_⟩, ?_, ?_⟩
  · exact (hk.read (by decide)).trans hloaded.holds.base
  · exact (hk.read (by decide)).trans hloaded.holds.cycles
  · rw [hk.mem]
    exact hloaded.holds.bytes
  · intro c
    rw [hk.read (offset_not_mem (by decide) c), hloaded.offsets, if_pos c.isLt,
      if_neg (Nat.not_lt_zero _)]
  · exact fun c hc => absurd hc (Nat.not_lt_zero _)

/-! ## From the start -/

/-- What the user-space program sends: the number of samples, and the samples of the
channels in turn. -/
def sent (totalNoOfSamples : ℤ) (w : Waves) : List ℤ :=
  totalNoOfSamples :: (List.range (w.n + 1)).flatMap fun i =>
    (List.finRange 8).map fun c => ((w.marked c).getD i 0 : ℤ)

/-- The core that is started after PRU1 has stored them. -/
def stored (totalNoOfSamples : ℤ) (w : Waves) (d : Data) : Data :=
  { d with mem := storeSamples ((sent totalNoOfSamples w).map rawMessage) d.mem }

/-- The place of an element of lists of eight, one after the other. -/
theorem getElem?_rows {α : Type} (f : ℕ → Fin 8 → α) {n j : ℕ} (hj : j < n) (c : Fin 8) :
    ((List.range n).flatMap fun i => (List.finRange 8).map (f i))[8 * j + c]? = some (f j c) := by
  have hlen : ∀ n, ((List.range n).flatMap fun i => (List.finRange 8).map (f i)).length =
      8 * n := by
    intro n
    simp [List.length_flatMap, Nat.mul_comm]
  induction n with
  | zero => omega
  | succ n ih =>
    rw [List.range_succ, List.flatMap_append, List.flatMap_singleton]
    rcases Nat.lt_or_eq_of_le (Nat.le_of_lt_succ hj) with hlt | rfl
    · rw [List.getElem?_append_left (by rw [hlen]; omega), ih hlt]
    · rw [List.getElem?_append_right (by rw [hlen]; omega), hlen, Nat.add_sub_cancel_left]
      simp

/-- Where the bytes lie. -/
theorem stored_addr (totalNoOfSamples : ℤ) (w : Waves) (d : Data) (c : Fin 8) {j : ℕ}
    (hj : j ≤ w.n) : (stored totalNoOfSamples w d).mem (addr (4 + 8 * j + c)) =
      .ofNat 8 ((w.marked c).getD j 0) := by
  have hfits := w.fits
  set rows := (List.range (w.n + 1)).flatMap fun i =>
    (List.finRange 8).map fun c => ((w.marked c).getD i 0 : ℤ) with hrows
  have hlen : rows.length = 8 * (w.n + 1) := by
    simp [hrows, List.length_flatMap, Nat.mul_comm]
  have hget := getElem?_rows (fun i c => ((w.marked c).getD i 0 : ℤ)) (Nat.lt_succ_of_le hj) c
  obtain ⟨hlt, hget⟩ := List.getElem?_eq_some_iff.1 hget
  have hstore := storeSamples_addr (m := rawMessage totalNoOfSamples)
    (l := rows.map rawMessage) (j := 8 * j + c) d.mem (by rwa [List.length_map])
    (by rw [List.length_map]; omega)
  rw [List.getElem_map, hget, byteLoad_rawMessage (w.marked_lt c hj), ← Nat.add_assoc] at hstore
  exact hstore

/-- The offsets that some channels begin with. -/
theorem read_firsts (c : Fin 8) (cs : List (Fin 8)) (d : Data) :
    (Instr.effects (cs.map fun c => Instr.ldi (L := Label) (offset c) (first c)) d).read
      (offset c) = if c ∈ cs then .ofNat 32 (4 + 8 * 0 + c) else d.read (offset c) := by
  induction cs generalizing d with
  | nil => rfl
  | cons a cs ih =>
    rw [List.map_cons, Instr.effects_cons, Instr.effect, ih, setWidth_first]
    by_cases hmem : c ∈ cs
    · rw [if_pos hmem, if_pos (List.mem_cons_of_mem _ hmem)]
    · rw [if_neg hmem]
      by_cases hca : c = a
      · rw [if_pos (hca ▸ List.mem_cons_self ..), hca, read_offset a d (by omega)]
      · rw [if_neg (by simpa [hca] using hmem),
          d.read_write_of_apart _ (offset_apart (Ne.symm hca))]

/-- The one-time setup. -/
theorem does_start (totalNoOfSamples : ℤ) (w : Waves) (d : Data) :
    ∃ d', Does program see ⟨.start, 0, stored totalNoOfSamples w d⟩ [] ⟨.sampleStart, 0, d'⟩ ∧
      Loading w 0 0 d' := by
  have hbytes := fun c j (hj : j ≤ w.n) => stored_addr totalNoOfSamples w d c hj
  set d₀ := stored totalNoOfSamples w d
  have hcode := Does.straight (p := program) (o := see) (l := .start) (n := 0) (d := d₀)
    (text .start) rfl rfl fun k d' _ => rfl
  set d₁ := Instr.effects (text .start) d₀ with hd₁
  have hend := Does.fallThrough (p := program) (o := see) (l := .start) (n := 10) (d := d₁)
    (e := []) rfl rfl rfl
  have hk : Keeps [R0, R4, R5, R6, R10, R11] d₀ d₁ := Instr.keeps_effects (by decide) d₀
  refine ⟨d₁, hcode.trans hend, ⟨?_, ?_, ?_⟩, ?_, ?_⟩
  · simp (disch := decide) [hd₁, text, Data.read_write_of_apart]
  · have hlow : ∀ d : Data, (d.write R0 (.ofNat 32 100)).read R0.b0 = .ofNat 32 100 := fun d =>
      d.read_write_of_low (f := R0) (g := R0.b0) 100 rfl rfl (by decide)
    simp (disch := decide) [hd₁, text, Data.read_write_of_apart, hlow]
  · rw [hk.mem]
    exact hbytes
  · intro c
    have htext : text .start = [.ldi32 R10 pruSram, .ldi R0 100] ++
      (List.finRange 8).map fun c => .ldi (offset c) (first c) := by decide
    rw [hd₁, htext, List.cons_append, List.cons_append, List.nil_append, Instr.effects_cons,
      Instr.effects_cons, read_firsts, if_pos (List.mem_finRange c), if_neg (Nat.not_lt_zero _),
      Nat.zero_mod]
  · exact fun c hc => absurd hc (Nat.not_lt_zero _)

/-- The duty cycle of a channel in a pass. -/
def dutyAt (w : Waves) (c : Fin 8) (j : ℕ) : ℕ := clamp (w.sample c j)

/-- The passes, one after the other. -/
theorem does_passes (totalNoOfSamples : ℤ) (w : Waves) (d : Data) (n : ℕ) :
    ∃ d', Does program see ⟨.start, 0, stored totalNoOfSamples w d⟩
      ((List.range n).flatMap fun k => pass fun c =>
        dutyAt w c (if k % (w.n + 1) < w.n then k % (w.n + 1) else 0)) ⟨.sampleStart, 0, d'⟩ := by
  obtain ⟨d₁, hstart, hzero⟩ := does_start totalNoOfSamples w d
  obtain ⟨d₂, hpasses, -⟩ := Does.pieces (p := program) (o := see)
    (g := fun _ d => ⟨.sampleStart, 0, d⟩) (P := fun k => Loading w k 0)
    (f := fun k => pass fun c => clamp (w.played c k)) (n := n) (fun k _ d h => does_pass h) hzero
  exact ⟨d₂, hstart.trans hpasses⟩

/-- Every channel plays its samples in order, again and again. -/
def PlaysWaves (w : Waves) (d : Data) : Prop :=
  ∀ n, ∃ d', Does program see ⟨.start, 0, d⟩
    ((List.range n).flatMap fun k => pass fun c => dutyAt w c (k % w.n)) ⟨.sampleStart, 0, d'⟩

theorem length_rounds (n : ℕ) {v : Fin 8 → ℕ} (hv : ∀ c, v c ≤ 100) :
    (rounds n v).length = n * 808 := by
  have hperiod : ∀ c, (period c (v c)).length = 101 := by
    intro c
    have := hv c
    simp [period]
    omega
  simp [rounds, round, List.length_flatMap, hperiod]

theorem length_pass (j : Fin 8 → ℕ) :
    (pass fun c => dutyAt w c (j c)).length = 1211 * 808 + 1 := by
  have hbounds : ∀ c, dutyAt w c (j c) ≤ 100 := fun c => by
    have := (clamp_bounds (w.sample c (j c))).2
    rw [dutyAt]
    omega
  rw [pass, List.length_cons, length_rounds _ hbounds]

/-- The duty cycles can be told from the periods. -/
theorem duty_mem_rounds {n x : ℕ} {c : Fin 8} (hn : 0 < n) :
    .duty c x ∈ rounds n v ↔ x = v c := by
  have hperiod : ∀ c', .duty c x ∈ period c' (v c') ↔ c = c' ∧ x = v c' := by
    intro c'
    simp [period]
  have hround : .duty c x ∈ round v ↔ x = v c := by
    simp [round, hperiod]
  rw [rounds, List.mem_flatMap]
  exact ⟨fun ⟨_, _, hmem⟩ => hround.1 hmem, fun heq => ⟨0, List.mem_range.2 hn, hround.2 heq⟩⟩

theorem pass_inj {u v : Fin 8 → ℕ} (h : pass u = pass v) : u = v := by
  funext c
  have hmem : .duty c (u c) ∈ rounds 1211 v := by
    rw [← (List.cons.inj h).2]
    exact (duty_mem_rounds (by decide)).2 rfl
  exact (duty_mem_rounds (by decide)).1 hmem

/-- The samples that are played are to be those that should be. -/
theorem playsWaves_iff_dutyAt (totalNoOfSamples : ℤ) (w : Waves) (d : Data) :
    PlaysWaves w (stored totalNoOfSamples w d) ↔ ∀ c k, dutyAt w c (k % w.n) =
      dutyAt w c (if k % (w.n + 1) < w.n then k % (w.n + 1) else 0) := by
  have hdone := does_passes totalNoOfSamples w d
  constructor
  · intro h c k
    have hpass := Does.pieces_unique h hdone (fun k => by rw [length_pass, length_pass]) k
    exact congrFun (pass_inj hpass) c
  · intro h n
    obtain ⟨d', hdoes⟩ := hdone n
    simp only [← h] at hdoes
    exact ⟨d', hdoes⟩

/-- **Every channel plays its samples in order** exactly if they are all played alike:
the first sample is played again after the last, before the next repetition. -/
theorem playsWaves_iff (totalNoOfSamples : ℤ) (w : Waves) (d : Data) :
    PlaysWaves w (stored totalNoOfSamples w d) ↔
      ∀ c, ∀ x ∈ w.samples c, ∀ y ∈ w.samples c, clamp x = clamp y := by
  rw [playsWaves_iff_dutyAt]
  refine forall_congr' fun c => ?_
  rw [Period.repeat_long_iff (f := dutyAt w c) w.pos]
  have hpos : 0 < (w.samples c).length := w.length_samples c ▸ w.pos
  rw [← w.length_samples c]
  exact Period.const_iff 0 clamp hpos

/-- Two samples for each channel. -/
def twoSamples : Waves where
  n := 2
  samples _ := [10, 20]
  pos := by decide
  length_samples _ := rfl
  byte := by decide
  ne_marker := by decide
  fits := by decide

/-- The third pass plays the first sample, and so does the fourth. -/
theorem first_sample_twice :
    ¬ PlaysWaves twoSamples (stored 16 twoSamples ⟨fun _ => 0, fun _ => 0⟩) := by
  rw [playsWaves_iff_dutyAt]
  intro h
  exact absurd (h 0 3) (by decide)

end MultichannelWaveform
