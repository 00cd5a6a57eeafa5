import PrussBindings.Firmware.SharedRam
import PrussBindings.Lib.PruRun
import PrussBindings.Lib.Rounding

/-!
# Four PWM channels

`example5-multichannel-pwm`: the user-space program sends an `on` and an `off` value
for each of four channels, PRU1 stores them, and PRU0 loads them and goes through
the channels for ever.

* `text`, `program` — the listing of `PRU0/pru-asm-pwm.asm`; the four copies of the
  chain `if`, `elif`, `else` are one block each with the channel as parameter.
* `does_setup` — **what `setup` leaves in the registers**, for any memory.
* `sent`, `stored` — what the user-space program sends, and where it is stored.
* `reachesChannels_iff` — the channels get the values that were entered for them only
  for some of them.
-/

namespace MultichannelPwm

open PruIsa SharedRam

/-! ## The listing -/

/-- The labels; `startif` is `branchIf 0`. -/
inductive Label where
  | setup
  | branchIf (c : Fin 4)
  | branchElif (c : Fin 4)
  | branchElse (c : Fin 4)
  deriving DecidableEq, Repr

abbrev Label.startif : Label := .branchIf 0

/-- The register with the `on` counter and its reload value. -/
def onReg : Fin 4 → Reg
  | 0 => R1
  | 1 => R2
  | 2 => R3
  | 3 => R4

/-- The register with the `off` counter and its reload value. -/
def offReg : Fin 4 → Reg
  | 0 => R5
  | 1 => R6
  | 2 => R7
  | 3 => R8

/-- The pin of a channel: `R30.t0` to `R30.t3`. -/
def pinOf (c : Fin 4) : Fin 32 := c.castLE (by decide)

/-- The instructions under each label. -/
def text : Label → List (Instr Label)
  | .setup => [
    .ldi32 R10 pruSram,
    .sub R1 R1 R1,
    .sub R2 R2 R2,
    .sub R3 R3 R3,
    .sub R4 R4 R4,
    .sub R5 R5 R5,
    .sub R6 R6 R6,
    .sub R7 R7 R7,
    .sub R8 R8 R8,
    .lbbo R1.w0 R10 (.imm 0) 1,
    .lbbo R2.w0 R10 (.imm 1) 1,
    .lbbo R3.w0 R10 (.imm 2) 1,
    .lbbo R4.w0 R10 (.imm 3) 1,
    .lbbo R1.w2 R10 (.imm 0) 1,
    .lbbo R2.w2 R10 (.imm 1) 1,
    .lbbo R3.w2 R10 (.imm 2) 1,
    .lbbo R4.w2 R10 (.imm 3) 1,
    .lbbo R5.w0 R10 (.imm 4) 1,
    .lbbo R6.w0 R10 (.imm 5) 1,
    .lbbo R7.w0 R10 (.imm 6) 1,
    .lbbo R8.w0 R10 (.imm 7) 1,
    .lbbo R5.w2 R10 (.imm 4) 1,
    .lbbo R6.w2 R10 (.imm 5) 1,
    .lbbo R7.w2 R10 (.imm 6) 1,
    .lbbo R8.w2 R10 (.imm 7) 1,
    .qba .startif]
  | .branchIf c => [
    .qbeq (.branchElif c) (onReg c).w0 (.imm 0),
    .sub (onReg c).w0 (onReg c).w0 (.imm 1),
    .set R30 R30 (pinOf c),
    .qba (.branchIf (c + 1))]
  | .branchElif c => [
    .qbeq (.branchElse c) (offReg c).w0 (.imm 0),
    .sub (offReg c).w0 (offReg c).w0 (.imm 1),
    .clr R30 R30 (pinOf c),
    .qba (.branchIf (c + 1))]
  | .branchElse c => [
    .mov (onReg c).w0 (onReg c).w2,
    .mov (offReg c).w0 (offReg c).w2] ++
    -- `else_4` branches back, the others go on with the next channel
    if c = 3 then [.qba .startif] else []

def next : Label → Option Label
  | .setup => some .startif
  | .branchIf c => some (.branchElif c)
  | .branchElif c => some (.branchElse c)
  | .branchElse c => if c = 3 then none else some (.branchIf (c + 1))

/-- `pru-asm-pwm.asm`. -/
def program : Program Label := ⟨text, next⟩

/-- An iteration is seen where it begins. -/
def see (s : State Label) : List Unit :=
  if s.label = .startif ∧ s.index = 0 then [()] else []

/-! ## The values that are loaded -/

/-- The two bytes of a channel in the shared memory. -/
def onByte (d : Data) (c : Fin 4) : Word := (d.mem (addr c)).setWidth 32
def offByte (d : Data) (c : Fin 4) : Word := (d.mem (addr (4 + c))).setWidth 32

/-- What the registers hold: the reload values, and the counters. -/
structure Holds (on off onCount offCount : Fin 4 → Word) (d : Data) : Prop where
  on : ∀ c, d.read (onReg c).w2 = on c
  off : ∀ c, d.read (offReg c).w2 = off c
  onCount : ∀ c, d.read (onReg c).w0 = onCount c
  offCount : ∀ c, d.read (offReg c).w0 = offCount c

/-- The loads of `setup`. -/
def loads : List (Field × BitVec 8) :=
  [(R1.w0, 0), (R2.w0, 1), (R3.w0, 2), (R4.w0, 3), (R1.w2, 0), (R2.w2, 1), (R3.w2, 2), (R4.w2, 3),
    (R5.w0, 4), (R6.w0, 5), (R7.w0, 6), (R8.w0, 7), (R5.w2, 4), (R6.w2, 5), (R7.w2, 6), (R8.w2, 7)]

/-- The byte above the one that a load fills. -/
def upper (f : Field) : Field := ⟨f.reg, .byte (f.part.first + 1)⟩

/-- A half of a register, cleared and then loaded. -/
theorem read_half {d : Data} {x : Field × BitVec 8} (hx : x ∈ loads)
    (hbase : d.read R10 = pruSram) (hclear : d.reg x.1.reg = 0) :
    (Instr.effects (loads.map (Instr.loadByte (L := Label) R10)) d).read x.1 =
      (d.mem (pruSram + x.2.setWidth 32)).setWidth 32 := by
  have hupper : ∀ x ∈ loads, ∀ y ∈ loads, y.1.firstByte.Apart (upper x.1) := by decide
  have hparts : ∀ x ∈ loads, x.1.part.lo = (Part.byte x.1.part.first).lo ∧
      (upper x.1).part.lo = (Part.byte x.1.part.first).lo + (Part.byte x.1.part.first).width ∧
      x.1.part.width = (Part.byte x.1.part.first).width + (upper x.1).part.width := by decide
  have hzero : (Instr.effects (loads.map (Instr.loadByte (L := Label) R10)) d).read
      (upper x.1) = 0 := by
    rw [Instr.read_loads_of_apart (hupper x hx), Data.read, upper, hclear, Part.get_zero]
  obtain ⟨hlo, hr, hw⟩ := hparts x hx
  rw [← Instr.read_loads hbase (by decide) (by decide) hx]
  exact Part.get_of_upper_zero hlo hr hw hzero

/-- **What `setup` leaves in the registers.** -/
theorem does_setup (d : Data) :
    ∃ d', Does program see ⟨.setup, 0, d⟩ [] ⟨.startif, 0, d'⟩ ∧
      Holds (onByte d) (offByte d) (onByte d) (offByte d) d' ∧ d'.read R30 = d.read R30 := by
  have hclear := Does.straight (p := program) (o := see) (l := .setup) (n := 0) (d := d)
    ((text .setup).take 9) rfl rfl (fun k d' _ => by simp [see])
  set d₁ := Instr.effects ((text .setup).take 9) d with hd₁
  have hload := Does.straight (p := program) (o := see) (l := .setup) (n := 9) (d := d₁)
    (loads.map (Instr.loadByte R10)) rfl rfl (fun k d' _ => by simp [see])
  set d₂ := Instr.effects (loads.map (Instr.loadByte R10)) d₁ with hd₂
  have hjump := Does.jump (p := program) (o := see) (l := .setup) (n := 25) (d := d₂) (e := [])
    (i := .qba .startif) rfl rfl rfl (by simp [see])
  have hk₁ : Keeps [R1, R2, R3, R4, R5, R6, R7, R8, R10] d d₁ := Instr.keeps_effects (by decide) d
  have hk₂ : Keeps [R1, R2, R3, R4, R5, R6, R7, R8, R10] d₁ d₂ := Instr.keeps_effects (by decide) d₁
  have hbase : d₁.read R10 = pruSram := by
    simp (disch := decide) [hd₁, text, Data.read_write_of_apart]
  have hzero : ∀ c, d₁.reg (onReg c) = 0 ∧ d₁.reg (offReg c) = 0 := by
    intro c
    fin_cases c <;> simp [hd₁, text, Data.reg_write, onReg, offReg]
  have hmem : d₁.mem = d.mem := hk₁.mem
  refine ⟨d₂, (hclear.trans hload).trans hjump, ?_, (hk₁.trans hk₂).read (by decide)⟩
  have haddr : ∀ c : Fin 4, pruSram + (BitVec.ofNat 8 c).setWidth 32 = addr c := by decide
  have haddr' : ∀ c : Fin 4, pruSram + (BitVec.ofNat 8 (4 + c)).setWidth 32 = addr (4 + c) := by
    decide
  constructor
  · intro c
    have hx : ((onReg c).w2, BitVec.ofNat 8 c) ∈ loads := by revert c; decide
    rw [hd₂, read_half hx hbase (hzero c).1, hmem, haddr]
    rfl
  · intro c
    have hx : ((offReg c).w2, BitVec.ofNat 8 (4 + c)) ∈ loads := by revert c; decide
    rw [hd₂, read_half hx hbase (hzero c).2, hmem, haddr']
    rfl
  · intro c
    have hx : ((onReg c).w0, BitVec.ofNat 8 c) ∈ loads := by revert c; decide
    rw [hd₂, read_half hx hbase (hzero c).1, hmem, haddr]
    rfl
  · intro c
    have hx : ((offReg c).w0, BitVec.ofNat 8 (4 + c)) ∈ loads := by revert c; decide
    rw [hd₂, read_half hx hbase (hzero c).2, hmem, haddr']
    rfl

/-! ## The values that are sent -/

section Userspace

open Rounding

/-- A duty cycle in whole percent: `(int)on_samples`. -/
def percent (dc : ℚ) : ℤ := truncate (binary32.round (100 * dc))

/-- What the user-space program sends: `on_samples` and `off_samples` of each channel. -/
def sent (dc : Fin 4 → ℚ) : List ℤ :=
  (List.finRange 4).flatMap fun i => [percent (dc i), 100 - percent (dc i)]

/-- The core that runs `setup` after PRU1 has stored them. -/
def stored (dc : Fin 4 → ℚ) (d : Data) : Data :=
  { d with mem := storeBytes 0 ((sent dc).map rawMessage) d.mem }

/-- The counters and reload values of each channel are the values entered for it. -/
def ReachesChannels (dc : Fin 4 → ℚ) (d : Data) : Prop :=
  ∃ d', Does program see ⟨.setup, 0, stored dc d⟩ [] ⟨.startif, 0, d'⟩ ∧
    Holds (fun c => .ofInt 32 (percent (dc c))) (fun c => .ofInt 32 (100 - percent (dc c)))
      (fun c => .ofInt 32 (percent (dc c))) (fun c => .ofInt 32 (100 - percent (dc c))) d'

theorem percent_bounds {dc : ℚ} (hpos : 0 < dc) (hlt : dc < 1) :
    0 ≤ percent dc ∧ percent dc ≤ 100 := by
  have hround : 0 ≤ binary32.round (100 * dc) := Format.round_nonneg (by linarith)
  have hround' : binary32.round (100 * dc) ≤ 100 :=
    Format.round_le_of_representable ⟨100, 0, by decide, by decide, by norm_num⟩ (by linarith)
      (by linarith)
  refine ⟨truncate_mono le_rfl hround, ?_⟩
  simpa [percent] using truncate_mono hround hround'

/-- The channels are right exactly if the bytes in their places are. -/
theorem reachesChannels_iff_bytes (dc : Fin 4 → ℚ) (d : Data) :
    ReachesChannels dc d ↔ ∀ c, onByte (stored dc d) c = .ofInt 32 (percent (dc c)) ∧
      offByte (stored dc d) c = .ofInt 32 (100 - percent (dc c)) := by
  obtain ⟨d₁, hdone, hholds, -⟩ := does_setup (stored dc d)
  constructor
  · rintro ⟨d', hdoes, h⟩ c
    have hstate := hdoes.unique_of_seen hdone (by simp [see]) (by simp [see])
    obtain rfl : d' = d₁ := congrArg State.data hstate
    exact ⟨(hholds.on c).symm.trans (h.on c), (hholds.off c).symm.trans (h.off c)⟩
  · intro h
    have hon : onByte (stored dc d) = fun c => .ofInt 32 (percent (dc c)) :=
      funext fun c => (h c).1
    have hoff : offByte (stored dc d) = fun c => .ofInt 32 (100 - percent (dc c)) :=
      funext fun c => (h c).2
    rw [hon, hoff] at hholds
    exact ⟨d₁, hdone, hholds⟩

variable {dc : Fin 4 → ℚ}

theorem sent_bounds (hdc : ∀ c, 0 < dc c ∧ dc c < 1) : ∀ n ∈ sent dc, 0 ≤ n ∧ n < 2 ^ 8 := by
  intro n hn
  simp only [sent, List.mem_flatMap, List.mem_finRange, true_and, List.mem_cons, List.not_mem_nil,
    or_false] at hn
  obtain ⟨c, hn⟩ := hn
  have hb := percent_bounds (hdc c).1 (hdc c).2
  omega

/-- A byte of the shared memory, by its place. -/
theorem stored_addr (hdc : ∀ c, 0 < dc c ∧ dc c < 1) (d : Data) {j : ℕ} (hj : j < 8) :
    ((stored dc d).mem (addr j)).setWidth 32 = .ofInt 32 ((sent dc).getD j 0) := by
  have hlen : j < (sent dc).length := hj
  have hstore := storeBytes_addr (i := 0) (l := (sent dc).map rawMessage) d.mem
    (by rwa [List.length_map]) (by decide : 0 + 8 ≤ 2 ^ 32)
  rw [Nat.zero_add, List.getElem_map] at hstore
  have hmem := sent_bounds hdc _ (List.getElem_mem hlen)
  rw [← List.getElem_eq_getD 0 (h := hlen), ← setWidth_byteLoad hmem.1 hmem.2, ← hstore]
  rfl

/-- The channels are right exactly if the places of their bytes in the list of what is sent
are. -/
theorem reachesChannels_iff_sent (hdc : ∀ c, 0 < dc c ∧ dc c < 1) (d : Data) :
    ReachesChannels dc d ↔ ∀ c : Fin 4, (sent dc).getD c 0 = percent (dc c) ∧
      (sent dc).getD (4 + c) 0 = 100 - percent (dc c) := by
  have hb := fun c => percent_bounds (hdc c).1 (hdc c).2
  have hs : ∀ j < 8, 0 ≤ (sent dc).getD j 0 ∧ (sent dc).getD j 0 < 2 ^ 8 := by
    intro j hj
    have hlen : j < (sent dc).length := hj
    rw [← List.getElem_eq_getD 0 (h := hlen)]
    exact sent_bounds hdc _ (List.getElem_mem hlen)
  rw [reachesChannels_iff_bytes]
  refine forall_congr' fun c => and_congr ?_ ?_
  · have := hb c
    have := hs c (by omega)
    rw [onByte, stored_addr hdc d (by omega), ofInt_inj] <;> omega
  · have := hb c
    have := hs (4 + c) (by omega)
    rw [offByte, stored_addr hdc d (by omega), ofInt_inj] <;> omega

/-- **The channels get what was entered for them** exactly if four of the values that go
to other channels are the same: the values are sent channel by channel, and
loaded as four `on` values and four `off` values. -/
theorem reachesChannels_iff (hdc : ∀ c, 0 < dc c ∧ dc c < 1) (d : Data) :
    ReachesChannels dc d ↔ percent (dc 1) = percent (dc 2) ∧ percent (dc 3) = percent (dc 0) ∧
      percent (dc 0) + percent (dc 1) = 100 := by
  rw [reachesChannels_iff_sent hdc]
  constructor
  · intro h
    have h1 : 100 - percent (dc 0) = percent (dc 1) ∧ _ := h 1
    have h2 : percent (dc 1) = percent (dc 2) ∧ _ := h 2
    have h3 : 100 - percent (dc 1) = percent (dc 3) ∧ _ := h 3
    omega
  · rintro ⟨h12, h30, h01⟩ c
    fin_cases c
    · show percent (dc 0) = percent (dc 0) ∧ percent (dc 2) = 100 - percent (dc 0)
      omega
    · show 100 - percent (dc 0) = percent (dc 1) ∧ 100 - percent (dc 2) = 100 - percent (dc 1)
      omega
    · show percent (dc 1) = percent (dc 2) ∧ percent (dc 3) = 100 - percent (dc 2)
      omega
    · show 100 - percent (dc 1) = percent (dc 3) ∧ 100 - percent (dc 3) = 100 - percent (dc 3)
      omega

/-- A core with nothing in its registers and memory. -/
def blank : Data := ⟨fun _ => 0, fun _ => 0⟩

theorem reachesChannels_iff_half : ReachesChannels (fun _ => 1 / 2) blank ↔
    percent (1 / 2) = percent (1 / 2) ∧ percent (1 / 2) = percent (1 / 2) ∧
      percent (1 / 2) + percent (1 / 2) = 100 :=
  reachesChannels_iff (fun _ => by norm_num) blank

/-- A duty cycle that is a whole percentage. -/
theorem percent_eq {x : ℚ} {n : ℕ} (hx : 100 * x = n) (hn : n < 2 ^ 24) : percent x = n := by
  have hround : binary32.round n = n :=
    Format.round_of_representable ⟨n, 0, hn, by decide, by norm_num⟩
  rw [percent, hx, hround, truncate_natCast]

/-- The duty cycle of the first channel is not that of the others. -/
theorem first_channel_misrouted : ¬ ReachesChannels ![1 / 4, 1 / 2, 1 / 2, 1 / 2] blank := by
  intro h
  rw [reachesChannels_iff_sent (by intro c; fin_cases c <;> norm_num)] at h
  have h1 : 100 - percent (1 / 4) = percent (1 / 2) := (h 1).1
  rw [percent_eq (n := 25) (by norm_num) (by decide),
    percent_eq (n := 50) (by norm_num) (by decide)] at h1
  exact absurd h1 (by decide)

end Userspace

end MultichannelPwm
