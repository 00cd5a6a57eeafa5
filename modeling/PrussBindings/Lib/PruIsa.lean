import Mathlib.Data.List.Basic
import Mathlib.Logic.Function.Basic
import Mathlib.Tactic

/-!
# The instructions of a PRU core

A PRU core has 32 registers of 32 bits, of which an instruction can name a byte
or a half, and a memory of bytes.  This file says what its instructions do, and what
one reads of a register after another part of it was written.

* `Part`, `Field` — the parts of a register; `Part.get` and `Part.put` read and
  write one.
* `Data` — the registers and the memory; `Data.read`, `Data.write`, `Data.load`.
* `Instr` — the instructions; `Instr.effect` is what one does to the data, and
  `Instr.target` where it goes on if it branches.
* `Program` — a listing: the instructions under each label, and the label that
  comes after them; `Program.step` — **one instruction**.
* `Data.read_write_self`, `Data.read_write_of_apart`, `Data.read_write_of_low` — what
  a field is after a write to it, to another one, and to one it is the low part of.
* `Data.load_one`, `Data.load_four`, `Instr.read_loads` — what loads leave.
* `Keeps`, `KeepsApart` — only some registers, or fields, are changed.
-/

namespace PruIsa

/-- A word of a register. -/
abbrev Word := BitVec 32

-- numerals stand for bytes of a register, and for bits and numbers of registers
instance neZeroBytes : NeZero 4 := ⟨by decide⟩
instance neZeroBits : NeZero 32 := ⟨by decide⟩

/-! ## Parts of a register -/

/-- The parts of a register that an instruction can name. -/
inductive Part where
  | all
  | w0
  | w1
  | w2
  | b0
  | b1
  | b2
  | b3
  deriving DecidableEq, Repr

namespace Part

/-- The lowest bit of the part. -/
def lo : Part → Nat
  | all | w0 | b0 => 0
  | w1 | b1 => 8
  | w2 | b2 => 16
  | b3 => 24

/-- The bits of the part. -/
def width : Part → Nat
  | all => 32
  | w0 | w1 | w2 => 16
  | b0 | b1 | b2 | b3 => 8

/-- The lowest byte of the part. -/
@[simp] def first : Part → Fin 4
  | all | w0 | b0 => 0
  | w1 | b1 => 1
  | w2 | b2 => 2
  | b3 => 3

/-- The byte at a place. -/
@[simp] def byte : Fin 4 → Part
  | 0 => b0
  | 1 => b1
  | 2 => b2
  | 3 => b3

theorem lo_all : all.lo = 0 := rfl

theorem lo_b0 : b0.lo = 0 := rfl

theorem lo_add_width_le (p : Part) : p.lo + p.width ≤ 32 := by
  cases p <;> decide

/-- The bits of the part, in place. -/
def mask (p : Part) : Word := (BitVec.allOnes p.width).setWidth 32 <<< p.lo

/-- A read of the part: its bits, with zeros above them. -/
def get (p : Part) (w : Word) : Word := (w.extractLsb' p.lo p.width).setWidth 32

/-- A write of the part: its bits are those of the value, as far as they fit, and the
others stay. -/
def put (p : Part) (w v : Word) : Word := (w &&& ~~~p.mask) ||| ((v <<< p.lo) &&& p.mask)

theorem getLsbD_get (p : Part) (w : Word) (i : Nat) :
    (p.get w).getLsbD i = (decide (i < p.width) && w.getLsbD (p.lo + i)) := by
  have hle := p.lo_add_width_le
  simp only [get, BitVec.getLsbD_setWidth, BitVec.getLsbD_extractLsb']
  by_cases hi : i < p.width
  · simp [hi, show i < 32 by omega]
  · simp [hi]

theorem getLsbD_mask (p : Part) (i : Nat) :
    p.mask.getLsbD i = decide (p.lo ≤ i ∧ i < p.lo + p.width) := by
  have hle := p.lo_add_width_le
  simp only [mask, BitVec.getLsbD_shiftLeft, BitVec.getLsbD_setWidth, BitVec.getLsbD_allOnes]
  by_cases hlo : i < p.lo
  · simp [hlo, show ¬ p.lo ≤ i by omega]
  · by_cases hhi : i < p.lo + p.width
    · simp [hlo, hhi, show i < 32 by omega, show i - p.lo < 32 by omega,
        show i - p.lo < p.width by omega, show p.lo ≤ i by omega]
    · simp [hhi, show ¬ i - p.lo < p.width by omega]

theorem getLsbD_put (p : Part) (w v : Word) (i : Nat) :
    (p.put w v).getLsbD i =
      if p.lo ≤ i ∧ i < p.lo + p.width then v.getLsbD (i - p.lo) else w.getLsbD i := by
  have hle := p.lo_add_width_le
  simp only [put, BitVec.getLsbD_or, BitVec.getLsbD_and, BitVec.getLsbD_not, getLsbD_mask,
    BitVec.getLsbD_shiftLeft]
  split
  · rename_i hin
    simp [hin, show i < 32 by omega, show ¬ i < p.lo by omega]
  · rename_i hout
    by_cases hi : i < 32
    · simp [hout, hi]
    · simp [hout, BitVec.getLsbD_of_ge w i (by omega)]

/-- The value of a part. -/
theorem toNat_get (p : Part) (w : Word) : (p.get w).toNat = w.toNat / 2 ^ p.lo % 2 ^ p.width := by
  have hle := p.lo_add_width_le
  have hpow : 2 ^ p.width ≤ 2 ^ 32 := Nat.pow_le_pow_right (by decide) (by omega)
  have hlt := Nat.mod_lt (w.toNat / 2 ^ p.lo) (Nat.two_pow_pos p.width)
  rw [get, BitVec.toNat_setWidth, BitVec.extractLsb'_toNat, Nat.shiftRight_eq_div_pow]
  exact Nat.mod_eq_of_lt (by omega)

theorem toNat_get_lt (p : Part) (w : Word) : (p.get w).toNat < 2 ^ p.width := by
  rw [toNat_get]
  exact Nat.mod_lt _ (Nat.two_pow_pos _)

@[simp] theorem get_all (w : Word) : all.get w = w := by
  apply BitVec.eq_of_toNat_eq
  have hlt := w.isLt
  rw [toNat_get]
  simp only [lo, width]
  omega

@[simp] theorem get_zero (p : Part) : p.get 0 = 0 := by
  cases p <;> rfl

@[simp] theorem put_all (w v : Word) : all.put w v = v := by
  apply BitVec.eq_of_getLsbD_eq
  intro i hi
  rw [getLsbD_put, if_pos ⟨Nat.zero_le i, by simpa [lo, width] using hi⟩]
  rfl

/-- The second of two writes of one part is what stays. -/
@[simp] theorem put_put (p : Part) (w u v : Word) : p.put (p.put w u) v = p.put w v := by
  apply BitVec.eq_of_getLsbD_eq
  intro i hi
  simp only [getLsbD_put]
  split <;> rfl

/-- A part that is written with what it is. -/
@[simp] theorem put_get (p : Part) (w : Word) : p.put w (p.get w) = w := by
  apply BitVec.eq_of_getLsbD_eq
  intro i hi
  rw [getLsbD_put]
  split
  · rename_i hin
    rw [getLsbD_get, Nat.add_sub_cancel' hin.1]
    simp [show i - p.lo < p.width by omega]
  · rfl

/-- What is read of a part that was written: the value, as far as it fits. -/
theorem get_put_self (p : Part) (w v : Word) :
    p.get (p.put w v) = (v.setWidth p.width).setWidth 32 := by
  apply BitVec.eq_of_getLsbD_eq
  intro i hi
  simp only [getLsbD_get, getLsbD_put, BitVec.getLsbD_setWidth]
  by_cases hw : i < p.width
  · simp [hw, hi]
  · simp [hw]

/-- A part none of whose bits was written. -/
theorem get_put_of_apart {p q : Part} (h : p.lo + p.width ≤ q.lo ∨ q.lo + q.width ≤ p.lo)
    (w v : Word) : q.get (p.put w v) = q.get w := by
  apply BitVec.eq_of_getLsbD_eq
  intro i hi
  simp only [getLsbD_get, getLsbD_put]
  by_cases hw : i < q.width
  · rw [if_neg (by omega)]
  · simp [hw]

/-- The low part of what was written. -/
theorem get_put_of_low {p q : Part} (hlo : q.lo = p.lo) (hw : q.width ≤ p.width) (w v : Word) :
    q.get (p.put w v) = (v.setWidth q.width).setWidth 32 := by
  apply BitVec.eq_of_getLsbD_eq
  intro i hi
  simp only [getLsbD_get, getLsbD_put, BitVec.getLsbD_setWidth]
  by_cases hiw : i < q.width
  · rw [if_pos (by omega), hlo, Nat.add_sub_cancel_left]
    simp [hiw, hi]
  · simp [hiw]

/-- A part of which the upper bits are zero. -/
theorem get_of_upper_zero {p q r : Part} (hlo : q.lo = p.lo) (hr : r.lo = p.lo + p.width)
    (hw : q.width = p.width + r.width) {w : Word} (hzero : r.get w = 0) : q.get w = p.get w := by
  apply BitVec.eq_of_getLsbD_eq
  intro i hi
  have hupper : (r.get w).getLsbD (i - p.width) = false := by simp [hzero]
  rw [getLsbD_get] at hupper
  rw [getLsbD_get, getLsbD_get, hlo]
  by_cases hp : i < p.width
  · simp [hp, show i < q.width by omega]
  · by_cases hq : i < q.width
    · rw [hr, show p.lo + p.width + (i - p.width) = p.lo + i by omega] at hupper
      simpa [hp, hq, show i - p.width < r.width by omega] using hupper
    · simp [hp, hq]

theorem width_byte (k : Fin 4) : (byte k).width = 8 := by
  fin_cases k <;> rfl

end Part

/-! ## Registers and memory -/

/-- The number of a register. -/
abbrev Reg := Fin 32

abbrev R0 : Reg := 0
abbrev R1 : Reg := 1
abbrev R2 : Reg := 2
abbrev R3 : Reg := 3
abbrev R4 : Reg := 4
abbrev R5 : Reg := 5
abbrev R6 : Reg := 6
abbrev R7 : Reg := 7
abbrev R8 : Reg := 8
abbrev R9 : Reg := 9
abbrev R10 : Reg := 10
abbrev R11 : Reg := 11
abbrev R12 : Reg := 12
abbrev R13 : Reg := 13
abbrev R14 : Reg := 14
abbrev R15 : Reg := 15
abbrev R16 : Reg := 16
abbrev R17 : Reg := 17

/-- The pins. -/
abbrev R30 : Reg := 30

/-- A register, or a part of one. -/
structure Field where
  reg : Reg
  part : Part
  deriving DecidableEq, Repr

instance : Coe Reg Field := ⟨fun r => ⟨r, .all⟩⟩

namespace Reg

def w0 (r : Reg) : Field := ⟨r, .w0⟩
def w2 (r : Reg) : Field := ⟨r, .w2⟩
def b0 (r : Reg) : Field := ⟨r, .b0⟩
def b1 (r : Reg) : Field := ⟨r, .b1⟩
def b2 (r : Reg) : Field := ⟨r, .b2⟩
def b3 (r : Reg) : Field := ⟨r, .b3⟩

end Reg

/-- The lowest byte of a field. -/
def Field.firstByte (f : Field) : Field := ⟨f.reg, .byte f.part.first⟩

/-- Fields that have no bit in common. -/
def Field.Apart (f g : Field) : Prop :=
  f.reg ≠ g.reg ∨ f.part.lo + f.part.width ≤ g.part.lo ∨ g.part.lo + g.part.width ≤ f.part.lo

instance (f g : Field) : Decidable (f.Apart g) :=
  inferInstanceAs (Decidable (_ ∨ _ ∨ _))

theorem Field.Apart.symm {f g : Field} (h : f.Apart g) : g.Apart f :=
  h.imp Ne.symm Or.symm

/-- What the instructions work on. -/
structure Data where
  reg : Reg → Word
  mem : Word → BitVec 8

namespace Data

/-- A read of a field. -/
def read (d : Data) (f : Field) : Word := f.part.get (d.reg f.reg)

/-- A write of a field. -/
def write (d : Data) (f : Field) (v : Word) : Data :=
  { d with reg := Function.update d.reg f.reg (f.part.put (d.reg f.reg) v) }

/-- A load of bytes: the first goes into a byte of a register, the others into the
bytes that follow, on into the next register. -/
def load (d : Data) (r : Reg) (k : Fin 4) (a : Word) : Nat → Data
  | 0 => d
  | n + 1 =>
    (d.write ⟨r, .byte k⟩ ((d.mem a).setWidth 32)).load (if k = 3 then r + 1 else r) (k + 1)
      (a + 1) n

/-- The four bytes at an address, the least significant first. -/
def word (d : Data) (a : Word) : Word :=
  d.mem (a + 3) ++ (d.mem (a + 2) ++ (d.mem (a + 1) ++ d.mem a))

variable (d : Data) {f g : Field} (u v : Word)

theorem reg_write (r : Reg) :
    (d.write f v).reg r = if r = f.reg then f.part.put (d.reg r) v else d.reg r := by
  by_cases h : r = f.reg
  · simp [write, h]
  · simp [write, h]

@[simp] theorem mem_write : (d.write f v).mem = d.mem := rfl

@[simp] theorem word_write (a : Word) : (d.write f v).word a = d.word a := rfl

@[simp] theorem write_write : (d.write f u).write f v = d.write f v := by
  simp [write]

@[simp] theorem write_read (f : Field) : d.write f (d.read f) = d := by
  simp [write, read]

theorem toNat_read_lt (f : Field) : (d.read f).toNat < 2 ^ f.part.width :=
  f.part.toNat_get_lt _

theorem read_write_self :
    (d.write f v).read f = (v.setWidth f.part.width).setWidth 32 := by
  rw [read, write]
  simp only [Function.update_self]
  exact f.part.get_put_self _ _

/-- A field into which a number was written that fits it. -/
theorem toNat_read_write (hv : v.toNat < 2 ^ f.part.width) :
    ((d.write f v).read f).toNat = v.toNat := by
  rw [read_write_self, BitVec.toNat_setWidth, BitVec.toNat_setWidth, Nat.mod_eq_of_lt hv,
    Nat.mod_eq_of_lt v.isLt]

/-- A byte into which a byte was written. -/
theorem read_write_byte {k : Fin 4} (hf : f.part = .byte k) (b : BitVec 8) :
    (d.write f (b.setWidth 32)).read f = b.setWidth 32 := by
  have hback : (b.setWidth 32).setWidth 8 = b := by
    rw [BitVec.setWidth_setWidth_of_le _ (by decide), BitVec.setWidth_eq]
  rw [read_write_self, hf, Part.width_byte, hback]

@[simp] theorem read_write_reg (r : Reg) : (d.write r v).read r = v := by
  simp [read, write]

theorem read_write_of_apart (h : f.Apart g) : (d.write f v).read g = d.read g := by
  unfold read write
  by_cases hreg : g.reg = f.reg
  · have hbits := h.resolve_left fun hne => hne hreg.symm
    simp only [hreg, Function.update_self]
    exact Part.get_put_of_apart hbits _ _
  · simp only [Function.update_of_ne hreg]

/-- A part, with the same lowest bit, of the field that was written. -/
theorem read_write_of_low (hreg : g.reg = f.reg) (hlo : g.part.lo = f.part.lo)
    (hw : g.part.width ≤ f.part.width) :
    (d.write f v).read g = (v.setWidth g.part.width).setWidth 32 := by
  simp only [read, write, hreg, Function.update_self]
  exact Part.get_put_of_low hlo hw _ _

@[simp] theorem load_one (r : Reg) (k : Fin 4) (a : Word) :
    d.load r k a 1 = d.write ⟨r, .byte k⟩ ((d.mem a).setWidth 32) := rfl

/-- A load of four bytes into a register is a write of the word. -/
@[simp] theorem load_four (r : Reg) (a : Word) : d.load r 0 a 4 = d.write r (d.word a) := by
  have hput : ∀ w, Part.b3.put (Part.b2.put (Part.b1.put (Part.b0.put w
      ((d.mem a).setWidth 32)) ((d.mem (a + 1)).setWidth 32)) ((d.mem (a + 1 + 1)).setWidth 32))
      ((d.mem (a + 1 + 1 + 1)).setWidth 32) = d.word a := by
    intro w
    have h2 : a + 1 + 1 = a + 2 := by rw [BitVec.add_assoc]; rfl
    have h3 : a + 1 + 1 + 1 = a + 3 := by rw [h2, BitVec.add_assoc]; rfl
    rw [h3, h2]
    apply BitVec.eq_of_getLsbD_eq
    intro i hi
    simp only [Part.getLsbD_put, word, Part.lo, Part.width, BitVec.getLsbD_append,
      BitVec.getLsbD_setWidth]
    -- by the byte in which the bit lies
    rcases (by omega : i < 8 ∨ 8 ≤ i ∧ i < 16 ∨ 16 ≤ i ∧ i < 24 ∨ 24 ≤ i) with h | h | h | h
    · simp [h, hi, show i < 16 by omega, show i < 24 by omega, show ¬ 8 ≤ i by omega,
        show ¬ 16 ≤ i by omega, show ¬ 24 ≤ i by omega]
    · simp [h, show i < 24 by omega, show ¬ i < 8 by omega, show ¬ 16 ≤ i by omega,
        show ¬ 24 ≤ i by omega, show i - 8 < 8 by omega, show i - 8 < 32 by omega]
    · simp [h, show ¬ i < 16 by omega, show ¬ 24 ≤ i by omega, show i - 16 < 32 by omega]
    · simp [h, hi, show ¬ i < 24 by omega, show i - 24 < 32 by omega]
  have hload : d.load r 0 a 4 = (((d.write ⟨r, .b0⟩ ((d.mem a).setWidth 32)).write ⟨r, .b1⟩
      ((d.mem (a + 1)).setWidth 32)).write ⟨r, .b2⟩ ((d.mem (a + 1 + 1)).setWidth 32)).write
      ⟨r, .b3⟩ ((d.mem (a + 1 + 1 + 1)).setWidth 32) := rfl
  rw [hload]
  simp only [write, Function.update_self, Function.update_idem, Part.put_all, hput]

end Data

/-- Only registers of the list differ. -/
structure Keeps (rs : List Reg) (d d' : Data) : Prop where
  reg : ∀ g, g ∉ rs → d'.reg g = d.reg g
  mem : d'.mem = d.mem

namespace Keeps

variable {rs rs' : List Reg} {d d' d'' : Data}

theorem refl (rs : List Reg) (d : Data) : Keeps rs d d := ⟨fun _ _ => rfl, rfl⟩

theorem trans (h : Keeps rs d d') (h' : Keeps rs d' d'') : Keeps rs d d'' :=
  ⟨fun g hg => (h'.reg g hg).trans (h.reg g hg), h'.mem.trans h.mem⟩

theorem mono (h : Keeps rs d d') (hsub : ∀ g ∈ rs, g ∈ rs') : Keeps rs' d d' :=
  ⟨fun g hg => h.reg g fun hmem => hg (hsub g hmem), h.mem⟩

theorem write {f : Field} (hf : f.reg ∈ rs) (d : Data) (v : Word) : Keeps rs d (d.write f v) :=
  ⟨fun g hg => Function.update_of_ne (fun h : g = f.reg => hg (h ▸ hf)) _ _, rfl⟩

theorem read (h : Keeps rs d d') {f : Field} (hf : f.reg ∉ rs) : d'.read f = d.read f := by
  rw [Data.read, Data.read, h.reg f.reg hf]

end Keeps

/-- Only fields of the list differ. -/
structure KeepsApart (fs : List Field) (d d' : Data) : Prop where
  read : ∀ g, (∀ f ∈ fs, f.Apart g) → d'.read g = d.read g
  mem : d'.mem = d.mem

namespace KeepsApart

variable {fs : List Field} {d d' d'' : Data}

theorem refl (fs : List Field) (d : Data) : KeepsApart fs d d := ⟨fun _ _ => rfl, rfl⟩

theorem trans (h : KeepsApart fs d d') (h' : KeepsApart fs d' d'') : KeepsApart fs d d'' :=
  ⟨fun g hg => (h'.read g hg).trans (h.read g hg), h'.mem.trans h.mem⟩

theorem write {f : Field} (hf : f ∈ fs) (d : Data) (v : Word) : KeepsApart fs d (d.write f v) :=
  ⟨fun _ hg => d.read_write_of_apart v (hg f hf), rfl⟩

/-- The registers of the fields. -/
theorem keeps {rs : List Reg} (h : KeepsApart fs d d') (hsub : ∀ f ∈ fs, f.reg ∈ rs) :
    Keeps rs d d' := by
  refine ⟨fun g hg => ?_, h.mem⟩
  have hread := h.read ⟨g, .all⟩ fun f hf => .inl fun heq : f.reg = g => hg (heq ▸ hsub f hf)
  rwa [Data.read, Data.read, Part.get_all, Part.get_all] at hread

/-- A part of a register of which no part is in the list. -/
theorem read_of_reg (h : KeepsApart fs d d') {g : Field} (hg : ∀ f ∈ fs, f.reg ≠ g.reg) :
    d'.read g = d.read g :=
  h.read g fun f hf => .inl (hg f hf)

end KeepsApart

/-! ## Instructions -/

/-- A last operand: a number that fits a byte, or a field. -/
inductive Op where
  | imm (n : BitVec 8)
  | field (f : Field)
  deriving DecidableEq, Repr

instance : Coe Field Op := ⟨.field⟩

/-- The value of an operand. -/
@[simp] def Op.val (d : Data) : Op → Word
  | .imm n => n.setWidth 32
  | .field f => d.read f

/-- The instructions, with the labels of the listing they are in. -/
inductive Instr (L : Type) where
  | add (dst src : Field) (b : Op)
  | sub (dst src : Field) (b : Op)
  | mov (dst src : Field)
  | ldi (dst : Field) (n : BitVec 16)
  | ldi32 (dst : Reg) (n : Word)
  | set (dst src : Field) (bit : Fin 32)
  | clr (dst src : Field) (bit : Fin 32)
  | lbbo (dst : Field) (base : Field) (offset : Op) (n : Nat)
  | qba (l : L)
  | qbeq (l : L) (a : Field) (b : Op)
  | qbne (l : L) (a : Field) (b : Op)
  | qblt (l : L) (a : Field) (b : Op)
  | qbgt (l : L) (a : Field) (b : Op)
  | jmp (a : Field)
  | nop
  | halt
  deriving DecidableEq, Repr

namespace Instr

variable {L : Type}

/-- What an instruction does to the registers. -/
@[simp] def effect (d : Data) : Instr L → Data
  | add dst src b => d.write dst (d.read src + b.val d)
  | sub dst src b => d.write dst (d.read src - b.val d)
  | mov dst src => d.write dst (d.read src)
  | ldi dst n => d.write dst (n.setWidth 32)
  | ldi32 dst n => d.write dst n
  | set dst src bit => d.write dst (d.read src ||| (1 : Word) <<< bit.val)
  | clr dst src bit => d.write dst (d.read src &&& ~~~((1 : Word) <<< bit.val))
  | lbbo dst base offset n =>
    d.load dst.reg dst.part.first (d.read base + offset.val d) n
  | _ => d

/-- Where a branch that is taken goes.  `QBLT` and `QBGT` compare the last operand
with the field, not the field with it. -/
def target (d : Data) : Instr L → Option L
  | qba l => some l
  | qbeq l a b => if d.read a = b.val d then some l else none
  | qbne l a b => if d.read a ≠ b.val d then some l else none
  | qblt l a b => if b.val d < d.read a then some l else none
  | qbgt l a b => if b.val d > d.read a then some l else none
  | _ => none

/-- The label that a branch names. -/
def label : Instr L → Option L
  | qba l | qbeq l _ _ | qbne l _ _ | qblt l _ _ | qbgt l _ _ => some l
  | _ => none

theorem label_of_target {i : Instr L} {l : L} {d : Data} (h : i.target d = some l) :
    i.label = some l := by
  cases i with
  | qba => exact h
  | qbeq | qbne | qblt | qbgt =>
    simp only [target, Option.ite_none_right_eq_some] at h
    exact h.2
  | _ => simp [target] at h

theorem target_qblt_imm {l : L} {f : Field} {n : BitVec 8} {d : Data} :
    (qblt l f (.imm n)).target d = none ↔ (d.read f).toNat ≤ n.toNat := by
  have hn : n.toNat % 4294967296 = n.toNat := Nat.mod_eq_of_lt (by omega)
  simp [target, BitVec.lt_def, hn]

theorem target_qbgt_imm {l : L} {f : Field} {n : BitVec 8} {d : Data} :
    (qbgt l f (.imm n)).target d = none ↔ n.toNat ≤ (d.read f).toNat := by
  have hn : n.toNat % 4294967296 = n.toNat := Nat.mod_eq_of_lt (by omega)
  simp [target, BitVec.lt_def, hn]

/-- The instructions that are always followed by the next one. -/
def plain : Instr L → Bool
  | add .. | sub .. | mov .. | ldi .. | ldi32 .. | set .. | clr .. | lbbo .. | nop => true
  | _ => false

/-- The instructions after which the listing is not gone on with: `HALT`, and a jump
to an address in a register. -/
def leaves : Instr L → Bool
  | jmp _ | halt => true
  | _ => false

theorem leaves_of_plain {i : Instr L} (h : i.plain = true) : i.leaves = false := by
  cases i <;> first | rfl | simp [plain] at h

theorem target_of_plain {i : Instr L} (h : i.plain = true) (d : Data) : i.target d = none := by
  cases i <;> first | rfl | simp [plain] at h

/-- The registers a load of `n` bytes goes into. -/
def loaded (r : Reg) (k : Fin 4) : Nat → List Reg
  | 0 => []
  | n + 1 => r :: loaded (if k = 3 then r + 1 else r) (k + 1) n

/-- The registers an instruction writes. -/
def writes : Instr L → List Reg
  | add dst .. | sub dst .. | mov dst _ | ldi dst _ | set dst .. | clr dst .. => [dst.reg]
  | ldi32 dst _ => [dst]
  | lbbo dst _ _ n => loaded dst.reg dst.part.first n
  | _ => []

theorem keeps_load (d : Data) (r : Reg) (k : Fin 4) (a : Word) (n : Nat) :
    Keeps (loaded r k n) d (d.load r k a n) := by
  induction n generalizing d r k a with
  | zero => exact .refl _ d
  | succ n ih =>
    have hfirst : Keeps (loaded r k (n + 1)) d (d.write ⟨r, .byte k⟩ ((d.mem a).setWidth 32)) :=
      .write (by simp [loaded]) d _
    exact hfirst.trans ((ih _ _ _ _).mono fun g hg => List.mem_cons_of_mem _ hg)

theorem keeps_effect (i : Instr L) (d : Data) : Keeps i.writes d (i.effect d) := by
  cases i with
  | lbbo dst base offset n => exact keeps_load d _ _ _ n
  | ldi32 dst n => exact .write (f := ⟨dst, .all⟩) (List.mem_cons_self ..) d n
  | add | sub | mov | ldi | set | clr => exact .write (List.mem_cons_self ..) d _
  | _ => exact .refl _ d

/-- What a list of instructions without branches does. -/
def effects (is : List (Instr L)) (d : Data) : Data := is.foldl (fun d i => i.effect d) d

@[simp] theorem effects_nil (d : Data) : effects ([] : List (Instr L)) d = d := rfl

@[simp] theorem effects_cons (i : Instr L) (is : List (Instr L)) (d : Data) :
    effects (i :: is) d = effects is (i.effect d) := rfl

theorem keeps_effects {rs : List Reg} {is : List (Instr L)} (h : ∀ i ∈ is, ∀ g ∈ i.writes, g ∈ rs)
    (d : Data) : Keeps rs d (effects is d) := by
  induction is generalizing d with
  | nil => exact .refl rs d
  | cons i is ih =>
    have hfirst := (keeps_effect i d).mono (h i (List.mem_cons_self ..))
    exact hfirst.trans (ih (fun j hj => h j (List.mem_cons_of_mem _ hj)) _)

/-! ### Loads of bytes -/

/-- A load of a byte, from a place relative to the base, into a field. -/
def loadByte (base : Reg) (x : Field × BitVec 8) : Instr L := .lbbo x.1 base (.imm x.2) 1

theorem effect_loadByte (base : Reg) (x : Field × BitVec 8) (d : Data) :
    effect d (loadByte (L := L) base x) =
      d.write x.1.firstByte ((d.mem (d.read base + x.2.setWidth 32)).setWidth 32) := rfl

variable {base : Reg} {a : Word} {ls : List (Field × BitVec 8)} {d : Data}

/-- A field into which none of them loads. -/
theorem read_loads_of_apart {g : Field} (h : ∀ x ∈ ls, x.1.firstByte.Apart g) :
    (effects (ls.map (loadByte (L := L) base)) d).read g = d.read g := by
  induction ls generalizing d with
  | nil => rfl
  | cons x ls ih =>
    rw [List.map_cons, effects_cons, ih fun y hy => h y (List.mem_cons_of_mem _ hy),
      effect_loadByte]
    exact d.read_write_of_apart _ (h x (List.mem_cons_self ..))

/-- A byte into which one of them loads. -/
theorem read_loads (hbase : d.read base = a) (hne : ∀ x ∈ ls, x.1.firstByte.Apart base)
    (hpair : ls.Pairwise fun x y => y.1.firstByte.Apart x.1.firstByte) {x : Field × BitVec 8}
    (hx : x ∈ ls) :
    (effects (ls.map (loadByte (L := L) base)) d).read x.1.firstByte =
      (d.mem (a + x.2.setWidth 32)).setWidth 32 := by
  induction ls generalizing d with
  | nil => simp at hx
  | cons y ls ih =>
    rw [List.pairwise_cons] at hpair
    rw [List.map_cons, effects_cons, effect_loadByte]
    rcases List.mem_cons.1 hx with rfl | hx
    · rw [read_loads_of_apart hpair.1, hbase]
      exact d.read_write_byte rfl _
    · refine ih ?_ (fun z hz => hne z (List.mem_cons_of_mem _ hz)) hpair.2 hx
      rw [d.read_write_of_apart _ (hne y (List.mem_cons_self ..)), hbase]

end Instr

/-! ## Listings -/

/-- A listing: the instructions under each label, and the label after them. -/
structure Program (L : Type) where
  text : L → List (Instr L)
  next : L → Option L

/-- Where a core is: at an instruction under a label. -/
structure State (L : Type) where
  label : L
  index : Nat
  data : Data

namespace Program

variable {L : Type} (p : Program L)

/-- The instruction the core is at, if it is not at the end of the block. -/
def fetch (s : State L) : Option (Instr L) := (p.text s.label)[s.index]?

/-- One instruction; the end of a block is the beginning of the next. -/
def step (s : State L) : Option (State L) :=
  match p.fetch s with
  | none => (p.next s.label).map fun l => ⟨l, 0, s.data⟩
  | some i =>
    if i.leaves then none
    else match i.target s.data with
      | some l => some ⟨l, 0, s.data⟩
      | none => some ⟨s.label, s.index + 1, i.effect s.data⟩

variable {p} {l l' : L} {n : Nat} {d : Data} {i : Instr L}

theorem step_taken (hfetch : (p.text l)[n]? = some i) (hstay : i.leaves = false)
    (h : i.target d = some l') : p.step ⟨l, n, d⟩ = some ⟨l', 0, d⟩ := by
  simp [step, fetch, hfetch, hstay, h]

theorem step_end (hend : (p.text l)[n]? = none) (hnext : p.next l = some l') :
    p.step ⟨l, n, d⟩ = some ⟨l', 0, d⟩ := by
  simp [step, fetch, hend, hnext]

theorem step_next (hfetch : (p.text l)[n]? = some i) (hstay : i.leaves = false)
    (h : i.target d = none) : p.step ⟨l, n, d⟩ = some ⟨l, n + 1, i.effect d⟩ := by
  simp [step, fetch, hfetch, hstay, h]

end Program

end PruIsa
