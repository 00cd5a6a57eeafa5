import Mathlib.Tactic

/-!
# Vrings

`examples/include/pru_virtio_ring.h`: the ARM and a PRU pass buffers to each other in
shared memory, through a table of descriptors and two rings, one of which is written by
the ARM alone and the other by the PRU alone.

* `FwRscVdevVring`, `Vring`, `Vring.init`, `vringSize` — where the parts of a vring lie.
* `Place`, `Place.addr`, `Place.size` — the fields of the structures in shared memory.
* `Vring.init_layout` — **the parts of a vring lie one after the other**, the used ring
  at a multiple of the alignment, and all of it in `vringSize` bytes.
-/

namespace Rpmsg

/-- An address, and a `uint32_t`. -/
abbrev Word := BitVec 32

/-- `struct fw_rsc_vdev_vring`, as the ARM has filled it in. -/
structure FwRscVdevVring where
  da : Word
  align : Word
  num : Word
  notifyid : Word
  deriving DecidableEq, Repr

/-- `struct vring`, with the addresses of its parts. -/
structure Vring where
  num : ℕ
  desc : ℕ
  avail : ℕ
  used : ℕ
  deriving DecidableEq, Repr

/-- `x & ~(align - 1)`. -/
def alignDown (x align : BitVec 64) : BitVec 64 := x &&& ~~~(align - 1)

/-- `vring_init`: a descriptor has 16 bytes; the available ring has two fields of two
bytes, and entries of two bytes, of which the one at `num` is the used event. -/
def Vring.init (num p : Word) (align : BitVec 64) : Vring :=
  let avail := p + num * 16
  let ring := avail + 4 + num * 2
  { num := num.toNat
    desc := p.toNat
    avail := avail.toNat
    used := ((alignDown ((ring + 2).setWidth 64 + align - 1) align).setWidth 32).toNat }

/-- `vring_size`. -/
def vringSize (num : BitVec 16) (align : BitVec 64) : Word :=
  (alignDown ((16 * num.setWidth 32 + 2 * (3 + num.setWidth 32) : Word).setWidth 64 + align - 1)
    align).setWidth 32 + (2 * 3 + 8 * num.setWidth 32)

/-! ## The structures in shared memory -/

/-- A field of a structure in shared memory, under the pointer to the structure. -/
inductive Place where
  /-- `desc[i].addr`; the index has a sign. -/
  | descAddr (desc : ℕ) (i : ℤ)
  | descLen (desc : ℕ) (i : ℤ)
  | availFlags (avail : ℕ)
  | availIdx (avail : ℕ)
  | availRing (avail i : ℕ)
  | usedIdx (used : ℕ)
  | usedId (used i : ℕ)
  | usedLen (used i : ℕ)
  | msgSrc (msg : ℕ)
  | msgDst (msg : ℕ)
  | msgReserved (msg : ℕ)
  | msgLen (msg : ℕ)
  | msgFlags (msg : ℕ)
  | msgData (msg i : ℕ)
  /-- `resourceTable.rpmsg_vdev.status`. -/
  | status
  deriving DecidableEq, Repr

/-- How many bytes a field has. -/
def Place.size : Place → ℕ
  | .descAddr _ _ => 8
  | .descLen _ _ | .usedId _ _ | .usedLen _ _ => 4
  | .availFlags _ | .availIdx _ | .availRing _ _ | .usedIdx _ => 2
  | .msgSrc _ | .msgDst _ | .msgReserved _ => 4
  | .msgLen _ | .msgFlags _ => 2
  | .msgData _ _ | .status => 1

/-- Where a field lies, if the resource table has its status byte at `rsc`. -/
def Place.addr (rsc : ℕ) : Place → ℕ
  | .descAddr d i => ((d + 16 * i) % 2 ^ 32).toNat
  | .descLen d i => ((d + 16 * i + 8) % 2 ^ 32).toNat
  | .availFlags a => a
  | .availIdx a => a + 2
  | .availRing a i => a + 4 + 2 * i
  | .usedIdx u => u + 2
  | .usedId u i => u + 4 + 8 * i
  | .usedLen u i => u + 8 + 8 * i
  | .msgSrc m => m
  | .msgDst m => m + 4
  | .msgReserved m => m + 8
  | .msgLen m => m + 12
  | .msgFlags m => m + 14
  | .msgData m i => m + 16 + i
  | .status => rsc

/-! ## The layout of a vring -/

/-- Without its low bits, a number is the next multiple below it. -/
theorem toNat_alignDown {x align : BitVec 64} {k : ℕ} (halign : align.toNat = 2 ^ k) :
    (alignDown x align).toNat = x.toNat / 2 ^ k * 2 ^ k := by
  have hmask : (align - 1).toNat = 2 ^ k - 1 := by
    have hpos := Nat.two_pow_pos k
    have hlt := align.isLt
    rw [BitVec.toNat_sub, show (1 : BitVec 64).toNat = 1 from rfl, halign]
    omega
  refine Nat.eq_of_testBit_eq fun i => ?_
  rw [alignDown, BitVec.toNat_and, Nat.testBit_and, BitVec.testBit_toNat, BitVec.testBit_toNat,
    BitVec.getLsbD_not, ← BitVec.testBit_toNat (align - 1), hmask, Nat.testBit_two_pow_sub_one,
    Nat.testBit_mul_two_pow, Nat.testBit_div_two_pow, BitVec.testBit_toNat]
  by_cases hi : k ≤ i
  · rw [Nat.sub_add_cancel hi]
    by_cases h64 : i < 64
    · simp [hi, h64, Nat.not_lt.2 hi]
    · simp [BitVec.getLsbD_of_ge x i (by omega)]
  · simp [hi, Nat.not_le.1 hi]

/-- What is added before the low bits are cleared makes it the next multiple above. -/
theorem toNat_alignUp {x align : BitVec 64} {k : ℕ} (halign : align.toNat = 2 ^ k)
    (hfit : x.toNat + align.toNat ≤ 2 ^ 32) :
    (alignDown (x + align - 1) align).toNat = (x.toNat + 2 ^ k - 1) / 2 ^ k * 2 ^ k := by
  have hpos := Nat.two_pow_pos k
  have hsum : (x + align - 1).toNat = x.toNat + 2 ^ k - 1 := by
    rw [BitVec.toNat_sub, BitVec.toNat_add, show (1 : BitVec 64).toNat = 1 from rfl]
    omega
  rw [toNat_alignDown halign, hsum]

theorem le_roundUp (x : ℕ) {a : ℕ} (ha : 0 < a) :
    x ≤ (x + a - 1) / a * a ∧ (x + a - 1) / a * a < x + a := by
  have hdiv := Nat.div_add_mod (x + a - 1) a
  have hmod := Nat.mod_lt (x + a - 1) ha
  rw [Nat.mul_comm] at hdiv
  omega

section Layout

variable {num : BitVec 16} {p : Word} {align : BitVec 64} {k : ℕ}

theorem toNat_num (num : BitVec 16) : (num.setWidth 32 : Word).toNat = num.toNat := by
  rw [BitVec.toNat_setWidth]
  omega

theorem init_avail (hfit : p.toNat + 26 * num.toNat + 12 + align.toNat ≤ 2 ^ 32) :
    (Vring.init (num.setWidth 32) p align).avail = p.toNat + 16 * num.toNat := by
  change (p + num.setWidth 32 * 16).toNat = _
  rw [BitVec.toNat_add, BitVec.toNat_mul, toNat_num, show (16 : Word).toNat = 16 from rfl]
  omega

theorem init_used (halign : align.toNat = 2 ^ k)
    (hfit : p.toNat + 26 * num.toNat + 12 + align.toNat ≤ 2 ^ 32) :
    (Vring.init (num.setWidth 32) p align).used =
      (p.toNat + 18 * num.toNat + 6 + 2 ^ k - 1) / 2 ^ k * 2 ^ k := by
  have havail : (p + num.setWidth 32 * 16).toNat = p.toNat + 16 * num.toNat := init_avail hfit
  have hentries : (num.setWidth 32 * 2 : Word).toNat = 2 * num.toNat := by
    rw [BitVec.toNat_mul, toNat_num, show (2 : Word).toNat = 2 from rfl]
    omega
  have hring : ((p + num.setWidth 32 * 16 + 4 + num.setWidth 32 * 2 + 2).setWidth 64).toNat =
      p.toNat + 18 * num.toNat + 6 := by
    rw [BitVec.toNat_setWidth, BitVec.toNat_add, BitVec.toNat_add, BitVec.toNat_add, havail,
      hentries, show (4 : Word).toNat = 4 from rfl, show (2 : Word).toNat = 2 from rfl]
    omega
  have hup := le_roundUp (p.toNat + 18 * num.toNat + 6) (Nat.two_pow_pos k)
  change ((alignDown ((p + num.setWidth 32 * 16 + 4 + num.setWidth 32 * 2 + 2).setWidth 64 +
    align - 1) align).setWidth 32).toNat = _
  rw [BitVec.toNat_setWidth, toNat_alignUp halign (by omega), hring]
  exact Nat.mod_eq_of_lt (by omega)

theorem toNat_vringSize (halign : align.toNat = 2 ^ k)
    (hfit : 26 * num.toNat + 12 + align.toNat ≤ 2 ^ 32) :
    (vringSize num align).toNat =
      (18 * num.toNat + 6 + 2 ^ k - 1) / 2 ^ k * 2 ^ k + 6 + 8 * num.toNat := by
  have hdescs : (16 * num.setWidth 32 : Word).toNat = 16 * num.toNat := by
    rw [BitVec.toNat_mul, toNat_num, show (16 : Word).toNat = 16 from rfl]
    omega
  have hring : (2 * (3 + num.setWidth 32) : Word).toNat = 6 + 2 * num.toNat := by
    rw [BitVec.toNat_mul, BitVec.toNat_add, toNat_num, show (2 : Word).toNat = 2 from rfl,
      show (3 : Word).toNat = 3 from rfl]
    omega
  have hused : (2 * 3 + 8 * num.setWidth 32 : Word).toNat = 6 + 8 * num.toNat := by
    rw [show (2 * 3 : Word) = 6 from rfl, BitVec.toNat_add, BitVec.toNat_mul, toNat_num,
      show (8 : Word).toNat = 8 from rfl, show (6 : Word).toNat = 6 from rfl]
    omega
  have hsize : ((16 * num.setWidth 32 + 2 * (3 + num.setWidth 32) : Word).setWidth 64).toNat =
      18 * num.toNat + 6 := by
    have hlt := num.isLt
    rw [BitVec.toNat_setWidth, BitVec.toNat_add, hdescs, hring, Nat.mod_eq_of_lt (by omega),
      Nat.mod_eq_of_lt (by omega)]
    omega
  have hup := le_roundUp (18 * num.toNat + 6) (Nat.two_pow_pos k)
  rw [vringSize, BitVec.toNat_add, BitVec.toNat_setWidth, toNat_alignUp halign (by omega), hsize,
    hused]
  omega

/-- A multiple of the alignment can be taken out of the rounding. -/
theorem init_used_aligned (halign : align.toNat = 2 ^ k) (hdvd : align.toNat ∣ p.toNat)
    (hfit : p.toNat + 26 * num.toNat + 12 + align.toNat ≤ 2 ^ 32) :
    (Vring.init (num.setWidth 32) p align).used + 6 + 8 * num.toNat =
      p.toNat + (vringSize num align).toNat := by
  obtain ⟨m, hm⟩ := hdvd
  rw [halign] at hm
  have hpos := Nat.two_pow_pos k
  have hsplit : p.toNat + 18 * num.toNat + 6 + 2 ^ k - 1 =
      18 * num.toNat + 6 + 2 ^ k - 1 + 2 ^ k * m := by omega
  rw [init_used halign hfit, toNat_vringSize halign (by omega), hsplit,
    Nat.add_mul_div_left _ _ hpos, Nat.add_mul, Nat.mul_comm m, ← hm]
  omega

theorem init_used_bounds (halign : align.toNat = 2 ^ k)
    (hfit : p.toNat + 26 * num.toNat + 12 + align.toNat ≤ 2 ^ 32) :
    p.toNat + 18 * num.toNat + 6 ≤ (Vring.init (num.setWidth 32) p align).used ∧
      (Vring.init (num.setWidth 32) p align).used < p.toNat + 18 * num.toNat + 6 + align.toNat := by
  rw [init_used halign hfit, halign]
  exact le_roundUp _ (Nat.two_pow_pos k)

/-- **The parts of a vring lie one after the other**, and a vring that begins at a multiple
of its alignment ends with the used ring and the event index behind it. -/
theorem init_layout {v : Vring} (hv : v = .init (num.setWidth 32) p align)
    (halign : align.toNat = 2 ^ k) (hfit : p.toNat + 26 * num.toNat + 12 + align.toNat ≤ 2 ^ 32) :
    v.avail = v.desc + 16 * v.num ∧ v.avail + 6 + 2 * v.num ≤ v.used ∧
      v.used < v.avail + 6 + 2 * v.num + align.toNat ∧ align.toNat ∣ v.used ∧
      (align.toNat ∣ v.desc →
        v.used + 6 + 8 * v.num = v.desc + (vringSize num align).toNat) := by
  have hnum : v.num = num.toNat := hv ▸ toNat_num num
  have hdesc : v.desc = p.toNat := hv ▸ rfl
  have havail : v.avail = p.toNat + 16 * num.toNat := hv ▸ init_avail hfit
  have hbounds := init_used_bounds halign hfit
  have hend (h : align.toNat ∣ p.toNat) := init_used_aligned halign h hfit
  rw [← hv] at hbounds hend
  have hdvd : align.toNat ∣ v.used := by
    rw [hv, init_used halign hfit, halign]
    exact Nat.dvd_mul_left ..
  rw [hnum, hdesc, havail]
  exact ⟨rfl, by omega, by omega, hdvd, hend⟩

/-- A vring of 16 descriptors, in 438 bytes. -/
theorem init_layout_echo :
    (Vring.init 16 0x9000 16).avail = 0x9000 + 16 * 16 ∧
      (Vring.init 16 0x9000 16).avail + 6 + 2 * 16 ≤ (Vring.init 16 0x9000 16).used ∧
      (Vring.init 16 0x9000 16).used < (Vring.init 16 0x9000 16).avail + 6 + 2 * 16 + 16 ∧
      16 ∣ (Vring.init 16 0x9000 16).used ∧
      (16 ∣ 0x9000 →
        (Vring.init 16 0x9000 16).used + 6 + 8 * 16 = 0x9000 + (vringSize 16 16).toNat) :=
  @init_layout 16 0x9000 16 4 _ rfl rfl (by decide)

end Layout

end Rpmsg
