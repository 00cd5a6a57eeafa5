import PrussBindings.Lib.ByteMemory
import PrussBindings.Rpmsg.Host

/-!
# The vrings in a memory of bytes

`Rpmsg.Host` has the shared memory as one number for each field.  In fact it consists of
bytes, of which the resource table gives `vring_size` to each vring, at an address of its
own, and the structures are laid over them.

* `Piece`, `Region`, `Layout` — what the ARM sets aside, and that it does so without overlap.
* `Layout.setup` — the vrings as `pru_virtqueue_init` makes them of the resource table.
* `Table`, `Cell` — the structures as tables, and the fields as columns of their rows.
* `Layout.apart` — **no two fields have a byte in common**.
-/

namespace Rpmsg

open ByteMemory

/-- A piece of memory: a vring, a buffer, or the status byte. -/
inductive Piece where
  | vring (q : VringId)
  | buffer (m : ℕ)
  | status

/-- What the resource table says of the vrings, and where the buffers and the status byte
are. -/
structure Region where
  vring : VringId → FwRscVdevVring
  exp : VringId → ℕ
  alignExp : VringId → ℕ
  buffer : ℕ → Prop
  rsc : ℕ
  hostBit : ℕ
  fromArmEvent : ℕ
  exp_le : ∀ q, exp q ≤ 15
  num_eq : ∀ q, (vring q).num.toNat = 2 ^ exp q
  align_eq : ∀ q, (vring q).align.toNat = 2 ^ alignExp q
  aligned : ∀ q, (vring q).align.toNat ∣ (vring q).da.toNat
  fits : ∀ q, (vring q).da.toNat + 26 * (vring q).num.toNat + 12 + (vring q).align.toNat ≤ 2 ^ 32
  buffer_fits : ∀ m, buffer m → m + rpmsgBufSize ≤ 2 ^ 32

namespace Region

/-- Where a piece begins. -/
def start (R : Region) : Piece → ℕ
  | .vring q => (R.vring q).da.toNat
  | .buffer m => m
  | .status => R.rsc

/-- How many bytes a piece has. -/
def size (R : Region) : Piece → ℕ
  | .vring q => (vringSize ((R.vring q).num.setWidth 16) ((R.vring q).align.setWidth 64)).toNat
  | .buffer _ => rpmsgBufSize
  | .status => 1

/-- The pieces that there are. -/
def Has (R : Region) : Piece → Prop
  | .buffer m => R.buffer m
  | _ => True

/-- No two pieces have a byte in common. -/
def Disjoint (R : Region) : Prop :=
  ∀ x y, R.Has x → R.Has y → x ≠ y →
    R.start x + R.size x ≤ R.start y ∨ R.start y + R.size y ≤ R.start x

/-! ## The parts of a vring -/

section Parts

variable (R : Region) (q : VringId)

/-- The vring that `pru_virtqueue_init` makes of an entry of the resource table. -/
def vringAt : Vring := .init (R.vring q).num (R.vring q).da ((R.vring q).align.setWidth 64)

theorem num_vringAt : (R.vringAt q).num = 2 ^ R.exp q := R.num_eq q

theorem toNat_num16 : ((R.vring q).num.setWidth 16).toNat = (R.vring q).num.toNat := by
  have hle := Nat.pow_le_pow_right (n := 2) (by omega) (R.exp_le q)
  have hnum := R.num_eq q
  rw [BitVec.toNat_setWidth]
  omega

theorem toNat_align64 : ((R.vring q).align.setWidth 64).toNat = (R.vring q).align.toNat := by
  have hlt := (R.vring q).align.isLt
  rw [BitVec.toNat_setWidth]
  omega

/-- Table, available ring and used ring lie one after the other in the piece. -/
theorem parts :
    (R.vringAt q).desc = R.start (.vring q) ∧
      (R.vringAt q).avail = R.start (.vring q) + 16 * (R.vringAt q).num ∧
      (R.vringAt q).avail + 6 + 2 * (R.vringAt q).num ≤ (R.vringAt q).used ∧
      (R.vringAt q).used + 6 + 8 * (R.vringAt q).num = R.start (.vring q) + R.size (.vring q) ∧
      (R.vringAt q).used + 6 + 8 * (R.vringAt q).num ≤ 2 ^ 32 := by
  have hnum16 := R.toNat_num16 q
  have halign64 := R.toNat_align64 q
  have hfits := R.fits q
  have hnum : (((R.vring q).num.setWidth 16).setWidth 32 : Word) = (R.vring q).num :=
    BitVec.eq_of_toNat_eq (by rw [toNat_num, hnum16])
  have halign := halign64.trans (R.align_eq q)
  rw [← hnum16, ← halign64] at hfits
  have havail := init_avail hfits
  have hbounds := init_used_bounds halign hfits
  have hend := init_used_aligned halign (by rw [halign64]; exact R.aligned q) hfits
  rw [hnum] at havail hbounds hend
  rw [hnum16] at havail hbounds hend
  rw [hnum16, halign64] at hfits
  refine ⟨rfl, havail, ?_, hend, ?_⟩
  · change (Vring.init _ _ _).avail + 6 + 2 * (R.vring q).num.toNat ≤ (Vring.init _ _ _).used
    rw [havail]
    omega
  · change (Vring.init _ _ _).used + 6 + 8 * (R.vring q).num.toNat ≤ 2 ^ 32
    rw [halign64] at hbounds
    omega

end Parts

end Region

/-- What the ARM sets aside does not overlap. -/
structure Layout extends Region where
  disjoint : toRegion.Disjoint

namespace Layout

/-- The vrings as the PRU finds them. -/
def setup (L : Layout) : Setup where
  vring := L.vringAt
  exp := L.exp
  buffer := L.buffer
  hostBit := L.hostBit
  fromArmEvent := L.fromArmEvent
  num_eq := L.num_vringAt
  exp_le := L.exp_le
  desc_ne := by
    have hdisj := L.disjoint (.vring .vring0) (.vring .vring1) trivial trivial (by simp)
    have h0 := L.parts .vring0
    have h1 := L.parts .vring1
    omega
  avail_ne := by
    have hdisj := L.disjoint (.vring .vring0) (.vring .vring1) trivial trivial (by simp)
    have h0 := L.parts .vring0
    have h1 := L.parts .vring1
    omega
  used_ne := by
    have hdisj := L.disjoint (.vring .vring0) (.vring .vring1) trivial trivial (by simp)
    have h0 := L.parts .vring0
    have h1 := L.parts .vring1
    omega
  buffer_lt m hm := by
    have hle := L.buffer_fits m hm
    have hsize : rpmsgBufSize = 512 := rfl
    omega

end Layout

/-! ## Tables -/

/-- The tables that the pieces consist of. -/
inductive Table where
  | desc (q : VringId)
  | avail (q : VringId)
  | ring (q : VringId)
  | usedHead (q : VringId)
  | used (q : VringId)
  | header (m : ℕ)
  | data (m : ℕ)
  | status

namespace Table

variable (L : Layout)

/-- The piece that a table is in. -/
def piece : Table → Piece
  | .desc q | .avail q | .ring q | .usedHead q | .used q => .vring q
  | .header m | .data m => .buffer m
  | .status => .status

/-- Where the first row is. -/
def start : Table → ℕ
  | .desc q => (L.vringAt q).desc
  | .avail q => (L.vringAt q).avail
  | .ring q => (L.vringAt q).avail + 4
  | .usedHead q => (L.vringAt q).used
  | .used q => (L.vringAt q).used + 4
  | .header m => m
  | .data m => m + sizeofRpmsgHdr
  | .status => L.rsc

/-- The length of a row. -/
def stride : Table → ℕ
  | .desc _ | .header _ => 16
  | .avail _ | .usedHead _ => 4
  | .ring _ => 2
  | .used _ => 8
  | .data _ | .status => 1

/-- The number of rows. -/
def rows : Table → ℕ
  | .desc q | .ring q | .used q => (L.vringAt q).num
  | .avail _ | .usedHead _ | .header _ | .status => 1
  | .data _ => rpmsgBufSize - sizeofRpmsgHdr

variable (t t' : Table)

theorem subset_piece :
    L.start t.piece ≤ t.start L ∧
      t.start L + t.stride * t.rows L ≤ L.start t.piece + L.size t.piece := by
  cases t with
  | desc q | avail q | ring q | usedHead q | used q =>
    have hparts := L.parts q
    simp only [piece, start, stride, rows]
    omega
  | header m | data m =>
    simp only [piece, start, stride, rows, Region.start, Region.size, rpmsgBufSize, sizeofRpmsgHdr]
    omega
  | status => exact ⟨le_rfl, le_rfl⟩

/-- No two tables have a byte in common. -/
theorem apart (h : L.Has t.piece) (h' : L.Has t'.piece) (hne : t ≠ t') :
    t.start L + t.stride * t.rows L ≤ t'.start L ∨
      t'.start L + t'.stride * t'.rows L ≤ t.start L := by
  by_cases hpiece : t.piece = t'.piece
  · cases t <;> cases t' <;> cases hpiece <;>
      first
      | exact absurd rfl hne
      | (simp only [start, stride, rows, sizeofRpmsgHdr]; omega)
      | (have hparts := L.parts ‹VringId›; simp only [start, stride, rows]; omega)
  · have hdisj := L.disjoint _ _ h h' hpiece
    have hsub := subset_piece L t
    have hsub' := subset_piece L t'
    omega

end Table

/-- A field as a column of a row of a table. -/
inductive Cell (L : Layout) : Place → Table → ℕ → ℕ → Prop where
  | descAddr {q : VringId} {i : ℕ} (h : i < (L.vringAt q).num) :
    Cell L (.descAddr (L.vringAt q).desc i) (.desc q) i 0
  | descLen {q : VringId} {i : ℕ} (h : i < (L.vringAt q).num) :
    Cell L (.descLen (L.vringAt q).desc i) (.desc q) i 8
  | availFlags (q : VringId) : Cell L (.availFlags (L.vringAt q).avail) (.avail q) 0 0
  | availIdx (q : VringId) : Cell L (.availIdx (L.vringAt q).avail) (.avail q) 0 2
  | availRing {q : VringId} {i : ℕ} (h : i < (L.vringAt q).num) :
    Cell L (.availRing (L.vringAt q).avail i) (.ring q) i 0
  | usedIdx (q : VringId) : Cell L (.usedIdx (L.vringAt q).used) (.usedHead q) 0 2
  | usedId {q : VringId} {i : ℕ} (h : i < (L.vringAt q).num) :
    Cell L (.usedId (L.vringAt q).used i) (.used q) i 0
  | usedLen {q : VringId} {i : ℕ} (h : i < (L.vringAt q).num) :
    Cell L (.usedLen (L.vringAt q).used i) (.used q) i 4
  | msgSrc {m : ℕ} (h : L.buffer m) : Cell L (.msgSrc m) (.header m) 0 0
  | msgDst {m : ℕ} (h : L.buffer m) : Cell L (.msgDst m) (.header m) 0 4
  | msgReserved {m : ℕ} (h : L.buffer m) : Cell L (.msgReserved m) (.header m) 0 8
  | msgLen {m : ℕ} (h : L.buffer m) : Cell L (.msgLen m) (.header m) 0 12
  | msgFlags {m : ℕ} (h : L.buffer m) : Cell L (.msgFlags m) (.header m) 0 14
  | msgData {m i : ℕ} (h : L.buffer m) (hi : i < rpmsgBufSize - sizeofRpmsgHdr) :
    Cell L (.msgData m i) (.data m) i 0
  | status : Cell L .status .status 0 0

section Cell

variable {L : Layout} {p p' : Place} {t : Table} {i o o' : ℕ}

theorem exists_cell (h : Live L.setup p) : ∃ t i o, Cell L p t i o := by
  cases p with
  | descAddr d i =>
    obtain ⟨q, rfl, hi, hlt⟩ := h
    obtain ⟨k, rfl⟩ := Int.eq_ofNat_of_zero_le hi
    exact ⟨_, _, _, .descAddr (Int.ofNat_lt.1 hlt)⟩
  | descLen d i =>
    obtain ⟨q, rfl, hi, hlt⟩ := h
    obtain ⟨k, rfl⟩ := Int.eq_ofNat_of_zero_le hi
    exact ⟨_, _, _, .descLen (Int.ofNat_lt.1 hlt)⟩
  | availFlags a =>
    obtain ⟨q, rfl⟩ := h
    exact ⟨_, _, _, .availFlags q⟩
  | availIdx a =>
    obtain ⟨q, rfl⟩ := h
    exact ⟨_, _, _, .availIdx q⟩
  | availRing a i =>
    obtain ⟨q, rfl, hi⟩ := h
    exact ⟨_, _, _, .availRing hi⟩
  | usedIdx u =>
    obtain ⟨q, rfl⟩ := h
    exact ⟨_, _, _, .usedIdx q⟩
  | usedId u i =>
    obtain ⟨q, rfl, hi⟩ := h
    exact ⟨_, _, _, .usedId hi⟩
  | usedLen u i =>
    obtain ⟨q, rfl, hi⟩ := h
    exact ⟨_, _, _, .usedLen hi⟩
  | msgSrc m => exact ⟨_, _, _, .msgSrc h⟩
  | msgDst m => exact ⟨_, _, _, .msgDst h⟩
  | msgReserved m => exact ⟨_, _, _, .msgReserved h⟩
  | msgLen m => exact ⟨_, _, _, .msgLen h⟩
  | msgFlags m => exact ⟨_, _, _, .msgFlags h⟩
  | msgData m i => exact ⟨_, _, _, .msgData h.1 h.2⟩
  | status => exact ⟨_, _, _, .status⟩

/-- Where a column of a row is. -/
theorem Cell.addr (h : Cell L p t i o) :
    L.Has t.piece ∧ i < t.rows L ∧ p.addr L.rsc = t.start L + t.stride * i + o ∧
      o + p.size ≤ t.stride := by
  cases h with
  | @descAddr q i h | @descLen q i h =>
    have hparts := L.parts q
    refine ⟨trivial, h, ?_, by simp [Place.size, Table.stride]⟩
    simp only [Place.addr, Table.start, Table.stride]
    omega
  | availRing h | usedId h | usedLen h =>
    refine ⟨trivial, h, ?_, by simp [Place.size, Table.stride]⟩
    simp only [Place.addr, Table.start, Table.stride]
    omega
  | availFlags | availIdx | usedIdx | status =>
    exact ⟨trivial, Nat.one_pos, rfl, by simp [Place.size, Table.stride]⟩
  | msgData h hi =>
    refine ⟨h, hi, ?_, by simp [Place.size, Table.stride]⟩
    simp only [Place.addr, Table.start, Table.stride, sizeofRpmsgHdr]
    omega
  | msgSrc h | msgDst h | msgReserved h | msgLen h | msgFlags h =>
    exact ⟨h, Nat.one_pos, rfl, by simp [Place.size, Table.stride]⟩

/-- No two columns of a row have a byte in common. -/
theorem Cell.apart (h : Cell L p t i o) (h' : Cell L p' t i o') (hne : p ≠ p') :
    o + p.size ≤ o' ∨ o' + p'.size ≤ o := by
  cases h <;> cases h' <;>
    first
    | exact absurd rfl hne
    | (simp only [Place.size]; omega)

/-- **No two fields have a byte in common.** -/
theorem Layout.apart (L : Layout) : Apart (Place.addr L.rsc) Place.size (Live L.setup) := by
  intro p p' hp hp' hne
  obtain ⟨t, i, o, hcell⟩ := exists_cell hp
  obtain ⟨t', i', o', hcell'⟩ := exists_cell hp'
  obtain ⟨hhas, hi, haddr, ho⟩ := hcell.addr
  obtain ⟨hhas', hi', haddr', ho'⟩ := hcell'.addr
  have hrow := Nat.mul_le_mul_left t.stride (Nat.succ_le_of_lt hi)
  have hrow' := Nat.mul_le_mul_left t'.stride (Nat.succ_le_of_lt hi')
  rw [Nat.mul_succ] at hrow hrow'
  rw [haddr, haddr']
  by_cases htable : t = t'
  · subst htable
    rcases Nat.lt_trichotomy i i' with hlt | rfl | hlt
    · have hle := Nat.mul_le_mul_left t.stride (Nat.succ_le_of_lt hlt)
      rw [Nat.mul_succ] at hle
      omega
    · have hcol := hcell.apart hcell' hne
      omega
    · have hle := Nat.mul_le_mul_left t.stride (Nat.succ_le_of_lt hlt)
      rw [Nat.mul_succ] at hle
      omega
  · have htables := Table.apart L t t' hhas hhas' htable
    omega

end Cell

/-- The vrings of `rpmsg_echo`, at two addresses, and two rows of 16 buffers. -/
def echoLayout : Layout where
  vring := VringId.each ⟨0x9000, 16, 16, 0⟩ ⟨0xA000, 16, 16, 1⟩
  exp _ := 4
  alignExp _ := 4
  buffer m := ∃ i < 32, m = 0xB000 + 512 * i
  rsc := 0x2000
  hostBit := 30
  fromArmEvent := 17
  exp_le _ := by omega
  num_eq q := by cases q <;> rfl
  align_eq q := by cases q <;> rfl
  aligned q := by cases q <;> decide
  fits q := by cases q <;> decide
  buffer_fits := by
    rintro _ ⟨i, hi, rfl⟩
    simp only [rpmsgBufSize]
    omega
  disjoint := by
    rintro (⟨_ | _⟩ | m | _) (⟨_ | _⟩ | m' | _) hx hy hne
    case buffer.buffer =>
      obtain ⟨i, hi, rfl⟩ := hx
      obtain ⟨j, hj, rfl⟩ := hy
      have hij : i ≠ j := fun h => hne (h ▸ rfl)
      simp only [Region.start, Region.size, rpmsgBufSize]
      omega
    all_goals
      first
      | exact absurd rfl hne
      | decide
      | (obtain ⟨i, hi, rfl⟩ := hx
         refine .inr ?_
         change _ ≤ 0xB000 + 512 * i
         exact le_trans (by decide) (Nat.le_add_right ..))
      | (obtain ⟨i, hi, rfl⟩ := hy
         refine .inl ?_
         change _ ≤ 0xB000 + 512 * i
         exact le_trans (by decide) (Nat.le_add_right ..))

end Rpmsg
