import PrussBindings.Lib.Effect
import PrussBindings.Rpmsg.Vring

/-!
# Virtqueues

`examples/lib/src/pru_virtqueue.c`, which the firmware of a PRU is linked with, access by
access: every field of shared memory that the C code reads or writes is a call of the
program, so that the ARM can do something in between.

* `Access`, `C` — the accesses, and programs that make them.
* `PruVirtqueue`, `PruVirtqueue.init` — a virtqueue.
* `PruVirtqueue.getAvailBuf`, `PruVirtqueue.addUsedBuf`, `PruVirtqueue.kick` — a buffer is
  taken off the available ring, put onto the used ring, and the ARM is told.
-/

namespace Rpmsg

open Effect

/-- What a PRU does that others can see, or that they have a say in. -/
inductive Access where
  | load (p : Place)
  | store (p : Place) (v : ℕ)
  /-- `__R31 = v`. -/
  | writeR31 (v : ℕ)
  | readR31
  /-- `CT_INTC.SICR_bit.STS_CLR_IDX = event`. -/
  | clearStatus (event : ℕ)
  deriving DecidableEq, Repr

/-- What an access gives. -/
@[reducible] def Access.Res : Access → Type
  | .load _ | .readR31 => ℕ
  | _ => Unit

/-- A piece of firmware. -/
abbrev C (α : Type) := Prog Access.Res Empty α

def load (p : Place) : C ℕ := Prog.perform (Access.load p)

def store (p : Place) (v : ℕ) : C Unit := Prog.perform (Access.store p v)

/-! ## Arithmetic of C -/

/-- `a - b` of two `uint32_t`. -/
def sub32 (a b : ℕ) : ℕ := (a + 2 ^ 32 - b) % 2 ^ 32

/-- A `uint16_t` that is assigned to an `int16_t`. -/
def int16 (n : ℕ) : ℤ := if n < 2 ^ 15 then n else n - 2 ^ 16

/-- `(int)n` of a `uint32_t`. -/
def int32 (n : ℕ) : ℤ := if n < 2 ^ 31 then n else n - 2 ^ 32

/-- An `int16_t` that is assigned to a `uint32_t`. -/
def uint32 (n : ℤ) : ℕ := (n % 2 ^ 32).toNat

/-- `i & (num - 1)`. -/
def slot (i num : ℕ) : ℕ := i &&& sub32 num 1

/-! ## The virtqueue -/

/-- `PRU_VIRTQUEUE_NO_KICK`. -/
def virtqueueNoKick : ℤ := 1

/-- `PRU_VIRTQUEUE_SUCCESS`. -/
def virtqueueSuccess : ℤ := 0

/-- `PRU_VIRTQUEUE_NO_BUF_AVAILABLE`. -/
def virtqueueNoBufAvailable : ℤ := -1

/-- `PRU_VIRTQUEUE_INVALID_HEAD`. -/
def virtqueueInvalidHead : ℤ := -2

/-- `VRING_AVAIL_F_NO_INTERRUPT`. -/
def vringAvailFNoInterrupt : ℕ := 1

/-- `INT_ENABLE`: bit 5 of `__R31` generates a system event. -/
def intEnable : ℕ := 32

/-- `INT_OFFSET`: `__R31[3:0]` stands for the system events from 16 on. -/
def intOffset : ℕ := 16

/-- `struct pru_virtqueue`. -/
structure PruVirtqueue where
  id : ℕ
  toArmEvent : ℕ
  fromArmEvent : ℕ
  lastAvailIdx : ℕ
  vring : Vring
  deriving DecidableEq, Repr

/-- `pru_virtqueue_init`. -/
def PruVirtqueue.init (vring : FwRscVdevVring) (toArmEvent fromArmEvent : ℕ) : PruVirtqueue where
  id := vring.notifyid.toNat
  toArmEvent := toArmEvent
  fromArmEvent := fromArmEvent
  lastAvailIdx := 0
  vring := .init vring.num vring.da (vring.align.setWidth 64)

/-- What `pru_virtqueue_get_avail_buf` returns, and what it leaves in `*buf` and `*len`. -/
structure AvailBuf where
  head : ℤ
  buf : ℕ
  len : ℕ
  deriving DecidableEq, Repr

namespace PruVirtqueue

/-- `pru_virtqueue_get_avail_buf`. -/
def getAvailBuf (vq : PruVirtqueue) (buf len : ℕ) : C (PruVirtqueue × AvailBuf) := do
  let avail := vq.vring.avail
  let idx ← load (.availIdx avail)
  if vq.lastAvailIdx = idx then
    return (vq, ⟨virtqueueNoBufAvailable, buf, len⟩)
  let entry ← load (.availRing avail (slot vq.lastAvailIdx vq.vring.num))
  let head := int16 entry
  let addr ← load (.descAddr vq.vring.desc head)
  let descLen ← load (.descLen vq.vring.desc head)
  return ({ vq with lastAvailIdx := (vq.lastAvailIdx + 1) % 2 ^ 16 },
    ⟨head, addr % 2 ^ 32, descLen⟩)

/-- `pru_virtqueue_add_used_buf`: `used->idx` is incremented before the entry is written. -/
def addUsedBuf (vq : PruVirtqueue) (head : ℤ) (len : ℕ) : C ℤ := do
  let num := vq.vring.num
  let used := vq.vring.used
  if head > int32 num then
    return virtqueueInvalidHead
  let idx ← load (.usedIdx used)
  store (.usedIdx used) (idx + 1)
  store (.usedId used (slot idx num)) (uint32 head)
  store (.usedLen used (slot idx num)) len
  return virtqueueSuccess

/-- `pru_virtqueue_kick`. -/
def kick (vq : PruVirtqueue) : C ℤ := do
  let flags ← load (.availFlags vq.vring.avail)
  if flags &&& vringAvailFNoInterrupt ≠ 0 then
    return virtqueueNoKick
  Prog.perform (Access.writeR31 (intEnable ||| sub32 vq.toArmEvent intOffset))
  return virtqueueSuccess

end PruVirtqueue

end Rpmsg
