import PrussBindings.Errno
import PrussBindings.Lib.Ring

/-!
# The character device of the rpmsg driver

The per-device state of `drivers/pruss_api.c` and its file operations: `open`
and `release` with their lock, `read`, `write`, `poll`, and the callback the
rpmsg layer calls for every message a PRU sends.

A message travels through two structures that must agree: `msg_fifo`, a kernel
byte queue, and `msg_len`, a circular table of message lengths with a reading
and a writing index.  `kfifo_in` and `kfifo_to_user` are modelled by `Kfifo`,
whose `fits` field is the queue's own promise that it never outgrows its
buffer.  The indices are elements of `Fin maxFifoMsg`, and `Ring.advance` is
the `(i + 1) % MAX_FIFO_MSG` of the source.
-/

namespace Driver

open Errno Ring

/-- The bytes of one rpmsg message. -/
abbrev Message := List UInt8

/-- `RPMSG_BUF_SIZE`: an rpmsg buffer with its header. -/
def rpmsgBufSize : Nat := 512

/-- `sizeof(struct rpmsg_hdr)`. -/
def rpmsgHdrSize : Nat := 16

/-- `MAX_FIFO_MSG`: the slots of the length table. -/
def maxFifoMsg : Nat := 32

/-- `FIFO_MSG_SIZE`. -/
def fifoMsgSize : Nat := rpmsgBufSize

/-! ## The kernel byte queue -/

/-- A `struct kfifo` of bytes. -/
structure Kfifo where
  size : Nat
  data : List UInt8
  fits : data.length ≤ size

namespace Kfifo

/-- `kfifo_alloc`. -/
def alloc (size : Nat) : Kfifo := ⟨size, [], Nat.zero_le size⟩

/-- `kfifo_is_empty`. -/
def isEmpty (f : Kfifo) : Bool := f.data.isEmpty

/-- `kfifo_avail`. -/
def avail (f : Kfifo) : Nat := f.size - f.data.length

/-- `kfifo_in`: stores as much of `buf` as there is room for. -/
def put (f : Kfifo) (buf : Message) : Kfifo where
  size := f.size
  data := f.data ++ buf.take f.avail
  fits := by
    have := f.fits
    simp only [List.length_append, List.length_take, avail]
    omega

/-- Takes `n` bytes off the front. -/
def drop (f : Kfifo) (n : Nat) : Kfifo where
  size := f.size
  data := f.data.drop n
  fits := by
    have := f.fits
    simp only [List.length_drop]
    omega

/-- `kfifo_to_user`: copies up to `len` bytes to user space and removes what it
copied.  `fault = some k` is a copy that faults after `k` bytes: these are
removed and the result is `-EFAULT`. -/
def toUser (f : Kfifo) (len : Nat) (fault : Option Nat) : Int × Message × Kfifo :=
  let l := min len f.data.length
  match fault with
  | some k =>
    if k < l then (-EFAULT, f.data.take k, f.drop k) else (0, f.data.take l, f.drop l)
  | none => (0, f.data.take l, f.drop l)

@[simp] theorem isEmpty_iff (f : Kfifo) : f.isEmpty = true ↔ f.data = [] := by simp [isEmpty]

theorem put_data {f : Kfifo} {buf : Message} (h : buf.length ≤ f.avail) :
    (f.put buf).data = f.data ++ buf := by
  simp [put, List.take_of_length_le h]

end Kfifo

/-! ## The device -/

/-- `struct pruss_api_dev`, without the handles the kernel keeps in it. -/
structure PrussApiDev where
  locked : Bool
  msgFifo : Kfifo
  msgLen : Fin maxFifoMsg → Nat
  msgIdxRd : Fin maxFifoMsg
  msgIdxWr : Fin maxFifoMsg

/-- The device a successful `pruss_api_probe` leaves behind: zeroed memory and
an empty queue. -/
def PrussApiDev.probed : PrussApiDev where
  locked := false
  msgFifo := .alloc (maxFifoMsg * fifoMsgSize)
  msgLen := fun _ => 0
  msgIdxRd := ⟨0, by decide⟩
  msgIdxWr := ⟨0, by decide⟩

/-- What a file operation hands back: its return value, the bytes it stored in
the user buffer, what it wrote to the kernel log, and the device. -/
structure FopRet where
  ret : Int
  stored : Message
  log : Option String
  dev : PrussApiDev

/-- `pruss_api_open`: one user at a time. -/
def prussApiOpen (dev : PrussApiDev) : FopRet :=
  if dev.locked then ⟨-EACCES, [], some "Device already open\n", dev⟩
  else ⟨0, [], none, { dev with locked := true }⟩

theorem prussApiOpen_free {dev : PrussApiDev} (h : dev.locked = false) :
    prussApiOpen dev = ⟨0, [], none, { dev with locked := true }⟩ := by
  unfold prussApiOpen
  rw [h]
  rfl

theorem prussApiOpen_held {dev : PrussApiDev} (h : dev.locked = true) :
    prussApiOpen dev = ⟨-EACCES, [], some "Device already open\n", dev⟩ := by
  unfold prussApiOpen
  rw [if_pos h]

/-- `pruss_api_release`. -/
def prussApiRelease (dev : PrussApiDev) : FopRet :=
  ⟨0, [], none, { dev with locked := false }⟩

/-- `pruss_api_read`.  `none` is a call that has not returned: it sleeps in
`wait_event_interruptible` until the queue is not empty or a signal arrives.
The caller's `count` is not looked at. -/
def prussApiRead (dev : PrussApiDev) (nonblock signal : Bool) (_count : Nat)
    (fault : Option Nat) : Option FopRet :=
  if dev.msgFifo.isEmpty && nonblock then some ⟨-EAGAIN, [], none, dev⟩
  else if dev.msgFifo.isEmpty then
    if signal then some ⟨-EINTR, [], none, dev⟩ else none
  else
    let (ret, stored, fifo) := dev.msgFifo.toUser (dev.msgLen dev.msgIdxRd) fault
    some ⟨if ret ≠ 0 then ret else stored.length, stored, none,
      { dev with msgFifo := fifo, msgIdxRd := advance dev.msgIdxRd 1 }⟩

/-- What `pruss_api_write` hands back, and to whom: its return value, the
payload it passed to `rpmsg_send`, the log line and the static buffer. -/
structure WriteRet where
  ret : Int
  sent : Option Message
  log : Option String
  buf : Message

/-- `pruss_api_write`.  `buf` is the function's static `pruss_api_buf`, `user`
the user buffer from the given address on, `fault` a faulting
`copy_from_user` (the tail it could not copy is zeroed), `send` the result of
`rpmsg_send`. -/
def prussApiWrite (buf user : Message) (count : Nat) (fault : Option Nat) (send : Int) :
    WriteRet :=
  if count > rpmsgBufSize - rpmsgHdrSize then
    ⟨-EINVAL, none, some "Data too large for RPMsg Buffer\n", buf⟩
  else match fault with
    | some k =>
      ⟨-EFAULT, none, some "Error copying buffer from user space",
        user.take k ++ List.replicate (count - k) 0 ++ buf.drop count⟩
    | none =>
      let buf' := user.take count ++ buf.drop count
      if send ≠ 0 then ⟨send, some (buf'.take count), some "rpmsg_send failed: %d\n", buf'⟩
      else ⟨count, some (buf'.take count), none, buf'⟩

/-- The bits of a poll mask. -/
structure PollMask where
  pollIn : Bool
  pollOut : Bool
  deriving DecidableEq, Repr

/-- `pruss_api_poll`: always writable, readable when the queue is not empty. -/
def prussApiPoll (dev : PrussApiDev) : PollMask :=
  ⟨!dev.msgFifo.isEmpty, true⟩

/-- `pruss_api_cb`: queues a message that arrived from the PRU. -/
def prussApiCb (dev : PrussApiDev) (data : Message) : FopRet :=
  if dev.msgFifo.avail < data.length then
    ⟨-ENOSPC, [], some "Not enough space on the FIFO\n", dev⟩
  else if advance dev.msgIdxWr 1 = dev.msgIdxRd then
    ⟨-ENOSPC, [], some "Message length table is full\n", dev⟩
  else
    let length := min data.length dev.msgFifo.avail
    ⟨0, [], none,
      { dev with
        msgFifo := dev.msgFifo.put data
        msgLen := Function.update dev.msgLen dev.msgIdxWr length
        msgIdxWr := advance dev.msgIdxWr 1 }⟩

end Driver
