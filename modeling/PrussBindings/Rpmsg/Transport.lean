import PrussBindings.Rpmsg.Virtqueue

/-!
# Messages over virtqueues

`examples/lib/src/pru_rpmsg.c`: a message is a header and its data in a buffer.  PRU to
ARM the buffers of `vring0` are used, ARM to PRU those of `vring1`.

* `PruRpmsgTransport`, `PruRpmsgTransport.init` — the two virtqueues.
* `copyOut`, `copyIn` — `memcpy` into a buffer, and out of one.
* `PruRpmsgTransport.send`, `PruRpmsgTransport.receive`, `PruRpmsgTransport.channel`.
-/

namespace Rpmsg

open Effect

/-- `PRU_RPMSG_SUCCESS`. -/
def rpmsgSuccess : ℤ := 0

/-- `PRU_RPMSG_NO_BUF_AVAILABLE`. -/
def rpmsgNoBufAvailable : ℤ := -1

/-- `PRU_RPMSG_BUF_TOO_SMALL`. -/
def rpmsgBufTooSmall : ℤ := -2

/-- `PRU_RPMSG_INVALID_HEAD`. -/
def rpmsgInvalidHead : ℤ := -3

/-- `PRU_RPMSG_INVALID_EVENT`. -/
def rpmsgInvalidEvent : ℤ := -4

/-- `MAX_VALID_EVENT`. -/
def maxValidEvent : ℕ := 31

/-- `MIN_VALID_EVENT`. -/
def minValidEvent : ℕ := 16

/-- `RPMSG_NAME_SIZE`. -/
def rpmsgNameSize : ℕ := 32

/-- `RPMSG_BUF_SIZE`: a buffer with its header. -/
def rpmsgBufSize : ℕ := 512

/-- `sizeof(struct pru_rpmsg_hdr)`. -/
def sizeofRpmsgHdr : ℕ := 16

/-- `sizeof(struct pru_rpmsg_ns_msg)`. -/
def sizeofRpmsgNsMsg : ℕ := 72

/-- `struct pru_rpmsg_transport`. -/
structure PruRpmsgTransport where
  virtqueue0 : PruVirtqueue
  virtqueue1 : PruVirtqueue
  deriving DecidableEq, Repr

/-- `memcpy(msg->data, data, len)`, from the byte `i` on. -/
def copyOut (msg : ℕ) (data : ℕ → ℕ) (i : ℕ) : ℕ → C Unit
  | 0 => return
  | n + 1 => do
    store (.msgData msg i) (data i)
    copyOut msg data (i + 1) n

/-- `memcpy(data, msg->data, len)`, from the byte `i` on.  That `data` has room for `len`
bytes is for the caller to see to. -/
def copyIn (msg : ℕ) (data : ℕ → ℕ) (i : ℕ) : ℕ → C (ℕ → ℕ)
  | 0 => return data
  | n + 1 => do
    let b ← load (.msgData msg i)
    copyIn msg (Function.update data i b) (i + 1) n

/-- What `pru_rpmsg_receive` leaves in `*src`, `*dst`, `data` and `*len`.  The `payload` of
the programs, which `data` points to, has room for a buffer's worth of bytes: what a longer
message would overwrite is not here. -/
structure Received where
  src : ℕ
  dst : ℕ
  data : ℕ → ℕ
  len : ℕ

namespace PruRpmsgTransport

/-- `pru_rpmsg_init`. -/
def init (transport : PruRpmsgTransport) (vring0 vring1 : FwRscVdevVring)
    (toArmEvent fromArmEvent : ℕ) : PruRpmsgTransport × ℤ :=
  if toArmEvent > maxValidEvent ∨ toArmEvent < minValidEvent then
    (transport, rpmsgInvalidEvent)
  else if fromArmEvent > maxValidEvent ∨ fromArmEvent < minValidEvent then
    (transport, rpmsgInvalidEvent)
  else
    ({ virtqueue0 := .init vring0 toArmEvent fromArmEvent
       virtqueue1 := .init vring1 toArmEvent fromArmEvent }, rpmsgSuccess)

/-- `pru_rpmsg_send`, with nothing in `msg` and `msg_len` before. -/
def send (transport : PruRpmsgTransport) (src dst : ℕ) (data : ℕ → ℕ) (len : ℕ) :
    C (PruRpmsgTransport × ℤ) := do
  if len > rpmsgBufSize - sizeofRpmsgHdr then
    return (transport, rpmsgBufTooSmall)
  let (vq, avail) ← transport.virtqueue0.getAvailBuf 0 0
  let transport := { transport with virtqueue0 := vq }
  if avail.head < 0 then
    return (transport, rpmsgNoBufAvailable)
  let msg := avail.buf
  copyOut msg data 0 len
  store (.msgLen msg) len
  store (.msgDst msg) dst
  store (.msgSrc msg) src
  store (.msgFlags msg) 0
  store (.msgReserved msg) 0
  let ret ← vq.addUsedBuf avail.head avail.len
  if ret < 0 then
    return (transport, rpmsgInvalidHead)
  let _ ← vq.kick
  return (transport, rpmsgSuccess)

/-- `pru_rpmsg_receive`, with nothing in `msg` and `msg_len` before. -/
def receive (transport : PruRpmsgTransport) (out : Received) :
    C (PruRpmsgTransport × ℤ × Received) := do
  let (vq, avail) ← transport.virtqueue1.getAvailBuf 0 0
  let transport := { transport with virtqueue1 := vq }
  if avail.head < 0 then
    return (transport, rpmsgNoBufAvailable, out)
  let msg := avail.buf
  let n ← load (.msgLen msg)
  let data ← copyIn msg out.data 0 n
  let src ← load (.msgSrc msg)
  let dst ← load (.msgDst msg)
  let len ← load (.msgLen msg)
  let out := { src := src % 2 ^ 16, dst := dst % 2 ^ 16, data := data, len := len }
  let ret ← vq.addUsedBuf avail.head avail.len
  if ret < 0 then
    return (transport, rpmsgInvalidHead, out)
  let _ ← vq.kick
  return (transport, rpmsgSuccess, out)

/-- The bytes of a `struct pru_rpmsg_ns_msg`: the name and the description are copied with
whatever is behind them in memory. -/
def nsMsg (flags : ℕ) (name desc : ℕ → ℕ) (port : ℤ) (i : ℕ) : ℕ :=
  if i < rpmsgNameSize then name i
  else if i < 2 * rpmsgNameSize then desc (i - rpmsgNameSize)
  else if i < 2 * rpmsgNameSize + 4 then uint32 port / 256 ^ (i - 2 * rpmsgNameSize) % 256
  else flags / 256 ^ (i - (2 * rpmsgNameSize + 4)) % 256

/-- `pru_rpmsg_channel`. -/
def channel (flags : ℕ) (transport : PruRpmsgTransport) (name desc : ℕ → ℕ) (port : ℤ) :
    C (PruRpmsgTransport × ℤ) :=
  transport.send (uint32 port) 53 (nsMsg flags name desc port) sizeofRpmsgNsMsg

end PruRpmsgTransport

end Rpmsg
