import PrussBindings.Driver.MessageFifo

/-!
# A callback in the middle of a read

Nothing keeps `pruss_api_cb` and `pruss_api_read` apart: the callback is called when a
message arrives, wherever a reader is.  The byte queue needs no lock for one writer and one
reader, but the callback fills it before it stores the length of the message, and a reader
waits for the queue alone.

* `CbPc`, `ReadPc`, `QueueState` — where the two calls are.
* `cbStep`, `readStep`, `QueueStep` — one access of either to what they share;
  `cb_alone` and `read_alone` put the steps together.
* `bytes_conserved` — **no byte is lost, whatever the order.**
* `Carries` — the messages a device holds in the middle of both calls.
* `interleaving_refines` — **the two calls are a mailbox of 31 messages** unless a read
  loads the length of a message before it is stored; `length_not_stored` is what happens
  if it does.
-/

namespace Driver

open Errno Ring Transition

/-! ## The two calls, access by access -/

/-- What `pruss_api_cb` does next. -/
inductive CbPc where
  | returned
  | kfifoAvail (data : Message)
  | tableFull (data : Message)
  | kfifoIn (data : Message)
  | storeLen (data : Message) (length : Nat)
  | storeIdxWr
  deriving DecidableEq, Repr

/-- What `pruss_api_read` does next. -/
inductive ReadPc where
  | returned
  | isEmpty (nonblock : Bool)
  | wait
  | loadLen
  | kfifoToUser (len : Nat)
  | storeIdxRd (ret : Int) (stored : Message)
  deriving DecidableEq, Repr

/-- A device, with a callback and a read under way on it. -/
structure QueueState where
  dev : PrussApiDev
  cb : CbPc
  read : ReadPc

/-- What a step does that can be told. -/
inductive QueueLabel where
  | called (data : Message)
  | refused (data : Message)
  | put (stored : Message)
  | accepted (data : Message)
  | reads
  | failed (ret : Int)
  | loaded
  | copied (fault : Option Nat) (stored : Message)
  | returned (ret : Int) (stored : Message)
  | silent
  deriving DecidableEq, Repr

/-- A step of `pruss_api_cb`. -/
def cbStep (s : QueueState) : Option (QueueLabel × QueueState) :=
  match s.cb with
  | .returned => none
  | .kfifoAvail data =>
    if s.dev.msgFifo.avail < data.length then some (.refused data, { s with cb := .returned })
    else some (.silent, { s with cb := .tableFull data })
  | .tableFull data =>
    if advance s.dev.msgIdxWr 1 = s.dev.msgIdxRd then
      some (.refused data, { s with cb := .returned })
    else some (.silent, { s with cb := .kfifoIn data })
  | .kfifoIn data =>
    some (.put (data.take s.dev.msgFifo.avail), { s with
      dev := { s.dev with msgFifo := s.dev.msgFifo.put data }
      cb := .storeLen data (min data.length s.dev.msgFifo.avail) })
  | .storeLen data length =>
    some (.accepted data, { s with
      dev := { s.dev with msgLen := Function.update s.dev.msgLen s.dev.msgIdxWr length }
      cb := .storeIdxWr })
  | .storeIdxWr =>
    some (.silent, { s with
      dev := { s.dev with msgIdxWr := advance s.dev.msgIdxWr 1 }
      cb := .returned })

/-- A step of `pruss_api_read`; `signal` and `fault` are as in `prussApiRead`. -/
def readStep (signal : Bool) (fault : Option Nat) (s : QueueState) :
    Option (QueueLabel × QueueState) :=
  match s.read with
  | .returned => none
  | .isEmpty nonblock =>
    if s.dev.msgFifo.isEmpty && nonblock then
      some (.failed (-EAGAIN), { s with read := .returned })
    else some (.silent, { s with read := .wait })
  | .wait =>
    if s.dev.msgFifo.isEmpty then
      if signal then some (.failed (-EINTR), { s with read := .returned }) else none
    else some (.silent, { s with read := .loadLen })
  | .loadLen =>
    some (.loaded, { s with read := .kfifoToUser (s.dev.msgLen s.dev.msgIdxRd) })
  | .kfifoToUser len =>
    let (ret, stored, fifo) := s.dev.msgFifo.toUser len fault
    some (.copied fault stored, { s with
      dev := { s.dev with msgFifo := fifo }
      read := .storeIdxRd (if ret ≠ 0 then ret else stored.length) stored })
  | .storeIdxRd ret stored =>
    some (.returned ret stored, { s with
      dev := { s.dev with msgIdxRd := advance s.dev.msgIdxRd 1 }
      read := .returned })

/-- One of the two calls begins, or takes a step: there is one callback at a time, and one
read. -/
inductive QueueStep : QueueState → QueueLabel → QueueState → Prop where
  | called {s : QueueState} (data : Message) : s.cb = .returned →
    QueueStep s (.called data) { s with cb := .kfifoAvail data }
  | cb {s s' : QueueState} {e : QueueLabel} : cbStep s = some (e, s') → QueueStep s e s'
  | reads {s : QueueState} (nonblock : Bool) : s.read = .returned →
    QueueStep s .reads { s with read := .isEmpty nonblock }
  | read {s s' : QueueState} {e : QueueLabel} (signal : Bool) (fault : Option Nat) :
    readStep signal fault s = some (e, s') → QueueStep s e s'

/-- No call is under way on a probed device. -/
def QueueState.idle : QueueState := ⟨.probed, .returned, .returned⟩

/-! ### One call alone -/

/-- With no read under way, the steps of a callback are `pruss_api_cb`. -/
theorem cb_alone (dev : PrussApiDev) (data : Message) (read : ReadPc) :
    ∃ es, Run QueueStep ⟨dev, .returned, read⟩ (.called data :: es)
      ⟨(prussApiCb dev data).dev, .returned, read⟩ := by
  by_cases havail : dev.msgFifo.avail < data.length
  · have hrefuse : cbStep ⟨dev, .kfifoAvail data, read⟩ =
        some (.refused data, ⟨dev, .returned, read⟩) := if_pos havail
    rw [prussApiCb, if_pos havail]
    exact ⟨_, .cons (.called data rfl) (.cons (.cb hrefuse) (.nil _))⟩
  have hroom : cbStep ⟨dev, .kfifoAvail data, read⟩ =
      some (.silent, ⟨dev, .tableFull data, read⟩) := if_neg havail
  by_cases hfull : advance dev.msgIdxWr 1 = dev.msgIdxRd
  · have hrefuse : cbStep ⟨dev, .tableFull data, read⟩ =
        some (.refused data, ⟨dev, .returned, read⟩) := if_pos hfull
    rw [prussApiCb, if_neg havail, if_pos hfull]
    exact ⟨_, .cons (.called data rfl) (.cons (.cb hroom) (.cons (.cb hrefuse) (.nil _)))⟩
  · have hfree : cbStep ⟨dev, .tableFull data, read⟩ = some (.silent, ⟨dev, .kfifoIn data, read⟩) :=
      if_neg hfull
    rw [prussApiCb, if_neg havail, if_neg hfull]
    exact ⟨_, .cons (.called data rfl) (.cons (.cb hroom) (.cons (.cb hfree)
      (.cons (.cb rfl) (.cons (.cb rfl) (.cons (.cb rfl) (.nil _))))))⟩

/-- With no callback under way, the steps of a read that returns are `pruss_api_read`. -/
theorem read_alone {dev : PrussApiDev} {nonblock signal : Bool} {count : Nat}
    {fault : Option Nat} {r : FopRet} (cb : CbPc)
    (hr : prussApiRead dev nonblock signal count fault = some r) :
    ∃ es, Run QueueStep ⟨dev, cb, .returned⟩ (.reads :: es) ⟨r.dev, cb, .returned⟩ := by
  rw [prussApiRead] at hr
  by_cases hagain : (dev.msgFifo.isEmpty && nonblock) = true
  · rw [if_pos hagain] at hr
    cases hr
    have hfail : readStep signal fault ⟨dev, cb, .isEmpty nonblock⟩ =
        some (.failed (-EAGAIN), ⟨dev, cb, .returned⟩) := if_pos hagain
    exact ⟨_, .cons (.reads nonblock rfl) (.cons (.read signal fault hfail) (.nil _))⟩
  have hwait : readStep signal fault ⟨dev, cb, .isEmpty nonblock⟩ =
      some (.silent, ⟨dev, cb, .wait⟩) := if_neg hagain
  rw [if_neg hagain] at hr
  by_cases hempty : dev.msgFifo.isEmpty = true
  · rw [if_pos hempty] at hr
    cases signal with
    | false => cases hr
    | true =>
      cases hr
      have hfail : readStep true fault ⟨dev, cb, .wait⟩ =
          some (.failed (-EINTR), ⟨dev, cb, .returned⟩) := if_pos hempty
      exact ⟨_, .cons (.reads nonblock rfl) (.cons (.read true fault hwait)
        (.cons (.read true fault hfail) (.nil _)))⟩
  · rw [if_neg hempty] at hr
    rcases hcopy : dev.msgFifo.toUser (dev.msgLen dev.msgIdxRd) fault with ⟨ret, stored, fifo⟩
    rw [hcopy] at hr
    cases hr
    have hready : readStep signal fault ⟨dev, cb, .wait⟩ = some (.silent, ⟨dev, cb, .loadLen⟩) :=
      if_neg hempty
    have hload : readStep signal fault ⟨dev, cb, .loadLen⟩ =
      some (.loaded, ⟨dev, cb, .kfifoToUser (dev.msgLen dev.msgIdxRd)⟩) := rfl
    have htoUser : readStep signal fault ⟨dev, cb, .kfifoToUser (dev.msgLen dev.msgIdxRd)⟩ =
        some (.copied fault stored, ⟨{ dev with msgFifo := fifo }, cb,
          .storeIdxRd (if ret ≠ 0 then ret else stored.length) stored⟩) := by
      simp only [readStep, hcopy]
    exact ⟨_, .cons (.reads nonblock rfl) (.cons (.read signal fault hwait)
      (.cons (.read signal fault hready) (.cons (.read signal fault hload)
        (.cons (.read signal fault htoUser) (.cons (.read signal fault rfl) (.nil _))))))⟩

/-! ## The bytes -/

/-- The bytes a step puts into the queue. -/
def QueueLabel.bytesIn : QueueLabel → Message
  | .put stored => stored
  | _ => []

/-- The bytes a step hands to user space. -/
def QueueLabel.bytesOut : QueueLabel → Message
  | .copied _ stored => stored
  | _ => []

theorem Kfifo.toUser_conserves (f : Kfifo) (len : Nat) (fault : Option Nat) :
    (f.toUser len fault).2.1 ++ (f.toUser len fault).2.2.data = f.data := by
  unfold Kfifo.toUser
  cases fault with
  | none => exact List.take_append_drop _ _
  | some k =>
    dsimp only
    split
    · exact List.take_append_drop _ _
    · exact List.take_append_drop _ _

theorem QueueStep.bytes {s s' : QueueState} {e : QueueLabel} (h : QueueStep s e s') :
    s.dev.msgFifo.data ++ e.bytesIn = e.bytesOut ++ s'.dev.msgFifo.data := by
  cases h with
  | called data _ => exact List.append_nil _
  | reads nonblock _ => exact List.append_nil _
  | cb hstep =>
    obtain ⟨dev, cb, read⟩ := s
    cases cb with
    | returned => cases hstep
    | kfifoIn data =>
      cases hstep
      rfl
    | kfifoAvail data | tableFull data =>
      simp only [cbStep] at hstep
      split at hstep <;> cases hstep <;> exact List.append_nil _
    | storeLen data length | storeIdxWr =>
      cases hstep
      exact List.append_nil _
  | read signal fault hstep =>
    obtain ⟨dev, cb, read⟩ := s
    cases read with
    | returned => cases hstep
    | isEmpty nonblock =>
      simp only [readStep] at hstep
      split at hstep <;> cases hstep <;> exact List.append_nil _
    | wait =>
      simp only [readStep] at hstep
      split at hstep
      · split at hstep <;> cases hstep
        exact List.append_nil _
      · cases hstep
        exact List.append_nil _
    | kfifoToUser len =>
      cases hstep
      exact (List.append_nil _).trans (dev.msgFifo.toUser_conserves len fault).symm
    | loadLen | storeIdxRd ret stored =>
      cases hstep
      exact List.append_nil _

/-- **No byte is lost, whatever the order of the steps**: what was put into the queue is
what user space was handed, and what is still there. -/
theorem bytes_conserved {es : List QueueLabel} {s : QueueState} (h : Run QueueStep .idle es s) :
    es.flatMap QueueLabel.bytesIn = es.flatMap QueueLabel.bytesOut ++ s.dev.msgFifo.data := by
  refine h.history (P := fun es s =>
    es.flatMap QueueLabel.bytesIn = es.flatMap QueueLabel.bytesOut ++ s.dev.msgFifo.data) rfl ?_
  intro past t e t' _ ih hstep
  rw [List.flatMap_append, List.flatMap_append, ih, List.append_assoc, List.append_assoc]
  simpa using hstep.bytes

/-! ## The messages -/

/-- A message that rpmsg can deliver. -/
def Deliverable (data : Message) : Prop := 1 ≤ data.length ∧ data.length ≤ fifoMsgSize

namespace CbPc

/-- The bytes in the queue whose length is not in the table. -/
def pending : CbPc → Message
  | .storeLen data _ => data
  | _ => []

/-- The slot behind the lengths that are stored. -/
def idxWr (msgIdxWr : Fin maxFifoMsg) : CbPc → Fin maxFifoMsg
  | .storeIdxWr => advance msgIdxWr 1
  | _ => msgIdxWr

/-- What a callback has found out. -/
def Knows (ms : List Message) : CbPc → Prop
  | .returned | .storeIdxWr => True
  | .kfifoAvail data | .tableFull data => Deliverable data
  | .kfifoIn data => Deliverable data ∧ ms.length < maxUnread
  | .storeLen data length => Deliverable data ∧ ms.length < maxUnread ∧ length = data.length

end CbPc

namespace ReadPc

/-- The bytes taken off the queue whose length is still in the table. -/
def taken : ReadPc → Message
  | .storeIdxRd _ stored => stored
  | _ => []

/-- What a read has found out. -/
def Knows (dev : PrussApiDev) (ms : List Message) : ReadPc → Prop
  | .returned | .isEmpty _ | .wait => True
  | .loadLen => dev.msgFifo.isEmpty = false
  | .kfifoToUser len => ∃ m rest, ms = m :: rest ∧ len = m.length
  | .storeIdxRd ret stored => ∃ rest, ms = stored :: rest ∧ ret = stored.length

end ReadPc

/-- The messages a device holds, wherever the two calls are. -/
structure Carries (s : QueueState) (ms : List Message) : Prop where
  bytes : s.read.taken ++ s.dev.msgFifo.data = ms.flatten ++ s.cb.pending
  framed : Framed ms.flatten s.dev.msgLen s.dev.msgIdxRd (s.cb.idxWr s.dev.msgIdxWr) ms
  size : s.dev.msgFifo.size = maxFifoMsg * fifoMsgSize
  short : ∀ m ∈ ms, Deliverable m
  cb : s.cb.Knows ms
  read : s.read.Knows s.dev ms

/-! ### What the steps do to the messages -/

/-- A step, seen as an operation on a mailbox. -/
def QueueLabel.view : QueueLabel → Option (Mailbox.Event Message)
  | .refused data => some (.put data false)
  | .accepted data => some (.put data true)
  | .failed _ => some (.get none)
  | .returned ret stored => some (.get (if ret < 0 then none else some stored))
  | .called _ | .put _ | .reads | .loaded | .copied .. | .silent => none

/-- A step of the kind the theorem speaks about, as `FifoEvent.Regular`. -/
def QueueLabel.Regular : QueueLabel → Prop
  | .called data => Deliverable data
  | .copied fault _ => fault = none
  | _ => True

/-- The length that a read loads is that of a message: not that of the bytes a callback is
about to store, with no message before them. -/
def LengthStored (s : QueueState) : QueueLabel → Prop
  | .loaded => s.cb.pending = [] ∨ s.dev.msgIdxRd ≠ s.dev.msgIdxWr
  | _ => True

section Steps

variable {s s' : QueueState} {ms : List Message} {e : QueueLabel}

theorem Carries.bytes_le (h : Carries s ms) (hpending : s.cb.pending = []) :
    s.dev.msgFifo.data.length ≤ ms.length * fifoMsgSize := by
  have hlen := congrArg List.length h.bytes
  have hle : ∀ l ∈ ms.map List.length, l ≤ fifoMsgSize := by
    simpa using fun m hm => (h.short m hm).2
  have hsum : ms.flatten.length ≤ ms.length * fifoMsgSize := by
    simpa [List.length_flatten] using List.sum_le_card_nsmul _ _ hle
  rw [hpending, List.append_nil, List.length_append] at hlen
  omega

/-- There is always room for one more message. -/
theorem Carries.avail_ge (h : Carries s ms) (hpending : s.cb.pending = []) :
    fifoMsgSize ≤ s.dev.msgFifo.avail := by
  have hbytes := h.bytes_le hpending
  have hfree := h.framed.free
  simp only [Kfifo.avail, h.size, maxFifoMsg, fifoMsgSize, rpmsgBufSize] at *
  omega

/-- A reader that finds the queue empty has read all messages. -/
theorem Carries.nil_of_isEmpty (h : Carries s ms) (htaken : s.read.taken = [])
    (hempty : s.dev.msgFifo.isEmpty = true) : ms = [] := by
  have hbytes := h.bytes
  rw [htaken, List.nil_append, (Kfifo.isEmpty_iff _).1 hempty] at hbytes
  have hnil := List.flatten_eq_nil_iff.1 (List.append_eq_nil_iff.1 hbytes.symm).1
  refine List.eq_nil_iff_forall_not_mem.2 fun m hm => ?_
  have hpos := (h.short m hm).1
  rw [hnil m hm] at hpos
  exact absurd hpos (by decide)

theorem ReadPc.Knows.put {dev : PrussApiDev} {read : ReadPc} {data : Message}
    (h : read.Knows dev ms) :
    read.Knows { dev with msgFifo := dev.msgFifo.put data } ms := by
  cases read with
  | loadLen =>
    have hne : dev.msgFifo.data ≠ [] := by
      simpa [ReadPc.Knows, Kfifo.isEmpty] using h
    simp [ReadPc.Knows, Kfifo.isEmpty, Kfifo.put, hne]
  | _ => exact h

theorem ReadPc.Knows.append {dev dev' : PrussApiDev} {read : ReadPc} {m : Message}
    (h : read.Knows dev ms) (hfifo : dev'.msgFifo = dev.msgFifo) :
    read.Knows dev' (ms ++ [m]) := by
  cases read with
  | loadLen => exact (congrArg Kfifo.isEmpty hfifo).trans h
  | kfifoToUser len =>
    obtain ⟨m', rest, rfl, hlen⟩ := h
    exact ⟨m', rest ++ [m], rfl, hlen⟩
  | storeIdxRd ret stored =>
    obtain ⟨rest, rfl, hret⟩ := h
    exact ⟨rest ++ [m], rfl, hret⟩
  | _ => exact h

theorem CbPc.Knows.tail {cb : CbPc} {m : Message} (h : cb.Knows (m :: ms)) : cb.Knows ms := by
  cases cb with
  | kfifoIn data => exact ⟨h.1, (Nat.lt_succ_self _).trans h.2⟩
  | storeLen data length => exact ⟨h.1, (Nat.lt_succ_self _).trans h.2.1, h.2.2⟩
  | _ => exact h

/-- A step of the callback. -/
theorem Carries.cbStep (h : Carries s ms) (hstep : cbStep s = some (e, s')) :
    ∃ ms', Run (Mailbox.Step maxUnread) ms e.view.toList ms' ∧ Carries s' ms' := by
  obtain ⟨dev, cb, read⟩ := s
  cases cb with
  | returned => cases hstep
  | kfifoAvail data =>
    have hdata : Deliverable data := h.cb
    have hroom : ¬ dev.msgFifo.avail < data.length := Nat.not_lt.2 (hdata.2.trans (h.avail_ge rfl))
    cases (if_neg hroom).symm.trans hstep
    exact ⟨ms, .nil _, h.bytes, h.framed, h.size, h.short, hdata, h.read⟩
  | tableFull data =>
    have hdata : Deliverable data := h.cb
    have hiff : advance dev.msgIdxWr 1 = dev.msgIdxRd ↔ ms.length + 1 = maxFifoMsg :=
      h.framed.full_iff
    have hfree := h.framed.free
    by_cases hfull : advance dev.msgIdxWr 1 = dev.msgIdxRd
    · cases (if_pos hfull).symm.trans hstep
      have hlen : ms.length = maxUnread := Nat.eq_sub_of_add_eq (hiff.1 hfull)
      exact ⟨ms, .cons (.refuse data hlen) (.nil _), h.bytes, h.framed, h.size, h.short, trivial,
        h.read⟩
    · cases (if_neg hfull).symm.trans hstep
      have hlt : ms.length < maxUnread := by
        have hne := mt hiff.2 hfull
        simp only [maxUnread] at *
        omega
      exact ⟨ms, .nil _, h.bytes, h.framed, h.size, h.short, ⟨hdata, hlt⟩, h.read⟩
  | kfifoIn data =>
    obtain ⟨hdata, hlt⟩ : Deliverable data ∧ ms.length < maxUnread := h.cb
    have hroom : data.length ≤ dev.msgFifo.avail := hdata.2.trans (h.avail_ge rfl)
    cases hstep
    refine ⟨ms, .nil _, ?_, h.framed, h.size, h.short, ⟨hdata, hlt, Nat.min_eq_left hroom⟩,
      h.read.put⟩
    have hbytes : read.taken ++ dev.msgFifo.data = ms.flatten ++ [] := h.bytes
    change read.taken ++ (dev.msgFifo.put data).data = ms.flatten ++ data
    rw [Kfifo.put_data hroom, ← List.append_assoc, hbytes, List.append_nil]
  | storeLen data length =>
    obtain ⟨hdata, hlt, rfl⟩ : Deliverable data ∧ ms.length < maxUnread ∧ length = data.length :=
      h.cb
    cases hstep
    have hroom : ms.length + 1 < maxFifoMsg := by
      simp only [maxUnread] at hlt
      omega
    have hflat : (ms ++ [data]).flatten = ms.flatten ++ data := by simp
    have hpush := h.framed.push data hroom
    rw [← hflat] at hpush
    refine ⟨ms ++ [data], .cons (.accept data hlt) (.nil _), ?_, hpush, h.size, ?_, trivial,
      h.read.append rfl⟩
    · rw [hflat]
      exact h.bytes.trans (List.append_nil _).symm
    · intro m hm
      rcases List.mem_append.1 hm with hm | hm
      · exact h.short m hm
      · rw [List.mem_singleton.1 hm]
        exact hdata
  | storeIdxWr =>
    cases hstep
    refine ⟨ms, .nil _, h.bytes, h.framed, h.size, h.short, trivial, ?_⟩
    cases read <;> exact h.read

/-- The length of a message is loaded. -/
theorem Carries.loads {dev : PrussApiDev} {cb : CbPc} (h : Carries ⟨dev, cb, .loadLen⟩ ms)
    (hstored : cb.pending = [] ∨ dev.msgIdxRd ≠ dev.msgIdxWr) :
    ∃ m rest, ms = m :: rest ∧ dev.msgLen dev.msgIdxRd = m.length := by
  cases ms with
  | cons m rest => exact ⟨m, rest, rfl, h.framed.head⟩
  | nil =>
    exfalso
    by_cases hpending : cb.pending = []
    · have hempty : dev.msgFifo.isEmpty = false := h.read
      have hdata : dev.msgFifo.data = [] := by simpa [ReadPc.taken, hpending] using h.bytes
      rw [(Kfifo.isEmpty_iff _).2 hdata] at hempty
      cases hempty
    · have hidx : cb.idxWr dev.msgIdxWr = dev.msgIdxWr := by
        cases cb <;> first | rfl | exact absurd rfl hpending
      have hlast := h.framed.last
      rw [hidx, List.length_nil, advance_zero] at hlast
      exact hstored.resolve_left hpending hlast.symm

/-- A step of the read. -/
theorem Carries.readStep {signal : Bool} {fault : Option Nat} (h : Carries s ms)
    (hok : e.Regular) (hstored : LengthStored s e)
    (hstep : readStep signal fault s = some (e, s')) :
    ∃ ms', Run (Mailbox.Step maxUnread) ms e.view.toList ms' ∧ Carries s' ms' := by
  obtain ⟨dev, cb, read⟩ := s
  cases read with
  | returned => cases hstep
  | isEmpty nonblock =>
    by_cases hagain : (dev.msgFifo.isEmpty && nonblock) = true
    · cases (if_pos hagain).symm.trans hstep
      obtain rfl := h.nil_of_isEmpty rfl (Bool.and_eq_true_iff.1 hagain).1
      exact ⟨[], .cons .nothing (.nil _), h.bytes, h.framed, h.size, h.short, h.cb, trivial⟩
    · cases (if_neg hagain).symm.trans hstep
      exact ⟨ms, .nil _, h.bytes, h.framed, h.size, h.short, h.cb, trivial⟩
  | wait =>
    by_cases hempty : dev.msgFifo.isEmpty = true
    · have hstep := (if_pos hempty).symm.trans hstep
      cases signal with
      | false => cases hstep
      | true =>
        cases hstep
        obtain rfl := h.nil_of_isEmpty rfl hempty
        exact ⟨[], .cons .nothing (.nil _), h.bytes, h.framed, h.size, h.short, h.cb, trivial⟩
    · cases (if_neg hempty).symm.trans hstep
      exact ⟨ms, .nil _, h.bytes, h.framed, h.size, h.short, h.cb,
        Bool.eq_false_iff.2 hempty⟩
  | loadLen =>
    cases hstep
    exact ⟨ms, .nil _, h.bytes, h.framed, h.size, h.short, h.cb, h.loads hstored⟩
  | kfifoToUser len =>
    obtain ⟨m, rest, rfl, rfl⟩ : ∃ m rest, ms = m :: rest ∧ len = m.length := h.read
    -- the queue begins with the whole of the message
    have hdata : dev.msgFifo.data = m ++ (rest.flatten ++ cb.pending) := by
      simpa [ReadPc.taken] using h.bytes
    have hcopy : dev.msgFifo.toUser m.length none = (0, m, dev.msgFifo.drop m.length) := by
      simp [Kfifo.toUser, hdata]
    have hfault : fault = none := by
      cases hstep
      exact hok
    rw [hfault] at hstep
    simp only [Driver.readStep, hcopy] at hstep
    cases hstep
    refine ⟨m :: rest, .nil _, ?_, h.framed, h.size, h.short, h.cb, rest, rfl, rfl⟩
    change m ++ dev.msgFifo.data.drop m.length = (m :: rest).flatten ++ cb.pending
    rw [hdata, List.drop_left, List.flatten_cons, List.append_assoc]
  | storeIdxRd ret stored =>
    obtain ⟨rest, rfl, rfl⟩ : ∃ rest, ms = stored :: rest ∧ ret = stored.length := h.read
    cases hstep
    have hpop := h.framed.pop
    rw [show dev.msgLen dev.msgIdxRd = stored.length from h.framed.head, List.flatten_cons,
      List.drop_left] at hpop
    have hbytes : stored ++ dev.msgFifo.data = stored ++ (rest.flatten ++ cb.pending) := by
      simpa [ReadPc.taken] using h.bytes
    have hview : (QueueLabel.returned stored.length stored).view = some (.get (some stored)) :=
      congrArg (fun r => some (Mailbox.Event.get r)) (if_neg (Int.not_lt.2 (Int.natCast_nonneg _)))
    rw [hview]
    exact ⟨rest, .cons (.deliver stored rest) (.nil _), List.append_cancel_left hbytes, hpop,
      h.size, fun m hm => h.short m (List.mem_cons_of_mem _ hm), h.cb.tail, trivial⟩

end Steps

/-! ## Runs -/

theorem carries_idle : Carries .idle [] where
  bytes := rfl
  framed := Framed.empty _ _
  size := rfl
  short := nofun
  cb := trivial
  read := trivial

/-- A call that begins changes no message. -/
theorem Carries.step {s s' : QueueState} {ms : List Message} {e : QueueLabel} (h : Carries s ms)
    (hok : e.Regular) (hstep : Guarded LengthStored QueueStep s e s') :
    ∃ ms', Run (Mailbox.Step maxUnread) ms e.view.toList ms' ∧ Carries s' ms' := by
  obtain ⟨hstored, hstep⟩ := hstep
  cases hstep with
  | cb hstep => exact h.cbStep hstep
  | read signal fault hstep => exact h.readStep hok hstored hstep
  | called data hcb =>
    obtain ⟨dev, cb, read⟩ := s
    cases hcb
    exact ⟨ms, .nil _, h.bytes, h.framed, h.size, h.short, hok, h.read⟩
  | reads nonblock hread =>
    obtain ⟨dev, cb, read⟩ := s
    cases hread
    exact ⟨ms, .nil _, h.bytes, h.framed, h.size, h.short, h.cb, trivial⟩

/-- **Callbacks and reads are operations on a mailbox of 31 messages, wherever one is called
in the middle of the other**, unless a read loads a length that is not stored.  A message is
in the mailbox when its length is stored, and out of it when the read returns. -/
theorem interleaving_refines {es : List QueueLabel} {s : QueueState}
    (hrun : Run (Guarded LengthStored QueueStep) .idle es s) (hok : ∀ e ∈ es, e.Regular) :
    ∃ unread, Mailbox.Run maxUnread [] (es.filterMap QueueLabel.view) unread ∧
      (s.cb = .returned → s.read = .returned → Holds s.dev unread) := by
  obtain ⟨unread, hmail, h⟩ := hrun.simulates_view (Mailbox.Step maxUnread)
    (fun _ _ _ _ hok h hstep => h.step hok hstep) hok carries_idle
  refine ⟨unread, hmail, fun hcb hread => ⟨?_, h.size, h.short⟩⟩
  have hbytes := h.bytes
  have hframed := h.framed
  rw [hcb, hread] at hbytes
  rw [hcb] at hframed
  have hdata : s.dev.msgFifo.data = unread.flatten := hbytes.trans (List.append_nil _)
  rw [hdata]
  exact hframed

/-- Two messages, each of which is read between the store of its length and that of the
index; the second one arrives while the first is copied. -/
def overlap : List QueueLabel :=
  [.called [7], .silent, .silent, .put [7], .reads, .silent, .accepted [7], .silent, .loaded,
    .silent, .called [8, 9], .silent, .silent, .copied none [7], .put [8, 9], .returned 1 [7],
    .accepted [8, 9], .reads, .silent, .silent, .loaded, .copied none [8, 9], .silent,
    .returned 2 [8, 9]]

theorem interleaving_refines_overlap :
    ∃ s unread, Run (Guarded LengthStored QueueStep) .idle overlap s ∧
      Mailbox.Run maxUnread [] (overlap.filterMap QueueLabel.view) unread ∧
      Holds s.dev unread := by
  obtain ⟨s, hrun, hcb, hread⟩ : ∃ s, Run (Guarded LengthStored QueueStep) .idle overlap s ∧
      s.cb = .returned ∧ s.read = .returned :=
    ⟨_, .cons ⟨trivial, .called _ rfl⟩ <| .cons ⟨trivial, .cb rfl⟩ <| .cons ⟨trivial, .cb rfl⟩ <|
      .cons ⟨trivial, .cb rfl⟩ <| .cons ⟨trivial, .reads true rfl⟩ <|
      .cons ⟨trivial, .read false none rfl⟩ <| .cons ⟨trivial, .cb rfl⟩ <|
      .cons ⟨trivial, .read false none rfl⟩ <| .cons ⟨.inl rfl, .read false none rfl⟩ <|
      .cons ⟨trivial, .cb rfl⟩ <| .cons ⟨trivial, .called _ rfl⟩ <| .cons ⟨trivial, .cb rfl⟩ <|
      .cons ⟨trivial, .cb rfl⟩ <| .cons ⟨trivial, .read false none rfl⟩ <|
      .cons ⟨trivial, .cb rfl⟩ <| .cons ⟨trivial, .read false none rfl⟩ <|
      .cons ⟨trivial, .cb rfl⟩ <| .cons ⟨trivial, .reads true rfl⟩ <|
      .cons ⟨trivial, .read false none rfl⟩ <| .cons ⟨trivial, .read false none rfl⟩ <|
      .cons ⟨.inl rfl, .read false none rfl⟩ <| .cons ⟨trivial, .read false none rfl⟩ <|
      .cons ⟨trivial, .cb rfl⟩ <| .cons ⟨trivial, .read false none rfl⟩ <| .nil _, rfl, rfl⟩
  obtain ⟨unread, hmail, hholds⟩ := interleaving_refines hrun
    (by simp [overlap, QueueLabel.Regular, Deliverable, fifoMsgSize, rpmsgBufSize])
  exact ⟨s, unread, hrun, hmail, hholds hcb hread⟩

/-- A read that is faster than the callback finds a byte and no length: it returns
nothing, and takes the slot of the message. -/
theorem length_not_stored : ¬ ∀ es s, Run QueueStep .idle es s → (∀ e ∈ es, e.Regular) →
    ∃ unread, Mailbox.Run maxUnread [] (es.filterMap QueueLabel.view) unread := by
  intro h
  let es : List QueueLabel := [.called [7], .silent, .silent, .put [7], .reads, .silent, .silent,
    .loaded, .copied none [], .returned 0 []]
  have hrun : ∃ s, Run QueueStep .idle es s :=
    ⟨_, .cons (.called _ rfl) <| .cons (.cb rfl) <| .cons (.cb rfl) <| .cons (.cb rfl) <|
      .cons (.reads true rfl) <| .cons (.read false none rfl) <| .cons (.read false none rfl) <|
      .cons (.read false none rfl) <| .cons (.read false none rfl) <|
      .cons (.read false none rfl) <| .nil _⟩
  obtain ⟨s, hrun⟩ := hrun
  obtain ⟨unread, hmail⟩ := h es s hrun
    (by simp [es, QueueLabel.Regular, Deliverable, fifoMsgSize, rpmsgBufSize])
  -- the mailbox has no message to give out
  obtain ⟨ms, hstep, -⟩ := run_cons_iff.1 hmail
  cases hstep

end Driver
