import PrussBindings.Driver.Device
import PrussBindings.Lib.Mailbox

/-!
# The message queue of a device over whole runs

Every message a PRU sends goes through `pruss_api_cb`, every message user space
receives through `pruss_api_read`, in any order and any number of times.  The
abstract behaviour of the pair is `Mailbox.Step 31`: a mailbox of 31 messages,
one less than the length table has slots.

* `Queued dev ms` — the framing invariant of `Ring.Framed` between `msg_fifo` and
  `msg_len`, and `Holds dev ms` — the same for messages that fit an rpmsg buffer.
* `prussApiCb_spec`, `prussApiRead_cons`, `prussApiRead_empty` — what one call
  does to a device that holds `ms`.
* `FifoStep.simulates` — one call on the device is one operation on the mailbox,
  and `fifo_run_refines` — **a run of the device is a run of the mailbox**.
* `fifo_run_correct` — the consequences for user space: nothing lost,
  duplicated, merged or reordered, and a message refused only when 31 others
  wait.
-/

namespace Driver

open Errno Ring Transition

/-! ## The invariant -/

/-- The most messages a device holds: one slot of the length table stays free. -/
def maxUnread : Nat := maxFifoMsg - 1

/-- The device holds the unread messages `ms`, of whatever lengths. -/
abbrev Queued (dev : PrussApiDev) (ms : List Message) : Prop :=
  Framed dev.msgFifo.data dev.msgLen dev.msgIdxRd dev.msgIdxWr ms

theorem queued_probed : Queued .probed [] := Framed.empty _ _

/-- The whole of the oldest message is there to be copied. -/
theorem Queued.min_head {dev : PrussApiDev} {m : Message} {ms : List Message}
    (h : Queued dev (m :: ms)) :
    min (dev.msgLen dev.msgIdxRd) dev.msgFifo.data.length = dev.msgLen dev.msgIdxRd := by
  rw [h.head, h.bytes]
  simp

/-- The device holds the unread messages `ms`, none of them longer than an
rpmsg buffer. -/
structure Holds (dev : PrussApiDev) (ms : List Message) : Prop where
  framed : Framed dev.msgFifo.data dev.msgLen dev.msgIdxRd dev.msgIdxWr ms
  size : dev.msgFifo.size = maxFifoMsg * fifoMsgSize
  short : ∀ m ∈ ms, 1 ≤ m.length ∧ m.length ≤ fifoMsgSize

theorem holds_probed : Holds .probed [] :=
  ⟨Framed.empty _ _, rfl, by simp⟩

namespace Holds

variable {dev : PrussApiDev} {ms : List Message}

theorem length_le (h : Holds dev ms) : ms.length ≤ maxUnread := by
  have := h.framed.free
  simp only [maxUnread]
  omega

/-- The queued bytes are bounded by the number of unread messages. -/
theorem bytes_le (h : Holds dev ms) : dev.msgFifo.data.length ≤ ms.length * fifoMsgSize := by
  rw [h.framed.bytes, List.length_flatten]
  have hle : ∀ l ∈ ms.map List.length, l ≤ fifoMsgSize := by
    simpa using fun m hm => (h.short m hm).2
  simpa using List.sum_le_card_nsmul _ _ hle

/-- **There is always room for one more message**: even 31 messages of full
length leave a message's worth of bytes free. -/
theorem avail_ge (h : Holds dev ms) : fifoMsgSize ≤ dev.msgFifo.avail := by
  have hbytes := h.bytes_le
  have hmany : ms.length * fifoMsgSize ≤ maxUnread * fifoMsgSize :=
    Nat.mul_le_mul_right _ h.length_le
  simp only [Kfifo.avail, h.size, maxUnread, maxFifoMsg, fifoMsgSize, rpmsgBufSize] at *
  omega

/-- The queue is empty exactly when no message is unread. -/
theorem isEmpty_iff (h : Holds dev ms) : dev.msgFifo.isEmpty = true ↔ ms = [] := by
  rw [Kfifo.isEmpty_iff, h.framed.bytes, List.flatten_eq_nil_iff]
  constructor
  · intro hnil
    refine List.eq_nil_iff_forall_not_mem.2 fun m hm => ?_
    have := (h.short m hm).1
    rw [hnil m hm] at this
    simp at this
  · rintro rfl
    simp

end Holds

/-! ## One call -/

/-- What `pruss_api_cb` does with a message of at most 512 bytes: it queues it
unless 31 messages are unread. -/
theorem prussApiCb_spec {dev : PrussApiDev} {ms : List Message} {m : Message} (h : Holds dev ms)
    (hpos : 1 ≤ m.length) (hm : m.length ≤ fifoMsgSize) :
    ms.length = maxUnread ∧
        prussApiCb dev m = ⟨-ENOSPC, [], some "Message length table is full\n", dev⟩ ∨
      ms.length < maxUnread ∧
        ∃ dev', prussApiCb dev m = ⟨0, [], none, dev'⟩ ∧ Holds dev' (ms ++ [m]) := by
  have havail : m.length ≤ dev.msgFifo.avail := hm.trans h.avail_ge
  have hfull := h.framed.full_iff
  have hle := h.length_le
  rw [prussApiCb, if_neg (by omega)]
  by_cases hadv : advance dev.msgIdxWr 1 = dev.msgIdxRd
  · have hN := hfull.1 hadv
    exact .inl ⟨by simp only [maxUnread]; omega, if_pos hadv⟩
  · have hne : ms.length + 1 ≠ maxFifoMsg := fun hN => hadv (hfull.2 hN)
    have hlt : ms.length < maxUnread := by simp only [maxUnread] at *; omega
    refine .inr ⟨hlt, _, if_neg hadv, ?_, h.size, ?_⟩
    · have hpush := h.framed.push m (by simp only [maxUnread] at hlt; omega)
      rwa [← Kfifo.put_data havail, ← Nat.min_eq_left havail] at hpush
    · intro x hx
      rcases List.mem_append.1 hx with hx | hx
      · exact h.short x hx
      · rw [List.mem_singleton.1 hx]
        exact ⟨hpos, hm⟩

/-- What `pruss_api_read` does on a device with an unread message: it hands the
oldest one over, whole. -/
theorem prussApiRead_cons {dev : PrussApiDev} {m : Message} {ms : List Message}
    (h : Holds dev (m :: ms)) (nonblock signal : Bool) (count : Nat) :
    ∃ dev', prussApiRead dev nonblock signal count none = some ⟨m.length, m, none, dev'⟩ ∧
      Holds dev' ms := by
  have hne : dev.msgFifo.isEmpty = false := by
    rw [← Bool.not_eq_true, h.isEmpty_iff]
    simp
  have hlen := Queued.min_head h.framed
  have htake := h.framed.take
  refine ⟨{ dev with
    msgFifo := dev.msgFifo.drop (dev.msgLen dev.msgIdxRd)
    msgIdxRd := advance dev.msgIdxRd 1 }, ?_, h.framed.pop, h.size, ?_⟩
  · simp [prussApiRead, hne, Kfifo.toUser, hlen, htake]
  · exact fun x hx => h.short x (List.mem_cons_of_mem _ hx)

/-- A read of an empty queue fails, if it returns, and stores nothing. -/
theorem prussApiRead_empty {dev : PrussApiDev} (hbytes : dev.msgFifo.isEmpty = true)
    {nonblock signal : Bool} {count : Nat} {fault : Option Nat} {r : FopRet}
    (hr : prussApiRead dev nonblock signal count fault = some r) :
    r.ret < 0 ∧ r.stored = [] ∧ r.dev = dev := by
  simp only [prussApiRead, hbytes, Bool.true_and, if_true] at hr
  split_ifs at hr <;> cases hr <;> exact ⟨by norm_num [EAGAIN, EINTR], rfl, rfl⟩

/-! ## Runs -/

/-- A call on the message queue of a device. -/
inductive FifoCall where
  | cb (data : Message)
  | read (nonblock signal : Bool) (count : Nat) (fault : Option Nat)

/-- The results of a call that its caller sees. -/
structure FifoRet where
  ret : Int
  stored : Message
  log : Option String

/-- A call and what came of it. -/
abbrev FifoEvent := FifoCall × FifoRet

/-- One call on a device returns.  A read that sleeps is no step. -/
inductive FifoStep : PrussApiDev → FifoEvent → PrussApiDev → Prop where
  | cb {dev : PrussApiDev} {data : Message} {r : FopRet} (h : prussApiCb dev data = r) :
      FifoStep dev (.cb data, ⟨r.ret, r.stored, r.log⟩) r.dev
  | read {dev : PrussApiDev} {nonblock signal : Bool} {count : Nat} {fault : Option Nat}
      {r : FopRet} (h : prussApiRead dev nonblock signal count fault = some r) :
      FifoStep dev (.read nonblock signal count fault, ⟨r.ret, r.stored, r.log⟩) r.dev

/-- Runs of calls on one device. -/
abbrev FifoRun : PrussApiDev → List FifoEvent → PrussApiDev → Prop := Run FifoStep

/-- A call of the kind the whole-run theorems speak about: messages of 1 to 512
bytes, and no copy to user space that faults. -/
def FifoEvent.Regular : FifoEvent → Prop
  | (.cb data, _) => 1 ≤ data.length ∧ data.length ≤ fifoMsgSize
  | (.read _ _ _ fault, _) => fault = none

/-- A call on the device, seen as an operation on a mailbox. -/
def FifoEvent.view : FifoEvent → Mailbox.Event Message
  | (.cb data, r) => .put data (decide (r.ret = 0))
  | (.read .., r) => .get (if r.ret < 0 then none else some r.stored)

/-- **One call on the device is one operation on a mailbox of 31 messages.** -/
theorem FifoStep.simulates {dev dev' : PrussApiDev} {ms : List Message} {e : FifoEvent}
    (hok : e.Regular) (h : Holds dev ms) (hstep : FifoStep dev e dev') :
    ∃ ms', Mailbox.Step maxUnread ms e.view ms' ∧ Holds dev' ms' := by
  cases hstep with
  | @cb data r hr =>
    obtain ⟨hpos, hm⟩ := hok
    obtain ⟨hfull, hcb⟩ | ⟨hlt, dev', hcb, hholds⟩ := prussApiCb_spec h hpos hm
    · rw [hcb] at hr
      subst hr
      exact ⟨ms, .refuse data hfull, h⟩
    · rw [hcb] at hr
      subst hr
      exact ⟨ms ++ [data], .accept data hlt, hholds⟩
  | @read nonblock signal count fault r hr =>
    cases ms with
    | nil =>
      obtain ⟨hneg, -, hdev⟩ := prussApiRead_empty (h.isEmpty_iff.2 rfl) hr
      refine ⟨[], ?_, hdev ▸ h⟩
      simpa only [FifoEvent.view, if_pos hneg] using Mailbox.Step.nothing
    | cons m ms =>
      cases hok
      obtain ⟨dev', hread, hholds⟩ := prussApiRead_cons h nonblock signal count
      rw [hread] at hr
      cases hr
      refine ⟨ms, ?_, hholds⟩
      have hnn : ¬ ((m.length : Int) < 0) := by omega
      simpa only [FifoEvent.view, if_neg hnn] using Mailbox.Step.deliver m ms

/-- **A run of the device is a run of the mailbox.** -/
theorem fifo_run_refines {es : List FifoEvent} {dev dev' : PrussApiDev} {ms : List Message}
    (hrun : FifoRun dev es dev') (hok : ∀ e ∈ es, e.Regular) (h : Holds dev ms) :
    ∃ ms', Mailbox.Run maxUnread ms (es.map FifoEvent.view) ms' ∧ Holds dev' ms' := by
  obtain ⟨ms', hrun', hholds⟩ :=
    hrun.simulates (fun ms e ms' => Mailbox.Step maxUnread ms (FifoEvent.view e) ms')
      (fun _ _ _ _ hok h hstep => hstep.simulates hok h) hok h
  exact ⟨ms', hrun'.map, hholds⟩

/-! ## What user space can rely on -/

/-- The messages a history of calls let in. -/
def acceptedMsgs (es : List FifoEvent) : List Message :=
  es.filterMap fun
    | (.cb data, r) => if r.ret = 0 then some data else none
    | _ => none

/-- The results of the reads of a history that did not fail. -/
def readMsgs (es : List FifoEvent) : List Message :=
  es.filterMap fun
    | (.read .., r) => if r.ret < 0 then none else some r.stored
    | _ => none

theorem acceptedMsgs_eq (es : List FifoEvent) :
    acceptedMsgs es = Mailbox.accepted (es.map FifoEvent.view) := by
  rw [acceptedMsgs, Mailbox.accepted, List.filterMap_map]
  refine List.filterMap_congr fun e _ => ?_
  obtain ⟨data | _, r⟩ := e
  · by_cases h : r.ret = 0 <;> simp [FifoEvent.view, h]
  · rfl

theorem readMsgs_eq (es : List FifoEvent) :
    readMsgs es = Mailbox.delivered (es.map FifoEvent.view) := by
  rw [readMsgs, Mailbox.delivered, List.filterMap_map]
  refine List.filterMap_congr fun e _ => ?_
  obtain ⟨data | _, r⟩ := e <;> rfl

/-- What a call returns when the messages `unread` wait: a callback refuses its
message when there are 31 of them; a read hands over the first of them, whole, and
fails only where there is none. -/
def FifoEvent.Answers (unread : List Message) : FifoEvent → Prop
  | (.cb _, r) => r = if unread.length = 31
      then ⟨-ENOSPC, [], some "Message length table is full\n"⟩ else ⟨0, [], none⟩
  | (.read nonblock _ _ _, r) => r = match unread with
    | [] => ⟨if nonblock then -EAGAIN else -EINTR, [], none⟩
    | m :: _ => ⟨m.length, m, none⟩

/-- **One call on a device that holds `ms`** returns what it should. -/
theorem FifoStep.answers {dev dev' : PrussApiDev} {ms : List Message} {e : FifoEvent}
    (hok : e.Regular) (h : Holds dev ms) (hstep : FifoStep dev e dev') : e.Answers ms := by
  cases hstep with
  | @cb data r hr =>
    subst hr
    obtain ⟨hfull, hcb⟩ | ⟨hlt, dev', hcb, -⟩ := prussApiCb_spec h hok.1 hok.2
    · rw [hcb]
      exact (if_pos hfull).symm
    · rw [hcb]
      exact (if_neg (Nat.ne_of_lt hlt)).symm
  | @read nonblock signal count fault r hr =>
    cases ms with
    | nil =>
      have hempty := h.isEmpty_iff.2 rfl
      simp only [prussApiRead, hempty, Bool.true_and, if_true] at hr
      split_ifs at hr with hnonblock hsignal
      · cases hr
        simp [FifoEvent.Answers, hnonblock]
      · cases hr
        simp [FifoEvent.Answers, hnonblock]
    | cons m ms =>
      cases hok
      obtain ⟨dev', hread, -⟩ := prussApiRead_cons h nonblock signal count
      rw [hread] at hr
      cases hr
      rfl

/-- The messages that wait after a run are those that were let in and not read. -/
theorem unread_of_run {es : List FifoEvent} {dev : PrussApiDev} (hrun : FifoRun .probed es dev)
    (hok : ∀ e ∈ es, e.Regular) :
    ∃ unread, acceptedMsgs es = readMsgs es ++ unread ∧ Holds dev unread := by
  obtain ⟨unread, hmail, h⟩ := fifo_run_refines hrun hok holds_probed
  have hcons := hmail.conserves
  rw [List.nil_append, ← acceptedMsgs_eq, ← readMsgs_eq] at hcons
  exact ⟨unread, hcons, h⟩

/-- A device on which the calls `es` were made, with the messages `unread` waiting. -/
structure Delivers (es : List FifoEvent) (dev : PrussApiDev) (unread : List Message) : Prop where
  /-- The byte queue and the circular length table hold exactly these messages. -/
  bytes : dev.msgFifo.data = unread.flatten
  lengths : ring dev.msgLen dev.msgIdxRd unread.length = unread.map List.length
  last : dev.msgIdxWr = advance dev.msgIdxRd unread.length
  free : unread.length < maxFifoMsg
  /-- The reads returned the other accepted messages, once each and in order. -/
  delivered : acceptedMsgs es = readMsgs es ++ unread
  /-- Every call returned what it should, for the messages that waited then. -/
  answers : ∀ past e rest, es = past ++ e :: rest →
    ∃ waiting, acceptedMsgs past = readMsgs past ++ waiting ∧ e.Answers waiting
  /-- The next callback finds room for its bytes, and changes nothing if it refuses. -/
  room : ∀ m : Message, 1 ≤ m.length → m.length ≤ 512 → ¬ dev.msgFifo.avail < m.length
  refused : ∀ m : Message, 1 ≤ m.length → m.length ≤ 512 →
    ((prussApiCb dev m).ret ≠ 0 ↔ unread.length = 31) ∧
      ((prussApiCb dev m).ret ≠ 0 → (prussApiCb dev m).dev = dev)

/-- **The message queue over whole runs.**  After any run of callbacks and
reads on a freshly probed device there is a list of unread messages such that
the byte queue and the circular length table hold exactly these messages; the
reads returned the accepted messages, whole, once each and in order, and failed
only while none was unread; and the next callback finds room in the byte queue,
refuses its message exactly when 31 messages are unread, and then changes
nothing. -/
theorem fifo_run_correct {es : List FifoEvent} {dev : PrussApiDev}
    (hrun : FifoRun .probed es dev) (hok : ∀ e ∈ es, e.Regular) :
    ∃ unread, Delivers es dev unread := by
  obtain ⟨unread, hdelivered, h⟩ := unread_of_run hrun hok
  refine ⟨unread, {
    bytes := h.framed.bytes
    lengths := h.framed.lengths
    last := h.framed.last
    free := h.framed.free
    delivered := hdelivered
    answers := fun past e rest hes => ?_
    room := fun m _ hm => Nat.not_lt.2 (hm.trans h.avail_ge)
    refused := fun m hpos hm => ?_ }⟩
  · subst hes
    obtain ⟨before, hpast, hrest⟩ := run_append_iff.1 hrun
    obtain ⟨after, hstep, -⟩ := run_cons_iff.1 hrest
    obtain ⟨waiting, hwaiting, hbefore⟩ :=
      unread_of_run hpast fun e he => hok e (List.mem_append_left _ he)
    have he : e.Regular := hok e (List.mem_append_right _ (List.mem_cons_self ..))
    exact ⟨waiting, hwaiting, hstep.answers he hbefore⟩
  · obtain ⟨hfull, hcb⟩ | ⟨hlt, dev', hcb, -⟩ := prussApiCb_spec h hpos hm
    · rw [hcb]
      exact ⟨iff_of_true (by norm_num [ENOSPC]) hfull, fun _ => rfl⟩
    · rw [hcb]
      exact ⟨iff_of_false (by simp) (Nat.ne_of_lt hlt), fun hne => absurd rfl hne⟩

/-- Two messages come in, the first is read, a third comes in, and the others are read;
a further read finds nothing. -/
def threeMessages : List FifoEvent :=
  [(.cb [7, 8], ⟨0, [], none⟩), (.cb [9], ⟨0, [], none⟩),
    (.read false false 512 none, ⟨2, [7, 8], none⟩), (.cb [10, 11, 12], ⟨0, [], none⟩),
    (.read false false 512 none, ⟨1, [9], none⟩),
    (.read true false 512 none, ⟨3, [10, 11, 12], none⟩),
    (.read true false 512 none, ⟨-EAGAIN, [], none⟩)]

theorem run_threeMessages : ∃ dev, FifoRun .probed threeMessages dev :=
  ⟨_, .cons (.cb rfl) (.cons (.cb rfl) (.cons (.read (r := ⟨2, [7, 8], none, _⟩) rfl)
    (.cons (.cb rfl) (.cons (.read (r := ⟨1, [9], none, _⟩) rfl)
      (.cons (.read (r := ⟨3, [10, 11, 12], none, _⟩) rfl)
        (.cons (.read (r := ⟨-EAGAIN, [], none, _⟩) rfl) (.nil _)))))))⟩

/-- Messages of different lengths through a freshly probed device. -/
theorem fifo_run_correct_three :
    ∃ dev, FifoRun .probed threeMessages dev ∧ Delivers threeMessages dev [] := by
  obtain ⟨dev, hrun⟩ := run_threeMessages
  have hok : ∀ e ∈ threeMessages, e.Regular := by
    simp [threeMessages, FifoEvent.Regular, fifoMsgSize, rpmsgBufSize]
  obtain ⟨unread, hdelivers⟩ := fifo_run_correct hrun hok
  have hall : acceptedMsgs threeMessages = readMsgs threeMessages := by decide
  have hnone : unread = [] := List.append_right_eq_self.1 (hall ▸ hdelivers.delivered).symm
  exact ⟨dev, hrun, hnone ▸ hdelivers⟩

end Driver
