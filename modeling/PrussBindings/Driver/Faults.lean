import PrussBindings.Driver.MessageFifo

/-!
# Reads whose copy faults

`pruss_api_read` takes a message off the byte queue and its length off the
table in two statements.  `kfifo_to_user` removes only what it could copy, and
the reading index moves on whether or not it failed.

* `CopyFaults` — the copy of a call stops inside a message.
* `FifoStep.conserves` — every other call keeps the framing, and neither loses
  nor invents a message.
* `Synced` — queue and table agree on the messages still unread, and the next
  read that succeeds returns one of them.
* `not_queued_of_copyFaults` — a copy that faults leaves more bytes in the queue
  than the table accounts for.
* `fifo_synced_iff` — **a run stays in step exactly if no copy in it faults.**
-/

namespace Driver

open Errno Ring Transition

/-- The call is a read whose copy stops before the end of the message. -/
def CopyFaults (dev : PrussApiDev) : FifoCall → Prop
  | .read _ _ _ (some k) => k < min (dev.msgLen dev.msgIdxRd) dev.msgFifo.data.length
  | _ => False

/-! ## Calls whose copy does not fault -/

/-- The copy of a read goes through. -/
theorem not_copyFaults_none (dev : PrussApiDev) (nonblock signal : Bool) (count : Nat) :
    ¬ CopyFaults dev (.read nonblock signal count none) := id

/-- What `pruss_api_cb` does: it takes the message or leaves the device alone. -/
theorem prussApiCb_queued {dev : PrussApiDev} {ms : List Message} (h : Queued dev ms)
    (m : Message) :
    (prussApiCb dev m).ret ≠ 0 ∧ (prussApiCb dev m).dev = dev ∨
      (prussApiCb dev m).ret = 0 ∧ Queued (prussApiCb dev m).dev (ms ++ [m]) := by
  unfold prussApiCb
  by_cases havail : dev.msgFifo.avail < m.length
  · rw [if_pos havail]
    exact .inl ⟨by norm_num [ENOSPC], rfl⟩
  · rw [if_neg havail]
    by_cases hfull : advance dev.msgIdxWr 1 = dev.msgIdxRd
    · rw [if_pos hfull]
      exact .inl ⟨by norm_num [ENOSPC], rfl⟩
    · rw [if_neg hfull]
      have hle : m.length ≤ dev.msgFifo.avail := Nat.not_lt.1 havail
      have hroom : ms.length + 1 < maxFifoMsg := by
        have hne : ms.length + 1 ≠ maxFifoMsg := fun heq => hfull (h.full_iff.2 heq)
        have hfree := h.free
        omega
      have hpush := h.push m hroom
      rw [← Kfifo.put_data hle, ← Nat.min_eq_left hle] at hpush
      exact .inr ⟨rfl, hpush⟩

/-- What `pruss_api_read` copies where the copy does not fault: all that the
first slot of the table says. -/
theorem toUser_of_not_faults {dev : PrussApiDev} {nonblock signal : Bool} {count : Nat}
    {fault : Option Nat} (hno : ¬ CopyFaults dev (.read nonblock signal count fault)) :
    dev.msgFifo.toUser (dev.msgLen dev.msgIdxRd) fault =
      (0, dev.msgFifo.data.take (min (dev.msgLen dev.msgIdxRd) dev.msgFifo.data.length),
        dev.msgFifo.drop (min (dev.msgLen dev.msgIdxRd) dev.msgFifo.data.length)) := by
  cases fault with
  | none => rfl
  | some k =>
    have hk : ¬ k < min (dev.msgLen dev.msgIdxRd) dev.msgFifo.data.length := hno
    simp only [Kfifo.toUser, if_neg hk]

/-- A read of a queue with bytes in it: the oldest message, whole. -/
theorem prussApiRead_queued {dev : PrussApiDev} {m : Message} {ms : List Message}
    (h : Queued dev (m :: ms)) (hbytes : dev.msgFifo.isEmpty = false) {nonblock signal : Bool}
    {count : Nat} {fault : Option Nat}
    (hno : ¬ CopyFaults dev (.read nonblock signal count fault)) :
    ∃ dev', prussApiRead dev nonblock signal count fault = some ⟨m.length, m, none, dev'⟩ ∧
      Queued dev' ms ∧ dev'.msgIdxRd = advance dev.msgIdxRd 1 ∧ dev'.msgIdxWr = dev.msgIdxWr := by
  have htake := h.take
  refine ⟨{ dev with
    msgFifo := dev.msgFifo.drop (dev.msgLen dev.msgIdxRd)
    msgIdxRd := advance dev.msgIdxRd 1 }, ?_, h.pop, rfl, rfl⟩
  simp [prussApiRead, hbytes, toUser_of_not_faults hno, h.min_head, htake]

/-- Bytes in the queue belong to a message. -/
theorem Queued.exists_cons {dev : PrussApiDev} {ms : List Message} (h : Queued dev ms)
    (hbytes : dev.msgFifo.isEmpty = false) : ∃ m rest, ms = m :: rest := by
  cases ms with
  | nil =>
    have hnil : dev.msgFifo.isEmpty = true := (Kfifo.isEmpty_iff _).2 h.bytes
    rw [hnil] at hbytes
    cases hbytes
  | cons m rest => exact ⟨m, rest, rfl⟩

/-- **A call whose copy does not fault keeps the framing**, and the messages it
lets in and gives out account for the difference. -/
theorem FifoStep.conserves {dev dev' : PrussApiDev} {ms : List Message} {e : FifoEvent}
    (h : Queued dev ms) (hno : ¬ CopyFaults dev e.1) (hstep : FifoStep dev e dev') :
    ∃ ms', Queued dev' ms' ∧ ms ++ acceptedMsgs [e] = readMsgs [e] ++ ms' := by
  cases hstep with
  | @cb data r hr =>
    subst hr
    obtain ⟨hret, hdev⟩ | ⟨hret, hqueued⟩ := prussApiCb_queued h data
    · exact ⟨ms, by rwa [hdev], by simp [acceptedMsgs, readMsgs, hret]⟩
    · exact ⟨ms ++ [data], hqueued, by simp [acceptedMsgs, readMsgs, hret]⟩
  | @read nonblock signal count fault r hr =>
    cases hbytes : dev.msgFifo.isEmpty with
    | true =>
      obtain ⟨hneg, -, hdev⟩ := prussApiRead_empty hbytes hr
      exact ⟨ms, by rwa [hdev], by simp [acceptedMsgs, readMsgs, hneg]⟩
    | false =>
      obtain ⟨m, rest, rfl⟩ := h.exists_cons hbytes
      obtain ⟨dev', hread, hqueued, -⟩ := prussApiRead_queued h hbytes hno
      rw [hread] at hr
      cases hr
      have hnn : ¬ ((m.length : Int) < 0) := by omega
      exact ⟨rest, hqueued, by simp [acceptedMsgs, readMsgs, hnn]⟩

theorem acceptedMsgs_append (es es' : List FifoEvent) :
    acceptedMsgs (es ++ es') = acceptedMsgs es ++ acceptedMsgs es' := List.filterMap_append ..

theorem readMsgs_append (es es' : List FifoEvent) :
    readMsgs (es ++ es') = readMsgs es ++ readMsgs es' := List.filterMap_append ..

/-- Runs in which no copy faults. -/
abbrev CleanRun : PrussApiDev → List FifoEvent → PrussApiDev → Prop :=
  Run (Guarded (fun dev e => ¬ CopyFaults dev e.1) FifoStep)

/-- **Where no copy faults, the messages let in are those read and those still
queued.** -/
theorem cleanRun_conserves {es : List FifoEvent} {dev : PrussApiDev}
    (hrun : CleanRun .probed es dev) :
    ∃ unread, Queued dev unread ∧ acceptedMsgs es = readMsgs es ++ unread := by
  refine hrun.history (P := fun es dev => ∃ unread, Queued dev unread ∧
    acceptedMsgs es = readMsgs es ++ unread) ⟨[], queued_probed, rfl⟩ ?_
  rintro past dev e dev' - ⟨unread, hqueued, hacc⟩ ⟨hno, hstep⟩
  obtain ⟨unread', hqueued', hcons⟩ := hstep.conserves hqueued hno
  refine ⟨unread', hqueued', ?_⟩
  rw [acceptedMsgs_append, readMsgs_append, hacc, List.append_assoc, hcons, List.append_assoc]

/-! ## A copy that faults -/

/-- The queue and the table agree on the accepted messages that are still unread:
the bytes in the queue are these messages laid end to end, the table holds their
lengths, and the next read that succeeds returns the oldest of them, whole. -/
def Synced (es : List FifoEvent) (dev : PrussApiDev) : Prop :=
  ∃ unread : List Message, unread <:+ acceptedMsgs es ∧
    (dev.msgFifo.data = unread.flatten ∧
      ring dev.msgLen dev.msgIdxRd unread.length = unread.map List.length ∧
      dev.msgIdxWr = advance dev.msgIdxRd unread.length ∧ unread.length < maxFifoMsg) ∧
    ∀ nonblock signal count r, prussApiRead dev nonblock signal count none = some r →
      0 ≤ r.ret → ∃ rest, unread = r.stored :: rest

theorem Synced.of_queued {es : List FifoEvent} {dev : PrussApiDev} {unread : List Message}
    (h : Queued dev unread) (hsuffix : unread <:+ acceptedMsgs es) : Synced es dev := by
  refine ⟨unread, hsuffix, ⟨h.bytes, h.lengths, h.last, h.free⟩, ?_⟩
  intro nonblock signal count r hr hret
  cases hbytes : dev.msgFifo.isEmpty with
  | true =>
    have hneg := (prussApiRead_empty hbytes hr).1
    omega
  | false =>
    obtain ⟨m, rest, rfl⟩ := h.exists_cons hbytes
    obtain ⟨dev', hread, -⟩ := prussApiRead_queued h hbytes (not_copyFaults_none dev nonblock signal count)
    rw [hread] at hr
    cases hr
    exact ⟨rest, rfl⟩

theorem Synced.queued {es : List FifoEvent} {dev : PrussApiDev} (h : Synced es dev) :
    ∃ unread, Queued dev unread := by
  obtain ⟨unread, -, ⟨hbytes, hlengths, hlast, hfree⟩, -⟩ := h
  exact ⟨unread, hbytes, hlengths, hlast, hfree⟩

/-- What a read does whose copy faults: it takes part of the oldest message off
the queue, and all of its length off the table. -/
theorem prussApiRead_copyFaults {dev : PrussApiDev} {nonblock signal : Bool} {count k : Nat}
    (hfault : CopyFaults dev (.read nonblock signal count (some k))) :
    prussApiRead dev nonblock signal count (some k) = some ⟨-EFAULT, dev.msgFifo.data.take k, none,
      { dev with msgFifo := dev.msgFifo.drop k, msgIdxRd := advance dev.msgIdxRd 1 }⟩ := by
  have hk : k < min (dev.msgLen dev.msgIdxRd) dev.msgFifo.data.length := hfault
  have hbytes : dev.msgFifo.isEmpty = false := by
    rw [← Bool.not_eq_true, Kfifo.isEmpty_iff]
    intro hnil
    rw [hnil] at hk
    simp at hk
  simp [prussApiRead, hbytes, Kfifo.toUser, hk, EFAULT]

/-- **After a copy that faults the two no longer agree**: the table fixes how
many bytes there should be, and the queue holds more. -/
theorem not_queued_of_copyFaults {dev dev' : PrussApiDev} {ms : List Message} {e : FifoEvent}
    (h : Queued dev ms) (hfault : CopyFaults dev e.1) (hstep : FifoStep dev e dev')
    (unread : List Message) : ¬ Queued dev' unread := by
  cases hstep with
  | cb hr => exact hfault.elim
  | @read nonblock signal count fault r hr =>
    cases fault with
    | none => exact hfault.elim
    | some k =>
      rw [prussApiRead_copyFaults hfault] at hr
      cases hr
      have hk : k < min (dev.msgLen dev.msgIdxRd) dev.msgFifo.data.length := hfault
      obtain ⟨m, rest, rfl⟩ : ∃ m rest, ms = m :: rest := by
        refine h.exists_cons ?_
        rw [← Bool.not_eq_true, Kfifo.isEmpty_iff]
        intro hnil
        rw [hnil] at hk
        simp at hk
      rw [h.min_head, h.head] at hk
      intro hunread
      -- both lists of messages lie between the same two indices
      have hrest := h.pop
      have hlen : unread.length = rest.length :=
        (advance_inj hunread.free hrest.free).1 (hunread.last.symm.trans hrest.last)
      have hlens : unread.map List.length = rest.map List.length := by
        rw [← hunread.lengths, ← hrest.lengths, hlen]
      have hbytes : (dev.msgFifo.data.drop k).length = rest.flatten.length := by
        have hdata : dev.msgFifo.data.drop k = unread.flatten := hunread.bytes
        rw [hdata, List.length_flatten, List.length_flatten, hlens]
      rw [h.bytes, List.flatten_cons, List.length_drop, List.length_append] at hbytes
      omega

theorem not_synced_of_copyFaults {es : List FifoEvent} {dev dev' : PrussApiDev}
    {ms : List Message} {e : FifoEvent} (h : Queued dev ms) (hfault : CopyFaults dev e.1)
    (hstep : FifoStep dev e dev') : ¬ Synced es dev' := by
  intro hsynced
  obtain ⟨unread, hunread⟩ := hsynced.queued
  exact not_queued_of_copyFaults h hfault hstep unread hunread

/-- The device a call leaves behind, if the call returns. -/
def FifoCall.after (dev : PrussApiDev) : FifoCall → Option PrussApiDev
  | .cb data => some (prussApiCb dev data).dev
  | .read nonblock signal count fault =>
    (prussApiRead dev nonblock signal count fault).map FopRet.dev

theorem FifoStep.after_eq {dev dev' : PrussApiDev} {e : FifoEvent} (h : FifoStep dev e dev') :
    e.1.after dev = some dev' := by
  cases h with
  | cb hr => rw [← hr]; rfl
  | read hr => simp [FifoCall.after, hr]

theorem FifoStep.unique {dev dev₁ dev₂ : PrussApiDev} {e : FifoEvent}
    (h₁ : FifoStep dev e dev₁) (h₂ : FifoStep dev e dev₂) : dev₁ = dev₂ :=
  Option.some.inj (h₁.after_eq.symm.trans h₂.after_eq)

/-- **A run stays in step exactly if no copy in it faults.**  From a freshly
probed device, with messages of any length and reads of any kind, the byte queue
and the length table agree in every state passed through if and only if no read
is asked to copy to a place that faults inside the message. -/
theorem fifo_synced_iff {es : List FifoEvent} {dev : PrussApiDev} (hrun : FifoRun .probed es dev) :
    Throughout FifoStep .probed es Synced ↔ CleanRun .probed es dev := by
  constructor
  · intro hsynced
    refine hrun.guard hsynced fun past dev e dev' hbefore hstep hafter hfault => ?_
    obtain ⟨unread, hunread⟩ := hbefore.queued
    exact not_synced_of_copyFaults hunread hfault hstep hafter
  · intro hclean
    refine hclean.throughout (fun _ _ _ _ => FifoStep.unique) fun past t hpast => ?_
    obtain ⟨unread, hunread, hacc⟩ := cleanRun_conserves hpast
    exact .of_queued hunread ⟨readMsgs past, hacc.symm⟩

/-- The calls of a message of one byte that is read back. -/
def echoCalls : List FifoEvent :=
  [(.cb [7], ⟨0, [], none⟩), (.read true false 512 none, ⟨1, [7], none⟩)]

theorem fifo_synced_iff_echo :
    ∃ dev, Throughout FifoStep .probed echoCalls Synced ↔ CleanRun .probed echoCalls dev := by
  have hcb : FifoStep .probed (.cb [7], ⟨0, [], none⟩) (prussApiCb .probed [7]).dev := .cb rfl
  obtain ⟨dev, hread⟩ : ∃ dev, FifoStep (prussApiCb .probed [7]).dev
      (.read true false 512 none, ⟨1, [7], none⟩) dev := ⟨_, .read (r := ⟨1, [7], none, _⟩) rfl⟩
  exact ⟨dev, fifo_synced_iff (.cons hcb (.cons hread (.nil _)))⟩

/-- A message of two bytes, and a read that faults after the first of them. -/
def faultCalls : List FifoEvent :=
  [(.cb [1, 2], ⟨0, [], none⟩), (.read true false 512 (some 1), ⟨-EFAULT, [1], none⟩)]

/-- The second byte of the message stays in the queue, and no message accounts
for it. -/
theorem fault_leaves_byte :
    ∃ dev, FifoRun .probed faultCalls dev ∧ dev.msgFifo.data = [2] ∧
      dev.msgIdxRd = dev.msgIdxWr ∧ ¬ Synced faultCalls dev := by
  have hcb : FifoStep .probed (.cb [1, 2], ⟨0, [], none⟩) (prussApiCb .probed [1, 2]).dev := .cb rfl
  have hfault : CopyFaults (prussApiCb .probed [1, 2]).dev (.read true false 512 (some 1)) := by
    show 1 < min ((prussApiCb .probed [1, 2]).dev.msgLen (prussApiCb .probed [1, 2]).dev.msgIdxRd)
      (prussApiCb .probed [1, 2]).dev.msgFifo.data.length
    decide
  have hread := FifoStep.read (prussApiRead_copyFaults hfault)
  refine ⟨_, .cons hcb (.cons hread (.nil _)), rfl, rfl, ?_⟩
  obtain ⟨ms, hms, -⟩ := hcb.conserves queued_probed id
  exact not_synced_of_copyFaults hms hfault hread

end Driver
