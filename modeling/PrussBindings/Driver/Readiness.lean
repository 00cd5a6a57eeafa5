import PrussBindings.Driver.Faults

/-!
# When a channel is stuck

A reader waits for bytes in the queue, and a callback is refused by the length
table.  A message without bytes takes a slot of the table and puts nothing into
the queue: alone, it is never read, and 31 of them close the channel.

* `NotWedged` — the queue is empty exactly if the two indices meet, an unread
  message can be polled for and read, and a full table can be drained.
* `notWedged_iff` — **in a device that holds some messages, this is so exactly if
  it holds none, or one with a byte in it.**
* `channel_notWedged_iff` — the same for all states of a run; if every message
  has a byte, no state is stuck.
-/

namespace Driver

open Errno Ring Transition

/-- No copy to user space faults. -/
def FifoEvent.Copies : FifoEvent → Prop
  | (.cb _, _) => True
  | (.read _ _ _ fault, _) => fault = none

/-- The message of a callback is not empty. -/
def FifoEvent.Filled : FifoEvent → Prop
  | (.cb data, _) => data ≠ []
  | (.read .., _) => True

/-- The messages let in and not yet read. -/
def unreadMsgs (es : List FifoEvent) : List Message :=
  (acceptedMsgs es).drop (readMsgs es).length

/-- Every read that is issued now returns data, and frees a slot of the table. -/
def ReadProceeds (dev : PrussApiDev) : Prop :=
  ∀ nonblock signal count, ∃ r, prussApiRead dev nonblock signal count none = some r ∧
    0 ≤ r.ret ∧ advance r.dev.msgIdxWr 1 ≠ r.dev.msgIdxRd

/-- The length table has no free slot. -/
def TableFull (dev : PrussApiDev) : Prop := advance dev.msgIdxWr 1 = dev.msgIdxRd

/-- The byte queue and the length table agree on whether there is something to
read. -/
structure NotWedged (unread : List Message) (dev : PrussApiDev) : Prop where
  empty : dev.msgFifo.isEmpty = true ↔ dev.msgIdxRd = dev.msgIdxWr
  ready : unread ≠ [] → (prussApiPoll dev).pollIn = true ∧ ReadProceeds dev
  drains : TableFull dev → ReadProceeds dev

/-! ## One state -/

/-- The indices meet exactly if no message is unread. -/
theorem Queued.meet_iff {dev : PrussApiDev} {ms : List Message} (h : Queued dev ms) :
    dev.msgIdxRd = dev.msgIdxWr ↔ ms = [] := by
  have hN : 0 < maxFifoMsg := by decide
  have hzero : advance dev.msgIdxRd 0 = dev.msgIdxRd := advance_zero _
  rw [h.last, ← List.length_eq_zero_iff]
  constructor
  · intro hmeet
    exact (advance_inj h.free hN).1 (hmeet.symm.trans hzero.symm)
  · intro hlen
    rw [hlen, hzero]

/-- The queue is empty exactly if no unread message has a byte. -/
theorem Queued.isEmpty_iff {dev : PrussApiDev} {ms : List Message} (h : Queued dev ms) :
    dev.msgFifo.isEmpty = true ↔ ∀ m ∈ ms, m = [] := by
  rw [Kfifo.isEmpty_iff, h.bytes, List.flatten_eq_nil_iff]

theorem Queued.readProceeds {dev : PrussApiDev} {ms : List Message} (h : Queued dev ms)
    (hbytes : dev.msgFifo.isEmpty = false) : ReadProceeds dev := by
  intro nonblock signal count
  obtain ⟨m, rest, rfl⟩ := h.exists_cons hbytes
  obtain ⟨dev', hread, hqueued, hrd, hwr⟩ :=
    prussApiRead_queued h hbytes (not_copyFaults_none dev nonblock signal count)
  refine ⟨_, hread, Int.natCast_nonneg _, fun hfull => ?_⟩
  have hlen := hqueued.full_iff.1 hfull
  have hfree := h.free
  rw [List.length_cons] at hfree
  omega

/-- **A device is stuck exactly if all that it holds are messages without
bytes.** -/
theorem notWedged_iff {dev : PrussApiDev} {ms : List Message} (h : Queued dev ms) :
    NotWedged ms dev ↔ (ms = [] ∨ ∃ m ∈ ms, m ≠ []) := by
  constructor
  · intro hnot
    by_cases hms : ms = []
    · exact .inl hms
    · right
      by_contra hnone
      push Not at hnone
      exact hms (h.meet_iff.1 (hnot.empty.1 (h.isEmpty_iff.2 hnone)))
  · intro hcond
    have hfilled : ms ≠ [] → dev.msgFifo.isEmpty = false := by
      intro hms
      rw [← Bool.not_eq_true, h.isEmpty_iff]
      obtain ⟨m, hm, hne⟩ := hcond.resolve_left hms
      exact fun hall => hne (hall m hm)
    refine ⟨?_, ?_, ?_⟩
    · rw [h.meet_iff]
      constructor
      · intro hbytes
        by_contra hms
        rw [hfilled hms] at hbytes
        cases hbytes
      · rintro rfl
        exact h.isEmpty_iff.2 (by simp)
    · intro hms
      refine ⟨?_, h.readProceeds (hfilled hms)⟩
      simp [prussApiPoll, hfilled hms]
    · intro hfull
      refine h.readProceeds (hfilled ?_)
      rintro rfl
      exact absurd (h.full_iff.1 hfull) (by decide)

/-! ## Runs -/

theorem cleanRun_of_copies {es : List FifoEvent} {dev dev' : PrussApiDev}
    (hrun : FifoRun dev es dev') (hok : ∀ e ∈ es, e.Copies) : CleanRun dev es dev' := by
  induction hrun with
  | nil s => exact .nil s
  | @cons s s' s'' e es hstep _ ih =>
    obtain ⟨hcopies, hrest⟩ := List.forall_mem_cons.1 hok
    refine .cons ⟨?_, hstep⟩ (ih hrest)
    obtain ⟨data | ⟨nonblock, signal, count, fault⟩, r⟩ := e
    · exact id
    · cases hcopies
      exact id

/-- What a device holds after a run in which no copy faults. -/
theorem CleanRun.queued {es : List FifoEvent} {dev : PrussApiDev} (hrun : CleanRun .probed es dev) :
    Queued dev (unreadMsgs es) := by
  obtain ⟨unread, hqueued, hacc⟩ := cleanRun_conserves hrun
  rwa [unreadMsgs, hacc, List.drop_left]

theorem unreadMsgs_filled {es : List FifoEvent} (h : ∀ e ∈ es, e.Filled) :
    ∀ m ∈ unreadMsgs es, m ≠ [] := by
  intro m hm
  obtain ⟨e, he, hacc⟩ := List.mem_filterMap.1 (List.mem_of_mem_drop hm)
  have hfilled := h e he
  obtain ⟨data | _, r⟩ := e
  · by_cases hret : r.ret = 0
    · simp only [hret, if_true, Option.some.injEq] at hacc
      exact hacc ▸ hfilled
    · simp [hret] at hacc
  · simp at hacc

/-- **Which runs get stuck.**  On a freshly probed device, with messages of any
length and no faulting copy, a state is stuck exactly if there are unread
messages and all of them are empty; so if every message has a byte, no state the
run passes through is stuck. -/
theorem channel_notWedged_iff {es : List FifoEvent} {dev : PrussApiDev}
    (hrun : FifoRun .probed es dev) (hok : ∀ e ∈ es, e.Copies) :
    Throughout FifoStep .probed es (fun past dev => NotWedged (unreadMsgs past) dev ↔
      (unreadMsgs past = [] ∨ ∃ m ∈ unreadMsgs past, m ≠ [])) ∧
    ((∀ e ∈ es, e.Filled) →
      Throughout FifoStep .probed es fun past dev => NotWedged (unreadMsgs past) dev) := by
  have hqueued : Throughout FifoStep .probed es fun past dev => Queued dev (unreadMsgs past) :=
    (cleanRun_of_copies hrun hok).throughout (fun _ _ _ _ => FifoStep.unique)
      fun past t hpast => CleanRun.queued hpast
  refine ⟨fun past rest t heq hpast => notWedged_iff (hqueued past rest t heq hpast), ?_⟩
  intro hfilled past rest t heq hpast
  refine (notWedged_iff (hqueued past rest t heq hpast)).2 ?_
  have hall : ∀ m ∈ unreadMsgs past, m ≠ [] :=
    unreadMsgs_filled fun e he => hfilled e (heq ▸ List.mem_append_left _ he)
  cases hunread : unreadMsgs past with
  | nil => exact .inl rfl
  | cons m ms => exact .inr ⟨m, List.mem_cons_self .., hall m (by simp [hunread])⟩

/-- Messages that come in and are read on a fresh device. -/
theorem channel_notWedged_iff_three :
    (∃ dev, FifoRun .probed threeMessages dev) ∧
      Throughout FifoStep .probed threeMessages
        fun past dev => NotWedged (unreadMsgs past) dev := by
  obtain ⟨dev, hrun⟩ := run_threeMessages
  refine ⟨⟨dev, hrun⟩, (channel_notWedged_iff hrun ?_).2 ?_⟩
  · simp [threeMessages, FifoEvent.Copies]
  · simp [threeMessages, FifoEvent.Filled]

/-- One message without bytes is enough: the queue is empty, the indices differ,
and poll does not report it. -/
theorem empty_message_wedges :
    ∃ dev, FifoRun .probed [(.cb [], ⟨0, [], none⟩)] dev ∧ dev.msgFifo.isEmpty = true ∧
      dev.msgIdxRd ≠ dev.msgIdxWr ∧ ¬ NotWedged (unreadMsgs [(.cb [], ⟨0, [], none⟩)]) dev := by
  have hcb : FifoStep .probed (.cb [], ⟨0, [], none⟩) (prussApiCb .probed []).dev := .cb rfl
  have hne : (prussApiCb .probed []).dev.msgIdxRd ≠ (prussApiCb .probed []).dev.msgIdxWr := by decide
  exact ⟨_, .cons hcb (.nil _), rfl, hne, fun hnot => hne (hnot.empty.1 rfl)⟩

end Driver
