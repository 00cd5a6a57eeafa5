import PrussBindings.Driver.Faults

/-!
# Reads and the size of their buffer

`pruss_api_read` is told how many bytes the caller has room for, and copies as
many as the length table says.

* `Bounded` — a read stores no more bytes than it was asked for, and returns no
  larger number.
* `LeftBy`, `Accounted` — queue and table describe the messages the reads have
  left; a read that was given the front of a message only may have dropped the
  rest, or kept it as an entry of its own.
* `Roomy` — the condition on a read: it asks for at least the length of the
  oldest message, and its copy does not fault.
* `read_bounded_iff` — **a run respects its callers' buffers and keeps account
  of its messages exactly if all of its reads are roomy.**
-/

namespace Driver

open Errno Ring Transition

/-! ## What is asked of a read -/

/-- A read with a buffer keeps to it. -/
def FifoEvent.Bounded : FifoEvent → Prop
  | (.cb _, _) => True
  | (.read _ _ count _, r) => 1 ≤ count → r.stored.length ≤ count ∧ r.ret ≤ count

/-- The messages that are left when the reads have returned the given bytes: each
read was given a message or the front of one, and the rest of the last one may
still be there. -/
def LeftBy (got unread accepted : List Message) : Prop :=
  ∃ taken : List Message, List.Forall₂ (· <+: ·) got taken ∧
    (accepted = taken ++ unread ∨
      ∃ rest left m, unread = rest :: left ∧ m ∈ taken.getLast? ∧ rest <:+ m ∧
        accepted = taken ++ left)

/-- Queue and table describe exactly the messages the reads have left. -/
def Accounted (es : List FifoEvent) (dev : PrussApiDev) : Prop :=
  ∃ unread : List Message, LeftBy (readMsgs es) unread (acceptedMsgs es) ∧
    dev.msgFifo.data = unread.flatten ∧
    ring dev.msgLen dev.msgIdxRd unread.length = unread.map List.length ∧
    dev.msgIdxWr = advance dev.msgIdxRd unread.length ∧ unread.length < maxFifoMsg

/-- The length of the oldest message, as the next read takes it from the table. -/
def oldestLength (dev : PrussApiDev) : Nat :=
  min (dev.msgLen dev.msgIdxRd) dev.msgFifo.data.length

/-- The read has room for the oldest message, and its copy does not fault inside
it. -/
def Roomy (dev : PrussApiDev) : FifoCall → Prop
  | .cb _ => True
  | .read nonblock signal count fault =>
    ¬ CopyFaults dev (.read nonblock signal count fault) ∧ (1 ≤ count → oldestLength dev ≤ count)

theorem Accounted.queued {es : List FifoEvent} {dev : PrussApiDev} (h : Accounted es dev) :
    ∃ unread, Queued dev unread := by
  obtain ⟨unread, -, hbytes, hlengths, hlast, hfree⟩ := h
  exact ⟨unread, hbytes, hlengths, hlast, hfree⟩

theorem Roomy.not_copyFaults {dev : PrussApiDev} {call : FifoCall} (h : Roomy dev call) :
    ¬ CopyFaults dev call := by
  cases call with
  | cb data => exact id
  | read => exact h.1

/-! ## One read -/

/-- A read whose copy does not fault stores as many bytes as the oldest message
has, whatever it was asked for. -/
theorem prussApiRead_length {dev : PrussApiDev} {nonblock signal : Bool} {count : Nat}
    {fault : Option Nat} {r : FopRet}
    (hno : ¬ CopyFaults dev (.read nonblock signal count fault))
    (hr : prussApiRead dev nonblock signal count fault = some r) :
    r.ret < 0 ∧ r.stored = [] ∧ oldestLength dev = 0 ∨
      r.ret = r.stored.length ∧ r.stored.length = oldestLength dev := by
  cases hbytes : dev.msgFifo.isEmpty with
  | true =>
    obtain ⟨hneg, hstored, -⟩ := prussApiRead_empty hbytes hr
    refine .inl ⟨hneg, hstored, ?_⟩
    rw [oldestLength, (Kfifo.isEmpty_iff _).1 hbytes]
    exact Nat.min_zero _
  | false =>
    simp only [prussApiRead, hbytes, Bool.false_and, Bool.false_eq_true, if_false,
      toUser_of_not_faults hno, Option.some.injEq] at hr
    subst hr
    refine .inr ⟨by simp, ?_⟩
    simp [oldestLength]

/-- **A read whose copy does not fault keeps to its buffer exactly if it has room
for the oldest message.** -/
theorem FifoStep.bounded_iff {dev dev' : PrussApiDev} {e : FifoEvent} (hno : ¬ CopyFaults dev e.1)
    (hstep : FifoStep dev e dev') : e.Bounded ↔ Roomy dev e.1 := by
  cases hstep with
  | cb hr => exact Iff.rfl
  | @read nonblock signal count fault r hr =>
    refine Iff.trans ?_ (and_iff_right hno).symm
    show (1 ≤ count → r.stored.length ≤ count ∧ r.ret ≤ count) ↔
      (1 ≤ count → oldestLength dev ≤ count)
    refine imp_congr_right fun _ => ?_
    obtain ⟨hneg, hstored, hlen⟩ | ⟨hret, hlen⟩ := prussApiRead_length hno hr
    · rw [hstored, hlen]
      exact iff_of_true ⟨Nat.zero_le _, by omega⟩ (Nat.zero_le _)
    · rw [hret, hlen]
      exact ⟨fun h => h.1, fun h => ⟨h, by exact_mod_cast h⟩⟩

/-! ## Runs -/

/-- **Reads and their buffers.**  From a freshly probed device, with messages of
any length and reads of any kind: all along a run every read has stored and
returned at most what it was asked for, and queue and table describe exactly the
messages left, if and only if every read asks for at least the length of the
oldest message and its copy does not fault inside it. -/
theorem read_bounded_iff {es : List FifoEvent} {dev : PrussApiDev} (hrun : FifoRun .probed es dev) :
    Throughout FifoStep .probed es (fun past t => Accounted past t ∧ ∀ e ∈ past, e.Bounded) ↔
      Run (Guarded (fun t e => Roomy t e.1) FifoStep) .probed es dev := by
  constructor
  · intro hall
    refine hrun.guard hall fun past t e t' hbefore hstep hafter => ?_
    obtain ⟨unread, hunread⟩ := hbefore.1.queued
    have hno : ¬ CopyFaults t e.1 := by
      intro hfault
      obtain ⟨unread', hunread'⟩ := hafter.1.queued
      exact not_queued_of_copyFaults hunread hfault hstep unread' hunread'
    exact (hstep.bounded_iff hno).1 (hafter.2 e (by simp))
  · intro hroomy
    refine hroomy.throughout (fun _ _ _ _ => FifoStep.unique) fun past t hpast => ⟨?_, ?_⟩
    · have hclean : CleanRun .probed past t :=
        hpast.mono fun t e t' hstep => ⟨hstep.1.not_copyFaults, hstep.2⟩
      obtain ⟨unread, hunread, hacc⟩ := cleanRun_conserves hclean
      refine ⟨unread, ⟨readMsgs past, ?_, .inl hacc⟩, hunread.bytes, hunread.lengths, hunread.last,
        hunread.free⟩
      exact List.forall₂_same.2 fun m _ => List.prefix_rfl
    · refine hpast.history (P := fun es _ => ∀ e ∈ es, FifoEvent.Bounded e) (by simp) ?_
      intro past t e t' _ hbounded ⟨hcond, hstep⟩ e' he'
      rcases List.mem_append.1 he' with he' | he'
      · exact hbounded e' he'
      · rw [List.mem_singleton.1 he']
        exact (hstep.bounded_iff hcond.not_copyFaults).2 hcond

theorem read_bounded_iff_echo :
    ∃ dev, Throughout FifoStep .probed echoCalls
        (fun past t => Accounted past t ∧ ∀ e ∈ past, e.Bounded) ↔
      Run (Guarded (fun t e => Roomy t e.1) FifoStep) .probed echoCalls dev := by
  have hcb : FifoStep .probed (.cb [7], ⟨0, [], none⟩) (prussApiCb .probed [7]).dev := .cb rfl
  obtain ⟨dev, hread⟩ : ∃ dev, FifoStep (prussApiCb .probed [7]).dev
      (.read true false 512 none, ⟨1, [7], none⟩) dev := ⟨_, .read (r := ⟨1, [7], none, _⟩) rfl⟩
  exact ⟨dev, read_bounded_iff (.cons hcb (.cons hread (.nil _)))⟩

/-- A message of two bytes, and a read that has room for one. -/
def smallCalls : List FifoEvent :=
  [(.cb [1, 2], ⟨0, [], none⟩), (.read true false 1 none, ⟨2, [1, 2], none⟩)]

/-- Two bytes are stored where there is room for one. -/
theorem read_overruns :
    ∃ dev, FifoRun .probed smallCalls dev ∧
      ∃ e ∈ smallCalls, ¬ e.Bounded := by
  have hcb : FifoStep .probed (.cb [1, 2], ⟨0, [], none⟩) (prussApiCb .probed [1, 2]).dev := .cb rfl
  obtain ⟨dev, hread⟩ : ∃ dev, FifoStep (prussApiCb .probed [1, 2]).dev
      (.read true false 1 none, ⟨2, [1, 2], none⟩) dev :=
    ⟨_, .read (r := ⟨2, [1, 2], none, _⟩) rfl⟩
  refine ⟨dev, .cons hcb (.cons hread (.nil _)), _,
    List.mem_cons_of_mem _ (List.mem_singleton.2 rfl), fun h => ?_⟩
  exact absurd (h (by decide)).1 (by decide)

end Driver
