import PrussBindings.Driver.MessageFifo
import PrussBindings.Rpmsg.Storing

/-!
# A channel, from the PRU to user space

What the firmware answers goes over rpmsg to the ARM, whose rpmsg layer hands the messages
for the address of the driver to `pruss_api_cb`; user space reads them from the device.

* `cbMsgs`, `DriverRun` — the messages that the driver was handed, and a run of it.
* `handedOver_eq` — the announcement is not for the driver, and all answers are.
* `answers_read` — **what user space reads are answers of the firmware**, in order and none
  of them twice.
* `echo_read` — **with `rpmsg_echo` it reads what it has written**.
-/

namespace System

open Effect Driver Rpmsg
open scoped List

/-- The messages that the driver was handed. -/
def cbMsgs (es : List FifoEvent) : List Message :=
  es.filterMap fun
    | (.cb data, _) => some data
    | _ => none

/-- A run of the driver that is handed these messages; no copy to user space faults. -/
structure DriverRun (msgs : List Message) (es : List FifoEvent) (dev : PrussApiDev) : Prop where
  run : FifoRun .probed es dev
  copies : ∀ nonblock signal count fault r,
    (FifoCall.read nonblock signal count fault, r) ∈ es → fault = none
  handed : cbMsgs es = msgs

/-- It is the rest of them that were not let in. -/
theorem acceptedMsgs_sublist (es : List FifoEvent) : acceptedMsgs es <+ cbMsgs es := by
  induction es with
  | nil => exact .slnil
  | cons e es ih =>
    obtain ⟨data | _, r⟩ := e
    · by_cases h : r.ret = 0
      · simpa [acceptedMsgs, cbMsgs, h] using ih
      · simpa [acceptedMsgs, cbMsgs, h] using ih.cons data
    · simpa [acceptedMsgs, cbMsgs] using ih

section Answers

variable {σ : Type} {fw : Firmware σ} {x : σ × Received} {ms : List Msg} {m : Msg}

/-- An answer goes to where the message came from, and fits a buffer. -/
theorem answers_addressed (h : m ∈ fw.answers x ms) :
    ∃ m' ∈ ms, m.dst = m'.src % 2 ^ 16 ∧
      (fw.Short → m'.data.length ≤ Rpmsg.rpmsgBufSize - sizeofRpmsgHdr →
        m.data.length ≤ Rpmsg.rpmsgBufSize - sizeofRpmsgHdr) := by
  induction ms generalizing x with
  | nil => cases h
  | cons m₀ ms ih =>
    rw [Firmware.answers, List.mem_append] at h
    rcases h with h | h
    · refine ⟨m₀, List.mem_cons_self .., ?_⟩
      obtain ⟨reply, hreply, rfl⟩ := Option.map_eq_some_iff.1 (Option.mem_toList.1 h)
      refine ⟨Nat.mod_eq_of_lt ?_, fun hshort hlen => ?_⟩
      · exact (Nat.mod_lt _ (by decide)).trans (by decide)
      · have hle := hshort x.1 (m₀.received x.2) reply hlen hreply
        simpa [sentMsg] using hle
    · obtain ⟨m', hm', haddr⟩ := ih h
      exact ⟨m', List.mem_cons_of_mem _ hm', haddr⟩

end Answers

theorem picked_sublist {α : Type} (l : List α) (bs : List Bool) : picked l bs <+ l := by
  have hsub : picked l bs <+ (l.zip bs).map Prod.fst := List.filter_sublist.map _
  have hfst : (l.zip bs).map Prod.fst <+ l := by
    rw [List.zip_eq_zip_take_min, List.map_fst_zip (by simp)]
    exact List.take_sublist _ _
  exact hsub.trans hfst

section Reads

variable {σ : Type} {S : Setup} {fw : Firmware σ} {x₀ : σ × Received} {w : World} {a : ℕ}
  {o : Outcome Empty (PruRpmsgTransport × σ × Received)} {es : List FifoEvent} {dev : PrussApiDev}

/-- What the rpmsg layer hands to the driver: the messages for its address. -/
def handedOver (a : ℕ) (l : Log) : List Message :=
  (l.collected.filter fun u => u.msg.dst = a).map fun u => u.msg.payload

/-- The answers to the messages that were received. -/
def answersTo (fw : Firmware σ) (x₀ : σ × Received) (w : World) : List Msg :=
  fw.answers x₀ ((w.log .vring1).returned.map Used.msg)

/-- Every answer goes to the driver that sent the message. -/
theorem dst_of_answersTo (h : fw.Stopped S x₀ o w) (ha : a < 2 ^ 16)
    (hsrc : ∀ e ∈ (w.log .vring1).posted, e.msg.src = a) {m : Msg} (hm : m ∈ answersTo fw x₀ w) :
    m.dst = a := by
  obtain ⟨m', hm', hdst, -⟩ := answers_addressed hm
  obtain ⟨e, he, rfl⟩ := List.mem_map.1 (h.served.1.subset hm')
  rw [hdst, hsrc e he, Nat.mod_eq_of_lt ha]

/-- The announcement is not for the driver, and all the answers are. -/
theorem handedOver_eq (h : fw.Stopped S x₀ o w) (ha : a < 2 ^ 16) (hne : a ≠ 53)
    (hsrc : ∀ e ∈ (w.log .vring1).posted, e.msg.src = a) :
    ∃ sent, sent <+ answersTo fw x₀ w ∧
      ((w.log .vring0).returned = [] ∨ (w.log .vring0).returned.length = sent.length + 1) ∧
      handedOver a (w.log .vring0) =
        (sent.take ((w.log .vring0).collected.length - 1)).map Msg.payload := by
  have hfilter : handedOver a (w.log .vring0) =
      (((w.log .vring0).collected.map Used.msg).filter fun m => m.dst = a).map Msg.payload := by
    rw [handedOver, List.filter_map, List.map_map]
    rfl
  obtain ⟨-, hcollected, ⟨-, hsent⟩ | ⟨j, bs, -, -, hsent, -⟩⟩ := h.served
  · have hnone : (w.log .vring0).returned = [] := List.map_eq_nil_iff.1 hsent
    rw [hnone] at hcollected
    refine ⟨[], List.nil_sublist _, .inl hnone, ?_⟩
    rw [hfilter, List.prefix_nil.1 hcollected]
    rfl
  · have hsub := picked_sublist (answersTo fw x₀ w) bs
    refine ⟨_, hsub, .inr ?_, ?_⟩
    · simpa [answersTo] using congrArg List.length hsent
    · have hann : fw.announcement.dst ≠ a := Ne.symm hne
      have hall : ∀ m ∈ picked (answersTo fw x₀ w) bs, m.dst = a := fun m hm =>
        dst_of_answersTo h ha hsrc (hsub.subset hm)
      have hpre := hcollected.map Used.msg
      rw [hsent, List.prefix_iff_eq_take, List.length_map] at hpre
      rw [hfilter, hpre]
      cases (w.log .vring0).collected.length with
      | zero => rfl
      | succ n =>
        rw [List.take_succ_cons, List.filter_cons_of_neg (by simpa using hann),
          List.filter_eq_self.2 fun m hm => by simpa using hall m (List.mem_of_mem_take hm)]
        rfl

/-- What user space reads is what the driver let in of that. -/
theorem reads_of_stopped (h : fw.Stopped S x₀ o w) (hshort : fw.Short) (ha : a < 2 ^ 16)
    (hne : a ≠ 53) (hsrc : ∀ e ∈ (w.log .vring1).posted, e.msg.src = a)
    (hfull : ∀ m ∈ answersTo fw x₀ w, m.data ≠ [])
    (hrun : DriverRun (handedOver a (w.log .vring0)) es dev) :
    ∃ unread : List Message, dev.msgFifo.data = unread.flatten ∧
      readMsgs es ++ unread <+ (answersTo fw x₀ w).map Msg.payload ∧
      ((w.log .vring0).returned.length = (answersTo fw x₀ w).length + 1 →
        acceptedMsgs es = cbMsgs es → readMsgs es ++ unread =
          ((answersTo fw x₀ w).take ((w.log .vring0).collected.length - 1)).map Msg.payload) := by
  obtain ⟨sent, hsub, hlen, hover⟩ := handedOver_eq h ha hne hsrc
  have hsublist : cbMsgs es <+ (answersTo fw x₀ w).map Msg.payload := by
    rw [hrun.handed, hover]
    exact ((List.take_sublist _ _).trans hsub).map _
  -- the messages are neither empty nor too long
  have hregular : ∀ e ∈ es, e.Regular := by
    rintro ⟨data | ⟨nonblock, signal, count, fault⟩, r⟩ he
    · have hmem : data ∈ cbMsgs es := List.mem_filterMap.2 ⟨_, he, rfl⟩
      obtain ⟨m, hm, rfl⟩ := List.mem_map.1 (hsublist.subset hmem)
      obtain ⟨m', hm', -, hle⟩ := answers_addressed hm
      obtain ⟨e, he, rfl⟩ := List.mem_map.1 (h.served.1.subset hm')
      obtain ⟨g, hat, -⟩ := h
      have hle := hle hshort (hat.safe.short e he)
      have hpos := List.length_pos_of_ne_nil (hfull m hm)
      have hmax : Rpmsg.rpmsgBufSize - sizeofRpmsgHdr = 496 := rfl
      have hsize : fifoMsgSize = 512 := rfl
      have hlength : m.payload.length = m.data.length := List.length_map _
      exact ⟨by omega, by omega⟩
    · exact hrun.copies nonblock signal count fault r he
  obtain ⟨unread, hmail, hholds⟩ := fifo_run_refines hrun.run hregular holds_probed
  have hconserves := hmail.conserves
  rw [List.nil_append, ← acceptedMsgs_eq, ← readMsgs_eq] at hconserves
  refine ⟨unread, hholds.framed.bytes, ?_, fun hall hlet => ?_⟩
  · rw [← hconserves]
    exact (acceptedMsgs_sublist es).trans hsublist
  · have hsent : sent = answersTo fw x₀ w := by
      refine hsub.eq_of_length ?_
      rcases hlen with hnone | hlen
      · rw [hnone] at hall
        cases hall
      · omega
    rw [← hconserves, hlet, hrun.handed, hover, hsent]

/-- **What user space reads are answers of the firmware**, in order and none of them twice,
in every run of the firmware, of the ARM beside it and of the driver; and it is all of the
answers that the ARM has collected, if there was a buffer for each of them, and the driver
let all of them in. -/
theorem answers_read {vring0 vring1 : FwRscVdevVring} (hfw : fw.Fits S)
    (h0 : S.vring .vring0 = .init vring0.num vring0.da (vring0.align.setWidth 64))
    (h1 : S.vring .vring1 = .init vring1.num vring1.da (vring1.align.setWidth 64))
    (hw : Start S w) (tr : PruRpmsgTransport) (x₀ : σ × Received) (k n : ℕ) (ha : a < 2 ^ 16)
    (hne : a ≠ 53) :
    wp (Arm S) (fw.main tr vring0 vring1 x₀.1 x₀.2 k n) (fun _ w' =>
      (∀ e ∈ (w'.log .vring1).posted, e.msg.src = a) →
      (∀ m ∈ answersTo fw x₀ w', m.data ≠ []) →
      ∀ es dev, DriverRun (handedOver a (w'.log .vring0)) es dev →
        ∃ unread : List Message, dev.msgFifo.data = unread.flatten ∧
          readMsgs es ++ unread <+ (answersTo fw x₀ w').map Msg.payload ∧
          ((w'.log .vring0).returned.length = (answersTo fw x₀ w').length + 1 →
            acceptedMsgs es = cbMsgs es → readMsgs es ++ unread =
              ((answersTo fw x₀ w').take ((w'.log .vring0).collected.length - 1)).map
                Msg.payload)) w :=
  wp_mono (fun _ _ h hsrc hfull _ _ hrun => reads_of_stopped h hfw.short ha hne hsrc hfull hrun)
    (main_stopped hfw h0 h1 hw tr x₀ k n)

/-- What `rpmsg_echo` answers has the bytes of the message. -/
theorem payload_answers_echo (mem : ℕ → ℕ) (x : Unit × Received) (ms : List Msg) :
    ((rpmsgEcho mem).answers x ms).map Msg.payload = ms.map Msg.payload := by
  induction ms generalizing x with
  | nil => rfl
  | cons m ms ih =>
    have hstep : ((rpmsgEcho mem).step x m).2 = some (sentMsg (m.received x.2).dst
        (m.received x.2).src (m.received x.2).data m.data.length) := rfl
    have hpayload : (sentMsg (m.received x.2).dst (m.received x.2).src (m.received x.2).data
        m.data.length).payload = m.payload := by
      refine List.ext_getElem (by simp [sentMsg, Msg.payload]) fun i h _ => ?_
      have hi : i < m.data.length := by simpa [sentMsg, Msg.payload] using h
      apply UInt8.toNat_inj.1
      simp [sentMsg, Msg.payload, Msg.received, hi]
    rw [Firmware.answers, hstep, List.map_append, List.map_cons, ih]
    exact congrArg (· :: _) hpayload

/-- **With `rpmsg_echo` user space reads what it has written**: in order, nothing twice, and
all of it that came back, if there was a buffer for every answer and the driver let every
answer in. -/
theorem echo_read {vring0 vring1 : FwRscVdevVring} (mem : ℕ → ℕ) (hbit : S.hostBit = 30)
    (hevent : S.fromArmEvent = 17)
    (h0 : S.vring .vring0 = .init vring0.num vring0.da (vring0.align.setWidth 64))
    (h1 : S.vring .vring1 = .init vring1.num vring1.da (vring1.align.setWidth 64))
    (hw : Start S w) (tr : PruRpmsgTransport) (out : Received) (k n : ℕ) (ha : a < 2 ^ 16)
    (hne : a ≠ 53) :
    wp (Arm S) ((rpmsgEcho mem).main tr vring0 vring1 () out k n) (fun _ w' =>
      (∀ e ∈ (w'.log .vring1).posted, e.msg.src = a ∧ e.msg.data ≠ []) →
      ∀ es dev, DriverRun (handedOver a (w'.log .vring0)) es dev →
        ∃ unread : List Message, dev.msgFifo.data = unread.flatten ∧
          readMsgs es ++ unread <+ (w'.log .vring1).posted.map (fun e => e.msg.payload) ∧
          ((w'.log .vring0).returned.length = (w'.log .vring1).returned.length + 1 →
            acceptedMsgs es = cbMsgs es → readMsgs es ++ unread =
              ((w'.log .vring1).posted.map fun e => e.msg.payload).take
                ((w'.log .vring0).collected.length - 1))) w := by
  have hfw := rpmsgEcho_fits mem hbit hevent
  refine wp_mono (fun o w' h hposted es dev hrun => ?_)
    (main_stopped hfw h0 h1 hw tr ((), out) k n)
  -- the answers are the messages that were received
  have hanswers : (answersTo (rpmsgEcho mem) ((), out) w').map Msg.payload =
      ((w'.log .vring1).returned.map Used.msg).map Msg.payload := payload_answers_echo ..
  have hlength : (answersTo (rpmsgEcho mem) ((), out) w').length =
      (w'.log .vring1).returned.length := by simpa using congrArg List.length hanswers
  have hpre : (answersTo (rpmsgEcho mem) ((), out) w').map Msg.payload <+:
      (w'.log .vring1).posted.map fun e => e.msg.payload := by
    have hreceived := h.served.1.map Msg.payload
    rwa [← hanswers, List.map_map] at hreceived
  have hfull : ∀ m ∈ answersTo (rpmsgEcho mem) ((), out) w', m.data ≠ [] := by
    intro m hm hnil
    obtain ⟨e, he, hpayload⟩ := List.mem_map.1 (hpre.subset (List.mem_map_of_mem hm))
    have hempty : e.msg.payload = [] := by
      rw [hpayload, Msg.payload, hnil]
      rfl
    exact (hposted e he).2 (List.map_eq_nil_iff.1 hempty)
  obtain ⟨unread, hdata, hsub, hall⟩ := reads_of_stopped h hfw.short ha hne
    (fun e he => (hposted e he).1) hfull hrun
  refine ⟨unread, hdata, hsub.trans hpre.sublist, fun hsent hlet => ?_⟩
  have hle : (w'.log .vring0).collected.length ≤ (w'.log .vring0).returned.length :=
    h.served.2.1.length_le
  rw [hall (by rw [hlength]; exact hsent) hlet, List.map_take, List.prefix_iff_eq_take.1 hpre,
    List.take_take, List.length_map, hlength, Nat.min_eq_left (by omega)]

end Reads

/-! ## A run -/

theorem answers_read_echo :
    wp (Arm echoLayout.setup) ((rpmsgEcho fun _ => 0).main
      ⟨.init ⟨0, 0, 0, 0⟩ 0 0, .init ⟨0, 0, 0, 0⟩ 0 0⟩ ⟨0x9000, 16, 16, 0⟩ ⟨0xA000, 16, 16, 1⟩
      () ⟨0, 0, fun _ => 0, 0⟩ 9 9) (fun _ w' =>
        (∀ e ∈ (w'.log .vring1).posted, e.msg.src = 1024) →
        (∀ m ∈ answersTo (rpmsgEcho fun _ => 0) ((), ⟨0, 0, fun _ => 0, 0⟩) w', m.data ≠ []) →
        ∀ es dev, DriverRun (handedOver 1024 (w'.log .vring0)) es dev →
          ∃ unread : List Message, dev.msgFifo.data = unread.flatten ∧
            readMsgs es ++ unread <+ (answersTo (rpmsgEcho fun _ => 0)
              ((), ⟨0, 0, fun _ => 0, 0⟩) w').map Msg.payload ∧
            ((w'.log .vring0).returned.length = (answersTo (rpmsgEcho fun _ => 0)
                ((), ⟨0, 0, fun _ => 0, 0⟩) w').length + 1 →
              acceptedMsgs es = cbMsgs es → readMsgs es ++ unread =
                ((answersTo (rpmsgEcho fun _ => 0) ((), ⟨0, 0, fun _ => 0, 0⟩) w').take
                  ((w'.log .vring0).collected.length - 1)).map Msg.payload)) .zero :=
  answers_read (rpmsgEcho_fits _ rfl rfl) rfl rfl start_zero _ ((), ⟨0, 0, fun _ => 0, 0⟩) 9 9
    (by decide) (by decide)

theorem echo_read_1024 :
    wp (Arm echoLayout.setup) ((rpmsgEcho fun _ => 0).main
      ⟨.init ⟨0, 0, 0, 0⟩ 0 0, .init ⟨0, 0, 0, 0⟩ 0 0⟩ ⟨0x9000, 16, 16, 0⟩ ⟨0xA000, 16, 16, 1⟩
      () ⟨0, 0, fun _ => 0, 0⟩ 9 9) (fun _ w' =>
        (∀ e ∈ (w'.log .vring1).posted, e.msg.src = 1024 ∧ e.msg.data ≠ []) →
        ∀ es dev, DriverRun (handedOver 1024 (w'.log .vring0)) es dev →
          ∃ unread : List Message, dev.msgFifo.data = unread.flatten ∧
            readMsgs es ++ unread <+ (w'.log .vring1).posted.map (fun e => e.msg.payload) ∧
            ((w'.log .vring0).returned.length = (w'.log .vring1).returned.length + 1 →
              acceptedMsgs es = cbMsgs es → readMsgs es ++ unread =
                ((w'.log .vring1).posted.map fun e => e.msg.payload).take
                  ((w'.log .vring0).collected.length - 1))) .zero :=
  echo_read _ rfl rfl rfl rfl start_zero _ _ 9 9 (by decide) (by decide)

end System
