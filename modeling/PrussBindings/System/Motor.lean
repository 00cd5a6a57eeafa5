import PrussBindings.Firmware.PulseSupply
import PrussBindings.System.Channel
import PrussBindings.System.Generator

/-!
# From the call to the motor

`activateMotor` of `example7-stepper-control` sends three numbers, which PRU1 stores for
PRU0, and waits for `done`, which PRU1 sends after the third of them.  `Firmware.HandOver`
has the three parties with messages in flight; here the messages go through the client, the
daemon, the driver and rpmsg.

* `sent`, `done` — the numbers of a call, and what is read when it has been served.
* `motor_pins` — **PRU0 makes the pulses that were asked for**, once PRU1 has received the
  numbers.
* `motor_done` — **`done` is read once at most, and not before the third number has been
  received.**
-/

namespace System

open Client Driver Effect PruIsa Rpmsg SharedRam Text
open scoped List

/-- What `activateMotor` sends. -/
def sent (c : Stepper.Command) : List ℤ := [c.onCycles, c.totalCycles, c.noOfPulses]

/-- `EXPECTED_MESSAGE`. -/
def done : Message := encode "done\n".toList

/-- The program answers the third message, and no other. -/
theorem payload_answers_stepper (mem : ℕ → ℕ) (i : ℕ) (sram : Mem) (out : Received)
    (ms : List Msg) :
    ((Storing.stepperControl.firmware mem).answers ((i, sram), out) ms).map Msg.payload =
      if i < 3 ∧ 3 ≤ i + ms.length then [done] else [] := by
  induction ms generalizing i sram out with
  | nil =>
    rw [if_neg (by simp only [List.length_nil]; omega)]
    rfl
  | cons m ms ih =>
    rw [Firmware.answers, List.map_append]
    by_cases hi : i + 1 = 3
    · have hstep : ((Storing.stepperControl.firmware mem).step ((i, sram), out) m).2 =
          some (sentMsg (m.received out).dst (m.received out).src (literal "done\n" mem) 5) := by
        change Option.map _ (Storing.reply mem i .stepperControl) = _
        rw [Storing.reply, if_pos hi]
        rfl
      have hrest := ih (i + 1) (storeWordAt i (wordLoad (bytesOf (m.received out).data 4)) sram)
        (m.received out)
      rw [if_neg (by omega)] at hrest
      rw [hstep, if_pos (by simp only [List.length_cons]; omega)]
      exact congrArg (done :: ·) hrest
    · have hstep : ((Storing.stepperControl.firmware mem).step ((i, sram), out) m).2 = none := by
        change Option.map _ (Storing.reply mem i .stepperControl) = _
        rw [Storing.reply, if_neg hi]
        rfl
      have hrest := ih (i + 1) (storeWordAt i (wordLoad (bytesOf (m.received out).data 4)) sram)
        (m.received out)
      rw [hstep]
      refine hrest.trans (if_congr ?_ rfl rfl)
      simp only [List.length_cons]
      omega

section Calls

variable {S : Rpmsg.Setup} {w : World} {vring0 vring1 : FwRscVdevVring}
  (hbit : S.hostBit = 31) (hevent : S.fromArmEvent = 19)
  (h0 : S.vring .vring0 = .init vring0.num vring0.da (vring0.align.setWidth 64))
  (h1 : S.vring .vring1 = .init vring1.num vring1.da (vring1.align.setWidth 64))
  (hw : Start S w) (mem : ℕ → ℕ) (tr : PruRpmsgTransport) (sram : Mem) (out : Received) (k n : ℕ)

include hbit hevent h0 h1 hw

/-- **PRU0 makes the pulses that were asked for**, if it begins with the shared memory that
PRU1 has when it has received the three numbers. -/
theorem motor_pins {setup : Daemon.Setup} {p : PRU} {chan : Str} {d : RpmsgDevice}
    (hserves : Serves setup p chan) (hfree : d.dev.locked = false) (hnew : d.sent = [])
    {c : Stepper.Command} (hon : 1 ≤ c.onCycles) (hlt : c.onCycles < c.totalCycles)
    (htotal : c.totalCycles < 2 ^ 31) (hn : 1 ≤ c.noOfPulses) (hn' : c.noOfPulses < 2 ^ 31) :
    wp (Arm S) ((Storing.stepperControl.firmware mem).main tr vring0 vring1 (0, sram) out k n)
      (fun _ w' =>
        Delivered w' (sendRaws setup p (Daemon.rpmsgDevnode chan p.chanPort.val) (sent c) d) →
        ∀ x : Data, pin 0 x = false →
          x.mem = ((Storing.stepperControl.firmware mem).after ((0, sram), out)
            (Storing.heard w')).1.2 →
          ∃ x', Does PulseSupply.program PulseSupply.watch.see ⟨.start, 0, x⟩
              (List.replicate c.noOfPulses.toNat (PulseSupply.pulse c.onCycles.toNat
                (c.totalCycles - c.onCycles).toNat)).flatten ⟨.stop, 0, x'⟩ ∧
            pin 0 x' = false) w := by
  have hns : ∀ z ∈ sent c, -2 ^ 31 ≤ z ∧ z < 2 ^ 31 := by
    simp only [sent, List.mem_cons, List.not_mem_nil, or_false]
    rintro z (rfl | rfl | rfl) <;> omega
  have hsent := sent_sendRaws hserves hns hfree
  rw [hnew, List.nil_append] at hsent
  refine wp_mono (fun o w' => ?_) (main_stopped (Storing.stepperControl.fits mem hbit hevent)
    h0 h1 hw tr ((0, sram), out) k n)
  rintro hstopped ⟨hposted, hall⟩ ⟨reg, sram'⟩ hlow hmem
  rw [hsent] at hposted hall
  rw [Storing.stored_heard _ mem hstopped hposted, hall, List.length_map, List.take_length] at hmem
  obtain rfl : sram' = storeWords 0 ((sent c).map rawMessage) sram := hmem
  -- the three words are those that were sent
  have hlen : (sent c).length = 3 := rfl
  have hwords : PulseSupply.onCycles ⟨reg, storeWords 0 ((sent c).map rawMessage) sram⟩ =
        .ofInt 32 c.onCycles ∧
      PulseSupply.totalCycles ⟨reg, storeWords 0 ((sent c).map rawMessage) sram⟩ =
        .ofInt 32 c.totalCycles ∧
      PulseSupply.noOfPulses ⟨reg, storeWords 0 ((sent c).map rawMessage) sram⟩ =
        .ofInt 32 c.noOfPulses :=
    ⟨word_storeWords_rawMessage (j := 0) reg sram (by omega) (by omega),
      word_storeWords_rawMessage (j := 1) reg sram (by omega) (by omega),
      word_storeWords_rawMessage (j := 2) reg sram (by omega) (by omega)⟩
  have hne : BitVec.ofInt 32 c.noOfPulses ≠ 0 := by
    intro hzero
    have hnat := congrArg BitVec.toNat hzero
    rw [toNat_ofInt (by omega) (by omega)] at hnat
    change c.noOfPulses.toNat = 0 at hnat
    omega
  obtain ⟨x', hdoes, hpin, -⟩ :=
    PulseSupply.run_start ⟨reg, storeWords 0 ((sent c).map rawMessage) sram⟩ hlow
  rw [hwords.1, hwords.2.1, hwords.2.2, Stepper.pulsesFor, if_neg hne,
    toNat_ofInt (by omega) (by omega), toNat_ofInt (by omega) (by omega),
    toNat_ofInt (by omega) (by omega), laps_of_lt (by omega) (by omega),
    laps_of_lt (by omega) (by omega)] at hdoes
  have hlow' : (c.totalCycles - c.onCycles).toNat = c.totalCycles.toNat - c.onCycles.toNat := by
    omega
  rw [hlow']
  exact ⟨x', hdoes, hpin⟩

/-- **`done` is read once at most, and not before PRU1 has received three messages**; it is
there to be read when the ARM has collected it and the driver has let it in. -/
theorem motor_done {a : ℕ} (ha : a < 2 ^ 16) (hne : a ≠ 53) :
    wp (Arm S) ((Storing.stepperControl.firmware mem).main tr vring0 vring1 (0, sram) out k n)
      (fun _ w' => (∀ e ∈ (w'.log .vring1).posted, e.msg.src = a) →
        ∀ es dev, DriverRun (handedOver a (w'.log .vring0)) es dev →
          ∃ unread : List Message, dev.msgFifo.data = unread.flatten ∧
            readMsgs es ++ unread <+ [done] ∧
            (readMsgs es ++ unread ≠ [] → 3 ≤ (w'.log .vring1).returned.length) ∧
            ((w'.log .vring0).collected.length = 2 → acceptedMsgs es = cbMsgs es →
              readMsgs es ++ unread = [done])) w := by
  have hfw := Storing.stepperControl.fits mem hbit hevent
  refine wp_mono (fun o w' hstopped hsrc es dev hrun => ?_)
    (main_stopped hfw h0 h1 hw tr ((0, sram), out) k n)
  have hanswers : (answersTo (Storing.stepperControl.firmware mem) ((0, sram), out) w').map
      Msg.payload = if 3 ≤ (w'.log .vring1).returned.length then [done] else [] := by
    refine (payload_answers_stepper mem 0 sram out _).trans (if_congr ?_ rfl rfl)
    rw [List.length_map]
    omega
  have hfull : ∀ m ∈ answersTo (Storing.stepperControl.firmware mem) ((0, sram), out) w',
      m.data ≠ [] := by
    intro m hm hnil
    have hmem := List.mem_map_of_mem (f := Msg.payload) hm
    rw [hanswers, Msg.payload, hnil] at hmem
    split at hmem
    · exact absurd (List.mem_singleton.1 hmem) (by decide)
    · cases hmem
  obtain ⟨unread, hdata, hsub, hall⟩ := reads_of_stopped hstopped hfw.short ha hne hsrc hfull hrun
  rw [hanswers] at hsub
  have hlength := congrArg List.length hanswers
  rw [List.length_map] at hlength
  obtain ⟨replies, hreplies, hreturned, -⟩ := handedOver_eq hstopped ha hne hsrc
  have hle := hreplies.length_le
  have hcollected := hstopped.served.2.1.length_le
  refine ⟨unread, hdata, ?_⟩
  by_cases hthird : 3 ≤ (w'.log .vring1).returned.length
  · rw [if_pos hthird] at hsub hanswers hlength
    rw [List.length_singleton] at hlength
    refine ⟨hsub, fun _ => hthird, fun htwo hlet => ?_⟩
    have htwo' : (w'.log .vring0).returned.length = 2 := by
      rcases hreturned with hnone | hsome
      · rw [hnone, List.length_nil] at hcollected
        omega
      · omega
    rw [hall (by omega) hlet, htwo, List.take_of_length_le (by omega), hanswers]
  · rw [if_neg hthird] at hsub hlength
    rw [List.length_nil] at hlength
    rw [List.sublist_nil.1 hsub]
    refine ⟨List.nil_sublist _, fun h => absurd rfl h, fun htwo _ => ?_⟩
    rcases hreturned with hnone | hsome
    · rw [hnone, List.length_nil] at hcollected
      omega
    · omega

end Calls

/-! ## A run -/

theorem motor_pins_two :
    wp (Arm pru1Setup) ((Storing.stepperControl.firmware fun _ => 0).main pru1Transport
      ⟨0x9000, 16, 16, 0⟩ ⟨0xA000, 16, 16, 1⟩ (0, fun _ => 0) ⟨0, 0, fun _ => 0, 0⟩ 9 9)
      (fun _ w' =>
        Delivered w' (sendRaws (configured [] 1000 10 .default) apiPru1
          (Daemon.rpmsgDevnode "pruss_api_pru".toList 31) (sent ⟨50, 100, 2⟩) .probed) →
        ∀ x : Data, pin 0 x = false →
          x.mem = ((Storing.stepperControl.firmware fun _ => 0).after
            ((0, fun _ => 0), ⟨0, 0, fun _ => 0, 0⟩) (Storing.heard w')).1.2 →
          ∃ x', Does PulseSupply.program PulseSupply.watch.see ⟨.start, 0, x⟩
              (List.replicate (2 : ℤ).toNat (PulseSupply.pulse (50 : ℤ).toNat
                ((100 : ℤ) - 50).toNat)).flatten ⟨.stop, 0, x'⟩ ∧
            pin 0 x' = false) .zero :=
  motor_pins rfl rfl rfl rfl start_pru1 _ _ _ _ 9 9 serves_apiPru1 rfl rfl (c := ⟨50, 100, 2⟩)
    (by decide) (by decide) (by decide) (by decide) (by decide)

theorem motor_done_1024 :
    wp (Arm pru1Setup) ((Storing.stepperControl.firmware fun _ => 0).main pru1Transport
      ⟨0x9000, 16, 16, 0⟩ ⟨0xA000, 16, 16, 1⟩ (0, fun _ => 0) ⟨0, 0, fun _ => 0, 0⟩ 9 9)
      (fun _ w' => (∀ e ∈ (w'.log .vring1).posted, e.msg.src = 1024) →
        ∀ es dev, DriverRun (handedOver 1024 (w'.log .vring0)) es dev →
          ∃ unread : List Message, dev.msgFifo.data = unread.flatten ∧
            readMsgs es ++ unread <+ [done] ∧
            (readMsgs es ++ unread ≠ [] → 3 ≤ (w'.log .vring1).returned.length) ∧
            ((w'.log .vring0).collected.length = 2 → acceptedMsgs es = cbMsgs es →
              readMsgs es ++ unread = [done])) .zero :=
  motor_done rfl rfl rfl rfl start_pru1 _ _ _ _ 9 9 (by decide) (by decide)

end System
