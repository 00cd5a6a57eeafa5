import PrussBindings.Firmware.MultichannelLoop
import PrussBindings.Firmware.MultichannelWaveform
import PrussBindings.Firmware.Pwm
import PrussBindings.Firmware.SingleChannelWaveform
import PrussBindings.Rpmsg.Storing

/-!
# From the call to the pins

The generators under `examples/firmware_examples`: user space sends numbers with
`sendMsg_raw`, the daemon packs them, the driver hands them to rpmsg, PRU1 stores them, and
PRU0 loads them and makes waves on its pins.

* `sendRaws`, `sent_sendRaws` — the calls of user space, through the daemon and the driver.
* `Delivered`, `stored_spec` — **what user space has sent is in the shared memory** when PRU1
  has received it.
* `pwm_pins`, `waveform_pins`, `multichannelPwm_pins`, `multichannelWaveform_pins` — **what
  then is seen on the pins**.
-/

namespace System

open Client Driver Effect PruIsa Rpmsg SharedRam Text

/-! ## The calls of user space -/

/-- `sendMsg_raw(to_string(n))` for one number after the other. -/
def sendRaws (setup : Daemon.Setup) (p : PRU) (node : Str) : List ℤ → RpmsgDevice → RpmsgDevice
  | [], d => d
  | n :: ns, d => sendRaws setup p node ns (sendRaw setup p node n d).2

/-- The PRU object is on a channel that the daemon serves. -/
structure Serves (setup : Daemon.Setup) (p : PRU) (chan : Str) : Prop where
  chanName : p.chanName = encode chan
  token : IsToken chan
  listed : chan ∈ setup.paths.rpmsgChannels

section Calls

variable {setup : Daemon.Setup} {p : PRU} {chan : Str}

/-- What the driver hands to rpmsg. -/
theorem sent_sendRaws (h : Serves setup p chan) {ns : List ℤ}
    (hns : ∀ n ∈ ns, -2 ^ 31 ≤ n ∧ n < 2 ^ 31) {d : RpmsgDevice} (hd : d.dev.locked = false) :
    (sendRaws setup p (Daemon.rpmsgDevnode chan p.chanPort.val) ns d).sent =
      d.sent ++ ns.map rawMessage := by
  induction ns generalizing d with
  | nil => simp [sendRaws]
  | cons n ns ih =>
    have hn := hns n (List.mem_cons_self ..)
    have hspec := sendRaw_spec h.chanName h.token h.listed hd (allows_of_signed _ hn)
    rw [if_pos hn] at hspec
    rw [sendRaws, ih (fun m hm => hns m (List.mem_cons_of_mem _ hm)) (by rw [hspec]; rfl), hspec,
      List.map_cons]
    exact List.append_assoc ..

end Calls

/-! ## What PRU1 has stored -/

/-- A number that fits is its own word. -/
theorem toNat_ofInt {z : ℤ} (hz : 0 ≤ z) (hlt : z < 2 ^ 32) :
    (BitVec.ofInt 32 z).toNat = z.toNat := by
  rw [BitVec.toNat_ofInt]
  omega

/-- Everything that the driver handed to rpmsg has been received by the PRU. -/
def Delivered (w : World) (d : RpmsgDevice) : Prop :=
  (w.log .vring1).posted.map (fun e => e.msg.payload) = d.sent ∧
    (w.log .vring1).returned.length = d.sent.length

section Pins

variable {S : Rpmsg.Setup} {w : World} {vring0 vring1 : FwRscVdevVring} {setup : Daemon.Setup}
  {p : PRU} {chan : Str} {d : RpmsgDevice} (hserves : Serves setup p chan)
  (hfree : d.dev.locked = false) (hnew : d.sent = []) (hbit : S.hostBit = 31)
  (hevent : S.fromArmEvent = 19)
  (h0 : S.vring .vring0 = .init vring0.num vring0.da (vring0.align.setWidth 64))
  (h1 : S.vring .vring1 = .init vring1.num vring1.da (vring1.align.setWidth 64))
  (hw : Start S w) (mem : ℕ → ℕ) (tr : PruRpmsgTransport) (sram : Mem) (out : Received) (k n : ℕ)

include hserves hfree hnew hbit hevent h0 h1 hw

/-- **What user space has sent is in the shared memory** when PRU1 has received it. -/
theorem stored_spec {ns : List ℤ} (hns : ∀ n ∈ ns, -2 ^ 31 ≤ n ∧ n < 2 ^ 31) (prog : Storing) :
    wp (Arm S) ((prog.firmware mem).main tr vring0 vring1 (0, sram) out k n) (fun o w' =>
      ∀ tr' i sram' out', o = .ret (tr', (i, sram'), out') →
        Delivered w' (sendRaws setup p (Daemon.rpmsgDevnode chan p.chanPort.val) ns d) →
        sram' = prog.stores (ns.map rawMessage) sram) w := by
  have hsent := sent_sendRaws hserves hns hfree
  rw [hnew, List.nil_append] at hsent
  refine wp_mono (fun o w' => ?_)
    (main_stopped (prog.fits mem hbit hevent) h0 h1 hw tr ((0, sram), out) k n)
  rintro hstopped tr' i sram' out' rfl ⟨hposted, hall⟩
  rw [hsent] at hposted hall
  have hstored := prog.stored_of_stopped mem hstopped hposted
  rwa [hall, List.length_map, List.take_length] at hstored

/-! ## What is seen on the pins -/

/-- **One PWM channel**: when PRU1 has received both numbers, PRU0 makes one period after
the other, as long as the numbers say. -/
theorem pwm_pins {frequency dutyCycle : ℚ} (hf : 1 ≤ frequency) (hf' : frequency ≤ 1000000)
    (hc : 0 ≤ dutyCycle) (hc' : dutyCycle ≤ 1) :
    wp (Arm S) ((Storing.pwm.firmware mem).main tr vring0 vring1 (0, sram) out k n) (fun o w' =>
      ∀ tr' i sram' out', o = .ret (tr', (i, sram'), out') →
        Delivered w' (sendRaws setup p (Daemon.rpmsgDevnode chan p.chanPort.val)
          [Pwm.sentOn frequency dutyCycle, Pwm.sentTotal frequency] d) →
        ∀ reg periods, ∃ d', Does Pwm.program Pwm.see ⟨.start, 0, ⟨reg, sram'⟩⟩
          (List.replicate periods (Pwm.period (laps 32 0 (Pwm.sentOn frequency dutyCycle).toNat)
            (laps 32 (Pwm.sentOn frequency dutyCycle).toNat
              (Pwm.sentTotal frequency).toNat))).flatten ⟨.sampleStart, 0, d'⟩) w := by
  obtain ⟨hon, hle, -, htotal⟩ := Pwm.sent_bounds hf hf' hc hc'
  have hns : ∀ n ∈ [Pwm.sentOn frequency dutyCycle, Pwm.sentTotal frequency],
      -2 ^ 31 ≤ n ∧ n < 2 ^ 31 := by
    simp only [List.mem_cons, List.not_mem_nil, or_false]
    rintro n (rfl | rfl) <;> omega
  refine wp_mono (fun o w' hstored tr' i sram' out' ho hdelivered reg periods => ?_)
    (stored_spec hserves hfree hnew hbit hevent h0 h1 hw mem tr sram out k n hns .pwm)
  have hsram := hstored tr' i sram' out' ho hdelivered
  obtain ⟨d', hdoes, -⟩ := Pwm.run_start ⟨reg, sram'⟩ periods
  have hwords : Pwm.onSamples ⟨reg, sram'⟩ = .ofInt 32 (Pwm.sentOn frequency dutyCycle) ∧
      Pwm.totalSamples ⟨reg, sram'⟩ = .ofInt 32 (Pwm.sentTotal frequency) := by
    rw [hsram]
    exact ⟨word_storeWords_rawMessage (j := 0) reg sram (by simp) (by simp),
      word_storeWords_rawMessage (j := 1) reg sram (by simp) (by simp)⟩
  rw [hwords.1, hwords.2, toNat_ofInt hon (by omega), toNat_ofInt (by omega) (by omega)] at hdoes
  exact ⟨d', hdoes⟩

/-- **One channel with a waveform**: when PRU1 has received the samples, PRU0 plays all of
them but the last, again and again. -/
theorem waveform_pins {samplestep : ℤ} {samples : List ℕ} (hstep : 0 ≤ samplestep)
    (hstep' : samplestep < 2 ^ 8) (hN : 1 ≤ samples.length) (hN' : samples.length ≤ 254)
    (hbyte : ∀ v ∈ samples, v < 2 ^ 8) :
    wp (Arm S) ((Storing.analogWaveGen.firmware mem).main tr vring0 vring1 (0, sram) out k n)
      (fun o w' => ∀ tr' i sram' out', o = .ret (tr', (i, sram'), out') →
        Delivered w' (sendRaws setup p (Daemon.rpmsgDevnode chan p.chanPort.val)
          (SingleChannelWaveform.sent samplestep samples) d) →
        ∀ reg passes, ∃ d', Does SingleChannelWaveform.program SingleChannelWaveform.see
          ⟨.start, 0, ⟨reg, sram'⟩⟩
          ((List.range passes).flatMap fun j => SingleChannelWaveform.pass
            (SingleChannelWaveform.dutyAt samples (j % max (samples.length - 1) 1)))
          ⟨.sampleStart, 0, d'⟩) w := by
  have hns : ∀ n ∈ SingleChannelWaveform.sent samplestep samples, -2 ^ 31 ≤ n ∧ n < 2 ^ 31 := by
    simp only [SingleChannelWaveform.sent, List.mem_cons, List.mem_map]
    rintro n (rfl | rfl | ⟨v, hv, rfl⟩)
    · omega
    · omega
    · have := hbyte v hv
      omega
  refine wp_mono (fun o w' hstored tr' i sram' out' ho hdelivered reg passes => ?_)
    (stored_spec hserves hfree hnew hbit hevent h0 h1 hw mem tr sram out k n hns .analogWaveGen)
  rw [hstored tr' i sram' out' ho hdelivered]
  exact SingleChannelWaveform.does_passes samplestep hN hN' hbyte ⟨reg, sram⟩ passes

/-- **Four PWM channels**: when PRU1 has received the numbers, the pins of PRU0 are those of
the C program, with the first four numbers for `on` and the others for `off`. -/
theorem multichannelPwm_pins {dc : Fin 4 → ℚ} (hdc : ∀ c, 0 < dc c ∧ dc c < 1) :
    wp (Arm S) ((Storing.multichannelPwm.firmware mem).main tr vring0 vring1 (0, sram) out k n)
      (fun o w' => ∀ tr' i sram' out', o = .ret (tr', (i, sram'), out') →
        Delivered w' (sendRaws setup p (Daemon.rpmsgDevnode chan p.chanPort.val)
          (MultichannelPwm.sent dc) d) →
        ∀ reg iterations, ∃ d', Does MultichannelPwm.program MultichannelPwm.see
            ⟨.setup, 0, ⟨reg, sram'⟩⟩ (List.replicate iterations ()) ⟨.startif, 0, d'⟩ ∧
          d'.read R30 = ((MultichannelPwm.Multi.loop
            (fun c => .ofInt 32 ((MultichannelPwm.sent dc).getD c 0))
            (fun c => .ofInt 32 ((MultichannelPwm.sent dc).getD (4 + c) 0)))^[iterations]
            (.start (fun c => .ofInt 32 ((MultichannelPwm.sent dc).getD c 0))
              (fun c => .ofInt 32 ((MultichannelPwm.sent dc).getD (4 + c) 0))
              (Data.read ⟨reg, sram'⟩ R30))).r30) w := by
  have hns : ∀ n ∈ MultichannelPwm.sent dc, -2 ^ 31 ≤ n ∧ n < 2 ^ 31 := by
    intro n hn
    have := MultichannelPwm.sent_bounds hdc n hn
    omega
  refine wp_mono (fun o w' hstored tr' i sram' out' ho hdelivered reg iterations => ?_)
    (stored_spec hserves hfree hnew hbit hevent h0 h1 hw mem tr sram out k n hns .multichannelPwm)
  have hsram : (⟨reg, sram'⟩ : Data) = MultichannelPwm.stored dc ⟨reg, sram⟩ := by
    rw [hstored tr' i sram' out' ho hdelivered]
    rfl
  obtain ⟨d', hdoes, hmatches⟩ := MultichannelPwm.does_iterations ⟨reg, sram'⟩ iterations
  have hon : MultichannelPwm.onByte ⟨reg, sram'⟩ =
      fun c => .ofInt 32 ((MultichannelPwm.sent dc).getD c 0) := by
    funext c
    rw [hsram]
    exact MultichannelPwm.stored_addr hdc ⟨reg, sram⟩ (by omega)
  have hoff : MultichannelPwm.offByte ⟨reg, sram'⟩ =
      fun c => .ofInt 32 ((MultichannelPwm.sent dc).getD (4 + c) 0) := by
    funext c
    rw [hsram]
    exact MultichannelPwm.stored_addr hdc ⟨reg, sram⟩ (by omega)
  rw [hon, hoff] at hmatches
  exact ⟨d', hdoes, hmatches.pins⟩

/-- **Eight channels with waveforms**: when PRU1 has received the samples, PRU0 plays them
on all channels, and the first of them once more before each repetition. -/
theorem multichannelWaveform_pins {total : ℤ} (htotal : -2 ^ 31 ≤ total) (htotal' : total < 2 ^ 31)
    (waves : MultichannelWaveform.Waves) :
    wp (Arm S) ((Storing.multichannelWaveformGen.firmware mem).main tr vring0 vring1 (0, sram) out
        k n)
      (fun o w' => ∀ tr' i sram' out', o = .ret (tr', (i, sram'), out') →
        Delivered w' (sendRaws setup p (Daemon.rpmsgDevnode chan p.chanPort.val)
          (MultichannelWaveform.sent total waves) d) →
        ∀ reg passes, ∃ d', Does MultichannelWaveform.program MultichannelWaveform.see
          ⟨.start, 0, ⟨reg, sram'⟩⟩
          ((List.range passes).flatMap fun j => MultichannelWaveform.pass fun c =>
            MultichannelWaveform.dutyAt waves c
              (if j % (waves.n + 1) < waves.n then j % (waves.n + 1) else 0))
          ⟨.sampleStart, 0, d'⟩) w := by
  have hns : ∀ n ∈ MultichannelWaveform.sent total waves, -2 ^ 31 ≤ n ∧ n < 2 ^ 31 := by
    simp only [MultichannelWaveform.sent, List.mem_cons, List.mem_flatMap, List.mem_map,
      List.mem_range]
    rintro n (rfl | ⟨i, hi, c, -, rfl⟩)
    · exact ⟨htotal, htotal'⟩
    · have := waves.marked_lt c (Nat.le_of_lt_succ hi)
      omega
  refine wp_mono (fun o w' hstored tr' i sram' out' ho hdelivered reg passes => ?_)
    (stored_spec hserves hfree hnew hbit hevent h0 h1 hw mem tr sram out k n hns
      .multichannelWaveformGen)
  rw [hstored tr' i sram' out' ho hdelivered]
  exact MultichannelWaveform.does_passes total waves ⟨reg, sram⟩ passes

end Pins

/-! ## Runs -/

/-- The vrings of the PRU1 programs. -/
def pru1Setup : Rpmsg.Setup := { echoLayout.setup with hostBit := 31, fromArmEvent := 19 }

/-- What lies on the stack of PRU1 when `main` begins. -/
def pru1Transport : PruRpmsgTransport := ⟨.init ⟨0, 0, 0, 0⟩ 0 0, .init ⟨0, 0, 0, 0⟩ 0 0⟩

theorem start_pru1 : Start pru1Setup .zero := ⟨fun _ => rfl, fun _ => rfl, fun _ => rfl, rfl⟩

/-- The member `pru1` is on a channel of the daemon. -/
theorem serves_apiPru1 : Serves (configured [] 1000 10 .default) apiPru1 "pruss_api_pru".toList :=
  ⟨rfl, by decide, by decide⟩

/-- A duty cycle of a half at 1 kHz. -/
theorem pwm_pins_half :
    wp (Arm pru1Setup) ((Storing.pwm.firmware fun _ => 0).main pru1Transport
      ⟨0x9000, 16, 16, 0⟩ ⟨0xA000, 16, 16, 1⟩ (0, fun _ => 0) ⟨0, 0, fun _ => 0, 0⟩ 9 9)
      (fun o w' => ∀ tr' i sram' out', o = .ret (tr', (i, sram'), out') →
        Delivered w' (sendRaws (configured [] 1000 10 .default) apiPru1
          (Daemon.rpmsgDevnode "pruss_api_pru".toList 31)
          [Pwm.sentOn 1000 (1 / 2), Pwm.sentTotal 1000] .probed) →
        ∀ reg periods, ∃ d', Does Pwm.program Pwm.see ⟨.start, 0, ⟨reg, sram'⟩⟩
          (List.replicate periods (Pwm.period (laps 32 0 (Pwm.sentOn 1000 (1 / 2)).toNat)
            (laps 32 (Pwm.sentOn 1000 (1 / 2)).toNat (Pwm.sentTotal 1000).toNat))).flatten
          ⟨.sampleStart, 0, d'⟩) .zero :=
  pwm_pins serves_apiPru1 rfl rfl rfl rfl rfl rfl start_pru1 _ _ _ _ 9 9 (by norm_num)
    (by norm_num) (by norm_num) (by norm_num)

theorem waveform_pins_two :
    wp (Arm pru1Setup) ((Storing.analogWaveGen.firmware fun _ => 0).main pru1Transport
      ⟨0x9000, 16, 16, 0⟩ ⟨0xA000, 16, 16, 1⟩ (0, fun _ => 0) ⟨0, 0, fun _ => 0, 0⟩ 9 9)
      (fun o w' => ∀ tr' i sram' out', o = .ret (tr', (i, sram'), out') →
        Delivered w' (sendRaws (configured [] 1000 10 .default) apiPru1
          (Daemon.rpmsgDevnode "pruss_api_pru".toList 31)
          (SingleChannelWaveform.sent 1 [10, 20]) .probed) →
        ∀ reg passes, ∃ d', Does SingleChannelWaveform.program SingleChannelWaveform.see
          ⟨.start, 0, ⟨reg, sram'⟩⟩
          ((List.range passes).flatMap fun j => SingleChannelWaveform.pass
            (SingleChannelWaveform.dutyAt [10, 20] (j % max ([10, 20].length - 1) 1)))
          ⟨.sampleStart, 0, d'⟩) .zero :=
  waveform_pins serves_apiPru1 rfl rfl rfl rfl rfl rfl start_pru1 _ _ _ _ 9 9 (by decide)
    (by decide) (by decide) (by decide) (by decide)

theorem multichannelPwm_pins_half :
    wp (Arm pru1Setup) ((Storing.multichannelPwm.firmware fun _ => 0).main pru1Transport
      ⟨0x9000, 16, 16, 0⟩ ⟨0xA000, 16, 16, 1⟩ (0, fun _ => 0) ⟨0, 0, fun _ => 0, 0⟩ 9 9)
      (fun o w' => ∀ tr' i sram' out', o = .ret (tr', (i, sram'), out') →
        Delivered w' (sendRaws (configured [] 1000 10 .default) apiPru1
          (Daemon.rpmsgDevnode "pruss_api_pru".toList 31)
          (MultichannelPwm.sent fun _ => 1 / 2) .probed) →
        ∀ reg iterations, ∃ d', Does MultichannelPwm.program MultichannelPwm.see
            ⟨.setup, 0, ⟨reg, sram'⟩⟩ (List.replicate iterations ()) ⟨.startif, 0, d'⟩ ∧
          d'.read R30 = ((MultichannelPwm.Multi.loop
            (fun c => .ofInt 32 ((MultichannelPwm.sent fun _ => 1 / 2).getD c 0))
            (fun c => .ofInt 32 ((MultichannelPwm.sent fun _ => 1 / 2).getD (4 + c) 0)))^[iterations]
            (.start (fun c => .ofInt 32 ((MultichannelPwm.sent fun _ => 1 / 2).getD c 0))
              (fun c => .ofInt 32 ((MultichannelPwm.sent fun _ => 1 / 2).getD (4 + c) 0))
              (Data.read ⟨reg, sram'⟩ R30))).r30) .zero :=
  multichannelPwm_pins serves_apiPru1 rfl rfl rfl rfl rfl rfl start_pru1 _ _ _ _ 9 9
    fun _ => by norm_num

theorem multichannelWaveform_pins_two :
    wp (Arm pru1Setup) ((Storing.multichannelWaveformGen.firmware fun _ => 0).main pru1Transport
      ⟨0x9000, 16, 16, 0⟩ ⟨0xA000, 16, 16, 1⟩ (0, fun _ => 0) ⟨0, 0, fun _ => 0, 0⟩ 9 9)
      (fun o w' => ∀ tr' i sram' out', o = .ret (tr', (i, sram'), out') →
        Delivered w' (sendRaws (configured [] 1000 10 .default) apiPru1
          (Daemon.rpmsgDevnode "pruss_api_pru".toList 31)
          (MultichannelWaveform.sent 16 MultichannelWaveform.twoSamples) .probed) →
        ∀ reg passes, ∃ d', Does MultichannelWaveform.program MultichannelWaveform.see
          ⟨.start, 0, ⟨reg, sram'⟩⟩
          ((List.range passes).flatMap fun j => MultichannelWaveform.pass fun c =>
            MultichannelWaveform.dutyAt MultichannelWaveform.twoSamples c
              (if j % (MultichannelWaveform.twoSamples.n + 1) < MultichannelWaveform.twoSamples.n
                then j % (MultichannelWaveform.twoSamples.n + 1) else 0))
          ⟨.sampleStart, 0, d'⟩) .zero :=
  multichannelWaveform_pins serves_apiPru1 rfl rfl rfl rfl rfl rfl start_pru1 _ _ _ _ 9 9
    (by decide) (by decide) MultichannelWaveform.twoSamples

end System
