import PrussBindings.Firmware.SharedRam
import PrussBindings.Rpmsg.Service

/-!
# The programs that store what they receive

PRU1 of `example3-pwm/pwm-assembly`, `example4-analog-wave-gen`,
`example5-multichannel-pwm`, `example7-stepper-control` and
`example9-multichannel-waveform-gen` stores the messages in the shared memory of the PRUs,
one after the other.  `Firmware.SharedRam` has these loops over a list of messages; here
they receive them over rpmsg.

* `Msg.payload`, `bytesOf` — the bytes of a message, and those at the front of `payload`.
* `storeWords`, `word_storeWords` — the loop that stores words; **they lie in the order in
  which they were sent**.
* `Storing`, `Storing.firmware` — the five programs; `Storing.stores` — the loops.
* `after_eq`, `foldl_body` — the body of the loop, message by message, is that loop.
* `storing_spec` — **the shared memory holds the integers that the ARM has sent**, as far
  as they were received, in the order in which it sent them.
-/

namespace Rpmsg

open Effect Driver PruIsa SharedRam

/-- The bytes of a message. -/
def Msg.payload (m : Msg) : Message := m.data.map .ofNat

/-- The first `n` bytes of `payload`. -/
def bytesOf (payload : ℕ → ℕ) (n : ℕ) : Message := (List.range n).map fun i => .ofNat (payload i)

/-- The four bytes of the word `i`. -/
def storeWordAt (i : ℕ) (x : Word) (mem : Mem) : Mem :=
  Function.update (Function.update (Function.update (Function.update mem
    (addr (4 * i)) (x.extractLsb' 0 8)) (addr (4 * i + 1)) (x.extractLsb' 8 8))
    (addr (4 * i + 2)) (x.extractLsb' 16 8)) (addr (4 * i + 3)) (x.extractLsb' 24 8)

/-- `*(sram_pointer+i) = *(uint32_t*)payload; i++;` for one message after the other. -/
def storeWords : ℕ → List Message → Mem → Mem
  | _, [], mem => mem
  | i, payload :: rest, mem => storeWords (i + 1) rest (storeWordAt i (wordLoad payload) mem)

/-! ## The words -/

section Words

variable {i j : ℕ} (reg : Reg → PruIsa.Word) (x : PruIsa.Word) (mem : Mem)

theorem addr_add (i k : ℕ) : addr i + .ofNat 32 k = addr (i + k) := by
  rw [addr, addr, BitVec.add_assoc, BitVec.ofNat_add]

/-- The bytes of a word, one after the other. -/
theorem word_addr (i : ℕ) : Data.word ⟨reg, mem⟩ (addr i) =
    mem (addr (i + 3)) ++ (mem (addr (i + 2)) ++ (mem (addr (i + 1)) ++ mem (addr i))) := by
  rw [← addr_add i 1, ← addr_add i 2, ← addr_add i 3]
  rfl

theorem word_storeWordAt_self (hi : 4 * i + 4 ≤ 2 ^ 32) :
    Data.word ⟨reg, storeWordAt i x mem⟩ (addr (4 * i)) = x := by
  have hne {k l : ℕ} (hkl : k < l) (hl : l < 4) : addr (4 * i + k) ≠ addr (4 * i + l) := by
    rw [Ne, addr_inj (by omega) (by omega)]
    omega
  have h01 : addr (4 * i) ≠ addr (4 * i + 1) := hne (k := 0) (by decide) (by decide)
  have h02 : addr (4 * i) ≠ addr (4 * i + 2) := hne (k := 0) (by decide) (by decide)
  have h03 : addr (4 * i) ≠ addr (4 * i + 3) := hne (k := 0) (by decide) (by decide)
  have h12 : addr (4 * i + 1) ≠ addr (4 * i + 2) := hne (by decide) (by decide)
  have h13 : addr (4 * i + 1) ≠ addr (4 * i + 3) := hne (by decide) (by decide)
  have h23 : addr (4 * i + 2) ≠ addr (4 * i + 3) := hne (by decide) (by decide)
  rw [word_addr, storeWordAt]
  simp only [Function.update_self, Function.update_of_ne h01, Function.update_of_ne h02,
    Function.update_of_ne h03, Function.update_of_ne h12, Function.update_of_ne h13,
    Function.update_of_ne h23]
  -- bit by bit, the parts make up the word
  apply BitVec.eq_of_getLsbD_eq
  intro b hb
  simp only [BitVec.getLsbD_append, BitVec.getLsbD_extractLsb']
  grind

theorem word_storeWordAt_of_ne (hij : i ≠ j) (hi : 4 * i + 4 ≤ 2 ^ 32) (hj : 4 * j + 4 ≤ 2 ^ 32) :
    Data.word ⟨reg, storeWordAt i x mem⟩ (addr (4 * j)) = Data.word ⟨reg, mem⟩ (addr (4 * j)) := by
  have hbyte {k : ℕ} (hk : k < 4) : storeWordAt i x mem (addr (4 * j + k)) =
      mem (addr (4 * j + k)) := by
    have hne {l : ℕ} (hl : l < 4) : addr (4 * j + k) ≠ addr (4 * i + l) := by
      rw [Ne, addr_inj (by omega) (by omega)]
      omega
    have hfirst : addr (4 * j + k) ≠ addr (4 * i) := hne (l := 0) (by decide)
    rw [storeWordAt, Function.update_of_ne (hne (by decide)),
      Function.update_of_ne (hne (by decide)), Function.update_of_ne (hne (by decide)),
      Function.update_of_ne hfirst]
  have hzero : storeWordAt i x mem (addr (4 * j)) = mem (addr (4 * j)) := hbyte (k := 0) (by decide)
  rw [word_addr, word_addr, hzero, hbyte (by decide), hbyte (by decide), hbyte (by decide)]

/-- The words before are not touched. -/
theorem word_storeWords_of_lt {msgs : List Message} (hij : j < i)
    (hfit : 4 * (i + msgs.length) ≤ 2 ^ 32) :
    Data.word ⟨reg, storeWords i msgs mem⟩ (addr (4 * j)) =
      Data.word ⟨reg, mem⟩ (addr (4 * j)) := by
  induction msgs generalizing i mem with
  | nil => rfl
  | cons m msgs ih =>
    rw [List.length_cons] at hfit
    rw [storeWords, ih _ (by omega) (by omega),
      word_storeWordAt_of_ne _ _ _ (by omega) (by omega) (by omega)]

/-- **The words lie in the order in which they were sent.** -/
theorem word_storeWords {msgs : List Message} (hj : j < msgs.length)
    (hfit : 4 * (i + msgs.length) ≤ 2 ^ 32) :
    Data.word ⟨reg, storeWords i msgs mem⟩ (addr (4 * (i + j))) = wordLoad msgs[j] := by
  induction msgs generalizing i j mem with
  | nil => simp at hj
  | cons m msgs ih =>
    rw [List.length_cons] at hfit hj
    cases j with
    | zero =>
      rw [Nat.add_zero, storeWords, word_storeWords_of_lt _ _ (by omega) (by omega),
        word_storeWordAt_self _ _ _ (by omega)]
      rfl
    | succ j =>
      rw [storeWords, show i + (j + 1) = i + 1 + j by omega, ih _ (by omega) (by omega)]
      rfl

/-- A number of 32 bits, as the PRU loads it. -/
theorem wordLoad_rawMessage (n : ℤ) : wordLoad (rawMessage n) = .ofInt 32 n := by
  have hlt : (n % 2 ^ 32).toNat < 2 ^ 32 := by omega
  apply BitVec.eq_of_toNat_eq
  rw [wordLoad, rawMessage, System.leLoad_leBytes hlt, BitVec.toNat_ofNat, BitVec.toNat_ofInt,
    Nat.mod_eq_of_lt hlt]
  rfl

/-- Where the loop has stored a number. -/
theorem word_storeWords_rawMessage {ns : List ℤ} (hj : j < ns.length)
    (hfit : 4 * ns.length ≤ 2 ^ 32) :
    Data.word ⟨reg, storeWords 0 (ns.map rawMessage) mem⟩ (addr (4 * j)) = .ofInt 32 ns[j] := by
  have hlen : j < (ns.map rawMessage).length := by rwa [List.length_map]
  have hword := word_storeWords (i := 0) reg mem hlen (by rwa [List.length_map, Nat.zero_add])
  rw [Nat.zero_add, List.getElem_map, wordLoad_rawMessage] at hword
  exact hword

end Words

/-- The programs, by the examples that they belong to. -/
inductive Storing where
  | pwm
  | analogWaveGen
  | multichannelPwm
  | stepperControl
  | multichannelWaveformGen
  deriving DecidableEq, Repr

namespace Storing

/-- `*(sram_pointer+i) = *(uint8_t *) payload; i++;` -/
def storeByte (s : ℕ × Mem) (payload : Message) : ℕ × Mem :=
  (s.1 + 1, Function.update s.2 (addr s.1) (byteLoad payload))

/-- The body of the loop, over `i` and the shared memory; it looks at no more than the
first four bytes of `payload`. -/
def body : Storing → ℕ × Mem → Message → ℕ × Mem
  | .pwm, (i, mem), payload | .stepperControl, (i, mem), payload =>
    (i + 1, storeWordAt i (wordLoad payload) mem)
  | .analogWaveGen, s, payload | .multichannelPwm, s, payload => storeByte s payload
  | .multichannelWaveformGen, (i, mem), payload =>
    if i = 0 then (i + 4, storeWord (wordLoad payload) mem) else storeByte (i, mem) payload

/-- What is sent after the message `i`: `done`, when PRU0 has raised its event. -/
def reply (mem : ℕ → ℕ) (i : ℕ) : Storing → Option ((ℕ → ℕ) × ℕ)
  | .stepperControl => if i + 1 = 3 then some (literal "done\n" mem, 5) else none
  | _ => none

/-- `PRU1/main.c`. -/
def firmware (p : Storing) (mem : ℕ → ℕ) : Firmware (ℕ × Mem) where
  hostInt := 2 ^ 31
  toArmHost := 18
  fromArmHost := 19
  chanName := literal (if p = .multichannelPwm then "rpmsg-pru" else "pruss-api") mem
  chanDesc := literal (if p = .multichannelPwm then "Channel 31" else "Channel 1") mem
  chanPort := if p = .multichannelPwm then 31 else 1
  body s out := (p.body s (bytesOf out.data 4), p.reply mem s.1)
  awaits := if p = .stepperControl then some (2 ^ 30, 16) else none

/-- The loop over a list of messages. -/
def stores : Storing → List Message → Mem → Mem
  | .pwm | .stepperControl => storeWords 0
  | .analogWaveGen | .multichannelPwm => storeBytes 0
  | .multichannelWaveformGen => storeSamples

/-! ## Message by message -/

/-- A message of four bytes is at the front of `payload`. -/
theorem bytesOf_received {m : Msg} (hm : m.data.length = 4) (out : Received) :
    bytesOf (m.received out).data 4 = m.payload := by
  obtain ⟨a, b, c, d, hdata⟩ : ∃ a b c d, m.data = [a, b, c, d] := by
    obtain ⟨src, dst, res, flags, _ | ⟨a, _ | ⟨b, _ | ⟨c, _ | ⟨d, _ | _⟩⟩⟩⟩⟩ := m <;> simp_all
  simp [bytesOf, Msg.received, Msg.payload, hdata, List.range_succ]

section After

variable (p : Storing) (mem : ℕ → ℕ)

/-- The body of the loop runs once for each message. -/
theorem after_eq {ms : List Msg} (s : ℕ × Mem) (out : Received)
    (hms : ∀ m ∈ ms, m.data.length = 4) :
    ((p.firmware mem).after (s, out) ms).1 = (ms.map Msg.payload).foldl p.body s := by
  induction ms generalizing s out with
  | nil => rfl
  | cons m ms ih =>
    have hstep : ((p.firmware mem).step (s, out) m).1 = (p.body s m.payload, m.received out) := by
      rw [← bytesOf_received (hms m (List.mem_cons_self ..)) out]
      rfl
    rw [Firmware.after, List.foldl_cons, hstep, List.map_cons, List.foldl_cons]
    exact ih _ _ fun m' hm' => hms m' (List.mem_cons_of_mem _ hm')

theorem foldl_storeByte (msgs : List Message) (i : ℕ) (sram : Mem) :
    (msgs.foldl storeByte (i, sram)).2 = storeBytes i msgs sram := by
  induction msgs generalizing i sram with
  | nil => rfl
  | cons m msgs ih => exact ih _ _

theorem foldl_storeWord (msgs : List Message) (i : ℕ) (sram : Mem) :
    (msgs.foldl pwm.body (i, sram)).2 = storeWords i msgs sram := by
  induction msgs generalizing i sram with
  | nil => rfl
  | cons m msgs ih => exact ih _ _

/-- After the first message the counter is not zero again. -/
theorem foldl_samples (msgs : List Message) {i : ℕ} (hi : 0 < i) (sram : Mem) :
    (msgs.foldl multichannelWaveformGen.body (i, sram)).2 = storeBytes i msgs sram := by
  induction msgs generalizing i sram with
  | nil => rfl
  | cons m msgs ih =>
    have hbody : multichannelWaveformGen.body (i, sram) m = storeByte (i, sram) m := if_neg hi.ne'
    rw [List.foldl_cons, hbody]
    exact ih (Nat.succ_pos i) _

/-- What the loop makes of the messages. -/
theorem foldl_body (msgs : List Message) (sram : Mem) :
    (msgs.foldl p.body (0, sram)).2 = p.stores msgs sram := by
  cases p with
  | pwm | stepperControl => exact foldl_storeWord msgs 0 sram
  | analogWaveGen | multichannelPwm => exact foldl_storeByte msgs 0 sram
  | multichannelWaveformGen =>
    cases msgs with
    | nil => rfl
    | cons m msgs => exact foldl_samples msgs (by decide : 0 < 0 + 4) _

end After

/-! ## The whole program -/

section Run

variable {S : Setup} {w : World} {vring0 vring1 : FwRscVdevVring}

theorem fits (p : Storing) (mem : ℕ → ℕ) (hbit : S.hostBit = 31) (hevent : S.fromArmEvent = 19) :
    (p.firmware mem).Fits S where
  hostInt := hbit ▸ rfl
  fromArm := hevent.symm
  toArm_valid := (by decide : 16 ≤ 18 ∧ 18 ≤ 31)
  fromArm_valid := (by decide : 16 ≤ 19 ∧ 19 ≤ 31)
  short s out sent _ h := by
    change p.reply mem s.1 = some sent at h
    cases p with
    | stepperControl =>
      obtain ⟨-, hsent⟩ := Option.ite_none_right_eq_some.1 h
      cases hsent
      exact (by decide : 5 ≤ 512 - 16)
    | _ => cases h
  awaits mask event h := by
    obtain ⟨-, hawaits⟩ := Option.ite_none_right_eq_some.1 h
    cases hawaits
    rw [hevent]
    decide

/-- The messages that the program has received. -/
def heard (w : World) : List Msg := (w.log .vring1).returned.map Used.msg

/-- What the program stores of the messages that it has received, wherever it is stopped. -/
theorem stored_heard (p : Storing) (mem : ℕ → ℕ) {sram : Mem} {out : Received}
    {o : Outcome Empty (PruRpmsgTransport × (ℕ × Mem) × Received)}
    (h : (p.firmware mem).Stopped S ((0, sram), out) o w) {ns : List ℤ}
    (hns : (w.log .vring1).posted.map (fun e => e.msg.payload) = ns.map rawMessage) :
    ((p.firmware mem).after ((0, sram), out) (heard w)).1.2 =
      p.stores ((ns.take (w.log .vring1).returned.length).map rawMessage) sram := by
  -- what was received is the first part of what was sent
  have hheard : (heard w).map Msg.payload =
      (ns.take (w.log .vring1).returned.length).map rawMessage := by
    have hpre := List.prefix_iff_eq_take.1 (h.served.1.map Msg.payload)
    rw [List.map_map, List.map_map, List.length_map] at hpre
    rw [List.map_take, ← hns, heard, List.map_map]
    exact hpre
  have hfour : ∀ m ∈ heard w, m.data.length = 4 := by
    intro m hm
    have hmem := List.mem_map_of_mem (f := Msg.payload) hm
    rw [hheard] at hmem
    obtain ⟨z, -, hz⟩ := List.mem_map.1 hmem
    have hlength := congrArg List.length hz
    rw [Msg.payload, List.length_map] at hlength
    exact hlength.symm
  rw [p.after_eq mem _ _ hfour, hheard, foldl_body]

/-- What the program has stored when it is between two rounds. -/
theorem stored_of_stopped (p : Storing) (mem : ℕ → ℕ) {sram sram' : Mem} {out out' : Received}
    {tr' : PruRpmsgTransport} {i : ℕ}
    (h : (p.firmware mem).Stopped S ((0, sram), out) (.ret (tr', (i, sram'), out')) w) {ns : List ℤ}
    (hns : (w.log .vring1).posted.map (fun e => e.msg.payload) = ns.map rawMessage) :
    sram' = p.stores ((ns.take (w.log .vring1).returned.length).map rawMessage) sram := by
  rw [← p.stored_heard mem h hns]
  obtain ⟨g, hat, ⟨ho, -⟩ | ⟨j, ⟨ho, -⟩ | ⟨tr₁, x₁, ho, -, hserv⟩⟩⟩ := h
  · cases ho
  · cases ho
  cases ho
  have hheard : heard w = g.heard := by rw [heard, hat.returned, hserv.received]
  exact hheard ▸ congrArg (fun x => x.1.2) hserv.vars

/-- **The shared memory holds the integers that the ARM has sent**, as far as they were
received, whenever the program is between two rounds. -/
theorem storing_spec (p : Storing) (mem : ℕ → ℕ) (hbit : S.hostBit = 31)
    (hevent : S.fromArmEvent = 19)
    (h0 : S.vring .vring0 = .init vring0.num vring0.da (vring0.align.setWidth 64))
    (h1 : S.vring .vring1 = .init vring1.num vring1.da (vring1.align.setWidth 64))
    (hw : Start S w) (tr : PruRpmsgTransport) (sram : Mem) (out : Received) (k n : ℕ) :
    wp (Arm S) ((p.firmware mem).main tr vring0 vring1 (0, sram) out k n) (fun o w' =>
      ∀ tr' i sram' out' (ns : List ℤ), o = .ret (tr', (i, sram'), out') →
        (w'.log .vring1).posted.map (fun e => e.msg.payload) = ns.map rawMessage →
        sram' = p.stores ((ns.take (w'.log .vring1).returned.length).map rawMessage) sram) w := by
  refine wp_mono (fun o w' => ?_)
    (main_stopped (p.fits mem hbit hevent) h0 h1 hw tr ((0, sram), out) k n)
  rintro hstopped tr' i sram' out' ns rfl hns
  exact p.stored_of_stopped mem hstopped hns

/-- A run of the first program. -/
theorem storing_spec_pwm :
    wp (Arm { echoLayout.setup with hostBit := 31, fromArmEvent := 19 })
      ((pwm.firmware fun _ => 0).main ⟨.init ⟨0, 0, 0, 0⟩ 0 0, .init ⟨0, 0, 0, 0⟩ 0 0⟩
        ⟨0x9000, 16, 16, 0⟩ ⟨0xA000, 16, 16, 1⟩ (0, fun _ => 0) ⟨0, 0, fun _ => 0, 0⟩ 9 9)
      (fun o w' => ∀ tr' i sram' out' (ns : List ℤ), o = .ret (tr', (i, sram'), out') →
        (w'.log .vring1).posted.map (fun e => e.msg.payload) = ns.map rawMessage →
        sram' = pwm.stores ((ns.take (w'.log .vring1).returned.length).map rawMessage) fun _ => 0)
      .zero :=
  storing_spec .pwm _ rfl rfl rfl rfl ⟨fun _ => rfl, fun _ => rfl, fun _ => rfl, rfl⟩ _ _ _ 9 9

end Run

end Storing

end Rpmsg
