import PrussBindings.Lib.PruIsa
import PrussBindings.System.RawMessage

/-!
# The shared memory

The example firmware of PRU1 stores what it receives over rpmsg in the shared memory
of the PRUs, from where that of PRU0 loads it: the loops of `PRU1/main.c` of
`example4-analog-wave-gen`, `example5-multichannel-pwm` and
`example9-multichannel-waveform-gen`.

* `addr` — the places of the shared memory.
* `rawMessage` — the message of `sendMsg_raw(to_string(n))`; `sendRaw_rawMessage`.
* `storeBytes`, `storeSamples` — the two loops; `storeBytes_addr` — **the bytes lie
  in the order in which they were sent**.
-/

namespace SharedRam

open PruIsa Driver System

/-- `PRU_SRAM`: the address of the shared memory. -/
def pruSram : Word := 0x00010000

/-- A place of the shared memory. -/
def addr (i : ℕ) : Word := pruSram + .ofNat 32 i

theorem addr_inj {i j : ℕ} (hi : i < 2 ^ 32) (hj : j < 2 ^ 32) : addr i = addr j ↔ i = j := by
  refine ⟨fun h => ?_, fun h => h ▸ rfl⟩
  have hnat := congrArg BitVec.toNat ((BitVec.add_right_inj _).1 h)
  rwa [BitVec.toNat_ofNat, BitVec.toNat_ofNat, Nat.mod_eq_of_lt hi, Nat.mod_eq_of_lt hj] at hnat

/-! ## Messages -/

/-- The message of a raw integer. -/
def rawMessage (n : ℤ) : Message := Daemon.leBytes (n % 2 ^ 32).toNat

/-- It is what the device is given when nobody else has it open. -/
theorem sendRaw_rawMessage {setup : Daemon.Setup} {p : Client.PRU} {chan : Text.Str}
    (hp : p.chanName = Text.encode chan) (htok : Text.IsToken chan)
    (hchan : chan ∈ setup.paths.rpmsgChannels) {d : RpmsgDevice} (hd : d.dev.locked = false) {n : ℤ}
    (hn : -2 ^ 31 ≤ n ∧ n < 2 ^ 31) :
    (sendRaw setup p (Daemon.rpmsgDevnode chan p.chanPort.val) n d).2.sent =
      d.sent ++ [rawMessage n] := by
  rw [sendRaw_spec hp htok hchan hd (allows_of_signed _ hn), if_pos hn]
  rfl

/-- `*(uint8_t *) payload`. -/
def byteLoad (payload : Message) : BitVec 8 := .ofNat 8 (payload.headD 0).toNat

/-- `*(uint32_t *) payload`. -/
def wordLoad (payload : Message) : Word := .ofNat 32 (leLoad payload)

theorem byteLoad_rawMessage {n : ℕ} (hn : n < 2 ^ 8) : byteLoad (rawMessage n) = .ofNat 8 n := by
  have hmod : ((n : ℤ) % 2 ^ 32).toNat = n := by omega
  rw [byteLoad, rawMessage, hmod]
  apply BitVec.eq_of_toNat_eq
  simp [Daemon.leBytes]

/-- A small number survives its message, and can be told from the others. -/
theorem setWidth_byteLoad {n : ℤ} (hn : 0 ≤ n) (hlt : n < 2 ^ 8) :
    (byteLoad (rawMessage n)).setWidth 32 = .ofInt 32 n := by
  obtain ⟨k, rfl⟩ := Int.eq_ofNat_of_zero_le hn
  have hk : k < 2 ^ 8 := by omega
  apply BitVec.eq_of_toNat_eq
  rw [byteLoad_rawMessage hk]
  simp
  omega

theorem ofInt_inj {m n : ℤ} (hm : 0 ≤ m) (hm' : m < 2 ^ 8) (hn : 0 ≤ n) (hn' : n < 2 ^ 8) :
    BitVec.ofInt 32 m = BitVec.ofInt 32 n ↔ m = n := by
  refine ⟨fun h => ?_, fun h => h ▸ rfl⟩
  have hnat := congrArg BitVec.toNat h
  rw [BitVec.toNat_ofInt, BitVec.toNat_ofInt] at hnat
  omega

/-! ## The loops of PRU1 -/

/-- The memory. -/
abbrev Mem := Word → BitVec 8

/-- `*(sram_pointer+i) = x; i++;` for one message after the other. -/
def storeBytes : ℕ → List Message → Mem → Mem
  | _, [], mem => mem
  | i, payload :: rest, mem =>
    storeBytes (i + 1) rest (Function.update mem (addr i) (byteLoad payload))

/-- The four bytes of a word, at the beginning of the shared memory. -/
def storeWord (w : Word) (mem : Mem) : Mem :=
  Function.update (Function.update (Function.update (Function.update mem
    (addr 0) (w.extractLsb' 0 8)) (addr 1) (w.extractLsb' 8 8)) (addr 2) (w.extractLsb' 16 8))
    (addr 3) (w.extractLsb' 24 8)

/-- The loop that takes its first message for a word, and goes on after it. -/
def storeSamples : List Message → Mem → Mem
  | [], mem => mem
  | payload :: rest, mem => storeBytes 4 rest (storeWord (wordLoad payload) mem)

/-- What lies before the first place is not written. -/
theorem storeBytes_of_lt {i j : ℕ} {msgs : List Message} (mem : Mem) (hij : j < i)
    (hfit : i + msgs.length ≤ 2 ^ 32) : storeBytes i msgs mem (addr j) = mem (addr j) := by
  induction msgs generalizing i mem with
  | nil => rfl
  | cons payload rest ih =>
    rw [List.length_cons] at hfit
    rw [storeBytes, ih _ (by omega) (by omega), Function.update_of_ne]
    rw [Ne, addr_inj (by omega) (by omega)]
    omega

/-- **The bytes lie in the order in which they were sent.** -/
theorem storeBytes_addr {i j : ℕ} {l : List Message} (mem : Mem) (hj : j < l.length)
    (hfit : i + l.length ≤ 2 ^ 32) :
    storeBytes i l mem (addr (i + j)) = byteLoad l[j] := by
  induction l generalizing i j mem with
  | nil => simp at hj
  | cons payload rest ih =>
    rw [List.length_cons] at hfit hj
    cases j with
    | zero => rw [storeBytes, storeBytes_of_lt _ (by omega) (by omega)]; simp
    | succ j =>
      rw [storeBytes, show i + (j + 1) = i + 1 + j by omega, ih _ (by omega) (by omega)]
      rfl

/-- The bytes after the word of the first message. -/
theorem storeSamples_addr {j : ℕ} {m : Message} {l : List Message} (mem : Mem)
    (hj : j < l.length) (hfit : 4 + l.length ≤ 2 ^ 32) :
    storeSamples (m :: l) mem (addr (4 + j)) = byteLoad l[j] :=
  storeBytes_addr _ hj hfit

end SharedRam
