import PrussBindings.Rpmsg.Exchange

/-!
# The firmware at the end of a channel

The programs of PRU1 under `examples/firmware_examples`, and those of `drivers` and of
`archive_firmware/rpmsg_echo`, have one `main`: it announces a channel, and whenever the
ARM kicks it, it receives what there is and does something for each message.

* `Firmware` — what one program has that the others do not.
* `Firmware.awaitDriver`, `Firmware.announce`, `Firmware.boot` — the beginning of `main`.
* `Firmware.await` — an interrupt is waited for that does not come from the ARM.
* `Firmware.drain`, `Firmware.poll`, `Firmware.rounds`, `Firmware.main` — its loops.
* `Firmware.step`, `Firmware.after`, `Firmware.answers` — what the program is to do for the
  messages, one after the other.
-/

namespace Rpmsg

open Effect

/-- `VIRTIO_CONFIG_S_DRIVER_OK`. -/
def virtioConfigSDriverOk : ℕ := 4

/-- `RPMSG_NS_CREATE`. -/
def rpmsgNsCreate : ℕ := 0

/-- A program: its constants, and the body of its loop, which changes the variables `σ` of
the program and may have something to send.  Before it sends it may wait for another
interrupt: for a bit of `__R31`, and then it clears an event. -/
structure Firmware (σ : Type) where
  hostInt : ℕ
  toArmHost : ℕ
  fromArmHost : ℕ
  chanName : ℕ → ℕ
  chanDesc : ℕ → ℕ
  chanPort : ℤ
  body : σ → Received → σ × Option ((ℕ → ℕ) × ℕ)
  awaits : Option (ℕ × ℕ) := none

namespace Firmware

variable {σ : Type} (fw : Firmware σ)

/-- `while (!(*status & VIRTIO_CONFIG_S_DRIVER_OK));` -/
def awaitDriver : ℕ → C Unit
  | 0 => .spin
  | k + 1 => do
    let status ← load .status
    if status &&& virtioConfigSDriverOk ≠ 0 then
      return
    awaitDriver k

/-- `while (pru_rpmsg_channel(...) != PRU_RPMSG_SUCCESS);` -/
def announce : ℕ → PruRpmsgTransport → C PruRpmsgTransport
  | 0, _ => .spin
  | k + 1, transport => do
    let (transport, ret) ←
      PruRpmsgTransport.channel rpmsgNsCreate transport fw.chanName fw.chanDesc fw.chanPort
    if ret = rpmsgSuccess then
      return transport
    announce k transport

/-- What comes before the loop; `transport` is what is on the stack. -/
def boot (transport : PruRpmsgTransport) (vring0 vring1 : FwRscVdevVring) (k : ℕ) :
    C PruRpmsgTransport := do
  Prog.perform (Access.clearStatus fw.fromArmHost)
  awaitDriver k
  let (transport, _) := transport.init vring0 vring1 fw.toArmHost fw.fromArmHost
  fw.announce k transport

/-- `while (1) { if (__R31 & mask) { CT_INTC.SICR = event; ... break; } }` -/
def awaitEvent (mask event : ℕ) : ℕ → C Unit
  | 0 => .spin
  | k + 1 => do
    let r31 ← Prog.perform Access.readR31
    if r31 &&& mask ≠ 0 then
      Prog.perform (Access.clearStatus event)
    else
      awaitEvent mask event k

/-- What is waited for. -/
def await (k : ℕ) : C Unit :=
  match fw.awaits with
  | some (mask, event) => awaitEvent mask event k
  | none => return

/-- `while (pru_rpmsg_receive(...) == PRU_RPMSG_SUCCESS)`. -/
def drain : ℕ → PruRpmsgTransport → σ → Received → C (PruRpmsgTransport × σ × Received)
  | 0, _, _, _ => .spin
  | k + 1, transport, s, out => do
    let (transport, ret, out) ← transport.receive out
    if ret = rpmsgSuccess then
      match fw.body s out with
      | (s, some (data, len)) =>
        fw.await k
        let (transport, _) ← transport.send out.dst out.src data len
        drain k transport s out
      | (s, none) => drain k transport s out
    else
      return (transport, s, out)

/-- A round of `while (1)`. -/
def poll (k : ℕ) (transport : PruRpmsgTransport) (s : σ) (out : Received) :
    C (PruRpmsgTransport × σ × Received) := do
  let r31 ← Prog.perform Access.readR31
  if r31 &&& fw.hostInt ≠ 0 then
    Prog.perform (Access.clearStatus fw.fromArmHost)
    fw.drain k transport s out
  else
    return (transport, s, out)

/-- `n` rounds. -/
def rounds (k : ℕ) : ℕ → PruRpmsgTransport → σ → Received → C (PruRpmsgTransport × σ × Received)
  | 0, transport, s, out => return (transport, s, out)
  | n + 1, transport, s, out => do
    let (transport, s, out) ← fw.poll k transport s out
    rounds k n transport s out

/-- `main`, as far as `n` rounds. -/
def main (transport : PruRpmsgTransport) (vring0 vring1 : FwRscVdevVring) (s : σ)
    (out : Received) (k n : ℕ) : C (PruRpmsgTransport × σ × Received) := do
  let transport ← fw.boot transport vring0 vring1 k
  fw.rounds k n transport s out

/-! ## What is to be done for the messages -/

/-- A message is received, and the body of the loop run. -/
def step (x : σ × Received) (m : Msg) : (σ × Received) × Option Msg :=
  let out := m.received x.2
  let r := fw.body x.1 out
  ((r.1, out), r.2.map fun reply => sentMsg out.dst out.src reply.1 reply.2)

/-- The variables after some messages. -/
def after (x : σ × Received) (ms : List Msg) : σ × Received :=
  ms.foldl (fun x m => (fw.step x m).1) x

/-- What is to be answered to some messages. -/
def answers : σ × Received → List Msg → List Msg
  | _, [] => []
  | x, m :: ms => (fw.step x m).2.toList ++ answers (fw.step x m).1 ms

variable {x : σ × Received}

@[simp] theorem after_append (ms : List Msg) (m : Msg) :
    fw.after x (ms ++ [m]) = (fw.step (fw.after x ms) m).1 := by
  simp [after]

theorem answers_append (ms : List Msg) (m : Msg) :
    fw.answers x (ms ++ [m]) = fw.answers x ms ++ (fw.step (fw.after x ms) m).2.toList := by
  induction ms generalizing x with
  | nil => simp [answers, after]
  | cons m' ms ih =>
    rw [List.cons_append, answers, ih, answers, List.append_assoc]
    rfl

end Firmware

/-! ## The programs -/

/-- The bytes of a string literal, with what is behind it in memory. -/
def literal (s : String) (behind : ℕ → ℕ) (i : ℕ) : ℕ :=
  (s.toList.map Char.toNat ++ [0]).getD i (behind i)

/-- `archive_firmware/rpmsg_echo/main.c`: the message is sent back. -/
def rpmsgEcho (mem : ℕ → ℕ) : Firmware Unit where
  hostInt := 2 ^ 30
  toArmHost := 16
  fromArmHost := 17
  chanName := literal "rpmsg-pru" mem
  chanDesc := literal "Channel 30" mem
  chanPort := 30
  body _ out := ((), some (out.data, out.len))

/-- `example2-rpmsg-pru1/PRU1/main.c`: any message is answered with a greeting. -/
def rpmsgPru1 (mem : ℕ → ℕ) : Firmware Unit where
  hostInt := 2 ^ 31
  toArmHost := 18
  fromArmHost := 19
  chanName := literal "pruss-api" mem
  chanDesc := literal "Channel 1" mem
  chanPort := 1
  body _ _ := ((), some (literal "Hi ARM, PRU says hi!\n" mem, 21))

end Rpmsg
