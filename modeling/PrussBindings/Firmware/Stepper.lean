import PrussBindings.Lib.Transition
import PrussBindings.System.RawMessage

/-!
# The stepper motor: three parties

`examples/firmware_examples/example7-stepper-control`: the ARM tells PRU1 over
rpmsg what pulses to make, PRU1 stores the three words in the shared memory, and
PRU0 loads them, makes the pulses and raises an event, upon which PRU1 answers
`done`.

* `Command`, `Command.word` — what a call of `activateMotor` is to do, and the words
  it sends.
* `State` — the three parties, the messages in flight, the shared memory and the
  event.
* `armStep` — the statements of `Driver::activateMotor`.
* `pru1Step` — the loop of `PRU1/main.c`.
* `pru0Step` — `PRU0/main_pru0.c` and `start` of `PRU0/pulse-supply.asm`.
* `Step` — any party may take its next step.
* `word_eq_leLoad` — the word PRU1 stores is the integer the ARM packed.
-/

namespace Stepper

open Transition

/-- A word of the shared memory, and a register. -/
abbrev Word := BitVec 32

/-- What `calculateCycles` has put into the object. -/
structure Command where
  onCycles : Int
  totalCycles : Int
  noOfPulses : Int
  deriving DecidableEq, Repr

/-- The words of a command, in the order they are sent. -/
def Command.word (c : Command) : Nat → Word
  | 0 => .ofInt 32 c.onCycles
  | 1 => .ofInt 32 c.totalCycles
  | _ => .ofInt 32 c.noOfPulses

/-- `*(uint32_t *) payload`, of the payload the daemon makes of the integer. -/
theorem word_eq_leLoad (n : Int) :
    (BitVec.ofInt 32 n).toNat = System.leLoad (Daemon.leBytes (n % 2 ^ 32).toNat) := by
  have hlt : (n % 2 ^ 32).toNat < 2 ^ 32 := by omega
  rw [System.leLoad_leBytes hlt, BitVec.toNat_ofInt]
  rfl

/-- The statement of `activateMotor` that comes next. -/
inductive ArmPc where
  | idle
  | waitIdle
  | disable0
  | disable1
  | enable1
  | send (k : Fin 3)
  | enable0
  | setBusy
  | waitDone
  | clearBusy
  deriving DecidableEq, Repr

/-- What PRU1 is about to do; `i` is the `i` of its `main`. -/
inductive Pru1Pc where
  | stopped
  | receive (i : Nat)
  | awaitEvent
  | notify
  deriving DecidableEq, Repr

/-- What PRU0 is about to do, with the registers `R6`, `R7` and `R8`, and the
counter `R10`. -/
inductive Pru0Pc where
  | stopped
  | configIntc
  | load (j : Nat) (regs : Nat → Word)
  | generate (regs : Nat → Word) (r10 : Word)
  | trigger
  | halted

/-- The three parties.  `flight` are the messages to PRU1 that it has not received,
and `answers` counts those to the ARM. -/
structure State where
  arm : ArmPc
  command : Command
  isMotorBusy : Bool
  flight : List Word
  answers : Nat
  sram : Nat → Word
  event : Bool
  pru1 : Pru1Pc
  pru0 : Pru0Pc

/-- What a step does that the others can tell. -/
inductive Label where
  | call (c : Command)
  | arm
  | store (i : Nat)
  | seen
  | done
  | config
  | load (j : Nat) (w : Word)
  | pulse
  | trigger
  deriving DecidableEq, Repr

/-! ## The ARM -/

/-- The statement after a `sendMsg_raw`. -/
def ArmPc.next : Fin 3 → ArmPc
  | 0 => .send 1
  | 1 => .send 2
  | 2 => .enable0

/-- A statement of `activateMotor`.  `sendMsg_raw` returns when its message is
queued; the last loop takes no step until `done` can be read. -/
def armStep (s : State) : Option State :=
  match s.arm with
  | .idle => none
  | .waitIdle => if s.isMotorBusy then none else some { s with arm := .disable0 }
  | .disable0 => some { s with pru0 := .stopped, arm := .disable1 }
  | .disable1 => some { s with pru1 := .stopped, arm := .enable1 }
  | .enable1 => some { s with pru1 := .receive 0, arm := .send 0 }
  | .send k => some { s with flight := s.flight ++ [s.command.word k], arm := .next k }
  | .enable0 => some { s with pru0 := .configIntc, arm := .setBusy }
  | .setBusy => some { s with isMotorBusy := true, arm := .waitDone }
  | .waitDone =>
    match s.answers with
    | 0 => none
    | n + 1 => some { s with answers := n, arm := .clearBusy }
  | .clearBusy => some { s with isMotorBusy := false, arm := .idle }

/-! ## PRU1 -/

/-- A step of PRU1: a message is received and stored; after the third one it waits
for the event, clears it, and answers. -/
def pru1Step (s : State) : Option (Label × State) :=
  match s.pru1 with
  | .stopped => none
  | .receive i =>
    match s.flight with
    | [] => none
    | x :: flight =>
      some (.store i, { s with
        flight := flight
        sram := Function.update s.sram i x
        pru1 := if i + 1 = 3 then .awaitEvent else .receive (i + 1) })
  | .awaitEvent =>
    if s.event then some (.seen, { s with event := false, pru1 := .notify }) else none
  | .notify => some (.done, { s with answers := s.answers + 1, pru1 := .receive 3 })

/-! ## PRU0 -/

/-- A step of PRU0: `configIntc` clears the event, `start` loads three registers,
and makes a pulse before it counts it; the loops on `R11` between the edges of a
pulse end whatever `R6` and `R7` are. -/
def pru0Step (s : State) : Option (Label × State) :=
  match s.pru0 with
  | .stopped => none
  | .configIntc => some (.config, { s with event := false, pru0 := .load 0 fun _ => 0 })
  | .load j regs =>
    let regs := Function.update regs j (s.sram j)
    some (.load j (s.sram j), { s with
      pru0 := if j + 1 = 3 then .generate regs 0 else .load (j + 1) regs })
  | .generate regs r10 =>
    some (.pulse, { s with
      pru0 := if r10 + 1 = regs 2 then .trigger else .generate regs (r10 + 1) })
  | .trigger => some (.trigger, { s with event := true, pru0 := .halted })
  | .halted => none

/-- The next call begins, or one of the parties takes a step. -/
inductive Step : State → Label → State → Prop where
  | call {s : State} (c : Command) : s.arm = .idle →
    Step s (.call c) { s with arm := .waitIdle, command := c }
  | arm {s s' : State} : armStep s = some s' → Step s .arm s'
  | pru1 {s s' : State} {e : Label} : pru1Step s = some (e, s') → Step s e s'
  | pru0 {s s' : State} {e : Label} : pru0Step s = some (e, s') → Step s e s'

/-- Before the first call: both cores are stopped, and no event is pending.
Anything may be in the shared memory. -/
def State.init (sram : Nat → Word) : State where
  arm := .idle
  command := ⟨0, 0, 0⟩
  isMotorBusy := false
  flight := []
  answers := 0
  sram := sram
  event := false
  pru1 := .stopped
  pru0 := .stopped

end Stepper
