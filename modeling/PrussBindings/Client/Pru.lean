import PrussBindings.Lib.Effect
import PrussBindings.Lib.Numeral
import PrussBindings.Errno

/-!
# The C++ client: one PRU

`class PRU` of `cpp-bindings/pruss.cpp`.  A method is a program whose only
operation is `Socket::sendcmd`, which hands a command to the daemon and returns
its reply.  An exception thrown by `stoi` leaves the object as far as it got,
so a method returns the object together with its result or exception.

* `Method`, `Method.andThen` — methods and their sequencing.
* `Keeps` — a method keeps a relation between the environment and the object,
  with the rules `Keeps.andThen`, `Keeps.return` and `Keeps.exchange`.
* `PRU` — the data members; `PRU.control` — the shape shared by `enable`,
  `disable`, `pause` and `resume`.
* `PRU.load`, `PRU.sendMsgString`, `PRU.sendMsgRaw`, `PRU.getMsg`,
  `PRU.waitForEvent`, `PRU.memRead`, `PRU.memWrite` — the calls with arguments,
  and the command lines they build.

Strings are `std::string`, that is, bytes.
-/

namespace Client

open Effect Errno Text

/-- Client code: every operation is a command handed to `sendcmd`, answered by
the reply. -/
abbrev Cpp (α : Type) := Prog (fun _ : Bytes => Bytes) Empty α

/-- `Socket::sendcmd`. -/
def sendcmd (command : Bytes) : Cpp Bytes := .perform command

/-- `to_string(n)`. -/
def toStr (n : Int) : Bytes := encode (showInt n)

/-- A string literal. -/
def lit (s : String) : Bytes := encode s.toList

/-- A method of an object: its result, or the exception it throws, and the
object afterwards. -/
abbrev Method (σ α : Type) := σ → Cpp (Except StoiError α × σ)

section Method

variable {σ α β : Type}

/-- One method after another; an exception ends both. -/
def Method.andThen (m : Method σ α) (f : α → Method σ β) : Method σ β := fun s => do
  match ← m s with
  | (.ok a, s') => f a s'
  | (.error e, s') => return (.error e, s')

/-- A method that does nothing and returns. -/
def Method.return (a : α) : Method σ α := fun s => .ret (.ok a, s)

/-- `stoi(this->sock.sendcmd(command))`. -/
def Method.command (command : σ → Bytes) : Method σ Int := fun s => do
  let reply ← sendcmd (command s)
  return (stoi reply, s)

end Method

/-! ## What a method keeps -/

section Keeps

variable {σ τ α β : Type} {E : Env (fun _ : Bytes => Bytes) τ} {I : τ → σ → Prop}

/-- However the environment answers, the method takes related states to related
states, also where it ends in an exception. -/
def Keeps (E : Env (fun _ : Bytes => Bytes) τ) (I : τ → σ → Prop) (m : Method σ α) : Prop :=
  ∀ t s, I t s → wp E (m s) (fun out t' => ∀ res s', out = .ret (res, s') → I t' s') t

theorem Keeps.return (a : α) : Keeps E I (Method.return a) := by
  intro t s hI res s' h
  cases h
  exact hI

theorem Keeps.andThen {m : Method σ α} {f : α → Method σ β} (hm : Keeps E I m)
    (hf : ∀ a, Keeps E I (f a)) : Keeps E I (m.andThen f) := by
  intro t s hI
  unfold Method.andThen
  rw [wp_bind]
  apply wp_mono _ (hm t s hI)
  intro out t' hout
  cases out with
  | ret r =>
    obtain ⟨res, s'⟩ := r
    have hI' := hout res s' rfl
    cases res with
    | ok a => exact hf a t' s' hI'
    | error e =>
      intro res' s'' h
      cases h
      exact hI'
  | raise e => exact e.elim
  | spin => exact fun _ _ h => by cases h

/-- Dropping the result of a method does not change what it does to the object. -/
theorem wp_andThen_return {m : Method σ α} {b : β} {t : τ} {s : σ}
    (h : wp E (m s) (fun out t' => ∀ res s', out = .ret (res, s') → I t' s') t) :
    wp E ((m.andThen fun _ => Method.return b) s)
      (fun out t' => ∀ res s', out = .ret (res, s') → I t' s') t := by
  unfold Method.andThen
  rw [wp_bind]
  apply wp_mono _ h
  intro out t' hout
  cases out with
  | ret r =>
    obtain ⟨res, s'⟩ := r
    have hI := hout res s' rfl
    cases res <;> intro res' s'' heq <;> cases heq <;> exact hI
  | raise e => exact e.elim
  | spin => exact fun _ _ heq => by cases heq

/-- A method that sends one command and leaves the object as it is. -/
theorem Keeps.exchange {command : σ → Bytes} {result : Bytes → Except StoiError α}
    (h : ∀ t s reply t', I t s → E (command s) t reply t' → I t' s) :
    Keeps E I (fun s => do let reply ← sendcmd (command s); return (result reply, s)) := by
  intro t s hI reply t' hstep res s' hout
  cases hout
  exact h t s reply t' hI hstep

theorem Keeps.command {command : σ → Bytes}
    (h : ∀ t s reply t', I t s → E (command s) t reply t' → I t' s) :
    Keeps E I (Method.command command) := Keeps.exchange h

end Keeps

/-- `enum State`. -/
inductive State where
  | none
  | stopped
  | running
  | halted
  deriving DecidableEq, Repr

/-- `enum Memory`. -/
inductive Memory where
  | data0
  | data1
  | shared
  deriving DecidableEq, Repr

/-- A C++ `int`. -/
abbrev CInt := {n : Int // -2 ^ 31 ≤ n ∧ n < 2 ^ 31}

/-- The data members of `class PRU`. -/
structure PRU where
  number : Nat
  chanPort : CInt
  chanName : Bytes
  state : State
  deriving DecidableEq, Repr

namespace PRU

/-! ## Starting and stopping -/

/-- `"VERB_" + to_string(this->number)`. -/
def verb (name : String) (p : PRU) : Bytes := lit name ++ toStr p.number

theorem verb_eq (name : String) (p : PRU) :
    p.verb name = encode (name.toList ++ showInt p.number) :=
  (encode_append _ _).symm

/-- The shape of `enable`, `disable`, `pause` and `resume`: in some states the
call is refused with an error number; otherwise the command is sent, and the
state changes if it is answered `0`. -/
def control (refused : State → Option Int) (name : String) (next : State) : Method PRU Int :=
  fun p => match refused p.state with
    | some err => .ret (.ok err, p)
    | .none => do
      let (ret, p) ← Method.command (verb name) p
      return (ret, if ret = .ok 0 then { p with state := next } else p)

/-- What a call of this shape keeps. -/
theorem keeps_control {τ : Type} {E : Env (fun _ : Bytes => Bytes) τ} {I : τ → PRU → Prop}
    {refused : State → Option Int} {name : String} {next : State}
    (h : ∀ t p reply t', I t p → refused p.state = none → E (verb name p) t reply t' →
      I t' (if stoi reply = .ok 0 then { p with state := next } else p)) :
    Keeps E I (control refused name next) := by
  intro t p hI
  unfold control
  cases hrefused : refused p.state with
  | some err =>
    intro res p' hout
    cases hout
    exact hI
  | none =>
    intro reply t' hstep res p' hout
    cases hout
    exact h t p reply t' hI hrefused hstep

/-- `PRU::enable`. -/
def enable : Method PRU Int :=
  control (fun
    | .none => some (-ENODEV)
    | .running | .halted => some (-EALREADY)
    | .stopped => Option.none) "ENABLE_" .running

/-- `PRU::disable`. -/
def disable : Method PRU Int :=
  control (fun
    | .none => some (-ENODEV)
    | .stopped => some (-EALREADY)
    | .running | .halted => Option.none) "DISABLE_" .stopped

/-- `PRU::pause`.  A stopped PRU is not refused. -/
def pause : Method PRU Int :=
  control (fun
    | .none => some (-ENODEV)
    | .halted => some (-EALREADY)
    | .stopped | .running => Option.none) "PAUSE_" .halted

/-- `PRU::resume`. -/
def resume : Method PRU Int :=
  control (fun
    | .none | .stopped => some (-ENODEV)
    | .running => some (-EALREADY)
    | .halted => Option.none) "RESUME_" .running

/-- `PRU::showRegs`. -/
def showRegs : Method PRU Bytes := fun p => do
  let reply ← sendcmd (p.verb "GETREGS_")
  return (.ok reply, p)

/-- `PRU::reset`. -/
def reset : Method PRU Int := disable.andThen fun _ => enable

/-! ## Calls with arguments -/

/-- The command line of `PRU::load`, for a path as `realpath` returns it. -/
def loadCmd (fullPath : Bytes) (p : PRU) : Bytes := p.verb "LOAD_" ++ lit " " ++ fullPath

/-- `PRU::load`. -/
def load (realpath : Bytes → Bytes) (fw : Bytes) : Method PRU Int :=
  disable.andThen fun _ =>
    (Method.command (loadCmd (realpath fw))).andThen fun ret =>
      enable.andThen fun _ => Method.return ret

/-- `PRU::setChannel()`: the channel of the `pruss_api` driver. -/
def setChannel (p : PRU) : PRU :=
  { p with
    chanPort := if p.number = 0 then ⟨0, by decide⟩ else ⟨1, by decide⟩
    chanName := lit "pruss_api_pru" }

/-- `PRU::setChannel(port, name)`. -/
def setChannelTo (port : CInt) (name : Bytes) (p : PRU) : Int × PRU :=
  if port.val < 0 then (-EINVAL, p) else (0, { p with chanPort := port, chanName := name })

/-- The channel and port of a command line. -/
def chan (p : PRU) : Bytes := p.chanName ++ lit " " ++ toStr p.chanPort.val

/-- The command line of `PRU::sendMsg_string`. -/
def sendMsgStringCmd (message : Bytes) (p : PRU) : Bytes :=
  lit "SENDMSG s " ++ p.chan ++ lit " " ++ message

/-- `PRU::sendMsg_string`. -/
def sendMsgString (message : Bytes) : Method PRU Int := Method.command (sendMsgStringCmd message)

/-- The command line of `PRU::sendMsg_raw`. -/
def sendMsgRawCmd (message : Bytes) (p : PRU) : Bytes :=
  lit "SENDMSG r " ++ p.chan ++ lit " " ++ message

/-- `PRU::sendMsg_raw`.  The reply is dropped. -/
def sendMsgRaw (message : Bytes) : Method PRU Unit := fun p => do
  let _ ← sendcmd (p.sendMsgRawCmd message)
  return (.ok (), p)

/-- The command line of `PRU::getMsg`. -/
def getMsgCmd (p : PRU) : Bytes := lit "GETMSG " ++ p.chan

/-- `PRU::getMsg`. -/
def getMsg : Method PRU Bytes := fun p => do
  let reply ← sendcmd p.getMsgCmd
  return (.ok reply, p)

/-- The command line of `PRU::waitForEvent`, with and without a time. -/
def waitForEventCmd (time : Option CInt) (p : PRU) : Bytes :=
  lit "EVENTWAIT " ++ p.chan ++
    match time with
    | some t => lit " " ++ toStr t.val
    | .none => []

/-- `PRU::waitForEvent`. -/
def waitForEvent (time : Option CInt) : Method PRU Int := Method.command (waitForEventCmd time)

/-- The command line of `PRU::mem_read`. -/
def memReadCmd (mem : Memory) (offset : Bytes) : Bytes :=
  match mem with
  | .shared => lit "MEMREAD_S " ++ offset
  | .data0 => lit "MEMREAD_D" ++ toStr 0 ++ lit " " ++ offset
  | .data1 => lit "MEMREAD_D" ++ toStr 1 ++ lit " " ++ offset

/-- `PRU::mem_read`. -/
def memRead (mem : Memory) (offset : Bytes) : Method PRU Bytes := fun p => do
  let reply ← sendcmd (memReadCmd mem offset)
  return (.ok reply, p)

/-- The command line of `PRU::mem_write`. -/
def memWriteCmd (mem : Memory) (offset data : Bytes) : Bytes :=
  match mem with
  | .shared => lit "MEMWRITE_S " ++ offset ++ lit " " ++ data
  | .data0 => lit "MEMWRITE_D" ++ toStr 0 ++ lit " " ++ offset ++ lit " " ++ data
  | .data1 => lit "MEMWRITE_D" ++ toStr 1 ++ lit " " ++ offset ++ lit " " ++ data

/-- `PRU::mem_write`. -/
def memWrite (mem : Memory) (offset data : Bytes) : Method PRU Bytes := fun p => do
  let reply ← sendcmd (memWriteCmd mem offset data)
  return (.ok reply, p)

/-- The members when the constructor calls `reset`. -/
def fresh (number : Nat) : PRU := setChannel ⟨number, ⟨0, by decide⟩, [], .none⟩

/-- `PRU::PRU(number)`, which leaves the state `NONE`: `reset` is refused before
it sends anything. -/
def construct (number : Nat) : Cpp (Except StoiError Int × PRU) := reset (fresh number)

theorem construct_eq (number : Nat) :
    construct number = .ret (.ok (-ENODEV), fresh number) := rfl

end PRU

end Client
