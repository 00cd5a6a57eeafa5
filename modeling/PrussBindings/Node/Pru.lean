import PrussBindings.Lib.Numeral
import PrussBindings.Lib.Path
import PrussBindings.Errno

/-!
# The Node client: one PRU

`class PRU` of `node-bindings/pru.js`.  A call checks its arguments and the state
of the object, hands a command to `send`, and returns; the state changes in the
callback, when the reply arrives.

* `PRU` — the properties of the object; `PRU.construct`, `PRU.setChannel`.
* `Control` — the shape shared by `enable`, `disable`, `pause` and `resume`: what
  is checked when the call is made, and what the callback does.
* `Call`, `Call.line` — the calls with arguments, and the command they send.
* `pathResolve` — `path.resolve`, which makes the path of a `load` absolute.

Strings are sequences of characters; a string with half a surrogate pair is
left out.
-/

namespace Node

open Errno Text Path

/-- The values of `_state`. -/
inductive State where
  | none
  | stopped
  | running
  | halted
  deriving DecidableEq, Repr

/-- An integer that a JavaScript number holds exactly, and that is written in
decimal. -/
structure SafeInt where
  val : Int
  safe : val.natAbs < 2 ^ 53
  deriving DecidableEq

/-- The properties of `class PRU`. -/
structure PRU where
  no : Fin 2
  channelName : Str
  channelPort : SafeInt
  state : State
  deriving DecidableEq

/-- `EALREADY` of `util/errno.js`, the one number there that is not negative. -/
def errnoEALREADY : Int := EALREADY

/-! ## Starting and stopping -/

/-- One of `enable`, `disable`, `pause` and `resume`: the states in which the call
is refused, with the error; the command; and the state after a reply of `0`. -/
structure Control where
  refused : State → Option Int
  verb : Str
  next : State

/-- The callback, for a reply that `parseInt` reads as a number. -/
def Control.onReply (c : Control) (ret : Int) (p : PRU) : PRU :=
  if ret = 0 then { p with state := c.next } else p

/-- `PRU.enable`. -/
def enable : Control where
  refused
    | .none => some (-ENODEV)
    | .running | .halted => some errnoEALREADY
    | .stopped => none
  verb := "ENABLE_".toList
  next := .running

/-- `PRU.disable`. -/
def disable : Control where
  refused
    | .none => some (-ENODEV)
    | .stopped => some errnoEALREADY
    | .running | .halted => none
  verb := "DISABLE_".toList
  next := .stopped

/-- `PRU.pause`. -/
def pause : Control where
  refused
    | .none => some (-ENODEV)
    | .halted | .stopped => some errnoEALREADY
    | .running => none
  verb := "PAUSE_".toList
  next := .halted

/-- `PRU.resume`. -/
def resume : Control where
  refused
    | .none | .stopped => some (-ENODEV)
    | .running => some errnoEALREADY
    | .halted => none
  verb := "RESUME_".toList
  next := .running

/-- The four calls of this shape. -/
inductive Method where
  | enable
  | disable
  | pause
  | resume
  deriving DecidableEq, Repr

def Method.control : Method → Control
  | .enable => Node.enable
  | .disable => Node.disable
  | .pause => Node.pause
  | .resume => Node.resume

namespace PRU

/-- `new PRU(no)`.  The `reset` of the constructor is refused in the state
`NONE`, and sends nothing. -/
def construct (no : Fin 2) : PRU where
  no := no
  channelName := "rpmsg_pru".toList
  channelPort := if no.val ≠ 0 then ⟨31, by decide⟩ else ⟨30, by decide⟩
  state := .none

/-- `PRU.setChannel`. -/
def setChannel (port : SafeInt) (name : Str) (p : PRU) : Int × PRU :=
  if port.val < 0 then (-EINVAL, p) else (0, { p with channelPort := port, channelName := name })

end PRU

/-! ## Calls with arguments -/

/-- `path.resolve(fw)`: the path from the root, through the working directory if
it does not begin there, without the components that lead nowhere. -/
def pathResolve (cwd fw : Str) : Str :=
  let resolvedPath := if fw.head? = some '/' then fw else if fw = [] then cwd else cwd ++ '/' :: fw
  canonical ((split resolvedPath).foldl (pushComp true) []).reverse

/-- A call with arguments on a `PRU` object. -/
inductive Call where
  | load (fw : Str)
  | sendMsg (msg : Str)
  | getMsg
  | waitForEvent (time : Option SafeInt)

/-- The command a call sends, without the newline; `none` for one that is refused.
`load` tests a property `state` that no object has, and so refuses nothing. -/
def Call.line (cwd : Str) (p : PRU) : Call → Option Str
  | load fw => some ("LOAD_".toList ++ showNat p.no ++ ' ' :: pathResolve cwd fw)
  | sendMsg msg => some
      ("SENDMSG ".toList ++ p.channelName ++ ' ' :: showInt p.channelPort.val ++ ' ' :: msg)
  | getMsg => some ("GETMSG ".toList ++ p.channelName ++ ' ' :: showInt p.channelPort.val)
  | waitForEvent none => some
      ("EVENTWAIT ".toList ++ p.channelName ++ ' ' :: showInt p.channelPort.val)
  | waitForEvent (some time) =>
    if time.val < 0 then none
    else some ("EVENTWAIT ".toList ++ p.channelName ++ ' ' :: showInt p.channelPort.val ++
      ' ' :: showInt time.val)

end Node
