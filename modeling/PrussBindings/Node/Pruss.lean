import PrussBindings.Node.Pru
import Mathlib.Data.List.FinRange

/-!
# The Node client: the PRUSS object

`class PRUSS` of `node-bindings/pruss.js`.  A call sends its requests and returns;
a request is a connection of its own, and when its reply arrives, its callback
changes the object and may send more.

* `PRUSS` — the properties of the object.
* `Op`, `PRUSS.call` — the calls of the object and of its members, and the
  requests they send.
* `Request`, `Request.line` — a request, which remembers its callback, and the
  line it sends.
* `PRUSS.onReply` — the callbacks.
-/

namespace Node

open Errno Text

/-- The properties of `class PRUSS`. -/
structure PRUSS where
  on : Bool
  prus : Fin 2 → PRU

/-- A call of `bootUp` or `shutDown`, or of a method of one of the members. -/
inductive Op where
  | bootUp
  | shutDown
  | control (n : Fin 2) (m : Method)
  deriving DecidableEq, Repr

/-- A call of `send`, by the callback it passes. -/
inductive Request where
  /-- The `PROBE_RPROC` of `bootUp`. -/
  | probe
  /-- The `UNPROBE_RPROC` of `shutDown`. -/
  | unprobe
  /-- The command of a method of a member. -/
  | control (n : Fin 2) (m : Method)
  /-- The `DISABLE_n` that the callback of `bootUp` sends. -/
  | bootDisable (n : Fin 2)
  deriving DecidableEq, Repr

/-- The command of a request. -/
def Request.line : Request → Str
  | probe => "PROBE_RPROC".toList
  | unprobe => "UNPROBE_RPROC".toList
  | control n m => m.control.verb ++ showNat n
  | bootDisable n => "DISABLE_".toList ++ showNat n

namespace PRUSS

/-- The object before `bootUp` is called by its constructor. -/
def construct : PRUSS where
  on := false
  prus := PRU.construct

/-- `pru.setState(state)` on a member. -/
def setState (p : PRUSS) (n : Fin 2) (state : State) : PRUSS :=
  { p with prus := Function.update p.prus n { p.prus n with state := state } }

/-- What a call sends, or the error it returns.  `shutDown` sends its requests
without waiting for a reply to any. -/
def call (p : PRUSS) : Op → Except Int (List Request)
  | .bootUp => if p.on then .error errnoEALREADY else .ok [.probe]
  | .shutDown =>
    if !p.on then .error errnoEALREADY
    else .ok ((List.finRange 2).filterMap (fun n => match disable.refused (p.prus n).state with
      | some _ => none
      | none => some (.control n .disable)) ++ [.unprobe])
  | .control n m => match m.control.refused (p.prus n).state with
    | some err => .error err
    | none => .ok [.control n m]

/-- The requests a call sends. -/
def send (p : PRUSS) (op : Op) : List Request :=
  match p.call op with
  | .error _ => []
  | .ok requests => requests

/-- The callback of a request, and the requests it sends.  The one for the
`DISABLE_n` of `bootUp` does not look at the reply. -/
def onReply (p : PRUSS) : Request → Int → PRUSS × List Request
  | .probe, ret =>
    if ret = 0 then ({ p with on := true }, (List.finRange 2).map .bootDisable) else (p, [])
  | .unprobe, ret =>
    if ret = 0 then
      ((List.finRange 2).foldl (fun p n => p.setState n .none) { p with on := false }, [])
    else (p, [])
  | .control n m, ret =>
    ({ p with prus := Function.update p.prus n (m.control.onReply ret (p.prus n)) }, [])
  | .bootDisable n, _ => (p.setState n .stopped, [])

end PRUSS

end Node
