import PrussBindings.Lib.Utf8Stream
import PrussBindings.System.Socket

/-!
# The Node client: the socket

`util/sock.js`: `socketSend` opens a connection of its own for a command, and
passes what comes back to its callback, event by event.

* `SockEvent`, `SockAction` — what happens on the socket, and what the code does.
* `onEvent`, `socketSend` — the two listeners, and a whole connection.
* `callbacks_deliver` — the callback is called once for every piece of the reply.
* `socketSend_once_iff` — **the callback is called once, with the whole reply,
  exactly if the reply arrives in one piece.**
* `text_of_received` — what the daemon writes before it closes is always a text.
-/

namespace Node

open Effect Text Daemon System

/-- An event on the socket. -/
inductive SockEvent where
  | connect
  | data (chunk : Bytes)
  | close

/-- What a listener does. -/
inductive SockAction where
  | write (text : Str)
  | finish
  | callback (text : Str)
  deriving DecidableEq

/-- `data.toString()`. -/
def toString (data : Bytes) : Str := decodeLossy [] data

/-- The listeners of `socketSend`: one for the connection, and one for data. -/
def onEvent (message : Str) : SockEvent → List SockAction
  | .connect => [.write (message ++ ['\n']), .finish]
  | .data chunk => [.callback (toString chunk)]
  | .close => []

/-- `socketSend`, over the events of its connection. -/
def socketSend (message : Str) (events : List SockEvent) : List SockAction :=
  events.flatMap (onEvent message)

/-- The texts the callback is called with. -/
def callbacks : List SockAction → List Str :=
  List.filterMap fun
    | .callback text => some text
    | _ => none

/-- A connection on which a reply arrives in these pieces, after which the daemon
closes it. -/
def deliver (chunks : List Bytes) : List SockEvent :=
  .connect :: (chunks.map .data ++ [.close])

/-- The callback is called once for every piece. -/
theorem callbacks_deliver (message : Str) (chunks : List Bytes) :
    callbacks (socketSend message (deliver chunks)) = chunks.map toString := by
  have hdata : callbacks (socketSend message (chunks.map .data)) = chunks.map toString := by
    induction chunks with
    | nil => rfl
    | cons chunk chunks ih => exact congrArg (toString chunk :: ·) ih
  show callbacks (socketSend message (chunks.map .data ++ [.close])) = _
  unfold socketSend at hdata ⊢
  rw [List.flatMap_append, callbacks, List.filterMap_append]
  exact (List.append_nil _).trans hdata

/-- **The callback is called exactly once, with the complete reply, if and only if
the reply arrives in one piece**, whatever the message and the reply are. -/
theorem socketSend_once_iff (message : Str) {reply : Str} {chunks : List Bytes}
    (hchunks : chunks.flatten = encode reply) :
    callbacks (socketSend message (deliver chunks)) = [reply] ↔ chunks.length = 1 := by
  rw [callbacks_deliver]
  constructor
  · intro h
    simpa using congrArg List.length h
  · intro h
    obtain ⟨chunk, rfl⟩ := List.length_eq_one_iff.1 h
    rw [List.flatten_singleton] at hchunks
    rw [hchunks, List.map_singleton, toString, decodeLossy_encode]

theorem socketSend_once_iff_zero :
    callbacks (socketSend "ENABLE_0".toList (deliver [[48]])) = [['0']] ↔
      [[(48 : UInt8)]].length = 1 :=
  socketSend_once_iff _ (by decide)

/-- The callback of a request whose handler failed is never called: the daemon
closes the connection without a reply. -/
theorem empty_reply_not_delivered :
    callbacks (socketSend "LOAD_0".toList (deliver [])) ≠ [[]] := by decide

/-- **What the daemon writes before it closes is a text**, the empty one where its
handler raised. -/
theorem text_of_received {σ : Type} {E : Env OsRes σ} {setup : Setup} {stream : Bytes} {s s' : σ}
    {out : Outcome PyExc Bytes} {reply : Bytes} (hx : Exec E (handle setup stream) s out s')
    (hreply : received out = some reply) : ∃ text, encode text = reply := by
  have hwp : wp E (handle setup stream)
      (fun out _ => ∀ reply, received out = some reply → ∃ text, encode text = reply) s := by
    cases hcmd : cmdOf stream with
    | none =>
      rw [handle_of_cmdOf_none hcmd]
      exact fun reply h => ⟨[], Option.some_inj.1 h⟩
    | some cmd =>
      rw [handle_of_cmdOf hcmd, wp_bind]
      refine (wp_iff_exec _).2 fun out s' _ => ?_
      cases out with
      | ret resp => exact fun reply h => ⟨resp.toStr, Option.some_inj.1 h⟩
      | raise e => exact fun reply h => ⟨[], Option.some_inj.1 h⟩
      | spin => exact fun reply h => by cases h
  exact (wp_iff_exec _).1 hwp out s' hx reply hreply

end Node
