import PrussBindings.Client.Pruss
import PrussBindings.Daemon.Request
import PrussBindings.Lib.Transition

/-!
# A command over the socket

`Socket::sendcmd` with the daemon behind it: the command is sent as a line,
`handle` serves it, and the client gets the bytes that `handle` wrote.

* `socketEnv` — the environment of the client, made of the daemon and the
  environment of the daemon.
* `Answered` — how a handler ends that succeeds or fails.
* `socketEnv_answered` — **what such a handler means to `stoi`**: the reply
  reads `0` exactly where the handler succeeded.

The daemon is taken to be there, and the line to arrive as it was sent: a
command with a `%` in it, or one of `2048` bytes, does not survive the
`snprintf` of the source.
-/

namespace System

open Effect Errno Text Client Daemon

variable {σ : Type}

/-- What `recv` returns: the reply, or nothing if `handle` raised.  Where
`handle` has not ended, `recv` does not return. -/
def received : Outcome PyExc Bytes → Option Bytes
  | .ret reply => some reply
  | .raise _ => some []
  | .spin => none

/-- `Socket::sendcmd`, with the daemon in an environment `E` behind it. -/
def socketEnv (setup : Setup) (E : Env OsRes σ) : Env (fun _ : Bytes => Bytes) σ :=
  fun command s reply s' =>
    ∃ out, Exec E (handle setup (command ++ [10])) s out s' ∧ received out = some reply

/-- A handler that returns `0` in a state of `done`, or another number, or an
exception, in a state of `failed`. -/
inductive Answered (done failed : σ → Prop) : Outcome PyExc Resp → σ → Prop where
  | zero {s : σ} : done s → Answered done failed (.ret (.int 0)) s
  | number {j : Int} {s : σ} : j ≠ 0 → failed s → Answered done failed (.ret (.int j)) s
  | exc {s : σ} (e : PyExc) : failed s → Answered done failed (.raise e) s

theorem stoi_showInt_ne_zero {j : Int} (hj : j ≠ 0) : stoi (encode (showInt j)) ≠ .ok 0 := by
  rw [stoi_encode_showInt]
  split_ifs
  · exact fun h => hj (Except.ok.inj h)
  · exact fun h => by cases h

/-- **What an answer means to `stoi`.** -/
theorem socketEnv_answered {setup : Setup} {E : Env OsRes σ} {done failed : σ → Prop} {s s' : σ}
    {w : Str} {reply : Bytes} (hw : IsToken w)
    (h : wp E (serve setup [w]) (Answered done failed) s)
    (hstep : socketEnv setup E (encode w) s reply s') :
    stoi reply = .ok 0 ∧ done s' ∨ stoi reply ≠ .ok 0 ∧ failed s' := by
  obtain ⟨out, hx, hrecv⟩ := hstep
  have hline := handle_line setup [w] (by simpa using hw)
  rw [unwords_singleton] at hline
  rw [hline] at hx
  have hwp : wp E (do let resp ← serve setup [w]; return encode resp.toStr)
      (fun out s' => ∀ reply, received out = some reply →
        stoi reply = .ok 0 ∧ done s' ∨ stoi reply ≠ .ok 0 ∧ failed s') s := by
    rw [wp_bind]
    apply wp_mono _ h
    intro out s' hout
    cases hout with
    | zero hdone =>
      intro reply hreply
      obtain rfl := Option.some_inj.1 hreply
      exact .inl ⟨stoi_encode_showInt 0, hdone⟩
    | number hj hfailed =>
      intro reply hreply
      obtain rfl := Option.some_inj.1 hreply
      exact .inr ⟨stoi_showInt_ne_zero hj, hfailed⟩
    | exc e hfailed =>
      intro reply hreply
      obtain rfl := Option.some_inj.1 hreply
      exact .inr ⟨by decide, hfailed⟩
  exact (wp_iff_exec _).1 hwp out s' hx reply hrecv

/-- The exchange in which a handler returns. -/
theorem socketEnv_of_serve {setup : Setup} {E : Env OsRes σ} {s s' : σ} {w : Str} (hw : IsToken w)
    (resp : Resp) (hx : Exec E (serve setup [w]) s (.ret resp) s') :
    socketEnv setup E (encode w) s (encode resp.toStr) s' := by
  have hline := handle_line setup [w] (by simpa using hw)
  rw [unwords_singleton] at hline
  refine ⟨.ret (encode resp.toStr), ?_, rfl⟩
  rw [hline]
  exact hx.bind (.ret _ _)

theorem socketEnv_mono {setup : Setup} {E E' : Env OsRes σ}
    (h : ∀ o s r s', E o s r s' → E' o s r s') {command : Bytes} {s s' : σ} {reply : Bytes}
    (hstep : socketEnv setup E command s reply s') : socketEnv setup E' command s reply s' := by
  obtain ⟨out, hx, hrecv⟩ := hstep
  exact ⟨out, hx.mono h, hrecv⟩

end System
