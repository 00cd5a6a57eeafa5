import PrussBindings.Client.Sendcmd
import PrussBindings.Daemon.Reply
import PrussBindings.System.RawMessage
import PrussBindings.System.Socket

/-!
# Data and errors in one string

A byte of a memory, a message of a PRU, an error number of the daemon and the
silence of a handler that raised all come back from `sendcmd` as a string.  What
happened is known from the calls the daemon made: this file says which strings
can come of which calls.

* `sendcmdEnv` — `Socket::sendcmd` with its buffers, over a daemon whose calls
  may be answered in any way and are recorded.
* `ByteRead`, `MessageRead` — the calls of a `MEMREAD` that read its byte, and
  of a `GETMSG` that took a message off the channel.
* `memRead_recorded`, `getMsg_recorded` — what the handlers return after which calls.
* `replies_distinct` — **a byte is never taken for an error**, and a message for
  an error or an empty queue exactly if its text, up to a zero, is nothing, a
  newline, or a negative number.
-/

namespace System

open Effect Errno Text Client Daemon

/-! ## What the calls of the daemon say -/

/-- The call read a byte of a memory. -/
def isPeek : Effect.Call OsRes → Bool
  | ⟨.peek _, _⟩ => true
  | _ => false

/-- A byte of a memory was read. -/
def ByteRead (tr : Trace OsRes) : Prop := tr.any isPeek = true

/-- The text a call read off a channel. -/
def lineRead : Effect.Call OsRes → Str
  | ⟨.readline _, .ok line⟩ => line
  | _ => []

/-- The text that was read off a channel. -/
def textRead (tr : Trace OsRes) : Str := tr.flatMap lineRead

/-- No call raised an exception. -/
def Succeeded (tr : Trace OsRes) : Prop := ∀ c ∈ tr, raised c.1 c.2 = none

/-- The message `m` was read off a channel, and nothing went wrong. -/
structure MessageRead (m : Str) (tr : Trace OsRes) : Prop where
  text : textRead tr = m
  nonempty : m ≠ []
  clean : Succeeded tr

/-- Nothing was there to be read, or something went wrong. -/
def NoMessage (tr : Trace OsRes) : Prop := ∀ m, ¬ MessageRead m tr

/-- The error numbers of the system are positive. -/
def PositiveErrnos (tr : Trace OsRes) : Prop :=
  ∀ c ∈ tr, ∀ k, raised c.1 c.2 = some (.osError (some k)) → 0 < k

/-- `Socket::sendcmd`: `conn` says whether `conn()` succeeds; if it does, the
daemon serves the bytes that were sent. -/
def sendcmdEnv (setup : Setup) (stack : Stack) (conn : Bool) :
    Env (fun _ : Bytes => Bytes) (Trace OsRes) :=
  fun command tr s tr' =>
    if conn then ∃ sent out reply, sentBytes stack command = some sent ∧
      Exec traced (handle setup sent) tr out tr' ∧ received out = some reply ∧
        replyString reply = some s
    else s = toStr ECONNREFUSED ∧ tr' = tr

/-- A method returns the string `s`, and these are the calls the daemon made. -/
def Returns (setup : Setup) (stack : Stack) (conn : Bool) (m : Method PRU Bytes) (p : PRU)
    (tr : Trace OsRes) (s : Bytes) : Prop :=
  Exec (sendcmdEnv setup stack conn) (m p) [] (.ret (.ok s, p)) tr

/-- The text of a message, as far as the client takes it for text, is that of an
error or of an empty queue: nothing, a newline, or a negative number. -/
def Ambiguous (m : Str) : Prop :=
  cstr (encode m) = [] ∨ cstr (encode m) = [10] ∨ ∃ k : Int, 0 < k ∧ cstr (encode m) = toStr (-k)

@[simp] theorem textRead_nil : textRead [] = [] := rfl

@[simp] theorem textRead_cons (c : Effect.Call OsRes) (tr : Trace OsRes) :
    textRead (c :: tr) = lineRead c ++ textRead tr := rfl

@[simp] theorem textRead_append (tr tr' : Trace OsRes) :
    textRead (tr ++ tr') = textRead tr ++ textRead tr' := List.flatMap_append

theorem succeeded_cons {c : Effect.Call OsRes} {tr : Trace OsRes} :
    Succeeded (c :: tr) ↔ raised c.1 c.2 = none ∧ Succeeded tr := List.forall_mem_cons

theorem succeeded_append {tr tr' : Trace OsRes} :
    Succeeded (tr ++ tr') ↔ Succeeded tr ∧ Succeeded tr' :=
  List.forall_mem_append

/-- Without text there is no message. -/
theorem noMessage_of_text {tr : Trace OsRes} (h : textRead tr = []) : NoMessage tr :=
  fun _ hm => hm.nonempty (hm.text.symm.trans h)

/-- After an exception there is no message. -/
theorem noMessage_of_raised {tr : Trace OsRes} {c : Effect.Call OsRes} {e : PyExc} (hc : c ∈ tr)
    (h : raised c.1 c.2 = some e) : NoMessage tr := by
  intro m hm
  rw [hm.clean c hc] at h
  cases h

/-! ## `mem_read` -/

/-- How a `MEMREAD` ends: with a number that is not negative after the byte was
read, with `-EINVAL` or an exception before. -/
def MemReadEnds : Outcome PyExc Resp → Trace OsRes → Prop
  | .ret (.int n), tr => ByteRead tr ∧ 0 ≤ n ∨ ¬ ByteRead tr ∧ n = -EINVAL
  | .ret _, _ => False
  | .raise _, tr => ¬ ByteRead tr
  | .spin, _ => True

theorem memRead_recorded (setup : Setup) (ram : Ram) (cmd : List Str) :
    Recorded (memRead setup ram cmd) MemReadEnds := by
  unfold memRead
  cases memReadArgs setup cmd with
  | error e =>
    cases e with
    | valueError => exact .inr ⟨Bool.false_ne_true, rfl⟩
    | _ => exact Bool.false_ne_true
  | ok o =>
    rw [parsed_ok]
    unfold unpackB
    -- the exceptions of `open` and `mmap` come before the byte
    cases sliceByte pruIcssSize (ram.base + o) with
    | none =>
      rintro (e | _)
      · exact Bool.false_ne_true
      · rintro (e | _) _
        · exact Bool.false_ne_true
        · exact Bool.false_ne_true
    | some k =>
      rintro (e | _)
      · exact Bool.false_ne_true
      · rintro (e | _)
        · intro _
          exact Bool.false_ne_true
        · intro b _
          exact .inl ⟨rfl, Int.natCast_nonneg _⟩

/-! ## `get_msg` -/

/-- A part of `get_msg` that reads: what it returns goes with the text that was
read, and what it raises was raised by a call. -/
def Reads {α : Type} (ret : α → Str → Prop) : Outcome PyExc α → Trace OsRes → Prop
  | .ret a, tr => ret a (textRead tr) ∧ Succeeded tr
  | .raise e, tr => ∃ c ∈ tr, raised c.1 c.2 = some e
  | .spin, _ => True

theorem Reads.cons {α : Type} {ret ret' : α → Str → Prop} {out : Outcome PyExc α}
    {c : Effect.Call OsRes} {tr : Trace OsRes} (hc : raised c.1 c.2 = none)
    (hret : ∀ a t, ret a t → ret' a (lineRead c ++ t)) (h : Reads ret out tr) :
    Reads ret' out (c :: tr) := by
  cases out with
  | ret a => exact ⟨hret _ _ h.1, succeeded_cons.2 ⟨hc, h.2⟩⟩
  | raise e =>
    obtain ⟨c', hmem, he⟩ := h
    exact ⟨c', List.mem_cons_of_mem _ hmem, he⟩
  | spin => trivial

/-- What the loop of `get_msg` returns: the text it had, and the text it read. -/
theorem getMsgLoop_recorded (dev : Str) (n : Nat) (reply : Str) :
    Recorded (getMsgLoop dev n reply)
      (Reads fun s t => s = reply ++ t ∧ (t ≠ [] → 0 < n)) := by
  induction n generalizing reply with
  | zero =>
    rintro (e | ready)
    · exact ⟨_, List.mem_cons_self .., rfl⟩
    · cases ready with
      | false =>
        exact ⟨⟨by simp [lineRead], fun h => absurd rfl h⟩, by simp [Succeeded, raised, raisedBy]⟩
      | true => trivial
  | succ n ih =>
    rintro (e | ready)
    · exact ⟨_, List.mem_cons_self .., rfl⟩
    · cases ready with
      | false =>
        exact ⟨⟨by simp [lineRead], fun h => absurd rfl h⟩, by simp [Succeeded, raised, raisedBy]⟩
      | true =>
        rintro (e | line)
        · exact ⟨_, List.mem_cons_of_mem _ (List.mem_cons_self ..), rfl⟩
        · apply (ih (reply ++ line)).mono
          intro out tr h
          apply Reads.cons rfl (fun a t ht => ht)
          apply Reads.cons rfl _ h
          rintro a t ⟨rfl, -⟩
          exact ⟨by simp [lineRead], fun _ => Nat.succ_pos n⟩

/-- The end of a `with` block adds the closing to the record. -/
theorem recorded_closing {α : Type} {path : Str} {body : Py α}
    {Q Q' : Outcome PyExc α → Trace OsRes → Prop} (hbody : Recorded body Q)
    (hclose : ∀ out tr, Q out tr → Q' out (tr ++ [⟨.close path, ()⟩]))
    (hspin : ∀ tr, Q .spin tr → Q' .spin tr) :
    Recorded (do
      let a ← body.tryCatch fun e => do
        close path
        .raise e
      close path
      return a) Q' := by
  induction body generalizing Q Q' with
  | ret a => exact fun _ => hclose _ _ hbody
  | raise e => exact fun _ => hclose _ _ hbody
  | spin => exact hspin _ hbody
  | call o k ih =>
    intro r
    exact ih r (hbody r) (fun out tr => hclose out _) fun tr => hspin _

/-- A `with` block around a part that reads. -/
theorem reads_withOpen {α : Type} {ret : α → Str → Prop} {path : Str} {mode : OpenMode}
    {body : Py α} (hbody : Recorded body (Reads ret)) :
    Recorded (withOpen path mode body) (Reads ret) := by
  have hclosed {out : Outcome PyExc α} {tr : Trace OsRes} (h : Reads ret out tr) :
      Reads ret out (tr ++ [⟨.close path, ()⟩]) := by
    cases out with
    | ret a =>
      refine ⟨?_, succeeded_append.2 ⟨h.2, by simp [Succeeded, raised]⟩⟩
      rw [textRead_append]
      exact (List.append_nil (textRead tr)).symm ▸ h.1
    | raise e =>
      obtain ⟨c, hmem, he⟩ := h
      exact ⟨c, List.mem_append_left _ hmem, he⟩
    | spin => trivial
  rintro (e | _)
  · exact ⟨_, List.mem_cons_self .., rfl⟩
  · apply (recorded_closing hbody (fun out tr => hclosed) fun tr h => h).mono
    intro out tr h
    exact h.cons rfl fun a t ht => ht

/-- What `get_msg` does with a device that is there. -/
def receive (setup : Setup) (dev : Str) : Py Resp := do
  if !(← pathExists dev) then return .int (-ENODEV)
  catchOSError do
    let reply ← withOpen dev .r (getMsgLoop dev setup.maxLines [])
    return if reply = [] then .str ['\n'] else .str reply

/-- How a `GETMSG` ends: with the text of a message, with a newline where there
is none, with a negative number or an exception. -/
def GetMsgEnds (setup : Setup) : Outcome PyExc Resp → Trace OsRes → Prop
  | .ret (.str s), tr => MessageRead s tr ∧ 0 < setup.maxLines ∨ s = ['\n'] ∧ NoMessage tr
  | .ret (.int n), tr => NoMessage tr ∧ (PositiveErrnos tr → n < 0)
  | .ret .none, _ => False
  | .raise _, tr => NoMessage tr
  | .spin, _ => True

/-- The response that goes with the text. -/
def TextResp (setup : Setup) (resp : Resp) (t : Str) : Prop :=
  resp = .str (if t = [] then ['\n'] else t) ∧ (t ≠ [] → 0 < setup.maxLines)

theorem receive_reads (setup : Setup) (dev : Str) :
    Recorded (do
        let reply ← withOpen dev .r (getMsgLoop dev setup.maxLines [])
        return if reply = [] then Resp.str ['\n'] else .str reply : Py Resp)
      (Reads (TextResp setup)) := by
  apply (reads_withOpen (getMsgLoop_recorded dev setup.maxLines [])).bind
  · rintro reply tr ⟨⟨hreply, hlines⟩, hok⟩
    rw [List.nil_append] at hreply
    show Reads (TextResp setup) (.ret (if reply = [] then Resp.str ['\n'] else .str reply))
      (tr ++ [])
    rw [List.append_nil, hreply]
    refine ⟨⟨?_, hlines⟩, hok⟩
    split_ifs <;> rfl
  · exact fun e tr h => h
  · exact fun tr h => h

theorem receive_recorded (setup : Setup) (dev : Str) :
    Recorded (receive setup dev) (GetMsgEnds setup) := by
  rintro (_ | _)
  · exact ⟨noMessage_of_text rfl, fun _ => by norm_num [ENODEV]⟩
  · apply (receive_reads setup dev).tryCatch
    · rintro resp tr ⟨⟨rfl, hlines⟩, hok⟩
      by_cases htext : textRead tr = []
      · rw [if_pos htext]
        exact .inr ⟨rfl, noMessage_of_text htext⟩
      · rw [if_neg htext]
        refine .inl ⟨⟨rfl, htext, succeeded_cons.2 ⟨rfl, hok⟩⟩, hlines htext⟩
    · rintro e tr ⟨c, hmem, he⟩
      have hmem' (tr' : Trace OsRes) : c ∈ ⟨.pathExists dev, true⟩ :: (tr ++ tr') :=
        List.mem_cons_of_mem _ (List.mem_append_left _ hmem)
      have hno (tr' : Trace OsRes) : NoMessage (⟨.pathExists dev, true⟩ :: (tr ++ tr')) :=
        noMessage_of_raised (hmem' tr') he
      cases e with
      | osError n =>
        cases n with
        | none => exact hno []
        | some k =>
          refine ⟨hno [], fun hpos => ?_⟩
          have hk := hpos c (hmem' []) k he
          omega
      | _ => exact hno []
    · exact fun tr h => h

/-- What a `GETMSG` is: a number, an exception, or the reading of a device. -/
theorem getMsg_cases (setup : Setup) (cmd : List Str) :
    (∃ n < 0, getMsg setup cmd = .ret (.int n)) ∨ (∃ e, getMsg setup cmd = .raise e) ∨
      ∃ dev, getMsg setup cmd = receive setup dev := by
  unfold getMsg
  by_cases hlen : cmd.length ≠ 3
  · rw [if_pos hlen]
    exact .inl ⟨-EINVAL, by norm_num [EINVAL], rfl⟩
  · rw [if_neg hlen]
    cases getMsgArgs setup cmd with
    | error e =>
      cases e with
      | valueError => exact .inl ⟨-EINVAL, by norm_num [EINVAL], rfl⟩
      | _ => exact .inr (.inl ⟨_, rfl⟩)
    | ok chan =>
      rw [parsed_ok]
      by_cases hchan : chan.name ∉ setup.paths.rpmsgChannels
      · simp only [if_pos hchan]
        exact .inl ⟨-EPERM, by norm_num [EPERM], rfl⟩
      · simp only [if_neg hchan]
        exact .inr (.inr ⟨chan.devnode, rfl⟩)

theorem getMsg_recorded (setup : Setup) (cmd : List Str) :
    Recorded (getMsg setup cmd) (GetMsgEnds setup) := by
  rcases getMsg_cases setup cmd with ⟨n, hn, h⟩ | ⟨e, h⟩ | ⟨dev, h⟩
  · rw [h]
    exact ⟨noMessage_of_text rfl, fun _ => hn⟩
  · rw [h]
    exact noMessage_of_text rfl
  · rw [h]
    exact receive_recorded setup dev

/-! ## The strings -/

theorem returns_iff {setup : Setup} {stack : Stack} {conn : Bool} {command : Bytes} {p : PRU}
    {tr : Trace OsRes} {s : Bytes} :
    Exec (sendcmdEnv setup stack conn) (do
        let reply ← sendcmd command
        return (Except.ok reply, p) : Cpp (Except StoiError Bytes × PRU)) [] (.ret (.ok s, p)) tr ↔
      sendcmdEnv setup stack conn command [] s tr := by
  constructor
  · rintro (_ | _ | _ | ⟨hstep, hx⟩)
    cases hx
    exact hstep
  · intro hstep
    exact .call hstep (.ret _ _)

theorem memReadCmd_eq (mem : Memory) (offset : Bytes) :
    PRU.memReadCmd mem offset = encode ((ramOf mem).readCmd ++ [' ']) ++ offset := by
  cases mem <;> rfl

theorem getMsgCmd_eq (p : PRU) : p.getMsgCmd = encode ("GETMSG".toList ++ [' ']) ++ p.chan := rfl

/-- What is known of a handler is known of what its command is served by. -/
theorem handle_recorded {setup : Setup} {w : Str} (hw : IsToken w) (b : Bytes)
    {Q : Outcome PyExc Resp → Trace OsRes → Prop}
    (hserve : ∀ args, Recorded (serve setup (w :: args)) Q) :
    Recorded (handle setup (encode (w ++ [' ']) ++ b)) fun out tr => match out with
      | .ret reply => ∃ resp, Q (.ret resp) tr ∧ reply = encode resp.toStr
      | .raise e => tr = [] ∨ Q (.raise e) tr
      | .spin => True := by
  rcases cmdOf_first_word hw b with hcmd | ⟨args, hcmd⟩
  · rw [handle_of_cmdOf_none hcmd]
    exact .inl rfl
  · rw [handle_of_cmdOf hcmd]
    apply (hserve args).bind
    · intro resp tr hresp
      refine ⟨resp, ?_, rfl⟩
      rwa [List.append_nil]
    · exact fun e tr h => .inr h
    · exact fun _ _ => trivial

/-- A command whose handler says `Q`, over the socket. -/
theorem sendcmd_recorded {setup : Setup} {stack : Stack} {w : Str} (hw : IsToken w)
    (hzero : 0 ∉ encode (w ++ [' '])) (hpct : 37 ∉ encode (w ++ [' '])) {b : Bytes}
    {Q : Outcome PyExc Resp → Trace OsRes → Prop}
    (hserve : ∀ args, Recorded (serve setup (w :: args)) Q) {s : Bytes} {tr : Trace OsRes}
    (h : sendcmdEnv setup stack true (encode (w ++ [' ']) ++ b) [] s tr) :
    (∃ resp, Q (.ret resp) tr ∧ s = cstr (encode resp.toStr)) ∨
      s = [] ∧ (tr = [] ∨ ∃ e, Q (.raise e) tr) := by
  obtain ⟨sent, out, reply, hsent, hx, hrecv, hstring⟩ := h
  obtain ⟨rest, rfl⟩ := sentBytes_prefix stack hzero hpct hsent
  obtain ⟨new, rfl, hout⟩ := (handle_recorded hw rest hserve).exec hx
  cases out with
  | ret reply' =>
    cases hrecv
    obtain ⟨resp, hresp, rfl⟩ := hout
    exact .inl ⟨resp, hresp, replyString_eq hstring⟩
  | raise e =>
    cases hrecv
    refine .inr ⟨replyString_eq hstring, ?_⟩
    rcases hout with rfl | hout
    · exact .inl rfl
    · exact .inr ⟨e, hout⟩
  | spin => cases hrecv

theorem cstr_toStr (n : Int) : cstr (toStr n) = toStr n :=
  cstr_eq_self (not_mem_encode (by decide) (not_mem_showInt (by decide)))

/-- **What `mem_read` returns**: a number that is not negative where a byte was
read; nothing, or `-EINVAL`, where none was. -/
theorem memRead_string {setup : Setup} {stack : Stack} {mem : Memory} {offset : Bytes} {p : PRU}
    {tr : Trace OsRes} {s : Bytes} (h : Returns setup stack true (PRU.memRead mem offset) p tr s) :
    ByteRead tr ∧ (∃ n : Int, 0 ≤ n ∧ s = toStr n) ∨
      ¬ ByteRead tr ∧ (s = [] ∨ s = toStr (-EINVAL)) := by
  have hstep := returns_iff.1 h
  rw [memReadCmd_eq] at hstep
  have hword : IsToken (ramOf mem).readCmd := by cases mem <;> decide
  have hzero : 0 ∉ encode ((ramOf mem).readCmd ++ [' ']) := by cases mem <;> decide
  have hpct : 37 ∉ encode ((ramOf mem).readCmd ++ [' ']) := by cases mem <;> decide
  have hserve (args : List Str) :
      serve setup ((ramOf mem).readCmd :: args) =
        memRead setup (ramOf mem) ((ramOf mem).readCmd :: args) := by cases mem <;> rfl
  rcases sendcmd_recorded hword hzero hpct
    (fun args => hserve args ▸ memRead_recorded _ _ _) hstep with
    ⟨resp, hresp, rfl⟩ | ⟨rfl, rfl | ⟨e, he⟩⟩
  · cases resp with
    | int n =>
      rcases hresp with ⟨hread, hn⟩ | ⟨hread, rfl⟩
      · exact .inl ⟨hread, n, hn, cstr_toStr n⟩
      · exact .inr ⟨hread, .inr (cstr_toStr (-EINVAL))⟩
    | str s => exact hresp.elim
    | none => exact hresp.elim
  · exact .inr ⟨Bool.false_ne_true, .inl rfl⟩
  · exact .inr ⟨he, .inl rfl⟩

/-- **What `getMsg` returns**: the message up to its first zero where one was
read; nothing, a newline or an error number where none was. -/
theorem getMsg_string {setup : Setup} {stack : Stack} {p : PRU} {tr : Trace OsRes} {s : Bytes}
    (h : Returns setup stack true PRU.getMsg p tr s) :
    (∃ m, MessageRead m tr ∧ s = cstr (encode m)) ∨
      NoMessage tr ∧ (s = [] ∨ s = [10] ∨ ∃ n, (PositiveErrnos tr → n < 0) ∧ s = toStr n) := by
  have hstep := returns_iff.1 h
  rw [getMsgCmd_eq] at hstep
  have hserve (args : List Str) :
      serve setup ("GETMSG".toList :: args) = getMsg setup ("GETMSG".toList :: args) := rfl
  rcases sendcmd_recorded (by decide) (by decide) (by decide)
    (fun args => hserve args ▸ getMsg_recorded setup _) hstep with
    ⟨resp, hresp, rfl⟩ | ⟨rfl, rfl | ⟨e, he⟩⟩
  · cases resp with
    | int n => exact .inr ⟨hresp.1, .inr (.inr ⟨n, hresp.2, cstr_toStr n⟩)⟩
    | str m =>
      rcases hresp with ⟨hread, -⟩ | ⟨rfl, hnone⟩
      · exact .inl ⟨m, hread, rfl⟩
      · exact .inr ⟨hnone, .inr (.inl (by decide))⟩
    | none => exact hresp.elim
  · exact .inr ⟨noMessage_of_text rfl, .inl rfl⟩
  · exact .inr ⟨he, .inl rfl⟩

/-! ## A message that looks like an error -/

section Collide

variable {setup : Setup} {stack : Stack} {p : PRU} {sent : Bytes} {dev : Str}

/-- A message is read only where a `GETMSG` may read lines. -/
theorem getMsg_lines (setup : Setup) (cmd : List Str) :
    Recorded (do
        let resp ← getMsg setup cmd
        return encode resp.toStr)
      fun out tr => (∃ m, MessageRead m tr) → out = .spin ∨ 0 < setup.maxLines := by
  apply (getMsg_recorded setup cmd).bind
  · rintro resp tr hresp ⟨m, hm⟩
    rw [List.append_nil] at hm
    cases resp with
    | int n => exact absurd hm (hresp.1 m)
    | str s =>
      rcases hresp with ⟨-, hlines⟩ | ⟨-, hnone⟩
      · exact .inr hlines
      · exact absurd hm (hnone m)
    | none => exact hresp.elim
  · rintro e tr hnone ⟨m, hm⟩
    exact absurd hm (hnone m)
  · exact fun tr _ _ => .inl rfl

/-- Where a message was read, the handler got as far as the device. -/
theorem exists_receive {m : Str} {tr : Trace OsRes} {s : Bytes}
    (h : Returns setup stack true PRU.getMsg p tr s) (hm : MessageRead m tr) :
    ∃ sent dev, sentBytes stack p.getMsgCmd = some sent ∧
      handle setup sent = (do let resp ← receive setup dev; return encode resp.toStr) ∧
      0 < setup.maxLines ∧ s.length < recBufSize := by
  obtain ⟨sent, out, reply, hsent, hx, hrecv, hstring⟩ := returns_iff.1 h
  have hbegin := hsent
  rw [getMsgCmd_eq] at hbegin
  obtain ⟨rest, rfl⟩ := sentBytes_prefix stack (by decide) (by decide) hbegin
  have hempty : tr ≠ [] := by
    rintro rfl
    exact noMessage_of_text rfl m hm
  rcases cmdOf_first_word (w := "GETMSG".toList) (by decide) rest with hcmd | ⟨args, hcmd⟩
  · rw [handle_of_cmdOf_none hcmd] at hx
    cases hx
    exact absurd rfl hempty
  · have hhandle : handle setup (encode ("GETMSG".toList ++ [' ']) ++ rest) = (do
        let resp ← getMsg setup ("GETMSG".toList :: args)
        return encode resp.toStr) := handle_of_cmdOf hcmd setup
    rw [hhandle] at hx
    rcases getMsg_cases setup ("GETMSG".toList :: args) with ⟨n, -, hget⟩ | ⟨e, hget⟩ | ⟨dev, hget⟩
    · rw [hget] at hx
      cases hx
      exact absurd rfl hempty
    · rw [hget] at hx
      cases hx
      exact absurd rfl hempty
    · refine ⟨_, dev, hsent, hget ▸ hhandle, ?_, length_of_replyString hstring⟩
      obtain ⟨new, rfl, hout⟩ := (getMsg_lines setup _).exec hx
      rcases hout ⟨m, hm⟩ with rfl | hlines
      · cases hrecv
      · exact hlines

/-- The string of a run of the handler. -/
theorem returns_of_resp (hsent : sentBytes stack p.getMsgCmd = some sent)
    (hhandle : handle setup sent = (do let resp ← receive setup dev; return encode resp.toStr))
    {resp : Resp} {tr : Trace OsRes} {s : Bytes}
    (hx : Exec traced (receive setup dev) [] (.ret resp) tr)
    (hs : replyString (encode resp.toStr) = some s) :
    Returns setup stack true PRU.getMsg p tr s := by
  refine returns_iff.2 ⟨sent, .ret (encode resp.toStr), encode resp.toStr, hsent, ?_, rfl, hs⟩
  rw [hhandle]
  exact hx.bind (.ret _ _)

theorem returns_of_raise (hsent : sentBytes stack p.getMsgCmd = some sent)
    (hhandle : handle setup sent = (do let resp ← receive setup dev; return encode resp.toStr))
    {e : PyExc} {tr : Trace OsRes} (hx : Exec traced (receive setup dev) [] (.raise e) tr) :
    Returns setup stack true PRU.getMsg p tr [] := by
  refine returns_iff.2 ⟨sent, .raise e, [], hsent, ?_, rfl, rfl⟩
  rw [hhandle]
  exact hx.bind_raise _

/-- The device cannot be opened. -/
theorem receive_openFile (k : Int) :
    Exec traced (receive setup dev) [] (.ret (.int (-k)))
      [⟨.pathExists dev, true⟩, ⟨.openFile dev .r, .error (.osError (some k))⟩] := by
  refine .call (r := true) rfl ?_
  refine .call (r := (.error (.osError (some k)) : Except PyExc Unit)) rfl ?_
  exact .ret _ _

/-- The device has nothing to be read. -/
theorem receive_empty :
    Exec traced (receive setup dev) [] (.ret (.str ['\n']))
      [⟨.pathExists dev, true⟩, ⟨.openFile dev .r, .ok ()⟩, ⟨.select dev (some 0), .ok false⟩,
        ⟨.close dev, ()⟩] := by
  unfold receive
  cases setup.maxLines <;>
  · refine .call (r := true) rfl ?_
    refine .call (r := (.ok () : Except PyExc Unit)) rfl ?_
    refine .call (r := (.ok false : Except PyExc Bool)) rfl ?_
    refine .call (r := ()) rfl ?_
    exact .ret _ _

/-- The message is no UTF-8. -/
theorem receive_undecodable (hlines : 0 < setup.maxLines) :
    Exec traced (receive setup dev) [] (.raise .unicodeDecodeError)
      [⟨.pathExists dev, true⟩, ⟨.openFile dev .r, .ok ()⟩, ⟨.select dev (some 0), .ok true⟩,
        ⟨.readline dev, .error .unicodeDecodeError⟩, ⟨.close dev, ()⟩] := by
  obtain ⟨n, hn⟩ := Nat.exists_eq_succ_of_ne_zero hlines.ne'
  unfold receive
  rw [hn]
  refine .call (r := true) rfl ?_
  refine .call (r := (.ok () : Except PyExc Unit)) rfl ?_
  refine .call (r := (.ok true : Except PyExc Bool)) rfl ?_
  refine .call (r := (.error .unicodeDecodeError : Except PyExc Str)) rfl ?_
  refine .call (r := ()) rfl ?_
  exact .raise _ _

/-- The device has a line to be read, and no more. -/
theorem receive_line (hlines : 0 < setup.maxLines) {line : Str} (hline : line ≠ []) :
    Exec traced (receive setup dev) [] (.ret (.str line))
      [⟨.pathExists dev, true⟩, ⟨.openFile dev .r, .ok ()⟩, ⟨.select dev (some 0), .ok true⟩,
        ⟨.readline dev, .ok line⟩, ⟨.select dev (some 0), .ok false⟩, ⟨.close dev, ()⟩] := by
  obtain ⟨n, hn⟩ := Nat.exists_eq_succ_of_ne_zero hlines.ne'
  have hresp : (if line = [] then Resp.str ['\n'] else .str line) = .str line := if_neg hline
  unfold receive
  rw [hn]
  cases n <;>
  · refine .call (r := true) rfl ?_
    refine .call (r := (.ok () : Except PyExc Unit)) rfl ?_
    refine .call (r := (.ok true : Except PyExc Bool)) rfl ?_
    refine .call (r := (.ok line : Except PyExc Str)) rfl ?_
    refine .call (r := (.ok false : Except PyExc Bool)) rfl ?_
    refine .call (r := ()) rfl ?_
    rw [← hresp]
    exact .ret _ _

/-- **A message that looks like an error can be one**: the same call, with other
answers of the system, returns the same string without a message. -/
theorem exists_returns_noMessage {m : Str} {tr : Trace OsRes} {s : Bytes}
    (h : Returns setup stack true PRU.getMsg p tr s) (hm : MessageRead m tr)
    (hs : s = cstr (encode m))
    (hamb : Ambiguous m) :
    ∃ tr', Returns setup stack true PRU.getMsg p tr' s ∧ NoMessage tr' ∧ PositiveErrnos tr' := by
  obtain ⟨sent, dev, hsent, hhandle, hlines, hlen⟩ := exists_receive h hm
  rcases hamb with hnil | hnewline | ⟨k, hk, hnumber⟩
  · rw [hs, hnil]
    refine ⟨_, returns_of_raise hsent hhandle (receive_undecodable hlines), noMessage_of_text rfl, ?_⟩
    simp [PositiveErrnos, raised, raisedBy]
  · rw [hs, hnewline]
    refine ⟨_, returns_of_resp hsent hhandle receive_empty (by decide), noMessage_of_text rfl, ?_⟩
    simp [PositiveErrnos, raised, raisedBy]
  · have hreply : replyString (encode (Resp.int (-k)).toStr) = some s := by
      have hlen' : (toStr (-k)).length < recBufSize := by rwa [← hnumber, ← hs]
      rw [hs, hnumber]
      exact (if_pos hlen').trans (congrArg some (cstr_toStr _))
    refine ⟨_, returns_of_resp hsent hhandle (receive_openFile k) hreply, noMessage_of_text rfl, ?_⟩
    simpa [PositiveErrnos, raised, raisedBy] using hk

end Collide

/-! ## On one channel -/

/-- The node of the channel of core `1`. -/
def apiNode : Str := rpmsgDevnode "pruss_api_pru".toList 31

theorem sentBytes_apiPru1 : sentBytes .zeros apiPru1.getMsgCmd = some (apiPru1.getMsgCmd ++ [10]) :=
  sentBytes_zeros (by decide) (by decide) (by decide)

theorem handle_apiPru1 : handle (configured [] 1000 10 .default) (apiPru1.getMsgCmd ++ [10]) = (do
    let resp ← receive (configured [] 1000 10 .default) apiNode
    return encode resp.toStr) := by
  have hline : apiPru1.getMsgCmd =
      encode (unwords ["GETMSG".toList, "pruss_api_pru".toList, showInt 31]) := by decide
  have hserve : serve (configured [] 1000 10 .default)
      ["GETMSG".toList, "pruss_api_pru".toList, showInt 31] =
        receive (configured [] 1000 10 .default) apiNode := rfl
  rw [hline, handle_line _ _ (by decide), hserve]

/-- A message of one line on the channel. -/
theorem returns_line (line : Str) (hline : line ≠ []) (hlen : (encode line).length < recBufSize) :
    ∃ tr, Returns (configured [] 1000 10 .default) .zeros true PRU.getMsg apiPru1 tr
        (cstr (encode line)) ∧ MessageRead line tr := by
  have hstring : replyString (encode (Resp.str line).toStr) = some (cstr (encode line)) :=
    if_pos hlen
  refine ⟨_, returns_of_resp sentBytes_apiPru1 handle_apiPru1 (receive_line (by decide) hline) hstring,
    ?_, hline, ?_⟩
  · simp [lineRead]
  · simp [Succeeded, raised, raisedBy]

/-- A byte at the start of a memory. -/
theorem returns_byte (b : UInt8) (hlen : (toStr b.toNat).length < recBufSize) :
    ∃ tr, Returns (configured [] 1000 10 .default) .zeros true (PRU.memRead .data0 (lit "0"))
        apiPru1 tr (toStr b.toNat) ∧ ByteRead tr := by
  have hline : PRU.memReadCmd .data0 (lit "0") = encode (unwords ["MEMREAD_D0".toList, ['0']]) := by
    decide
  have hstring : replyString (toStr b.toNat) = some (toStr b.toNat) :=
    (if_pos hlen).trans (congrArg some (cstr_toStr _))
  refine ⟨[⟨.openFile devMem .rPlusB, .ok ()⟩, ⟨.mmap pruIcssSize pruIcss, .ok ()⟩,
    ⟨.peek 0, b⟩, ⟨.close devMem, ()⟩], ?_, rfl⟩
  refine returns_iff.2 ⟨_, .ret (toStr b.toNat), toStr b.toNat,
    sentBytes_zeros (by decide) (by decide) (by decide), ?_, rfl, hstring⟩
  rw [hline, handle_line _ _ (by decide)]
  refine .call (r := (.ok () : Except PyExc Unit)) rfl ?_
  refine .call (r := (.ok () : Except PyExc Unit)) rfl ?_
  refine .call (r := b) rfl ?_
  refine .call (r := ()) rfl ?_
  exact .ret _ _

/-- An offset that is no number. -/
theorem returns_offset :
    Returns (configured [] 1000 10 .default) .zeros true (PRU.memRead .data0 (lit "x")) apiPru1 []
      (toStr (-EINVAL)) := by
  have hline : PRU.memReadCmd .data0 (lit "x") = encode (unwords ["MEMREAD_D0".toList, ['x']]) := by
    decide
  refine returns_iff.2 ⟨_, .ret (toStr (-EINVAL)), toStr (-EINVAL),
    sentBytes_zeros (by decide) (by decide) (by decide), ?_, rfl, by decide⟩
  rw [hline, handle_line _ _ (by decide)]
  exact .ret _ _

/-! ## The strings are told apart -/

/-- The text of a message is determined by the record. -/
theorem MessageRead.unique {m m' : Str} {tr : Trace OsRes} (h : MessageRead m tr)
    (h' : MessageRead m' tr) : m = m' := h.text.symm.trans h'.text

theorem toStr_inj {m n : Int} (h : toStr m = toStr n) : m = n :=
  showInt_inj.1 (encode_injective h)

theorem toStr_ne_nil (n : Int) : toStr n ≠ [] := by
  intro h
  exact showInt_ne_nil n (encode_injective (h.trans encode_nil.symm))

/-- **Which strings tell data from errors.**  With a daemon that is reached, and a
system whose error numbers are positive: no string of a `mem_read` that read its
byte is one of a `mem_read` that did not; and a string of a `getMsg` that read a
message is one of a `getMsg` that did not exactly if the message, up to a zero,
is nothing, a newline, or a negative number. -/
theorem replies_distinct :
    (∀ setup setup' stack stack' conn p p' mem mem' offset offset' tr tr' s s',
      Returns setup stack conn (PRU.memRead mem offset) p tr s → ByteRead tr →
      Returns setup' stack' true (PRU.memRead mem' offset') p' tr' s' → ¬ ByteRead tr' → s ≠ s') ∧
    ∀ setup stack conn p m tr s,
      Returns setup stack conn PRU.getMsg p tr s → MessageRead m tr →
      ((∃ setup' stack' p' tr', Returns setup' stack' true PRU.getMsg p' tr' s ∧ NoMessage tr' ∧
        PositiveErrnos tr') ↔ Ambiguous m) := by
  constructor
  · rintro setup setup' stack stack' (_ | _) p p' mem mem' offset offset' tr tr' s s' h hread h' hnone
    · obtain ⟨-, rfl⟩ := returns_iff.1 h
      exact absurd hread Bool.false_ne_true
    · rintro rfl
      rcases memRead_string h with ⟨-, n, hn, rfl⟩ | ⟨hno, -⟩
      · rcases memRead_string h' with ⟨hread', -⟩ | ⟨-, hnil | hinval⟩
        · exact hnone hread'
        · exact toStr_ne_nil n hnil
        · have heq := toStr_inj hinval
          simp only [EINVAL] at heq
          omega
      · exact hno hread
  · rintro setup stack (_ | _) p m tr s h hm
    · obtain ⟨-, rfl⟩ := returns_iff.1 h
      exact absurd hm (noMessage_of_text rfl m)
    · have hs : s = cstr (encode m) := by
        rcases getMsg_string h with ⟨m', hm', hs⟩ | ⟨hnone, -⟩
        · rwa [hm.unique hm']
        · exact absurd hm (hnone m)
      constructor
      · rintro ⟨setup', stack', p', tr', h', hnone, hpos⟩
        unfold Ambiguous
        rw [← hs]
        rcases getMsg_string h' with ⟨m', hm', -⟩ | ⟨-, hnil | hnewline | ⟨n, hn, hnumber⟩⟩
        · exact absurd hm' (hnone m')
        · exact .inl hnil
        · exact .inr (.inl hnewline)
        · have hneg := hn hpos
          exact .inr (.inr ⟨-n, by omega, by rw [neg_neg]; exact hnumber⟩)
      · intro hamb
        obtain ⟨tr', h', hnone, hpos⟩ := exists_returns_noMessage h hm hs hamb
        exact ⟨setup, stack, p, tr', h', hnone, hpos⟩

/-- The byte `5` is told from an error, and the line `hi` from errors and from an
empty queue. -/
theorem replies_distinct_hi :
    toStr 5 ≠ toStr (-EINVAL) ∧
      ¬ ∃ setup stack p tr, Returns setup stack true PRU.getMsg p tr
        (cstr (encode ['h', 'i', '\n'])) ∧ NoMessage tr ∧ PositiveErrnos tr := by
  obtain ⟨tr, hbyte, hread⟩ := returns_byte 5 (by decide)
  obtain ⟨tr', hline, hmessage⟩ := returns_line ['h', 'i', '\n'] (by decide) (by decide)
  refine ⟨replies_distinct.1 _ _ _ _ _ _ _ _ _ _ _ _ _ _ _ hbyte hread returns_offset
    Bool.false_ne_true, fun hno => ?_⟩
  rcases (replies_distinct.2 _ _ _ _ _ _ _ hline hmessage).1 hno with h | h | ⟨k, -, h⟩
  · exact absurd h (by decide)
  · exact absurd h (by decide)
  · have heq : ['h', 'i', '\n'] = showInt (-k) := encode_injective h
    have hmem : 'h' ∈ showInt (-k) := heq ▸ List.mem_cons_self ..
    exact absurd (mem_showInt hmem) (by decide)

/-- A message that is an empty line is returned as an empty queue is; and a byte
`111` as a daemon that is not there. -/
theorem replies_collide :
    (∃ tr tr' s, Returns (configured [] 1000 10 .default) .zeros true PRU.getMsg apiPru1 tr s ∧
      MessageRead ['\n'] tr ∧
      Returns (configured [] 1000 10 .default) .zeros true PRU.getMsg apiPru1 tr' s ∧
      NoMessage tr' ∧ Succeeded tr') ∧
    ∃ tr s, Returns (configured [] 1000 10 .default) .zeros true (PRU.memRead .data0 (lit "0"))
        apiPru1 tr s ∧ ByteRead tr ∧
      Returns (configured [] 1000 10 .default) .zeros false (PRU.memRead .data0 (lit "0"))
        apiPru1 [] s := by
  constructor
  · obtain ⟨tr, hline, hmessage⟩ := returns_line ['\n'] (by decide) (by decide)
    refine ⟨tr, _, _, hline, hmessage,
      returns_of_resp sentBytes_apiPru1 handle_apiPru1 receive_empty (by decide),
      noMessage_of_text rfl, ?_⟩
    simp [Succeeded, raised, raisedBy]
  · obtain ⟨tr, hbyte, hread⟩ := returns_byte 111 (by decide)
    exact ⟨tr, _, hbyte, hread, returns_iff.2 ⟨rfl, rfl⟩⟩

end System
