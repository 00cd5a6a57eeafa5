import PrussBindings.Daemon.Request
import PrussBindings.Node.Pru

/-!
# The commands of the Node client, as the daemon reads them

The Node client and `prussd.py` agree on the order of the words of a command and
on nothing else: the handlers take their arguments by position.

* `Decoded`, `ReadAs` — the words pick the handler of the call, with the number
  of words it asks for and the arguments of the call.
* `readAs_getMsg`, `readAs_waitForEvent`, `readAs_load_iff` — the calls whose
  commands are read as they were meant.
* `handle_sendMsg` — the command of `sendMsg` lacks the mode, and no message is
  ever sent.
* `readAs_iff` — **the command of a call is read as it was meant exactly if the
  call is not `sendMsg`, and the path of a `load` has no blank in it.**
-/

namespace Node

open Effect Errno Text Path Daemon

/-- The channel of the object, as the daemon names it. -/
def PRU.channel (p : PRU) : Channel := ⟨p.channelName, p.channelPort.val⟩

/-- The words of a request are those of the call. -/
def Decoded (cwd : Str) (p : PRU) (cmd : List Str) : Call → Prop
  | .load fw => (∀ setup, serve setup cmd = loadFirmware p.no cmd) ∧
      cmd.length = 2 ∧ index cmd 1 = .ok (pathResolve cwd fw)
  | .sendMsg msg => (∀ setup, serve setup cmd = Daemon.sendMsg setup cmd) ∧
      5 ≤ cmd.length ∧ (∀ setup, sendMsgArgs setup cmd = .ok ⟨['s'], p.channel, 0⟩) ∧
      unwords (cmd.drop 4) = msg
  | .getMsg => (∀ setup, serve setup cmd = Daemon.getMsg setup cmd) ∧
      cmd.length = 3 ∧ ∀ setup, getMsgArgs setup cmd = .ok p.channel
  | .waitForEvent time => (∀ setup, serve setup cmd = eventWait setup cmd) ∧
      (cmd.length = 3 ∨ cmd.length = 4) ∧
      ∀ setup, eventWaitArgs setup cmd = .ok (p.channel, time.map (·.val))

/-- The daemon reads a line as the call that sent it. -/
def ReadAs (cwd : Str) (p : PRU) (line : Str) (call : Call) : Prop :=
  ∃ cmd, cmdOf (encode line ++ [10]) = some cmd ∧ Decoded cwd p cmd call

/-- The text argument of the call is one word. -/
def SingleToken : Call → Prop
  | .load fw => IsToken fw
  | .sendMsg msg => IsToken msg
  | .getMsg => True
  | .waitForEvent _ => True

/-- The condition under which the command of the call is read as it was meant. -/
def Call.Speaks (cwd : Str) : Call → Prop
  | .load fw => ∀ c ∈ pathResolve cwd fw, isSpace c = false
  | .sendMsg _ => False
  | .getMsg => True
  | .waitForEvent _ => True

/-! ## Lines and their words -/

/-- Every word the daemon reads is a token. -/
theorem isToken_of_cmdOf {b : Bytes} {cmd : List Str} (h : cmdOf b = some cmd) :
    ∀ w ∈ cmd, IsToken w := by
  obtain ⟨s, -, rfl⟩ := Option.map_eq_some_iff.1 h
  exact fun w hw => isToken_of_mem_words hw

/-- The daemon takes the digits of a number that JavaScript holds exactly. -/
theorem SafeInt.int_showInt (limit : DigitLimit) (n : SafeInt) :
    int limit 10 (showInt n.val) = .ok n.val :=
  Daemon.int_showInt limit (n.safe.trans (by norm_num))

section Words

variable {cwd : Str} {p : PRU}

theorem readAs_getMsg (hchan : IsToken p.channelName) :
    ReadAs cwd p ("GETMSG ".toList ++ p.channelName ++ ' ' :: showInt p.channelPort.val)
      .getMsg := by
  have hline : "GETMSG ".toList ++ p.channelName ++ ' ' :: showInt p.channelPort.val =
      unwords ["GETMSG".toList, p.channelName, showInt p.channelPort.val] := by
    simp [unwords_cons_cons]
  refine ⟨["GETMSG".toList, p.channelName, showInt p.channelPort.val], ?_, fun _ => rfl, rfl, ?_⟩
  · rw [hline]
    apply cmdOf_unwords
    simp only [List.forall_mem_cons]
    exact ⟨by decide, hchan, isToken_showInt _, by simp⟩
  · exact fun setup => @getMsgArgs_ok setup p.channel _ (p.channelPort.int_showInt _) _

/-- The words of an `EVENTWAIT`. -/
def waitWords (p : PRU) (time : Option SafeInt) : List Str :=
  ["EVENTWAIT".toList, p.channelName, showInt p.channelPort.val] ++
    (time.map fun t => showInt t.val).toList

theorem readAs_waitForEvent (hchan : IsToken p.channelName) (time : Option SafeInt) {line : Str}
    (hline : (Call.waitForEvent time).line cwd p = some line) :
    ReadAs cwd p line (.waitForEvent time) := by
  have hwords : line = unwords (waitWords p time) := by
    cases time with
    | none =>
      cases hline
      simp [waitWords, unwords_cons_cons]
    | some t =>
      rw [Call.line] at hline
      split_ifs at hline
      cases hline
      simp [waitWords, unwords_cons_cons]
  refine ⟨waitWords p time, ?_, fun _ => rfl, ?_, ?_⟩
  · have hchannel : ∀ w ∈ ["EVENTWAIT".toList, p.channelName, showInt p.channelPort.val],
        IsToken w := by
      simp only [List.forall_mem_cons]
      exact ⟨by decide, hchan, isToken_showInt _, by simp⟩
    rw [hwords]
    apply cmdOf_unwords
    intro w hw
    rcases List.mem_append.1 hw with hw | hw
    · exact hchannel w hw
    · obtain ⟨t, -, rfl⟩ := Option.map_eq_some_iff.1 (Option.mem_toList.1 hw)
      exact isToken_showInt t.val
  · cases time with
    | none => exact .inl rfl
    | some t => exact .inr rfl
  · cases time with
    | none =>
      exact fun setup => @eventWaitArgs_none setup p.channel _ (p.channelPort.int_showInt _) _
    | some t =>
      exact fun setup =>
        @eventWaitArgs_some setup p.channel _ (p.channelPort.int_showInt _) _ _ _ (t.int_showInt _)

/-- The path of a `load` arrives if it is one word, and in no other case: what
the daemon reads has no blanks. -/
theorem readAs_load_iff (fw : Str) :
    ReadAs cwd p ("LOAD_".toList ++ showNat p.no ++ ' ' :: pathResolve cwd fw) (.load fw) ↔
      ∀ c ∈ pathResolve cwd fw, isSpace c = false := by
  constructor
  · rintro ⟨cmd, hcmd, -, hlen, hindex⟩
    have hmem : pathResolve cwd fw ∈ cmd := by
      unfold index at hindex
      split at hindex <;> cases hindex
      exact List.mem_of_getElem? ‹_›
    exact (isToken_of_cmdOf hcmd _ hmem).2
  · intro hspace
    have hname : "LOAD_".toList ++ showNat p.no = loadName p.no := by
      match p.no with
      | 0 => rfl
      | 1 => rfl
    have hload : ∀ n, IsToken (loadName n) := by decide
    have hline : "LOAD_".toList ++ showNat p.no ++ ' ' :: pathResolve cwd fw =
        unwords [loadName p.no, pathResolve cwd fw] := by
      rw [hname, unwords_cons_cons, unwords_singleton]
    refine ⟨[loadName p.no, pathResolve cwd fw], ?_, fun setup => serve_loadName setup p.no _, rfl,
      rfl⟩
    rw [hline]
    apply cmdOf_unwords
    simp only [List.forall_mem_cons]
    exact ⟨hload _, ⟨List.cons_ne_nil _ _, hspace⟩, by simp⟩

/-- The words of the command of `sendMsg`. -/
theorem cmdOf_sendMsg (hchan : IsToken p.channelName) {msg : Str} (hmsg : IsToken msg) :
    cmdOf (encode ("SENDMSG ".toList ++ p.channelName ++ ' ' :: showInt p.channelPort.val ++
        ' ' :: msg) ++ [10]) =
      some ["SENDMSG".toList, p.channelName, showInt p.channelPort.val, msg] := by
  have hline : "SENDMSG ".toList ++ p.channelName ++ ' ' :: showInt p.channelPort.val ++
      ' ' :: msg = unwords ["SENDMSG".toList, p.channelName, showInt p.channelPort.val, msg] := by
    simp [unwords_cons_cons]
  rw [hline]
  apply cmdOf_unwords
  simp only [List.forall_mem_cons]
  exact ⟨by decide, hchan, isToken_showInt _, hmsg, by simp⟩

/-- **No `sendMsg` gets as far as the device**: the daemon counts four words and
answers `-EINVAL`. -/
theorem handle_sendMsg (setup : Setup) (hchan : IsToken p.channelName) {msg line : Str}
    (hmsg : IsToken msg) (hline : (Call.sendMsg msg).line cwd p = some line) :
    handle setup (encode line ++ [10]) = .ret (encode (showInt (-EINVAL))) := by
  cases hline
  rw [handle_of_cmdOf (cmdOf_sendMsg hchan hmsg)]
  rfl

end Words

/-! ## Which calls the daemon understands -/

/-- **The command of a call is read as the call that was meant exactly if the call
is not `sendMsg`, and the path of a `load` has no blank in it.** -/
theorem readAs_iff {cwd : Str} {p : PRU} (hchan : IsToken p.channelName) (call : Call)
    (hcall : SingleToken call) {line : Str} (hline : call.line cwd p = some line) :
    ReadAs cwd p line call ↔ call.Speaks cwd := by
  cases call with
  | load fw =>
    cases hline
    exact readAs_load_iff fw
  | sendMsg msg =>
    cases hline
    refine iff_of_false ?_ id
    rintro ⟨cmd, hcmd, -, hlen, -⟩
    cases (cmdOf_sendMsg hchan hcall).symm.trans hcmd
    exact absurd hlen (by simp)
  | getMsg =>
    cases hline
    exact iff_of_true (readAs_getMsg hchan) trivial
  | waitForEvent time => exact iff_of_true (readAs_waitForEvent hchan time hline) trivial

/-- A `GETMSG` on the channel of a new object. -/
theorem readAs_iff_getMsg :
    ReadAs "/home".toList (.construct 1) "GETMSG rpmsg_pru 31".toList .getMsg :=
  (readAs_iff (by decide) .getMsg trivial rfl).2 trivial

/-- The message `hi` on the channel of a new object: the daemon answers `-EINVAL`
without a call to the system. -/
theorem sendMsg_not_read :
    (Call.sendMsg ['h', 'i']).line "/home".toList (.construct 1) =
        some "SENDMSG rpmsg_pru 31 hi".toList ∧
      handle ⟨.initial, 0, 0, .default⟩ (encode "SENDMSG rpmsg_pru 31 hi".toList ++ [10]) =
        .ret (encode (showInt (-EINVAL))) ∧
      ¬ ReadAs "/home".toList (.construct 1) "SENDMSG rpmsg_pru 31 hi".toList
        (.sendMsg ['h', 'i']) := by
  have hcmd : cmdOf (encode "SENDMSG rpmsg_pru 31 hi".toList ++ [10]) = some
      ["SENDMSG".toList, "rpmsg_pru".toList, showInt 31, ['h', 'i']] :=
    cmdOf_sendMsg (p := .construct 1) (by decide) (by decide)
  have hline : (Call.sendMsg ['h', 'i']).line "/home".toList (.construct 1) =
      some "SENDMSG rpmsg_pru 31 hi".toList := rfl
  refine ⟨hline, handle_sendMsg _ (by decide) (by decide) hline, ?_⟩
  rintro ⟨cmd, h, -, hlen, -⟩
  cases hcmd.symm.trans h
  exact absurd hlen (by decide)

end Node
