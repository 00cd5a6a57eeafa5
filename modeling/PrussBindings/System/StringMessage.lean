import PrussBindings.Client.Sendcmd
import PrussBindings.System.RawMessage

/-!
# A string, from the call to the PRU

`PRU::sendMsg_string` puts the message into a command, `sendcmd` the command into
a buffer of 2048 bytes, the daemon appends a newline and writes to the character
device, and the driver refuses what does not fit an rpmsg buffer with its header.
The documented limit is 496 bytes, and each of these layers counts other bytes.

* `sendString` — a call carried through the client, the socket, the daemon and
  the driver.
* `sendString_spec` — what comes of a message of printable characters.
* `LimitsAgree`, `sendString_limits_iff` — **the layers agree on the limit exactly
  for messages that are not 496 bytes long**, on channels whose names `snprintf`
  leaves usable and as long as the buffer ends in a zero.
-/

namespace System

open Effect Errno Text Client Daemon Driver

/-- `sendMsg_string(message)` on the channel of `p`: what `stoi` makes of the
reply, and the device afterwards.  `none` is a call for which C does not say what
is sent. -/
def sendString (setup : Setup) (stack : Stack) (p : PRU) (node : Str) (message : Bytes)
    (d : RpmsgDevice) : Option (Except StoiError Int × RpmsgDevice) :=
  (sentBytes stack (p.sendMsgStringCmd message)).map fun sent =>
    match run (channelEnv node) (handle setup sent) d with
    | (.ret reply, d') => (stoi reply, d')
    | (_, d') => (stoi [], d')

/-- Printable ASCII characters other than the space and `%`. -/
def Printable (m : Str) : Prop := m ≠ [] ∧ ∀ c ∈ m, 33 ≤ c.toNat ∧ c.toNat ≤ 126 ∧ c ≠ '%'

/-- A message of up to 496 characters is answered `0` and handed to rpmsg once,
with nothing before it; a longer one is answered with another number, and nothing
is sent. -/
structure LimitsAgree (m : Str) (d : RpmsgDevice)
    (out : Option (Except StoiError Int × RpmsgDevice)) : Prop where
  short : m.length ≤ 496 → ∃ d' payload, out = some (.ok 0, d') ∧ d'.sent = d.sent ++ [payload] ∧
    encode m <+: payload
  long : 496 < m.length → ∃ ret d', out = some (.ok ret, d') ∧ ret ≠ 0 ∧ d'.sent = d.sent

/-! ## The characters of the command -/

namespace Printable

variable {m : Str} (hm : Printable m)

include hm

theorem isToken : IsToken m := by
  refine ⟨hm.1, fun c hc => ?_⟩
  obtain ⟨hlow, hhigh, -⟩ := hm.2 c hc
  simp only [isSpace]
  grind

theorem not_mem {c : Char} (hc : c.toNat < 33 ∨ c = '%') : c ∉ m := by
  intro hmem
  obtain ⟨hlow, -, hpct⟩ := hm.2 c hmem
  rcases hc with hc | hc
  · omega
  · exact hpct hc

/-- The length in bytes is the length in characters. -/
theorem length_encode : (encode m).length = m.length :=
  length_encode_ascii fun c hc => by
    have hhigh := (hm.2 c hc).2.1
    omega

end Printable

/-- The words of the request. -/
def stringCmd (chan : Str) (port : CInt) (m : Str) : List Str :=
  ["SENDMSG".toList, ['s'], chan, showInt port.val, m]

theorem isToken_stringCmd {chan : Str} (hchan : IsToken chan) (port : CInt) {m : Str}
    (hm : IsToken m) : ∀ w ∈ stringCmd chan port m, IsToken w := by
  intro w hw
  simp only [stringCmd, List.mem_cons, List.not_mem_nil, or_false] at hw
  rcases hw with rfl | rfl | rfl | rfl | rfl
  · decide
  · decide
  · exact hchan
  · exact isToken_showInt port.val
  · exact hm

/-- The line of the call is the words with single spaces between them. -/
theorem sendMsgStringCmd_eq {p : PRU} {chan : Str} (hp : p.chanName = encode chan) (m : Str) :
    p.sendMsgStringCmd (encode m) = encode (unwords (stringCmd chan p.chanPort m)) := by
  have hline : p.sendMsgStringCmd (encode m) = [32].intercalate
      [encode ApiCall.sendMsgOp, lit "s", p.chanName, toStr p.chanPort.val, encode m] :=
    ApiCall.line_eq ⟨some, id, fun _ _ h => Option.some.inj h⟩ p (.sendMsgString (encode m))
  rw [encode_unwords, hline, hp]
  rfl

/-- The channel stands between text that `snprintf` leaves alone. -/
theorem unwords_stringCmd (chan : Str) (port : CInt) (m : Str) :
    unwords (stringCmd chan port m) =
      "SENDMSG s ".toList ++ (chan ++ (' ' :: showInt port.val ++ ' ' :: m)) := by
  simp [stringCmd, unwords_cons_cons]

/-- **`snprintf` changes the channel name only.** -/
theorem expand_stringCmd (chan : Str) (port : CInt) {m : Str} (hm : Printable m) :
    expand '%' (unwords (stringCmd chan port m)) =
      (expand '%' chan).map fun chan' => unwords (stringCmd chan' port m) := by
  have hprefix : '%' ∉ "SENDMSG s ".toList := by decide
  have hsuffix : '%' ∉ ' ' :: showInt port.val ++ ' ' :: m := by
    simp only [List.cons_append, List.mem_cons, List.mem_append, not_or]
    exact ⟨by decide, not_mem_showInt (by decide), by decide, hm.not_mem (.inr rfl)⟩
  rw [unwords_stringCmd, expand_append_left hprefix, expand_append_right chan hsuffix,
    Option.map_map]
  congr 1
  funext chan'
  exact (unwords_stringCmd chan' port m).symm

theorem zero_not_mem_stringCmd {chan : Str} (hzero : '\x00' ∉ chan) (port : CInt) {m : Str}
    (hm : Printable m) : 0 ∉ encode (unwords (stringCmd chan port m)) := by
  refine not_mem_encode (by decide) ?_
  show '\x00' ∉ unwords (stringCmd chan port m)
  rw [unwords_stringCmd]
  simp only [List.cons_append, List.mem_append, List.mem_cons, not_or]
  exact ⟨by decide, hzero, by decide, not_mem_showInt (by decide), by decide,
    hm.not_mem (.inl (by decide))⟩

/-! ## The handler -/

/-- The data `send_msg` writes for a message of one word. -/
def stringData (m : Str) : Message := encode (m ++ ['\n'])

theorem length_stringData {m : Str} (hm : Printable m) : (stringData m).length = m.length + 1 := by
  have hnewline : encode ['\n'] = [10] := by decide
  unfold stringData
  rw [encode_append, List.length_append, hm.length_encode, hnewline]
  rfl

theorem sendMsgArgs_stringCmd (setup : Setup) (chan : Str) (port : CInt) (m : Str) :
    sendMsgArgs setup (stringCmd chan port m) = .ok ⟨['s'], ⟨chan, port.val⟩, 0⟩ :=
  @sendMsgArgs_string setup ⟨chan, port.val⟩ _ (ApiCall.int_cint _ port) _ _ []

/-- The handler of the call. -/
theorem sendMsg_stringCmd (setup : Setup) (chan : Str) (port : CInt) (m : Str) :
    sendMsg setup (stringCmd chan port m) = (do
      if chan ∉ setup.paths.rpmsgChannels then return .int (-EPERM)
      if !(← awaitDevnode (rpmsgDevnode chan port.val) 3) then return .int (-ENODEV)
      catchOSError do
        withOpen (rpmsgDevnode chan port.val) .w
          (writeText (rpmsgDevnode chan port.val) (stringData m))
        return .int 0) := by
  have hlen : ¬ (stringCmd chan port m).length < 5 := by simp [stringCmd]
  have hdata : unwords ((stringCmd chan port m).drop 4) = m := unwords_singleton m
  unfold sendMsg
  rw [if_neg hlen, sendMsgArgs_stringCmd, parsed_ok]
  simp only [if_true, hdata]
  rfl

theorem run_awaitDevnode_ne {node dev : Str} (hdev : dev ≠ node) (d : RpmsgDevice) :
    run (channelEnv node) (awaitDevnode dev 3) d = (.ret false, d) := by
  simp [awaitDevnode, pathExists, sleep, channelEnv, hdev]

theorem fopResult_zero : fopResult 0 = .ok () := rfl

/-- A write to the device is handed on if it fits an rpmsg buffer with its header, and
refused otherwise. -/
theorem writeFop_eq (data : Message) (d : RpmsgDevice) :
    writeFop data d =
      if data.length ≤ 496 then
        (.ok (), { d with buf := data ++ d.buf.drop data.length, sent := d.sent ++ [data] })
      else (.error (.osError (some EINVAL)), d) := by
  unfold writeFop prussApiWrite
  by_cases hlen : data.length ≤ 496
  · have hfits : ¬ data.length > rpmsgBufSize - rpmsgHdrSize := by
      simp only [rpmsgBufSize, rpmsgHdrSize]
      omega
    have hret : fopResult data.length = .ok () := if_neg (by omega)
    rw [if_neg hfits, if_pos hlen]
    simp [hret]
  · have hlarge : data.length > rpmsgBufSize - rpmsgHdrSize := by
      simp only [rpmsgBufSize, rpmsgHdrSize]
      omega
    rw [if_pos hlarge, if_neg hlen]
    simp [fopResult, EINVAL]

/-- What is refused is refused as often as it is written. -/
theorem run_writeText (node : Str) {data : Message} (hdata : data ≠ []) (d : RpmsgDevice) :
    run (channelEnv node) (writeText node data) d =
      if data.length ≤ 496 then
        (.ret (), { d with buf := data ++ d.buf.drop data.length, sent := d.sent ++ [data] })
      else (.raise (.osError (some EINVAL)), d) := by
  have hwrite := writeFop_eq data d
  unfold writeText
  rw [if_neg hdata]
  by_cases hlen : data.length ≤ 496
  · rw [if_pos hlen] at hwrite ⊢
    simp [write, channelEnv, hwrite]
  · rw [if_neg hlen] at hwrite ⊢
    by_cases hfits : data.length ≤ blockSize
    · simp [write, writeAgain, channelEnv, hwrite, hfits]
    · simp [write, channelEnv, hwrite, hfits]

/-- What comes of a message to a device that is not open. -/
theorem run_withOpen_write (node : Str) {data : Message} (hdata : data ≠ []) {d : RpmsgDevice}
    (hd : d.dev.locked = false) :
    ∃ d', run (channelEnv node) (catchOSError do
        withOpen node .w (writeText node data)
        return .int 0) d =
          (.ret (.int (if data.length ≤ 496 then 0 else -EINVAL)), d') ∧
        d'.sent = d.sent ++ (if data.length ≤ 496 then [data] else []) := by
  have hopen := prussApiOpen_free hd
  have htext := run_writeText node hdata { d with dev := { d.dev with locked := true } }
  by_cases hlen : data.length ≤ 496
  · rw [if_pos hlen] at htext
    refine ⟨⟨(prussApiRelease { d.dev with locked := true }).dev, data ++ d.buf.drop data.length,
      d.sent ++ [data]⟩, ?_, ?_⟩
    · simp [catchOSError, withOpen, openFile, close, channelEnv, hopen, htext, hlen,
        fopResult_zero, run_bind, run_tryCatch]
    · simp [hlen]
  · rw [if_neg hlen] at htext
    refine ⟨⟨(prussApiRelease { d.dev with locked := true }).dev, d.buf, d.sent⟩, ?_, ?_⟩
    · simp [catchOSError, withOpen, openFile, close, channelEnv, hopen, htext, hlen,
        fopResult_zero, run_bind, run_tryCatch, exceptOSError]
    · simp [hlen]

/-- **The request, carried through the device**: with a channel the daemon knows
at this node, the device gets the message and a newline, or refuses it; with any
other channel nothing is sent. -/
theorem run_sendMsg_stringCmd (setup : Setup) (node chan : Str) (port : CInt) {m : Str}
    (hm : Printable m) {d : RpmsgDevice} (hd : d.dev.locked = false) :
    ∃ ret d', run (channelEnv node) (sendMsg setup (stringCmd chan port m)) d =
        (.ret (.int ret), d') ∧
      (chan ∈ setup.paths.rpmsgChannels ∧ rpmsgDevnode chan port.val = node ∧ m.length < 496 ∧
          ret = 0 ∧ d'.sent = d.sent ++ [stringData m] ∨
        ¬ (chan ∈ setup.paths.rpmsgChannels ∧ rpmsgDevnode chan port.val = node ∧ m.length < 496) ∧
          ret ∈ [-EPERM, -ENODEV, -EINVAL] ∧ d'.sent = d.sent) := by
  rw [sendMsg_stringCmd]
  by_cases hchan : chan ∈ setup.paths.rpmsgChannels
  · simp only [if_neg (not_not.2 hchan)]
    by_cases hnode : rpmsgDevnode chan port.val = node
    · have hdata : stringData m ≠ [] := by
        intro hnil
        have hlen := length_stringData hm
        rw [hnil] at hlen
        exact absurd hlen (by simp)
      obtain ⟨d', hwrite, hsent⟩ := run_withOpen_write node hdata hd
      rw [length_stringData hm] at hwrite hsent
      refine ⟨if m.length + 1 ≤ 496 then 0 else -EINVAL, d', ?_, ?_⟩
      · rw [hnode]
        show run (channelEnv node) (awaitDevnode node 3 >>= _) d = _
        rw [run_bind, run_awaitDevnode]
        exact hwrite
      · by_cases hlen : m.length < 496
        · rw [if_pos (by omega)] at hsent ⊢
          exact .inl ⟨hchan, hnode, hlen, rfl, hsent⟩
        · rw [if_neg (by omega)] at hsent ⊢
          exact .inr ⟨fun h => hlen h.2.2, by simp, by simpa using hsent⟩
    · refine ⟨-ENODEV, d, ?_, .inr ⟨fun h => hnode h.2.1, by simp, rfl⟩⟩
      show run (channelEnv node) (awaitDevnode (rpmsgDevnode chan port.val) 3 >>= _) d = _
      rw [run_bind, run_awaitDevnode_ne hnode]
      rfl
  · refine ⟨-EPERM, d, ?_, .inr ⟨fun h => hchan h.1, by simp, rfl⟩⟩
    simp only [if_pos hchan]
    rfl

/-! ## The call -/

/-- What follows the newline is not read. -/
theorem handle_rest (setup : Setup) {line : Bytes} (hline : 10 ∉ line) (rest : Bytes) :
    handle setup (line ++ 10 :: rest) = handle setup (line ++ [10]) := by
  have hread : rfileReadline (line ++ 10 :: rest) = rfileReadline (line ++ [10]) := by
    rw [rfileReadline_append hline, rfileReadline_append hline]
    simp [rfileReadline]
  unfold handle cmdOf
  rw [hread]

theorem stoi_reply {ret : Int} (hret : ret ∈ [0, -EPERM, -ENODEV, -EINVAL]) :
    stoi (encode (Resp.int ret).toStr) = .ok ret := by
  have hrange : -2 ^ 31 ≤ ret ∧ ret < 2 ^ 31 := by
    simp only [List.mem_cons, List.not_mem_nil, or_false, EPERM, ENODEV, EINVAL] at hret
    omega
  show stoi (encode (showInt ret)) = _
  rw [stoi_encode_showInt, if_pos hrange]

/-- **What comes of a message**: the command is sent as `snprintf` expands it, and
the daemon serves the channel that is named there. -/
theorem sendString_spec (setup : Setup) (stack : Stack) (node : Str) {p : PRU}
    {chan chan' : Str} (hp : p.chanName = encode chan) (htok : IsToken chan)
    (hzero : '\x00' ∉ chan) {m : Str} (hm : Printable m) {d : RpmsgDevice} (hd : d.dev.locked = false)
    (hexpand : expand '%' chan = some chan')
    (hfits : Fits stack (encode (unwords (stringCmd chan' p.chanPort m)))) :
    ∃ ret d', sendString setup stack p node (encode m) d = some (.ok ret, d') ∧
      (chan' ∈ setup.paths.rpmsgChannels ∧ rpmsgDevnode chan' p.chanPort.val = node ∧
        m.length < 496 ∧
          ret = 0 ∧ d'.sent = d.sent ++ [stringData m] ∨
        ¬ (chan' ∈ setup.paths.rpmsgChannels ∧ rpmsgDevnode chan' p.chanPort.val = node ∧
            m.length < 496) ∧ ret ≠ 0 ∧ d'.sent = d.sent) := by
  have htok' : IsToken chan' :=
    ⟨expand_ne_nil hexpand htok.1, fun c hc => htok.2 c (mem_of_expand hexpand hc)⟩
  have htoks := isToken_stringCmd htok' p.chanPort hm.isToken
  have htext : expand 37 (encode (unwords (stringCmd chan p.chanPort m))) =
      some (encode (unwords (stringCmd chan' p.chanPort m))) := by
    rw [expand_encode, expand_stringCmd chan p.chanPort hm, hexpand]
    rfl
  have hsent := sentBytes_eq stack (zero_not_mem_stringCmd hzero p.chanPort hm) htext
  rw [if_pos hfits] at hsent
  have hserve : serve setup (stringCmd chan' p.chanPort m) =
      sendMsg setup (stringCmd chan' p.chanPort m) := rfl
  obtain ⟨ret, d', hrun, hcases⟩ := run_sendMsg_stringCmd setup node chan' p.chanPort hm hd
  have hret : ret ∈ [0, -EPERM, -ENODEV, -EINVAL] := by
    rcases hcases with ⟨-, -, -, hret, -⟩ | ⟨-, hret, -⟩
    · rw [hret]
      exact List.mem_cons_self ..
    · exact List.mem_cons_of_mem _ hret
  refine ⟨ret, d', ?_, ?_⟩
  · unfold sendString
    rw [sendMsgStringCmd_eq hp, hsent, Option.map_some,
      handle_rest setup (newline_not_mem_encode (newline_not_mem_unwords htoks)),
      handle_line setup _ htoks, hserve, run_bind, hrun]
    simp only [Prog.pure_eq, run_ret, stoi_reply hret]
  · rcases hcases with h | ⟨hnot, hmem, hsame⟩
    · exact .inl h
    · refine .inr ⟨hnot, ?_, hsame⟩
      simp only [List.mem_cons, List.not_mem_nil, or_false, EPERM, ENODEV, EINVAL] at hmem
      omega

/-- A call for which C does not say what is sent. -/
theorem sendString_eq_none (setup : Setup) (stack : Stack) {p : PRU} {node chan : Str}
    (hp : p.chanName = encode chan) (hzero : '\x00' ∉ chan) {m : Str} (hm : Printable m)
    (d : RpmsgDevice)
    (h : ∀ chan', expand '%' chan = some chan' →
      ¬ Fits stack (encode (unwords (stringCmd chan' p.chanPort m)))) :
    sendString setup stack p node (encode m) d = none := by
  have hnozero := zero_not_mem_stringCmd hzero p.chanPort hm
  have hmap := expand_stringCmd chan p.chanPort hm
  unfold sendString
  rw [sendMsgStringCmd_eq hp, Option.map_eq_none_iff]
  cases hexpand : expand '%' chan with
  | none =>
    apply sentBytes_eq_none stack hnozero
    rw [expand_encode, hmap, hexpand]
    rfl
  | some chan' =>
    have htext : expand 37 (encode (unwords (stringCmd chan p.chanPort m))) =
        some (encode (unwords (stringCmd chan' p.chanPort m))) := by
      rw [expand_encode, hmap, hexpand]
      rfl
    rw [sentBytes_eq stack hnozero htext, if_neg (h chan' hexpand)]

/-- A call that C leaves open agrees with no limit. -/
theorem not_limitsAgree_none (m : Str) (d : RpmsgDevice) : ¬ LimitsAgree m d none := by
  intro hagree
  rcases Nat.lt_or_ge 496 m.length with hlong | hshort
  · obtain ⟨ret, d', hout, -⟩ := hagree.long hlong
    cases hout
  · obtain ⟨d', payload, hout, -⟩ := hagree.short hshort
    cases hout

/-- What agrees with the limit, of a message that arrives if it is to a channel
known at this node and shorter than 496 characters. -/
theorem limitsAgree_some_iff {m : Str} {known here : Prop} {ret : Int} {d d' : RpmsgDevice}
    (h : known ∧ here ∧ m.length < 496 ∧ ret = 0 ∧ d'.sent = d.sent ++ [stringData m] ∨
      ¬ (known ∧ here ∧ m.length < 496) ∧ ret ≠ 0 ∧ d'.sent = d.sent) :
    LimitsAgree m d (some (.ok ret, d')) ↔
      m.length ≠ 496 ∧ (m.length < 496 → known ∧ here) := by
  constructor
  · intro hagree
    have hshort (hle : m.length ≤ 496) : known ∧ here ∧ m.length < 496 := by
      obtain ⟨d'', payload, hout, -, -⟩ := hagree.short hle
      cases hout
      rcases h with ⟨hknown, hhere, hlt, -, -⟩ | ⟨-, hret, -⟩
      · exact ⟨hknown, hhere, hlt⟩
      · exact absurd rfl hret
    refine ⟨fun heq => ?_, fun hlt => ?_⟩
    · have hlt := (hshort heq.le).2.2
      omega
    · obtain ⟨hknown, hhere, -⟩ := hshort hlt.le
      exact ⟨hknown, hhere⟩
  · rintro ⟨hne, hsame⟩
    rcases h with ⟨-, -, hlt, hret, hsent⟩ | ⟨hnot, hret, hsent⟩
    · refine ⟨fun _ => ⟨d', stringData m, by rw [hret], hsent, ?_⟩, fun hlong => by omega⟩
      unfold stringData
      rw [encode_append]
      exact List.prefix_append _ _
    · refine ⟨fun hle => ?_, fun _ => ⟨ret, d', rfl, hret, hsent⟩⟩
      have hlt : m.length < 496 := by omega
      obtain ⟨hknown, hhere⟩ := hsame hlt
      exact absurd ⟨hknown, hhere, hlt⟩ hnot

/-- **Where the limits agree.**  On the unlocked device of a channel that the
daemon knows, with an rpmsg layer that delivers: the layers agree on a message of
printable characters exactly if it is not 496 characters long, the command
leaves a zero in the buffer, and, for one that should arrive, `snprintf` leaves
the channel name one for the same device. -/
theorem sendString_limits_iff (text : Str) (maxTimeout : Int) (maxLines : Nat)
    (maxDigits : DigitLimit) (stack : Stack) {p : PRU} {chan : Str} (hp : p.chanName = encode chan)
    (hchan : chan ∈ (configured text maxTimeout maxLines maxDigits).paths.rpmsgChannels)
    (hzero : '\x00' ∉ chan) {m : Str} (hm : Printable m) {d : RpmsgDevice}
    (hd : d.dev.locked = false) :
    LimitsAgree m d (sendString (configured text maxTimeout maxLines maxDigits) stack p
        (rpmsgDevnode chan p.chanPort.val) (encode m) d) ↔
      m.length ≠ 496 ∧ ∃ chan', expand '%' chan = some chan' ∧
        Fits stack (encode (unwords (stringCmd chan' p.chanPort m))) ∧
        (m.length < 496 →
          chan' ∈ (configured text maxTimeout maxLines maxDigits).paths.rpmsgChannels ∧
          rpmsgDevnode chan' p.chanPort.val = rpmsgDevnode chan p.chanPort.val) := by
  have htok : IsToken chan := isToken_rpmsgChannels isToken_initial _ chan hchan
  by_cases hdefined : ∃ chan', expand '%' chan = some chan' ∧
      Fits stack (encode (unwords (stringCmd chan' p.chanPort m)))
  · obtain ⟨chan', hexpand, hfits⟩ := hdefined
    obtain ⟨ret, d', hcall, hcases⟩ := sendString_spec
      (configured text maxTimeout maxLines maxDigits) stack (rpmsgDevnode chan p.chanPort.val) hp htok
      hzero hm hd hexpand hfits
    rw [hcall, limitsAgree_some_iff hcases]
    refine and_congr_right fun _ => ⟨fun hsame => ⟨chan', hexpand, hfits, hsame⟩, ?_⟩
    rintro ⟨chan'', hexpand', -, hsame⟩
    rw [hexpand] at hexpand'
    cases hexpand'
    exact hsame
  · push Not at hdefined
    rw [sendString_eq_none (configured text maxTimeout maxLines maxDigits) stack hp hzero hm d
      hdefined]
    refine iff_of_false (not_limitsAgree_none m d) ?_
    rintro ⟨-, chan', hexpand, hfits, -⟩
    exact absurd hfits (hdefined chan' hexpand)

/-- The command for a message of up to 496 characters on the channel of the
`pruss_api` driver leaves a zero in such a buffer. -/
theorem fits_zeros_stringCmd {m : Str} (hm : Printable m) (hlen : m.length ≤ 496) :
    Fits Stack.zeros
      (encode (unwords (stringCmd "pruss_api_pru".toList apiPru1.chanPort m))) := by
  have hconst : (encode ("SENDMSG s ".toList ++ ("pruss_api_pru".toList ++
      (' ' :: showInt apiPru1.chanPort.val ++ [' '])))).length = 27 := by decide
  have hline : (encode (unwords
      (stringCmd "pruss_api_pru".toList apiPru1.chanPort m))).length = 27 + m.length := by
    have hsplit : unwords (stringCmd "pruss_api_pru".toList apiPru1.chanPort m) =
        "SENDMSG s ".toList ++ ("pruss_api_pru".toList ++
          (' ' :: showInt apiPru1.chanPort.val ++ [' '])) ++ m := by
      simp [unwords_stringCmd]
    rw [hsplit, encode_append, List.length_append, hconst, hm.length_encode]
  have hshort : (encode (unwords
      (stringCmd "pruss_api_pru".toList apiPru1.chanPort m))).length + 1 < 2048 := by omega
  exact fits_zeros hshort

theorem printable_replicate {n : Nat} (hn : n ≠ 0) : Printable (List.replicate n 'a') := by
  refine ⟨by simpa using hn, fun c hc => ?_⟩
  rw [(List.mem_replicate.1 hc).2]
  decide

theorem sendString_limits_iff_hi :
    LimitsAgree ['h', 'i'] .probed (sendString (configured [] 1000 10 .default) .zeros apiPru1
        (rpmsgDevnode "pruss_api_pru".toList 31) (encode ['h', 'i']) .probed) := by
  have hm : Printable ['h', 'i'] := by
    refine ⟨by simp, ?_⟩
    simp
  have hname : apiPru1.chanName = encode "pruss_api_pru".toList := rfl
  refine (sendString_limits_iff [] 1000 10 .default .zeros hname
    (by decide) (by decide) hm rfl).2 ⟨by decide, "pruss_api_pru".toList, by decide,
      fits_zeros_stringCmd hm (by decide), fun _ => ⟨by decide, rfl⟩⟩

/-- A message of the documented maximum is refused: with its newline it has 497
bytes. -/
theorem sendString_496_refused :
    (∃ ret d', sendString (configured [] 1000 10 .default) .zeros apiPru1
        (rpmsgDevnode "pruss_api_pru".toList 31) (encode (List.replicate 496 'a')) .probed =
          some (.ok ret, d') ∧ ret ≠ 0 ∧ d'.sent = []) ∧
      ¬ LimitsAgree (List.replicate 496 'a') .probed
        (sendString (configured [] 1000 10 .default) .zeros apiPru1
          (rpmsgDevnode "pruss_api_pru".toList 31) (encode (List.replicate 496 'a')) .probed) := by
  have hm : Printable (List.replicate 496 'a') := printable_replicate (by decide)
  have hlen : (List.replicate 496 'a').length = 496 := List.length_replicate ..
  have hname : apiPru1.chanName = encode "pruss_api_pru".toList := rfl
  have hexpand : expand '%' "pruss_api_pru".toList = some "pruss_api_pru".toList := by decide
  obtain ⟨ret, d', hcall, hcases⟩ := sendString_spec (configured [] 1000 10 .default) .zeros
    (rpmsgDevnode "pruss_api_pru".toList 31) hname (by decide) (by decide) hm
    (show RpmsgDevice.probed.dev.locked = false from rfl) hexpand (fits_zeros_stringCmd hm (by omega))
  obtain ⟨hret, hsent⟩ : ret ≠ 0 ∧ d'.sent = [] := by
    rcases hcases with ⟨-, -, hlt, -⟩ | ⟨-, hret, hsent⟩
    · omega
    · exact ⟨hret, hsent⟩
  refine ⟨⟨ret, d', hcall, hret, hsent⟩, fun hagree => ?_⟩
  obtain ⟨d'', payload, hout, -⟩ := hagree.short (by omega)
  rw [hcall] at hout
  cases hout
  exact hret rfl

end System
