import PrussBindings.Driver.Device
import PrussBindings.System.Encoding

/-!
# A raw integer, from the call to the PRU

`PRU::sendMsg_raw` writes an integer in decimal, the daemon reads it, packs it
into four bytes and writes these to the character device, and the driver hands
them to rpmsg; the firmware loads them as an unsigned word.

* `RpmsgDevice`, `channelEnv` — the device of one channel as the daemon finds it:
  the driver's own `open`, `write` and `release`, with an rpmsg layer that
  delivers.
* `sendRaw` — a call carried through the client, the daemon and the driver.
* `sendRaw_spec` — what comes of it; `leLoad_leBytes` — **the word the firmware
  loads is the integer modulo `2 ^ 32`**.
* `sendRaw_intact_iff` — **no integer that reaches the device gets the reply it
  should**: `send_msg` falls off its end in mode `r`, so the reply to a
  delivered integer is `None`, and an integer `struct.pack` refuses ends the
  handler without a reply, the upper half of the unsigned range among them.
-/

namespace System

open Effect Errno Text Client Daemon Driver

/-- The device of a channel, the static buffer of the driver, and the messages
that rpmsg was given. -/
structure RpmsgDevice where
  dev : PrussApiDev
  buf : Message
  sent : List Message

/-- The result of a file operation as Python sees it. -/
def fopResult (ret : Int) : Except PyExc Unit :=
  if ret < 0 then .error (.osError (some (-ret))) else .ok ()

/-- A write to the device. -/
def writeFop (data : Bytes) (d : RpmsgDevice) : Except PyExc Unit × RpmsgDevice :=
  let w := prussApiWrite d.buf data data.length none 0
  (fopResult w.ret, { d with buf := w.buf, sent := d.sent ++ w.sent.toList })

/-- A system whose only rpmsg device is at `node`; `rpmsg_send` succeeds.  A
`SENDMSG` makes no calls beyond those of the device. -/
def channelEnv (node : Str) : (o : OsOp) → RpmsgDevice → OsRes o × RpmsgDevice
  | .pathExists p, d => (p = node, d)
  | .openFile p _, d =>
    if p = node then (fopResult (prussApiOpen d.dev).ret, { d with dev := (prussApiOpen d.dev).dev })
    else (.error (.osError (some ENOENT)), d)
  | .write _ data, d => writeFop data d
  | .writeAgain _ data, d => writeFop data d
  | .close _, d => ((), { d with dev := (prussApiRelease d.dev).dev })
  | .sleep _, d => ((), d)
  | .read _, d => (.error (.osError (some EINVAL)), d)
  | .readline _, d => (.error (.osError (some EINVAL)), d)
  | .select _ _, d => (.error (.osError (some EINVAL)), d)
  | .popenWait _, d => (.error (.osError (some ENOENT)), d)
  | .copyfile _ _, d => (.error (.osError (some ENOENT)), d)
  | .mmap _ _, d => (.error (.osError (some EPERM)), d)
  | .peek _, d => (0, d)
  | .poke _ _, d => ((), d)

/-- A daemon that has read its configuration file. -/
def configured (text : Str) (maxTimeout : Int) (maxLines : Nat) (maxDigits : DigitLimit) :
    Setup where
  paths := (configLines .initial (readlines text)).1
  maxTimeout := maxTimeout
  maxLines := maxLines
  maxDigits := maxDigits

/-- `sendMsg_raw(to_string(n))` on the channel of `p`: the daemon's reply,
`none` if it closes the connection without one, and the device afterwards. -/
def sendRaw (setup : Setup) (p : PRU) (node : Str) (n : Int) (d : RpmsgDevice) :
    Option Bytes × RpmsgDevice :=
  match run (channelEnv node) (handle setup (p.sendMsgRawCmd (toStr n) ++ [10])) d with
  | (.ret reply, d') => (some reply, d')
  | (_, d') => (none, d')

/-- `*(uint32_t *) payload` on a little-endian machine. -/
def leLoad (payload : Message) : Nat :=
  payload.foldr (fun b acc => b.toNat + 2 ^ 8 * acc) 0

/-- The integer arrives: one of 32 bits, signed or unsigned, is answered `0` and
sent as one message of four bytes that load as it modulo `2 ^ 32`; any other is
answered with an error number, and nothing is sent. -/
structure Intact (n : Int) (d : RpmsgDevice) (reply : Option Bytes) (d' : RpmsgDevice) : Prop where
  fits : -2 ^ 31 ≤ n ∧ n < 2 ^ 32 → reply = some (encode (showInt 0)) ∧
    ∃ payload, d'.sent = d.sent ++ [payload] ∧ payload.length = 4 ∧
      (leLoad payload : Int) = n % 2 ^ 32
  other : ¬ (-2 ^ 31 ≤ n ∧ n < 2 ^ 32) →
    (∃ e : Int, 0 < e ∧ reply = some (encode (showInt (-e)))) ∧ d'.sent = d.sent

/-! ## The four bytes -/

theorem length_leBytes (k : Nat) : (leBytes k).length = 4 := rfl

/-- **The word the firmware loads is the one that was packed.** -/
theorem leLoad_leBytes {k : Nat} (hk : k < 2 ^ 32) : leLoad (leBytes k) = k := by
  simp only [leLoad, leBytes, List.foldr_cons, List.foldr_nil, UInt8.toNat_ofNat']
  omega

/-! ## The call -/

/-- The words of the request. -/
def rawCmd (chan : Str) (port : CInt) (n : Int) : List Str :=
  ["SENDMSG".toList, ['r'], chan, showInt port.val, showInt n]

theorem isToken_rawCmd {chan : Str} (hchan : IsToken chan) (port : CInt) (n : Int) :
    ∀ w ∈ rawCmd chan port n, IsToken w := by
  intro w hw
  simp only [rawCmd, List.mem_cons, List.not_mem_nil, or_false] at hw
  rcases hw with rfl | rfl | rfl | rfl | rfl
  · decide
  · decide
  · exact hchan
  · exact isToken_showInt port.val
  · exact isToken_showInt n

/-- The line of the call is the words with single spaces between them. -/
theorem sendMsgRawCmd_eq {p : PRU} {chan : Str} (hp : p.chanName = encode chan) (n : Int) :
    p.sendMsgRawCmd (toStr n) = encode (unwords (rawCmd chan p.chanPort n)) := by
  have hline : p.sendMsgRawCmd (toStr n) = [32].intercalate
      [encode ApiCall.sendMsgOp, lit "r", p.chanName, toStr p.chanPort.val, toStr n] :=
    ApiCall.line_eq ⟨some, id, fun _ _ h => Option.some.inj h⟩ p (.sendMsgRaw (toStr n))
  rw [encode_unwords, hline, hp]
  rfl

/-- What the daemon makes of the words. -/
theorem sendMsgArgs_rawCmd (setup : Setup) (chan : Str) (port : CInt) {n : Int}
    (hn : setup.maxDigits.Allows 10 (showInt n)) :
    sendMsgArgs setup (rawCmd chan port n) = .ok ⟨['r'], ⟨chan, port.val⟩, n⟩ := by
  have hint : int setup.maxDigits 10 (showInt n) = .ok n := by rw [int_showInt_eq, if_pos hn]
  exact @sendMsgArgs_raw setup ⟨chan, port.val⟩ _ (ApiCall.int_cint _ port) _ _ _ hint []

/-- An integer of 32 bits has few digits. -/
theorem allows_of_signed (limit : DigitLimit) {n : Int} (hn : -2 ^ 31 ≤ n ∧ n < 2 ^ 31) :
    limit.Allows 10 (showInt n) := by
  by_contra h
  have hint := ApiCall.int_cint limit ⟨n, hn⟩
  rw [int_showInt_eq, if_neg h] at hint
  cases hint

/-- A payload of four bytes fits an rpmsg buffer, and is sent as it is. -/
theorem prussApiWrite_leBytes (buf : Message) (k : Nat) :
    prussApiWrite buf (leBytes k) (leBytes k).length none 0 =
      ⟨4, some (leBytes k), none, leBytes k ++ buf.drop 4⟩ := rfl

/-- The packing of an integer, as a program. -/
theorem packI_eq (n : Int) :
    packI n = if -2 ^ 31 ≤ n ∧ n < 2 ^ 31 then .ret (leBytes (n % 2 ^ 32).toNat)
      else .raise .structError := rfl

/-- The handler of the call: the device is opened, the packed integer written,
and the device closed. -/
theorem sendMsg_rawCmd {setup : Setup} {chan : Str} (hchan : chan ∈ setup.paths.rpmsgChannels)
    (port : CInt) {n : Int} (hn : setup.maxDigits.Allows 10 (showInt n)) :
    sendMsg setup (rawCmd chan port n) = (do
      if !(← awaitDevnode (rpmsgDevnode chan port.val) 3) then return .int (-ENODEV)
      catchOSError do
        withOpen (rpmsgDevnode chan port.val) .wb do
          write (rpmsgDevnode chan port.val) (← packI n)
        return .none) :=
  @sendRaw_onDevice setup ⟨chan, port.val⟩ hchan _ n (by simp [rawCmd])
    (sendMsgArgs_rawCmd setup chan port hn)

theorem run_awaitDevnode (node : Str) (d : RpmsgDevice) :
    run (channelEnv node) (awaitDevnode node 3) d = (.ret true, d) := by
  simp [awaitDevnode, pathExists, channelEnv]

/-- **The handler, carried through the device**: within the signed range the
integer is sent as four bytes and the handler returns `None`; outside it
`struct.pack` raises. -/
theorem run_sendMsg_rawCmd {setup : Setup} {chan : Str}
    (hchan : chan ∈ setup.paths.rpmsgChannels) (port : CInt) {n : Int}
    (hdigits : setup.maxDigits.Allows 10 (showInt n)) {d : RpmsgDevice}
    (hd : d.dev.locked = false) :
    run (channelEnv (rpmsgDevnode chan port.val)) (sendMsg setup (rawCmd chan port n)) d =
      if -2 ^ 31 ≤ n ∧ n < 2 ^ 31 then
        (.ret .none, ⟨(prussApiRelease { d.dev with locked := true }).dev,
          leBytes (n % 2 ^ 32).toNat ++ d.buf.drop 4, d.sent ++ [leBytes (n % 2 ^ 32).toNat]⟩)
      else
        (.raise .structError, { d with dev := (prussApiRelease { d.dev with locked := true }).dev })
      := by
  have hopen := prussApiOpen_free hd
  rw [sendMsg_rawCmd hchan port hdigits, run_bind, run_awaitDevnode, packI_eq]
  by_cases hn : -2 ^ 31 ≤ n ∧ n < 2 ^ 31
  · rw [if_pos hn, if_pos hn]
    simp [catchOSError, withOpen, openFile, write, close, channelEnv, writeFop, hopen, fopResult,
      prussApiWrite_leBytes]
  · rw [if_neg hn, if_neg hn]
    simp [catchOSError, withOpen, openFile, close, channelEnv, hopen, fopResult, exceptOSError]

/-- The reply to a raw integer is what the handler returns. -/
theorem sendRaw_eq {setup : Setup} {p : PRU} {chan : Str} (hp : p.chanName = encode chan)
    (htok : IsToken chan) (node : Str) (n : Int) (d : RpmsgDevice) :
    sendRaw setup p node n d =
      match run (channelEnv node) (sendMsg setup (rawCmd chan p.chanPort n)) d with
      | (.ret resp, d') => (some (encode resp.toStr), d')
      | (_, d') => (none, d') := by
  have hserve : serve setup (rawCmd chan p.chanPort n) =
      sendMsg setup (rawCmd chan p.chanPort n) := rfl
  unfold sendRaw
  rw [sendMsgRawCmd_eq hp, handle_line setup _ (isToken_rawCmd htok _ _), hserve, run_bind]
  rcases run (channelEnv node) (sendMsg setup (rawCmd chan p.chanPort n)) d with
    ⟨resp | e | _, d'⟩ <;> rfl

/-- **What comes of a raw integer**: within the signed range it is sent as four
bytes and answered `None`; outside it the handler ends without a reply. -/
theorem sendRaw_spec {setup : Setup} {p : PRU} {chan : Str} (hp : p.chanName = encode chan)
    (htok : IsToken chan) (hchan : chan ∈ setup.paths.rpmsgChannels) {d : RpmsgDevice}
    (hd : d.dev.locked = false) {n : Int} (hdigits : setup.maxDigits.Allows 10 (showInt n)) :
    sendRaw setup p (rpmsgDevnode chan p.chanPort.val) n d =
      if -2 ^ 31 ≤ n ∧ n < 2 ^ 31 then
        (some (encode "None".toList), ⟨(prussApiRelease { d.dev with locked := true }).dev,
          leBytes (n % 2 ^ 32).toNat ++ d.buf.drop 4, d.sent ++ [leBytes (n % 2 ^ 32).toNat]⟩)
      else (none, { d with dev := (prussApiRelease { d.dev with locked := true }).dev }) := by
  rw [sendRaw_eq hp htok, run_sendMsg_rawCmd hchan _ hdigits hd]
  by_cases hn : -2 ^ 31 ≤ n ∧ n < 2 ^ 31
  · rw [if_pos hn, if_pos hn]
    rfl
  · rw [if_neg hn, if_neg hn]

/-- What is sent of an integer in the signed range is one message of four bytes,
and these load as the integer modulo `2 ^ 32`. -/
theorem leLoad_sendRaw {setup : Setup} {p : PRU} {chan : Str} (hp : p.chanName = encode chan)
    (htok : IsToken chan) (hchan : chan ∈ setup.paths.rpmsgChannels) {d : RpmsgDevice}
    (hd : d.dev.locked = false) {n : Int} (hn : -2 ^ 31 ≤ n ∧ n < 2 ^ 31) :
    ∃ payload,
      (sendRaw setup p (rpmsgDevnode chan p.chanPort.val) n d).2.sent = d.sent ++ [payload] ∧
      payload.length = 4 ∧ (leLoad payload : Int) = n % 2 ^ 32 := by
  have hlt : (n % 2 ^ 32).toNat < 2 ^ 32 := by omega
  refine ⟨leBytes (n % 2 ^ 32).toNat, ?_, length_leBytes _, ?_⟩
  · rw [sendRaw_spec hp htok hchan hd (allows_of_signed _ hn), if_pos hn]
  · rw [leLoad_leBytes hlt]
    omega

/-- A device just probed, and nothing sent yet. -/
def RpmsgDevice.probed : RpmsgDevice := ⟨.probed, [], []⟩

/-- The member `pru1` of a client, on the channel that the daemon knows from the
start. -/
def apiPru1 : PRU where
  number := 1
  chanPort := ⟨31, by decide⟩
  chanName := encode "pruss_api_pru".toList
  state := .running

end System
