import PrussBindings.Client.Pru
import PrussBindings.Daemon.Confinement

/-!
# From the call to the handler

The C++ client writes the operation and its arguments into one line, with
single spaces between them and no quoting; the daemon strips the line, splits
it at blanks, and for `SENDMSG` joins the rest with single spaces again.

* `ApiCall`, `ApiCall.name`, `ApiCall.fields` — the calls with arguments and the
  fields of their lines; `ApiCall.line_eq` says that the line is the fields joined.
* `Realpath` — what `PRU::load` gets from `realpath`, which may fail.
* `ApiCall.Asks` — what a call asks of the system: which files are copied, opened
  and written, with the arguments of the call.
* `ApiCall.Delivered` — the daemon reads the arguments of the call off its line, and
  asks of the system what the call does.
* `ApiCall.delivered_iff` — **a call is delivered exactly if every argument is
  UTF-8 text without blanks**; the message of `sendMsg_string` may also have
  single spaces between its words, and what counts for a `load` is the path that
  `realpath` puts in the buffer.
-/

namespace System

open Effect Errno Text Path Client Daemon

/-- A call with arguments on a `PRU` object. -/
inductive ApiCall where
  | load (fw : Bytes)
  | sendMsgString (message : Bytes)
  | sendMsgRaw (message : Bytes)
  | getMsg
  | waitForEvent (time : Option CInt)
  | memRead (mem : Memory) (offset : Bytes)
  | memWrite (mem : Memory) (offset data : Bytes)

/-- `realpath(fw.c_str(), buf)`: the path it resolves the argument to, if it can, and
the string that is in the buffer afterwards. -/
structure Realpath where
  resolved : Bytes → Option Bytes
  buf : Bytes → Bytes
  buf_eq : ∀ fw full, resolved fw = some full → buf fw = full

/-- The path a `load` is about: what the argument resolves to, or the argument. -/
def Realpath.path (R : Realpath) (fw : Bytes) : Bytes := (R.resolved fw).getD fw

/-- The memory of the daemon that a memory of the client names. -/
def ramOf : Memory → Ram
  | .data0 => .dram0
  | .data1 => .dram1
  | .shared => .sram

namespace ApiCall

/-- The command line the client builds. -/
def line (R : Realpath) (p : PRU) : ApiCall → Bytes
  | load fw => p.loadCmd (R.buf fw)
  | sendMsgString message => p.sendMsgStringCmd message
  | sendMsgRaw message => p.sendMsgRawCmd message
  | getMsg => p.getMsgCmd
  | waitForEvent time => p.waitForEventCmd time
  | memRead mem offset => PRU.memReadCmd mem offset
  | memWrite mem offset data => PRU.memWriteCmd mem offset data

/-- The command of `load`. -/
def loadOp (p : PRU) : Str := "LOAD_".toList ++ showInt p.number

/-- The command of `sendMsg_string` and `sendMsg_raw`. -/
def sendMsgOp : Str := "SENDMSG".toList

/-- The command of `getMsg`. -/
def getMsgOp : Str := "GETMSG".toList

/-- The command of `waitForEvent`. -/
def eventWaitOp : Str := "EVENTWAIT".toList

/-- The operation of the call. -/
def name (p : PRU) : ApiCall → Str
  | load _ => loadOp p
  | sendMsgString _ => sendMsgOp
  | sendMsgRaw _ => sendMsgOp
  | getMsg => getMsgOp
  | waitForEvent _ => eventWaitOp
  | memRead mem _ => (ramOf mem).readCmd
  | memWrite mem _ _ => (ramOf mem).writeCmd

/-- The fields of the line after the operation. -/
def fields (R : Realpath) (p : PRU) : ApiCall → List Bytes
  | load fw => [R.buf fw]
  | sendMsgString message => [lit "s", p.chanName, toStr p.chanPort.val, message]
  | sendMsgRaw message => [lit "r", p.chanName, toStr p.chanPort.val, message]
  | getMsg => [p.chanName, toStr p.chanPort.val]
  | waitForEvent none => [p.chanName, toStr p.chanPort.val]
  | waitForEvent (some time) => [p.chanName, toStr p.chanPort.val, toStr time.val]
  | memRead _ offset => [offset]
  | memWrite _ offset data => [offset, data]

/-- The strings that are arguments of the call. -/
def strings : ApiCall → List Bytes
  | load fw => [fw]
  | sendMsgString message => [message]
  | sendMsgRaw message => [message]
  | getMsg => []
  | waitForEvent _ => []
  | memRead _ offset => [offset]
  | memWrite _ offset data => [offset, data]

/-- The words of the request are the arguments of the call; for `sendMsg_string`
the bytes that `send_msg` writes are the message and a newline. -/
def Passes (R : Realpath) (p : PRU) (cmd : List Str) : ApiCall → Prop
  | load fw => cmd.tail.map encode = [R.path fw]
  | sendMsgString message =>
    (cmd.tail.take 3).map encode = [lit "s", p.chanName, toStr p.chanPort.val] ∧
      cmd.drop 4 ≠ [] ∧ encode (unwords (cmd.drop 4) ++ ['\n']) = message ++ [10]
  | call => cmd.tail.map encode = call.fields R p

/-! ## What the calls ask of the system -/

/-- The firmware attribute of a core. -/
def firmwareAttr (number : Nat) : Str :=
  "/sys/class/remoteproc/remoteproc".toList ++ showNat (number + 1) ++ "/firmware".toList

/-- Loads the image at the path: it is copied to `/lib/firmware`, unless it is there,
and the attribute of the core is given its name. -/
def loadImage (number : Nat) (path : Str) : Py Resp := do
  if !(← pathExists path) then return .int (-ENOENT)
  catchOSError do
    if path ≠ "/lib/firmware/".toList ++ basename path then
      copyfile (normpath path) (normpath ("/lib/firmware/".toList ++ basename path))
    if !(← pathExists (firmwareAttr number)) then return .int (-ENOENT)
    catchOSError do
      withOpen (firmwareAttr number) .w
        (writeText (firmwareAttr number) (encode (basename path)))
      return .int 0

/-- Something that is done with the device of a channel, if it is a configured one. -/
def permitted (setup : Setup) (chan : Channel) (op : Py Resp) : Py Resp :=
  if setup.paths.rpmsgChannels.contains chan.name then op else return .int (-EPERM)

/-- Writes to the device of a channel, which may take three seconds to appear. -/
def sendTo (setup : Setup) (chan : Channel) (mode : OpenMode) (body : Py Unit) (resp : Resp) :
    Py Resp :=
  permitted setup chan (onDevice chan.devnode (awaitDevnode chan.devnode 3) mode body fun _ => resp)

/-- Reads the device of a channel. -/
def receiveFrom {α : Type} (setup : Setup) (chan : Channel) (body : Py α) (resp : α → Resp) :
    Py Resp :=
  permitted setup chan (onDevice chan.devnode (pathExists chan.devnode) .r body resp)

/-- Does something with the mapped memory of the PRUs. -/
def onMemory {α : Type} (body : Py α) (resp : α → Resp) : Py Resp := do
  let a ← withOpen devMem .rPlusB do
    mmap pruIcssSize pruIcss
    body
  return resp a

/-- The channel of the object. -/
def IsChannel (p : PRU) (chan : Channel) : Prop :=
  encode chan.name = p.chanName ∧ chan.port = p.chanPort.val

/-- **What a call asks of the system**, and what is answered: a program of calls to the
system with the arguments of the call. -/
inductive Asks (R : Realpath) (setup : Setup) (p : PRU) : ApiCall → Py Resp → Prop where
  | load {fw : Bytes} {path : Str} : encode path = R.path fw →
    Asks R setup p (load fw) (loadImage p.number path)
  | sendMsgString {message : Bytes} {chan : Channel} : IsChannel p chan →
    Asks R setup p (sendMsgString message)
      (sendTo setup chan .w (writeText chan.devnode (message ++ [10])) (.int 0))
  | sendMsgRaw {message : Bytes} {chan : Channel} {n : Str} : IsChannel p chan →
    encode n = message →
    Asks R setup p (sendMsgRaw message) (parsed (int setup.maxDigits 10 n) fun n =>
      sendTo setup chan .wb (do write chan.devnode (← packI n)) .none)
  | getMsg {chan : Channel} : IsChannel p chan →
    Asks R setup p getMsg (receiveFrom setup chan (getMsgLoop chan.devnode setup.maxLines [])
      fun reply => if reply = [] then .str ['\n'] else .str reply)
  | waitForEvent {chan : Channel} {time : Option CInt} : IsChannel p chan →
    Asks R setup p (waitForEvent time) (receiveFrom setup chan (do
      let ready ← selectTimeout setup chan.devnode (time.map (·.val))
      return if time.map (·.val) = none then .int 0 else if ready then .int 0 else .int (-ETIME))
      id)
  | memRead {mem : Memory} {offset : Bytes} {i : Str} : encode i = offset →
    Asks R setup p (memRead mem offset) (parsed (int setup.maxDigits 10 i) fun i =>
      onMemory (unpackB ((ramOf mem).base + i)) fun data => .int data.toNat)
  | memWrite {mem : Memory} {offset data : Bytes} {i x : Str} : encode i = offset →
    encode x = data →
    Asks R setup p (memWrite mem offset data) (parsed (int setup.maxDigits 10 i) fun i =>
      parsed (int setup.maxDigits 16 x) fun x =>
        onMemory (assignB ((ramOf mem).base + i) x) fun _ => .int 0)

/-- The daemon reads exactly the arguments of the call off its line, and serves the line
with what the call asks of the system. -/
def Delivered (R : Realpath) (p : PRU) (call : ApiCall) : Prop :=
  ∃ cmd, cmdOf (call.line R p ++ [10]) = some cmd ∧ call.Passes R p cmd ∧
    ∀ setup, ∃ prog, Asks R setup p call prog ∧
      handle setup (call.line R p ++ [10]) = do let resp ← prog; return encode resp.toStr

/-- An argument that arrives as it was sent: UTF-8 text without blanks. -/
def IsArg (b : Bytes) : Prop := ∃ w, decode b = some w ∧ IsToken w

/-- A message that arrives as it was sent: UTF-8 text of words with single
spaces between them. -/
def IsMessage (b : Bytes) : Prop := ∃ s, decode b = some s ∧ s ≠ [] ∧ unwords (words s) = s

/-- Every argument of the call arrives as it was sent.  For a `load` this is about what
`realpath` leaves in the buffer: the daemon finds one word there, and that is the path. -/
def Clean (R : Realpath) (p : PRU) : ApiCall → Prop
  | load fw => ∃ path, encode path = R.path fw ∧ cmdOf (R.buf fw ++ [10]) = some [path]
  | sendMsgString message => IsArg p.chanName ∧ IsMessage message
  | sendMsgRaw message => IsArg p.chanName ∧ IsArg message
  | getMsg => IsArg p.chanName
  | waitForEvent _ => IsArg p.chanName
  | memRead _ offset => IsArg offset
  | memWrite _ offset data => IsArg offset ∧ IsArg data

/-! ## Lines and their words -/

/-- **The line of a call is its fields with single spaces between them.** -/
theorem line_eq (R : Realpath) (p : PRU) (call : ApiCall) :
    call.line R p = [32].intercalate (encode (call.name p) :: call.fields R p) := by
  have hspace : lit " " = [32] := by decide
  cases call with
  | load fw =>
    have hop : p.verb "LOAD_" = encode (loadOp p) := p.verb_eq "LOAD_"
    simp [line, name, fields, PRU.loadCmd, hspace, hop]
  | sendMsgString message =>
    have hop : lit "SENDMSG s " = encode sendMsgOp ++ 32 :: (lit "s" ++ [32]) := by decide
    simp [line, name, fields, PRU.sendMsgStringCmd, PRU.chan, hspace, hop]
  | sendMsgRaw message =>
    have hop : lit "SENDMSG r " = encode sendMsgOp ++ 32 :: (lit "r" ++ [32]) := by decide
    simp [line, name, fields, PRU.sendMsgRawCmd, PRU.chan, hspace, hop]
  | getMsg =>
    have hop : lit "GETMSG " = encode getMsgOp ++ [32] := by decide
    simp [line, name, fields, PRU.getMsgCmd, PRU.chan, hspace, hop]
  | waitForEvent time =>
    have hop : lit "EVENTWAIT " = encode eventWaitOp ++ [32] := by decide
    cases time <;> simp [line, name, fields, PRU.waitForEventCmd, PRU.chan, hspace, hop]
  | memRead mem offset =>
    cases mem with
    | data0 =>
      have hop : lit "MEMREAD_D" ++ toStr 0 = encode (ramOf .data0).readCmd := by decide
      simp [line, name, fields, PRU.memReadCmd, hspace, ← hop]
    | data1 =>
      have hop : lit "MEMREAD_D" ++ toStr 1 = encode (ramOf .data1).readCmd := by decide
      simp [line, name, fields, PRU.memReadCmd, hspace, ← hop]
    | shared =>
      have hop : lit "MEMREAD_S " = encode (ramOf .shared).readCmd ++ [32] := by decide
      simp [line, name, fields, PRU.memReadCmd, hop]
  | memWrite mem offset data =>
    cases mem with
    | data0 =>
      have hop : lit "MEMWRITE_D" ++ toStr 0 = encode (ramOf .data0).writeCmd := by decide
      simp [line, name, fields, PRU.memWriteCmd, hspace, ← hop]
    | data1 =>
      have hop : lit "MEMWRITE_D" ++ toStr 1 = encode (ramOf .data1).writeCmd := by decide
      simp [line, name, fields, PRU.memWriteCmd, hspace, ← hop]
    | shared =>
      have hop : lit "MEMWRITE_S " = encode (ramOf .shared).writeCmd ++ [32] := by decide
      simp [line, name, fields, PRU.memWriteCmd, hspace, hop]

/-- The words of a line that is put together from fields. -/
theorem cmdOf_fields {b : Bytes} {bs : List Bytes} (h : 10 ∉ [32].intercalate (b :: bs)) :
    cmdOf ([32].intercalate (b :: bs) ++ [10]) =
      ((b :: bs).mapM decode).map fun ss => ss.flatMap words := by
  rw [cmdOf_line h, decode_intercalate, Option.map_map]
  congr 1
  funext ss
  exact words_unwords_flatMap ss

/-- The decoded arguments are all there is to know about a call. -/
theorem mapM_decode_eq_some {bs : List Bytes} {ss : List Str} :
    bs.mapM decode = some ss ↔ ss.map encode = bs := by
  induction bs generalizing ss with
  | nil => cases ss <;> simp
  | cons b bs ih =>
    rw [List.mapM_cons]
    cases ss with
    | nil => cases decode b <;> cases bs.mapM decode <;> simp
    | cons s ss =>
      rw [List.map_cons, List.cons.injEq, ← ih, ← decode_eq_some_iff]
      cases decode b <;> cases bs.mapM decode <;> simp

theorem isToken_loadOp (p : PRU) : IsToken (loadOp p) := by
  refine ⟨List.append_ne_nil_of_right_ne_nil _ (showInt_ne_nil _), fun c hc => ?_⟩
  rcases List.mem_append.1 hc with hc | hc
  · exact (by decide : IsToken "LOAD_".toList).2 c hc
  · exact (isToken_showInt _).2 c hc

theorem isToken_name {p : PRU} (call : ApiCall) : IsToken (call.name p) := by
  cases call with
  | load fw => exact isToken_loadOp p
  | sendMsgString message => exact (by decide : IsToken sendMsgOp)
  | sendMsgRaw message => exact (by decide : IsToken sendMsgOp)
  | getMsg => exact (by decide : IsToken getMsgOp)
  | waitForEvent time => exact (by decide : IsToken eventWaitOp)
  | memRead mem offset => exact (by cases mem <;> decide : IsToken (ramOf mem).readCmd)
  | memWrite mem offset data => exact (by cases mem <;> decide : IsToken (ramOf mem).writeCmd)

/-- The words of the line of a call: the operation, and the words of each field. -/
theorem cmdOf_call {R : Realpath} {p : PRU} {call : ApiCall} (h : 10 ∉ call.line R p) :
    cmdOf (call.line R p ++ [10]) =
      ((call.fields R p).mapM decode).map fun ss => call.name p :: ss.flatMap words := by
  rw [line_eq] at h ⊢
  rw [cmdOf_fields h, List.mapM_cons, decode_encode]
  cases (call.fields R p).mapM decode with
  | none => rfl
  | some ss =>
    show some ((call.name p :: ss).flatMap words) = _
    rw [List.flatMap_cons, words_token (isToken_name call)]
    rfl

/-- The words of the line of a `load`: the operation, and what is read of the buffer. -/
theorem cmdOf_load (R : Realpath) (p : PRU) (fw : Bytes) :
    cmdOf ((load fw).line R p ++ [10]) =
      (cmdOf (R.buf fw ++ [10])).map fun args => loadOp p :: args := by
  have hline : (load fw).line R p ++ [10] = encode (loadOp p ++ [' ']) ++ (R.buf fw ++ [10]) := by
    have hspace : lit " " = encode [' '] := rfl
    show p.verb "LOAD_" ++ lit " " ++ R.buf fw ++ [10] = _
    rw [p.verb_eq "LOAD_", hspace, ← encode_append, List.append_assoc _ (R.buf fw)]
    rfl
  rw [hline, cmdOf_word_append (isToken_loadOp p)]

theorem newline_not_mem_token {w : Str} (hw : IsToken w) : (10 : UInt8) ∉ encode w :=
  newline_not_mem_encode fun hmem => absurd (hw.2 _ hmem) (by decide)

theorem newline_not_mem_intercalate {bs : List Bytes} (h : ∀ b ∈ bs, 10 ∉ b) :
    10 ∉ [32].intercalate bs := by
  induction bs with
  | nil => simp
  | cons b bs ih =>
    rw [List.forall_mem_cons] at h
    cases bs with
    | nil => simpa using h.1
    | cons c bs =>
      have hrest := ih h.2
      rw [List.intercalate_cons_cons, List.mem_append, List.mem_append]
      rintro ((hb | hspace) | hrest')
      · exact h.1 hb
      · exact absurd hspace (by decide)
      · exact hrest hrest'

/-- A line has no newline in it if no field has. -/
theorem newline_not_mem_line {R : Realpath} {p : PRU} {call : ApiCall}
    (h : ∀ b ∈ call.fields R p, 10 ∉ b) : 10 ∉ call.line R p := by
  rw [line_eq]
  exact newline_not_mem_intercalate
    (List.forall_mem_cons.2 ⟨newline_not_mem_token (isToken_name call), h⟩)

/-! ## Service -/

section Service

variable {R : Realpath} {setup : Setup} {p : PRU} {chan : Channel}

/-- The daemon takes the digits of an `int`. -/
theorem int_cint (limit : DigitLimit) (n : CInt) : int limit 10 (showInt n.val) = .ok n.val := by
  obtain ⟨hlo, hhi⟩ := n.property
  apply int_showInt limit
  have hbits : (2 : Int) ^ 31 ≤ 10 ^ 100 := by norm_num
  zify
  rw [abs_lt]
  omega

/-- `LOAD_n` loads the image at the path. -/
theorem serve_load (setup : Setup) (hp : p.number = 0 ∨ p.number = 1) (path : Str) :
    serve setup [loadOp p, path] = loadImage p.number path := by
  have hop (n : Fin 2) : serve setup [loadName n, path] = loadImage n path := by
    have hattr : rprocSysfs "firmware".toList n = firmwareAttr n := by
      revert n
      decide
    rw [serve_loadName]
    show (pathExists path >>= fun b => _) = pathExists path >>= fun b => _
    rw [hattr]
    rfl
  rcases hp with hp | hp
  · have hname : loadOp p = loadName 0 := by
      unfold loadOp
      rw [hp]
      rfl
    rw [hname, hp]
    exact hop 0
  · have hname : loadOp p = loadName 1 := by
      unfold loadOp
      rw [hp]
      rfl
    rw [hname, hp]
    exact hop 1

/-- A request for a device, whose channel need not be a configured one. -/
theorem serve_permitted {cmd : List Str} {op : Py Resp} (hreq : DeviceRequest setup cmd chan)
    (hop : chan.name ∈ setup.paths.rpmsgChannels → serve setup cmd = op) :
    serve setup cmd = permitted setup chan op := by
  unfold permitted
  by_cases hchan : chan.name ∈ setup.paths.rpmsgChannels
  · rw [if_pos (List.contains_iff_mem.2 hchan)]
    exact hop hchan
  · rw [if_neg fun h => hchan (List.contains_iff_mem.1 h)]
    exact serve_not_whitelisted hreq hchan

/-- `SENDMSG s` writes the words with single spaces between them, and a newline. -/
theorem serve_sendString {port w : Str} {ws : List Str} {data : Bytes}
    (hport : int setup.maxDigits 10 port = .ok chan.port)
    (hdata : encode (unwords (w :: ws) ++ ['\n']) = data) :
    serve setup (sendMsgOp :: ['s'] :: chan.name :: port :: w :: ws) =
      sendTo setup chan .w (writeText chan.devnode data) (.int 0) := by
  have hargs := sendMsgArgs_string hport sendMsgOp w ws
  have hlen : 5 ≤ (sendMsgOp :: ['s'] :: chan.name :: port :: w :: ws).length := by simp
  rw [← hdata]
  exact serve_permitted (.sendMsg rfl hlen hargs) fun hchan => sendString_onDevice hchan hlen hargs

/-- `SENDMSG r` writes the number as it is packed. -/
theorem serve_sendRaw {port w : Str} (hport : int setup.maxDigits 10 port = .ok chan.port) :
    serve setup [sendMsgOp, ['r'], chan.name, port, w] =
      parsed (int setup.maxDigits 10 w) fun n =>
        sendTo setup chan .wb (do write chan.devnode (← packI n)) .none := by
  cases hw : int setup.maxDigits 10 w with
  | ok n =>
    have hargs := sendMsgArgs_raw hport sendMsgOp hw []
    have hlen : 5 ≤ [sendMsgOp, ['r'], chan.name, port, w].length := by simp
    exact serve_permitted (.sendMsg rfl hlen hargs) fun hchan => sendRaw_onDevice hchan hlen hargs
  | error e =>
    have hargs : sendMsgArgs setup [sendMsgOp, ['r'], chan.name, port, w] = .error e := by
      show (int setup.maxDigits 10 port >>= fun port => _) = _
      rw [hport]
      show (int setup.maxDigits 10 w >>= fun n => _) = _
      rw [hw]
      rfl
    show Daemon.sendMsg setup [sendMsgOp, ['r'], chan.name, port, w] = _
    unfold Daemon.sendMsg
    rw [if_neg (by simp), hargs]
    cases e <;> rfl

/-- `GETMSG` reads the lines that are there. -/
theorem serve_receive {port : Str} (hport : int setup.maxDigits 10 port = .ok chan.port) :
    serve setup [getMsgOp, chan.name, port] =
      receiveFrom setup chan (getMsgLoop chan.devnode setup.maxLines []) fun reply =>
        if reply = [] then .str ['\n'] else .str reply := by
  have hargs := getMsgArgs_ok hport getMsgOp
  exact serve_permitted (.getMsg rfl rfl hargs) fun hchan => getMsg_onDevice hchan rfl hargs

/-- `EVENTWAIT` waits for the device to be readable. -/
theorem serve_wait {cmd : List Str} {time : Option Int} (hname : cmd.head? = some eventWaitOp)
    (hlen : cmd.length = 3 ∨ cmd.length = 4)
    (hargs : eventWaitArgs setup cmd = .ok (chan, time)) :
    serve setup cmd = receiveFrom setup chan (do
      let ready ← selectTimeout setup chan.devnode time
      return if time = none then .int 0 else if ready then .int 0 else .int (-ETIME)) id := by
  obtain ⟨ws, rfl⟩ := List.head?_eq_some_iff.1 hname
  exact serve_permitted (.eventWait rfl hlen hargs) fun hchan => eventWait_onDevice hchan hlen hargs

/-- `MEMREAD` reads one byte. -/
theorem serve_memRead (setup : Setup) (ram : Ram) (i : Str) :
    serve setup [ram.readCmd, i] = parsed (int setup.maxDigits 10 i) fun i =>
      onMemory (unpackB (ram.base + i)) fun data => .int data.toNat := by
  cases ram <;> rfl

/-- `MEMWRITE` writes one byte. -/
theorem serve_memWrite (setup : Setup) (ram : Ram) (i x : Str) :
    serve setup [ram.writeCmd, i, x] = parsed (int setup.maxDigits 10 i) fun i =>
      parsed (int setup.maxDigits 16 x) fun x =>
        onMemory (assignB (ram.base + i) x) fun _ => .int 0 := by
  have hserve : serve setup [ram.writeCmd, i, x] =
      Daemon.memWrite setup ram [ram.writeCmd, i, x] := by
    cases ram <;> rfl
  rw [hserve]
  show parsed (int setup.maxDigits 10 i >>= fun addrOffset => _) _ = _
  cases int setup.maxDigits 10 i with
  | error e => cases e <;> rfl
  | ok n =>
    show parsed (int setup.maxDigits 16 x >>= fun data => _) _ = _
    cases int setup.maxDigits 16 x with
    | error e => cases e <;> rfl
    | ok b => rfl

end Service

/-! ## Delivery -/

theorem isArg_encode {w : Str} (hw : IsToken w) : IsArg (encode w) := ⟨w, decode_encode w, hw⟩

theorem encode_map_injective {ss ts : List Str} (h : ss.map encode = ts.map encode) : ss = ts :=
  List.map_injective_iff.2 (fun _ _ => encode_injective) h

/-- Fields that are all arguments are the encodings of words. -/
theorem forall_isArg_iff {bs : List Bytes} :
    (∀ b ∈ bs, IsArg b) ↔ ∃ ss : List Str, ss.map encode = bs ∧ ∀ s ∈ ss, IsToken s := by
  constructor
  · intro h
    induction bs with
    | nil => exact ⟨[], rfl, by simp⟩
    | cons b bs ih =>
      obtain ⟨w, hw, htok⟩ := h b (List.mem_cons_self ..)
      obtain ⟨ss, rfl, hss⟩ := ih fun c hc => h c (List.mem_cons_of_mem _ hc)
      refine ⟨w :: ss, ?_, List.forall_mem_cons.2 ⟨htok, hss⟩⟩
      rw [List.map_cons, decode_eq_some_iff.1 hw]
  · rintro ⟨ss, rfl, hss⟩ b hb
    obtain ⟨w, hw, rfl⟩ := List.mem_map.1 hb
    exact isArg_encode (hss w hw)

/-- **What a call asks of the system is asked**, if the words are the fields of its line.
`load` and `sendMsg_string` are apart: what they pass on is not a word of the line. -/
theorem asks_serve {R : Realpath} {p : PRU} {call : ApiCall} {ss : List Str}
    (hss : ss.map encode = call.fields R p) (hload : ∀ fw, call ≠ load fw)
    (hmsg : ∀ m, call ≠ sendMsgString m) (setup : Setup) :
    ∃ prog, Asks R setup p call prog ∧ serve setup (call.name p :: ss) = prog := by
  have hport := int_cint setup.maxDigits p.chanPort
  cases call with
  | load fw => exact absurd rfl (hload fw)
  | sendMsgString message => exact absurd rfl (hmsg message)
  | sendMsgRaw message =>
    simp only [fields, List.map_eq_cons_iff, List.map_eq_nil_iff] at hss
    obtain ⟨r, -, rfl, hr, c, -, rfl, hc, n, -, rfl, hn, w, -, rfl, hw, rfl⟩ := hss
    obtain rfl : r = ['r'] := encode_injective hr
    obtain rfl : n = showInt p.chanPort.val := encode_injective hn
    have hchan : IsChannel p ⟨c, p.chanPort.val⟩ := ⟨hc, rfl⟩
    exact ⟨_, .sendMsgRaw hchan hw, @serve_sendRaw setup ⟨c, p.chanPort.val⟩ _ w hport⟩
  | getMsg =>
    simp only [fields, List.map_eq_cons_iff, List.map_eq_nil_iff] at hss
    obtain ⟨c, -, rfl, hc, n, -, rfl, hn, rfl⟩ := hss
    obtain rfl : n = showInt p.chanPort.val := encode_injective hn
    have hchan : IsChannel p ⟨c, p.chanPort.val⟩ := ⟨hc, rfl⟩
    exact ⟨_, .getMsg hchan, @serve_receive setup ⟨c, p.chanPort.val⟩ _ hport⟩
  | waitForEvent time =>
    cases time with
    | none =>
      simp only [fields, List.map_eq_cons_iff, List.map_eq_nil_iff] at hss
      obtain ⟨c, -, rfl, hc, n, -, rfl, hn, rfl⟩ := hss
      obtain rfl : n = showInt p.chanPort.val := encode_injective hn
      have hchan : IsChannel p ⟨c, p.chanPort.val⟩ := ⟨hc, rfl⟩
      have hargs := @eventWaitArgs_none setup ⟨c, p.chanPort.val⟩ _ hport eventWaitOp
      exact ⟨_, .waitForEvent hchan, serve_wait rfl (.inl rfl) hargs⟩
    | some t =>
      simp only [fields, List.map_eq_cons_iff, List.map_eq_nil_iff] at hss
      obtain ⟨c, -, rfl, hc, n, -, rfl, hn, w, -, rfl, hw, rfl⟩ := hss
      obtain rfl : n = showInt p.chanPort.val := encode_injective hn
      obtain rfl : w = showInt t.val := encode_injective hw
      have hchan : IsChannel p ⟨c, p.chanPort.val⟩ := ⟨hc, rfl⟩
      have hargs := @eventWaitArgs_some setup ⟨c, p.chanPort.val⟩ _ hport eventWaitOp _ _
        (int_cint setup.maxDigits t)
      exact ⟨_, .waitForEvent hchan, serve_wait rfl (.inr rfl) hargs⟩
  | memRead mem offset =>
    simp only [fields, List.map_eq_cons_iff, List.map_eq_nil_iff] at hss
    obtain ⟨i, -, rfl, hi, rfl⟩ := hss
    exact ⟨_, .memRead hi, serve_memRead setup (ramOf mem) i⟩
  | memWrite mem offset data =>
    simp only [fields, List.map_eq_cons_iff, List.map_eq_nil_iff] at hss
    obtain ⟨i, -, rfl, hi, x, -, rfl, hx, rfl⟩ := hss
    exact ⟨_, .memWrite hi hx, serve_memWrite setup (ramOf mem) i x⟩

/-- A call whose words must be its fields one by one. -/
theorem delivered_fields_iff {R : Realpath} {p : PRU} {call : ApiCall} (h : 10 ∉ call.line R p)
    (hload : ∀ fw, call ≠ load fw) (hmsg : ∀ m, call ≠ sendMsgString m)
    (hpass : ∀ cmd, call.Passes R p cmd ↔ cmd.tail.map encode = call.fields R p) :
    call.Delivered R p ↔ ∀ b ∈ call.fields R p, IsArg b := by
  unfold Delivered
  rw [cmdOf_call h, forall_isArg_iff]
  constructor
  · rintro ⟨cmd, hcmd, hargs, -⟩
    obtain ⟨ss, hss, rfl⟩ := Option.map_eq_some_iff.1 hcmd
    rw [mapM_decode_eq_some] at hss
    rw [hpass, List.tail_cons, ← hss] at hargs
    exact ⟨ss, hss, flatMap_words_eq_self_iff.1 (encode_map_injective hargs)⟩
  · rintro ⟨ss, hss, htok⟩
    have hcmd : ((call.fields R p).mapM decode).map
        (fun ss => call.name p :: ss.flatMap words) = some (call.name p :: ss) := by
      rw [mapM_decode_eq_some.2 hss, Option.map_some, flatMap_words_eq_self_iff.2 htok]
    refine ⟨_, hcmd, ?_, fun setup => ?_⟩
    · rw [hpass, List.tail_cons, hss]
    · obtain ⟨prog, hasks, hserve⟩ := asks_serve hss hload hmsg setup
      refine ⟨prog, hasks, ?_⟩
      rw [handle_of_cmdOf ((cmdOf_call h).trans hcmd), hserve]

/-- The path of a `load` is what counts. -/
theorem delivered_load_iff {R : Realpath} {p : PRU} (hp : p.number = 0 ∨ p.number = 1)
    (fw : Bytes) : (load fw).Delivered R p ↔ (load fw).Clean R p := by
  unfold Delivered
  rw [cmdOf_load]
  constructor
  · rintro ⟨cmd, hcmd, hpass, -⟩
    obtain ⟨args, hargs, rfl⟩ := Option.map_eq_some_iff.1 hcmd
    obtain ⟨path, rfl, hpath⟩ := List.map_eq_singleton_iff.1 hpass
    exact ⟨path, hpath, hargs⟩
  · rintro ⟨path, hpath, hargs⟩
    refine ⟨[loadOp p, path], by rw [hargs]; rfl, ?_, fun setup => ?_⟩
    · show [encode path] = [R.path fw]
      rw [hpath]
    · refine ⟨_, .load hpath, ?_⟩
      have hcmd : cmdOf ((load fw).line R p ++ [10]) = some [loadOp p, path] := by
        rw [cmdOf_load, hargs]
        rfl
      rw [handle_of_cmdOf hcmd, serve_load setup hp]

/-- The fields of `sendMsg_string`, decoded. -/
theorem mapM_decode_message {R : Realpath} {p : PRU} {message : Bytes} {ss : List Str} :
    ((sendMsgString message).fields R p).mapM decode = some ss ↔
      ∃ c t, ss = [['s'], c, showInt p.chanPort.val, t] ∧ encode c = p.chanName ∧
        encode t = message := by
  rw [mapM_decode_eq_some]
  constructor
  · intro hss
    simp only [fields, List.map_eq_cons_iff, List.map_eq_nil_iff] at hss
    obtain ⟨a, -, rfl, ha, c, -, rfl, hc, n, -, rfl, hn, t, -, rfl, ht, rfl⟩ := hss
    obtain rfl : a = ['s'] := encode_injective ha
    obtain rfl : n = showInt p.chanPort.val := encode_injective hn
    exact ⟨c, t, rfl, hc, ht⟩
  · rintro ⟨c, t, rfl, hc, ht⟩
    simp only [fields, List.map_cons, List.map_nil, hc, ht]
    rfl

theorem flatMap_words_message {c : Str} (hc : IsToken c) (port : Int) (t : Str) :
    List.flatMap words [['s'], c, showInt port, t] = ['s'] :: c :: showInt port :: words t := by
  have hs : words ['s'] = [['s']] := by decide
  simp [hs, words_token (isToken_showInt port), words_token hc]

/-- The message of `sendMsg_string` may consist of several words. -/
theorem delivered_message_iff {R : Realpath} {p : PRU} {message : Bytes}
    (h : 10 ∉ (sendMsgString message).line R p) :
    (sendMsgString message).Delivered R p ↔ IsArg p.chanName ∧ IsMessage message := by
  unfold Delivered
  rw [cmdOf_call h]
  constructor
  · rintro ⟨cmd, hcmd, ⟨hfirst, hne, hmsg⟩, -⟩
    obtain ⟨ss, hss, rfl⟩ := Option.map_eq_some_iff.1 hcmd
    obtain ⟨c, t, rfl, hc, ht⟩ := mapM_decode_message.1 hss
    -- the third word of the line must be the whole channel name
    have htake : ((List.flatMap words [['s'], c, showInt p.chanPort.val, t]).take 3) =
        [['s'], c, showInt p.chanPort.val] := by
      apply encode_map_injective
      rw [List.tail_cons] at hfirst
      rw [hfirst, ← hc]
      rfl
    have hmem : c ∈ List.flatMap words [['s'], c, showInt p.chanPort.val, t] :=
      List.mem_of_mem_take (by rw [htake]; simp)
    obtain ⟨u, -, hu⟩ := List.mem_flatMap.1 hmem
    have hctok : IsToken c := isToken_of_mem_words hu
    have hdrop : (name p (sendMsgString message) ::
        List.flatMap words [['s'], c, showInt p.chanPort.val, t]).drop 4 = words t := by
      rw [flatMap_words_message hctok]
      rfl
    rw [hdrop] at hne hmsg
    refine ⟨hc ▸ isArg_encode hctok, t, by rw [← ht, decode_encode], ?_, ?_⟩
    · rintro rfl
      exact hne rfl
    · rw [encode_append, ← ht] at hmsg
      exact encode_injective (List.append_cancel_right hmsg)
  · rintro ⟨⟨c, hc, hctok⟩, t, ht, htne, hround⟩
    rw [decode_eq_some_iff] at hc ht
    obtain ⟨w, ws, hws⟩ : ∃ w ws, words t = w :: ws := by
      refine List.exists_cons_of_ne_nil fun hnil => ?_
      rw [hnil] at hround
      exact htne hround.symm
    have hdec : ((sendMsgString message).fields R p).mapM decode =
        some [['s'], c, showInt p.chanPort.val, t] :=
      mapM_decode_message.2 ⟨c, t, rfl, hc, ht⟩
    have hcmd : (((sendMsgString message).fields R p).mapM decode).map
        (fun ss => name p (sendMsgString message) :: ss.flatMap words) =
          some (sendMsgOp :: ['s'] :: c :: showInt p.chanPort.val :: w :: ws) := by
      rw [hdec, Option.map_some, flatMap_words_message hctok, hws]
      rfl
    have hbytes : encode (unwords (w :: ws) ++ ['\n']) = message ++ [10] := by
      rw [← hws, hround, encode_append, ht]
      rfl
    refine ⟨_, hcmd, ⟨?_, List.cons_ne_nil _ _, hbytes⟩, fun setup => ?_⟩
    · show [encode ['s'], encode c, toStr p.chanPort.val] = _
      rw [hc]
      rfl
    · have hchan : IsChannel p ⟨c, p.chanPort.val⟩ := ⟨hc, rfl⟩
      have hserve := @serve_sendString setup ⟨c, p.chanPort.val⟩ _ w ws _ (int_cint _ _) hbytes
      refine ⟨_, .sendMsgString hchan, ?_⟩
      rw [handle_of_cmdOf ((cmdOf_call h).trans hcmd), hserve]

/-- **A call is delivered exactly if every argument is UTF-8 text without
blanks**, where the message of `sendMsg_string` may have single spaces between
its words, and the path of a `load` is the one that `realpath` puts in the buffer. -/
theorem delivered_iff (R : Realpath) {p : PRU} (hp : p.number = 0 ∨ p.number = 1)
    (hname : 10 ∉ p.chanName) (call : ApiCall) (h : ∀ b ∈ call.strings, 10 ∉ b) :
    call.Delivered R p ↔ call.Clean R p := by
  have hr : IsArg (lit "r") := isArg_encode (by decide)
  have hint (n : Int) : IsArg (toStr n) := isArg_encode (isToken_showInt n)
  have hport (n : Int) : (10 : UInt8) ∉ toStr n := newline_not_mem_token (isToken_showInt n)
  have hs : (10 : UInt8) ∉ lit "s" := by decide
  have hr10 : (10 : UInt8) ∉ lit "r" := by decide
  cases call with
  | load fw => exact delivered_load_iff hp fw
  | sendMsgString message =>
    refine delivered_message_iff (newline_not_mem_line ?_)
    simp only [fields, List.forall_mem_cons]
    exact ⟨hs, hname, hport _, h message (List.mem_singleton_self _), by simp⟩
  | sendMsgRaw message =>
    rw [delivered_fields_iff (newline_not_mem_line ?_) (by simp) (by simp) fun _ => Iff.rfl]
    · simp [fields, Clean, hr, hint]
    · simp only [fields, List.forall_mem_cons]
      exact ⟨hr10, hname, hport _, h message (List.mem_singleton_self _), by simp⟩
  | getMsg =>
    rw [delivered_fields_iff (newline_not_mem_line ?_) (by simp) (by simp) fun _ => Iff.rfl]
    · simp [fields, Clean, hint]
    · simp only [fields, List.forall_mem_cons]
      exact ⟨hname, hport _, by simp⟩
  | waitForEvent time =>
    rw [delivered_fields_iff (newline_not_mem_line ?_) (by simp) (by simp) fun _ => Iff.rfl]
    · cases time <;> simp [fields, Clean, hint]
    · cases time <;> simp only [fields, List.forall_mem_cons]
      · exact ⟨hname, hport _, by simp⟩
      · exact ⟨hname, hport _, hport _, by simp⟩
  | memRead mem offset =>
    rw [delivered_fields_iff (newline_not_mem_line ?_) (by simp) (by simp) fun _ => Iff.rfl]
    · simp [fields, Clean]
    · exact h
  | memWrite mem offset data =>
    rw [delivered_fields_iff (newline_not_mem_line ?_) (by simp) (by simp) fun _ => Iff.rfl]
    · simp [fields, Clean]
    · exact h

/-- A system on which the argument resolves to a path without blanks. -/
def exampleRealpath : Realpath where
  resolved fw := if fw = lit "my fw" then some (lit "/tmp/am335x-pru1-fw") else none
  buf fw := if fw = lit "my fw" then lit "/tmp/am335x-pru1-fw" else fw
  buf_eq fw full h := by
    by_cases hfw : fw = lit "my fw"
    · rw [if_pos hfw] at h ⊢
      exact Option.some_inj.1 h
    · rw [if_neg hfw] at h
      cases h

/-- A link with a blank in its name, to a path without. -/
theorem delivered_iff_load :
    (load (lit "my fw")).Delivered exampleRealpath
      ⟨1, ⟨1, by decide⟩, lit "pruss_api_pru", .running⟩ :=
  (delivered_iff exampleRealpath (.inr rfl) (by decide) _ (by decide)).2
    ⟨"/tmp/am335x-pru1-fw".toList, by decide, by decide⟩

/-- Two blanks in a row do not arrive: the device gets `a b`. -/
theorem message_with_blanks_not_delivered :
    ¬ (sendMsgString (lit "a  b")).Delivered exampleRealpath
      ⟨1, ⟨1, by decide⟩, lit "pruss_api_pru", .running⟩ := by
  rw [delivered_message_iff (by decide)]
  rintro ⟨-, s, hs, -, hround⟩
  obtain rfl : s = "a  b".toList := encode_injective (decode_eq_some_iff.1 hs)
  exact absurd hround (by decide)

end ApiCall

end System
