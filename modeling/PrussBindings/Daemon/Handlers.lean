import PrussBindings.Daemon.Config
import PrussBindings.Lib.Path

/-!
# The handlers of the daemon

The functions of `prussd.py` that carry out a request, in the order of the
source.  Each takes the words of the request and returns what `handle` will
send back.

* `sysfsRead`, `sysfsWrite` — the attribute files of remoteproc.
* `modProbe`, `loadFirmware` — the driver module and the firmware images.
* `getMsg`, `sendMsg`, `eventWait` — the rpmsg character devices.
* `memRead`, `memWrite` — the PRU memories through `/dev/mem`.

The loop of `get_msg` runs until the device has nothing left to read, which
nothing in the daemon bounds, so it takes the number of lines it may read from
`Setup`, and ends in `spin` when they are used up.
-/

namespace Daemon

open Effect Errno Text Path

/-- What the handlers run with: the lists of `class paths`, the longest timeout
`select` accepts on this platform, the lines a `GETMSG` may read, and the limit on
the digits of a numeral. -/
structure Setup where
  paths : Paths
  maxTimeout : Int
  maxLines : Nat
  maxDigits : DigitLimit

/-! ## Attribute files -/

/-- `rproc_sysfs`. -/
def rprocSysfs (attr : Str) (number : Nat) : Str :=
  normpath (rprocSysfsPath ++ showNat (number + 1) ++ ['/'] ++ attr)

/-- `rproc_debugfs`. -/
def rprocDebugfs (attr : Str) (number : Nat) : Str :=
  normpath (rprocDebugfsPath ++ showNat (number + 1) ++ ['/'] ++ attr)

/-- `rpmsg_devnode`. -/
def rpmsgDevnode (chanName : Str) (chanPort : Int) : Str :=
  normpath ("/dev/".toList ++ chanName ++ showInt chanPort)

/-- `sysfs_read`. -/
def sysfsRead (path : Str) : Py Resp := do
  if !(← pathExists path) then return .int (-ENOENT)
  catchOSError (withOpen path .r (.str <$> read path))

/-- `sysfs_write`. -/
def sysfsWrite (path val : Str) : Py Resp := do
  if !(← pathExists path) then return .int (-ENOENT)
  catchOSError do
    withOpen path .w (writeText path (encode val))
    return .int 0

theorem uses_sysfsWrite {ok : OsOp → Prop} {path val : Str} (hexists : ok (.pathExists path))
    (hopen : ok (.openFile path .w)) (hwrite : ok (.write path (encode val)))
    (hagain : ok (.writeAgain path (encode val))) (hclose : ok (.close path)) :
    Uses ok (sysfsWrite path val) := by
  unfold sysfsWrite
  refine ⟨hexists, fun b => ?_⟩
  cases b with
  | false => trivial
  | true =>
    exact uses_catchOSError (uses_bind
      (uses_withOpen hopen hclose (uses_writeText hwrite hagain)) fun _ => trivial)

/-! ## The driver module and the firmware -/

/-- `mod_probe`.  The exit status of the command is dropped. -/
def modProbe (modName : Str) (probe : Bool) : Py Resp :=
  catchOSError do
    let _status ← popenWait (if probe then [modprobePath, modName]
      else [modprobePath, "-r".toList, modName])
    return .int 0

/-- The path `load_firmware` copies an image to. -/
def fwPath (source : Str) : Str := firmwarePath ++ ['/'] ++ basename source

theorem fwPath_eq (source : Str) :
    fwPath source = canonical ["lib".toList, "firmware".toList, basename source] := by
  unfold canonical fwPath
  rw [join_cons_cons, join_cons_cons, join_singleton, List.append_assoc]
  rfl

/-- The destination of a copy is spelled as it is used, if its base name can name
a file. -/
theorem normpath_fwPath {source : Str} (h : IsName (basename source)) :
    normpath (fwPath source) = fwPath source := by
  rw [fwPath_eq]
  apply normpath_canonical (List.cons_ne_nil _ _)
  simp only [List.forall_mem_cons]
  exact ⟨by decide, by decide, h, by simp⟩

/-- `load_firmware`. -/
def loadFirmware (number : Nat) (cmd : List Str) : Py Resp :=
  if cmd.length > 2 then return .int (-EINVAL)
  else match index cmd 1 with
    | .error e => .raise e
    | .ok source => do
      if !(← pathExists source) then return .int (-ENOENT)
      catchOSError do
        if source ≠ fwPath source then
          copyfile (normpath source) (normpath (fwPath source))
        sysfsWrite (rprocSysfs "firmware".toList number) (basename source)

/-! ## The rpmsg devices -/

/-- The channel and the port of a request. -/
structure Channel where
  name : Str
  port : Int
  deriving DecidableEq, Repr

/-- The device node of a channel. -/
def Channel.devnode (c : Channel) : Str := rpmsgDevnode c.name c.port

/-- The loop of `get_msg`: reads lines as long as the device is readable. -/
def getMsgLoop (dev : Str) : Nat → Str → Py Str
  | 0, reply => do
    if ← select dev (some 0) then .spin else return reply
  | lines + 1, reply => do
    if ← select dev (some 0) then
      let line ← readline dev
      getMsgLoop dev lines (reply ++ line)
    else return reply

theorem uses_getMsgLoop {ok : OsOp → Prop} {dev : Str}
    (hselect : ∀ timeout, ok (.select dev timeout)) (hread : ok (.readline dev)) (lines : Nat) (reply : Str) :
    Uses ok (getMsgLoop dev lines reply) := by
  induction lines generalizing reply with
  | zero =>
    refine uses_bind ⟨hselect _, uses_check⟩ fun ready => ?_
    cases ready <;> trivial
  | succ lines ih =>
    refine uses_bind ⟨hselect _, uses_check⟩ fun ready => ?_
    cases ready with
    | false => trivial
    | true => exact uses_bind ⟨hread, uses_check⟩ fun line => ih _

/-- The arguments of `get_msg`. -/
def getMsgArgs (setup : Setup) (cmd : List Str) : Except PyExc Channel := do
  let chanName ← index cmd 1
  let chanPort ← int setup.maxDigits 10 (← index cmd 2)
  return ⟨chanName, chanPort⟩

theorem getMsgArgs_ok {setup : Setup} {chan : Channel} {port : Str}
    (hport : int setup.maxDigits 10 port = .ok chan.port) (name : Str) :
    getMsgArgs setup [name, chan.name, port] = .ok chan := by
  show (int setup.maxDigits 10 port >>= fun port => _) = _
  rw [hport]
  rfl

/-- `get_msg`. -/
def getMsg (setup : Setup) (cmd : List Str) : Py Resp :=
  if cmd.length ≠ 3 then return .int (-EINVAL)
  else parsed (getMsgArgs setup cmd) fun chan => do
    if chan.name ∉ setup.paths.rpmsgChannels then return .int (-EPERM)
    if !(← pathExists chan.devnode) then return .int (-ENODEV)
    catchOSError do
      let reply ← withOpen chan.devnode .r (getMsgLoop chan.devnode setup.maxLines [])
      return if reply = [] then .str ['\n'] else .str reply

/-- The `time_to_wait` loop of `send_msg`: waits up to that many seconds for the
device node to appear. -/
def awaitDevnode (dev : Str) : Nat → Py Bool
  | 0 => return false
  | timeToWait + 1 => do
    if ← pathExists dev then return true
    sleep 1
    awaitDevnode dev timeToWait

theorem uses_awaitDevnode {ok : OsOp → Prop} {dev : Str} (hexists : ok (.pathExists dev))
    (hsleep : ∀ seconds, ok (.sleep seconds)) (timeToWait : Nat) :
    Uses ok (awaitDevnode dev timeToWait) := by
  induction timeToWait with
  | zero => trivial
  | succ timeToWait ih =>
    refine ⟨hexists, fun b => ?_⟩
    cases b with
    | true => trivial
    | false => exact ⟨hsleep _, fun _ => ih⟩

/-- The arguments of `send_msg`; the integer is read in mode `r` only. -/
structure SendMsgArgs where
  mode : Str
  chan : Channel
  intData : Int

/-- The conversion of the arguments of `send_msg`. -/
def sendMsgArgs (setup : Setup) (cmd : List Str) : Except PyExc SendMsgArgs := do
  let mode ← index cmd 1
  let chanName ← index cmd 2
  let chanPort ← int setup.maxDigits 10 (← index cmd 3)
  let intData ← if mode = ['r'] then int setup.maxDigits 10 (← index cmd 4) else .ok 0
  return ⟨mode, ⟨chanName, chanPort⟩, intData⟩

theorem sendMsgArgs_string {setup : Setup} {chan : Channel} {port : Str}
    (hport : int setup.maxDigits 10 port = .ok chan.port) (name w : Str) (ws : List Str) :
    sendMsgArgs setup (name :: ['s'] :: chan.name :: port :: w :: ws) =
      .ok ⟨['s'], chan, 0⟩ := by
  show (int setup.maxDigits 10 port >>= fun port => _) = _
  rw [hport]
  rfl

theorem sendMsgArgs_raw {setup : Setup} {chan : Channel} {port : Str}
    (hport : int setup.maxDigits 10 port = .ok chan.port) (name : Str) {w : Str} {n : Int}
    (hw : int setup.maxDigits 10 w = .ok n) (ws : List Str) :
    sendMsgArgs setup (name :: ['r'] :: chan.name :: port :: w :: ws) =
      .ok ⟨['r'], chan, n⟩ := by
  show (int setup.maxDigits 10 port >>= fun port => _) = _
  rw [hport]
  show (int setup.maxDigits 10 w >>= fun n => _) = _
  rw [hw]
  rfl

/-- The four bytes of a word, least significant first. -/
def leBytes (n : Nat) : Bytes :=
  [UInt8.ofNat n, UInt8.ofNat (n / 2 ^ 8), UInt8.ofNat (n / 2 ^ 16), UInt8.ofNat (n / 2 ^ 24)]

/-- `struct.pack('i', n)`. -/
def packI (n : Int) : Py Bytes :=
  if -2 ^ 31 ≤ n ∧ n < 2 ^ 31 then return leBytes (n % 2 ^ 32).toNat
  else .raise .structError

theorem uses_packI {ok : OsOp → Prop} (n : Int) : Uses ok (packI n) := by
  unfold packI
  split_ifs <;> trivial

/-- `send_msg`.  In mode `r`, and in any mode that is neither `s` nor `r`, it
falls off its end and returns `None`. -/
def sendMsg (setup : Setup) (cmd : List Str) : Py Resp :=
  if cmd.length < 5 then return .int (-EINVAL)
  else parsed (sendMsgArgs setup cmd) fun args => do
    let dev := args.chan.devnode
    if args.chan.name ∉ setup.paths.rpmsgChannels then return .int (-EPERM)
    if !(← awaitDevnode dev 3) then return .int (-ENODEV)
    if args.mode = ['s'] then
      catchOSError do
        withOpen dev .w (writeText dev (encode (unwords (cmd.drop 4) ++ ['\n'])))
        return .int 0
    else if args.mode = ['r'] then
      catchOSError do
        withOpen dev .wb do write dev (← packI args.intData)
        return .none
    else return .none

/-- The arguments of `event_wait`. -/
def eventWaitArgs (setup : Setup) (cmd : List Str) : Except PyExc (Channel × Option Int) := do
  let chanName ← index cmd 1
  let chanPort ← int setup.maxDigits 10 (← index cmd 2)
  let timeout ←
    if cmd.length = 4 then some <$> int setup.maxDigits 10 (← index cmd 3) else .ok none
  return (⟨chanName, chanPort⟩, timeout)

theorem eventWaitArgs_none {setup : Setup} {chan : Channel} {port : Str}
    (hport : int setup.maxDigits 10 port = .ok chan.port) (name : Str) :
    eventWaitArgs setup [name, chan.name, port] = .ok (chan, none) := by
  show (int setup.maxDigits 10 port >>= fun port => _) = _
  rw [hport]
  rfl

theorem eventWaitArgs_some {setup : Setup} {chan : Channel} {port : Str}
    (hport : int setup.maxDigits 10 port = .ok chan.port) (name : Str) {w : Str} {timeout : Int}
    (hw : int setup.maxDigits 10 w = .ok timeout) :
    eventWaitArgs setup [name, chan.name, port, w] = .ok (chan, some timeout) := by
  show (int setup.maxDigits 10 port >>= fun port => _) = _
  rw [hport]
  show (some <$> int setup.maxDigits 10 w >>= fun timeout => _) = _
  rw [hw]
  rfl

/-- `select` with a timeout, which it refuses if it is negative or too long for
the platform's clock. -/
def selectTimeout (setup : Setup) (dev : Str) (timeout : Option Int) : Py Bool :=
  match timeout with
  | none => select dev none
  | some t =>
    if setup.maxTimeout < |t| then .raise .overflowError
    else if t < 0 then .raise .valueError
    else select dev (some t)

theorem uses_selectTimeout {ok : OsOp → Prop} {dev : Str}
    (hselect : ∀ timeout, ok (.select dev timeout)) (setup : Setup) (timeout : Option Int) :
    Uses ok (selectTimeout setup dev timeout) := by
  cases timeout with
  | none => exact ⟨hselect _, uses_check⟩
  | some t =>
    simp only [selectTimeout]
    split_ifs
    · trivial
    · trivial
    · exact ⟨hselect _, uses_check⟩

/-- `event_wait`. -/
def eventWait (setup : Setup) (cmd : List Str) : Py Resp :=
  if cmd.length ≠ 3 ∧ cmd.length ≠ 4 then return .int (-EINVAL)
  else parsed (eventWaitArgs setup cmd) fun (chan, timeout) => do
    if chan.name ∉ setup.paths.rpmsgChannels then return .int (-EPERM)
    if !(← pathExists chan.devnode) then return .int (-ENODEV)
    catchOSError do
      withOpen chan.devnode .r do
        let ready ← selectTimeout setup chan.devnode timeout
        return if timeout = none then .int 0 else if ready then .int 0 else .int (-ETIME)

/-- What the handlers of the rpmsg devices have in common: they wait for the device node, and open,
use and close the device. -/
def onDevice {α : Type} (dev : Str) (await : Py Bool) (mode : OpenMode) (body : Py α)
    (resp : α → Resp) : Py Resp := do
  if !(← await) then return .int (-ENODEV)
  catchOSError do
    let a ← withOpen dev mode body
    return resp a

section OnDevice

variable {setup : Setup} {chan : Channel} (hchan : chan.name ∈ setup.paths.rpmsgChannels)

include hchan

theorem getMsg_onDevice {cmd : List Str} (hlen : cmd.length = 3)
    (hargs : getMsgArgs setup cmd = .ok chan) :
    getMsg setup cmd =
      onDevice chan.devnode (pathExists chan.devnode) .r
        (getMsgLoop chan.devnode setup.maxLines [])
        (fun reply => if reply = [] then .str ['\n'] else .str reply) := by
  unfold getMsg
  rw [if_neg (not_not.2 hlen), hargs, parsed_ok]
  simp only [if_neg (not_not.2 hchan)]
  rfl

theorem sendString_onDevice {cmd : List Str} (hlen : 5 ≤ cmd.length)
    (hargs : sendMsgArgs setup cmd = .ok ⟨['s'], chan, 0⟩) :
    sendMsg setup cmd =
      onDevice chan.devnode (awaitDevnode chan.devnode 3) .w
        (writeText chan.devnode (encode (unwords (cmd.drop 4) ++ ['\n']))) (fun _ => .int 0) := by
  unfold sendMsg
  rw [if_neg (by omega), hargs, parsed_ok]
  simp only [if_neg (not_not.2 hchan), if_true]
  rfl

theorem sendRaw_onDevice {cmd : List Str} {n : Int} (hlen : 5 ≤ cmd.length)
    (hargs : sendMsgArgs setup cmd = .ok ⟨['r'], chan, n⟩) :
    sendMsg setup cmd =
      onDevice chan.devnode (awaitDevnode chan.devnode 3) .wb
        (do write chan.devnode (← packI n)) (fun _ => .none) := by
  have hmode : (['r'] : Str) ≠ ['s'] := by decide
  unfold sendMsg
  rw [if_neg (by omega), hargs, parsed_ok]
  simp only [if_neg (not_not.2 hchan), if_neg hmode, if_true]
  rfl

theorem eventWait_onDevice {cmd : List Str} {timeout : Option Int}
    (hlen : cmd.length = 3 ∨ cmd.length = 4)
    (hargs : eventWaitArgs setup cmd = .ok (chan, timeout)) :
    eventWait setup cmd =
      onDevice chan.devnode (pathExists chan.devnode) .r
        (do
          let ready ← selectTimeout setup chan.devnode timeout
          return if timeout = none then .int 0 else if ready then .int 0 else .int (-ETIME))
        id := by
  unfold eventWait onDevice
  rw [if_neg (by omega), hargs, parsed_ok]
  simp only [if_neg (not_not.2 hchan)]
  show (pathExists chan.devnode >>= fun b => _) = pathExists chan.devnode >>= fun b => _
  congr 1
  funext b
  cases b with
  | false => rfl
  | true => exact congrArg catchOSError (bind_pure _).symm

end OnDevice

/-! ## The PRU memories -/

/-- `PRU_ICSS`: where the PRU subsystem lies in physical memory. -/
def pruIcss : Nat := 0x4a300000

/-- `PRU_ICSS_SIZE`. -/
def pruIcssSize : Nat := 512 * 1024

/-- The memories a request can name: `0`, `1` and `3` in the source. -/
inductive Ram where
  | dram0
  | dram1
  | sram
  deriving DecidableEq, Repr

/-- `PRU_DRAM0`, `PRU_DRAM1`, `PRU_SRAM`. -/
def Ram.base : Ram → Nat
  | .dram0 => 0x00000000
  | .dram1 => 0x00002000
  | .sram => 0x00010000

/-- The file the memories are mapped from. -/
def devMem : Str := "/dev/mem".toList

/-- A bound of a slice: negative numbers count from the end, and everything is
clipped to the length. -/
def sliceIndex (len : Nat) (i : Int) : Nat :=
  if i < 0 then (i + len).toNat else min i.toNat len

/-- The index of the one byte in the slice `[i : i + 1]`, if it has one. -/
def sliceByte (len : Nat) (i : Int) : Option Nat :=
  if sliceIndex len i < sliceIndex len (i + 1) then some (sliceIndex len i) else none

/-- `struct.unpack('B', pru_mem[i : i + 1])[0]`. -/
def unpackB (i : Int) : Py UInt8 :=
  match sliceByte pruIcssSize i with
  | some k => peek k
  | none => .raise .structError

/-- `pru_mem[i : i + 1] = struct.pack('B', data)`. -/
def assignB (i data : Int) : Py Unit :=
  if 0 ≤ data ∧ data < 256 then
    match sliceByte pruIcssSize i with
    | some k => poke k (UInt8.ofNat data.toNat)
    | none => .raise .indexError
  else .raise .structError

/-- The arguments of `mem_read`. -/
def memReadArgs (setup : Setup) (cmd : List Str) : Except PyExc Int := do
  int setup.maxDigits 10 (← index cmd 1)

/-- `mem_read`. -/
def memRead (setup : Setup) (ram : Ram) (cmd : List Str) : Py Resp :=
  parsed (memReadArgs setup cmd) fun addrOffset => do
    let data ← withOpen devMem .rPlusB do
      mmap pruIcssSize pruIcss
      unpackB (ram.base + addrOffset)
    return .int data.toNat

/-- The arguments of `mem_write`. -/
def memWriteArgs (setup : Setup) (cmd : List Str) : Except PyExc (Int × Int) := do
  let addrOffset ← int setup.maxDigits 10 (← index cmd 1)
  let data ← int setup.maxDigits 16 (← index cmd 2)
  return (addrOffset, data)

/-- `mem_write`. -/
def memWrite (setup : Setup) (ram : Ram) (cmd : List Str) : Py Resp :=
  parsed (memWriteArgs setup cmd) fun (addrOffset, data) => do
    withOpen devMem .rPlusB do
      mmap pruIcssSize pruIcss
      assignB (ram.base + addrOffset) data
    return .int 0

end Daemon
