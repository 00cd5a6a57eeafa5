import PrussBindings.Driver.MessageFifo
import PrussBindings.Lib.Exclusive
import PrussBindings.System.RawMessage

/-!
# Two requests on one channel

The daemon serves every connection in a thread of its own, and the driver lets
one user at a time open a channel and refuses the next one.

* `LineReader`, `SharedDevice`, `deviceEnv` — the device of a channel, with the
  driver's file operations and the file object Python reads it through.
* `Arrives` — a message from the PRU, which may come at any time.
* `openLock` — the driver's lock, in the terms of `Exclusive.Discipline`.
* `OnChannel` — a well-formed `GETMSG`, `SENDMSG` or `EVENTWAIT` for a channel.
* `outside_handle` — each of them opens the device once at most and closes it.
* `serial_or_refused` — **however the steps of two such requests are interleaved,
  they have been served one after the other, or one of them was refused while the
  other had the device open.**
* `eventWait_refuses_sendMsg` — a client that waits for an event makes another
  client's `SENDMSG` fail.
-/

namespace System

open Effect Errno Exclusive Relation Text Daemon Driver

/-! ## The device -/

/-- A file object of Python on the open device: how it makes lines of what it
reads.  It does that by calls of the driver's `read`, during which messages may
arrive. -/
structure LineReader (φ : Type) where
  opened : φ
  readline : PrussApiDev × φ → Except PyExc Str → PrussApiDev × φ → Prop
  reads : ∀ {x r y}, readline x r y → ∃ es, FifoRun x.1 es y.1

/-- The device of a channel, and the file object of whoever has it open. -/
structure SharedDevice (φ : Type) extends RpmsgDevice where
  file : φ

variable {φ : Type}

/-- A write to the device. -/
def WriteStep (data : Bytes) (d : SharedDevice φ) (r : Except PyExc Unit) (d' : SharedDevice φ) :
    Prop :=
  ∃ fault send, r = fopResult (prussApiWrite d.buf data data.length fault send).ret ∧
    d' = { d with
      buf := (prussApiWrite d.buf data data.length fault send).buf
      sent := d.sent ++ (prussApiWrite d.buf data data.length fault send).sent.toList }

/-- What the system answers while a request for the channel at `node` is served.
Copies to and from the kernel may fault, and `rpmsg_send` may fail; `select`
waits for a message, or for its timeout.  The handlers make no other calls. -/
def deviceEnv (reader : LineReader φ) (node : Str) : Env OsRes (SharedDevice φ)
  | .pathExists p, d, r, d' => r = decide (p = node) ∧ d' = d
  | .sleep _, d, _, d' => d' = d
  | .openFile p _, d, r, d' =>
    if p = node then
      r = fopResult (prussApiOpen d.dev).ret ∧
        d' = { d with
          dev := (prussApiOpen d.dev).dev
          file := if (prussApiOpen d.dev).ret < 0 then d.file else reader.opened }
    else r = .error (.osError (some ENOENT)) ∧ d' = d
  | .select _ timeout, d, r, d' =>
    d' = d ∧ ((prussApiPoll d.dev).pollIn = true ∧ r = .ok true ∨
      timeout ≠ none ∧ (prussApiPoll d.dev).pollIn = false ∧ r = .ok false)
  | .readline _, d, r, d' =>
    reader.readline (d.dev, d.file) r (d'.dev, d'.file) ∧ d'.buf = d.buf ∧ d'.sent = d.sent
  | .write _ data, d, r, d' => WriteStep data d r d'
  | .writeAgain _ data, d, r, d' => WriteStep data d r d'
  | .close _, d, _, d' => d' = { d with dev := (prussApiRelease d.dev).dev }
  | _, _, _, _ => False

/-- A message from the PRU. -/
def Arrives (d d' : SharedDevice φ) : Prop :=
  ∃ data, d' = { d with dev := (prussApiCb d.dev data).dev }

theorem prussApiCb_locked (dev : PrussApiDev) (data : Message) :
    (prussApiCb dev data).dev.locked = dev.locked := by
  unfold prussApiCb
  split_ifs <;> rfl

theorem prussApiRead_locked {dev : PrussApiDev} {nonblock signal : Bool} {count : Nat}
    {fault : Option Nat} {ret : FopRet}
    (h : prussApiRead dev nonblock signal count fault = some ret) :
    ret.dev.locked = dev.locked := by
  unfold prussApiRead at h
  split_ifs at h <;> cases h <;> rfl

/-- Only `open` and `release` touch the lock. -/
theorem fifoRun_locked {dev dev' : PrussApiDev} {es : List FifoEvent} (h : FifoRun dev es dev') :
    dev'.locked = dev.locked := by
  refine h.invariant (I := fun t => t.locked = dev.locked) (fun t e t' ht hstep => ?_) rfl
  cases hstep with
  | cb hr => exact (hr ▸ prussApiCb_locked t _).trans ht
  | read hr => exact (prussApiRead_locked hr).trans ht

section Open

variable {reader : LineReader φ} {node : Str} {mode : OpenMode} {d d' : SharedDevice φ}
  {r : Except PyExc Unit}

theorem open_free (hd : d.dev.locked = false) : deviceEnv reader node (.openFile node mode) d r d' ↔
    r = .ok () ∧ d' = { d with dev := { d.dev with locked := true }, file := reader.opened } := by
  simp only [deviceEnv, if_true, prussApiOpen_free hd]
  exact Iff.rfl

theorem open_held (hd : d.dev.locked = true) : deviceEnv reader node (.openFile node mode) d r d' ↔
    r = .error (.osError (some EACCES)) ∧ d' = d := by
  simp only [deviceEnv, if_true, prussApiOpen_held hd]
  exact Iff.rfl

end Open

/-- The driver's lock, as seen from the daemon. -/
def openLock (reader : LineReader φ) (node : Str) :
    Discipline (deviceEnv reader node) Arrives where
  locked d := d.dev.locked
  acquires o := ∃ mode, o = .openFile node mode
  releases o := o = .close node
  uses o :=
    (∃ timeout, o = .select node timeout) ∨ o = .readline node ∨
      ∃ data, o = .write node data ∨ o = .writeAgain node data
  neutral o := (∃ path, o = .pathExists path) ∨ ∃ seconds, o = .sleep seconds
  granted
    | .openFile _ _, r => r = .ok ()
    | _, _ => False
  refused
    | .openFile _ _, r => r = .error (.osError (some EACCES))
    | _, _ => False
  acquire_free := by
    rintro _ d r d' ⟨mode, rfl⟩ hd h
    obtain ⟨rfl, rfl⟩ := (open_free hd).1 h
    exact ⟨rfl, rfl⟩
  acquire_held := by
    rintro _ d r d' ⟨mode, rfl⟩ hd h
    obtain ⟨rfl, rfl⟩ := (open_held hd).1 h
    exact ⟨rfl, rfl, fun t ht => (open_held ht).2 ⟨rfl, rfl⟩⟩
  release_free := by
    rintro _ d r d' rfl rfl
    rfl
  use_lock := by
    rintro _ d r d' (⟨timeout, rfl⟩ | rfl | ⟨data, rfl | rfl⟩) h
    · obtain ⟨rfl, -⟩ := h
      rfl
    · obtain ⟨es, hes⟩ := reader.reads h.1
      exact fifoRun_locked hes
    · obtain ⟨fault, send, -, rfl⟩ := h
      rfl
    · obtain ⟨fault, send, -, rfl⟩ := h
      rfl
  neutral_idle := by
    rintro _ d r d' (⟨path, rfl⟩ | ⟨seconds, rfl⟩) h
    · obtain ⟨rfl, rfl⟩ := h
      exact ⟨rfl, fun t => ⟨rfl, rfl⟩⟩
    · exact ⟨h, fun t => rfl⟩
  env_lock := by
    rintro d d' ⟨data, rfl⟩
    exact prussApiCb_locked d.dev data

/-! ## The requests -/

/-- A well-formed request for the channel. -/
inductive OnChannel (limit : DigitLimit) (chan : Channel) : List Str → Prop where
  | getMsg {port : Str} : int limit 10 port = .ok chan.port →
    OnChannel limit chan ["GETMSG".toList, chan.name, port]
  | sendString {port w : Str} {ws : List Str} : int limit 10 port = .ok chan.port →
    OnChannel limit chan ("SENDMSG".toList :: ['s'] :: chan.name :: port :: w :: ws)
  | sendRaw {port w : Str} {ws : List Str} {n : Int} : int limit 10 port = .ok chan.port →
    int limit 10 w = .ok n →
    OnChannel limit chan ("SENDMSG".toList :: ['r'] :: chan.name :: port :: w :: ws)
  | eventWait {port : Str} : int limit 10 port = .ok chan.port →
    OnChannel limit chan ["EVENTWAIT".toList, chan.name, port]
  | eventWaitFor {port w : Str} {timeout : Int} : int limit 10 port = .ok chan.port →
    int limit 10 w = .ok timeout → OnChannel limit chan ["EVENTWAIT".toList, chan.name, port, w]

/-! ## The device is taken once -/

section Outside

variable (reader : LineReader φ) {setup : Setup} {chan : Channel}

theorem finished_exceptOSError (e : PyExc) : Finished (exceptOSError e) := by
  cases e with
  | osError errno => cases errno <;> trivial
  | _ => trivial

/-- A `with` block takes the device, uses it and gives it back. -/
theorem outside_withOpen {α : Type} {node : Str} {mode : OpenMode} {body : Py α}
    (hbody : Uses (openLock reader node).uses body) :
    Outside (openLock reader node) (.raise (.osError (some EACCES))) (withOpen node mode body) := by
  refine .acquire ⟨mode, rfl⟩ ?_ ?_
  · rintro _ rfl
    rfl
  · rintro _ rfl
    refine inside_tryCatch_bind hbody (fun a => ?_) fun e => ?_
    · exact .release rfl fun _ => trivial
    · exact .release rfl fun _ => trivial

/-- A handler that is refused the device returns `-EACCES`. -/
theorem outside_onDevice {α : Type} {node : Str} {await : Py Bool} {mode : OpenMode} {body : Py α}
    {resp : α → Resp} (hawait : Uses (openLock reader node).neutral await)
    (hbody : Uses (openLock reader node).uses body) :
    Outside (openLock reader node) (.ret (.int (-EACCES)))
      (onDevice node await mode body resp) := by
  refine outside_bind hawait fun there => ?_
  cases there with
  | false => exact .done trivial
  | true =>
    have hopen : Outside (openLock reader node) _
        (withOpen node mode body >>= fun a => .ret (resp a)) :=
      (outside_withOpen reader hbody).bind fun a => trivial
    exact hopen.tryCatch finished_exceptOSError

theorem outside_serve (hchan : chan.name ∈ setup.paths.rpmsgChannels) {cmd : List Str}
    (hcmd : OnChannel setup.maxDigits chan cmd) :
    Outside (openLock reader chan.devnode) (.ret (.int (-EACCES))) (serve setup cmd) := by
  have hexists : Uses (openLock reader chan.devnode).neutral (pathExists chan.devnode) :=
    ⟨.inl ⟨_, rfl⟩, fun _ => trivial⟩
  have hawait : Uses (openLock reader chan.devnode).neutral (awaitDevnode chan.devnode 3) :=
    uses_awaitDevnode (.inl ⟨_, rfl⟩) (fun _ => .inr ⟨_, rfl⟩) 3
  have hselect (timeout : Option Int) :
      (openLock reader chan.devnode).uses (.select chan.devnode timeout) := .inl ⟨_, rfl⟩
  have hwrite (data : Bytes) : Uses (openLock reader chan.devnode).uses (write chan.devnode data) :=
    ⟨.inr (.inr ⟨_, .inl rfl⟩), uses_check⟩
  have htext (data : Bytes) :
      Uses (openLock reader chan.devnode).uses (writeText chan.devnode data) :=
    uses_writeText (.inr (.inr ⟨_, .inl rfl⟩)) (.inr (.inr ⟨_, .inr rfl⟩))
  have hwait (timeout : Option Int) : Uses (openLock reader chan.devnode).uses (do
      let ready ← selectTimeout setup chan.devnode timeout
      return if timeout = none then Resp.int 0 else if ready then .int 0 else .int (-ETIME)) :=
    uses_bind (uses_selectTimeout hselect _ _) fun _ => trivial
  cases hcmd with
  | getMsg hport =>
    rw [serve_getMsg, getMsg_onDevice hchan rfl (getMsgArgs_ok hport _)]
    exact outside_onDevice reader hexists (uses_getMsgLoop hselect (.inr (.inl rfl)) _ _)
  | sendString hport =>
    rw [serve_sendMsg, sendString_onDevice hchan (by simp) (sendMsgArgs_string hport _ _ _)]
    exact outside_onDevice reader hawait (htext _)
  | sendRaw hport hw =>
    rw [serve_sendMsg, sendRaw_onDevice hchan (by simp) (sendMsgArgs_raw hport _ hw _)]
    exact outside_onDevice reader hawait (uses_bind (uses_packI _) hwrite)
  | eventWait hport =>
    rw [serve_eventWait, eventWait_onDevice hchan (.inl rfl) (eventWaitArgs_none hport _)]
    exact outside_onDevice reader hexists (hwait _)
  | eventWaitFor hport hw =>
    rw [serve_eventWait, eventWait_onDevice hchan (.inr rfl) (eventWaitArgs_some hport _ hw)]
    exact outside_onDevice reader hexists (hwait _)

theorem outside_handle (hchan : chan.name ∈ setup.paths.rpmsgChannels) {stream : Bytes}
    {cmd : List Str} (hstream : cmdOf stream = some cmd)
    (hcmd : OnChannel setup.maxDigits chan cmd) :
    Outside (openLock reader chan.devnode) (.ret (encode (showInt (-EACCES))))
      (handle setup stream) := by
  rw [handle_of_cmdOf hstream]
  have hreply (resp : Resp) : Finished (.ret (encode resp.toStr) : Py Bytes) := trivial
  exact (outside_serve reader hchan hcmd).bind hreply

end Outside

/-! ## A client that waits for an event -/

/-- A file object that takes every message for a line. -/
def messageReader : LineReader Unit where
  opened := ()
  readline x r y := ∃ ret, prussApiRead x.1 false false 8192 none = some ret ∧ y.1 = ret.dev ∧
    r = if ret.ret < 0 then .error (.osError (some (-ret.ret)))
      else match decode ret.stored with
        | some line => .ok line
        | none => .error .unicodeDecodeError
  reads := by
    rintro x r y ⟨ret, hret, hy, -⟩
    rw [hy]
    exact ⟨_, .cons (.read hret) (.nil _)⟩

/-- The channel of core `1`. -/
def apiChan : Channel := ⟨"pruss_api_pru".toList, 31⟩

/-- `EVENTWAIT pruss_api_pru 31`. -/
def waitWords : List Str := ["EVENTWAIT".toList, apiChan.name, showInt 31]

/-- `SENDMSG s pruss_api_pru 31 hi`. -/
def sendWords : List Str := ["SENDMSG".toList, ['s'], apiChan.name, showInt 31, ['h', 'i']]

/-- The device just probed. -/
def SharedDevice.probed : SharedDevice Unit := ⟨.probed, ()⟩

/-- A message of one byte has arrived. -/
def SharedDevice.ready : SharedDevice Unit := { SharedDevice.probed with
  dev := (prussApiCb PrussApiDev.probed [0]).dev }


theorem apiChan_mem : apiChan.name ∈ (configured [] 1000 10 .default).paths.rpmsgChannels := by
  decide

/-- The daemon takes the port. -/
theorem int_port (limit : DigitLimit) : int limit 10 (showInt 31) = .ok apiChan.port :=
  int_showInt limit (by decide)

/-- The stream of a request. -/
def waitStream : Bytes := encode (unwords waitWords) ++ [10]

/-- The stream of a request. -/
def sendStream : Bytes := encode (unwords sendWords) ++ [10]

theorem cmdOf_waitStream : cmdOf waitStream = some waitWords := cmdOf_unwords (by decide)

theorem cmdOf_sendStream : cmdOf sendStream = some sendWords := cmdOf_unwords (by decide)

/-- What the waiting request does. -/
theorem handle_waitStream : handle (configured [] 1000 10 .default) waitStream = (do
    let resp ← onDevice apiChan.devnode (pathExists apiChan.devnode) .r
      (do
        let ready ← selectTimeout (configured [] 1000 10 .default) apiChan.devnode none
        return if (none : Option Int) = none then .int 0
          else if ready then .int 0 else .int (-ETIME))
      id
    return encode resp.toStr) := by
  rw [handle_of_cmdOf cmdOf_waitStream]
  unfold waitWords
  rw [serve_eventWait,
    eventWait_onDevice apiChan_mem (.inl rfl) (eventWaitArgs_none (int_port _) _)]

/-- What the sending request does. -/
theorem handle_sendStream : handle (configured [] 1000 10 .default) sendStream = (do
    let resp ← onDevice apiChan.devnode (awaitDevnode apiChan.devnode 3) .w
      (writeText apiChan.devnode (encode ['h', 'i', '\n'])) (fun _ => .int 0)
    return encode resp.toStr) := by
  rw [handle_of_cmdOf cmdOf_sendStream]
  unfold sendWords
  rw [serve_sendMsg,
    sendString_onDevice apiChan_mem (by simp) (sendMsgArgs_string (int_port _) _ _ _)]
  rfl

/-- While the first client waits, the second is refused; then a message arrives. -/
theorem crossing : Together (deviceEnv messageReader apiChan.devnode) Arrives
    (handle (configured [] 1000 10 .default) waitStream,
      handle (configured [] 1000 10 .default) sendStream, .probed)
    (.ret (encode (showInt 0)), .ret (encode (showInt (-EACCES))), .ready) := by
  rw [handle_waitStream, handle_sendStream]
  refine .head (.left true _ ⟨by simp, rfl⟩) ?_
  refine .head (.left (.ok ()) _ ((open_free rfl).2 ⟨rfl, rfl⟩)) ?_
  refine .head (.right _ true ⟨by simp, rfl⟩) ?_
  refine .head (.right _ (.error (.osError (some EACCES))) ((open_held rfl).2 ⟨rfl, rfl⟩)) ?_
  refine .head (.env _ _ ⟨[0], rfl⟩) ?_
  refine .head (.left (.ok true) _ ⟨rfl, .inl ⟨by decide, rfl⟩⟩) ?_
  refine .head (.left () _ rfl) ?_
  exact .refl

/-! ## What the sender does alone -/

section Sender

variable {reader : LineReader φ} {node : Str}

/-- Messages that arrive leave the lock alone, and what was sent. -/
theorem arrives_keeps {d d' : SharedDevice φ} (h : ReflTransGen Arrives d d') :
    d'.dev.locked = d.dev.locked ∧ d'.sent = d.sent := by
  induction h with
  | refl => exact ⟨rfl, rfl⟩
  | tail _ hstep ih =>
    obtain ⟨data, rfl⟩ := hstep
    exact ⟨(prussApiCb_locked _ data).trans ih.1, ih.2⟩

/-- A write that fails with `-EACCES` has handed its message to rpmsg. -/
theorem prussApiWrite_sent {buf user : Message} {count : Nat} {fault : Option Nat} {send : Int}
    (h : fopResult (prussApiWrite buf user count fault send).ret =
      .error (.osError (some EACCES))) :
    (prussApiWrite buf user count fault send).sent ≠ none := by
  unfold prussApiWrite at h ⊢
  by_cases hlarge : count > rpmsgBufSize - rpmsgHdrSize
  · rw [if_pos hlarge] at h
    cases h
  · rw [if_neg hlarge] at h ⊢
    cases fault with
    | some k => cases h
    | none =>
      simp only
      split_ifs <;> simp

theorem writeStep_sent {data : Bytes} {d d' : SharedDevice φ}
    (h : WriteStep data d (.error (.osError (some EACCES))) d') : d'.sent ≠ [] := by
  obtain ⟨fault, send, hr, rfl⟩ := h
  have hsent := prussApiWrite_sent hr.symm
  simp [hsent]

theorem writeStep_prefix {data : Bytes} {r : Except PyExc Unit} {d d' : SharedDevice φ}
    (h : WriteStep data d r d') : d.sent <+: d'.sent := by
  obtain ⟨fault, send, -, rfl⟩ := h
  exact List.prefix_append _ _

/-- A message that is not written because of `-EACCES` has been handed to rpmsg, by
one of the attempts. -/
theorem text_alone {data : Bytes} (d : SharedDevice φ) :
    wp (around (deviceEnv reader node) Arrives) (writeText node data)
      (fun out d' => out = .raise (.osError (some EACCES)) → d'.sent ≠ []) d := by
  unfold writeText
  by_cases hdata : data = []
  · rw [if_pos hdata]
    intro hout
    cases hout
  rw [if_neg hdata]
  rintro (e | u) d₁ ⟨m₁, -, hfirst⟩
  · by_cases hfits : data.length ≤ blockSize
    · simp only [if_pos hfits]
      rintro (e' | u) d₂ ⟨m₂, hm₂, hagain⟩ hout
      · cases hout
        exact writeStep_sent hagain
      · cases hout
        -- the first attempt handed it to rpmsg, and nothing takes it back
        intro hnil
        have hsent := writeStep_prefix hagain
        rw [hnil, List.prefix_nil, (arrives_keeps hm₂).2] at hsent
        exact writeStep_sent hfirst hsent
    · simp only [if_neg hfits]
      intro hout
      cases hout
      exact writeStep_sent hfirst
  · intro hout
    cases hout

/-- **A `SENDMSG` that finds the device free is answered `-EACCES` only after it has
handed its message to rpmsg.** -/
theorem send_alone (data : Bytes) {d : SharedDevice φ} (hd : d.dev.locked = false) :
    wp (around (deviceEnv reader node) Arrives)
      (do
        let resp ← onDevice node (awaitDevnode node 3) .w (writeText node data) (fun _ => .int 0)
        return encode resp.toStr)
      (fun out d' => out = .ret (encode (showInt (-EACCES))) → d'.sent ≠ []) d := by
  rintro _ d₁ ⟨m₁, hm₁, rfl, rfl⟩
  rw [decide_eq_true rfl]
  rintro r d₂ ⟨m₂, hm₂, hopen⟩
  have hfree : m₂.dev.locked = false :=
    (arrives_keeps hm₂).1.trans ((arrives_keeps hm₁).1.trans hd)
  obtain ⟨rfl, rfl⟩ := (open_free hfree).1 hopen
  show wp _ ((((((writeText node data).tryCatch fun e => do close node; .raise e) >>= fun a => do
    close node; return a) >>= fun _ => .ret (.int 0)).tryCatch exceptOSError) >>= fun resp =>
      .ret (encode resp.toStr)) _ _
  rw [wp_bind, wp_tryCatch, wp_bind, wp_bind, wp_tryCatch]
  refine wp_mono (fun out d₃ hout => ?_) (text_alone _)
  cases out with
  | ret u =>
    rintro _ d₄ ⟨m₄, -, -⟩ hreply
    have hzero : (0 : Int) = -EACCES := showInt_inj.1 (encode_injective (Outcome.ret.inj hreply))
    cases hzero
  | raise e =>
    rintro _ d₄ ⟨m₄, hm₄, rfl⟩
    cases e with
    | osError errno =>
      cases errno with
      | none => exact fun hreply => by cases hreply
      | some k =>
        intro hreply
        have hint := showInt_inj.1 (encode_injective (Outcome.ret.inj hreply))
        obtain rfl : k = EACCES := by omega
        show m₄.sent ≠ []
        rw [(arrives_keeps hm₄).2]
        exact hout rfl
    | _ => exact fun hreply => by cases hreply
  | spin => exact fun hreply => by cases hreply

/-- No call takes back what was sent. -/
theorem deviceEnv_sent {o : OsOp} {r : OsRes o} {d d' : SharedDevice φ}
    (h : deviceEnv reader node o d r d') : d.sent <+: d'.sent := by
  cases o with
  | pathExists p => exact h.2 ▸ List.prefix_rfl
  | sleep seconds => exact h ▸ List.prefix_rfl
  | openFile p mode =>
    simp only [deviceEnv] at h
    split_ifs at h <;> exact h.2 ▸ List.prefix_rfl
  | select p timeout => exact h.1 ▸ List.prefix_rfl
  | readline p => exact h.2.2 ▸ List.prefix_rfl
  | write p data => exact writeStep_prefix h
  | writeAgain p data => exact writeStep_prefix h
  | close p => exact h ▸ List.prefix_rfl
  | _ => exact h.elim

theorem alone_sent {x y : Py Bytes × SharedDevice φ}
    (h : Alone (deviceEnv reader node) Arrives x y) : x.2.sent <+: y.2.sent := by
  induction h with
  | refl => exact List.prefix_rfl
  | tail _ hstep ih =>
    refine ih.trans ?_
    cases hstep with
    | call r hr => exact deviceEnv_sent hr
    | env p hs =>
      obtain ⟨data, rfl⟩ := hs
      exact List.prefix_rfl

end Sender

theorem sent_of_refused {d d' : SharedDevice Unit} (hd : d.dev.locked = false)
    (h : Alone (deviceEnv messageReader apiChan.devnode) Arrives
      (handle (configured [] 1000 10 .default) sendStream, d)
      (.ret (encode (showInt (-EACCES))), d')) :
    d'.sent ≠ [] := by
  rw [handle_sendStream] at h
  obtain ⟨m, hexec, henv⟩ := h.exec
  rw [(arrives_keeps henv).2]
  exact (wp_iff_exec _).1 (send_alone _ hd) _ _ hexec rfl

theorem waitStream_outside : Outside (openLock messageReader apiChan.devnode)
    (.ret (encode (showInt (-EACCES)))) (handle (configured [] 1000 10 .default) waitStream) :=
  outside_handle messageReader apiChan_mem cmdOf_waitStream (.eventWait (int_port _))

/-! ## Two requests -/

/-- What is left of `p` and `q` when `p` has been served, and then `q`. -/
abbrev InTurn (reader : LineReader φ) (node : Str) :
    Py Bytes → Py Bytes → SharedDevice φ → Py Bytes → Py Bytes → SharedDevice φ → Prop :=
  Serial (deviceEnv reader node) Arrives

/-- What is left of `p` and `q` when `p` has been served as if it were alone, and
`q` was answered `-EACCES` while `p` had the device open. -/
abbrev SecondRefused (reader : LineReader φ) (node : Str) :
    Py Bytes → Py Bytes → SharedDevice φ → Py Bytes → Py Bytes → SharedDevice φ → Prop :=
  TurnedAway (openLock reader node) (.ret (encode (showInt (-EACCES))))

/-- **Two requests for one channel, however their steps are interleaved with each
other and with the messages that arrive, have been served one after the other; or
one of them was refused with `-EACCES` while the other had the device open, and
the other has been served as if it were alone.** -/
theorem serial_or_refused (reader : LineReader φ) {setup : Setup} {chan : Channel}
    (hchan : chan.name ∈ setup.paths.rpmsgChannels) {stream₁ stream₂ : Bytes}
    {cmd₁ cmd₂ : List Str} (hstream₁ : cmdOf stream₁ = some cmd₁)
    (hcmd₁ : OnChannel setup.maxDigits chan cmd₁)
    (hstream₂ : cmdOf stream₂ = some cmd₂)
    (hcmd₂ : OnChannel setup.maxDigits chan cmd₂)
    {d d' : SharedDevice φ} {p₁ p₂ : Py Bytes}
    (hrun : Together (deviceEnv reader chan.devnode) Arrives
      (handle setup stream₁, handle setup stream₂, d) (p₁, p₂, d')) :
    (InTurn reader chan.devnode (handle setup stream₁) (handle setup stream₂) d p₁ p₂ d' ∨
        InTurn reader chan.devnode (handle setup stream₂) (handle setup stream₁) d p₂ p₁ d') ∨
      (SecondRefused reader chan.devnode (handle setup stream₁) (handle setup stream₂) d p₁ p₂ d' ∨
        SecondRefused reader chan.devnode (handle setup stream₂) (handle setup stream₁) d p₂ p₁
          d') :=
  serial_or_turnedAway trivial (outside_handle reader hchan hstream₁ hcmd₁)
    (outside_handle reader hchan hstream₂ hcmd₂) hrun

/-- The run in which the second client comes while the first one waits. -/
theorem serial_or_refused_waiting :
    (InTurn messageReader apiChan.devnode (handle (configured [] 1000 10 .default) waitStream)
          (handle (configured [] 1000 10 .default) sendStream) .probed
          (.ret (encode (showInt 0))) (.ret (encode (showInt (-EACCES)))) .ready ∨
        InTurn messageReader apiChan.devnode (handle (configured [] 1000 10 .default) sendStream)
          (handle (configured [] 1000 10 .default) waitStream) .probed
          (.ret (encode (showInt (-EACCES)))) (.ret (encode (showInt 0))) .ready) ∨
      (SecondRefused messageReader apiChan.devnode
          (handle (configured [] 1000 10 .default) waitStream)
          (handle (configured [] 1000 10 .default) sendStream) .probed
          (.ret (encode (showInt 0))) (.ret (encode (showInt (-EACCES)))) .ready ∨
        SecondRefused messageReader apiChan.devnode
          (handle (configured [] 1000 10 .default) sendStream)
          (handle (configured [] 1000 10 .default) waitStream) .probed
          (.ret (encode (showInt (-EACCES)))) (.ret (encode (showInt 0))) .ready) :=
  serial_or_refused messageReader apiChan_mem cmdOf_waitStream (.eventWait (int_port _))
    cmdOf_sendStream (.sendString (int_port _)) crossing

/-- **The waiting client makes the other client's `SENDMSG` fail**: it is answered
`-EACCES` and nothing is sent, which happens in neither order of the two. -/
theorem eventWait_refuses_sendMsg :
    cmdOf waitStream = some waitWords ∧ OnChannel .default apiChan waitWords ∧
      cmdOf sendStream = some sendWords ∧ OnChannel .default apiChan sendWords ∧
      apiChan.name ∈ (configured [] 1000 10 .default).paths.rpmsgChannels ∧
      ∃ d', Together (deviceEnv messageReader apiChan.devnode) Arrives
          (handle (configured [] 1000 10 .default) waitStream,
            handle (configured [] 1000 10 .default) sendStream, .probed)
          (.ret (encode (showInt 0)), .ret (encode (showInt (-EACCES))), d') ∧
        ¬ InTurn messageReader apiChan.devnode (handle (configured [] 1000 10 .default) waitStream)
          (handle (configured [] 1000 10 .default) sendStream) .probed
          (.ret (encode (showInt 0))) (.ret (encode (showInt (-EACCES)))) d' ∧
        ¬ InTurn messageReader apiChan.devnode (handle (configured [] 1000 10 .default) sendStream)
          (handle (configured [] 1000 10 .default) waitStream) .probed
          (.ret (encode (showInt (-EACCES)))) (.ret (encode (showInt 0))) d' := by
  refine ⟨cmdOf_waitStream, .eventWait (int_port _), cmdOf_sendStream,
    .sendString (int_port _), apiChan_mem, .ready, crossing, ?_, ?_⟩
  · rintro ⟨m, hwait, hsend⟩
    exact sent_of_refused (waitStream_outside.alone_ret rfl hwait) hsend rfl
  · rintro ⟨m, hsend, hwait⟩
    exact sent_of_refused rfl hsend (List.prefix_nil.1 (alone_sent hwait))

end System
