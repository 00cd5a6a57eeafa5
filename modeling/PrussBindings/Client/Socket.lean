import PrussBindings.Client.Sendcmd
import PrussBindings.Lib.Transition

/-!
# The socket of the C++ client

`class Socket` of `cpp-bindings/pruss.cpp`, call by call: `sendcmd` connects,
sends the command, takes one `recv` worth of the reply, and disconnects.

* `SockOp`, `Recv` — the system calls and what `recv` can return.
* `Socket.conn`, `Socket.disconn`, `Socket.sendcmd` — the methods.
* `Results`, `sockEnv`, `run_sendcmd_connected`, `run_sendcmd_refused` — what comes
  of a call, for any results of the system calls.
* `sendcmd_line_iff` — **which requests are sent as one line**, and with every
  index inside `buf`.
* `sendcmd_reply_iff` — **which replies are returned whole**, and with the zero
  inside `rec`.
* `noLeak_iff` — **when a sequence of calls loses no descriptor.**

A byte that is stored outside of `buf` or `rec` is taken to hit nothing of the
object: what C leaves open is what is sent, or returned, and that is `none`.
-/

namespace Client

open Effect Errno Text Transition

/-! ## System calls -/

/-- What `recv` returns for a buffer of `sizeof(rec)`: `-1`, or some bytes. -/
inductive Recv where
  | error
  | data (bytes : Bytes) (fits : bytes.length ≤ recBufSize)

/-- The number `recv` returns. -/
def Recv.nbytes : Recv → Int
  | .error => -1
  | .data bytes _ => bytes.length

/-- The string made of what was received: `rec[nbytes] = '\0'` and
`std::string(rec)`.  `none` is a zero that is stored outside of `rec`. -/
def Recv.string : Recv → Option Bytes
  | .error => none
  | .data bytes _ => replyString bytes

/-- A system call of the client. -/
inductive SockOp where
  | socket
  | connect (fd : Int)
  | send (fd : Int) (payload : Option Bytes)
  | recv (fd : Int)
  | close (fd : Int)

/-- What a system call returns; `socket` a descriptor, or `-1`, which is `none`. -/
abbrev SockRes : SockOp → Type
  | .socket => Option Nat
  | .connect _ => Int
  | .send _ _ => Int
  | .recv _ => Recv
  | .close _ => Int

/-- Code that makes system calls. -/
abbrev Sock (α : Type) := Prog SockRes Empty α

/-- `socket(AF_UNIX, SOCK_STREAM, 0)`. -/
def sysSocket : Sock (Option Nat) := .call .socket fun fd : Option Nat => .ret fd

/-- `connect(fd, ..)`. -/
def sysConnect (fd : Int) : Sock Int := .call (.connect fd) fun ret : Int => .ret ret

/-- `send(fd, buf, strlen(buf), 0)`. -/
def sysSend (fd : Int) (payload : Option Bytes) : Sock Int :=
  .call (.send fd payload) fun ret : Int => .ret ret

/-- `recv(fd, rec, sizeof(rec), 0)`. -/
def sysRecv (fd : Int) : Sock Recv := .call (.recv fd) fun ret : Recv => .ret ret

/-- `close(fd)`. -/
def sysClose (fd : Int) : Sock Int := .call (.close fd) fun ret : Int => .ret ret

/-! ## The methods -/

/-- `class Socket`. -/
structure Socket where
  fd : Int

/-- `Socket::Socket`. -/
def Socket.construct : Socket := ⟨-1⟩

namespace Socket

/-- A descriptor as the number it is. -/
def descriptor : Option Nat → Int
  | some d => d
  | none => -1

/-- `Socket::conn`. -/
def conn (_self : Socket) : Sock (Bool × Socket) := do
  let fd ← sysSocket
  let ret ← sysConnect (descriptor fd)
  return (decide (ret ≠ -1), ⟨descriptor fd⟩)

/-- `Socket::disconn`. -/
def disconn (self : Socket) : Sock (Bool × Socket) :=
  if self.fd = -1 then return (false, self)
  else do
    let _ ← sysClose self.fd
    return (true, ⟨-1⟩)

/-- `Socket::sendcmd`; `stack` is what the memory of `buf` holds. -/
def sendcmd (stack : Stack) (command : Bytes) (self : Socket) : Sock (Option Bytes × Socket) := do
  let (connected, self) ← self.conn
  if !connected then return (some (toStr ECONNREFUSED), self)
  let _ ← sysSend self.fd (sentBytes stack command)
  let reply ← sysRecv self.fd
  let (_, self) ← self.disconn
  return (reply.string, self)

end Socket

/-! ## What comes of a call -/

/-- The results of the system calls during a call of `sendcmd`. -/
structure Results where
  socket : Option Nat
  connect : Int
  send : Int
  recv : Recv

/-- What the system has seen: the descriptors it gave out, those it was asked to
close, and what was passed to `send`. -/
structure Seen where
  opened : List Nat
  closed : List Int
  sent : List (Int × Option Bytes)

/-- Nothing has been asked of the system. -/
def Seen.nothing : Seen := ⟨[], [], []⟩

/-- A system that returns the given results. -/
def sockEnv (r : Results) : (o : SockOp) → Seen → SockRes o × Seen
  | .socket, t => (r.socket, { t with opened := t.opened ++ r.socket.toList })
  | .connect _, t => (r.connect, t)
  | .send fd payload, t => (r.send, { t with sent := t.sent ++ [(fd, payload)] })
  | .recv _, t => (r.recv, t)
  | .close fd, t => (0, { t with closed := t.closed ++ [fd] })

/-- A call on which `connect` fails: the descriptor stays in the object. -/
theorem run_sendcmd_refused {r : Results} (h : r.connect = -1) (stack : Stack) (command : Bytes)
    (self : Socket) (t : Seen) :
    run (sockEnv r) (self.sendcmd stack command) t =
      (.ret (some (toStr ECONNREFUSED), ⟨Socket.descriptor r.socket⟩),
        { t with opened := t.opened ++ r.socket.toList }) := by
  simp [Socket.sendcmd, Socket.conn, sysSocket, sysConnect, sockEnv, h]

/-- A call that gets through: one `send`, one `recv`, and the descriptor is
closed. -/
theorem run_sendcmd_connected {r : Results} (h : r.connect ≠ -1) (stack : Stack) (command : Bytes)
    (self : Socket) (t : Seen) :
    run (sockEnv r) (self.sendcmd stack command) t =
      (.ret (r.recv.string, ⟨-1⟩),
        { opened := t.opened ++ r.socket.toList
          closed := t.closed ++ r.socket.toList.map (↑)
          sent := t.sent ++ [(Socket.descriptor r.socket, sentBytes stack command)] }) := by
  cases hsocket : r.socket with
  | none =>
    simp [Socket.sendcmd, Socket.conn, Socket.disconn, sysSocket, sysConnect, sysSend, sysRecv,
      sockEnv, Socket.descriptor, h, hsocket]
  | some d =>
    have hd : (d : Int) ≠ -1 := by omega
    simp [Socket.sendcmd, Socket.conn, Socket.disconn, sysSocket, sysConnect, sysSend, sysRecv,
      sysClose, sockEnv, Socket.descriptor, h, hsocket, hd]

/-! ## The request -/

/-- The indices of `buf` that are written when the command comes out `len` bytes
long: by `snprintf`, with its zero, and by `buf[nbytes]`. -/
def storeIndices (len : Nat) : List Nat := List.range (min len (cmdBufSize - 1) + 1) ++ [len]

/-- The indices `strlen` reads: up to the first zero, or beyond the end. -/
def scanIndices (buf : Bytes) : List Nat := List.range ((cstr buf).length + 1)

/-- Every index that is written or read is one of `buf`. -/
structure InBounds (stack : Stack) (text : Bytes) : Prop where
  store : ∀ i ∈ storeIndices text.length, i < cmdBufSize
  scan : ∀ buf, fillBuf stack text = some buf → ∀ i ∈ scanIndices buf, i < cmdBufSize

/-- What is asked of a call that sends a request: it keeps to its buffer and
sends the command as one line, or it sends nothing and returns an error number. -/
structure SentAsLine (stack : Stack) (command : Bytes) (r : Results)
    (res : Outcome Empty (Option Bytes × Socket) × Seen) : Prop where
  inBounds : r.connect ≠ -1 → ∃ text, expand 37 (cstr command) = some text ∧ InBounds stack text
  sent : (∃ fd, res.2.sent = [(fd, some (command ++ [10]))]) ∨
    res.2.sent = [] ∧ ∃ e : Int, 0 < e ∧ ∃ self, res.1 = .ret (some (toStr e), self)

theorem storeIndices_lt {len : Nat} :
    (∀ i ∈ storeIndices len, i < cmdBufSize) ↔ len < cmdBufSize := by
  constructor
  · exact fun h => h len (by simp [storeIndices])
  · intro h i hi
    rcases List.mem_append.1 hi with hi | hi
    · have hlt := List.mem_range.1 hi
      omega
    · rwa [List.mem_singleton.1 hi]

theorem length_fillBuf {stack : Stack} {text buf : Bytes} (h : fillBuf stack text = some buf) :
    buf.length = cmdBufSize := by
  have hstack := stack.size
  simp only [fillBuf] at h
  split_ifs at h with hlen
  cases h
  simp only [List.length_set, List.length_append, List.length_cons, List.length_drop,
    List.length_take, hstack]
  omega

theorem scanIndices_lt {buf : Bytes} (hbuf : buf.length = cmdBufSize) :
    (∀ i ∈ scanIndices buf, i < cmdBufSize) ↔ 0 ∈ buf := by
  have hle := length_cstr_le buf
  constructor
  · intro h
    by_contra hzero
    have hlast := h (cstr buf).length (List.mem_range.2 (Nat.lt_succ_self _))
    rw [cstr_eq_self hzero] at hlast
    omega
  · intro hzero i hi
    have hlt := List.mem_range.1 hi
    have hne : (cstr buf).length ≠ buf.length := by
      intro heq
      have hself : cstr buf = buf := (List.takeWhile_prefix _).eq_of_length heq
      rw [← hself] at hzero
      simpa using List.mem_takeWhile_imp hzero
    omega

/-- **`sentBytes` is defined exactly where every index is inside.** -/
theorem sentBytes_ne_none_iff (stack : Stack) (command : Bytes) :
    sentBytes stack command ≠ none ↔
      ∃ text, expand 37 (cstr command) = some text ∧ InBounds stack text := by
  unfold sentBytes
  cases hexpand : expand 37 (cstr command) with
  | none => simp
  | some text =>
    cases hfill : fillBuf stack text with
    | none =>
      refine iff_of_false (by simp [hfill]) ?_
      rintro ⟨text', htext, hin⟩
      cases htext
      have hlen := storeIndices_lt.1 hin.store
      simp [fillBuf, hlen] at hfill
    | some buf =>
      have hscan := scanIndices_lt (length_fillBuf hfill)
      have hstore : text.length < cmdBufSize := by
        by_contra hlen
        simp [fillBuf, hlen] at hfill
      simp only [Option.bind_eq_bind, Option.bind_some, hfill]
      by_cases hzero : 0 ∈ buf
      · rw [if_pos hzero]
        refine iff_of_true (by simp) ⟨text, rfl, storeIndices_lt.2 hstore, ?_⟩
        intro buf' hbuf'
        rw [← Option.some_inj.1 (hfill.symm.trans hbuf')]
        exact hscan.2 hzero
      · rw [if_neg hzero]
        refine iff_of_false (by simp) ?_
        rintro ⟨text', htext, hin⟩
        cases htext
        exact hzero (hscan.1 (hin.scan buf hfill))

/-- The command is no format, and the byte after its newline happens to be a
zero. -/
def Framed (stack : Stack) (command : Bytes) : Prop :=
  37 ∉ command ∧ stack.bytes[command.length + 1]? = some 0

theorem cstr_drop_eq_nil {b : Bytes} {n : Nat} (hzero : 0 ∈ b.drop n) :
    cstr (b.drop n) = [] ↔ b[n]? = some 0 := by
  rw [← List.head?_drop]
  cases hdrop : b.drop n with
  | nil =>
    rw [hdrop] at hzero
    simp at hzero
  | cons x rest => by_cases hx : x = 0 <;> simp [cstr, hx]

/-- **The command is sent as a line exactly if it is framed.** -/
theorem sentBytes_line_iff (stack : Stack) {command : Bytes} (hzero : 0 ∉ command)
    (hnl : 10 ∉ command) :
    sentBytes stack command = some (command ++ [10]) ↔ Framed stack command := by
  cases hexpand : expand 37 command with
  | none =>
    rw [sentBytes_eq_none stack hzero hexpand]
    refine iff_of_false (by simp) fun h => ?_
    rw [expand_eq_self h.1] at hexpand
    cases hexpand
  | some text =>
    have hsize : cmdBufSize = stack.bytes.length := stack.size.symm
    rw [sentBytes_eq stack hzero hexpand]
    constructor
    · intro h
      split_ifs at h with hfits
      -- the command has no newline, so its expansion ends where the command does
      obtain ⟨rfl, -, hrest⟩ :=
        (List.append_cons_inj_of_notMem hnl List.not_mem_nil).1 (Option.some_inj.1 h).symm
      exact ⟨expand_eq_self_iff.1 hexpand, (cstr_drop_eq_nil hfits.2).1 hrest.symm⟩
    · rintro ⟨hpct, hbyte⟩
      rw [expand_eq_self hpct] at hexpand
      cases hexpand
      have hlt : command.length + 1 < stack.bytes.length := (List.getElem?_eq_some_iff.1 hbyte).1
      have hmem : 0 ∈ stack.bytes.drop (command.length + 1) := by
        refine List.mem_of_getElem? (i := 0) ?_
        rwa [List.getElem?_drop]
      rw [if_pos ⟨hsize ▸ hlt, hmem⟩, (cstr_drop_eq_nil hmem).2 hbyte]

/-- **A request is sent as one line, or refused, exactly if the connection is
refused, or the command has no `%`, at most `2046` bytes, and the byte of the
stack that follows its newline is zero.** -/
theorem sendcmd_line_iff (stack : Stack) {command : Bytes} (hzero : 0 ∉ command)
    (hnl : 10 ∉ command) (r : Results) (self : Socket) :
    SentAsLine stack command r (run (sockEnv r) (self.sendcmd stack command) .nothing) ↔
      r.connect = -1 ∨ Framed stack command := by
  by_cases hconn : r.connect = -1
  · rw [run_sendcmd_refused hconn]
    refine iff_of_true ⟨fun h => absurd hconn h, .inr ⟨rfl, ECONNREFUSED, by decide, _, rfl⟩⟩ ?_
    exact .inl hconn
  · rw [run_sendcmd_connected hconn, or_iff_right hconn, ← sentBytes_line_iff stack hzero hnl]
    constructor
    · rintro ⟨-, ⟨fd, hsent⟩ | ⟨hsent, -⟩⟩
      · exact (Prod.ext_iff.1 (List.singleton_inj.1 hsent)).2
      · cases hsent
    · intro hsent
      refine ⟨fun _ => (sentBytes_ne_none_iff stack command).1 (by simp [hsent]), ?_⟩
      exact .inl ⟨Socket.descriptor r.socket, by simp [hsent, Seen.nothing]⟩

/-- A call on which everything goes well, answered by `0`. -/
def Results.ok : Results := ⟨some 3, 0, 8, .data [48] (by decide)⟩

theorem sendcmd_line_iff_state :
    SentAsLine .zeros (lit "STATE_0") .ok
        (run (sockEnv .ok) (Socket.construct.sendcmd .zeros (lit "STATE_0")) .nothing) ↔
      Results.ok.connect = -1 ∨ Framed .zeros (lit "STATE_0") :=
  sendcmd_line_iff .zeros (by decide) (by decide) .ok .construct

/-- A file name with a `%%` in it loses one of them on the way. -/
theorem percent_not_sent :
    ¬ SentAsLine .zeros (lit "LOAD_0 /opt/50%%") .ok
      (run (sockEnv .ok) (Socket.construct.sendcmd .zeros (lit "LOAD_0 /opt/50%%")) .nothing) := by
  have hconn : Results.ok.connect ≠ -1 := by decide
  rw [run_sendcmd_connected hconn]
  rintro ⟨-, ⟨fd, hsent⟩ | ⟨hsent, -⟩⟩
  · have hline := (Prod.ext_iff.1 (List.singleton_inj.1 hsent)).2
    rw [sentBytes_line_iff .zeros (by decide) (by decide)] at hline
    exact absurd hline.1 (by decide)
  · cases hsent

/-! ## The reply -/

/-- What the first `recv` gets of a stream that arrives in these pieces; after
the last of them the peer has closed the connection. -/
def firstRecv : List Recv → Recv
  | [] => .data [] (Nat.zero_le _)
  | r :: _ => r

/-- The bytes of all the pieces, unless a `recv` fails. -/
def wholeReply : List Recv → Option Bytes
  | [] => some []
  | .error :: _ => none
  | .data bytes _ :: rs => (wholeReply rs).map (bytes ++ ·)

/-- A piece of a reply: some bytes, and no zero among them. -/
def Recv.Piece : Recv → Prop
  | .error => True
  | .data bytes _ => bytes ≠ [] ∧ 0 ∉ bytes

/-- What is asked of a call that receives a reply: the zero is stored inside
`rec`, and the reply is returned whole. -/
structure Reassembled (rs : List Recv) (res : Outcome Empty (Option Bytes × Socket) × Seen) :
    Prop where
  index : 0 ≤ (firstRecv rs).nbytes ∧ (firstRecv rs).nbytes < recBufSize
  returned : ∀ reply, wholeReply rs = some reply → ∃ self, res.1 = .ret (some reply, self)

/-- The first `recv` gets some bytes, or the end of the stream, and room is left
for the zero. -/
def LeavesRoom (rs : List Recv) : Prop :=
  ∃ bytes fits, firstRecv rs = .data bytes fits ∧ bytes.length < recBufSize

/-- The index of the zero is inside `rec` exactly if `recv` did not fail and left
room for it. -/
theorem nbytes_inside_iff (rs : List Recv) :
    (0 ≤ (firstRecv rs).nbytes ∧ (firstRecv rs).nbytes < recBufSize) ↔ LeavesRoom rs := by
  unfold LeavesRoom
  cases firstRecv rs with
  | error => simp [Recv.nbytes]
  | data bytes fits =>
    constructor
    · rintro ⟨-, hlt⟩
      exact ⟨bytes, fits, rfl, Int.ofNat_lt.1 hlt⟩
    · rintro ⟨_, _, heq, hlt⟩
      cases heq
      exact ⟨Int.natCast_nonneg _, Int.ofNat_lt.2 hlt⟩

theorem wholeReply_ne_nil {r : Recv} {rs : List Recv} {reply : Bytes} (hr : r.Piece)
    (h : wholeReply (r :: rs) = some reply) : reply ≠ [] := by
  cases r with
  | error => cases h
  | data bytes fits =>
    obtain ⟨rest, -, rfl⟩ := Option.map_eq_some_iff.1 h
    simp [hr.1]

/-- The string is the first piece only: a reply of more pieces is not returned. -/
theorem length_le_one_of_string {rs : List Recv} {reply : Bytes} (hpieces : ∀ r ∈ rs, r.Piece)
    (hwhole : wholeReply rs = some reply) (hstring : (firstRecv rs).string = some reply) :
    rs.length ≤ 1 := by
  match rs, hpieces with
  | [], _ => exact Nat.zero_le _
  | [_], _ => exact Nat.le_refl _
  | .error :: _ :: _, _ => cases hstring
  | .data bytes fits :: r₂ :: rs, hpieces =>
    simp only [List.forall_mem_cons] at hpieces
    obtain ⟨rest, hrest, rfl⟩ := Option.map_eq_some_iff.1 hwhole
    have hne := wholeReply_ne_nil hpieces.2.1 hrest
    have hcstr : bytes ++ rest = cstr bytes := replyString_eq hstring
    rw [cstr_eq_self hpieces.1.2] at hcstr
    exact absurd (List.append_right_eq_self.1 hcstr) hne

/-- A reply of one piece is the string, if there is room for its zero. -/
theorem string_of_length_le_one {rs : List Recv} {reply : Bytes} (hpieces : ∀ r ∈ rs, r.Piece)
    (hroom : LeavesRoom rs) (hlen : rs.length ≤ 1) (hwhole : wholeReply rs = some reply) :
    (firstRecv rs).string = some reply := by
  obtain ⟨bytes, fits, hfirst, hlt⟩ := hroom
  have hbytes : reply = bytes ∧ 0 ∉ bytes := by
    match rs with
    | [] =>
      cases hfirst
      cases hwhole
      exact ⟨rfl, List.not_mem_nil⟩
    | [_] =>
      cases hfirst
      have heq : bytes = reply := by simpa [wholeReply] using hwhole
      exact ⟨heq.symm, (hpieces _ (List.mem_singleton.2 rfl)).2⟩
  rw [hfirst, hbytes.1, Recv.string, replyString, if_pos hlt, cstr_eq_self hbytes.2]

/-- **A reply is returned whole exactly if it comes in one piece that leaves room
for the zero.** -/
theorem sendcmd_reply_iff {rs : List Recv} (hpieces : ∀ r ∈ rs, r.Piece) {r : Results}
    (hconn : r.connect ≠ -1) (hrecv : r.recv = firstRecv rs) (stack : Stack) (command : Bytes)
    (self : Socket) (t : Seen) :
    Reassembled rs (run (sockEnv r) (self.sendcmd stack command) t) ↔
      LeavesRoom rs ∧ (wholeReply rs ≠ none → rs.length ≤ 1) := by
  rw [run_sendcmd_connected hconn, hrecv]
  constructor
  · rintro ⟨hindex, hreturned⟩
    refine ⟨(nbytes_inside_iff rs).1 hindex, fun hwhole => ?_⟩
    obtain ⟨reply, hreply⟩ := Option.ne_none_iff_exists'.1 hwhole
    obtain ⟨self', hret⟩ := hreturned reply hreply
    have hstring : (firstRecv rs).string = some reply := congrArg Prod.fst (Outcome.ret.inj hret)
    exact length_le_one_of_string hpieces hreply hstring
  · rintro ⟨hroom, hone⟩
    refine ⟨(nbytes_inside_iff rs).2 hroom, fun reply hreply => ⟨⟨-1⟩, ?_⟩⟩
    rw [string_of_length_le_one hpieces hroom (hone (by simp [hreply])) hreply]

/-- A reply of two bytes, in two pieces. -/
def twoPieces : List Recv := [.data [45] (by decide), .data [50] (by decide)]

theorem sendcmd_reply_iff_zero :
    Reassembled [.data [48] (by decide)]
        (run (sockEnv .ok) (Socket.construct.sendcmd .zeros (lit "STATE_0")) .nothing) ↔
      LeavesRoom [.data [48] (by decide)] ∧
        (wholeReply [.data [48] (by decide)] ≠ none → [Recv.data [48] (by decide)].length ≤ 1) :=
  sendcmd_reply_iff (by simp [Recv.Piece]) (by decide) rfl .zeros (lit "STATE_0") .construct .nothing

/-- The second piece of a reply is lost. -/
theorem second_piece_lost :
    ¬ Reassembled twoPieces (run (sockEnv { Results.ok with recv := firstRecv twoPieces })
      (Socket.construct.sendcmd .zeros (lit "STATE_0")) .nothing) := by
  rw [run_sendcmd_connected (by decide)]
  rintro ⟨-, hreturned⟩
  obtain ⟨self, hret⟩ := hreturned [45, 50] rfl
  have hstring : (firstRecv twoPieces).string = some [45, 50] :=
    congrArg Prod.fst (Outcome.ret.inj hret)
  exact absurd hstring (by decide)

/-! ## The descriptor -/

/-- The object and what the system has seen. -/
abbrev Connection := Socket × Seen

/-- A call of `sendcmd` with what it finds on the stack, and the results of its
system calls. -/
structure SendcmdCall where
  stack : Stack
  command : Bytes
  results : Results

/-- One call returns. -/
def SendcmdStep (x : Connection) (c : SendcmdCall) (y : Connection) : Prop :=
  ∃ reply, run (sockEnv c.results) (x.1.sendcmd c.stack c.command) x.2 = (.ret (reply, y.1), y.2)

/-- No descriptor is kept, and each one that was given out has been closed as
often as it was given out. -/
structure NoLeak (x : Connection) : Prop where
  fd : x.1.fd = -1
  closed : ∀ d : Nat, x.2.closed.count (d : Int) = x.2.opened.count d

/-- A descriptor was given out, and then `connect` failed on it. -/
def Results.ConnectFails (r : Results) : Prop := r.connect = -1 ∧ r.socket ≠ none

theorem SendcmdStep.unique {x y z : Connection} {c : SendcmdCall} (h : SendcmdStep x c y)
    (h' : SendcmdStep x c z) : y = z := by
  obtain ⟨reply, hy⟩ := h
  obtain ⟨reply', hz⟩ := h'
  rw [hy] at hz
  obtain ⟨hret, hseen⟩ := Prod.ext_iff.1 hz
  exact Prod.ext (Prod.ext_iff.1 (Outcome.ret.inj hret)).2 hseen

/-- What one call leaves behind. -/
theorem SendcmdStep.after {x y : Connection} {c : SendcmdCall} (h : SendcmdStep x c y) :
    c.results.connect = -1 ∧ y.1.fd = Socket.descriptor c.results.socket ∧ y.2.closed = x.2.closed ∧
        y.2.opened = x.2.opened ++ c.results.socket.toList ∨
      c.results.connect ≠ -1 ∧ y.1.fd = -1 ∧
        y.2.closed = x.2.closed ++ c.results.socket.toList.map (↑) ∧
        y.2.opened = x.2.opened ++ c.results.socket.toList := by
  obtain ⟨self', seen'⟩ := y
  obtain ⟨reply, h⟩ := h
  by_cases hconn : c.results.connect = -1
  · rw [run_sendcmd_refused hconn] at h
    cases h
    exact .inl ⟨hconn, rfl, rfl, rfl⟩
  · rw [run_sendcmd_connected hconn] at h
    cases h
    exact .inr ⟨hconn, rfl, rfl, rfl⟩

/-- **One call loses a descriptor exactly if `connect` fails on one.** -/
theorem SendcmdStep.keeps_iff {x y : Connection} {c : SendcmdCall} (hx : NoLeak x)
    (h : SendcmdStep x c y) : NoLeak y ↔ ¬ c.results.ConnectFails := by
  obtain ⟨hconn, hfd, hclosed, hopened⟩ | ⟨hconn, hfd, hclosed, hopened⟩ := h.after
  · cases hsocket : c.results.socket with
    | none =>
      rw [hsocket] at hfd hopened
      refine iff_of_true ⟨hfd, fun d => ?_⟩ fun hfails => hfails.2 hsocket
      rw [hclosed, hopened]
      simpa using hx.closed d
    | some d =>
      rw [hsocket] at hfd
      refine iff_of_false (fun hy => ?_) (not_not.2 ⟨hconn, by simp [hsocket]⟩)
      have hd : (d : Int) = -1 := hfd.symm.trans hy.fd
      omega
  · refine iff_of_true ⟨hfd, fun d => ?_⟩ fun hfails => hconn hfails.1
    rw [hclosed, hopened, List.count_append, List.count_append, hx.closed d,
      List.count_map_of_injective _ _ Nat.cast_injective]

/-- **No descriptor is lost in a sequence of calls, on any of its prefixes,
exactly if `connect` never fails on a descriptor that `socket` gave out.** -/
theorem noLeak_iff {calls : List SendcmdCall} {x : Connection}
    (hrun : Run SendcmdStep (.construct, .nothing) calls x) :
    Throughout SendcmdStep (.construct, .nothing) calls (fun _ y => NoLeak y) ↔
      ∀ c ∈ calls, ¬ c.results.ConnectFails := by
  constructor
  · intro hall
    have hguard : Run (Guarded (fun _ c => ¬ c.results.ConnectFails) SendcmdStep) _ calls x :=
      hrun.guard hall fun past y c z hy hstep hz => (hstep.keeps_iff hy).1 hz
    exact hguard.labels (fun _ _ _ (_ : True) hstep => hstep.1) fun _ _ => trivial
  · rintro hok past rest y rfl hpast
    have hstep (y : Connection) (c : SendcmdCall) (z : Connection) (hc : ¬ c.results.ConnectFails)
        (hy : NoLeak y) (hyz : SendcmdStep y c z) : NoLeak z := (hyz.keeps_iff hy).2 hc
    refine hpast.invariant_of hstep (fun c hc => ?_) ⟨rfl, fun _ => rfl⟩
    exact hok c (List.mem_append_left _ hc)

/-- A call while the daemon is down, on a descriptor that `socket` gives out. -/
def daemonDown (fd : Nat) : SendcmdCall :=
  ⟨.zeros, lit "STATE_0", { Results.ok with socket := some fd, connect := -1 }⟩

/-- A call that gets no descriptor. -/
def noDescriptor : SendcmdCall :=
  ⟨.zeros, lit "STATE_0", { Results.ok with socket := none, connect := -1 }⟩

/-- A call that gets through. -/
def stateCall : SendcmdCall := ⟨.zeros, lit "STATE_0", .ok⟩

/-- Three calls, and for the second one there is no descriptor. -/
theorem noLeak_iff_stateCalls :
    Throughout SendcmdStep (.construct, .nothing) [stateCall, noDescriptor, stateCall]
        (fun _ y => NoLeak y) ↔
      ∀ c ∈ [stateCall, noDescriptor, stateCall], ¬ c.results.ConnectFails := by
  have hfirst : SendcmdStep (.construct, .nothing) stateCall
      (⟨-1⟩, ⟨[3], [3], [(3, sentBytes .zeros (lit "STATE_0"))]⟩) :=
    ⟨_, run_sendcmd_connected (by decide) ..⟩
  have hsecond : SendcmdStep (⟨-1⟩, ⟨[3], [3], [(3, sentBytes .zeros (lit "STATE_0"))]⟩)
      noDescriptor
      (⟨-1⟩, ⟨[3], [3], [(3, sentBytes .zeros (lit "STATE_0"))]⟩) :=
    ⟨_, run_sendcmd_refused rfl ..⟩
  have hthird : SendcmdStep (⟨-1⟩, ⟨[3], [3], [(3, sentBytes .zeros (lit "STATE_0"))]⟩) stateCall
      (⟨-1⟩, ⟨[3, 3], [3, 3], [(3, sentBytes .zeros (lit "STATE_0")),
        (3, sentBytes .zeros (lit "STATE_0"))]⟩) :=
    ⟨_, run_sendcmd_connected (by decide) ..⟩
  exact noLeak_iff (.cons hfirst (.cons hsecond (.cons hthird (.nil _))))

/-- A client that polls while the daemon is down keeps a descriptor with every
call. -/
theorem refused_call_leaks :
    ∃ x, Run SendcmdStep (.construct, .nothing) [daemonDown 3, daemonDown 4] x ∧
      ¬ NoLeak x ∧ x.1.fd = 4 ∧ x.2.opened = [3, 4] ∧ x.2.closed = [] := by
  have hfirst : SendcmdStep (.construct, .nothing) (daemonDown 3) (⟨3⟩, ⟨[3], [], []⟩) :=
    ⟨_, run_sendcmd_refused rfl ..⟩
  have hsecond : SendcmdStep (⟨3⟩, ⟨[3], [], []⟩) (daemonDown 4) (⟨4⟩, ⟨[3, 4], [], []⟩) :=
    ⟨_, run_sendcmd_refused rfl ..⟩
  have hlost : ¬ NoLeak (⟨4⟩, ⟨[3, 4], [], []⟩) := fun h => absurd h.fd (by decide)
  exact ⟨_, .cons hfirst (.cons hsecond (.nil _)), hlost, rfl, rfl, rfl⟩

end Client
