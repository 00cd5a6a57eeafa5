import PrussBindings.Client.Pru
import PrussBindings.Lib.CString

/-!
# What `sendcmd` puts on the socket, and what it takes off it

`Socket::sendcmd` passes the command to `snprintf` as a format, writes a newline
where `snprintf` put the terminating zero, and sends up to the next zero of a
buffer that nothing has initialised.

* `Stack` — what the memory of the buffer holds before.
* `fillBuf`, `sentBytes` — the buffer, and the bytes that are sent, as far as C
  says what they are.
* `sentBytes_eq` — **what is sent is the expanded command, a newline, and what
  was there before up to its first zero**, provided there is a zero and the
  command leaves room for it.
* `sentBytes_prefix` — how the bytes begin, for any command.
* `replyString` — the string made of a reply.
-/

namespace Client

open Text

/-- `sizeof(buf)`. -/
def cmdBufSize : Nat := 2048

/-- The memory in which `buf` lies. -/
structure Stack where
  bytes : Bytes
  size : bytes.length = cmdBufSize

/-- A buffer whose memory was all zeros. -/
def Stack.zeros : Stack := ⟨List.replicate 2048 0, List.length_replicate ..⟩

/-- `snprintf(buf, sizeof(buf), ..)` with the output `text`, and
`buf[nbytes] = '\n'`, where `nbytes` is the length the output would have without
the limit.  `none` is a write behind the end of the buffer. -/
def fillBuf (stack : Stack) (text : Bytes) : Option Bytes :=
  let printed := text.take (cmdBufSize - 1)
  let buf := printed ++ 0 :: stack.bytes.drop (printed.length + 1)
  if text.length < cmdBufSize then some (buf.set text.length 10) else none

/-- The bytes of `send(this->fd, buf, strlen(buf), 0)`.  `none` is a command that
is a format with arguments, a write behind the end of the buffer, or a buffer
without a zero. -/
def sentBytes (stack : Stack) (command : Bytes) : Option Bytes := do
  let text ← expand 37 (cstr command)
  let buf ← fillBuf stack text
  if 0 ∈ buf then some (cstr buf) else none

/-- The command leaves room for the newline and a zero, and there is a zero. -/
def Fits (stack : Stack) (text : Bytes) : Prop :=
  text.length + 1 < cmdBufSize ∧ 0 ∈ stack.bytes.drop (text.length + 1)

instance (stack : Stack) (text : Bytes) : Decidable (Fits stack text) :=
  inferInstanceAs (Decidable (_ ∧ _))

theorem fillBuf_of_lt (stack : Stack) {text : Bytes} (h : text.length + 1 < cmdBufSize) :
    fillBuf stack text = some (text ++ 10 :: stack.bytes.drop (text.length + 1)) := by
  have htake : text.take (cmdBufSize - 1) = text := List.take_of_length_le (by omega)
  unfold fillBuf
  simp only [htake]
  rw [if_pos (by omega)]
  simp

/-- A command that fills the buffer leaves no zero in it. -/
theorem fillBuf_of_eq (stack : Stack) {text : Bytes} (h : text.length + 1 = cmdBufSize) :
    fillBuf stack text = some (text ++ [10]) := by
  have htake : text.take (cmdBufSize - 1) = text := List.take_of_length_le (by omega)
  have hdrop : stack.bytes.drop (text.length + 1) = [] :=
    List.drop_of_length_le (by rw [stack.size, h])
  unfold fillBuf
  simp only [htake, hdrop]
  rw [if_pos (by omega)]
  simp

theorem fillBuf_of_gt (stack : Stack) {text : Bytes} (h : cmdBufSize < text.length + 1) :
    fillBuf stack text = none := by
  unfold fillBuf
  rw [if_neg (by omega)]

/-- **What `sendcmd` sends.** -/
theorem sentBytes_eq (stack : Stack) {command text : Bytes} (hzero : 0 ∉ command)
    (htext : expand 37 command = some text) :
    sentBytes stack command =
      if Fits stack text then some (text ++ 10 :: cstr (stack.bytes.drop (text.length + 1)))
      else none := by
  have hnone : 0 ∉ text := fun h => hzero (mem_of_expand htext h)
  unfold sentBytes
  rw [cstr_eq_self hzero, htext]
  simp only [Option.bind_eq_bind, Option.bind_some]
  rcases Nat.lt_trichotomy (text.length + 1) cmdBufSize with hlen | hlen | hlen
  · rw [fillBuf_of_lt stack hlen]
    simp only [Option.bind_some]
    by_cases hrest : 0 ∈ stack.bytes.drop (text.length + 1)
    · rw [if_pos (by simp [hrest]), if_pos ⟨hlen, hrest⟩, ← List.singleton_append (l := cstr _),
        ← cstr_append (by decide), cstr_append hnone]
      rfl
    · rw [if_neg (by simp [hnone, hrest]), if_neg fun h => hrest h.2]
  · rw [fillBuf_of_eq stack hlen]
    simp only [Option.bind_some]
    rw [if_neg (by simp [hnone]), if_neg fun h => absurd h.1 (by omega)]
  · rw [fillBuf_of_gt stack hlen, if_neg fun h => absurd h.1 (by omega)]
    rfl

theorem fits_zeros {text : Bytes} (h : text.length + 1 < cmdBufSize) : Fits .zeros text := by
  refine ⟨h, ?_⟩
  show 0 ∈ (List.replicate 2048 0).drop _
  rw [List.drop_replicate, List.mem_replicate]
  have hsize : cmdBufSize = 2048 := rfl
  exact ⟨by omega, rfl⟩

theorem sentBytes_zeros {command : Bytes} (hzero : 0 ∉ command) (hpct : 37 ∉ command)
    (h : command.length + 1 < cmdBufSize) : sentBytes .zeros command = some (command ++ [10]) := by
  have hrest : cstr (Stack.zeros.bytes.drop (command.length + 1)) = [] := by
    show cstr ((List.replicate 2048 0).drop _) = []
    rw [List.drop_replicate]
    cases 2048 - (command.length + 1) <;> rfl
  rw [sentBytes_eq .zeros hzero (expand_eq_self hpct), if_pos (fits_zeros h), hrest]

/-- **What is sent begins as the command does**, up to a `%` or a zero. -/
theorem sentBytes_prefix (stack : Stack) {a b sent : Bytes} (hzero : 0 ∉ a) (hpct : 37 ∉ a)
    (h : sentBytes stack (a ++ b) = some sent) : ∃ rest, sent = a ++ rest := by
  have hbegin {text sent : Bytes} {rest : Bytes}
      (hbuf : fillBuf stack (a ++ text) = some (a ++ text ++ rest))
      (hsent : (do
        let buf ← fillBuf stack (a ++ text)
        if 0 ∈ buf then some (cstr buf) else none) = some sent) : ∃ rest, sent = a ++ rest := by
    rw [hbuf] at hsent
    simp only [Option.bind_eq_bind, Option.bind_some] at hsent
    split_ifs at hsent
    cases hsent
    rw [List.append_assoc, cstr_append hzero]
    exact ⟨_, rfl⟩
  unfold sentBytes at h
  rw [cstr_append hzero, expand_append_left hpct] at h
  cases hexpand : expand 37 (cstr b) with
  | none =>
    rw [hexpand] at h
    cases h
  | some text =>
    rw [hexpand] at h
    simp only [Option.map_some, Option.bind_eq_bind, Option.bind_some] at h
    rcases Nat.lt_trichotomy ((a ++ text).length + 1) cmdBufSize with hlen | hlen | hlen
    · exact hbegin (fillBuf_of_lt stack hlen) h
    · exact hbegin (fillBuf_of_eq stack hlen) h
    · rw [fillBuf_of_gt stack hlen] at h
      cases h

/-- A command in which a `%` asks for an argument is not sent, as far as C says. -/
theorem sentBytes_eq_none (stack : Stack) {command : Bytes} (hzero : 0 ∉ command)
    (htext : expand 37 command = none) : sentBytes stack command = none := by
  unfold sentBytes
  rw [cstr_eq_self hzero, htext]
  rfl

/-! ## Replies -/

/-- `sizeof(rec)`. -/
def recBufSize : Nat := 2048

/-- `rec[nbytes] = '\0'` and `std::string(rec)`.  `none` is a reply that fills
`rec`, whose zero is written behind the end of it. -/
def replyString (reply : Bytes) : Option Bytes :=
  if reply.length < recBufSize then some (cstr reply) else none

theorem replyString_eq {reply s : Bytes} (h : replyString reply = some s) : s = cstr reply := by
  unfold replyString at h
  split_ifs at h
  exact (Option.some_inj.1 h).symm

theorem length_of_replyString {reply s : Bytes} (h : replyString reply = some s) :
    s.length < recBufSize := by
  have hle := length_cstr_le reply
  rw [← replyString_eq h] at hle
  unfold replyString at h
  split_ifs at h
  omega

end Client
