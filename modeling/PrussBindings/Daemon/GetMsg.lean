import PrussBindings.Daemon.Handlers
import PrussBindings.Lib.TextFile

/-!
# Reading the pending messages

`get_msg` reads lines from the device as long as `select` says that it is
readable.  The device gives one message to a `read`; a line may take several
messages, and a message may hold several lines.

* `Pending`, `queueEnv` — the device as a queue of messages, and the file object
  that the handler reads it through.
* `exec_getMsg_iff` — what the handler returns is what `Collects` collects.
* `ReturnsAll` — the reply is the messages, none is left, and there was no wait.
* `getMsg_returnsAll_iff` — **which queues that is true of.**
* `unfinished_line_waits` — a message without a newline is waited on for good.
-/

namespace Daemon

open Effect Errno Text TextFile

/-- The device of a channel: the file object of the handler that has it open, and
the messages nobody has read. -/
structure Pending where
  file : TextFile
  queue : List Bytes

/-- What the system answers to `get_msg` while no message comes in: `select` is
true if a message is there, and a `read` of an empty queue does not return.  The
handler makes no other calls. -/
def queueEnv (node : Str) : Env OsRes Pending
  | .pathExists p, d, r, d' => r = decide (p = node) ∧ d' = d
  | .openFile p _, d, r, d' => p = node ∧ r = .ok () ∧ d' = { d with file := .opened }
  | .select _ timeout, d, r, d' =>
    d' = d ∧ (d.queue ≠ [] ∧ r = .ok true ∨ timeout ≠ none ∧ d.queue = [] ∧ r = .ok false)
  | .readline _, d, r, d' =>
    match d.file.readline d.queue with
    | .blocks => False
    | .undecodable queue => r = .error .unicodeDecodeError ∧ d' = { d with queue := queue }
    | .line s file queue => r = .ok s ∧ d' = ⟨file, queue⟩
  | .close _, d, _, d' => d' = d
  | _, _, _, _ => False

section GetMsg

variable {node : Str} {d d' : Pending} {text : Str}

/-- A line that is returned. -/
theorem queueEnv_readline_ok {path s : Str} :
    queueEnv node (.readline path) d (.ok s) d' ↔
      d.file.readline d.queue = .line s d'.file d'.queue := by
  obtain ⟨file', queue'⟩ := d'
  simp only [queueEnv]
  split
  next hread => simp [hread]
  next hread => simp [hread]
  next s₀ file₀ queue₀ hread =>
    rw [hread]
    constructor
    · rintro ⟨hs, hd⟩
      cases hs
      cases hd
      rfl
    · intro h
      cases h
      exact ⟨rfl, rfl⟩

theorem exec_check_iff {α : Type} {res : Except PyExc α} {a : α} :
    Exec (queueEnv node) (check res) d (.ret a) d' ↔ res = .ok a ∧ d' = d := by
  cases res with
  | ok b => simp [eq_comm]
  | error e => simp

theorem exec_select_iff {ready : Bool} :
    Exec (queueEnv node) (select node (some 0)) d (.ret ready) d' ↔
      d' = d ∧ ready = decide (d.queue ≠ []) := by
  simp only [select, exec_call_iff, exec_check_iff, queueEnv]
  by_cases hqueue : d.queue = []
  · simp [hqueue, eq_comm, and_comm]
  · simp [hqueue, eq_comm, and_comm]

theorem exec_readline_iff {s : Str} :
    Exec (queueEnv node) (readline node) d (.ret s) d' ↔
      d.file.readline d.queue = .line s d'.file d'.queue := by
  simp only [readline, exec_call_iff, exec_check_iff]
  constructor
  · rintro ⟨_, _, hread, rfl, rfl⟩
    exact queueEnv_readline_ok.1 hread
  · intro hread
    exact ⟨.ok s, d', queueEnv_readline_ok.2 hread, rfl, rfl⟩

/-- The loop ends where no message is there. -/
theorem exec_getMsgLoop_nil {file : TextFile} {lines : Nat} {reply : Str} :
    Exec (queueEnv node) (getMsgLoop node lines reply) ⟨file, []⟩ (.ret text) d' ↔
      d'.queue = [] ∧ ∃ n t, n ≤ lines ∧ Collects file [] n t d'.file ∧ text = reply ++ t := by
  have hloop : Exec (queueEnv node) (getMsgLoop node lines reply) ⟨file, []⟩ (.ret text) d' ↔
      text = reply ∧ d' = ⟨file, []⟩ := by
    cases lines with
    | zero => simp [getMsgLoop, exec_bind_ret_iff, exec_select_iff]
    | succ lines => simp [getMsgLoop, exec_bind_ret_iff, exec_select_iff]
  rw [hloop]
  constructor
  · rintro ⟨rfl, rfl⟩
    exact ⟨rfl, 0, [], Nat.zero_le _, .nil _, (List.append_nil _).symm⟩
  · rintro ⟨hqueue, n, t, -, hcollects, rfl⟩
    obtain ⟨-, rfl, hfile⟩ := collects_nil_iff.1 hcollects
    obtain ⟨file', queue'⟩ := d'
    cases hqueue
    cases hfile
    exact ⟨List.append_nil _, rfl⟩

/-- **The loop collects lines**, as long as messages are there. -/
theorem exec_getMsgLoop_iff {lines : Nat} {reply : Str} :
    Exec (queueEnv node) (getMsgLoop node lines reply) d (.ret text) d' ↔
      d'.queue = [] ∧
        ∃ n t, n ≤ lines ∧ Collects d.file d.queue n t d'.file ∧ text = reply ++ t := by
  obtain ⟨file, queue⟩ := d
  induction lines generalizing file queue reply with
  | zero =>
    cases queue with
    | nil => exact exec_getMsgLoop_nil
    | cons m queue => simp [getMsgLoop, exec_bind_ret_iff, exec_select_iff, collects_cons_iff]
  | succ lines ih =>
    cases queue with
    | nil => exact exec_getMsgLoop_nil
    | cons m queue =>
      have hstep : Exec (queueEnv node) (getMsgLoop node (lines + 1) reply) ⟨file, m :: queue⟩
          (.ret text) d' ↔ ∃ s d₁, file.readline (m :: queue) = .line s d₁.file d₁.queue ∧
            Exec (queueEnv node) (getMsgLoop node lines (reply ++ s)) d₁ (.ret text) d' := by
        simp [getMsgLoop, exec_bind_ret_iff, exec_select_iff, exec_readline_iff]
      rw [hstep]
      constructor
      · rintro ⟨s, ⟨file₁, queue₁⟩, hline, hrest⟩
        obtain ⟨hqueue, n, t, hn, hcollects, rfl⟩ := (ih _ _).1 hrest
        exact ⟨hqueue, n + 1, s ++ t, by omega, .line hline hcollects, List.append_assoc ..⟩
      · rintro ⟨hqueue, n, u, hn, hcollects, rfl⟩
        obtain ⟨k, s, t, file₁, queue₁, rfl, rfl, hline, hrest⟩ := collects_cons_iff.1 hcollects
        refine ⟨s, ⟨file₁, queue₁⟩, hline, (ih _ _).2 ⟨hqueue, k, t, by omega, hrest, ?_⟩⟩
        exact (List.append_assoc ..).symm

end GetMsg

section Requests

variable {setup : Setup} {chan : Channel} {cmd : List Str} {d d' : Pending} {text : Str}

/-- A `with` block on the device returns what its body returns. -/
theorem exec_withOpen_iff {α : Type} {node : Str} {body : Py α} {a : α} :
    Exec (queueEnv node) (withOpen node .r body) d (.ret a) d' ↔
      Exec (queueEnv node) body { d with file := .opened } (.ret a) d' := by
  have hopen {u : Unit} {d₁ : Pending} : Exec (queueEnv node) (openFile node .r) d (.ret u) d₁ ↔
      d₁ = { d with file := .opened } := by
    simp [openFile, exec_check_iff, queueEnv]
  have hclose {u : Unit} {d₁ d₂ : Pending} :
      Exec (queueEnv node) (close node) d₁ (.ret u) d₂ ↔ d₂ = d₁ := by
    simp [close, queueEnv]
  have hreraise (e : PyExc) (d₁ d₂ : Pending) (b : α) :
      ¬ Exec (queueEnv node) (close node >>= fun _ => .raise e) d₁ (.ret b) d₂ := by
    simp [exec_bind_ret_iff]
  unfold withOpen
  simp only [exec_bind_ret_iff, hopen, exists_eq_left]
  constructor
  · rintro ⟨_, b, d₁, hbody, _, d₂, hd₂, hret⟩
    rw [exec_tryCatch_ret_iff fun e t => hreraise e t d₁ b] at hbody
    obtain ⟨hb, rfl⟩ := exec_ret_iff.1 hret
    cases hb
    rwa [hclose.1 hd₂]
  · intro hbody
    refine ⟨(), a, d', ?_, (), d', hclose.2 rfl, .ret a d'⟩
    rwa [exec_tryCatch_ret_iff fun e t => hreraise e t d' a]

/-- **What `get_msg` returns.** -/
theorem exec_getMsg_iff (hchan : chan.name ∈ setup.paths.rpmsgChannels) (hlen : cmd.length = 3)
    (hargs : getMsgArgs setup cmd = .ok chan) :
    Exec (queueEnv chan.devnode) (getMsg setup cmd) d (.ret (.str text)) d' ↔
      d'.queue = [] ∧ ∃ n t, n ≤ setup.maxLines ∧ Collects .opened d.queue n t d'.file ∧
        text = if t = [] then ['\n'] else t := by
  have hexists {ready : Bool} {d₁ : Pending} :
      Exec (queueEnv chan.devnode) (pathExists chan.devnode) d (.ret ready) d₁ ↔
        ready = true ∧ d₁ = d := by
    simp [pathExists, queueEnv, eq_comm]
  have hcaught (e : PyExc) (d₁ : Pending) :
      ¬ Exec (queueEnv chan.devnode) (exceptOSError e) d₁ (.ret (.str text)) d' := by
    cases e with
    | osError errno => cases errno <;> simp [exceptOSError]
    | _ => simp [exceptOSError]
  rw [getMsg_onDevice hchan hlen hargs, onDevice, exec_bind_ret_iff]
  have hblock : Exec (queueEnv chan.devnode) (catchOSError do
        let reply ← withOpen chan.devnode .r (getMsgLoop chan.devnode setup.maxLines [])
        return if reply = [] then .str ['\n'] else .str reply) d (.ret (.str text)) d' ↔
      ∃ reply, Exec (queueEnv chan.devnode) (getMsgLoop chan.devnode setup.maxLines [])
        { d with file := .opened } (.ret reply) d' ∧
          text = if reply = [] then ['\n'] else reply := by
    rw [catchOSError, exec_tryCatch_ret_iff hcaught, exec_bind_ret_iff]
    have hresp (reply : Str) (d₁ : Pending) : Exec (queueEnv chan.devnode)
        (return if reply = [] then .str ['\n'] else .str reply : Py Resp) d₁ (.ret (.str text)) d' ↔
          d₁ = d' ∧ text = if reply = [] then ['\n'] else reply := by
      rw [Prog.pure_eq, exec_ret_iff]
      split_ifs <;> simp [and_comm, eq_comm]
    simp only [exec_withOpen_iff, hresp]
    exact exists_congr fun reply => by simp
  constructor
  · rintro ⟨ready, d₁, hready, hrest⟩
    obtain ⟨rfl, rfl⟩ := hexists.1 hready
    obtain ⟨reply, hloop, rfl⟩ := hblock.1 hrest
    obtain ⟨hqueue, n, t, hn, hcollects, ht⟩ := exec_getMsgLoop_iff.1 hloop
    rw [List.nil_append] at ht
    exact ⟨hqueue, n, t, hn, hcollects, by rw [ht]⟩
  · rintro ⟨hqueue, n, t, hn, hcollects, rfl⟩
    refine ⟨true, d, hexists.2 ⟨rfl, rfl⟩, hblock.2 ⟨t, exec_getMsgLoop_iff.2 ?_, rfl⟩⟩
    exact ⟨hqueue, n, t, hn, hcollects, rfl⟩

/-! ## Which messages are returned -/

/-- `get_msg` ends, without waiting for a message, and returns the text of the
pending ones, or a newline if there are none; and no message is left.  The loop is
given as many turns as it likes. -/
def ReturnsAll (setup : Setup) (cmd : List Str) (chan : Channel) (d : Pending) : Prop :=
  ∃ text file enough, encode text = (if d.queue = [] then [10] else d.queue.flatten) ∧
    ∀ lines, enough ≤ lines →
      Exec (queueEnv chan.devnode) (getMsg { setup with maxLines := lines } cmd) d
        (.ret (.str text)) ⟨file, []⟩

/-- There is something in the messages, and no carriage return; the bytes between
two ends of the file are text; and the last message is empty, or has one newline,
at its end. -/
structure Deliverable (queue : List Bytes) : Prop where
  something : queue.flatten ≠ []
  noReturn : 13 ∉ queue.flatten
  text : ∀ run ∈ fileRuns queue, decode run.flatten ≠ none
  ends : EndsLine queue

/-- What `get_msg` returns, whatever the bound on the turns of its loop. -/
theorem returnsAll_iff (hchan : chan.name ∈ setup.paths.rpmsgChannels) (hlen : cmd.length = 3)
    (hargs : getMsgArgs setup cmd = .ok chan) :
    ReturnsAll setup cmd chan d ↔ ∃ n t file, Collects .opened d.queue n t file ∧
      encode (if t = [] then ['\n'] else t) = if d.queue = [] then [10] else d.queue.flatten := by
  constructor
  · rintro ⟨text, file, enough, htext, hexec⟩
    obtain ⟨-, n, t, -, hcollects, rfl⟩ :=
      (@exec_getMsg_iff { setup with maxLines := enough } chan cmd d _ _ hchan hlen hargs).1
        (hexec enough le_rfl)
    exact ⟨n, t, file, hcollects, htext⟩
  · rintro ⟨n, t, file, hcollects, htext⟩
    refine ⟨_, file, n, htext, fun lines hlines => ?_⟩
    exact (@exec_getMsg_iff { setup with maxLines := lines } chan cmd d _ _ hchan hlen hargs).2
      ⟨rfl, n, t, hlines, hcollects, rfl⟩

/-- A text that is not empty is not made into a newline. -/
theorem collects_ne_nil {queue : List Bytes} {n : Nat} {t : Str} {file : TextFile}
    (hqueue : queue ≠ []) (hcollects : Collects .opened queue n t file)
    (ht : encode (if t = [] then ['\n'] else t) = queue.flatten) : t ≠ [] := by
  rintro rfl
  have hten : queue.flatten = [10] := ht.symm
  have hcr : ∀ m ∈ queue, 13 ∉ m := fun m hm h => by
    have hmem : 13 ∈ queue.flatten := List.mem_flatten.2 ⟨m, hm, h⟩
    rw [hten] at hmem
    exact absurd hmem (by decide)
  have hall := hcollects.conserves clean_opened hcr
  rw [hcollects.content_eq_nil clean_opened hcr hqueue, hten] at hall
  cases hall

/-- **The queues that are collected whole.** -/
theorem collects_iff_deliverable (queue : List Bytes) :
    (∃ n t file, Collects .opened queue n t file ∧
      encode (if t = [] then ['\n'] else t) = if queue = [] then [10] else queue.flatten) ↔
      queue = [] ∨ Deliverable queue := by
  by_cases hqueue : queue = []
  · rw [hqueue]
    exact iff_of_true ⟨0, [], .opened, .nil _, rfl⟩ (.inl rfl)
  · rw [if_neg hqueue, or_iff_right hqueue]
    constructor
    · rintro ⟨n, t, file, hcollects, htext⟩
      have ht := collects_ne_nil hqueue hcollects htext
      rw [if_neg ht] at htext
      obtain ⟨hdelivers, hcr⟩ := (collects_iff_delivers hqueue).1 ⟨n, t, file, hcollects, htext⟩
      obtain ⟨hruns, hends⟩ := (delivers_iff isFront_nil).1 hdelivers
      refine ⟨fun hnil => ht ?_, hcr, (runsDecode_nil_iff _).1 hruns, hends⟩
      exact encode_injective (htext.trans hnil)
    · intro h
      have hdelivers := (delivers_iff isFront_nil).2 ⟨(runsDecode_nil_iff _).2 h.text, h.ends⟩
      obtain ⟨n, t, file, hcollects, htext⟩ :=
        (collects_iff_delivers hqueue).2 ⟨hdelivers, h.noReturn⟩
      have ht : t ≠ [] := by
        rintro rfl
        exact h.something htext.symm
      exact ⟨n, t, file, hcollects, by rw [if_neg ht, htext]⟩

/-- **`get_msg` returns all pending messages, without a wait, exactly if there are
none, or they are deliverable.** -/
theorem getMsg_returnsAll_iff (hchan : chan.name ∈ setup.paths.rpmsgChannels)
    (hlen : cmd.length = 3) (hargs : getMsgArgs setup cmd = .ok chan) :
    ReturnsAll setup cmd chan d ↔ d.queue = [] ∨ Deliverable d.queue :=
  (returnsAll_iff hchan hlen hargs).trans (collects_iff_deliverable d.queue)

end Requests

/-- The channel of core `1`. -/
def exampleChannel : Channel := ⟨"pruss_api_pru".toList, 31⟩

/-- `GETMSG pruss_api_pru 31`. -/
def getMsgWords : List Str := ["GETMSG".toList, "pruss_api_pru".toList, "31".toList]

/-- A daemon that has the channel in its list. -/
def exampleSetup : Setup := ⟨⟨[exampleChannel.name], []⟩, 1000, 10, .default⟩

/-- A message of one line, one of two lines, and one that goes on in the next. -/
def fourMessages : List Bytes :=
  [encode "hi\n".toList, encode "one\ntwo\n".toList, encode "th".toList, encode "ree\n".toList]

theorem getMsg_returnsAll_iff_lines :
    ReturnsAll exampleSetup getMsgWords exampleChannel ⟨.opened, fourMessages⟩ ↔
      fourMessages = [] ∨ Deliverable fourMessages :=
  getMsg_returnsAll_iff (d := ⟨.opened, fourMessages⟩) (by decide) rfl (by decide)

/-- A message without a newline is waited on for good. -/
theorem unfinished_line_waits :
    ¬ ReturnsAll exampleSetup getMsgWords exampleChannel ⟨.opened, [encode "hi".toList]⟩ := by
  rw [returnsAll_iff (by decide) rfl (by decide)]
  rintro ⟨n, t, file, hcollects, -⟩
  obtain ⟨-, s, -, file', queue', -, -, hline, -⟩ := collects_cons_iff.1 hcollects
  have hwaits : TextFile.opened.readline [encode "hi".toList] = .blocks := by rfl
  rw [hwaits] at hline
  cases hline

end Daemon
