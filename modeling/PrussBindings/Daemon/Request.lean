import PrussBindings.Daemon.Handlers

/-!
# Serving a request

`PRURequestHandler.handle`: one line is read from the connection, stripped,
decoded and split into words, the first word picks a handler, and what the
handler returns is sent back as text.

* `cmds` — the table of the commands.
* `serve`, `handle` — from words to a response, and from the connection's bytes
  to the reply.  A `handle` that raises sends nothing.
* `Served` — the table by families: what a command of each is served by.
* `handle_line` — **a line put together from words is served by those words**.
-/

namespace Daemon

open Effect Errno Text

/-- `cmds`: what each command runs. -/
def cmds (setup : Setup) (cmd : List Str) : List (Str × Py Resp) :=
  [("PROBE_RPROC".toList, modProbe "pru_rproc".toList true),
    ("UNPROBE_RPROC".toList, modProbe "pru_rproc".toList false),
    ("ENABLE_0".toList, sysfsWrite (rprocSysfs "state".toList 0) "start".toList),
    ("ENABLE_1".toList, sysfsWrite (rprocSysfs "state".toList 1) "start".toList),
    ("DISABLE_0".toList, sysfsWrite (rprocSysfs "state".toList 0) "stop".toList),
    ("DISABLE_1".toList, sysfsWrite (rprocSysfs "state".toList 1) "stop".toList),
    ("PAUSE_0".toList, sysfsWrite (rprocDebugfs "single_step".toList 0) (showInt 1)),
    ("PAUSE_1".toList, sysfsWrite (rprocDebugfs "single_step".toList 1) (showInt 1)),
    ("RESUME_0".toList, sysfsWrite (rprocDebugfs "single_step".toList 0) (showInt 0)),
    ("RESUME_1".toList, sysfsWrite (rprocDebugfs "single_step".toList 1) (showInt 0)),
    ("STATE_0".toList, sysfsRead (rprocSysfs "state".toList 0)),
    ("STATE_1".toList, sysfsRead (rprocSysfs "state".toList 1)),
    ("GETREGS_0".toList, sysfsRead (rprocDebugfs "regs".toList 0)),
    ("GETREGS_1".toList, sysfsRead (rprocDebugfs "regs".toList 1)),
    ("LOAD_0".toList, loadFirmware 0 cmd),
    ("LOAD_1".toList, loadFirmware 1 cmd),
    ("GETMSG".toList, getMsg setup cmd),
    ("SENDMSG".toList, sendMsg setup cmd),
    ("EVENTWAIT".toList, eventWait setup cmd),
    ("MEMWRITE_D0".toList, memWrite setup .dram0 cmd),
    ("MEMWRITE_D1".toList, memWrite setup .dram1 cmd),
    ("MEMWRITE_S".toList, memWrite setup .sram cmd),
    ("MEMREAD_D0".toList, memRead setup .dram0 cmd),
    ("MEMREAD_D1".toList, memRead setup .dram1 cmd),
    ("MEMREAD_S".toList, memRead setup .sram cmd)]

/-- The command that reads a memory. -/
def Ram.readCmd : Ram → Str
  | .dram0 => "MEMREAD_D0".toList
  | .dram1 => "MEMREAD_D1".toList
  | .sram => "MEMREAD_S".toList

/-- The command that writes a memory. -/
def Ram.writeCmd : Ram → Str
  | .dram0 => "MEMWRITE_D0".toList
  | .dram1 => "MEMWRITE_D1".toList
  | .sram => "MEMWRITE_S".toList

/-- `cmds[cmd[0]]() if cmd[0] in cmds else -errno.EINVAL`. -/
def serve (setup : Setup) (cmd : List Str) : Py Resp :=
  match index cmd 0 with
  | .error e => .raise e
  | .ok name => ((cmds setup cmd).lookup name).getD (return .int (-EINVAL))

/-- `self.rfile.readline()`: up to the first newline, and with it. -/
def rfileReadline : Bytes → Bytes
  | [] => []
  | b :: bs => if b = 10 then [b] else b :: rfileReadline bs

/-- `cmd`: the words of a request line. -/
def cmdOf (stream : Bytes) : Option (List Str) := (decode (strip (rfileReadline stream))).map words

/-- `PRURequestHandler.handle`: the bytes it writes to the connection. -/
def handle (setup : Setup) (stream : Bytes) : Py Bytes :=
  match cmdOf stream with
  | none => .raise .unicodeDecodeError
  | some cmd => do
    let resp ← serve setup cmd
    return encode resp.toStr

theorem handle_of_cmdOf {stream : Bytes} {cmd : List Str} (hcmd : cmdOf stream = some cmd)
    (setup : Setup) :
    handle setup stream = (do let resp ← serve setup cmd; return encode resp.toStr) := by
  unfold handle
  rw [hcmd]

theorem handle_of_cmdOf_none {stream : Bytes} (hcmd : cmdOf stream = none) (setup : Setup) :
    handle setup stream = .raise .unicodeDecodeError := by
  unfold handle
  rw [hcmd]

/-- The commands the daemon knows. -/
def cmdNames : List Str := (cmds ⟨.initial, 0, 0, .default⟩ []).map Prod.fst

/-- The commands do not depend on the words of the request. -/
theorem map_fst_cmds (setup : Setup) (cmd : List Str) : (cmds setup cmd).map Prod.fst = cmdNames :=
  rfl

/-- **The table, gone through once**: what holds of every entry under its own
name, and of the answer to an unknown command, holds of what is served. -/
theorem serve_cases (setup : Setup) (name : Str) (args : List Str) {P : Py Resp → Prop}
    (hentry : ∀ entry ∈ cmds setup (name :: args), name = entry.1 → P entry.2)
    (hother : name ∉ cmdNames → P (.ret (.int (-EINVAL)))) :
    P (serve setup (name :: args)) := by
  show P (((cmds setup (name :: args)).lookup name).getD (.ret (.int (-EINVAL))))
  cases hl : (cmds setup (name :: args)).lookup name with
  | none =>
    apply hother
    rw [← map_fst_cmds setup (name :: args), List.mem_map]
    rintro ⟨entry, hmem, rfl⟩
    simpa using List.lookup_eq_none_iff.1 hl entry hmem
  | some p =>
    obtain ⟨l, r, heq, -⟩ := List.lookup_eq_some_iff.1 hl
    exact hentry (name, p) (by rw [heq]; simp) rfl

/-- The command that loads the image of a core. -/
def loadName : Fin 2 → Str
  | 0 => "LOAD_0".toList
  | 1 => "LOAD_1".toList

/-- The commands that look at none of their words. -/
def bareCmds : List Str :=
  ["PROBE_RPROC".toList, "UNPROBE_RPROC".toList, "ENABLE_0".toList, "ENABLE_1".toList,
    "DISABLE_0".toList, "DISABLE_1".toList, "PAUSE_0".toList, "PAUSE_1".toList,
    "RESUME_0".toList, "RESUME_1".toList, "STATE_0".toList, "STATE_1".toList,
    "GETREGS_0".toList, "GETREGS_1".toList]

/-- The families of the table: what a request named `name` can be served by. -/
inductive Served (setup : Setup) (cmd : List Str) : Str → Py Resp → Prop where
  | probe {name : Str} (bare : name ∈ bareCmds) (probe : Bool) :
    Served setup cmd name (modProbe "pru_rproc".toList probe)
  | state {name : Str} (bare : name ∈ bareCmds) (number : Fin 2) (val : Str) :
    Served setup cmd name (sysfsWrite (rprocSysfs "state".toList number) val)
  | singleStep {name : Str} (bare : name ∈ bareCmds) (number : Fin 2) (val : Str) :
    Served setup cmd name (sysfsWrite (rprocDebugfs "single_step".toList number) val)
  | attr {name : Str} (bare : name ∈ bareCmds) (path : Str) :
    Served setup cmd name (sysfsRead path)
  | load (number : Fin 2) : Served setup cmd (loadName number) (loadFirmware number cmd)
  | getMsg : Served setup cmd "GETMSG".toList (getMsg setup cmd)
  | sendMsg : Served setup cmd "SENDMSG".toList (sendMsg setup cmd)
  | eventWait : Served setup cmd "EVENTWAIT".toList (eventWait setup cmd)
  | memRead (ram : Ram) : Served setup cmd ram.readCmd (memRead setup ram cmd)
  | memWrite (ram : Ram) : Served setup cmd ram.writeCmd (memWrite setup ram cmd)
  | unknown {name : Str} (unknown : name ∉ cmdNames) : Served setup cmd name (.ret (.int (-EINVAL)))

theorem served (setup : Setup) (name : Str) (args : List Str) :
    Served setup (name :: args) name (serve setup (name :: args)) := by
  apply serve_cases setup name args (P := Served setup (name :: args) name)
  · simp only [cmds, List.forall_mem_cons]
    refine ⟨?_, ?_, ?_, ?_, ?_, ?_, ?_, ?_, ?_, ?_, ?_, ?_, ?_, ?_, ?_, ?_, ?_, ?_, ?_, ?_, ?_, ?_,
      ?_, ?_, ?_, by simp⟩
    · rintro rfl; exact .probe (by decide) true
    · rintro rfl; exact .probe (by decide) false
    · rintro rfl; exact .state (by decide) 0 _
    · rintro rfl; exact .state (by decide) 1 _
    · rintro rfl; exact .state (by decide) 0 _
    · rintro rfl; exact .state (by decide) 1 _
    · rintro rfl; exact .singleStep (by decide) 0 _
    · rintro rfl; exact .singleStep (by decide) 1 _
    · rintro rfl; exact .singleStep (by decide) 0 _
    · rintro rfl; exact .singleStep (by decide) 1 _
    · rintro rfl; exact .attr (by decide) _
    · rintro rfl; exact .attr (by decide) _
    · rintro rfl; exact .attr (by decide) _
    · rintro rfl; exact .attr (by decide) _
    · rintro rfl; exact .load 0
    · rintro rfl; exact .load 1
    · rintro rfl; exact .getMsg
    · rintro rfl; exact .sendMsg
    · rintro rfl; exact .eventWait
    · rintro rfl; exact .memWrite .dram0
    · rintro rfl; exact .memWrite .dram1
    · rintro rfl; exact .memWrite .sram
    · rintro rfl; exact .memRead .dram0
    · rintro rfl; exact .memRead .dram1
    · rintro rfl; exact .memRead .sram
  · exact .unknown

theorem serve_loadName (setup : Setup) (n : Fin 2) (args : List Str) :
    serve setup (loadName n :: args) = loadFirmware n (loadName n :: args) := by
  match n with
  | 0 => rfl
  | 1 => rfl

theorem serve_getMsg (setup : Setup) (args : List Str) :
    serve setup ("GETMSG".toList :: args) = getMsg setup ("GETMSG".toList :: args) := rfl

theorem serve_sendMsg (setup : Setup) (args : List Str) :
    serve setup ("SENDMSG".toList :: args) = sendMsg setup ("SENDMSG".toList :: args) := rfl

theorem serve_eventWait (setup : Setup) (args : List Str) :
    serve setup ("EVENTWAIT".toList :: args) = eventWait setup ("EVENTWAIT".toList :: args) := rfl

/-! ## Lines made of words -/

theorem rfileReadline_line {b : Bytes} (hb : 10 ∉ b) : rfileReadline (b ++ [10]) = b ++ [10] := by
  induction b with
  | nil => rfl
  | cons c b ih =>
    rw [List.mem_cons, not_or] at hb
    rw [List.cons_append, rfileReadline, if_neg (Ne.symm hb.1), ih hb.2]

/-- No byte of an encoded string is a newline unless one of its characters is. -/
theorem newline_not_mem_encode {s : Str} (hs : '\n' ∉ s) : (10 : UInt8) ∉ encode s :=
  not_mem_encode (by decide) hs

theorem cmdOf_line {b : Bytes} (hb : 10 ∉ b) : cmdOf (b ++ [10]) = (decode b).map words := by
  unfold cmdOf
  rw [rfileReadline_line hb, words_decode_strip, words_decode_concat (by decide)]

/-- The words of a line of text. -/
theorem cmdOf_encode {s : Str} (hs : '\n' ∉ s) : cmdOf (encode s ++ [10]) = some (words s) := by
  rw [cmdOf_line (newline_not_mem_encode hs), decode_encode]
  rfl

theorem newline_not_mem_unwords {ws : List Str} (h : ∀ w ∈ ws, IsToken w) :
    '\n' ∉ unwords ws := by
  induction ws with
  | nil => simp
  | cons w ws ih =>
    have hw : '\n' ∉ w := fun hmem => by
      have hsp := (h w (List.mem_cons_self ..)).2 _ hmem
      exact absurd hsp (by decide)
    cases ws with
    | nil => rwa [unwords_singleton]
    | cons v ws =>
      rw [unwords_cons_cons]
      have hrest := ih fun u hu => h u (List.mem_cons_of_mem _ hu)
      simp only [List.mem_append, List.mem_cons, not_or]
      exact ⟨hw, by decide, hrest⟩

/-- Reading a line passes over text without a newline. -/
theorem rfileReadline_append {a : Bytes} (ha : 10 ∉ a) (b : Bytes) :
    rfileReadline (a ++ b) = a ++ rfileReadline b := by
  induction a with
  | nil => rfl
  | cons c a ih =>
    rw [List.mem_cons, not_or] at ha
    rw [List.cons_append, rfileReadline, if_neg (Ne.symm ha.1), ih ha.2, List.cons_append]

/-- A word and a space come before what is read of the rest. -/
theorem cmdOf_word_append {w : Str} (hw : IsToken w) (b : Bytes) :
    cmdOf (encode (w ++ [' ']) ++ b) = (cmdOf b).map fun args => w :: args := by
  have hnl : '\n' ∉ w ++ [' '] := by
    intro hmem
    rcases List.mem_append.1 hmem with hmem | hmem
    · exact absurd (hw.2 _ hmem) (by decide)
    · exact absurd hmem (by decide)
  unfold cmdOf
  rw [rfileReadline_append (newline_not_mem_encode hnl), words_decode_strip, words_decode_strip,
    decode_encode_append, Option.map_map, Option.map_map]
  congr 1
  funext rest
  show words (w ++ [' '] ++ rest) = w :: words rest
  rw [List.append_assoc, List.singleton_append, words_append _ _ (by decide), words_token hw]
  rfl

/-- The first word of a line that begins with a word and a space. -/
theorem cmdOf_first_word {w : Str} (hw : IsToken w) (b : Bytes) :
    cmdOf (encode (w ++ [' ']) ++ b) = none ∨
      ∃ args, cmdOf (encode (w ++ [' ']) ++ b) = some (w :: args) := by
  rw [cmdOf_word_append hw]
  cases cmdOf b with
  | none => exact .inl rfl
  | some args => exact .inr ⟨args, rfl⟩

/-- The words of a line made of words. -/
theorem cmdOf_unwords {ws : List Str} (h : ∀ w ∈ ws, IsToken w) :
    cmdOf (encode (unwords ws) ++ [10]) = some ws := by
  rw [cmdOf_encode (newline_not_mem_unwords h), words_unwords h]

/-- **A line put together from words is served by those words.** -/
theorem handle_line (setup : Setup) (ws : List Str) (h : ∀ w ∈ ws, IsToken w) :
    handle setup (encode (unwords ws) ++ [10]) =
      (do let resp ← serve setup ws; return encode resp.toStr) :=
  handle_of_cmdOf (cmdOf_unwords h) setup

end Daemon
