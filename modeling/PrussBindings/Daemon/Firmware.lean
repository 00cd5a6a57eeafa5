import PrussBindings.Daemon.Request

/-!
# Loading firmware

A `LOAD` copies an image into `/lib/firmware` and writes its name to the
firmware attribute of the core.  This file carries the handler through a disk
whose calls may go wrong in any way.

* `Disk` — what the files hold and the attributes name, with a record of the
  copies.  A path denotes a place on the disk through a function `slot`, so
  that links and odd spellings may make two paths one file.
* `LoadAnswers`, `loadEnv` — everything about a request that the disk does not
  decide: where a copy breaks off and whether the attribute can be written.
* `LoadAnswers.writeName` — what the attempts at writing a name come to.
* `run_loadFirmware` — what comes of a `LOAD`.
* `copies_configured_iff` — `FIRMWARE_PATHS`, which `set_config` extends, is
  consulted nowhere: **a source that lies below none of its directories is
  turned down only where the system turns it down**.
-/

namespace Daemon

open Effect Errno Text Path

variable {ι : Type}

/-! ## The disk -/

/-- What is at a place. -/
inductive Node where
  | dir
  | file (content : Bytes)
  deriving DecidableEq, Repr

/-- The files, the firmware attributes of the cores, and the copies made so
far, each with its source and its destination. -/
@[ext] structure Disk (ι : Type) where
  node : ι → Option Node
  attr : Fin 2 → Str
  copies : List (Str × Str)

namespace Disk

/-- Writes a file. -/
def store [DecidableEq ι] (s : Disk ι) (i : ι) (content : Bytes) : Disk ι :=
  { s with node := Function.update s.node i (some (.file content)) }

/-- Notes down a copy. -/
def noteCopy (s : Disk ι) (src dst : Str) : Disk ι := { s with copies := s.copies ++ [(src, dst)] }

/-- A write to a file of sysfs: a firmware attribute takes the text as the name
of its image, if there is any. -/
def writeAttr (s : Disk ι) (path : Str) (data : Bytes) : Disk ι :=
  { s with attr := fun n =>
      if data ≠ [] ∧ path = rprocSysfs "firmware".toList n then (decode data).getD []
      else s.attr n }

end Disk

/-- A copy that breaks off: the exception, and what it leaves in the destination
if it came to open it. -/
structure CopyFault where
  exc : PyExc
  left : Option Bytes

/-- The answers to a `LOAD` that the disk does not decide. -/
structure LoadAnswers where
  copyFault : Option CopyFault
  attrOpen : Except PyExc Unit
  attrWrite : Except PyExc Unit
  attrWriteAgain : Except PyExc Unit

/-- `shutil.copyfile`. -/
def copyFile [DecidableEq ι] (slot : Str → ι) (fault : Option CopyFault) (src dst : Str)
    (s : Disk ι) : Except PyExc Unit × Disk ι :=
  match fault with
  | some fault =>
    (.error fault.exc, match fault.left with
      | some content => s.store (slot dst) content
      | none => s)
  | none =>
    match s.node (slot src) with
    | none => (.error (.osError (some ENOENT)), s)
    | some node =>
      if slot src = slot dst then (.error (.osError none), s)
      else match node with
        | .dir => (.error (.osError (some EISDIR)), s)
        | .file content =>
          if s.node (slot dst) = some .dir then (.error (.osError (some EISDIR)), s)
          else (.ok (), (s.store (slot dst) content).noteCopy src dst)

/-- What a copy can come to: an exception that leaves the disk as it is or
something in the destination, or the content of the source in the destination. -/
theorem copyFile_cases [DecidableEq ι] (slot : Str → ι) (fault : Option CopyFault) (src dst : Str)
    (s : Disk ι) :
    (∃ e, copyFile slot fault src dst s = (.error e, s)) ∨
    (∃ e content, copyFile slot fault src dst s = (.error e, s.store (slot dst) content)) ∨
    ∃ content, s.node (slot src) = some (.file content) ∧
      copyFile slot fault src dst s = (.ok (), (s.store (slot dst) content).noteCopy src dst) := by
  unfold copyFile
  cases fault with
  | some fault =>
    obtain ⟨exc, left⟩ := fault
    cases left with
    | none => exact .inl ⟨exc, rfl⟩
    | some content => exact .inr (.inl ⟨exc, content, rfl⟩)
  | none =>
    cases hsrc : s.node (slot src) with
    | none => exact .inl ⟨_, rfl⟩
    | some node =>
      by_cases hsame : slot src = slot dst
      · simp only [if_pos hsame]
        exact .inl ⟨_, rfl⟩
      · simp only [if_neg hsame]
        cases node with
        | dir => exact .inl ⟨_, rfl⟩
        | file content =>
          by_cases hdir : s.node (slot dst) = some .dir
          · simp only [if_pos hdir]
            exact .inl ⟨_, rfl⟩
          · simp only [if_neg hdir]
            exact .inr (.inr ⟨content, rfl, rfl⟩)

/-- An attempt at a write to an attribute, which the system lets through or not. -/
def Disk.attempt (s : Disk ι) (answer : Except PyExc Unit) (path : Str) (data : Bytes) :
    Except PyExc Unit × Disk ι :=
  match answer with
  | .ok () => (.ok (), s.writeAttr path data)
  | .error e => (.error e, s)

/-- The system during a `LOAD`.  The other calls are not made by it. -/
def loadEnv [DecidableEq ι] (slot : Str → ι) (a : LoadAnswers) :
    (o : OsOp) → Disk ι → OsRes o × Disk ι
  | .pathExists p, s => ((s.node (slot p)).isSome, s)
  | .openFile _ _, s => (a.attrOpen, s)
  | .write p data, s => s.attempt a.attrWrite p data
  | .writeAgain p data, s => s.attempt a.attrWriteAgain p data
  | .close _, s => ((), s)
  | .copyfile src dst, s => copyFile slot a.copyFault src dst s
  | .read _, s => (.error (.osError (some EINVAL)), s)
  | .readline _, s => (.error (.osError (some EINVAL)), s)
  | .select _ _, s => (.error (.osError (some EINVAL)), s)
  | .popenWait _, s => (.error (.osError (some ENOENT)), s)
  | .mmap _ _, s => (.error (.osError (some EPERM)), s)
  | .sleep _, s => ((), s)
  | .peek _, s => (0, s)
  | .poke _ _, s => ((), s)

/-! ## What comes of a request -/

/-- How the handler ends when an exception reaches its `except` clause. -/
def caught (e : PyExc) : Outcome PyExc Resp :=
  match e with
  | .osError (some k) => .ret (.int (-k))
  | .osError none => .raise .typeError
  | e => .raise e

/-- What the attempts at writing a name to an attribute come to: how they end, and
whether the attribute takes the name.  A name that fits the buffer and is refused is
written once more when the file is closed, which does not change how it ends unless
that is refused too. -/
def LoadAnswers.writeName (a : LoadAnswers) (name : Str) : Except PyExc Unit × Bool :=
  if name = [] then (.ok (), false)
  else match a.attrWrite with
    | .ok () => (.ok (), true)
    | .error e =>
      if (encode name).length ≤ blockSize then
        match a.attrWriteAgain with
        | .ok () => (.error e, true)
        | .error e' => (.error e', false)
      else (.error e, false)

/-- The reply to an attribute that was opened. -/
def attrReply : Except PyExc Unit → Outcome PyExc Resp
  | .ok () => .ret (.int 0)
  | .error e => caught e

/-- The name in an attribute, if it takes it. -/
def Disk.rename (s : Disk ι) (n : Fin 2) (name : Str) (written : Bool) : Disk ι :=
  if written then { s with attr := Function.update s.attr n name } else s

/-- What comes of writing the name of an image to the attribute of a core. -/
def setFirmware (slot : Str → ι) (a : LoadAnswers) (n : Fin 2) (name : Str) (s : Disk ι) :
    Outcome PyExc Resp × Disk ι :=
  if s.node (slot (rprocSysfs "firmware".toList n)) = none then (.ret (.int (-ENOENT)), s)
  else match a.attrOpen with
    | .error e => (caught e, s)
    | .ok _ => (attrReply (a.writeName name).1, s.rename n name (a.writeName name).2)

theorem rprocSysfs_firmware_inj {n m : Fin 2}
    (h : rprocSysfs "firmware".toList n = rprocSysfs "firmware".toList m) : n = m := by
  revert h
  revert n m
  decide

theorem encode_ne_nil {name : Str} (hname : name ≠ []) : encode name ≠ [] :=
  fun h => hname (encode_injective h)

theorem writeAttr_firmware (s : Disk ι) (n : Fin 2) {name : Str} (hname : name ≠ []) :
    s.writeAttr (rprocSysfs "firmware".toList n) (encode name) = s.rename n name true := by
  show s.writeAttr _ _ = { s with attr := Function.update s.attr n name }
  unfold Disk.writeAttr
  congr 1
  funext m
  by_cases hm : m = n
  · subst hm
    rw [if_pos ⟨encode_ne_nil hname, rfl⟩, decode_encode, Function.update_self]
    rfl
  · rw [if_neg fun h => hm (rprocSysfs_firmware_inj h.2).symm, Function.update_of_ne hm]

theorem run_exceptOSError {σ : Type} (h : (o : OsOp) → σ → OsRes o × σ) (e : PyExc) (s : σ) :
    run h (exceptOSError e) s = (caught e, s) := by
  cases e with
  | osError errno => cases errno <;> rfl
  | _ => rfl

/-- The outcome of a body that is done or has raised an exception. -/
def exceptOutcome : Except PyExc Unit → Outcome PyExc Unit
  | .ok () => .ret ()
  | .error e => .raise e

/-- **What writing a name comes to.** -/
theorem run_writeText [DecidableEq ι] (slot : Str → ι) (a : LoadAnswers) (n : Fin 2) (name : Str)
    (s : Disk ι) :
    run (loadEnv slot a) (writeText (rprocSysfs "firmware".toList n) (encode name)) s =
      (exceptOutcome (a.writeName name).1, s.rename n name (a.writeName name).2) := by
  unfold writeText LoadAnswers.writeName
  by_cases hname : name = []
  · subst hname
    rfl
  have hattr := writeAttr_firmware s n hname
  rw [if_neg (encode_ne_nil hname), if_neg hname]
  generalize rprocSysfs "firmware".toList n = path at hattr ⊢
  cases hwrite : a.attrWrite with
  | ok _ => simp [write, loadEnv, Disk.attempt, hwrite, hattr, exceptOutcome]
  | error e =>
    by_cases hfits : (encode name).length ≤ blockSize
    · simp only [if_pos hfits]
      cases hagain : a.attrWriteAgain with
      | ok _ =>
        simp [write, writeAgain, loadEnv, Disk.attempt, hwrite, hagain, hattr, exceptOutcome]
      | error e' =>
        simp [write, writeAgain, loadEnv, Disk.attempt, hwrite, hagain, Disk.rename, exceptOutcome]
    · simp only [if_neg hfits]
      simp [write, loadEnv, Disk.attempt, hwrite, Disk.rename, exceptOutcome]

theorem run_sysfsWrite [DecidableEq ι] (slot : Str → ι) (a : LoadAnswers) (n : Fin 2) (name : Str)
    (s : Disk ι) :
    run (loadEnv slot a) (sysfsWrite (rprocSysfs "firmware".toList n) name) s =
      setFirmware slot a n name s := by
  have htext := run_writeText slot a n name s
  unfold setFirmware sysfsWrite
  generalize rprocSysfs "firmware".toList n = path at htext ⊢
  cases hnode : s.node (slot path) with
  | none => simp [pathExists, loadEnv, hnode]
  | some node =>
    cases hopen : a.attrOpen with
    | error e =>
      simp [pathExists, loadEnv, hnode, catchOSError, withOpen, openFile, hopen, run_exceptOSError]
    | ok _ =>
      rcases hname : a.writeName name with ⟨⟨⟩ | ⟨⟩, written⟩
      all_goals
        rw [hname] at htext
        simp [pathExists, loadEnv, hnode, catchOSError, withOpen, openFile, hopen, close,
          run_exceptOSError, run_tryCatch, run_bind, htext, exceptOutcome, attrReply]

/-- The `except` clause of `load_firmware` adds nothing to the one of
`sysfs_write`. -/
theorem run_sysfsWrite_tryCatch [DecidableEq ι] (slot : Str → ι) (a : LoadAnswers) (n : Fin 2)
    (name : Str) (s : Disk ι) :
    run (loadEnv slot a)
        ((sysfsWrite (rprocSysfs "firmware".toList n) name).tryCatch exceptOSError) s =
      setFirmware slot a n name s := by
  rw [run_tryCatch, run_sysfsWrite]
  unfold setFirmware
  by_cases hnode : s.node (slot (rprocSysfs "firmware".toList n)) = none
  · rw [if_pos hnode]
  · rw [if_neg hnode]
    -- what the inner clause lets through, the outer one lets through
    rcases a.attrOpen with ⟨⟨_ | _⟩ | _⟩ | _
    all_goals try rfl
    rcases a.writeName name with ⟨⟨⟨_ | _⟩ | _⟩ | _, written⟩ <;> rfl

/-- The copy of an image to where the kernel looks for it. -/
def copyImage [DecidableEq ι] (slot : Str → ι) (a : LoadAnswers) (source : Str) (s : Disk ι) :
    Except PyExc Unit × Disk ι :=
  copyFile slot a.copyFault (normpath source) (normpath (fwPath source)) s

/-- What comes of a `LOAD` with the given source. -/
def load [DecidableEq ι] (slot : Str → ι) (a : LoadAnswers) (n : Fin 2) (source : Str)
    (s : Disk ι) : Outcome PyExc Resp × Disk ι :=
  if s.node (slot source) = none then (.ret (.int (-ENOENT)), s)
  else if source = fwPath source then setFirmware slot a n (basename source) s
  else match copyImage slot a source s with
    | (.error e, s') => (caught e, s')
    | (.ok _, s') => setFirmware slot a n (basename source) s'

/-- **What comes of a `LOAD`.** -/
theorem run_loadFirmware [DecidableEq ι] (slot : Str → ι) (a : LoadAnswers) (n : Fin 2)
    (name source : Str) (s : Disk ι) :
    run (loadEnv slot a) (loadFirmware n [name, source]) s = load slot a n source s := by
  unfold load loadFirmware
  rw [if_neg (by simp)]
  show run (loadEnv slot a) (pathExists source >>= fun b => _) s = _
  rw [run_bind]
  cases hnode : s.node (slot source) with
  | none => simp [pathExists, loadEnv, hnode]
  | some node =>
    have hexists : run (loadEnv slot a) (pathExists source) s = (.ret true, s) := by
      simp [pathExists, loadEnv, hnode]
    rw [hexists]
    by_cases hsame : source = fwPath source
    · simp only [if_neg (not_not.2 hsame), if_pos hsame]
      exact run_sysfsWrite_tryCatch slot a n _ s
    · simp only [if_neg hsame, if_pos (show source ≠ fwPath source from hsame)]
      have hcopy : loadEnv slot a (.copyfile (normpath source) (normpath (fwPath source))) s =
          copyImage slot a source s := rfl
      show run (loadEnv slot a) ((copyfile (normpath source) (normpath (fwPath source)) >>=
        fun _ => sysfsWrite _ _).tryCatch exceptOSError) s = _
      unfold copyfile
      rw [Prog.call_bind, Prog.tryCatch_call, run_call, hcopy]
      rcases copyImage slot a source s with ⟨e | _, s'⟩
      · exact run_exceptOSError _ e s'
      · exact run_sysfsWrite_tryCatch slot a n _ s'

/-- What `handle` makes of what a handler ends with. -/
def replyOf : Outcome PyExc Resp → Outcome PyExc Bytes
  | .ret resp => .ret (encode resp.toStr)
  | .raise e => .raise e
  | .spin => .spin

/-- The handler on the line of a `LOAD`. -/
theorem run_handle_load [DecidableEq ι] (slot : Str → ι) (a : LoadAnswers) (setup : Setup)
    {stream : Bytes} {n : Fin 2} {args : List Str}
    (hcmd : cmdOf stream = some (loadName n :: args)) (s : Disk ι) :
    run (loadEnv slot a) (handle setup stream) s =
      (replyOf (run (loadEnv slot a) (loadFirmware n (loadName n :: args)) s).1,
        (run (loadEnv slot a) (loadFirmware n (loadName n :: args)) s).2) := by
  rw [handle_of_cmdOf hcmd, run_bind, serve_loadName]
  rcases run (loadEnv slot a) (loadFirmware n (loadName n :: args)) s with ⟨_ | _ | _, s'⟩ <;> rfl

/-! ## The configured directories -/

/-- The source of the request lies below one of the directories of
`FIRMWARE_PATHS`. -/
def Configured (setup : Setup) (cmd : List Str) : Prop :=
  ∃ source ∈ cmd[1]?, ∃ dir ∈ setup.paths.firmwarePaths, Below dir source

instance (setup : Setup) (cmd : List Str) : Decidable (Configured setup cmd) :=
  inferInstanceAs (Decidable (∃ source ∈ cmd[1]?, _))

/-- The request is answered with an error number, and the disk is as before. -/
def TurnedDown (s : Disk ι) (res : Outcome PyExc Bytes × Disk ι) : Prop :=
  (∃ e : Int, 0 < e ∧ res.1 = .ret (encode (showInt (-e)))) ∧ res.2 = s

/-- Only images below the configured directories are copied, and any other
request is turned down. -/
structure CopiesConfigured (setup : Setup) (cmd : List Str) (s : Disk ι)
    (res : Outcome PyExc Bytes × Disk ι) : Prop where
  source : res.2.copies ≠ s.copies → Configured setup cmd
  other : ¬ Configured setup cmd → TurnedDown s res

/-- An error with a number, as the handler negates it. -/
def HasNumber (e : PyExc) : Prop := ∃ k : Int, 0 < k ∧ e = .osError (some k)

/-- The system does not let the attribute of the core be written: it refuses every
attempt, or carries out one at a name that is there already. -/
def AttrRefused (slot : Str → ι) (a : LoadAnswers) (n : Fin 2) (name : Str) (s : Disk ι) : Prop :=
  s.node (slot (rprocSysfs "firmware".toList n)) = none ∨
    (∃ e, a.attrOpen = .error e ∧ HasNumber e) ∨
    (∃ u, a.attrOpen = .ok u) ∧
      ∃ e written, a.writeName name = (.error e, written) ∧ HasNumber e ∧
        (written = true → s.attr n = name)

/-- The system turns the source down before anything changes. -/
def SourceRefused [DecidableEq ι] (slot : Str → ι) (a : LoadAnswers) (n : Fin 2) (s : Disk ι)
    (source : Str) : Prop :=
  s.node (slot source) = none ∨
    source ≠ fwPath source ∧ (∃ e, copyImage slot a source s = (.error e, s) ∧ HasNumber e) ∨
    source = fwPath source ∧ AttrRefused slot a n (basename source) s

/-- The system turns the request down before anything changes, or the request
has words to spare. -/
def SystemRefuses [DecidableEq ι] (slot : Str → ι) (a : LoadAnswers) (n : Fin 2) (s : Disk ι) :
    List Str → Prop
  | [] => False
  | [source] => SourceRefused slot a n s source
  | _ :: _ :: _ => True

section TurnedDown

variable {slot : Str → ι} {a : LoadAnswers} {s s' : Disk ι}

theorem turnedDown_int {k : Int} :
    TurnedDown s (replyOf (.ret (.int k)), s') ↔ k < 0 ∧ s' = s := by
  refine and_congr_left fun _ => ⟨?_, fun hk => ⟨-k, by omega, by simp [replyOf, Resp.toStr]⟩⟩
  rintro ⟨e, he, hreply⟩
  rw [showInt_inj.1 (encode_injective (Outcome.ret.inj hreply))]
  omega

theorem turnedDown_caught {e : PyExc} :
    TurnedDown s (replyOf (caught e), s') ↔ HasNumber e ∧ s' = s := by
  have hraise {e' : PyExc} : ¬ TurnedDown s (.raise e', s') := fun ⟨⟨_, _, h⟩, _⟩ => by cases h
  have hno (h : ∀ k, e ≠ .osError (some k)) : ¬ (HasNumber e ∧ s' = s) :=
    fun ⟨⟨k, _, hk⟩, _⟩ => h k hk
  cases e with
  | osError errno =>
    cases errno with
    | none => exact iff_of_false hraise (hno fun k => by simp)
    | some k =>
      show TurnedDown s (replyOf (.ret (.int (-k))), s') ↔ _
      rw [turnedDown_int]
      refine and_congr_left fun _ => ⟨fun hk => ⟨k, by omega, rfl⟩, ?_⟩
      rintro ⟨k', hk, heq⟩
      cases heq
      omega
  | _ => exact iff_of_false hraise (hno fun k => by simp)

theorem rename_eq_self {n : Fin 2} {name : Str} {written : Bool} :
    s.rename n name written = s ↔ (written = true → s.attr n = name) := by
  unfold Disk.rename
  cases written with
  | false => simp
  | true =>
    rw [if_pos rfl]
    constructor
    · intro h _
      have hattr := congrFun (congrArg Disk.attr h) n
      simpa using hattr.symm
    · intro h
      rw [← h rfl, Function.update_eq_self]

theorem turnedDown_setFirmware {n : Fin 2} {name : Str} :
    TurnedDown s (replyOf (setFirmware slot a n name s).1, (setFirmware slot a n name s).2) ↔
      AttrRefused slot a n name s := by
  unfold setFirmware AttrRefused
  generalize rprocSysfs "firmware".toList n = path
  by_cases hnode : s.node (slot path) = none
  · rw [if_pos hnode, turnedDown_int]
    simp [hnode, ENOENT]
  · rw [if_neg hnode]
    cases hopen : a.attrOpen with
    | error e =>
      show TurnedDown s (replyOf (caught e), s) ↔ _
      rw [turnedDown_caught]
      simp [hnode]
    | ok u =>
      rcases hname : a.writeName name with ⟨e | ⟨⟩, written⟩
      · show TurnedDown s (replyOf (caught e), s.rename n name written) ↔ _
        rw [turnedDown_caught, rename_eq_self]
        refine ⟨fun h => .inr (.inr ⟨⟨u, rfl⟩, e, written, rfl, h⟩), ?_⟩
        rintro (h | ⟨_, h, -⟩ | ⟨-, e', written', h, hrefused⟩)
        · exact absurd h hnode
        · cases h
        · cases h
          exact hrefused
      · refine iff_of_false (fun h => ?_) (by simp [hnode])
        exact absurd (turnedDown_int.1 h).1 (by omega)

theorem setFirmware_copies (n : Fin 2) (name : Str) :
    (setFirmware slot a n name s).2.copies = s.copies := by
  unfold setFirmware Disk.rename
  split_ifs
  · rfl
  · cases a.attrOpen <;> rfl
  · cases a.attrOpen <;> rfl

theorem copies_of_copyFile [DecidableEq ι] {fault : Option CopyFault} {src dst : Str} {u : Unit}
    (h : copyFile slot fault src dst s = (.ok u, s')) : s'.copies = s.copies ++ [(src, dst)] := by
  obtain ⟨e, he⟩ | ⟨e, content, he⟩ | ⟨content, -, he⟩ := copyFile_cases slot fault src dst s
  · rw [he] at h
    cases h
  · rw [he] at h
    cases h
  · rw [he] at h
    cases h
    rfl

theorem turnedDown_load [DecidableEq ι] {n : Fin 2} {source : Str} :
    TurnedDown s (replyOf (load slot a n source s).1, (load slot a n source s).2) ↔
      SourceRefused slot a n s source := by
  unfold load SourceRefused
  by_cases hnode : s.node (slot source) = none
  · rw [if_pos hnode, turnedDown_int]
    simp [hnode, ENOENT]
  · rw [if_neg hnode]
    by_cases hsame : source = fwPath source
    · rw [if_pos hsame, turnedDown_setFirmware]
      simp [hnode, ← hsame]
    · rw [if_neg hsame]
      cases hcopy : copyImage slot a source s with
      | mk res s' =>
        cases res with
        | error e =>
          show TurnedDown s (replyOf (caught e), s') ↔ _
          rw [turnedDown_caught]
          simp [hnode, hsame, and_comm]
        | ok u =>
          -- a completed copy is on record
          refine iff_of_false (fun h => ?_) (by simp [hnode, hsame])
          have hcopies := congrArg Disk.copies h.2
          rw [setFirmware_copies, copies_of_copyFile hcopy] at hcopies
          simp at hcopies

end TurnedDown

/-- **`FIRMWARE_PATHS` is not enforced.**  Whatever the configuration, the
request and the disk, a `LOAD` keeps to the configured directories exactly if
its source happens to lie below one, or the system or a superfluous word stops
it before anything changes. -/
theorem copies_configured_iff [DecidableEq ι] (setup : Setup) (slot : Str → ι) (a : LoadAnswers)
    {stream : Bytes} {n : Fin 2} {args : List Str}
    (hcmd : cmdOf stream = some (loadName n :: args)) (s : Disk ι) :
    CopiesConfigured setup (loadName n :: args) s (run (loadEnv slot a) (handle setup stream) s) ↔
      Configured setup (loadName n :: args) ∨ SystemRefuses slot a n s args := by
  have hturned : TurnedDown s (run (loadEnv slot a) (handle setup stream) s) ↔
      SystemRefuses slot a n s args := by
    rw [run_handle_load slot a setup hcmd]
    match args with
    | [] =>
      refine iff_of_false (fun h => ?_) id
      obtain ⟨⟨e, -, hreply⟩, -⟩ := h
      cases hreply
    | [source] =>
      rw [run_loadFirmware]
      exact turnedDown_load
    | source :: word :: rest =>
      refine iff_of_true ?_ trivial
      unfold loadFirmware
      rw [if_pos (by simp)]
      exact turnedDown_int.2 ⟨by decide, rfl⟩
  rw [← hturned]
  constructor
  · intro h
    by_cases hconf : Configured setup (loadName n :: args)
    · exact .inl hconf
    · exact .inr (h.other hconf)
  · rintro (hconf | hdown)
    · exact ⟨fun _ => hconf, fun h => absurd hconf h⟩
    · exact ⟨fun h => absurd (congrArg Disk.copies hdown.2) h, fun _ => hdown⟩

/-- A disk with the given files, on which paths are compared as they are
normalised. -/
def exampleDisk (files : List (Str × Bytes)) : Disk Str where
  node p := (files.lookup p).map Node.file
  attr _ := []
  copies := []

/-- Nothing goes wrong. -/
def LoadAnswers.ok : LoadAnswers := ⟨none, .ok (), .ok (), .ok ()⟩

/-- A disk with an image in `/tmp`, and the attribute of core `0`. -/
def imageInTmp : Disk Str :=
  exampleDisk [("/tmp/evil".toList, [1]), (rprocSysfs "firmware".toList 0, [])]

/-- The name is refused at first, and written when the file is closed. -/
def LoadAnswers.late : LoadAnswers :=
  ⟨none, .ok (), .error (.osError (some EBUSY)), .ok ()⟩

theorem copies_configured_iff_late :
    CopiesConfigured ⟨.initial, 1000, 10, .default⟩ ["LOAD_0".toList, "/tmp/evil".toList]
        imageInTmp (run (loadEnv normpath .late)
          (handle ⟨.initial, 1000, 10, .default⟩ (encode "LOAD_0 /tmp/evil\n".toList)) imageInTmp) ↔
      Configured ⟨.initial, 1000, 10, .default⟩ ["LOAD_0".toList, "/tmp/evil".toList] ∨
        SystemRefuses normpath .late 0 imageInTmp ["/tmp/evil".toList] :=
  copies_configured_iff ⟨.initial, 1000, 10, .default⟩ normpath .late (n := 0) (by decide)
    imageInTmp

/-- An image is copied out of `/tmp`, which is no configured directory. -/
theorem image_copied_from_tmp :
    ¬ CopiesConfigured ⟨.initial, 1000, 10, .default⟩ ["LOAD_0".toList, "/tmp/evil".toList]
      imageInTmp (run (loadEnv normpath .ok)
        (handle ⟨.initial, 1000, 10, .default⟩ (encode "LOAD_0 /tmp/evil\n".toList))
        imageInTmp) := by
  intro h
  have hcmd : cmdOf (encode "LOAD_0 /tmp/evil\n".toList) =
      some (loadName 0 :: ["/tmp/evil".toList]) := by decide
  rw [run_handle_load normpath .ok _ hcmd, run_loadFirmware] at h
  have hconf := h.source (by decide)
  exact absurd hconf (by decide)

end Daemon
