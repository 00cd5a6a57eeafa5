import PrussBindings.Daemon.Request

/-!
# What the daemon can write

The daemon runs as root and serves anybody, and it builds the paths it opens by
gluing text of the request onto a prefix.  This file follows a request through
a file tree without symbolic links and bounds the files it can write.

* `fsEnv` — the file tree: it answers `os.path.exists`, and keeps a record of
  every file that is opened for writing, by the daemon or by the copy it asks
  for.  Everything else may be answered in any way.
* `Confined` — the files a request may write.
* `Harmless` — a call that writes only to files spelled by a canonical path.
* `handle_confined` — **every file written is a confined one**, and a request
  for a device that is not whitelisted is refused before anything is opened.

All handlers but one make harmless calls only.  `load_firmware` is the
exception: with a source such as `fw/..` its destination is a directory above
`/lib/firmware`, and what saves it is that such a source is itself a directory,
which cannot be copied.
-/

namespace Daemon

open Effect Errno Text Path

/-! ## The file tree -/

/-- The file tree, and the places of the files that were opened for writing. -/
structure FsState where
  tree : Tree
  written : List Loc

/-- Opening `path` for writing: it names a place that is no directory, a file is
there afterwards, and the rest of the tree is as it was. -/
inductive OpensForWriting (path : Str) (s s' : FsState) : Prop where
  | intro (l : Loc) (loc : s.tree.openLoc path = some l) (notDir : s.tree.kind l ≠ some .dir)
    (made : s'.tree.kind l = some .file) (frame : ∀ m, m ≠ l → s'.tree.kind m = s.tree.kind m)
    (cwd : s'.tree.cwd = s.tree.cwd) (written : s'.written = s.written ++ [l])

/-- A path that can be opened for reading: there is a file there, not a
directory. -/
def Readable (path : Str) (t : Tree) : Prop := ∃ l, t.resolve path = some l ∧ t.kind l ≠ some .dir

/-- The system as the file tree sees it.  A copy opens its source before its
destination, and may fail after that. -/
def fsEnv : Env OsRes FsState
  | .pathExists p, s, r, s' => (r : Bool) = (s.tree.resolve p).isSome ∧ s' = s
  | .openFile p mode, s, r, s' =>
    (mode = .r ∨ ∃ e, r = .error e) ∧ s' = s ∨ mode ≠ .r ∧ r = .ok () ∧ OpensForWriting p s s'
  | .copyfile src dst, s, r, s' =>
    (∃ e, r = .error e) ∧ s' = s ∨ Readable src s.tree ∧ OpensForWriting dst s s'
  | _, s, _, s' => s' = s

/-! ## The confined files -/

/-- The commands that open `/dev/mem`. -/
def memCmdNames : List Str :=
  ["MEMWRITE_D0".toList, "MEMWRITE_D1".toList, "MEMWRITE_S".toList, "MEMREAD_D0".toList,
    "MEMREAD_D1".toList, "MEMREAD_S".toList]

/-- The entry of a core in a remoteproc directory. -/
def remoteproc (number : Nat) : Comp := "remoteproc".toList ++ showNat (number + 1)

/-- The files a request may write. -/
inductive Confined (setup : Setup) (cmd : List Str) : Loc → Prop where
  | state (number : Fin 2) :
    Confined setup cmd
      ["sys".toList, "class".toList, "remoteproc".toList, remoteproc number, "state".toList]
  | firmware (number : Fin 2) :
    Confined setup cmd
      ["sys".toList, "class".toList, "remoteproc".toList, remoteproc number, "firmware".toList]
  | singleStep (number : Fin 2) :
    Confined setup cmd
      ["sys".toList, "kernel".toList, "debug".toList, "remoteproc".toList, remoteproc number,
        "single_step".toList]
  | mem {name : Str} : cmd.head? = some name → name ∈ memCmdNames →
    Confined setup cmd ["dev".toList, "mem".toList]
  | device {chan : Str} (port : Int) : chan ∈ setup.paths.rpmsgChannels →
    Confined setup cmd ["dev".toList, chan ++ showInt port]
  | image {name : Comp} : IsName name → Confined setup cmd ["lib".toList, "firmware".toList, name]

/-! ## The paths the daemon builds -/

/-- A name that ends in a number is not `.` or `..`. -/
theorem isName_append_showInt {c : Comp} (hc : '/' ∉ c) (n : Int) : IsName (c ++ showInt n) := by
  have hne : c ++ showInt n ≠ [] := List.append_ne_nil_of_right_ne_nil _ (showInt_ne_nil n)
  have hlast : ((c ++ showInt n).getLast hne).isDigit := by
    rw [List.getLast_append_of_right_ne_nil _ _ (showInt_ne_nil n)]
    exact showInt_getLast n _
  refine ⟨hne, fun h => ?_, fun h => ?_, fun hmem => ?_⟩
  · simp [h, dot] at hlast
  · simp [h, dotdot] at hlast
  · rcases List.mem_append.1 hmem with hmem | hmem
    · exact hc hmem
    · exact slash_not_mem_showInt n hmem

theorem isName_remoteproc (number : Nat) : IsName (remoteproc number) :=
  isName_append_showInt (by decide) (number + 1 : Nat)

theorem rprocSysfs_eq {attr : Comp} (hattr : IsName attr) (number : Nat) :
    rprocSysfs attr number = canonical
      ["sys".toList, "class".toList, "remoteproc".toList, remoteproc number, attr] := by
  have hpath : rprocSysfsPath ++ showNat (number + 1) ++ ['/'] ++ attr = canonical
      ["sys".toList, "class".toList, "remoteproc".toList, remoteproc number, attr] := by
    unfold canonical remoteproc
    generalize showNat (number + 1) = digits
    rw [join_cons_cons, join_cons_cons, join_cons_cons, join_cons_cons, join_singleton,
      List.append_assoc, List.append_assoc, List.append_assoc]
    rfl
  unfold rprocSysfs
  rw [hpath]
  apply normpath_canonical (List.cons_ne_nil _ _)
  simp only [List.forall_mem_cons]
  exact ⟨by decide, by decide, by decide, isName_remoteproc number, hattr, by simp⟩

theorem rprocDebugfs_eq {attr : Comp} (hattr : IsName attr) (number : Nat) :
    rprocDebugfs attr number = canonical
      ["sys".toList, "kernel".toList, "debug".toList, "remoteproc".toList, remoteproc number,
        attr] := by
  have hpath : rprocDebugfsPath ++ showNat (number + 1) ++ ['/'] ++ attr = canonical
      ["sys".toList, "kernel".toList, "debug".toList, "remoteproc".toList, remoteproc number,
        attr] := by
    unfold canonical remoteproc
    generalize showNat (number + 1) = digits
    rw [join_cons_cons, join_cons_cons, join_cons_cons, join_cons_cons, join_cons_cons,
      join_singleton, List.append_assoc, List.append_assoc, List.append_assoc]
    rfl
  unfold rprocDebugfs
  rw [hpath]
  apply normpath_canonical (List.cons_ne_nil _ _)
  simp only [List.forall_mem_cons]
  exact ⟨by decide, by decide, by decide, by decide, isName_remoteproc number, hattr, by simp⟩

theorem rpmsgDevnode_eq {chan : Comp} (hchan : '/' ∉ chan) (port : Int) :
    rpmsgDevnode chan port = canonical ["dev".toList, chan ++ showInt port] := by
  have hpath : "/dev/".toList ++ chan ++ showInt port =
      canonical ["dev".toList, chan ++ showInt port] := by
    unfold canonical
    rw [join_cons_cons, join_singleton, List.append_assoc]
    rfl
  unfold rpmsgDevnode
  rw [hpath]
  apply normpath_canonical (List.cons_ne_nil _ _)
  simp only [List.forall_mem_cons]
  exact ⟨by decide, isName_append_showInt hchan port, by simp⟩

/-! ## Harmless calls -/

/-- A call that writes only to a file whose canonical path spells a place of
`P`. -/
def Harmless (P : Loc → Prop) : OsOp → Prop
  | .openFile path mode =>
    mode = .r ∨ ∃ cs, cs ≠ [] ∧ (∀ c ∈ cs, IsName c) ∧ path = canonical cs ∧ P cs
  | .copyfile _ _ => False
  | _ => True

/-- **Opening a canonical path for writing writes to the place it spells.** -/
theorem OpensForWriting.canonical {cs : List Comp} {s s' : FsState} (hne : cs ≠ [])
    (hcs : ∀ c ∈ cs, IsName c) (h : OpensForWriting (canonical cs) s s') :
    s'.written = s.written ++ [cs] := by
  obtain ⟨l, hloc, -, -, -, -, hwritten⟩ := h
  rw [hwritten, Tree.openLoc_canonical hne hcs hloc]

section Uses

variable {P : Loc → Prop}

theorem forall_mem_written_concat {s s' : FsState} {l : Loc} (hs : ∀ m ∈ s.written, P m)
    (hl : P l) (hw : s'.written = s.written ++ [l]) : ∀ m ∈ s'.written, P m := by
  intro m hm
  rw [hw, List.mem_append, List.mem_singleton] at hm
  rcases hm with hm | rfl
  · exact hs m hm
  · exact hl

/-- **What a harmless call can write is in `P`.** -/
theorem harmless_step {o : OsOp} {s s' : FsState} {r : OsRes o} (ho : Harmless P o)
    (hstep : fsEnv o s r s') (hs : ∀ l ∈ s.written, P l) : ∀ l ∈ s'.written, P l := by
  cases o with
  | openFile path mode =>
    obtain ⟨-, rfl⟩ | ⟨hmode, -, hopen⟩ := hstep
    · exact hs
    · obtain hr | ⟨cs, hne, hcs, rfl, hP⟩ := ho
      · exact absurd hr hmode
      · exact forall_mem_written_concat hs hP (hopen.canonical hne hcs)
  | copyfile src dst => exact ho.elim
  | pathExists path => exact hstep.2 ▸ hs
  | read path => exact hstep ▸ hs
  | readline path => exact hstep ▸ hs
  | write path data => exact hstep ▸ hs
  | writeAgain path data => exact hstep ▸ hs
  | close path => exact hstep ▸ hs
  | select path timeout => exact hstep ▸ hs
  | sleep seconds => exact hstep ▸ hs
  | popenWait argv => exact hstep ▸ hs
  | mmap length offset => exact hstep ▸ hs
  | peek i => exact hstep ▸ hs
  | poke i data => exact hstep ▸ hs

/-! ## The handlers -/

theorem uses_modProbe (modName : Str) (probe : Bool) : Uses (Harmless P) (modProbe modName probe) :=
  uses_catchOSError (uses_bind ⟨trivial, uses_check⟩ fun _ => trivial)

theorem uses_sysfsRead (path : Str) : Uses (Harmless P) (sysfsRead path) := by
  unfold sysfsRead
  refine ⟨trivial, fun b => ?_⟩
  cases b with
  | false => trivial
  | true =>
    apply uses_catchOSError (uses_withOpen (.inl rfl) trivial _)
    exact uses_bind ⟨trivial, uses_check⟩ fun _ => trivial

theorem uses_getMsg (setup : Setup) (cmd : List Str) : Uses (Harmless P) (getMsg setup cmd) := by
  unfold getMsg
  by_cases hlen : cmd.length ≠ 3
  · rw [if_pos hlen]
    trivial
  · rw [if_neg hlen]
    refine uses_parsed fun chan _ => ?_
    by_cases hchan : chan.name ∉ setup.paths.rpmsgChannels
    · rw [if_pos hchan]
      trivial
    · rw [if_neg hchan]
      refine ⟨trivial, fun b => ?_⟩
      cases b with
      | false => trivial
      | true =>
        refine uses_catchOSError (uses_bind (uses_withOpen (.inl rfl) trivial ?_) fun _ => trivial)
        exact uses_getMsgLoop (fun _ => trivial) trivial _ _

theorem uses_sendMsg {setup : Setup} (cmd : List Str)
    (hP : ∀ c ∈ setup.paths.rpmsgChannels, ∀ port mode,
      Harmless P (.openFile (rpmsgDevnode c port) mode)) :
    Uses (Harmless P) (sendMsg setup cmd) := by
  unfold sendMsg
  by_cases hlen : cmd.length < 5
  · rw [if_pos hlen]
    trivial
  · rw [if_neg hlen]
    refine uses_parsed fun args _ => ?_
    by_cases hchan : args.chan.name ∉ setup.paths.rpmsgChannels
    · simp only [if_pos hchan]
      trivial
    · simp only [if_neg hchan]
      have hopen := hP _ (not_not.1 hchan) args.chan.port
      refine uses_bind (uses_awaitDevnode trivial (fun _ => trivial) _) fun b => ?_
      cases b with
      | false => trivial
      | true =>
        by_cases hs : args.mode = ['s']
        · simp only [if_pos hs]
          refine uses_catchOSError (uses_bind (uses_withOpen (hopen .w) trivial ?_) fun _ => trivial)
          exact uses_writeText trivial trivial
        · simp only [if_neg hs]
          by_cases hr : args.mode = ['r']
          · simp only [if_pos hr]
            refine uses_catchOSError
              (uses_bind (uses_withOpen (hopen .wb) trivial ?_) fun _ => trivial)
            exact uses_bind (uses_packI _) fun data => ⟨trivial, uses_check⟩
          · simp only [if_neg hr]
            trivial

theorem uses_eventWait (setup : Setup) (cmd : List Str) :
    Uses (Harmless P) (eventWait setup cmd) := by
  unfold eventWait
  by_cases hlen : cmd.length ≠ 3 ∧ cmd.length ≠ 4
  · rw [if_pos hlen]
    trivial
  · rw [if_neg hlen]
    refine uses_parsed fun args _ => ?_
    obtain ⟨chan, timeout⟩ := args
    by_cases hchan : chan.name ∉ setup.paths.rpmsgChannels
    · simp only [if_pos hchan]
      trivial
    · simp only [if_neg hchan]
      refine ⟨trivial, fun b => ?_⟩
      cases b with
      | false => trivial
      | true =>
        refine uses_catchOSError (uses_withOpen (.inl rfl) trivial ?_)
        refine uses_bind (uses_selectTimeout (fun _ => trivial) _ _) fun ready => ?_
        trivial

theorem uses_memRead (setup : Setup) (ram : Ram) (cmd : List Str)
    (hopen : Harmless P (.openFile devMem .rPlusB)) :
    Uses (Harmless P) (memRead setup ram cmd) := by
  refine uses_parsed fun addrOffset _ => uses_bind (uses_withOpen hopen trivial ?_) fun _ => trivial
  refine uses_bind ⟨trivial, uses_check⟩ fun _ => ?_
  unfold unpackB
  cases sliceByte pruIcssSize (ram.base + addrOffset) with
  | none => trivial
  | some k => exact ⟨trivial, fun _ => trivial⟩

theorem uses_memWrite (setup : Setup) (ram : Ram) (cmd : List Str)
    (hopen : Harmless P (.openFile devMem .rPlusB)) :
    Uses (Harmless P) (memWrite setup ram cmd) := by
  refine uses_parsed fun args _ => uses_bind (uses_withOpen hopen trivial ?_) fun _ => trivial
  refine uses_bind ⟨trivial, uses_check⟩ fun _ => ?_
  unfold assignB
  by_cases hdata : 0 ≤ args.2 ∧ args.2 < 256
  · rw [if_pos hdata]
    cases sliceByte pruIcssSize (ram.base + args.1) with
    | none => trivial
    | some k => exact ⟨trivial, fun _ => trivial⟩
  · rw [if_neg hdata]
    trivial

end Uses

/-! ## The requests -/

section Confined

variable {setup : Setup} {cmd : List Str}

theorem harmless_canonical {P : Loc → Prop} {cs : List Comp} {path : Str} (mode : OpenMode)
    (hne : cs ≠ []) (hcs : ∀ c ∈ cs, IsName c) (hpath : path = canonical cs) (hP : P cs) :
    Harmless P (.openFile path mode) := .inr ⟨cs, hne, hcs, hpath, hP⟩

theorem harmless_sysfs {attr : Comp} (hattr : IsName attr) (number : Fin 2)
    (hP : Confined setup cmd
      ["sys".toList, "class".toList, "remoteproc".toList, remoteproc number, attr]) :
    Harmless (Confined setup cmd) (.openFile (rprocSysfs attr number) .w) := by
  refine harmless_canonical .w (List.cons_ne_nil _ _) ?_ (rprocSysfs_eq hattr number) hP
  simp only [List.forall_mem_cons]
  exact ⟨by decide, by decide, by decide, isName_remoteproc number, hattr, by simp⟩

theorem harmless_debugfs (number : Fin 2) :
    Harmless (Confined setup cmd) (.openFile (rprocDebugfs "single_step".toList number) .w) := by
  refine harmless_canonical .w (List.cons_ne_nil _ _) ?_ (rprocDebugfs_eq (by decide) number)
    (.singleStep number)
  simp only [List.forall_mem_cons]
  exact ⟨by decide, by decide, by decide, by decide, isName_remoteproc number, by decide, by simp⟩

theorem harmless_devnode (hslash : ∀ c ∈ setup.paths.rpmsgChannels, '/' ∉ c) :
    ∀ c ∈ setup.paths.rpmsgChannels, ∀ port mode,
      Harmless (Confined setup cmd) (.openFile (rpmsgDevnode c port) mode) := by
  intro c hc port mode
  refine harmless_canonical mode (List.cons_ne_nil _ _) ?_ (rpmsgDevnode_eq (hslash c hc) port)
    (.device port hc)
  simp only [List.forall_mem_cons]
  exact ⟨by decide, isName_append_showInt (hslash c hc) port, by simp⟩

theorem harmless_devMem {name : Str} (hname : name ∈ memCmdNames) {args : List Str} :
    Harmless (Confined setup (name :: args)) (.openFile devMem .rPlusB) :=
  harmless_canonical .rPlusB (List.cons_ne_nil _ _) (by decide) (by decide) (.mem rfl hname)

/-- What harmless calls write is confined. -/
theorem wp_of_harmless {α : Type} {p : Py α} {s : FsState}
    (hp : Uses (Harmless (Confined setup cmd)) p) (hs : ∀ l ∈ s.written, Confined setup cmd l) :
    wp fsEnv p (fun _ s' => ∀ l ∈ s'.written, Confined setup cmd l) s :=
  wp_of_uses hp (fun _ _ _ _ => harmless_step) hs

/-- **The copy.**  A source that exists and can be read is no directory, so its
base name can name a file, and the destination is a child of `/lib/firmware`. -/
theorem copyfile_step {source : Str} {m : Loc} {s s' : FsState} {r : Except PyExc Unit}
    (hsource : s.tree.resolve source = some m)
    (hstep : fsEnv (.copyfile (normpath source) (normpath (fwPath source))) s r s')
    (hs : ∀ l ∈ s.written, Confined setup cmd l) : ∀ l ∈ s'.written, Confined setup cmd l := by
  obtain ⟨-, rfl⟩ | ⟨⟨l, hl, hdir⟩, hopen⟩ := hstep
  · exact hs
  · obtain rfl : m = l := by
      rw [Tree.resolve_normpath hsource] at hl
      exact Option.some_inj.1 hl
    have hname : IsName (basename source) := by
      by_contra hspecial
      exact hdir (Tree.dir_of_special hsource hspecial)
    rw [normpath_fwPath hname, fwPath_eq] at hopen
    refine forall_mem_written_concat hs (.image hname) (hopen.canonical (List.cons_ne_nil _ _) ?_)
    simp only [List.forall_mem_cons]
    exact ⟨by decide, by decide, hname, by simp⟩

theorem wp_loadFirmware (number : Fin 2) {s : FsState}
    (hs : ∀ l ∈ s.written, Confined setup cmd l) :
    wp fsEnv (loadFirmware number cmd) (fun _ s' => ∀ l ∈ s'.written, Confined setup cmd l) s := by
  unfold loadFirmware
  by_cases hlen : cmd.length > 2
  · rw [if_pos hlen]
    exact hs
  · rw [if_neg hlen]
    cases index cmd 1 with
    | error e => exact hs
    | ok source =>
      rintro b s ⟨hb, rfl⟩
      cases b with
      | false => exact hs
      | true =>
        obtain ⟨m, hm⟩ := Option.isSome_iff_exists.1 hb.symm
        have hfw {s' : FsState} (hs' : ∀ l ∈ s'.written, Confined setup cmd l) :
            wp fsEnv (sysfsWrite (rprocSysfs "firmware".toList number) (basename source))
              (fun _ s'' => ∀ l ∈ s''.written, Confined setup cmd l) s' :=
          wp_of_harmless (uses_sysfsWrite trivial
            (harmless_sysfs (by decide) number (.firmware number)) trivial trivial trivial) hs'
        refine wp_tryCatch_invariant ?_ fun e s' hs' => ?_
        · by_cases hsame : source ≠ fwPath source
          · simp only [if_pos hsame]
            refine wp_bind_invariant (fun r s' hstep => ?_) fun _ s' hs' => hfw hs'
            have hs' := copyfile_step hm hstep hs
            cases r <;> exact hs'
          · simp only [if_neg hsame]
            exact hfw hs
        · cases e with
          | osError errno => cases errno <;> exact hs'
          | _ => exact hs'

theorem wp_serve (hslash : ∀ c ∈ setup.paths.rpmsgChannels, '/' ∉ c) (cmd : List Str) {s : FsState}
    (hs : ∀ l ∈ s.written, Confined setup cmd l) :
    wp fsEnv (serve setup cmd) (fun _ s' => ∀ l ∈ s'.written, Confined setup cmd l) s := by
  cases cmd with
  | nil => exact hs
  | cons name args =>
    have hserved := served setup name args
    generalize serve setup (name :: args) = p at hserved ⊢
    cases hserved with
    | probe _ probe => exact wp_of_harmless (uses_modProbe _ probe) hs
    | state _ number val =>
      exact wp_of_harmless
        (uses_sysfsWrite trivial (harmless_sysfs (by decide) number (.state number)) trivial trivial
          trivial) hs
    | singleStep _ number val =>
      exact wp_of_harmless
        (uses_sysfsWrite trivial (harmless_debugfs number) trivial trivial trivial) hs
    | attr _ path => exact wp_of_harmless (uses_sysfsRead _) hs
    | load number => exact wp_loadFirmware number hs
    | getMsg => exact wp_of_harmless (uses_getMsg setup _) hs
    | sendMsg => exact wp_of_harmless (uses_sendMsg _ (harmless_devnode hslash)) hs
    | eventWait => exact wp_of_harmless (uses_eventWait setup _) hs
    | memRead ram =>
      have hname : ram.readCmd ∈ memCmdNames := by cases ram <;> decide
      exact wp_of_harmless (uses_memRead setup ram _ (harmless_devMem hname)) hs
    | memWrite ram =>
      have hname : ram.writeCmd ∈ memCmdNames := by cases ram <;> decide
      exact wp_of_harmless (uses_memWrite setup ram _ (harmless_devMem hname)) hs
    | unknown => exact hs

end Confined

/-! ## Channels that are not whitelisted -/

/-- A request for an rpmsg device whose arguments parse. -/
inductive DeviceRequest (setup : Setup) (cmd : List Str) : Channel → Prop where
  | getMsg {chan : Channel} : cmd.head? = some "GETMSG".toList → cmd.length = 3 →
    getMsgArgs setup cmd = .ok chan → DeviceRequest setup cmd chan
  | sendMsg {args : SendMsgArgs} : cmd.head? = some "SENDMSG".toList → 5 ≤ cmd.length →
    sendMsgArgs setup cmd = .ok args → DeviceRequest setup cmd args.chan
  | eventWait {chan : Channel} {timeout : Option Int} : cmd.head? = some "EVENTWAIT".toList →
    cmd.length = 3 ∨ cmd.length = 4 → eventWaitArgs setup cmd = .ok (chan, timeout) →
    DeviceRequest setup cmd chan

/-- **A channel that is not whitelisted is refused**, before the system is asked
anything. -/
theorem serve_not_whitelisted {setup : Setup} {cmd : List Str} {chan : Channel}
    (h : DeviceRequest setup cmd chan) (hchan : chan.name ∉ setup.paths.rpmsgChannels) :
    serve setup cmd = .ret (.int (-EPERM)) := by
  cases h with
  | getMsg hname hlen hargs =>
    obtain ⟨args, rfl⟩ := List.head?_eq_some_iff.1 hname
    show getMsg setup _ = _
    unfold getMsg
    rw [if_neg (not_not.2 hlen), hargs, parsed_ok, if_pos hchan]
    rfl
  | sendMsg hname hlen hargs =>
    obtain ⟨args, rfl⟩ := List.head?_eq_some_iff.1 hname
    show sendMsg setup _ = _
    unfold sendMsg
    rw [if_neg (by omega), hargs, parsed_ok]
    simp only [if_pos hchan]
    rfl
  | eventWait hname hlen hargs =>
    obtain ⟨args, rfl⟩ := List.head?_eq_some_iff.1 hname
    show eventWait setup _ = _
    unfold eventWait
    rw [if_neg (by omega), hargs, parsed_ok]
    simp only [if_pos hchan]
    rfl

/-- **What the daemon can write.**  Whatever the request, the whitelist and the
file tree are, and however the system answers, every file written while the
request is served is a confined one; and a request for a device that is not
whitelisted is answered `-EPERM` without a call to the system. -/
theorem handle_confined (setup : Setup) (hslash : ∀ c ∈ setup.paths.rpmsgChannels, '/' ∉ c)
    (t : Tree) (stream : Bytes) :
    (∀ out s', Exec fsEnv (handle setup stream) ⟨t, []⟩ out s' →
      ∀ l ∈ s'.written, ∃ cmd, cmdOf stream = some cmd ∧ Confined setup cmd l) ∧
    ∀ cmd chan, cmdOf stream = some cmd → DeviceRequest setup cmd chan →
      chan.name ∉ setup.paths.rpmsgChannels →
      handle setup stream = .ret (encode (showInt (-EPERM))) := by
  unfold handle
  cases hcmd : cmdOf stream with
  | none =>
    refine ⟨fun out s' hx => ?_, fun cmd chan h => by cases h⟩
    cases hx
    simp
  | some cmd =>
    constructor
    · intro out s' hx l hl
      have hwp : wp fsEnv (do let resp ← serve setup cmd; return encode resp.toStr)
          (fun _ s' => ∀ l ∈ s'.written, Confined setup cmd l) ⟨t, []⟩ :=
        wp_bind_invariant (wp_serve hslash cmd (by simp)) fun _ _ hs => hs
      exact ⟨cmd, rfl, (wp_iff_exec _).1 hwp out s' hx l hl⟩
    · intro cmd' chan h hreq hchan
      obtain rfl := Option.some_inj.1 h
      show (serve setup cmd >>= fun resp => _) = _
      rw [serve_not_whitelisted hreq hchan]
      rfl

/-- A file tree with an image in `/opt` and one of the same name in
`/lib/firmware`. -/
def exampleTree : Tree :=
  .ofEntries
    [([], .dir), (["opt".toList], .dir), (["opt".toList, "fw".toList], .file),
      (["lib".toList], .dir), (["lib".toList, "firmware".toList], .dir),
      (["lib".toList, "firmware".toList, "fw".toList], .file)]
    [] (by decide) (by decide) (by decide)

theorem handle_confined_load :
    (∀ out s', Exec fsEnv
        (handle ⟨.initial, 1000, 10, .default⟩ (encode "LOAD_0 /opt/fw\n".toList))
        ⟨exampleTree, []⟩ out s' →
      ∀ l ∈ s'.written, ∃ cmd, cmdOf (encode "LOAD_0 /opt/fw\n".toList) = some cmd ∧
        Confined ⟨.initial, 1000, 10, .default⟩ cmd l) ∧
    ∃ out s', Exec fsEnv
      (handle ⟨.initial, 1000, 10, .default⟩ (encode "LOAD_0 /opt/fw\n".toList))
      ⟨exampleTree, []⟩ out s' ∧
        s'.written = [["lib".toList, "firmware".toList, "fw".toList]] := by
  refine ⟨(handle_confined ⟨.initial, 1000, 10, .default⟩ (by decide) exampleTree _).1, ?_⟩
  have hline : (encode "LOAD_0 /opt/fw\n".toList) =
      encode (unwords ["LOAD_0".toList, "/opt/fw".toList]) ++ [10] := by decide
  have hopens : OpensForWriting (normpath (fwPath "/opt/fw".toList)) ⟨exampleTree, []⟩
      ⟨exampleTree, [["lib".toList, "firmware".toList, "fw".toList]]⟩ :=
    ⟨_, by decide, by decide, by decide, fun _ _ => rfl, rfl, rfl⟩
  rw [hline, handle_line _ _ (by decide)]
  have hexists : (true : Bool) = (exampleTree.resolve "/opt/fw".toList).isSome := by decide
  have hnoattr : (false : Bool) =
      (exampleTree.resolve (rprocSysfs "firmware".toList 0)).isSome := by decide
  have hcopied : fsEnv (.copyfile (normpath "/opt/fw".toList) (normpath (fwPath "/opt/fw".toList)))
      ⟨exampleTree, []⟩ (.ok ())
      ⟨exampleTree, [["lib".toList, "firmware".toList, "fw".toList]]⟩ :=
    .inr ⟨⟨["opt".toList, "fw".toList], by decide, by decide⟩, hopens⟩
  exact ⟨_, _, .call ⟨hexists, rfl⟩ (.call hcopied (.call ⟨hnoattr, rfl⟩ (.ret _ _))), rfl⟩

end Daemon
