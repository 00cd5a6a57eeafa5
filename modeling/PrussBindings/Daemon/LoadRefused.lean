import PrussBindings.Daemon.Images

/-!
# What a refused `LOAD` leaves behind

`load_firmware` copies the image first and writes the attribute of the core
second, and nothing takes the copy back when the second step fails.  A write that is
refused is made once more when the file is closed, and the refusal is reported even
where that one is carried out.

* `copyLeft` — what the copy puts in its destination, if it comes to open it.
* `LoadLeaves` — the attributes are as before, unless the name was written by the
  second attempt, and so is every file but the destination of a copy that was begun.
* `load_refused` — **that is all that a `LOAD` can leave behind that is not
  answered `0`.**
* `refused_load_overwrites` — a core without an attribute is not loaded, and the
  image is replaced all the same.
-/

namespace Daemon

open Effect Errno Text Path

variable {ι : Type} [DecidableEq ι]

/-- What the copy of an image puts in its destination: what it got to before it
broke off, or the content of the source.  `none` is a copy that never comes to
open the destination. -/
def copyLeft (slot : Str → ι) (a : LoadAnswers) (source : Str) (s : Disk ι) : Option Bytes :=
  match a.copyFault with
  | some fault => fault.left
  | none =>
    match s.node (slot (normpath source)) with
    | some (.file content) =>
      if slot (normpath source) = slot (normpath (fwPath source)) then none
      else if s.node (slot (normpath (fwPath source))) = some .dir then none
      else some content
    | _ => none

/-- What becomes of the files when the copy of the image is made. -/
theorem node_copyImage_eq (slot : Str → ι) (a : LoadAnswers) (source : Str) (s : Disk ι) :
    (copyImage slot a source s).2.node =
      match copyLeft slot a source s with
      | some content =>
        Function.update s.node (slot (normpath (fwPath source))) (some (.file content))
      | none => s.node := by
  unfold copyImage copyFile copyLeft
  cases a.copyFault with
  | some fault =>
    obtain ⟨exc, left⟩ := fault
    cases left <;> rfl
  | none =>
    cases hsrc : s.node (slot (normpath source)) with
    | none => rfl
    | some node =>
      by_cases hsame : slot (normpath source) = slot (normpath (fwPath source))
      · cases node <;> simp [hsame]
      · cases node with
        | dir => simp [hsame]
        | file content =>
          by_cases hdir : s.node (slot (normpath (fwPath source))) = some .dir
          · simp [hsame, hdir]
          · simp [hsame, hdir, Disk.store, Disk.noteCopy]

/-- The attributes are as before, unless the one of core `n` took the name when it was
written for the second time, after a refusal; and the files are as before but for the
destination of the copy, which holds what the copy put there. -/
structure LoadLeaves (slot : Str → ι) (a : LoadAnswers) (n : Fin 2) (args : List Str)
    (s s' : Disk ι) : Prop where
  attr : s'.attr = s.attr ∨ ∃ source e, args = [source] ∧ a.attrWrite = .error e ∧
    a.attrWriteAgain = .ok () ∧ s'.attr = Function.update s.attr n (basename source)
  node : s'.node = s.node ∨ ∃ source content, args = [source] ∧ source ≠ fwPath source ∧
    copyLeft slot a source s = some content ∧
    s'.node = Function.update s.node (slot (normpath (fwPath source))) (some (.file content))

section Refused

variable {slot : Str → ι} {a : LoadAnswers} {n : Fin 2} {s : Disk ι}

/-- A disk on which nothing happened. -/
theorem LoadLeaves.refl (slot : Str → ι) (a : LoadAnswers) (n : Fin 2) (args : List Str)
    (s : Disk ι) : LoadLeaves slot a n args s s := ⟨.inl rfl, .inl rfl⟩

omit [DecidableEq ι] in
/-- A name that is taken and not accepted was refused first, and written then. -/
theorem late_of_writeName {name : Str} {e : PyExc} (h : a.writeName name = (.error e, true)) :
    a.attrWrite = .error e ∧ a.attrWriteAgain = .ok () := by
  unfold LoadAnswers.writeName at h
  by_cases hname : name = []
  · rw [if_pos hname] at h
    cases h
  · rw [if_neg hname] at h
    cases hwrite : a.attrWrite with
    | ok u =>
      simp only [hwrite] at h
      cases h
    | error e =>
      simp only [hwrite] at h
      by_cases hfits : (encode name).length ≤ blockSize
      · rw [if_pos hfits] at h
        cases hagain : a.attrWriteAgain with
        | ok u =>
          simp only [hagain] at h
          cases h
          exact ⟨rfl, rfl⟩
        | error e' =>
          simp only [hagain] at h
          cases h
      · rw [if_neg hfits] at h
        cases h

omit [DecidableEq ι] in
/-- What is left where the attribute was to be written, and the reply is not `0`. -/
theorem setFirmware_refused {name : Str}
    (h : replyOf (setFirmware slot a n name s).1 ≠ zeroReply) :
    (setFirmware slot a n name s).2 = s ∨ (∃ e, a.attrWrite = .error e) ∧
      a.attrWriteAgain = .ok () ∧ (setFirmware slot a n name s).2 = s.rename n name true := by
  unfold setFirmware at h ⊢
  generalize rprocSysfs "firmware".toList n = path at h ⊢
  by_cases hnode : s.node (slot path) = none
  · rw [if_pos hnode]
    exact .inl rfl
  · rw [if_neg hnode] at h ⊢
    cases hopen : a.attrOpen with
    | error e => exact .inl rfl
    | ok u =>
      rw [hopen] at h
      rcases hname : a.writeName name with ⟨e | ⟨⟩, _ | _⟩
      · exact .inl rfl
      · obtain ⟨hwrite, hagain⟩ := late_of_writeName hname
        exact .inr ⟨⟨e, hwrite⟩, hagain, rfl⟩
      · rw [hname] at h
        exact absurd rfl h
      · rw [hname] at h
        exact absurd rfl h

omit [DecidableEq ι] in
/-- The attribute is written after what `h` says is done. -/
theorem LoadLeaves.setFirmware {source : Str} {s' : Disk ι}
    [DecidableEq ι] (hattr : s'.attr = s.attr) (h : LoadLeaves slot a n [source] s s')
    (hreply : replyOf (Daemon.setFirmware slot a n (basename source) s').1 ≠ zeroReply) :
    LoadLeaves slot a n [source] s (Daemon.setFirmware slot a n (basename source) s').2 := by
  obtain hsame | ⟨⟨e, hwrite⟩, hagain, hset⟩ := setFirmware_refused hreply
  · rw [hsame]
    exact h
  · rw [hset]
    refine ⟨.inr ⟨source, e, rfl, hwrite, hagain, ?_⟩, h.node⟩
    rw [← hattr]
    rfl

/-- What is left where the copy was made. -/
theorem loadLeaves_copyImage {source : Str} (hsame : source ≠ fwPath source) :
    LoadLeaves slot a n [source] s (copyImage slot a source s).2 := by
  refine ⟨.inl (attr_copyImage slot a source s), ?_⟩
  rw [node_copyImage_eq]
  cases hleft : copyLeft slot a source s with
  | none => exact .inl rfl
  | some content => exact .inr ⟨source, content, rfl, hsame, hleft, rfl⟩

/-- What a refused `LOAD` with one source leaves behind. -/
theorem load_leaves {source : Str} (h : replyOf (load slot a n source s).1 ≠ zeroReply) :
    LoadLeaves slot a n [source] s (load slot a n source s).2 := by
  unfold load at h ⊢
  by_cases hnode : s.node (slot source) = none
  · rw [if_pos hnode]
    exact .refl ..
  · rw [if_neg hnode] at h ⊢
    by_cases hsame : source = fwPath source
    · rw [if_pos hsame] at h ⊢
      exact (LoadLeaves.refl ..).setFirmware rfl h
    · rw [if_neg hsame] at h ⊢
      have hcopied : LoadLeaves slot a n [source] s (copyImage slot a source s).2 :=
        loadLeaves_copyImage hsame
      have hattr := attr_copyImage slot a source s
      cases hcopy : copyImage slot a source s with
      | mk res s' =>
        rw [hcopy] at h hcopied hattr
        cases res with
        | error e => exact hcopied
        | ok u => exact hcopied.setFirmware hattr h

/-- **What a `LOAD` leaves behind that is not answered `0`**, whatever was on the
disk and wherever the system failed: both attributes, unless the second attempt at a
write put the name in the one of the core, and every file but the destination of the
copy. -/
theorem load_refused (setup : Setup) (slot : Str → ι) (a : LoadAnswers) {stream : Bytes}
    {n : Fin 2} {args : List Str} (hcmd : cmdOf stream = some (loadName n :: args)) (s : Disk ι)
    (hreply : (run (loadEnv slot a) (handle setup stream) s).1 ≠ zeroReply) :
    LoadLeaves slot a n args s (run (loadEnv slot a) (handle setup stream) s).2 := by
  rw [run_handle_load slot a setup hcmd] at hreply ⊢
  match args with
  | [] => exact .refl ..
  | [source] =>
    rw [run_loadFirmware] at hreply ⊢
    exact load_leaves hreply
  | source :: word :: rest =>
    unfold loadFirmware
    rw [if_pos (by simp)]
    exact .refl ..

end Refused

theorem cmdOf_tmpEvil :
    cmdOf (encode "LOAD_0 /tmp/evil\n".toList) = some (loadName 0 :: ["/tmp/evil".toList]) := by
  decide

/-- The name of the image is refused, and written when the file is closed. -/
theorem load_refused_late :
    LoadLeaves normpath .late 0 ["/tmp/evil".toList] imageInTmp
      (run (loadEnv normpath .late)
        (handle ⟨.initial, 1000, 10, .default⟩ (encode "LOAD_0 /tmp/evil\n".toList))
        imageInTmp).2 :=
  load_refused ⟨.initial, 1000, 10, .default⟩ normpath .late cmdOf_tmpEvil imageInTmp (by
    rw [run_handle_load normpath .late _ cmdOf_tmpEvil, run_loadFirmware]
    decide)

/-- A disk with two images of one base name, and no attributes. -/
def noAttributes : Disk Str :=
  exampleDisk [("/opt/fw".toList, [1]), ("/lib/firmware/fw".toList, [2])]

theorem cmdOf_optFw :
    cmdOf (encode "LOAD_0 /opt/fw\n".toList) = some (loadName 0 :: ["/opt/fw".toList]) := by decide

/-- The image is replaced although the core has no attribute to write its name
to, and the reply says so. -/
theorem refused_load_overwrites :
    ∃ s : Disk Str,
      (run (loadEnv normpath .ok)
          (handle ⟨.initial, 1000, 10, .default⟩ (encode "LOAD_0 /opt/fw\n".toList)) s).1 ≠
        zeroReply ∧
      Below firmwarePath "/lib/firmware/fw".toList ∧
      (run (loadEnv normpath .ok)
          (handle ⟨.initial, 1000, 10, .default⟩ (encode "LOAD_0 /opt/fw\n".toList)) s).2.node
        "/lib/firmware/fw".toList ≠ s.node "/lib/firmware/fw".toList := by
  refine ⟨noAttributes, ?_⟩
  rw [run_handle_load normpath .ok _ cmdOf_optFw, run_loadFirmware]
  decide

end Daemon
