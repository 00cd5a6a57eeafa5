import PrussBindings.Daemon.Firmware
import PrussBindings.Lib.Transition

/-!
# Which image a core boots

All images end up in one directory under their base names, so loading one core
can replace the image of the other.  This file follows any sequence of `LOAD`
requests and compares what each core would boot with what was loaded on it.

* `Booted` — the disk, and for each core the content that its last successful
  `LOAD` had in its source file.
* `Step` — one request, served by the handler.
* `BootsLoaded` — every core would boot what was loaded on it.
* `Spares` — the requests that do no harm: what a copy does to the image of a
  loaded core is nothing, or is part of a `LOAD` of that very core that goes
  through; and the attribute takes the name exactly if the reply is `0`, or the
  core boots the same content already.
* `boots_loaded` — **as long as every request spares the images, every core
  boots what was loaded on it**.
-/

namespace Daemon

open Effect Errno Text Path Transition

variable {ι : Type}

/-! ## The system -/

/-- The content of a regular file. -/
def Disk.content (s : Disk ι) (i : ι) : Option Bytes :=
  match s.node i with
  | some (.file content) => some content
  | _ => none

/-- The path of the image with the given name. -/
def imagePath (name : Str) : Str := firmwarePath ++ ['/'] ++ name

/-- The disk, and what was last loaded on each core: the content of the source
file, as far as it had any. -/
structure Booted (ι : Type) where
  disk : Disk ι
  loaded : Fin 2 → Option (Option Bytes)

/-- A `LOAD` request, and how the system answers it. -/
structure LoadRequest where
  number : Fin 2
  stream : Bytes
  args : List Str
  answers : LoadAnswers

/-- The answers a system can give: no error has the number zero. -/
structure LoadAnswers.Genuine (a : LoadAnswers) : Prop where
  copyFault : ∀ fault, a.copyFault = some fault → Nonzero fault.exc
  attrOpen : ∀ e, a.attrOpen = .error e → Nonzero e
  attrWrite : ∀ e, a.attrWrite = .error e → Nonzero e
  attrWriteAgain : ∀ e, a.attrWriteAgain = .error e → Nonzero e

/-- The reply that counts as success. -/
def zeroReply : Outcome PyExc Bytes := .ret (encode (showInt 0))

/-- What the handler answers to a request, and the disk it leaves. -/
def LoadRequest.served [DecidableEq ι] (setup : Setup) (slot : Str → ι) (e : LoadRequest)
    (s : Disk ι) : Outcome PyExc Bytes × Disk ι :=
  run (loadEnv slot e.answers) (handle setup e.stream) s

/-- One request.  If the reply is `0`, the content of the source file at that
time counts as loaded. -/
structure Step [DecidableEq ι] (setup : Setup) (slot : Str → ι) (s : Booted ι) (e : LoadRequest)
    (s' : Booted ι) : Prop where
  line : cmdOf e.stream = some (loadName e.number :: e.args)
  genuine : e.answers.Genuine
  disk : s'.disk = (e.served setup slot s.disk).2
  loaded : s'.loaded =
    if (e.served setup slot s.disk).1 = zeroReply then
      Function.update s.loaded e.number
        (some (e.args.head?.bind fun source => s.disk.content (slot source)))
    else s.loaded

/-- Every core that was loaded would boot what was loaded on it. -/
def BootsLoaded (slot : Str → ι) (s : Booted ι) : Prop :=
  ∀ n content, s.loaded n = some content →
    s.disk.content (slot (imagePath (s.disk.attr n))) = content

/-- The attribute of the core is there and can be opened. -/
def AttrOpens (slot : Str → ι) (a : LoadAnswers) (n : Fin 2) (s : Disk ι) : Prop :=
  s.node (slot (rprocSysfs "firmware".toList n)) ≠ none ∧ ∃ u, a.attrOpen = .ok u

/-- The name is written to the attribute of the core without an error. -/
def AttrAccepts (slot : Str → ι) (a : LoadAnswers) (n : Fin 2) (name : Str) (s : Disk ι) : Prop :=
  AttrOpens slot a n s ∧ (a.writeName name).1 = .ok ()

/-- The attribute of the core takes the name. -/
def AttrTakes (slot : Str → ι) (a : LoadAnswers) (n : Fin 2) (name : Str) (s : Disk ι) : Prop :=
  AttrOpens slot a n s ∧ (a.writeName name).2 = true

/-- The disk on which the image is in place, and only the attribute is left to be
written. -/
inductive Ready [DecidableEq ι] (slot : Str → ι) (a : LoadAnswers) (source : Str) (s : Disk ι) :
    Disk ι → Prop where
  | inPlace : source = fwPath source → Ready slot a source s s
  | copied {u : Unit} {s' : Disk ι} : source ≠ fwPath source →
    copyImage slot a source s = (.ok u, s') → Ready slot a source s s'

/-- The request does no harm to the image of a loaded core.  A source that is copied
has a base name that can name a file, and the same content when it is normalised; and
where the destination is the image of a loaded core, the copy leaves there what was
there, or it is the core being loaded, and the system carries the request through.
Where the attribute does not take a name that is accepted, or takes one that is not, as
the one of a loaded core, the core boots the content of the source already. -/
structure Spares [DecidableEq ι] (slot : Str → ι) (s : Booted ι) (e : LoadRequest) : Prop where
  source : ∀ source s', e.args = [source] → s.disk.node (slot source) ≠ none →
    source ≠ fwPath source → (∃ u, copyImage slot e.answers source s.disk = (.ok u, s')) →
    IsName (basename source) ∧
      s.disk.content (slot (normpath source)) = s.disk.content (slot source)
  image : ∀ source, e.args = [source] → s.disk.node (slot source) ≠ none →
    source ≠ fwPath source → ∀ m, s.loaded m ≠ none →
    slot (imagePath (s.disk.attr m)) = slot (normpath (fwPath source)) →
    (copyImage slot e.answers source s.disk).2.node (slot (normpath (fwPath source))) =
        s.disk.node (slot (normpath (fwPath source))) ∨
      m = e.number ∧ (∃ u, (copyImage slot e.answers source s.disk).1 = .ok u) ∧
        AttrAccepts slot e.answers e.number (basename source)
          (copyImage slot e.answers source s.disk).2
  attr : ∀ source s', e.args = [source] → s.disk.node (slot source) ≠ none →
    Ready slot e.answers source s.disk s' →
    ¬ (AttrAccepts slot e.answers e.number (basename source) s' ↔
      AttrTakes slot e.answers e.number (basename source) s') →
    AttrAccepts slot e.answers e.number (basename source) s' ∨ s.loaded e.number ≠ none →
    s.disk.content (slot (imagePath (s.disk.attr e.number))) = s.disk.content (slot source)

/-! ## What a request changes -/

section Changes

variable {slot : Str → ι} {a : LoadAnswers} {n : Fin 2} {source : Str} {s s' : Disk ι}

theorem replyOf_int_ne_zero {k : Int} (hk : k ≠ 0) : replyOf (.ret (.int k)) ≠ zeroReply := by
  intro h
  exact hk (showInt_inj.1 (encode_injective (Outcome.ret.inj h)))

theorem replyOf_caught_ne_zero {e : PyExc} (he : Nonzero e) : replyOf (caught e) ≠ zeroReply := by
  cases e with
  | osError errno =>
    cases errno with
    | none => exact fun h => by cases h
    | some k => exact replyOf_int_ne_zero (neg_ne_zero.2 he)
  | _ => exact fun h => by cases h

/-- An exception of the attempts at writing a name has a number other than zero. -/
theorem nonzero_of_writeName (hgen : a.Genuine) {name : Str} {e : PyExc}
    (h : (a.writeName name).1 = .error e) : Nonzero e := by
  unfold LoadAnswers.writeName at h
  by_cases hname : name = []
  · rw [if_pos hname] at h
    cases h
  · rw [if_neg hname] at h
    cases hwrite : a.attrWrite with
    | ok u =>
      simp only [hwrite] at h
      cases h
    | error e =>
      simp only [hwrite] at h
      by_cases hfits : (encode name).length ≤ blockSize
      · rw [if_pos hfits] at h
        cases hagain : a.attrWriteAgain with
        | ok u =>
          simp only [hagain] at h
          cases h
          exact hgen.attrWrite e hwrite
        | error e' =>
          simp only [hagain] at h
          cases h
          exact hgen.attrWriteAgain _ hagain
      · rw [if_neg hfits] at h
        cases h
        exact hgen.attrWrite e hwrite

/-- A name that is accepted is taken, unless it is empty. -/
theorem AttrAccepts.takes {name : Str} (hname : name ≠ []) (h : AttrAccepts slot a n name s) :
    AttrTakes slot a n name s := by
  refine ⟨h.1, ?_⟩
  have hok := h.2
  unfold LoadAnswers.writeName at hok ⊢
  rw [if_neg hname] at hok ⊢
  cases hwrite : a.attrWrite with
  | ok u => rfl
  | error e =>
    simp only [hwrite] at hok
    by_cases hfits : (encode name).length ≤ blockSize
    · rw [if_pos hfits] at hok
      cases hagain : a.attrWriteAgain <;> simp only [hagain] at hok <;> cases hok
    · rw [if_neg hfits] at hok
      cases hok

variable (slot n s) in
/-- The reply is `0` exactly if the name is accepted. -/
theorem setFirmware_reply (hgen : a.Genuine) (name : Str) :
    replyOf (setFirmware slot a n name s).1 = zeroReply ↔ AttrAccepts slot a n name s := by
  unfold setFirmware AttrAccepts AttrOpens
  generalize rprocSysfs "firmware".toList n = path
  by_cases hnode : s.node (slot path) = none
  · rw [if_pos hnode]
    exact iff_of_false (replyOf_int_ne_zero (by decide)) fun h => h.1.1 hnode
  · rw [if_neg hnode]
    cases hopen : a.attrOpen with
    | error e =>
      refine iff_of_false (replyOf_caught_ne_zero (hgen.attrOpen e hopen)) ?_
      rintro ⟨⟨-, _, h⟩, -⟩
      cases h
    | ok u =>
      rcases hname : (a.writeName name).1 with e | ⟨⟩
      · refine iff_of_false ?_ fun h => absurd h.2 (by simp)
        exact replyOf_caught_ne_zero (nonzero_of_writeName hgen hname)
      · exact iff_of_true rfl ⟨⟨hnode, u, rfl⟩, rfl⟩

variable (slot a n s) in
/-- The name is in the attribute afterwards, or nothing has changed. -/
theorem setFirmware_disk (name : Str) :
    AttrTakes slot a n name s ∧ (setFirmware slot a n name s).2 = s.rename n name true ∨
      ¬ AttrTakes slot a n name s ∧ (setFirmware slot a n name s).2 = s := by
  unfold setFirmware AttrTakes AttrOpens
  generalize rprocSysfs "firmware".toList n = path
  by_cases hnode : s.node (slot path) = none
  · rw [if_pos hnode]
    exact .inr ⟨fun h => h.1.1 hnode, rfl⟩
  · rw [if_neg hnode]
    cases hopen : a.attrOpen with
    | error e =>
      refine .inr ⟨?_, rfl⟩
      rintro ⟨⟨-, _, h⟩, -⟩
      cases h
    | ok u =>
      rcases hname : a.writeName name with ⟨res, _ | _⟩
      · exact .inr ⟨fun h => absurd h.2 (by simp), rfl⟩
      · exact .inl ⟨⟨⟨hnode, u, rfl⟩, rfl⟩, rfl⟩

variable [DecidableEq ι]

/-- A copy changes nothing but its destination. -/
theorem node_copyImage {i : ι} (hi : i ≠ slot (normpath (fwPath source))) :
    (copyImage slot a source s).2.node i = s.node i := by
  unfold copyImage
  obtain ⟨e, he⟩ | ⟨e, content, he⟩ | ⟨content, -, he⟩ :=
    copyFile_cases slot a.copyFault (normpath source) (normpath (fwPath source)) s
  · rw [he]
  · rw [he]
    exact Function.update_of_ne hi ..
  · rw [he]
    exact Function.update_of_ne hi ..

variable (slot a source s) in
theorem attr_copyImage : (copyImage slot a source s).2.attr = s.attr := by
  unfold copyImage
  obtain ⟨e, he⟩ | ⟨e, content, he⟩ | ⟨content, -, he⟩ :=
    copyFile_cases slot a.copyFault (normpath source) (normpath (fwPath source)) s <;> rw [he] <;> rfl

/-- A copy that goes through puts the content of the source in the destination. -/
theorem content_copyImage {u : Unit} (h : copyImage slot a source s = (.ok u, s')) :
    s'.content (slot (normpath (fwPath source))) = s.content (slot (normpath source)) := by
  unfold copyImage at h
  obtain ⟨e, he⟩ | ⟨e, content, he⟩ | ⟨content, hsrc, he⟩ :=
    copyFile_cases slot a.copyFault (normpath source) (normpath (fwPath source)) s
  · rw [he] at h
    cases h
  · rw [he] at h
    cases h
  · rw [he] at h
    cases h
    simp [Disk.content, Disk.noteCopy, Disk.store, hsrc]

/-- An exception of a copy has a number other than zero. -/
theorem nonzero_of_copyImage (hgen : a.Genuine) {e : PyExc}
    (h : copyImage slot a source s = (.error e, s')) : Nonzero e := by
  have hisdir : Nonzero (.osError (some EISDIR)) := by simp [Nonzero, EISDIR]
  unfold copyImage copyFile at h
  cases hfault : a.copyFault with
  | some fault =>
    simp only [hfault] at h
    cases h
    exact hgen.copyFault _ hfault
  | none =>
    simp only [hfault] at h
    cases hsrc : s.node (slot (normpath source)) with
    | none =>
      simp only [hsrc] at h
      cases h
      simp [Nonzero, ENOENT]
    | some node =>
      simp only [hsrc] at h
      by_cases hsame : slot (normpath source) = slot (normpath (fwPath source))
      · rw [if_pos hsame] at h
        cases h
        trivial
      · rw [if_neg hsame] at h
        cases node with
        | dir =>
          cases h
          exact hisdir
        | file content =>
          by_cases hdir : s.node (slot (normpath (fwPath source))) = some .dir
          · simp only [if_pos hdir] at h
            cases h
            exact hisdir
          · simp only [if_neg hdir] at h
            cases h

/-- What comes before the attribute is written changes no attribute. -/
theorem Ready.attr_eq (h : Ready slot a source s s') : s'.attr = s.attr := by
  cases h with
  | inPlace _ => rfl
  | copied _ hcopy =>
    have hattr := attr_copyImage slot a source s
    rwa [hcopy] at hattr

/-- **What a `LOAD` can come to**, seen from the images. -/
inductive LoadChange (slot : Str → ι) (a : LoadAnswers) (n : Fin 2) (source : Str) (s : Disk ι) :
    Outcome PyExc Bytes × Disk ι → Prop where
  | missing {reply : Outcome PyExc Bytes} : reply ≠ zeroReply →
    LoadChange slot a n source s (reply, s)
  | broken {reply : Outcome PyExc Bytes} {e : PyExc} {s' : Disk ι} : s.node (slot source) ≠ none →
    source ≠ fwPath source → copyImage slot a source s = (.error e, s') → reply ≠ zeroReply →
    LoadChange slot a n source s (reply, s')
  | ready {s' : Disk ι} : s.node (slot source) ≠ none → Ready slot a source s s' →
    LoadChange slot a n source s
      (replyOf (setFirmware slot a n (basename source) s').1,
        (setFirmware slot a n (basename source) s').2)

variable (slot n source s) in
theorem loadChange (hgen : a.Genuine) :
    LoadChange slot a n source s
      (replyOf (load slot a n source s).1, (load slot a n source s).2) := by
  unfold load
  by_cases hnode : s.node (slot source) = none
  · rw [if_pos hnode]
    exact .missing (replyOf_int_ne_zero (by decide))
  · rw [if_neg hnode]
    by_cases hsame : source = fwPath source
    · rw [if_pos hsame]
      exact .ready hnode (.inPlace hsame)
    · rw [if_neg hsame]
      cases hcopy : copyImage slot a source s with
      | mk res s' =>
        cases res with
        | error e =>
          have hreply := replyOf_caught_ne_zero (nonzero_of_copyImage hgen hcopy)
          exact .broken hnode hsame hcopy hreply
        | ok u => exact .ready hnode (.copied hsame hcopy)

end Changes

/-! ## Runs -/

section Runs

variable [DecidableEq ι] {setup : Setup} {slot : Str → ι} {s s' : Booted ι} {e : LoadRequest}

/-- A request with a single source is served by `load`; any other changes
nothing and is not answered `0`. -/
theorem served_cases (setup : Setup) (slot : Str → ι) (s : Disk ι)
    (hline : cmdOf e.stream = some (loadName e.number :: e.args)) :
    (∃ source, e.args = [source] ∧ e.served setup slot s =
        (replyOf (load slot e.answers e.number source s).1,
          (load slot e.answers e.number source s).2)) ∨
      (e.served setup slot s).2 = s ∧ (e.served setup slot s).1 ≠ zeroReply := by
  unfold LoadRequest.served
  rw [run_handle_load slot e.answers setup hline]
  match hargs : e.args with
  | [] => exact .inr ⟨rfl, fun h => by cases h⟩
  | [source] =>
    rw [run_loadFirmware]
    exact .inl ⟨source, rfl, rfl⟩
  | source :: word :: rest =>
    unfold loadFirmware
    rw [if_pos (by simp)]
    exact .inr ⟨rfl, replyOf_int_ne_zero (by decide)⟩

/-- What a sparing request does to the image of a loaded core, unless it loads
that core. -/
theorem Spares.content_image (hspares : Spares slot s e) {source : Str} (hargs : e.args = [source])
    (hnode : s.disk.node (slot source) ≠ none) (hsame : source ≠ fwPath source)
    {res : Except PyExc Unit} {d : Disk ι}
    (hcopy : copyImage slot e.answers source s.disk = (res, d)) {m : Fin 2}
    (hm : s.loaded m ≠ none)
    (hother : ¬ (m = e.number ∧ (∃ u, res = .ok u) ∧
      AttrAccepts slot e.answers e.number (basename source) d)) :
    d.content (slot (imagePath (s.disk.attr m))) =
      s.disk.content (slot (imagePath (s.disk.attr m))) := by
  have himage := hspares.image source hargs hnode hsame m hm
  have hkept := @node_copyImage ι slot e.answers source s.disk _ (slot (imagePath (s.disk.attr m)))
  rw [hcopy] at himage hkept
  unfold Disk.content
  by_cases hslot : slot (imagePath (s.disk.attr m)) = slot (normpath (fwPath source))
  · obtain hnode | hgone := himage hslot
    · rw [hslot, hnode]
    · exact absurd hgone hother
  · rw [hkept hslot]

/-- With the image in place, the name of the source leads to its content. -/
theorem Spares.content_source (hspares : Spares slot s e) {source : Str}
    (hargs : e.args = [source]) (hnode : s.disk.node (slot source) ≠ none) {d : Disk ι}
    (h : Ready slot e.answers source s.disk d) :
    d.content (slot (imagePath (basename source))) = s.disk.content (slot source) := by
  cases h with
  | inPlace hplace =>
    have himage : imagePath (basename source) = source := hplace.symm
    rw [himage]
  | copied hne hcopy =>
    obtain ⟨hname, hsource⟩ := hspares.source source d hargs hnode hne ⟨_, hcopy⟩
    have himage : imagePath (basename source) = normpath (fwPath source) :=
      (normpath_fwPath hname).symm
    rw [himage, content_copyImage hcopy, hsource]

/-- With the image in place, the image of a loaded core is what it was, unless it is the
core that is being loaded. -/
theorem Spares.content_other (hspares : Spares slot s e) {source : Str} (hargs : e.args = [source])
    (hnode : s.disk.node (slot source) ≠ none) {d : Disk ι}
    (h : Ready slot e.answers source s.disk d) {m : Fin 2} (hm : s.loaded m ≠ none)
    (hother : ¬ (m = e.number ∧ AttrAccepts slot e.answers e.number (basename source) d)) :
    d.content (slot (imagePath (d.attr m))) =
      s.disk.content (slot (imagePath (s.disk.attr m))) := by
  rw [h.attr_eq]
  cases h with
  | inPlace _ => rfl
  | copied hne hcopy =>
    exact hspares.content_image hargs hnode hne hcopy hm fun hgone => hother ⟨hgone.1, hgone.2.2⟩

/-- A name that is accepted and not taken is the empty one, and no copy was made. -/
theorem Spares.inPlace_of_not_taken (hspares : Spares slot s e) {source : Str}
    (hargs : e.args = [source]) (hnode : s.disk.node (slot source) ≠ none) {d : Disk ι}
    (h : Ready slot e.answers source s.disk d)
    (haccepts : AttrAccepts slot e.answers e.number (basename source) d)
    (htakes : ¬ AttrTakes slot e.answers e.number (basename source) d) : d = s.disk := by
  cases h with
  | inPlace _ => rfl
  | copied hne hcopy =>
    obtain ⟨hname, -⟩ := hspares.source source d hargs hnode hne ⟨_, hcopy⟩
    exact absurd (haccepts.takes hname.1) htakes

omit [DecidableEq ι] in
/-- The name that is put in the attribute of a core leads to what counts as loaded on
it, and the other loaded cores boot what was loaded on them. -/
theorem BootsLoaded.rename {n : Fin 2} {d : Disk ι} {name : Str}
    (hdisk : s'.disk = d.rename n name true)
    (hnew : ∀ content, s'.loaded n = some content → d.content (slot (imagePath name)) = content)
    (hothers : ∀ m, m ≠ n → ∀ content, s'.loaded m = some content →
      d.content (slot (imagePath (d.attr m))) = content) : BootsLoaded slot s' := by
  intro m content hm
  rw [hdisk]
  show d.content (slot (imagePath (Function.update d.attr n name m))) = content
  by_cases hmn : m = n
  · subst hmn
    rw [Function.update_self]
    exact hnew content hm
  · rw [Function.update_of_ne hmn]
    exact hothers m hmn content hm

/-- **The attribute is written**, with the image in place.  The cases are whether the
reply is `0` and whether the attribute takes the name. -/
theorem Spares.bootsLoaded (hspares : Spares slot s e) (hs : BootsLoaded slot s) {source : Str}
    (hargs : e.args = [source]) (hnode : s.disk.node (slot source) ≠ none) {d : Disk ι}
    (hready : Ready slot e.answers source s.disk d) (hgen : e.answers.Genuine)
    (hdisk : s'.disk = (setFirmware slot e.answers e.number (basename source) d).2)
    (hloaded : s'.loaded =
      if replyOf (setFirmware slot e.answers e.number (basename source) d).1 = zeroReply then
        Function.update s.loaded e.number (some (s.disk.content (slot source)))
      else s.loaded) : BootsLoaded slot s' := by
  have hsource := hspares.content_source hargs hnode hready
  have hother {m : Fin 2} {content : Option Bytes} (hm : s.loaded m = some content)
      (h : ¬ (m = e.number ∧ AttrAccepts slot e.answers e.number (basename source) d)) :
      d.content (slot (imagePath (d.attr m))) = content :=
    (hspares.content_other hargs hnode hready (by simp [hm]) h).trans (hs m content hm)
  have hboots := hspares.attr source d hargs hnode hready
  by_cases haccepts : AttrAccepts slot e.answers e.number (basename source) d
  · rw [if_pos ((setFirmware_reply slot e.number d hgen _).2 haccepts)] at hloaded
    have hself : s'.loaded e.number = some (s.disk.content (slot source)) := by
      rw [hloaded, Function.update_self]
    have hrest {m : Fin 2} (hm : m ≠ e.number) : s'.loaded m = s.loaded m := by
      rw [hloaded, Function.update_of_ne hm]
    obtain ⟨-, hset⟩ | ⟨htakes, hset⟩ :=
      setFirmware_disk slot e.answers e.number d (basename source)
    · refine .rename (hdisk.trans hset) (fun content hm => ?_) fun m hm content hc => ?_
      · exact hsource.trans (Option.some_inj.1 (hself.symm.trans hm))
      · exact hother (hrest hm ▸ hc) fun h => hm h.1
    · -- the empty name: the attribute keeps the one it has
      have hsame := hspares.inPlace_of_not_taken hargs hnode hready haccepts htakes
      intro m content hm
      rw [hdisk, hset]
      by_cases hmn : m = e.number
      · subst hmn
        rw [hsame, hboots (fun h => htakes (h.1 haccepts)) (.inl haccepts)]
        exact Option.some_inj.1 (hself.symm.trans hm)
      · exact hother (hrest hmn ▸ hm) fun h => hmn h.1
  · rw [if_neg fun h => haccepts ((setFirmware_reply slot e.number d hgen _).1 h)] at hloaded
    obtain ⟨htakes, hset⟩ | ⟨-, hset⟩ :=
      setFirmware_disk slot e.answers e.number d (basename source)
    · -- refused at first, and written when the file was closed
      refine .rename (hdisk.trans hset) (fun content hm => ?_) fun m hm content hc => ?_
      · rw [hloaded] at hm
        rw [hsource, ← hboots (fun h => haccepts (h.2 htakes)) (.inr (by simp [hm]))]
        exact hs _ content hm
      · rw [hloaded] at hc
        exact hother hc fun h => haccepts h.2
    · intro m content hm
      rw [hdisk, hset]
      rw [hloaded] at hm
      exact hother hm fun h => haccepts h.2

/-- **One request that spares the images.** -/
theorem Step.bootsLoaded (h : Step setup slot s e s') (hspares : Spares slot s e)
    (hs : BootsLoaded slot s) : BootsLoaded slot s' := by
  have hdisk := h.disk
  have hloaded := h.loaded
  obtain ⟨source, hargs, hserved⟩ | ⟨hsame, hreply⟩ := served_cases setup slot s.disk h.line
  · have hchange := loadChange slot e.number source s.disk h.genuine
    rw [← hserved] at hchange
    generalize e.served setup slot s.disk = res at hdisk hloaded hchange
    cases hchange with
    | missing hreply =>
      rw [if_neg hreply] at hloaded
      intro m content hm
      rw [hdisk]
      exact hs m content (hloaded ▸ hm)
    | @broken reply exc d hnode hne hcopy hreply =>
      rw [if_neg hreply] at hloaded
      intro m content hm
      rw [hloaded] at hm
      have hattr : d.attr = s.disk.attr := by
        have h := attr_copyImage slot e.answers source s.disk
        rwa [hcopy] at h
      rw [hdisk, hattr, hspares.content_image hargs hnode hne hcopy (by simp [hm]) ?_]
      · exact hs m content hm
      · rintro ⟨-, ⟨u, hu⟩, -⟩
        cases hu
    | ready hnode hready =>
      rw [hargs] at hloaded
      exact hspares.bootsLoaded hs hargs hnode hready h.genuine hdisk hloaded
  · rw [if_neg hreply] at hloaded
    intro m content hm
    rw [hdisk, hsame]
    exact hs m content (hloaded ▸ hm)

/-- **As long as every request spares the images, every core boots what was
loaded on it**: in every state that a run of such requests reaches, from a
system on which nothing has been loaded yet. -/
theorem boots_loaded (setup : Setup) (slot : Str → ι) {disk : Disk ι} {es : List LoadRequest}
    {s : Booted ι}
    (h : Run (fun s e s' => Spares slot s e ∧ Step setup slot s e s') ⟨disk, fun _ => none⟩ es s) :
    BootsLoaded slot s := by
  apply h.invariant fun s e s' hs hstep => hstep.2.bootsLoaded hstep.1 hs
  intro m content hm
  cases hm

end Runs

/-- Two images of the same base name, and the attributes of the cores. -/
def twoImages : Booted Str where
  disk := exampleDisk [("/a/fw".toList, [1]), ("/b/fw".toList, [2]),
    (rprocSysfs "firmware".toList 0, []), (rprocSysfs "firmware".toList 1, [])]
  loaded := fun _ => none

/-- Loads an image on a core; nothing goes wrong. -/
def loadFrom (number : Fin 2) (source : Str) : LoadRequest where
  number := number
  stream := encode (unwords [loadName number, source]) ++ [10]
  args := [source]
  answers := .ok

/-- The state after a request. -/
def Booted.next (s : Booted Str) (e : LoadRequest) : Booted Str where
  disk := (e.served ⟨.initial, 1000, 10, .default⟩ normpath s.disk).2
  loaded :=
    if (e.served ⟨.initial, 1000, 10, .default⟩ normpath s.disk).1 = zeroReply then
      Function.update s.loaded e.number
        (some (e.args.head?.bind fun source => s.disk.content (normpath source)))
    else s.loaded

theorem LoadAnswers.genuine_ok : LoadAnswers.ok.Genuine where
  copyFault _ h := by cases h
  attrOpen _ h := by cases h
  attrWrite _ h := by cases h
  attrWriteAgain _ h := by cases h

theorem step_next {number : Fin 2} {source : Str} (hsource : IsToken source) (s : Booted Str) :
    Step ⟨.initial, 1000, 10, .default⟩ normpath s (loadFrom number source)
      (s.next (loadFrom number source)) := by
  refine ⟨?_, LoadAnswers.genuine_ok, by simp only [Booted.next], by simp only [Booted.next]⟩
  have htok : ∀ w ∈ [loadName number, source], IsToken w := by
    simp only [List.forall_mem_cons]
    refine ⟨?_, hsource, by simp⟩
    revert number
    decide
  unfold loadFrom
  rw [cmdOf_encode (newline_not_mem_unwords htok), words_unwords htok]

/-- Where nothing goes wrong, an attribute takes the names it accepts. -/
theorem LoadAnswers.accepts_iff_takes {slot : Str → ι} {n : Fin 2} {name : Str} {s : Disk ι}
    (hname : name ≠ []) : AttrAccepts slot .ok n name s ↔ AttrTakes slot .ok n name s := by
  refine and_congr_right fun _ => ?_
  unfold LoadAnswers.writeName
  rw [if_neg hname]
  exact iff_of_true rfl rfl

/-- Core `0` is loaded twice, the second time over its own image. -/
theorem boots_loaded_twice :
    BootsLoaded normpath
      ((twoImages.next (loadFrom 0 "/a/fw".toList)).next (loadFrom 0 "/b/fw".toList)) := by
  refine boots_loaded ⟨.initial, 1000, 10, .default⟩ normpath
    (.cons ⟨⟨?_, ?_, ?_⟩, step_next (by decide) twoImages⟩
      (.cons ⟨⟨?_, ?_, ?_⟩, step_next (by decide) _⟩ (.nil _)))
  · intro source s' hargs _ _ _
    obtain rfl : "/a/fw".toList = source := List.singleton_inj.1 hargs
    exact ⟨by decide, by decide⟩
  · exact fun source _ _ _ m hm => absurd rfl hm
  · intro source s' hargs _ _ hne
    obtain rfl : "/a/fw".toList = source := List.singleton_inj.1 hargs
    exact absurd (LoadAnswers.accepts_iff_takes (by decide)) hne
  · intro source s' hargs _ _ _
    obtain rfl : "/b/fw".toList = source := List.singleton_inj.1 hargs
    exact ⟨by decide, by decide⟩
  · intro source hargs _ _ m hm _
    obtain rfl : "/b/fw".toList = source := List.singleton_inj.1 hargs
    have hm0 : m = 0 := by
      revert hm
      revert m
      decide
    exact .inr ⟨hm0, ⟨(), by decide⟩, ⟨by decide, (), rfl⟩, rfl⟩
  · intro source s' hargs _ _ hne
    obtain rfl : "/b/fw".toList = source := List.singleton_inj.1 hargs
    exact absurd (LoadAnswers.accepts_iff_takes (by decide)) hne

/-- Loading core `1` replaces what core `0` boots. -/
theorem image_of_other_core_replaced :
    ∃ es s, Run (Step ⟨.initial, 1000, 10, .default⟩ normpath) twoImages es s ∧
      ¬ BootsLoaded normpath s := by
  refine ⟨[loadFrom 0 "/a/fw".toList, loadFrom 1 "/b/fw".toList], _,
    .cons (step_next (by decide) _) (.cons (step_next (by decide) _) (.nil _)), fun h => ?_⟩
  have hboots := h 0 (some [1]) (by decide)
  exact absurd hboots (by decide)

end Daemon
