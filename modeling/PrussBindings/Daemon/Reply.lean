import PrussBindings.Daemon.Request
import PrussBindings.Lib.Trace

/-!
# Which requests get a reply

A request gets its reply unless something on the way raises an exception that
nothing catches, or a `GETMSG` never runs out of lines to read.  What can go
wrong depends on the line and on the answers of the system, and this file says
exactly when it does.

* `LineOK` — what the line itself must be: a word, the arguments its command
  indexes, and for the memory commands a byte to read or write.
* `DeviceArgsOK` — what the arguments must be once the rpmsg device is open.
* `CallOK` — the answers of the system that a handler survives.
* `handle_replies_iff` — **a reply is sent exactly if all of these hold**, for
  every line of bytes and every answer of the system.

Each handler has a lemma of the form `EndsWell .. (handler ..) HasText`; the
table of commands is gone through once, in `serve_endsWell`.
-/

namespace Daemon

open Effect Errno Text

/-! ## The conditions -/

/-- An `OSError` with a number, which the handlers' `except` clause can negate. -/
def Numbered : PyExc → Prop
  | .osError (some _) => True
  | _ => False

/-- The exception in a result. -/
def raisedBy {α : Type} : Except PyExc α → Option PyExc
  | .ok _ => none
  | .error e => some e

/-- The exception a call raised. -/
def raised : (o : OsOp) → OsRes o → Option PyExc
  | .openFile _ _, r => raisedBy r
  | .read _, r => raisedBy r
  | .readline _, r => raisedBy r
  | .write _ _, r => raisedBy r
  | .writeAgain _ _, r => raisedBy r
  | .select _ _, r => raisedBy r
  | .popenWait _, r => raisedBy r
  | .copyfile _ _, r => raisedBy r
  | .mmap _ _, r => raisedBy r
  | .pathExists _, _ => none
  | .close _, _ => none
  | .sleep _, _ => none
  | .peek _, _ => none
  | .poke _ _, _ => none

/-- The call opened a file. -/
def opened : (o : OsOp) → OsRes o → Bool
  | .openFile _ _, r => (raisedBy r).isNone
  | _, _ => false

/-- The call read a whole file and found nothing in it. -/
def readNothing : (o : OsOp) → OsRes o → Bool
  | .read _, .ok s => s.isEmpty
  | _, _ => false

/-- A poll that found the device readable. -/
def readyPoll (c : Call OsRes) : Bool :=
  match c with
  | ⟨.select _ _, .ok ready⟩ => ready
  | _ => false

/-- The last exception that was raised.  A handler gets no further than the first one,
except that a write which was refused may be made a second time, and then the second
refusal is the one that is reported. -/
def lastRaised : Trace OsRes → Option PyExc
  | [] => none
  | c :: tr => (lastRaised tr).or (raised c.1 c.2)

/-- An answer a handler survives if it is no exception: it opens a file only if the
arguments are fit for it; and a file that is read whole is not empty. -/
structure CallOK (argsOK : Prop) (c : Call OsRes) : Prop where
  args : opened c.1 c.2 = true → argsOK
  text : readNothing c.1 c.2 = false

/-- The offset of a `MEMREAD` is no number, or has a byte of the mapping at it. -/
def MemReadOK (ram : Ram) : Except PyExc Int → Prop
  | .ok o => (sliceByte pruIcssSize (ram.base + o)).isSome
  | .error e => e = .valueError

/-- The arguments of a `MEMWRITE` are no numbers, or a byte and a place for it. -/
def MemWriteOK (ram : Ram) : Except PyExc (Int × Int) → Prop
  | .ok (o, d) => (0 ≤ d ∧ d < 256) ∧ (sliceByte pruIcssSize (ram.base + o)).isSome
  | .error e => e = .valueError

/-- What the words of the line must be, whatever the system answers. -/
structure LineOK (setup : Setup) (cmd : List Str) : Prop where
  word : cmd ≠ []
  load : cmd.head? = some "LOAD_0".toList ∨ cmd.head? = some "LOAD_1".toList → 2 ≤ cmd.length
  memRead : ∀ ram : Ram, cmd.head? = some ram.readCmd → MemReadOK ram (memReadArgs setup cmd)
  memWrite : ∀ ram : Ram, cmd.head? = some ram.writeCmd → MemWriteOK ram (memWriteArgs setup cmd)

/-- The integer of a `SENDMSG` in mode `r` fits a signed word. -/
def Packable (setup : Setup) (cmd : List Str) : Prop :=
  ∀ args, sendMsgArgs setup cmd = .ok args → args.mode = ['r'] →
    -2 ^ 31 ≤ args.intData ∧ args.intData < 2 ^ 31

/-- The timeout of an `EVENTWAIT` is one that `select` accepts. -/
def TimeoutOK (setup : Setup) (cmd : List Str) : Prop :=
  ∀ chan t, eventWaitArgs setup cmd = .ok (chan, some t) → 0 ≤ t ∧ t ≤ setup.maxTimeout

/-- What the arguments must be once the device is open. -/
structure DeviceArgsOK (setup : Setup) (cmd : List Str) : Prop where
  send : cmd.head? = some "SENDMSG".toList → Packable setup cmd
  wait : cmd.head? = some "EVENTWAIT".toList → TimeoutOK setup cmd

/-- A memory command, whose handler catches no `OSError`. -/
def IsMemCmd (cmd : List Str) : Prop :=
  ∃ ram : Ram, cmd.head? = some ram.readCmd ∨ cmd.head? = some ram.writeCmd

/-- The answers of the system to the calls of a request. -/
structure AnswersOK (setup : Setup) (cmd : List Str) (tr : Trace OsRes) : Prop where
  exc : ∀ e, lastRaised tr = some e → ¬ IsMemCmd cmd ∧ Numbered e
  calls : ∀ c ∈ tr, CallOK (DeviceArgsOK setup cmd) c
  lines : cmd.head? = some "GETMSG".toList → tr.countP readyPoll ≤ setup.maxLines

/-- The handler wrote a reply that is not empty. -/
def Replied (out : Outcome PyExc Bytes) : Prop := ∃ reply, reply ≠ [] ∧ out = .ret reply

/-- A response that makes a reply. -/
def HasText (r : Resp) : Prop := r.toStr ≠ []

/-! ## Calls -/

section Calls

variable {caught argsOK : Prop}

@[simp] theorem callOK_open (p : Str) (m : OpenMode) :
    CallOK argsOK ⟨.openFile p m, .ok ()⟩ ↔ argsOK :=
  ⟨fun h => h.args rfl, fun h => ⟨fun _ => h, rfl⟩⟩

@[simp] theorem callOK_read (p : Str) (s : Str) : CallOK argsOK ⟨.read p, .ok s⟩ ↔ s ≠ [] := by
  refine ⟨fun h hs => ?_, fun h => ⟨by simp [opened], ?_⟩⟩
  · have := h.text
    simp [readNothing, hs] at this
  · simpa [readNothing] using h

/-- An answer that raises. -/
theorem callOK_error {o : OsOp} {r : OsRes o} {e : PyExc} (h : raised o r = some e) :
    CallOK argsOK ⟨o, r⟩ := by
  refine ⟨fun ho => ?_, ?_⟩
  · cases o <;> simp_all [opened, raised]
  · cases o <;> simp_all [readNothing, raised]
    rename_i p
    cases r <;> simp_all [raisedBy]

/-- The exception that is reported, if there is one, is one the handler catches, and the
other answers are survived. -/
structure AllOK (caught argsOK : Prop) (tr : Trace OsRes) : Prop where
  exc : ∀ e, lastRaised tr = some e → caught ∧ Numbered e
  calls : ∀ c ∈ tr, CallOK argsOK c

@[simp] theorem allOK_nil (caught argsOK : Prop) : AllOK caught argsOK [] :=
  ⟨by simp [lastRaised], by simp⟩

/-- An answer that raises nothing comes first. -/
theorem allOK_cons {c : Call OsRes} {tr : Trace OsRes} (hc : raised c.1 c.2 = none) :
    AllOK caught argsOK (c :: tr) ↔ CallOK argsOK c ∧ AllOK caught argsOK tr := by
  have hlast : lastRaised (c :: tr) = lastRaised tr := by
    rw [lastRaised, hc, Option.or_none]
  constructor
  · rintro ⟨hexc, hcalls⟩
    rw [hlast] at hexc
    rw [List.forall_mem_cons] at hcalls
    exact ⟨hcalls.1, hexc, hcalls.2⟩
  · rintro ⟨hcall, hexc, hcalls⟩
    exact ⟨by rwa [hlast], List.forall_mem_cons.2 ⟨hcall, hcalls⟩⟩

/-- An answer that raises nothing, opens nothing and is no empty file comes first. -/
theorem allOK_quiet {c : Call OsRes} {tr : Trace OsRes} (hc : raised c.1 c.2 = none)
    (ho : opened c.1 c.2 = false) (hr : readNothing c.1 c.2 = false) :
    AllOK caught argsOK (c :: tr) ↔ AllOK caught argsOK tr := by
  rw [allOK_cons hc, and_iff_right ⟨by simp [ho], hr⟩]

/-- An answer that raises comes last. -/
theorem allOK_error {o : OsOp} {r : OsRes o} {e : PyExc} (h : raised o r = some e) :
    AllOK caught argsOK [⟨o, r⟩] ↔ caught ∧ Numbered e := by
  have hlast : lastRaised [⟨o, r⟩] = some e := h
  refine ⟨fun hc => hc.exc e hlast, fun hc => ⟨fun e' he' => ?_, ?_⟩⟩
  · cases Option.some_inj.1 (hlast.symm.trans he')
    exact hc
  · rw [List.forall_mem_singleton]
    exact callOK_error h

theorem lastRaised_append (tr tr' : Trace OsRes) :
    lastRaised (tr ++ tr') = (lastRaised tr').or (lastRaised tr) := by
  induction tr with
  | nil => exact (Option.or_none).symm
  | cons c tr ih =>
    show (lastRaised (tr ++ tr')).or _ = _
    rw [ih, Option.or_assoc]
    rfl

/-- What comes after answers that are survived. -/
theorem allOK_append {tr : Trace OsRes} (h : AllOK caught argsOK tr) (tr' : Trace OsRes) :
    AllOK caught argsOK (tr ++ tr') ↔ AllOK caught argsOK tr' := by
  constructor
  · rintro ⟨hexc, hcalls⟩
    refine ⟨fun e he => hexc e ?_, fun c hc => hcalls c (List.mem_append_right _ hc)⟩
    rw [lastRaised_append, he]
    rfl
  · intro h'
    refine ⟨fun e he => ?_, fun c hc => ?_⟩
    · rw [lastRaised_append] at he
      cases htr' : lastRaised tr' with
      | some e' =>
        rw [htr'] at he
        cases he
        exact h'.exc e htr'
      | none =>
        rw [htr'] at he
        exact h.exc e he
    · exact (List.mem_append.1 hc).elim (h.calls c) (h'.calls c)

/-- The file is closed in the end. -/
theorem allOK_concat_close (tr : Trace OsRes) (path : Str) :
    AllOK caught argsOK (tr ++ [⟨.close path, ()⟩]) ↔ AllOK caught argsOK tr := by
  have hlast : lastRaised (tr ++ [⟨.close path, ()⟩]) = lastRaised tr := by
    rw [lastRaised_append]
    rfl
  have hclose : CallOK argsOK ⟨.close path, ()⟩ := ⟨by simp [opened], rfl⟩
  constructor
  · rintro ⟨hexc, hcalls⟩
    exact ⟨by rwa [← hlast], fun c hc => hcalls c (List.mem_append_left _ hc)⟩
  · rintro ⟨hexc, hcalls⟩
    refine ⟨by rwa [hlast], fun c hc => ?_⟩
    obtain hc | hc := List.mem_append.1 hc
    · exact hcalls c hc
    · rw [List.mem_singleton.1 hc]
      exact hclose

end Calls

/-! ## Rules for the pieces of a handler -/

/-- The exceptions that still count as a good end inside a `try` block. -/
def Caught (caught : Prop) (e : PyExc) : Prop := caught ∧ Numbered e

theorem hasText_int (n : Int) : HasText (.int n) := showInt_ne_nil n

section Rules

variable {α β : Type} {G : PyExc → Prop} {K K' : Trace OsRes → Prop} {Q : α → Prop}
  {caught argsOK : Prop}

/-- Sequencing after a part that only has to return. -/
theorem endsWell_bind {p : Py β} {f : β → Py α}
    (hp : EndsWell G (AllOK caught argsOK) p fun _ => True)
    (hf : ∀ b, EndsWell G (AllOK caught argsOK) (f b) Q) :
    EndsWell G (AllOK caught argsOK) (p >>= f) Q := by
  apply hp.bind
  intro b tr htr
  exact (hf b).congr fun tr' => (allOK_append (htr.1 trivial) tr').symm

/-- A call that may raise, and is otherwise survived. -/
theorem endsWell_check (o : OsOp) (result : OsRes o → Except PyExc α)
    (hraised : ∀ r, raised o r = raisedBy (result r)) (hopened : ∀ r, opened o r = false)
    (htext : ∀ r, readNothing o r = false) :
    EndsWell (Caught caught) (AllOK caught argsOK) (.call o fun r => check (result r))
      fun _ => True := by
  intro r
  show EndsWell _ _ (check (result r)) _
  have hr := hraised r
  cases hres : result r with
  | ok a =>
    rw [hres] at hr
    exact iff_of_true trivial ((allOK_quiet hr (hopened r) (htext r)).2 (allOK_nil _ _))
  | error e =>
    rw [hres] at hr
    exact (allOK_error hr).symm

theorem endsWell_write (p : Str) (data : Bytes) :
    EndsWell (Caught caught) (AllOK caught argsOK) (write p data) fun _ => True :=
  endsWell_check (.write p data) (fun r => r) (fun _ => rfl) (fun _ => rfl) fun _ => rfl

/-- **A write in text mode.**  What counts is the exception of the second attempt, if
that raises one, and the one of the first otherwise. -/
theorem endsWell_writeText (p : Str) (data : Bytes) :
    EndsWell (Caught caught) (AllOK caught argsOK) (writeText p data) fun _ => True := by
  unfold writeText
  by_cases hdata : data = []
  · rw [if_pos hdata]
    exact iff_of_true trivial (allOK_nil _ _)
  rw [if_neg hdata]
  have hfirst {e : PyExc} : CallOK argsOK ⟨.write p data, .error e⟩ := callOK_error rfl
  rintro (e | ⟨⟩)
  · by_cases hfits : data.length ≤ blockSize
    · simp only [if_pos hfits]
      rintro (e' | ⟨⟩)
      · -- both attempts fail, and the second exception is reported
        show Caught caught e' ↔
          AllOK caught argsOK [⟨.write p data, .error e⟩, ⟨.writeAgain p data, .error e'⟩]
        refine ⟨fun h => ⟨fun e'' he => ?_, ?_⟩, fun h => h.exc e' rfl⟩
        · cases Option.some_inj.1 he
          exact h
        · rw [List.forall_mem_cons, List.forall_mem_singleton]
          exact ⟨hfirst, callOK_error rfl⟩
      · show Caught caught e ↔
          AllOK caught argsOK [⟨.write p data, .error e⟩, ⟨.writeAgain p data, .ok ()⟩]
        refine ⟨fun h => ⟨fun e'' he => ?_, ?_⟩, fun h => h.exc e rfl⟩
        · cases Option.some_inj.1 he
          exact h
        · rw [List.forall_mem_cons, List.forall_mem_singleton]
          exact ⟨hfirst, by simp [opened], rfl⟩
    · simp only [if_neg hfits]
      exact (allOK_error rfl).symm
  · exact iff_of_true trivial ((allOK_quiet rfl rfl rfl).2 (allOK_nil _ _))

theorem endsWell_select (p : Str) (t : Option Int) :
    EndsWell (Caught caught) (AllOK caught argsOK) (select p t) fun _ => True :=
  endsWell_check (.select p t) (fun r => r) (fun _ => rfl) (fun _ => rfl) fun _ => rfl

theorem endsWell_popenWait (argv : List Str) :
    EndsWell (Caught caught) (AllOK caught argsOK) (popenWait argv) fun _ => True :=
  endsWell_check (.popenWait argv) (fun r => r) (fun _ => rfl) (fun _ => rfl) fun _ => rfl

theorem endsWell_copyfile (src dst : Str) :
    EndsWell (Caught caught) (AllOK caught argsOK) (copyfile src dst) fun _ => True :=
  endsWell_check (.copyfile src dst) (fun r => r) (fun _ => rfl) (fun _ => rfl) fun _ => rfl

theorem endsWell_mmap (length offset : Nat) :
    EndsWell (Caught caught) (AllOK caught argsOK) (mmap length offset) fun _ => True :=
  endsWell_check (.mmap length offset) (fun r => r) (fun _ => rfl) (fun _ => rfl) fun _ => rfl

/-- A call that cannot fail. -/
theorem endsWell_call {o : OsOp} {k : OsRes o → Py α} (hraised : ∀ r, raised o r = none)
    (hopened : ∀ r, opened o r = false) (htext : ∀ r, readNothing o r = false)
    (hk : ∀ r, EndsWell G (AllOK caught argsOK) (k r) Q) :
    EndsWell G (AllOK caught argsOK) (.call o k) Q :=
  fun r => (hk r).congr fun _ => (allOK_quiet (hraised r) (hopened r) (htext r)).symm

theorem endsWell_pathExists {p : Str} {k : Bool → Py α}
    (hk : ∀ b, EndsWell G (AllOK caught argsOK) (k b) Q) :
    EndsWell G (AllOK caught argsOK) (.call (.pathExists p) k) Q :=
  endsWell_call (fun _ => rfl) (fun _ => rfl) (fun _ => rfl) hk

/-- The end of a `with` block: the file is closed on every way out. -/
theorem endsWell_closing {path : Str} {body : Py α} (hbody : EndsWell G K body Q)
    (hK : ∀ tr, K (tr ++ [⟨.close path, ()⟩]) ↔ K tr) :
    EndsWell G K (do
      let a ← body.tryCatch fun e => do
        close path
        .raise e
      close path
      return a) Q := by
  induction body generalizing K with
  | ret a =>
    intro r
    exact hbody.trans (hK []).symm
  | raise e =>
    intro r
    exact hbody.trans (hK []).symm
  | spin => exact hbody
  | call o k ih =>
    intro r
    exact ih r (hbody r) fun tr => hK (⟨o, r⟩ :: tr)

/-- A `with` block: the file must open, and the body must end well. -/
theorem endsWell_withOpen {path : Str} {mode : OpenMode} {body : Py α}
    (hbody : EndsWell G (fun tr => K (⟨.openFile path mode, .ok ()⟩ :: tr)) body Q)
    (herr : ∀ e, K [⟨.openFile path mode, .error e⟩] ↔ G e)
    (hK : ∀ tr, K (tr ++ [⟨.close path, ()⟩]) ↔ K tr) :
    EndsWell G K (withOpen path mode body) Q := by
  intro r
  cases r with
  | error e => exact (herr e).symm
  | ok _ => exact endsWell_closing hbody fun tr => hK (⟨.openFile path mode, .ok ()⟩ :: tr)

/-- A `with` block whose arguments are fit for it. -/
theorem endsWell_withOpen_all {path : Str} {mode : OpenMode} {body : Py α} (hargs : argsOK)
    (hbody : EndsWell (Caught caught) (AllOK caught argsOK) body Q) :
    EndsWell (Caught caught) (AllOK caught argsOK) (withOpen path mode body) Q := by
  apply endsWell_withOpen
  · apply hbody.congr
    intro tr
    rw [allOK_cons rfl, callOK_open, and_iff_right hargs]
  · exact fun e => allOK_error rfl
  · exact fun tr => allOK_concat_close tr path

/-- A `with` block whose arguments are not fit for it: the body must end badly. -/
theorem endsWell_withOpen_never {path : Str} {mode : OpenMode} {body : Py α} (hargs : ¬ argsOK)
    (hbody : EndsWell (Caught caught) (fun _ => False) body Q) :
    EndsWell (Caught caught) (AllOK caught argsOK) (withOpen path mode body) Q := by
  apply endsWell_withOpen
  · apply hbody.congr
    intro tr
    rw [allOK_cons rfl, callOK_open]
    exact iff_of_false id fun h => hargs h.1
  · exact fun e => allOK_error rfl
  · exact fun tr => allOK_concat_close tr path

end Rules

/-- The `except OSError` clause: inside it, an exception with a number is as good
as a return. -/
theorem endsWell_catchOSError {caught : Prop} {K : Trace OsRes → Prop} {p : Py Resp}
    (hp : EndsWell (Caught True) K p HasText) :
    EndsWell (Caught caught) K (catchOSError p) HasText := by
  apply EndsWell.tryCatch hp
  intro e tr htr
  have hK : K (tr ++ []) ↔ Numbered e := by
    rw [List.append_nil, ← htr]
    exact and_iff_right trivial
  cases e with
  | osError n =>
    cases n with
    | none => exact iff_of_false (fun h => h.2) hK.1
    | some n => exact iff_of_true (hasText_int _) (hK.2 trivial)
  | valueError => exact iff_of_false (fun h => h.2) hK.1
  | indexError => exact iff_of_false (fun h => h.2) hK.1
  | typeError => exact iff_of_false (fun h => h.2) hK.1
  | structError => exact iff_of_false (fun h => h.2) hK.1
  | overflowError => exact iff_of_false (fun h => h.2) hK.1
  | unicodeDecodeError => exact iff_of_false (fun h => h.2) hK.1

/-! ## The handlers -/

section Handlers

variable {caught argsOK : Prop}

theorem endsWell_ret {α : Type} {G : PyExc → Prop} {Q : α → Prop} {a : α} (ha : Q a) :
    EndsWell G (AllOK caught argsOK) (.ret a) Q :=
  iff_of_true ha (allOK_nil _ _)

theorem endsWell_int (n : Int) {G : PyExc → Prop} :
    EndsWell G (AllOK caught argsOK) (.ret (.int n)) HasText :=
  endsWell_ret (hasText_int n)

theorem endsWell_sysfsRead (path : Str) :
    EndsWell (Caught caught) (AllOK True True) (sysfsRead path) HasText := by
  apply endsWell_pathExists
  intro b
  cases b with
  | false => exact endsWell_int _
  | true =>
    apply endsWell_catchOSError
    apply endsWell_withOpen_all trivial
    rintro (e | s)
    · exact (allOK_error rfl).symm
    · show s ≠ [] ↔ AllOK True True [⟨.read path, .ok s⟩]
      rw [allOK_cons rfl, callOK_read, and_iff_left (allOK_nil _ _)]

theorem endsWell_sysfsWrite (path val : Str) :
    EndsWell (Caught caught) (AllOK True True) (sysfsWrite path val) HasText := by
  apply endsWell_pathExists
  intro b
  cases b with
  | false => exact endsWell_int _
  | true =>
    apply endsWell_catchOSError
    apply endsWell_bind (endsWell_withOpen_all trivial (endsWell_writeText path _))
    intro _
    exact endsWell_int 0

theorem endsWell_modProbe (modName : Str) (probe : Bool) :
    EndsWell (Caught caught) (AllOK True True) (modProbe modName probe) HasText := by
  apply endsWell_catchOSError
  apply endsWell_bind (endsWell_popenWait _)
  intro _
  exact endsWell_int 0

theorem endsWell_loadFirmware (number : Nat) {cmd : List Str} (hcmd : 2 ≤ cmd.length) :
    EndsWell (Caught caught) (AllOK True True) (loadFirmware number cmd) HasText := by
  unfold loadFirmware
  by_cases hlen : cmd.length > 2
  · rw [if_pos hlen]
    exact endsWell_int _
  · rw [if_neg hlen]
    have hsource : index cmd 1 = .ok cmd[1] := by
      unfold index
      rw [List.getElem?_eq_getElem hcmd]
    rw [hsource]
    apply endsWell_pathExists
    intro b
    cases b with
    | false => exact endsWell_int _
    | true =>
      apply endsWell_catchOSError
      show EndsWell _ _ (if _ then _ else _) _
      split_ifs
      · apply endsWell_bind (endsWell_copyfile _ _)
        intro _
        exact endsWell_sysfsWrite _ _
      · exact endsWell_sysfsWrite _ _

@[simp] theorem readyPoll_select (dev : Str) (t : Option Int) (ready : Bool) :
    readyPoll ⟨.select dev t, .ok ready⟩ = ready := rfl

@[simp] theorem readyPoll_select_error (dev : Str) (t : Option Int) (e : PyExc) :
    readyPoll ⟨.select dev t, .error e⟩ = false := rfl

@[simp] theorem readyPoll_readline (dev : Str) (r : Except PyExc Str) :
    readyPoll ⟨.readline dev, r⟩ = false := rfl

@[simp] theorem readyPoll_pathExists (p : Str) (b : Bool) :
    readyPoll ⟨.pathExists p, b⟩ = false := rfl

@[simp] theorem readyPoll_openFile (p : Str) (mode : OpenMode) (r : Except PyExc Unit) :
    readyPoll ⟨.openFile p mode, r⟩ = false := rfl

@[simp] theorem readyPoll_close (p : Str) : readyPoll ⟨.close p, ()⟩ = false := rfl

/-- The answers to the calls of a `GETMSG` that may read `n` lines. -/
def GetMsgOK (n : Nat) (tr : Trace OsRes) : Prop :=
  AllOK True True tr ∧ tr.countP readyPoll ≤ n

theorem endsWell_getMsgLoop (dev : Str) (n : Nat) (reply : Str) :
    EndsWell (Caught True) (GetMsgOK n) (getMsgLoop dev n reply) fun _ => True := by
  have herror (n : Nat) (e : PyExc) :
      Caught True e ↔ GetMsgOK n [⟨.select dev (some 0), .error e⟩] := by
    unfold GetMsgOK
    rw [allOK_error rfl]
    simp [Caught]
  have hdone (n : Nat) : True ↔ GetMsgOK n [⟨.select dev (some 0), .ok false⟩] := by
    exact iff_of_true trivial ⟨(allOK_quiet rfl rfl rfl).2 (allOK_nil _ _), by simp⟩
  induction n generalizing reply with
  | zero =>
    rintro (e | ready)
    · exact herror 0 e
    · cases ready with
      | false => exact hdone 0
      | true =>
        show ¬ GetMsgOK 0 [⟨.select dev (some 0), .ok true⟩]
        simp [GetMsgOK]
  | succ n ih =>
    rintro (e | ready)
    · exact herror (n + 1) e
    · cases ready with
      | false => exact hdone (n + 1)
      | true =>
        have hpoll {tr : Trace OsRes} :
            GetMsgOK (n + 1) (⟨.select dev (some 0), .ok true⟩ :: tr) ↔ GetMsgOK n tr := by
          unfold GetMsgOK
          rw [allOK_quiet rfl rfl rfl]
          simp [List.countP_cons]
        rintro (e | line)
        · show Caught True e ↔ GetMsgOK (n + 1) [_, ⟨.readline dev, .error e⟩]
          rw [hpoll]
          unfold GetMsgOK
          rw [allOK_error rfl]
          simp [Caught]
        · apply (ih (reply ++ line)).congr
          intro tr
          show GetMsgOK n tr ↔ GetMsgOK (n + 1) (_ :: ⟨.readline dev, .ok line⟩ :: tr)
          rw [hpoll]
          unfold GetMsgOK
          rw [allOK_quiet rfl rfl rfl]
          simp

theorem index_lt {cmd : List Str} {i : Nat} (hi : i < cmd.length) : index cmd i = .ok cmd[i] := by
  unfold index
  rw [List.getElem?_eq_getElem hi]

/-- A conversion of arguments that fails with a `ValueError` only. -/
def OnlyValueError {α : Type} (x : Except PyExc α) : Prop := ∀ e, x = .error e → e = .valueError

theorem onlyValueError_ok {α : Type} (a : α) : OnlyValueError (.ok a) := by
  intro e he
  cases he

theorem onlyValueError_index {cmd : List Str} {i : Nat} (hi : i < cmd.length) :
    OnlyValueError (index cmd i) := by
  rw [index_lt hi]
  exact onlyValueError_ok _

theorem onlyValueError_int (limit : DigitLimit) (base : Nat) (s : Str) :
    OnlyValueError (int limit base s) := by
  intro e he
  unfold int at he
  split at he <;> cases he
  rfl

theorem onlyValueError_bind {α β : Type} {x : Except PyExc α} {f : α → Except PyExc β}
    (hx : OnlyValueError x) (hf : ∀ a, OnlyValueError (f a)) : OnlyValueError (x >>= f) := by
  cases x with
  | ok a => exact hf a
  | error e =>
    intro e' he'
    cases he'
    exact hx e rfl

/-- Two words of which the second is a number, at places where there are words. -/
theorem onlyValueError_chan {α : Type} {cmd : List Str} {i : Nat} (hi : i + 1 < cmd.length)
    (limit : DigitLimit) {f : Str → Int → Except PyExc α}
    (hf : ∀ chanName chanPort, OnlyValueError (f chanName chanPort)) :
    OnlyValueError (do
      let chanName ← index cmd i
      let chanPort ← int limit 10 (← index cmd (i + 1))
      f chanName chanPort) := by
  apply onlyValueError_bind (onlyValueError_index (by omega))
  intro chanName
  apply onlyValueError_bind (onlyValueError_index hi)
  intro port
  exact onlyValueError_bind (onlyValueError_int _ 10 port) fun chanPort => hf chanName chanPort

/-- The `except ValueError` clause around the arguments. -/
theorem endsWell_parsed {α : Type} {K : Trace OsRes → Prop} {args : Except PyExc α}
    {rest : α → Py Resp} (hargs : OnlyValueError args) (hK : K [])
    (hrest : ∀ a, args = .ok a → EndsWell (Caught caught) K (rest a) HasText) :
    EndsWell (Caught caught) K (parsed args rest) HasText := by
  cases args with
  | ok a => exact hrest a rfl
  | error e =>
    obtain rfl : e = .valueError := hargs e rfl
    exact iff_of_true (hasText_int _) hK

/-- Reading the device ends well wherever each call and each text did. -/
theorem endsWell_readAll (dev : Str) (maxLines : Nat) :
    EndsWell (Caught True) (GetMsgOK maxLines) (withOpen dev .r (getMsgLoop dev maxLines []))
      fun _ => True := by
  apply endsWell_withOpen
  · apply (endsWell_getMsgLoop dev maxLines []).congr
    intro tr
    unfold GetMsgOK
    rw [allOK_cons rfl, callOK_open, and_iff_right trivial]
    simp
  · intro e
    unfold GetMsgOK
    rw [allOK_error rfl]
    simp [Caught]
  · intro tr
    unfold GetMsgOK
    rw [allOK_concat_close]
    simp [List.countP_append]

theorem endsWell_getMsg (setup : Setup) (cmd : List Str) :
    EndsWell (Caught caught) (GetMsgOK setup.maxLines) (getMsg setup cmd) HasText := by
  have hint (n : Int) : EndsWell (Caught caught) (GetMsgOK setup.maxLines) (.ret (.int n)) HasText :=
    iff_of_true (hasText_int n) ⟨allOK_nil _ _, by simp⟩
  unfold getMsg
  by_cases hlen : cmd.length ≠ 3
  · rw [if_pos hlen]
    exact hint _
  · rw [if_neg hlen]
    have hlen' : cmd.length = 3 := not_not.1 hlen
    have hargs : OnlyValueError (getMsgArgs setup cmd) :=
      onlyValueError_chan (by omega) _ fun _ _ => onlyValueError_ok _
    apply endsWell_parsed hargs ⟨allOK_nil _ _, by simp⟩
    intro chan _
    show EndsWell _ _ (if _ then _ else _) _
    by_cases hchan : chan.name ∉ setup.paths.rpmsgChannels
    · rw [if_pos hchan]
      exact hint _
    · rw [if_neg hchan]
      have hexists (b : Bool) (tr : Trace OsRes) :
          GetMsgOK setup.maxLines (⟨.pathExists chan.devnode, b⟩ :: tr) ↔
            GetMsgOK setup.maxLines tr := by
        unfold GetMsgOK
        rw [allOK_quiet rfl rfl rfl]
        simp
      intro b
      cases b with
      | false => exact (hint _).congr fun tr => (hexists false tr).symm
      | true =>
        apply EndsWell.congr _ fun tr => (hexists true tr).symm
        apply endsWell_catchOSError
        apply (endsWell_readAll chan.devnode setup.maxLines).bind
        intro reply tr htr
        show HasText _ ↔ GetMsgOK _ (tr ++ [])
        rw [List.append_nil]
        refine iff_of_true ?_ (htr.1 trivial)
        by_cases hreply : reply = []
        · rw [if_pos hreply]
          exact List.cons_ne_nil _ _
        · rw [if_neg hreply]
          exact hreply

theorem endsWell_awaitDevnode {G : PyExc → Prop} (dev : Str) (n : Nat) :
    EndsWell G (AllOK caught argsOK) (awaitDevnode dev n) fun _ => True := by
  induction n with
  | zero => exact endsWell_ret trivial
  | succ n ih =>
    apply endsWell_pathExists
    intro b
    cases b with
    | true => exact endsWell_ret trivial
    | false =>
      exact endsWell_call (fun _ => rfl) (fun _ => rfl) (fun _ => rfl) fun _ => ih

theorem onlyValueError_sendMsgArgs (setup : Setup) {cmd : List Str} (hlen : 5 ≤ cmd.length) :
    OnlyValueError (sendMsgArgs setup cmd) := by
  apply onlyValueError_bind (onlyValueError_index (by omega))
  intro mode
  apply onlyValueError_chan (by omega) setup.maxDigits
  intro chanName chanPort
  by_cases hmode : mode = ['r']
  · simp only [if_pos hmode]
    apply onlyValueError_bind (onlyValueError_index (by omega))
    intro data
    exact onlyValueError_bind (onlyValueError_int _ 10 data) fun intData => onlyValueError_ok _
  · simp only [if_neg hmode]
    exact onlyValueError_ok _

/-- What is asked of the integer of a request whose arguments have been read. -/
theorem packable_iff {setup : Setup} {cmd : List Str} {args : SendMsgArgs}
    (hargs : sendMsgArgs setup cmd = .ok args) :
    Packable setup cmd ↔ (args.mode = ['r'] → -2 ^ 31 ≤ args.intData ∧ args.intData < 2 ^ 31) := by
  refine ⟨fun hpack => hpack args hargs, fun hpack args' hargs' => ?_⟩
  rw [hargs] at hargs'
  cases hargs'
  exact hpack

/-- A packed integer is written if it fits. -/
theorem endsWell_writePacked {packs : Prop} {n : Int} (hpack : packs ↔ -2 ^ 31 ≤ n ∧ n < 2 ^ 31)
    (dev : Str) :
    EndsWell (Caught True) (AllOK True packs) (withOpen dev .wb (packI n >>= write dev))
      fun _ => True := by
  unfold packI
  by_cases hrange : -2 ^ 31 ≤ n ∧ n < 2 ^ 31
  · rw [if_pos hrange]
    exact endsWell_withOpen_all (hpack.2 hrange) (endsWell_write _ _)
  · rw [if_neg hrange]
    apply endsWell_withOpen_never fun h => hrange (hpack.1 h)
    exact iff_of_false (fun h => h.2) id

theorem endsWell_sendMsg (setup : Setup) (cmd : List Str) :
    EndsWell (Caught caught) (AllOK True (Packable setup cmd)) (sendMsg setup cmd) HasText := by
  unfold sendMsg
  by_cases hlen : cmd.length < 5
  · rw [if_pos hlen]
    exact endsWell_int _
  · rw [if_neg hlen]
    apply endsWell_parsed (onlyValueError_sendMsgArgs setup (by omega)) (allOK_nil _ _)
    intro args hargs
    have hpack := packable_iff hargs
    show EndsWell _ _ (if _ then _ else _) _
    by_cases hchan : args.chan.name ∉ setup.paths.rpmsgChannels
    · rw [if_pos hchan]
      exact endsWell_int _
    · rw [if_neg hchan]
      apply endsWell_bind (endsWell_awaitDevnode args.chan.devnode 3)
      intro found
      cases found with
      | false => exact endsWell_int _
      | true =>
        show EndsWell _ _ (if _ then _ else _) _
        by_cases hs : args.mode = ['s']
        · rw [if_pos hs]
          have hmode : args.mode ≠ ['r'] := by
            rw [hs]
            decide
          apply endsWell_catchOSError
          apply endsWell_bind
            (endsWell_withOpen_all (hpack.2 fun hr => absurd hr hmode) (endsWell_writeText _ _))
          intro _
          exact endsWell_int 0
        · rw [if_neg hs]
          by_cases hr : args.mode = ['r']
          · rw [if_pos hr]
            apply endsWell_catchOSError
            apply endsWell_bind (endsWell_writePacked (hpack.trans (forall_prop_of_true hr)) _)
            intro _
            exact endsWell_ret (by simp [HasText, Resp.toStr])
          · rw [if_neg hr]
            exact endsWell_ret (by simp [HasText, Resp.toStr])

theorem onlyValueError_eventWaitArgs (setup : Setup) {cmd : List Str}
    (hlen : cmd.length = 3 ∨ cmd.length = 4) :
    OnlyValueError (eventWaitArgs setup cmd) := by
  apply onlyValueError_chan (by omega) setup.maxDigits
  intro chanName chanPort
  by_cases hfour : cmd.length = 4
  · simp only [if_pos hfour]
    apply onlyValueError_bind (onlyValueError_index (by omega))
    intro time
    have htime : OnlyValueError (some <$> int setup.maxDigits 10 time) :=
      onlyValueError_bind (onlyValueError_int _ 10 time) fun t => onlyValueError_ok (some t)
    exact onlyValueError_bind htime fun timeout => onlyValueError_ok _
  · simp only [if_neg hfour]
    exact onlyValueError_ok _

/-- What is asked of the timeout of a request whose arguments have been read. -/
theorem timeoutOK_iff {setup : Setup} {cmd : List Str} {chan : Channel} {timeout : Option Int}
    (hargs : eventWaitArgs setup cmd = .ok (chan, timeout)) :
    TimeoutOK setup cmd ↔ ∀ t, timeout = some t → 0 ≤ t ∧ t ≤ setup.maxTimeout := by
  constructor
  · rintro htime t rfl
    exact htime chan t hargs
  · intro htime chan' t hargs'
    rw [hargs] at hargs'
    cases hargs'
    exact htime t rfl

theorem selectTimeout_ok {setup : Setup} {timeout : Option Int}
    (htime : ∀ t, timeout = some t → 0 ≤ t ∧ t ≤ setup.maxTimeout) (dev : Str) :
    selectTimeout setup dev timeout = select dev timeout := by
  cases timeout with
  | none => rfl
  | some t =>
    obtain ⟨hpos, hmax⟩ := htime t rfl
    unfold selectTimeout
    simp only
    rw [if_neg (by rw [abs_of_nonneg hpos]; omega), if_neg (by omega)]

theorem selectTimeout_bad {setup : Setup} {timeout : Option Int}
    (htime : ¬ ∀ t, timeout = some t → 0 ≤ t ∧ t ≤ setup.maxTimeout) (dev : Str) :
    selectTimeout setup dev timeout = .raise .overflowError ∨
      selectTimeout setup dev timeout = .raise .valueError := by
  cases timeout with
  | none => exact absurd (fun t ht => by cases ht) htime
  | some t =>
    have hbad : ¬ (0 ≤ t ∧ t ≤ setup.maxTimeout) := by
      intro hgood
      refine htime fun t' ht => ?_
      cases ht
      exact hgood
    unfold selectTimeout
    simp only
    by_cases hmax : setup.maxTimeout < |t|
    · exact .inl (if_pos hmax)
    · rw [if_neg hmax]
      by_cases hneg : t < 0
      · exact .inr (if_pos hneg)
      · rw [abs_of_nonneg (by omega)] at hmax
        exact absurd ⟨by omega, by omega⟩ hbad

theorem endsWell_eventWait (setup : Setup) (cmd : List Str) :
    EndsWell (Caught caught) (AllOK True (TimeoutOK setup cmd)) (eventWait setup cmd) HasText := by
  unfold eventWait
  by_cases hlen : cmd.length ≠ 3 ∧ cmd.length ≠ 4
  · rw [if_pos hlen]
    exact endsWell_int _
  · rw [if_neg hlen]
    apply endsWell_parsed (onlyValueError_eventWaitArgs setup (by omega)) (allOK_nil _ _)
    rintro ⟨chan, timeout⟩ hargs
    show EndsWell _ _ (if _ then _ else _) _
    by_cases hchan : chan.name ∉ setup.paths.rpmsgChannels
    · rw [if_pos hchan]
      exact endsWell_int _
    · rw [if_neg hchan]
      apply endsWell_pathExists
      intro b
      cases b with
      | false => exact endsWell_int _
      | true =>
        apply endsWell_catchOSError
        by_cases htime : TimeoutOK setup cmd
        · apply endsWell_withOpen_all htime
          rw [selectTimeout_ok ((timeoutOK_iff hargs).1 htime)]
          apply endsWell_bind (endsWell_select _ _)
          intro ready
          apply endsWell_ret
          split_ifs <;> exact hasText_int _
        · apply endsWell_withOpen_never htime
          rcases selectTimeout_bad (mt (timeoutOK_iff hargs).2 htime) chan.devnode with h | h
          · rw [h]
            exact iff_of_false (fun h => h.2) id
          · rw [h]
            exact iff_of_false (fun h => h.2) id

/-- A memory command that never gets to its byte. -/
theorem endsWell_mem_never {α : Type} (e : PyExc) :
    EndsWell (Caught False) (fun _ => False)
      (withOpen devMem .rPlusB do mmap pruIcssSize pruIcss; (.raise e : Py α)) fun _ => True := by
  have hraise (e : PyExc) : Caught False e ↔ False := iff_of_false (fun h => h.1) id
  rintro (e' | _)
  · exact hraise e'
  · rintro (e' | _)
    · intro _
      exact hraise e'
    · intro _
      exact hraise e

theorem endsWell_mem_bind_never {α : Type} {p : Py α} {f : α → Py Resp}
    (hp : EndsWell (Caught False) (fun _ => False) p fun _ => True) :
    EndsWell (Caught False) (fun _ => False) (p >>= f) HasText := by
  apply hp.bind
  intro a tr htr
  exact absurd (htr.1 trivial) id

/-- A memory command whose arguments cannot be converted. -/
theorem endsWell_mem_error {α : Type} {ok : Prop} {e : PyExc} (hok : ok ↔ e = .valueError)
    (rest : α → Py Resp) :
    EndsWell (Caught False) (fun tr => ok ∧ AllOK False True tr) (parsed (.error e) rest)
      HasText := by
  by_cases he : e = .valueError
  · subst he
    exact iff_of_true (hasText_int _) ⟨hok.2 rfl, allOK_nil _ _⟩
  · have hraise : parsed (.error e) rest = .raise e := by
      cases e <;> first | rfl | exact absurd rfl he
    rw [hraise]
    exact iff_of_false (fun h => h.1) fun h => he (hok.1 h.1)

theorem endsWell_memRead (setup : Setup) (ram : Ram) (cmd : List Str) :
    EndsWell (Caught False) (fun tr => MemReadOK ram (memReadArgs setup cmd) ∧ AllOK False True tr)
      (memRead setup ram cmd) HasText := by
  unfold memRead
  cases memReadArgs setup cmd with
  | error e => exact endsWell_mem_error Iff.rfl _
  | ok o =>
    rw [parsed_ok]
    unfold unpackB
    cases hk : sliceByte pruIcssSize (ram.base + o) with
    | none =>
      apply EndsWell.congr (endsWell_mem_bind_never (endsWell_mem_never _))
      intro tr
      simp [MemReadOK, hk]
    | some k =>
      have hpeek : EndsWell (Caught False) (AllOK False True) (peek k) fun _ => True :=
        endsWell_call (fun _ => rfl) (fun _ => rfl) (fun _ => rfl) fun _ => endsWell_ret trivial
      apply EndsWell.congr (endsWell_bind
        (endsWell_withOpen_all trivial (endsWell_bind (endsWell_mmap _ _) fun _ => hpeek))
        fun data => endsWell_int _)
      intro tr
      simp [MemReadOK, hk]

theorem endsWell_memWrite (setup : Setup) (ram : Ram) (cmd : List Str) :
    EndsWell (Caught False)
      (fun tr => MemWriteOK ram (memWriteArgs setup cmd) ∧ AllOK False True tr)
      (memWrite setup ram cmd) HasText := by
  unfold memWrite
  cases memWriteArgs setup cmd with
  | error e => exact endsWell_mem_error Iff.rfl _
  | ok args =>
    obtain ⟨o, d⟩ := args
    rw [parsed_ok]
    simp only
    unfold assignB
    by_cases hd : 0 ≤ d ∧ d < 256
    · rw [if_pos hd]
      cases hk : sliceByte pruIcssSize (ram.base + o) with
      | none =>
        apply EndsWell.congr (endsWell_mem_bind_never (endsWell_mem_never _))
        intro tr
        simp [MemWriteOK, hk]
      | some k =>
        have hpoke : EndsWell (Caught False) (AllOK False True) (poke k (UInt8.ofNat d.toNat))
            fun _ => True :=
          endsWell_call (fun _ => rfl) (fun _ => rfl) (fun _ => rfl) fun _ => endsWell_ret trivial
        apply EndsWell.congr (endsWell_bind
          (endsWell_withOpen_all trivial (endsWell_bind (endsWell_mmap _ _) fun _ => hpoke))
          fun _ => endsWell_int 0)
        intro tr
        simp [MemWriteOK, hk, hd]
    · rw [if_neg hd]
      apply EndsWell.congr (endsWell_mem_bind_never (endsWell_mem_never _))
      intro tr
      simp [MemWriteOK, hd]

end Handlers

/-! ## The table -/

/-- The memory commands. -/
def memCmds : List Str :=
  [Ram.dram0.readCmd, Ram.dram1.readCmd, Ram.sram.readCmd, Ram.dram0.writeCmd, Ram.dram1.writeCmd,
    Ram.sram.writeCmd]

section Table

variable {name : Str} {args : List Str} {setup : Setup} {tr : Trace OsRes}

theorem readCmd_mem (ram : Ram) : ram.readCmd ∈ memCmds := by cases ram <;> decide

theorem writeCmd_mem (ram : Ram) : ram.writeCmd ∈ memCmds := by cases ram <;> decide

theorem not_isMemCmd (h : name ∉ memCmds) : ¬ IsMemCmd (name :: args) := by
  rintro ⟨ram, hread | hwrite⟩
  · exact h (Option.some_inj.1 hread ▸ readCmd_mem ram)
  · exact h (Option.some_inj.1 hwrite ▸ writeCmd_mem ram)

theorem lineOK_iff_load (h : name ∉ memCmds) :
    LineOK setup (name :: args) ↔
      (name = "LOAD_0".toList ∨ name = "LOAD_1".toList → 2 ≤ (name :: args).length) := by
  constructor
  · intro hline hname
    exact hline.load (by simpa using hname)
  · intro hload
    refine ⟨by simp, fun hname => hload (by simpa using hname), ?_, ?_⟩
    · intro ram hread
      exact absurd (Option.some_inj.1 hread ▸ readCmd_mem ram) h
    · intro ram hwrite
      exact absurd (Option.some_inj.1 hwrite ▸ writeCmd_mem ram) h

/-- A command that indexes none of its words. -/
theorem lineOK_of_not_mem (h : name ∉ "LOAD_0".toList :: "LOAD_1".toList :: memCmds) :
    LineOK setup (name :: args) := by
  rw [List.mem_cons, List.mem_cons, not_or, not_or] at h
  refine (lineOK_iff_load h.2.2).2 ?_
  rintro (h0 | h1)
  · exact absurd h0 h.1
  · exact absurd h1 h.2.1

theorem answersOK_iff (hmem : name ∉ memCmds) (hget : name ≠ "GETMSG".toList) :
    AnswersOK setup (name :: args) tr ↔ AllOK True (DeviceArgsOK setup (name :: args)) tr := by
  have hcaught : (¬ IsMemCmd (name :: args)) = True := eq_true (not_isMemCmd hmem)
  constructor
  · intro h
    have hexc := h.exc
    rw [hcaught] at hexc
    exact ⟨hexc, h.calls⟩
  · intro h
    refine ⟨by rw [hcaught]; exact h.exc, h.calls, fun hname => ?_⟩
    exact absurd (Option.some_inj.1 hname) hget

theorem deviceArgsOK_of_ne (hsend : name ≠ "SENDMSG".toList) (hwait : name ≠ "EVENTWAIT".toList) :
    DeviceArgsOK setup (name :: args) :=
  ⟨fun h => absurd (Option.some_inj.1 h) hsend, fun h => absurd (Option.some_inj.1 h) hwait⟩

/-- A command without arguments of its own. -/
theorem requestOK_plain (h : name ∉ "LOAD_0".toList :: "LOAD_1".toList :: memCmds)
    (hdev : name ∉ ["GETMSG".toList, "SENDMSG".toList, "EVENTWAIT".toList]) :
    AllOK True True tr ↔ LineOK setup (name :: args) ∧ AnswersOK setup (name :: args) tr := by
  simp only [List.mem_cons, List.not_mem_nil, or_false, not_or] at hdev
  rw [and_iff_right (lineOK_of_not_mem h), answersOK_iff
    (fun hm => h (List.mem_cons_of_mem _ (List.mem_cons_of_mem _ hm))) hdev.1,
    eq_true (deviceArgsOK_of_ne hdev.2.1 hdev.2.2)]

theorem readCmd_injective {ram ram' : Ram} (h : ram.readCmd = ram'.readCmd) : ram = ram' := by
  revert h
  cases ram <;> cases ram' <;> decide

theorem writeCmd_injective {ram ram' : Ram} (h : ram.writeCmd = ram'.writeCmd) : ram = ram' := by
  revert h
  cases ram <;> cases ram' <;> decide

theorem readCmd_ne_writeCmd (ram ram' : Ram) : ram.readCmd ≠ ram'.writeCmd := by
  cases ram <;> cases ram' <;> decide

theorem not_load_of_ne {name : Str} {p : Prop} (h0 : name ≠ "LOAD_0".toList)
    (h1 : name ≠ "LOAD_1".toList) :
    (name :: args).head? = some "LOAD_0".toList ∨ (name :: args).head? = some "LOAD_1".toList →
      p := by
  rintro (h | h)
  · exact absurd (Option.some_inj.1 h) h0
  · exact absurd (Option.some_inj.1 h) h1

theorem lineOK_read (ram : Ram) :
    LineOK setup (ram.readCmd :: args) ↔
      MemReadOK ram (memReadArgs setup (ram.readCmd :: args)) := by
  constructor
  · intro hline
    exact hline.memRead ram rfl
  · intro hread
    refine ⟨by simp, ?_, ?_, ?_⟩
    · exact not_load_of_ne (by cases ram <;> decide) (by cases ram <;> decide)
    · intro ram' h
      obtain rfl := readCmd_injective (Option.some_inj.1 h)
      exact hread
    · intro ram' h
      exact absurd (Option.some_inj.1 h) (readCmd_ne_writeCmd ram ram')

theorem lineOK_write (ram : Ram) :
    LineOK setup (ram.writeCmd :: args) ↔
      MemWriteOK ram (memWriteArgs setup (ram.writeCmd :: args)) := by
  constructor
  · intro hline
    exact hline.memWrite ram rfl
  · intro hwrite
    refine ⟨by simp, ?_, ?_, ?_⟩
    · exact not_load_of_ne (by cases ram <;> decide) (by cases ram <;> decide)
    · intro ram' h
      exact absurd (Option.some_inj.1 h).symm (readCmd_ne_writeCmd ram' ram)
    · intro ram' h
      obtain rfl := writeCmd_injective (Option.some_inj.1 h)
      exact hwrite

theorem answersOK_mem (h : IsMemCmd (name :: args)) :
    AnswersOK setup (name :: args) tr ↔ AllOK False True tr := by
  have hmem : name ∈ memCmds := by
    obtain ⟨ram, hread | hwrite⟩ := h
    · exact Option.some_inj.1 hread ▸ readCmd_mem ram
    · exact Option.some_inj.1 hwrite ▸ writeCmd_mem ram
  have hne {cmd : Str} (hcmd : cmd ∉ memCmds) : name ≠ cmd := by
    rintro rfl
    exact hcmd hmem
  have hcaught : (¬ IsMemCmd (name :: args)) = False := eq_false (not_not.2 h)
  have hargs : DeviceArgsOK setup (name :: args) = True :=
    eq_true (deviceArgsOK_of_ne (hne (by decide)) (hne (by decide)))
  constructor
  · rintro ⟨hexc, hcalls, -⟩
    rw [hcaught] at hexc
    rw [hargs] at hcalls
    exact ⟨hexc, hcalls⟩
  · rintro ⟨hexc, hcalls⟩
    refine ⟨by rwa [hcaught], by rwa [hargs], fun hname => ?_⟩
    exact absurd (Option.some_inj.1 hname) (hne (by decide))

theorem requestOK_unknown (h : name ∉ cmdNames) :
    AllOK True True tr ↔ LineOK setup (name :: args) ∧ AnswersOK setup (name :: args) tr := by
  have hknown : ∀ c ∈ "LOAD_0".toList :: "LOAD_1".toList :: memCmds, c ∈ cmdNames := by decide
  have hdevice : ∀ c ∈ ["GETMSG".toList, "SENDMSG".toList, "EVENTWAIT".toList], c ∈ cmdNames := by
    decide
  exact requestOK_plain (fun hmem => h (hknown name hmem)) fun hmem => h (hdevice name hmem)

theorem requestOK_bare (h : name ∈ bareCmds) :
    AllOK True True tr ↔ LineOK setup (name :: args) ∧ AnswersOK setup (name :: args) tr := by
  have hwords : ∀ c ∈ bareCmds, c ∉ "LOAD_0".toList :: "LOAD_1".toList :: memCmds := by decide
  have hdevice : ∀ c ∈ bareCmds, c ∉ ["GETMSG".toList, "SENDMSG".toList, "EVENTWAIT".toList] := by
    decide
  exact requestOK_plain (hwords name h) (hdevice name h)

theorem requestOK_load (number : Fin 2) :
    (2 ≤ (loadName number :: args).length ∧ AllOK True True tr) ↔
      LineOK setup (loadName number :: args) ∧ AnswersOK setup (loadName number :: args) tr := by
  have hmem : ∀ n, loadName n ∉ memCmds := by decide
  have hget : ∀ n, loadName n ≠ "GETMSG".toList := by decide
  have hsend : ∀ n, loadName n ≠ "SENDMSG".toList := by decide
  have hwait : ∀ n, loadName n ≠ "EVENTWAIT".toList := by decide
  have hload : ∀ n, loadName n = "LOAD_0".toList ∨ loadName n = "LOAD_1".toList := by decide
  rw [lineOK_iff_load (hmem number), answersOK_iff (hmem number) (hget number),
    eq_true (deviceArgsOK_of_ne (hsend number) (hwait number)), forall_prop_of_true (hload number)]

theorem requestOK_getMsg :
    GetMsgOK setup.maxLines tr ↔
      LineOK setup ("GETMSG".toList :: args) ∧ AnswersOK setup ("GETMSG".toList :: args) tr := by
  have hcaught : (¬ IsMemCmd ("GETMSG".toList :: args)) = True :=
    eq_true (not_isMemCmd (by decide))
  have hargs : DeviceArgsOK setup ("GETMSG".toList :: args) = True :=
    eq_true (deviceArgsOK_of_ne (by decide) (by decide))
  rw [and_iff_right (lineOK_of_not_mem (by decide))]
  constructor
  · rintro ⟨⟨hexc, hcalls⟩, hcount⟩
    exact ⟨by rwa [hcaught], by rwa [hargs], fun _ => hcount⟩
  · rintro ⟨hexc, hcalls, hlines⟩
    rw [hcaught] at hexc
    rw [hargs] at hcalls
    exact ⟨⟨hexc, hcalls⟩, hlines rfl⟩

theorem requestOK_sendMsg :
    AllOK True (Packable setup ("SENDMSG".toList :: args)) tr ↔
      LineOK setup ("SENDMSG".toList :: args) ∧ AnswersOK setup ("SENDMSG".toList :: args) tr := by
  have hwait : "SENDMSG".toList ≠ "EVENTWAIT".toList := by decide
  have hargs : DeviceArgsOK setup ("SENDMSG".toList :: args) ↔
      Packable setup ("SENDMSG".toList :: args) :=
    ⟨fun h => h.send rfl, fun h => ⟨fun _ => h, fun hw => absurd (Option.some_inj.1 hw) hwait⟩⟩
  rw [and_iff_right (lineOK_of_not_mem (by decide)), answersOK_iff (by decide) (by decide),
    propext hargs]

theorem requestOK_eventWait :
    AllOK True (TimeoutOK setup ("EVENTWAIT".toList :: args)) tr ↔
      LineOK setup ("EVENTWAIT".toList :: args) ∧
        AnswersOK setup ("EVENTWAIT".toList :: args) tr := by
  have hsend : "EVENTWAIT".toList ≠ "SENDMSG".toList := by decide
  have hargs : DeviceArgsOK setup ("EVENTWAIT".toList :: args) ↔
      TimeoutOK setup ("EVENTWAIT".toList :: args) :=
    ⟨fun h => h.wait rfl, fun h => ⟨fun hs => absurd (Option.some_inj.1 hs) hsend, fun _ => h⟩⟩
  rw [and_iff_right (lineOK_of_not_mem (by decide)), answersOK_iff (by decide) (by decide),
    propext hargs]

end Table

/-- **A handler ends well exactly if the line and the answers are right.** -/
theorem serve_endsWell (setup : Setup) (cmd : List Str) :
    EndsWell (Caught False) (fun tr => LineOK setup cmd ∧ AnswersOK setup cmd tr) (serve setup cmd)
      HasText := by
  cases cmd with
  | nil => exact iff_of_false (fun h => h.1) fun h => h.1.word rfl
  | cons name args =>
    have hserved := served setup name args
    generalize serve setup (name :: args) = p at hserved ⊢
    cases hserved with
    | probe hbare probe => exact (endsWell_modProbe _ probe).congr fun tr => requestOK_bare hbare
    | state hbare number val =>
      exact (endsWell_sysfsWrite _ val).congr fun tr => requestOK_bare hbare
    | singleStep hbare number val =>
      exact (endsWell_sysfsWrite _ val).congr fun tr => requestOK_bare hbare
    | attr hbare path => exact (endsWell_sysfsRead path).congr fun tr => requestOK_bare hbare
    | load number =>
      apply EndsWell.congr _ fun tr => requestOK_load number
      cases args with
      | nil => exact iff_of_false (fun h => h.1) fun h => absurd h.1 (by simp)
      | cons source rest =>
        apply (endsWell_loadFirmware number (by simp)).congr
        intro tr
        exact (and_iff_right (by simp)).symm
    | getMsg => exact (endsWell_getMsg setup _).congr fun tr => requestOK_getMsg
    | sendMsg => exact (endsWell_sendMsg setup _).congr fun tr => requestOK_sendMsg
    | eventWait => exact (endsWell_eventWait setup _).congr fun tr => requestOK_eventWait
    | memRead ram =>
      apply (endsWell_memRead setup ram _).congr
      intro tr
      rw [lineOK_read, answersOK_mem ⟨ram, .inl rfl⟩]
    | memWrite ram =>
      apply (endsWell_memWrite setup ram _).congr
      intro tr
      rw [lineOK_write, answersOK_mem ⟨ram, .inr rfl⟩]
    | unknown hunknown => exact (endsWell_int _).congr fun tr => requestOK_unknown hunknown

/-- The program for a reply. -/
theorem handle_endsWell (setup : Setup) {stream : Bytes} {cmd : List Str}
    (hcmd : cmdOf stream = some cmd) :
    EndsWell (Caught False) (fun tr => LineOK setup cmd ∧ AnswersOK setup cmd tr)
      (handle setup stream)
      fun reply => reply ≠ [] := by
  rw [handle_of_cmdOf hcmd]
  apply (serve_endsWell setup cmd).bind
  intro resp tr htr
  show encode resp.toStr ≠ [] ↔ LineOK setup cmd ∧ AnswersOK setup cmd (tr ++ [])
  rw [List.append_nil, ← htr]
  exact not_congr ⟨fun h => encode_injective (h.trans encode_nil.symm), fun h => by rw [h]; rfl⟩

/-- **Which requests get a reply.**  In every run of the handler, whatever bytes
the client sent and whatever the system answered, a reply is written exactly if
the line decodes, its words are what its command needs, and every answer is one
the handler survives. -/
theorem handle_replies_iff (setup : Setup) (stream : Bytes) (out : Outcome PyExc Bytes)
    (tr : Trace OsRes) (hx : Exec traced (handle setup stream) [] out tr) :
    Replied out ↔ ∃ cmd, cmdOf stream = some cmd ∧ LineOK setup cmd ∧ AnswersOK setup cmd tr := by
  have hreplied : Replied out ↔ Well (Caught False) (fun reply => reply ≠ []) out := by
    cases out with
    | ret reply =>
      refine ⟨fun ⟨r, hr, heq⟩ => ?_, fun h => ⟨reply, h, rfl⟩⟩
      cases heq
      exact hr
    | raise e => exact iff_of_false (by rintro ⟨r, -, heq⟩; cases heq) fun h => h.1
    | spin => exact iff_of_false (by rintro ⟨r, -, heq⟩; cases heq) id
  rw [hreplied]
  cases hcmd : cmdOf stream with
  | none =>
    rw [handle_of_cmdOf_none hcmd] at hx
    cases hx
    exact iff_of_false (fun h => h.1) (by simp)
  | some cmd =>
    obtain ⟨new, rfl, hnew⟩ := (handle_endsWell setup hcmd).exec_iff hx
    simpa using hnew

/-- A start that is refused without a number, and then with one, is answered. -/
theorem handle_replies_enable :
    Replied (.ret (encode (showInt (-EBUSY)))) ↔
      ∃ cmd, cmdOf (encode (unwords ["ENABLE_0".toList]) ++ [10]) = some cmd ∧
        LineOK ⟨.initial, 0, 0, .default⟩ cmd ∧ AnswersOK ⟨.initial, 0, 0, .default⟩ cmd
          [⟨.pathExists (rprocSysfs "state".toList 0), true⟩,
            ⟨.openFile (rprocSysfs "state".toList 0) .w, .ok ()⟩,
            ⟨.write (rprocSysfs "state".toList 0) (encode "start".toList), .error (.osError none)⟩,
            ⟨.writeAgain (rprocSysfs "state".toList 0) (encode "start".toList),
              .error (.osError (some EBUSY))⟩,
            ⟨.close (rprocSysfs "state".toList 0), ()⟩] := by
  apply handle_replies_iff
  rw [handle_line _ _ (by decide)]
  refine .call (r := true) rfl (.call (r := (.ok () : Except PyExc Unit)) rfl ?_)
  refine .call (r := (.error (.osError none) : Except PyExc Unit)) rfl ?_
  refine .call (r := (.error (.osError (some EBUSY)) : Except PyExc Unit)) rfl ?_
  exact .call (o := OsOp.close _) (r := ()) rfl (.ret _ _)

/-- `LOAD_0` without a path ends in an `IndexError` and gets no reply. -/
theorem load_without_path_unanswered :
    Exec traced (handle ⟨.initial, 0, 0, .default⟩ (encode (unwords ["LOAD_0".toList]) ++ [10])) []
        (.raise .indexError) [] ∧
      ¬ Replied (.raise .indexError) := by
  constructor
  · rw [handle_line _ _ (by decide)]
    exact .raise _ _
  · rintro ⟨reply, -, heq⟩
    cases heq

end Daemon
