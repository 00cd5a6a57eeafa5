import PrussBindings.Client.Pruss
import PrussBindings.Lib.Transition

/-!
# Shutting down under copies

`PRUSS::get()` hands out an object whose members `pru0` and `pru1` can be used
in place or copied, and each copy keeps a state of its own.  `shutDown` looks
at the members only.  This file runs any program over one `PRUSS` object and
any number of copies, with a daemon that answers `0` to everything, and asks
when a shutdown is a safe one.

* `started n log` — core `n` was started after it was last stopped.
* `Program`, `Step` — the objects and the commands sent, and what a program can
  do with them.
* `SafelyDown` — the driver was not unloaded under a started core, and every
  object reports `NONE`.
* `Tracked` — a member of every started core knows that it is, and every copy is
  `NONE`.
* `shutDown_safe_iff` — **in every run, exactly the shutdowns of tracked states
  are safe**, and all those of a program that puts no object in another's place.
* `shutDown_under_copy` — one that is not.
-/

namespace Client

open Effect Errno Text Transition

/-! ## The commands -/

/-- The daemon that answers `0` to everything, and the commands it got. -/
def zeroDaemon (command : Bytes) (log : List Bytes) : Bytes × List Bytes :=
  (toStr 0, log ++ [command])

/-- `ENABLE_n`. -/
def enableCmd (n : Nat) : Bytes := lit "ENABLE_" ++ toStr n

/-- `DISABLE_n`. -/
def disableCmd (n : Nat) : Bytes := lit "DISABLE_" ++ toStr n

/-- What one command says about whether a core is started. -/
def startedBy (n : Nat) (before : Bool) (command : Bytes) : Bool :=
  if command = enableCmd n then true else if command = disableCmd n then false else before

/-- The last `ENABLE_n` comes after the last `DISABLE_n`. -/
def started (n : Nat) (log : List Bytes) : Bool := log.foldl (startedBy n) false

theorem started_concat (n : Nat) (log : List Bytes) (command : Bytes) :
    started n (log ++ [command]) = startedBy n (started n log) command := by
  simp [started]

theorem toStr_inj {n m : Nat} : toStr n = toStr m ↔ n = m := by
  refine ⟨fun h => ?_, fun h => by rw [h]⟩
  exact Int.ofNat_inj.1 (showInt_inj.1 (encode_injective h))

theorem enableCmd_inj {n m : Nat} : enableCmd n = enableCmd m ↔ n = m :=
  (List.append_right_inj _).trans toStr_inj

theorem disableCmd_inj {n m : Nat} : disableCmd n = disableCmd m ↔ n = m :=
  (List.append_right_inj _).trans toStr_inj

theorem take_enableCmd (n : Nat) : (enableCmd n).take 2 = lit "EN" := rfl

theorem take_disableCmd (n : Nat) : (disableCmd n).take 2 = lit "DI" := rfl

theorem disableCmd_ne_enableCmd (n m : Nat) : disableCmd n ≠ enableCmd m := by
  intro h
  have htake : lit "DI" = lit "EN" := by rw [← take_disableCmd n, h, take_enableCmd]
  exact absurd htake (by decide)

theorem startedBy_enableCmd (n m : Nat) (before : Bool) :
    startedBy n before (enableCmd m) = if n = m then true else before := by
  unfold startedBy
  by_cases h : n = m
  · rw [if_pos (by rw [h]), if_pos h]
  · rw [if_neg (fun heq => h (enableCmd_inj.1 heq).symm),
      if_neg (fun heq => disableCmd_ne_enableCmd n m heq.symm), if_neg h]

theorem startedBy_disableCmd (n m : Nat) (before : Bool) :
    startedBy n before (disableCmd m) = if n = m then false else before := by
  unfold startedBy
  rw [if_neg (disableCmd_ne_enableCmd m n)]
  by_cases h : n = m
  · rw [if_pos (by rw [h]), if_pos h]
  · rw [if_neg (fun heq => h (disableCmd_inj.1 heq).symm), if_neg h]

/-- A command that does not begin like `ENABLE` or `DISABLE` starts and stops
nothing. -/
theorem startedBy_other (n : Nat) (before : Bool) {command : Bytes}
    (henable : command.take 2 ≠ lit "EN") (hdisable : command.take 2 ≠ lit "DI") :
    startedBy n before command = before := by
  unfold startedBy
  rw [if_neg, if_neg]
  · rintro rfl
    exact hdisable (take_disableCmd n)
  · rintro rfl
    exact henable (take_enableCmd n)

/-! ## Programs -/

/-- A call of a method of a PRU object. -/
inductive PruCall where
  | enable
  | disable
  | reset
  | pause
  | resume
  | showRegs
  | load (fw : Bytes)
  | setChannel
  | setChannelTo (port : CInt) (name : Bytes)
  | sendMsgString (message : Bytes)
  | sendMsgRaw (message : Bytes)
  | getMsg
  | waitForEvent (time : Option CInt)
  | memRead (mem : Memory) (offset : Bytes)
  | memWrite (mem : Memory) (offset data : Bytes)

/-- What a call runs; its result is left out. -/
def PruCall.method (realpath : Bytes → Bytes) : PruCall → Method PRU Unit
  | .enable => PRU.enable.andThen fun _ => Method.return ()
  | .disable => PRU.disable.andThen fun _ => Method.return ()
  | .reset => PRU.reset.andThen fun _ => Method.return ()
  | .pause => PRU.pause.andThen fun _ => Method.return ()
  | .resume => PRU.resume.andThen fun _ => Method.return ()
  | .showRegs => PRU.showRegs.andThen fun _ => Method.return ()
  | .load fw => (PRU.load realpath fw).andThen fun _ => Method.return ()
  | .setChannel => fun p => Method.return () p.setChannel
  | .setChannelTo port name => fun p => Method.return () (p.setChannelTo port name).2
  | .sendMsgString message => (PRU.sendMsgString message).andThen fun _ => Method.return ()
  | .sendMsgRaw message => PRU.sendMsgRaw message
  | .getMsg => PRU.getMsg.andThen fun _ => Method.return ()
  | .waitForEvent time => (PRU.waitForEvent time).andThen fun _ => Method.return ()
  | .memRead mem offset => (PRU.memRead mem offset).andThen fun _ => Method.return ()
  | .memWrite mem offset data => (PRU.memWrite mem offset data).andThen fun _ => Method.return ()

/-- A PRU object of the program: a member of the `PRUSS` object, or a copy. -/
inductive Ref where
  | member (n : Core)
  | copy (i : Nat)

/-- What a program can do: call a method, declare a copy of an object, assign one
object to another, or leave the scope of a copy.  A `restart` is a `shutDown` and
a `bootUp` (`runs_restart_iff`). -/
inductive Event where
  | bootUp
  | shutDown
  | destroy
  | call (r : Ref) (call : PruCall)
  | copy (r : Ref)
  | assign (target source : Ref)
  | drop (i : Nat)

/-- The objects of a program, and the commands it has sent. -/
structure Program where
  pruss : PRUSS
  copies : List PRU
  log : List Bytes

namespace Program

/-- The object a reference names. -/
def obj (s : Program) : Ref → Option PRU
  | .member n => some (s.pruss.pru n)
  | .copy i => s.copies[i]?

/-- Replaces the object a reference names. -/
def setObj (s : Program) : Ref → PRU → Program
  | .member n, q => { s with pruss := s.pruss.setPru n q }
  | .copy i, q => { s with copies := s.copies.set i q }

end Program

/-- A method of an object of the program, run against the daemon. -/
def Runs {σ α : Type} (m : Method σ α) (x : σ) (log : List Bytes) (x' : σ) (log' : List Bytes) :
    Prop :=
  ∃ res, Exec (Env.ofFun zeroDaemon) (m x) log (.ret (res, x')) log'

/-- One event. -/
inductive Step (realpath : Bytes → Bytes) (s : Program) : Event → Program → Prop where
  | bootUp {p : PRUSS} {log : List Bytes} : Runs PRUSS.bootUp s.pruss s.log p log →
    Step realpath s .bootUp { s with pruss := p, log := log }
  | shutDown {p : PRUSS} {log : List Bytes} : Runs PRUSS.shutDown s.pruss s.log p log →
    Step realpath s .shutDown { s with pruss := p, log := log }
  | destroy {p : PRUSS} {log : List Bytes} : Runs PRUSS.destroy s.pruss s.log p log →
    Step realpath s .destroy { s with pruss := p, log := log }
  | call {r : Ref} {c : PruCall} {q q' : PRU} {log : List Bytes} : s.obj r = some q →
    Runs (c.method realpath) q s.log q' log →
    Step realpath s (.call r c) { s.setObj r q' with log := log }
  | copy {r : Ref} {q : PRU} : s.obj r = some q →
    Step realpath s (.copy r) { s with copies := s.copies ++ [q] }
  | assign {target source : Ref} {q : PRU} : s.obj source = some q →
    Step realpath s (.assign target source) (s.setObj target q)
  | drop (i : Nat) : Step realpath s (.drop i) { s with copies := s.copies.eraseIdx i }

/-- The program after `PRUSS::get()` has constructed its object. -/
def Constructed (s : Program) : Prop :=
  ∃ res, Exec (Env.ofFun zeroDaemon) PRUSS.construct [] (.ret (res, s.pruss)) s.log ∧ s.copies = []

/-! ## What a call keeps -/

/-- A command that starts and stops nothing. -/
def QuietCmd (command : Bytes) : Prop := ∀ n before, startedBy n before command = before

theorem quietCmd_of_take {command : Bytes} (two : Bytes) (h : command.take 2 = two)
    (htwo : two ≠ lit "EN" ∧ two ≠ lit "DI") : QuietCmd command :=
  fun n before => startedBy_other n before (h ▸ htwo.1) (h ▸ htwo.2)

theorem stoi_zero : stoi (toStr 0) = .ok 0 := stoi_encode_showInt 0

/-- What has to be checked for the calls on a PRU object to keep a relation
between the commands sent and the object. -/
structure KeptByCalls (I : List Bytes → PRU → Prop) : Prop where
  enable : ∀ log q, I log q → q.state = .stopped →
    I (log ++ [q.verb "ENABLE_"]) { q with state := .running }
  disable : ∀ log q, I log q → q.state = .running ∨ q.state = .halted →
    I (log ++ [q.verb "DISABLE_"]) { q with state := .stopped }
  quiet : ∀ log q command, I log q → QuietCmd command → I (log ++ [command]) q
  halt : ∀ log q, I log q → q.state ≠ .none → I log { q with state := .halted }
  resume : ∀ log q, I log q → q.state = .halted → I log { q with state := .running }
  channel : ∀ log q port name, I log q → I log { q with chanPort := port, chanName := name }

section KeptByCalls

variable {I : List Bytes → PRU → Prop} (hI : KeptByCalls I)

include hI

theorem KeptByCalls.exchange {α : Type} {command : PRU → Bytes} {result : Bytes → Except StoiError α}
    (hquiet : ∀ q, QuietCmd (command q)) :
    Keeps (Env.ofFun zeroDaemon) I
      (fun q => do let reply ← sendcmd (command q); return (result reply, q)) := by
  refine Keeps.exchange fun log q reply log' hq hstep => ?_
  cases hstep
  exact hI.quiet log q _ hq (hquiet q)

theorem KeptByCalls.keeps_enable : Keeps (Env.ofFun zeroDaemon) I PRU.enable := by
  refine PRU.keeps_control fun log q reply log' hq hrefused hstep => ?_
  cases hstep
  rw [if_pos stoi_zero]
  cases hstate : q.state with
  | stopped => exact hI.enable log q hq hstate
  | none => rw [hstate] at hrefused; cases hrefused
  | running => rw [hstate] at hrefused; cases hrefused
  | halted => rw [hstate] at hrefused; cases hrefused

theorem KeptByCalls.keeps_disable : Keeps (Env.ofFun zeroDaemon) I PRU.disable := by
  refine PRU.keeps_control fun log q reply log' hq hrefused hstep => ?_
  cases hstep
  rw [if_pos stoi_zero]
  cases hstate : q.state with
  | running => exact hI.disable log q hq (.inl hstate)
  | halted => exact hI.disable log q hq (.inr hstate)
  | none => rw [hstate] at hrefused; cases hrefused
  | stopped => rw [hstate] at hrefused; cases hrefused

theorem KeptByCalls.keeps_pause : Keeps (Env.ofFun zeroDaemon) I PRU.pause := by
  refine PRU.keeps_control fun log q reply log' hq hrefused hstep => ?_
  cases hstep
  rw [if_pos stoi_zero]
  refine hI.halt _ q (hI.quiet log q _ hq (quietCmd_of_take (lit "PA") rfl (by decide))) fun hnone => ?_
  rw [hnone] at hrefused
  cases hrefused

theorem KeptByCalls.keeps_resume : Keeps (Env.ofFun zeroDaemon) I PRU.resume := by
  refine PRU.keeps_control fun log q reply log' hq hrefused hstep => ?_
  cases hstep
  rw [if_pos stoi_zero]
  have hquiet : I (log ++ [q.verb "RESUME_"]) q :=
    hI.quiet log q _ hq (quietCmd_of_take (lit "RE") rfl (by decide))
  cases hstate : q.state with
  | halted => exact hI.resume _ q hquiet hstate
  | none => rw [hstate] at hrefused; cases hrefused
  | stopped => rw [hstate] at hrefused; cases hrefused
  | running => rw [hstate] at hrefused; cases hrefused

/-- **The rule for the calls on a PRU object.** -/
theorem KeptByCalls.keeps_method (realpath : Bytes → Bytes) (c : PruCall) :
    Keeps (Env.ofFun zeroDaemon) I (c.method realpath) := by
  have hreturn {α : Type} {m : Method PRU α} (hm : Keeps (Env.ofFun zeroDaemon) I m) :
      Keeps (Env.ofFun zeroDaemon) I (m.andThen fun _ => Method.return ()) :=
    hm.andThen fun _ => Keeps.return ()
  have hquiet {command : Bytes} (two : Bytes) (h : command.take 2 = two)
      (htwo : two ≠ lit "EN" ∧ two ≠ lit "DI") : QuietCmd command := quietCmd_of_take two h htwo
  cases c with
  | enable => exact hreturn hI.keeps_enable
  | disable => exact hreturn hI.keeps_disable
  | reset => exact hreturn (hI.keeps_disable.andThen fun _ => hI.keeps_enable)
  | pause => exact hreturn hI.keeps_pause
  | resume => exact hreturn hI.keeps_resume
  | showRegs => exact hreturn (hI.exchange fun _ => hquiet (lit "GE") rfl (by decide))
  | load fw =>
    refine hreturn (hI.keeps_disable.andThen fun _ => Keeps.andThen ?_ fun ret =>
      hI.keeps_enable.andThen fun _ => Keeps.return ret)
    exact hI.exchange fun _ => hquiet (lit "LO") rfl (by decide)
  | setChannel =>
    intro log q hq res q' hout
    cases hout
    exact hI.channel log q _ _ hq
  | setChannelTo port name =>
    intro log q hq res q' hout
    cases hout
    unfold PRU.setChannelTo
    split_ifs
    · exact hq
    · exact hI.channel log q _ _ hq
  | sendMsgString message =>
    exact hreturn (hI.exchange fun _ => hquiet (lit "SE") rfl (by decide))
  | sendMsgRaw message => exact hI.exchange fun _ => hquiet (lit "SE") rfl (by decide)
  | getMsg => exact hreturn (hI.exchange fun _ => hquiet (lit "GE") rfl (by decide))
  | waitForEvent time => exact hreturn (hI.exchange fun _ => hquiet (lit "EV") rfl (by decide))
  | memRead mem offset =>
    refine hreturn (hI.exchange fun _ => ?_)
    cases mem <;> exact hquiet (lit "ME") rfl (by decide)
  | memWrite mem offset data =>
    refine hreturn (hI.exchange fun _ => ?_)
    cases mem <;> exact hquiet (lit "ME") rfl (by decide)

end KeptByCalls

/-! ## The shutdown -/

/-- The command `PRU::disable` sends. -/
def disableCmds (q : PRU) : List Bytes :=
  match q.state with
  | .running | .halted => [q.verb "DISABLE_"]
  | .none | .stopped => []

/-- **What a shutdown sends**, and what it assigns. -/
theorem run_shutDown {p : PRUSS} (hon : p.on = true) (log : List Bytes) :
    run zeroDaemon (PRUSS.shutDown p) log =
      (.ret (.ok 0, { p.setStates .none with on := false }),
        log ++ disableCmds p.pru0 ++ disableCmds p.pru1 ++ [lit "UNPROBE_RPROC"]) := by
  obtain ⟨on, ⟨n0, port0, name0, state0⟩, ⟨n1, port1, name1, state1⟩⟩ := p
  cases hon
  cases state0 <;> cases state1 <;>
    simp [PRUSS.shutDown, Method.andThen, PRUSS.onCore, PRU.disable, PRU.control, Method.command,
      sendcmd, zeroDaemon, stoi_zero, disableCmds, PRUSS.pru, PRUSS.setPru, PRUSS.setStates,
      PRU.verb]

theorem run_shutDown_off {p : PRUSS} (hon : p.on = false) (log : List Bytes) :
    run zeroDaemon (PRUSS.shutDown p) log = (.ret (.ok (-EALREADY), p), log) := by
  unfold PRUSS.shutDown
  rw [hon]
  rfl

/-- `shutDown` and `bootUp` return. -/
theorem shutDown_returns (p : PRUSS) (log : List Bytes) :
    ∃ r q mid, run zeroDaemon (PRUSS.shutDown p) log = (.ret (.ok r, q), mid) := by
  cases hon : p.on with
  | true => exact ⟨_, _, _, run_shutDown hon log⟩
  | false => exact ⟨_, _, _, run_shutDown_off hon log⟩

theorem bootUp_returns (p : PRUSS) (log : List Bytes) :
    ∃ r q mid, run zeroDaemon (PRUSS.bootUp p) log = (.ret (.ok r, q), mid) := by
  cases hon : p.on with
  | true => exact ⟨-EALREADY, p, log, by simp [PRUSS.bootUp, hon]⟩
  | false =>
    have hrun : run zeroDaemon (PRUSS.bootUp p) log =
        (.ret (.ok 0, { p.setStates .stopped with on := true }), log ++ [lit "PROBE_RPROC"]) := by
      simp [PRUSS.bootUp, hon, Method.command, sendcmd, zeroDaemon, stoi_zero]
    exact ⟨_, _, _, hrun⟩

/-- A `restart` is a `shutDown` and a `bootUp`. -/
theorem runs_restart_iff {p p' : PRUSS} {log log' : List Bytes} :
    Runs PRUSS.restart p log p' log' ↔
      ∃ q mid, Runs PRUSS.shutDown p log q mid ∧ Runs PRUSS.bootUp q mid p' log' := by
  obtain ⟨r, q, mid, hdown⟩ := shutDown_returns p log
  obtain ⟨r', p'', log'', hup⟩ := bootUp_returns q mid
  have hrestart : run zeroDaemon (PRUSS.restart p) log = (.ret (.ok (), p''), log'') := by
    unfold PRUSS.restart Method.andThen
    simp only [run_bind, hdown, hup]
    rfl
  unfold Runs
  simp only [exec_run_iff, hrestart]
  constructor
  · rintro ⟨res, hx⟩
    cases hx
    exact ⟨q, mid, ⟨_, hdown⟩, _, hup⟩
  · rintro ⟨q', mid', ⟨res, hx⟩, res', hx'⟩
    rw [hdown] at hx
    cases hx
    rw [hup] at hx'
    cases hx'
    exact ⟨_, rfl⟩

/-- The events that run `shutDown`. -/
def IsShutDown : Event → Prop
  | .shutDown | .destroy => True
  | _ => False

/-- **A shutdown event**, on an object that is on and on one that is not. -/
theorem Step.of_shutDown {realpath : Bytes → Bytes} {s s' : Program} {e : Event}
    (h : Step realpath s e s') (he : IsShutDown e) :
    if s.pruss.on = true then
      s' = { s with
        pruss := { s.pruss.setStates .none with on := false }
        log := s.log ++ disableCmds s.pruss.pru0 ++ disableCmds s.pruss.pru1 ++
          [lit "UNPROBE_RPROC"] }
    else s' = s := by
  cases h with
  | shutDown hruns =>
    obtain ⟨res, hx⟩ := hruns
    rw [exec_run_iff] at hx
    cases hon : s.pruss.on with
    | true =>
      rw [run_shutDown hon] at hx
      cases hx
      rfl
    | false =>
      rw [run_shutDown_off hon] at hx
      cases hx
      rfl
  | destroy hruns =>
    obtain ⟨res, hx⟩ := hruns
    rw [exec_run_iff] at hx
    unfold PRUSS.destroy at hx
    cases hon : s.pruss.on with
    | true =>
      rw [if_pos hon] at hx
      unfold Method.andThen at hx
      rw [run_bind, run_shutDown hon] at hx
      cases hx
      rfl
    | false =>
      rw [if_neg (by simp [hon])] at hx
      cases hx
      rfl
  | _ => exact he.elim

/-- What `PRU::disable` sends stops the core of an object that is running or
halted. -/
theorem started_disableCmds (q : PRU) (n : Nat) (log : List Bytes) :
    started n (log ++ disableCmds q) = true ↔
      started n log = true ∧ ¬ (q.number = n ∧ (q.state = .running ∨ q.state = .halted)) := by
  have hverb : q.verb "DISABLE_" = disableCmd q.number := rfl
  unfold disableCmds
  cases hstate : q.state with
  | none => simp
  | stopped => simp
  | running => simp [started_concat, hverb, startedBy_disableCmd, eq_comm (a := n), and_comm]
  | halted => simp [started_concat, hverb, startedBy_disableCmd, eq_comm (a := n), and_comm]

/-- Every object reports `NONE`, and the last command was to unload the driver,
with no core started. -/
structure SafelyDown (s : Program) : Prop where
  sent : ∃ log, s.log = log ++ [lit "UNPROBE_RPROC"] ∧ ∀ n : Core, started n log = false
  none : ∀ r q, s.obj r = some q → q.state = .none

/-- A member of every started core knows that it is, and every copy is `NONE`. -/
structure Tracked (s : Program) : Prop where
  member : ∀ n : Core, started n s.log = true →
    ∃ m, (s.pruss.pru m).number = n ∧
      ((s.pruss.pru m).state = .running ∨ (s.pruss.pru m).state = .halted)
  copies : ∀ q ∈ s.copies, q.state = .none

/-- The cores that are started after the commands of a shutdown. -/
theorem started_shutDown (p : PRUSS) (n : Nat) (log : List Bytes) :
    started n (log ++ disableCmds p.pru0 ++ disableCmds p.pru1) = false ↔
      (started n log = true → ∃ m, (p.pru m).number = n ∧
        ((p.pru m).state = .running ∨ (p.pru m).state = .halted)) := by
  rw [← Bool.not_eq_true, started_disableCmds, started_disableCmds, Fin.exists_fin_two]
  show _ ↔ (_ → (p.pru0.number = n ∧ _) ∨ (p.pru1.number = n ∧ _))
  tauto

/-- **One shutdown** of an object that is on. -/
theorem safelyDown_iff {realpath : Bytes → Bytes} {s s' : Program} {e : Event}
    (h : Step realpath s e s') (he : IsShutDown e) (hon : s.pruss.on = true) :
    SafelyDown s' ↔ Tracked s := by
  have hs' := h.of_shutDown he
  rw [if_pos hon] at hs'
  subst hs'
  constructor
  · rintro ⟨⟨log, hlog, hdown⟩, hnone⟩
    obtain ⟨rfl, -⟩ := List.append_inj' hlog rfl
    refine ⟨fun n => (started_shutDown s.pruss n s.log).1 (hdown n), fun q hq => ?_⟩
    obtain ⟨i, hi, rfl⟩ := List.getElem_of_mem hq
    exact hnone (.copy i) _ (List.getElem?_eq_getElem hi)
  · rintro ⟨hmember, hcopies⟩
    refine ⟨⟨_, rfl, fun n => (started_shutDown s.pruss n s.log).2 (hmember n)⟩, ?_⟩
    rintro (n | i) q hq
    · cases hq
      show ((s.pruss.setStates .none).pru n).state = .none
      rw [PRUSS.pru_setStates]
    · exact hcopies q (List.mem_of_getElem? hq)

/-! ## Programs that make no copies -/

/-- What the member for core `n` knows about it. -/
structure Known (n : Core) (on : Bool) (log : List Bytes) (q : PRU) : Prop where
  number : q.number = n
  started : started n log = true → q.state = .running ∨ q.state = .halted
  off : on = false → q.state = .none

/-- There are no copies, and each member knows its core. -/
structure InPlace (s : Program) : Prop where
  known : ∀ n, Known n s.pruss.on s.log (s.pruss.pru n)
  copies : s.copies = []

/-- The events that put no object in another's place. -/
def Event.InPlace : Event → Prop
  | .copy _ | .assign _ _ => False
  | _ => True

theorem Known.of_started {n : Core} {on : Bool} {log log' : List Bytes} {q : PRU}
    (h : Known n on log q) (hlog : Client.started n log' = Client.started n log) :
    Known n on log' q :=
  ⟨h.number, fun hs => h.started (hlog ▸ hs), h.off⟩

theorem started_quiet {n : Nat} {log : List Bytes} {command : Bytes} (h : QuietCmd command) :
    started n (log ++ [command]) = started n log := by
  rw [started_concat, h]

/-- The calls on one member keep what every member knows. -/
theorem keptByCalls_known (p : PRUSS) (m : Core) :
    KeptByCalls fun log q => Known m p.on log q ∧ ∀ n, n ≠ m → Known n p.on log (p.pru n) where
  enable log q h hstate := by
    have hverb : q.verb "ENABLE_" = enableCmd m := by rw [← h.1.number]; rfl
    refine ⟨⟨h.1.number, fun _ => .inl rfl, fun hoff => ?_⟩, fun n hn => ?_⟩
    · have hnone := h.1.off hoff
      rw [hstate] at hnone
      cases hnone
    · refine (h.2 n hn).of_started ?_
      rw [started_concat, hverb, startedBy_enableCmd, if_neg (Fin.val_ne_of_ne hn)]
  disable log q h hstate := by
    have hverb : q.verb "DISABLE_" = disableCmd m := by rw [← h.1.number]; rfl
    refine ⟨⟨h.1.number, fun hs => ?_, fun hoff => ?_⟩, fun n hn => ?_⟩
    · rw [started_concat, hverb, startedBy_disableCmd, if_pos rfl] at hs
      cases hs
    · have hnone := h.1.off hoff
      rcases hstate with hstate | hstate <;> rw [hstate] at hnone <;> cases hnone
    · refine (h.2 n hn).of_started ?_
      rw [started_concat, hverb, startedBy_disableCmd, if_neg (Fin.val_ne_of_ne hn)]
  quiet log q command h hquiet :=
    ⟨h.1.of_started (started_quiet hquiet), fun n hn => (h.2 n hn).of_started (started_quiet hquiet)⟩
  halt log q h hstate :=
    ⟨⟨h.1.number, fun _ => .inr rfl, fun hoff => absurd (h.1.off hoff) hstate⟩, h.2⟩
  resume log q h hstate := by
    refine ⟨⟨h.1.number, fun _ => .inl rfl, fun hoff => ?_⟩, h.2⟩
    have hnone := h.1.off hoff
    rw [hstate] at hnone
    cases hnone
  channel log q port name h := ⟨⟨h.1.number, h.1.started, h.1.off⟩, h.2⟩

/-- What a method keeps holds after it has run. -/
theorem Runs.kept {σ α : Type} {m : Method σ α} {x x' : σ} {log log' : List Bytes}
    {I : List Bytes → σ → Prop} (h : Runs m x log x' log')
    (hm : Keeps (Env.ofFun zeroDaemon) I m) (hI : I log x) : I log' x' := by
  obtain ⟨res, hx⟩ := h
  exact (wp_iff_exec _).1 (hm log x hI) _ _ hx res x' rfl

theorem keeps_bootUp_known :
    Keeps (Env.ofFun zeroDaemon) (fun log p => ∀ n, Known n p.on log (p.pru n)) PRUSS.bootUp := by
  refine PRUSS.keeps_bootUp fun log p reply log' hp hon hstep n => ?_
  cases hstep
  rw [if_pos stoi_zero]
  show Known n true _ ((p.setStates .stopped).pru n)
  rw [PRUSS.pru_setStates]
  refine ⟨(hp n).number, fun hs => ?_, fun hoff => by cases hoff⟩
  rw [started_quiet (quietCmd_of_take (lit "PR") rfl (by decide))] at hs
  rcases (hp n).started hs with h | h <;> rw [(hp n).off hon] at h <;> cases h

/-- A state without copies, in which each member knows its core, is tracked. -/
theorem InPlace.tracked {s : Program} (h : InPlace s) : Tracked s where
  member n hn := ⟨n, (h.known n).number, (h.known n).started hn⟩
  copies q hq := by
    rw [h.copies] at hq
    cases hq

/-- **One step.** -/
theorem InPlace.step {realpath : Bytes → Bytes} {s s' : Program} {e : Event} (hs : InPlace s)
    (h : Step realpath s e s') (he : e.InPlace) : InPlace s' := by
  by_cases hdown : IsShutDown e
  · have hs' := h.of_shutDown hdown
    cases hon : s.pruss.on with
    | true =>
      rw [if_pos hon] at hs'
      subst hs'
      refine ⟨fun n => ?_, hs.copies⟩
      show Known n false _ ((s.pruss.setStates .none).pru n)
      rw [PRUSS.pru_setStates]
      refine ⟨(hs.known n).number, fun hstarted => ?_, fun _ => rfl⟩
      rw [started_quiet (quietCmd_of_take (lit "UN") rfl (by decide)),
        (started_shutDown s.pruss n s.log).2 (hs.tracked.member n)] at hstarted
      cases hstarted
    | false =>
      rw [if_neg (by simp [hon])] at hs'
      exact hs' ▸ hs
  · cases h with
    | bootUp hruns => exact ⟨hruns.kept keeps_bootUp_known hs.known, hs.copies⟩
    | shutDown _ => exact absurd trivial hdown
    | destroy _ => exact absurd trivial hdown
    | copy _ => exact he.elim
    | assign _ => exact he.elim
    | drop i =>
      refine ⟨hs.known, ?_⟩
      show s.copies.eraseIdx i = []
      rw [hs.copies]
      rfl
    | @call r c q q' log hobj hruns =>
      match r with
      | .copy i =>
        rw [Program.obj, hs.copies] at hobj
        cases hobj
      | .member m =>
        cases hobj
        have hkept := hruns.kept ((keptByCalls_known s.pruss m).keeps_method realpath c)
          ⟨hs.known m, fun n _ => hs.known n⟩
        refine ⟨fun n => ?_, hs.copies⟩
        show Known n (s.pruss.setPru m q').on log ((s.pruss.setPru m q').pru n)
        rw [PRUSS.setPru_on]
        by_cases hn : n = m
        · rw [hn, PRUSS.pru_setPru]
          exact hkept.1
        · rw [PRUSS.pru_setPru_ne _ _ hn]
          exact hkept.2 n hn

/-! ## Runs -/

/-- What the constructor sends, and the object it leaves. -/
theorem run_construct :
    run zeroDaemon PRUSS.construct [] =
      (.ret (.ok (), { PRUSS.fresh.setStates .stopped with on := true }),
        [lit "DISABLE_0", lit "DISABLE_1", lit "PROBE_RPROC"]) := by
  rw [PRUSS.construct_eq]
  simp [PRUSS.bootUp, Method.andThen, Method.command, Method.return, sendcmd, zeroDaemon,
    stoi_zero, PRUSS.fresh]

theorem Constructed.inPlace {s : Program} (h : Constructed s) : InPlace s := by
  obtain ⟨pruss, copies, log⟩ := s
  obtain ⟨res, hx, rfl⟩ := h
  rw [exec_run_iff, run_construct] at hx
  cases hx
  refine ⟨fun n => ⟨?_, fun hs => ?_, fun hoff => by cases hoff⟩, rfl⟩
  · fin_cases n <;> rfl
  · exact absurd hs (by revert n; decide)

/-- One step of a run. -/
structure Move where
  before : Program
  event : Event
  after : Program

/-- The move is a step from one state to the other. -/
def Moves (realpath : Bytes → Bytes) (s : Program) (m : Move) (s' : Program) : Prop :=
  m.before = s ∧ m.after = s' ∧ Step realpath s m.event s'

/-- A shutdown that finds the object on. -/
def Move.ShutsDown (m : Move) : Prop := IsShutDown m.event ∧ m.before.pruss.on = true

/-- **Which shutdowns are safe**: in every run, exactly those of tracked states;
and in every run of a program that puts no object in another's place, all of
them. -/
theorem shutDown_safe_iff {realpath : Bytes → Bytes} {s s' : Program} {ms : List Move}
    (hinit : Constructed s) (hrun : Run (Moves realpath) s ms s') :
    ((∀ m ∈ ms, m.ShutsDown → SafelyDown m.after) ↔
        ∀ m ∈ ms, m.ShutsDown → Tracked m.before) ∧
      ((∀ m ∈ ms, m.event.InPlace) → ∀ m ∈ ms, m.ShutsDown → SafelyDown m.after) := by
  have hsafe : ∀ m ∈ ms, m.ShutsDown → (SafelyDown m.after ↔ Tracked m.before) := by
    have hstep : ∀ s m s', True → Moves realpath s m s' →
        m.ShutsDown → (SafelyDown m.after ↔ Tracked m.before) := by
      intro s m s' _ h hdown
      obtain ⟨rfl, rfl, hstep⟩ := h
      exact safelyDown_iff hstep hdown.1 hdown.2
    exact hrun.labels hstep fun _ _ => trivial
  refine ⟨forall₃_congr hsafe, fun hplace m hm hdown => ?_⟩
  obtain ⟨before, after, rfl⟩ := List.append_of_mem hm
  obtain ⟨t, hbefore, hrest⟩ := run_append_iff.1 hrun
  obtain ⟨u, ⟨rfl, rfl, hstep⟩, -⟩ := run_cons_iff.1 hrest
  have ht : InPlace m.before := by
    refine hbefore.invariant_of (fun s m s' he hs h => hs.step h.2.2 he) (fun m hm => ?_)
      hinit.inPlace
    exact hplace m (List.mem_append_left _ hm)
  exact (hsafe m hm hdown).2 ht.tracked

/-! Two programs: `p.pru1.enable(); p.shutDown();`, and the same through the copy
`PRU p1 = p.pru1`. -/

section Examples

/-- The program once it has its `PRUSS` object. -/
def got : Program where
  pruss := { PRUSS.fresh.setStates .stopped with on := true }
  copies := []
  log := [lit "DISABLE_0", lit "DISABLE_1", lit "PROBE_RPROC"]

theorem constructed_got : Constructed got := by
  refine ⟨.ok (), ?_, rfl⟩
  rw [exec_run_iff, run_construct]
  rfl

theorem runs_enable {q : PRU} (hq : q.state = .stopped) (log : List Bytes) :
    Runs (PruCall.enable.method id) q log { q with state := .running }
      (log ++ [q.verb "ENABLE_"]) := by
  refine ⟨.ok (), ?_⟩
  rw [exec_run_iff]
  simp [PruCall.method, Method.andThen, Method.return, PRU.enable, PRU.control, Method.command,
    sendcmd, zeroDaemon, stoi_zero, hq]

theorem runs_shutDown {p : PRUSS} (hon : p.on = true) (log : List Bytes) :
    Runs PRUSS.shutDown p log { p.setStates .none with on := false }
      (log ++ disableCmds p.pru0 ++ disableCmds p.pru1 ++ [lit "UNPROBE_RPROC"]) := by
  refine ⟨.ok 0, ?_⟩
  rw [exec_run_iff, run_shutDown hon]

/-- Core `1`, started in place. -/
def startedInPlace : Program :=
  { got with pruss.pru1.state := .running, log := got.log ++ [lit "ENABLE_1"] }

/-- Core `1`, started through a copy. -/
def startedThroughCopy : Program where
  pruss := got.pruss
  copies := [{ got.pruss.pru1 with state := .running }]
  log := got.log ++ [lit "ENABLE_1"]

/-- The program after the shutdown. -/
def shut (s : Program) : Program where
  pruss := { s.pruss.setStates .none with on := false }
  copies := s.copies
  log := s.log ++ disableCmds s.pruss.pru0 ++ disableCmds s.pruss.pru1 ++ [lit "UNPROBE_RPROC"]

theorem shutDown_safe_iff_inPlace :
    Run (Moves id) got
        [⟨got, .call (.member 1) .enable, startedInPlace⟩,
          ⟨startedInPlace, .shutDown, shut startedInPlace⟩]
        (shut startedInPlace) ∧
      SafelyDown (shut startedInPlace) := by
  have hrun : Run (Moves id) got
      [⟨got, .call (.member 1) .enable, startedInPlace⟩,
        ⟨startedInPlace, .shutDown, shut startedInPlace⟩]
      (shut startedInPlace) := by
    refine .cons ⟨rfl, rfl, ?_⟩ (.cons ⟨rfl, rfl, ?_⟩ (.nil _))
    · exact .call (r := .member 1) rfl (runs_enable rfl got.log)
    · exact .shutDown (runs_shutDown rfl _)
  refine ⟨hrun, (shutDown_safe_iff constructed_got hrun).2 (fun m hm => ?_)
    ⟨startedInPlace, .shutDown, shut startedInPlace⟩ (.tail _ (.head _)) ⟨trivial, rfl⟩⟩
  rcases hm with _ | ⟨_, _ | ⟨_, ⟨⟩⟩⟩ <;> trivial

/-- **The driver is unloaded under core `1`**, and the copy reports `RUNNING`. -/
theorem shutDown_under_copy :
    ∃ ms s', Constructed got ∧ Run (Moves id) got ms s' ∧
      ∃ m ∈ ms, m.ShutsDown ∧ ¬ SafelyDown m.after := by
  refine ⟨[⟨got, .copy (.member 1), { got with copies := [got.pruss.pru1] }⟩,
    ⟨{ got with copies := [got.pruss.pru1] }, .call (.copy 0) .enable, startedThroughCopy⟩,
    ⟨startedThroughCopy, .shutDown, shut startedThroughCopy⟩], shut startedThroughCopy,
    constructed_got, ?_, ?_⟩
  · refine .cons ⟨rfl, rfl, .copy rfl⟩ (.cons ⟨rfl, rfl, ?_⟩ (.cons ⟨rfl, rfl, ?_⟩ (.nil _)))
    · exact .call (r := .copy 0) rfl (runs_enable rfl got.log)
    · exact .shutDown (runs_shutDown rfl _)
  · refine ⟨⟨startedThroughCopy, .shutDown, shut startedThroughCopy⟩, by simp,
      ⟨trivial, rfl⟩, fun h => ?_⟩
    obtain ⟨log, hlog, hdown⟩ := h.sent
    obtain ⟨rfl, -⟩ := List.append_inj' hlog rfl
    exact absurd (hdown 1) (by decide)

end Examples

end Client
