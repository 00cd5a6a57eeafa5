import PrussBindings.Daemon.Request
import PrussBindings.Lib.Replay
import PrussBindings.Lib.Transition
import PrussBindings.Node.Pruss

/-!
# Requests that overlap

A call of the Node client returns before its requests are answered, so any number
of requests can be under way; the daemon executes them in any order, and their
replies arrive in any order.

* `Driver`, `Driver.execute` — the driver and the cores as the commands leave
  them; `handle_execute` — **this is what the handlers of `prussd.py` do** where
  the attributes are there exactly while the driver is loaded.
* `Step` — a call, the execution of a request, the arrival of a reply.
* `Assignment`, `effect` — a callback assigns to properties of the object.
* `Orderly` — no reply overtakes one with a conflicting effect, and no `DISABLE_n`
  of `bootUp` finds the driver unloaded.
* `overlap_agrees` — **in an orderly run the object agrees with the daemon
  whenever no request is under way**; `shutDown_disagrees` — a run in which it
  does not.
-/

namespace Node

open Effect Errno Text Daemon Transition Replay

/-! ## The driver and the cores -/

/-- Whether the driver is loaded, and the state in which the last command left
each core. -/
structure Driver where
  loaded : Bool
  core : Fin 2 → State
  off : loaded = false → ∀ n, core n = .none

/-- A command of the daemon. -/
inductive Command where
  | probe
  | unprobe
  | core (n : Fin 2) (m : Method)
  deriving DecidableEq, Repr

/-- The command of a request. -/
def Request.command : Request → Command
  | .probe => .probe
  | .unprobe => .unprobe
  | .control n m => .core n m
  | .bootDisable n => .core n .disable

namespace Driver

/-- The driver is loaded; one that is loaded already is left alone. -/
def probe (d : Driver) : Driver := ⟨true, d.core, fun h => by cases h⟩

/-- The driver is unloaded. -/
def unprobed : Driver := ⟨false, fun _ => .none, fun _ _ => rfl⟩

/-- A core is brought into a state. -/
def setCore (d : Driver) (h : d.loaded = true) (n : Fin 2) (state : State) : Driver :=
  ⟨d.loaded, Function.update d.core n state, fun hoff => by rw [h] at hoff; cases hoff⟩

/-- The reply to a command, and what it does: a core command fails when the driver
is not loaded, and everything else succeeds. -/
def execute (d : Driver) : Command → Int × Driver
  | .probe => (0, d.probe)
  | .unprobe => (0, unprobed)
  | .core n m =>
    if h : d.loaded = true then (0, d.setCore h n m.control.next) else (-ENOENT, d)

/-! ## The driver as the handlers see it -/

/-- The attributes of the cores. -/
def attrs : List Str :=
  (List.finRange 2).flatMap fun n =>
    [rprocSysfs "state".toList n, rprocDebugfs "single_step".toList n]

/-- The core and the state that a write to an attribute is for. -/
def attrState (path : Str) (data : Bytes) : Option (Fin 2 × State) :=
  (List.finRange 2).findSome? fun n : Fin 2 =>
    if path = rprocSysfs "state".toList n then
      if data = encode "start".toList then some (n, .running)
      else if data = encode "stop".toList then some (n, .stopped)
      else none
    else if path = rprocDebugfs "single_step".toList n then
      if data = encode (showInt 1) then some (n, .halted)
      else if data = encode (showInt 0) then some (n, .running)
      else none
    else none

theorem attrState_nil (path : Str) : attrState path [] = none := by
  unfold attrState
  rw [List.findSome?_eq_none_iff]
  intro n _
  have hstart : [] ≠ encode "start".toList := by decide
  have hstop : [] ≠ encode "stop".toList := by decide
  have hone : [] ≠ encode (showInt 1) := by decide
  have hzero : [] ≠ encode (showInt 0) := by decide
  rw [if_neg hstart, if_neg hstop, if_neg hone, if_neg hzero]
  split_ifs <;> rfl

/-- A write to an attribute. -/
def writeAttr (d : Driver) (path : Str) (data : Bytes) : Driver :=
  match attrState path data with
  | some (n, state) => if h : d.loaded = true then d.setCore h n state else d
  | none => d

/-- A `modprobe`. -/
def modprobe (d : Driver) (argv : List Str) : Driver :=
  if argv = [modprobePath, "pru_rproc".toList] then d.probe
  else if argv = [modprobePath, "-r".toList, "pru_rproc".toList] then unprobed
  else d

/-- The system of the daemon: the attributes of the cores are there while the
driver is loaded, and what is there can be written. -/
def env : (o : OsOp) → Driver → OsRes o × Driver
  | .pathExists path, d => (d.loaded && attrs.contains path, d)
  | .openFile _ _, d => (.ok (), d)
  | .write path data, d => (.ok (), d.writeAttr path data)
  | .writeAgain path data, d => (.ok (), d.writeAttr path data)
  | .popenWait argv, d => (.ok 0, d.modprobe argv)
  | .read _, d => (.ok [], d)
  | .readline _, d => (.ok [], d)
  | .select _ _, d => (.ok false, d)
  | .copyfile _ _, d => (.ok (), d)
  | .mmap _ _, d => (.ok (), d)
  | .close _, d => ((), d)
  | .sleep _, d => ((), d)
  | .peek _, d => (0, d)
  | .poke _ _, d => ((), d)

end Driver

/-- A write to an attribute of a core, by the handler. -/
theorem run_sysfsWrite {path val : Str} {n : Fin 2} {state : State} (d : Driver)
    (hattr : path ∈ Driver.attrs) (hstate : Driver.attrState path (encode val) = some (n, state)) :
    run Driver.env (sysfsWrite path val) d =
      if h : d.loaded = true then (.ret (.int 0), d.setCore h n state)
      else (.ret (.int (-ENOENT)), d) := by
  unfold sysfsWrite
  by_cases h : d.loaded = true
  · have hwrite : d.writeAttr path (encode val) = d.setCore h n state := by
      unfold Driver.writeAttr
      rw [hstate]
      exact dif_pos h
    have hdata : encode val ≠ [] := by
      intro hnil
      rw [hnil, Driver.attrState_nil] at hstate
      cases hstate
    have htext : run Driver.env (writeText path (encode val)) d =
        (.ret (), d.setCore h n state) := by
      rw [← hwrite]
      unfold writeText
      rw [if_neg hdata]
      rfl
    simp [pathExists, Driver.env, hattr, h, catchOSError, withOpen, openFile, close, run_bind,
      run_tryCatch, htext]
  · simp [pathExists, Driver.env, h]

/-- The attribute that a core command writes. -/
theorem serve_core (setup : Setup) (n : Fin 2) (m : Method) :
    ∃ path val, IsToken (m.control.verb ++ showNat n) ∧
      serve setup [m.control.verb ++ showNat n] = sysfsWrite path val ∧ path ∈ Driver.attrs ∧
      Driver.attrState path (encode val) = some (n, m.control.next) := by
  cases m with
  | enable =>
    refine ⟨rprocSysfs "state".toList n, "start".toList, ?_⟩
    match n with
    | 0 => exact ⟨by decide, rfl, by decide, by decide⟩
    | 1 => exact ⟨by decide, rfl, by decide, by decide⟩
  | disable =>
    refine ⟨rprocSysfs "state".toList n, "stop".toList, ?_⟩
    match n with
    | 0 => exact ⟨by decide, rfl, by decide, by decide⟩
    | 1 => exact ⟨by decide, rfl, by decide, by decide⟩
  | pause =>
    refine ⟨rprocDebugfs "single_step".toList n, showInt 1, ?_⟩
    match n with
    | 0 => exact ⟨by decide, rfl, by decide, by decide⟩
    | 1 => exact ⟨by decide, rfl, by decide, by decide⟩
  | resume =>
    refine ⟨rprocDebugfs "single_step".toList n, showInt 0, ?_⟩
    match n with
    | 0 => exact ⟨by decide, rfl, by decide, by decide⟩
    | 1 => exact ⟨by decide, rfl, by decide, by decide⟩

/-- What a command of one word comes to. -/
theorem run_handle (setup : Setup) {w : Str} (hw : IsToken w) {d d' : Driver} {ret : Int}
    (h : run Driver.env (serve setup [w]) d = (.ret (.int ret), d')) :
    run Driver.env (handle setup (encode w ++ [10])) d = (.ret (encode (showInt ret)), d') := by
  have hline := handle_line setup [w] (by simpa using hw)
  rw [unwords_singleton] at hline
  rw [hline, run_bind, h]
  rfl

/-- **The handlers of `prussd.py` do what `execute` says.** -/
theorem handle_execute (setup : Setup) (q : Request) (d : Driver) :
    run Driver.env (handle setup (encode q.line ++ [10])) d =
      (.ret (encode (showInt (d.execute q.command).1)), (d.execute q.command).2) := by
  have hcore (n : Fin 2) (m : Method) :
      run Driver.env (handle setup (encode (m.control.verb ++ showNat n) ++ [10])) d =
        (.ret (encode (showInt (d.execute (.core n m)).1)), (d.execute (.core n m)).2) := by
    obtain ⟨path, val, htoken, hserve, hattr, hstate⟩ := serve_core setup n m
    apply run_handle setup htoken
    rw [hserve, run_sysfsWrite d hattr hstate]
    unfold Driver.execute
    simp only
    split_ifs <;> rfl
  cases q with
  | probe => exact run_handle setup (by decide) rfl
  | unprobe => exact run_handle setup (by decide) rfl
  | control n m => exact hcore n m
  | bootDisable n => exact hcore n .disable

/-! ## Requests under way -/

/-- A request that was executed, with its reply. -/
abbrev Reply := Request × Int

/-- The object, the daemon, the requests that were sent and not executed, and
those that were executed and whose reply has not arrived, in the order of their
execution. -/
structure Overlap where
  pruss : PRUSS
  driver : Driver
  sent : List Request
  replies : List Reply

/-- What happens next: a call, the execution of a request, or the arrival of a
reply before those to some requests that were executed earlier. -/
inductive Event where
  | call (op : Op)
  | execute (q : Request)
  | reply (earlier : List Reply) (x : Reply)

/-- Any request may be executed next, and any reply may arrive next. -/
inductive Step : Overlap → Event → Overlap → Prop where
  | call {s : Overlap} (op : Op) : Step s (.call op) { s with sent := s.sent ++ s.pruss.send op }
  | execute {s : Overlap} (before : List Request) (q : Request) (after : List Request) :
    s.sent = before ++ q :: after → Step s (.execute q) { s with
      driver := (s.driver.execute q.command).2
      sent := before ++ after
      replies := s.replies ++ [(q, (s.driver.execute q.command).1)] }
  | reply {s : Overlap} (earlier : List Reply) (x : Reply) (later : List Reply) :
    s.replies = earlier ++ x :: later → Step s (.reply earlier x) { s with
      pruss := (s.pruss.onReply x.1 x.2).1
      sent := s.sent ++ (s.pruss.onReply x.1 x.2).2
      replies := earlier ++ later }

/-- A new object, whose constructor has called `bootUp`. -/
def Overlap.start (d : Driver) : Overlap where
  pruss := .construct
  driver := d
  sent := PRUSS.construct.send .bootUp
  replies := []

/-- The object agrees with the daemon. -/
structure Agrees (s : Overlap) : Prop where
  on : s.pruss.on = s.driver.loaded
  state : ∀ n, (s.pruss.prus n).state = s.driver.core n
  off : s.pruss.on = false → ∀ n, (s.pruss.prus n).state = .none

/-! ## Callbacks as assignments -/

/-- What the object and the daemon can agree on. -/
@[ext] structure View where
  on : Bool
  state : Fin 2 → State

def PRUSS.view (p : PRUSS) : View := ⟨p.on, fun n => (p.prus n).state⟩

def Driver.view (d : Driver) : View := ⟨d.loaded, d.core⟩

/-- New values for some of the properties. -/
structure Assignment where
  on : Option Bool
  state : Fin 2 → Option State

def View.assign (v : View) (a : Assignment) : View :=
  ⟨a.on.getD v.on, fun n => (a.state n).getD (v.state n)⟩

/-- What the callback of a request assigns when its reply arrives. -/
def effect : Reply → Assignment
  | (.probe, ret) => ⟨if ret = 0 then some true else none, fun _ => none⟩
  | (.unprobe, ret) =>
    ⟨if ret = 0 then some false else none, fun _ => if ret = 0 then some .none else none⟩
  | (.control n m, ret) =>
    ⟨none, fun k => if k = n ∧ ret = 0 then some m.control.next else none⟩
  | (.bootDisable n, _) => ⟨none, fun k => if k = n then some .stopped else none⟩

/-- The assignments give one property different values. -/
def Conflict (a b : Assignment) : Prop :=
  (∃ x ∈ a.on, ∃ y ∈ b.on, x ≠ y) ∨ ∃ n, ∃ x ∈ a.state n, ∃ y ∈ b.state n, x ≠ y

/-- No reply arrives before one that was given earlier and conflicts with it, and
no `DISABLE_n` of `bootUp` is executed while the driver is not loaded. -/
def Orderly (s : Overlap) : Event → Prop
  | .call _ => True
  | .execute q => ∀ n, q = .bootDisable n → s.driver.loaded = true
  | .reply earlier x => ∀ y ∈ earlier, ¬ Conflict (effect x) (effect y)

/-- Values that are not different may be assigned in either order. -/
theorem getD_comm {α : Type} {a b : Option α} (h : ¬ ∃ x ∈ a, ∃ y ∈ b, x ≠ y) (v : α) :
    b.getD (a.getD v) = a.getD (b.getD v) := by
  cases a with
  | none => rfl
  | some x =>
    cases b with
    | none => rfl
    | some y =>
      push Not at h
      exact (h x rfl y rfl).symm

theorem commute_of_not_conflict {a b : Assignment} (h : ¬ Conflict a b) :
    Commute View.assign a b := by
  unfold Conflict at h
  push Not at h
  intro v
  ext n
  · refine getD_comm ?_ v.on
    push Not
    exact h.1
  · refine getD_comm ?_ (v.state n)
    push Not
    exact h.2 n

/-- **A callback assigns.** -/
theorem view_onReply (p : PRUSS) (x : Reply) :
    (p.onReply x.1 x.2).1.view = p.view.assign (effect x) := by
  obtain ⟨q, ret⟩ := x
  cases q with
  | probe =>
    by_cases hret : ret = 0 <;> simp [PRUSS.onReply, effect, View.assign, PRUSS.view, hret]
  | unprobe =>
    by_cases hret : ret = 0
    · ext k
      · simp [PRUSS.onReply, effect, View.assign, PRUSS.view, hret, List.finRange_succ,
          PRUSS.setState]
      · match k with
        | 0 => simp [PRUSS.onReply, effect, View.assign, PRUSS.view, hret, List.finRange_succ,
            PRUSS.setState]
        | 1 => simp [PRUSS.onReply, effect, View.assign, PRUSS.view, hret, List.finRange_succ,
            PRUSS.setState]
    · simp [PRUSS.onReply, effect, View.assign, PRUSS.view, hret]
  | control n m =>
    ext k
    · rfl
    · by_cases hk : k = n
      · subst hk
        by_cases hret : ret = 0 <;>
          simp [PRUSS.onReply, effect, View.assign, PRUSS.view, Control.onReply, hret]
      · simp [PRUSS.onReply, effect, View.assign, PRUSS.view, hk]
  | bootDisable n =>
    ext k
    · rfl
    · by_cases hk : k = n
      · subst hk
        simp [PRUSS.onReply, effect, View.assign, PRUSS.view, PRUSS.setState]
      · simp [PRUSS.onReply, effect, View.assign, PRUSS.view, PRUSS.setState, hk]

/-- **A command does to the daemon what its reply will do to the object.** -/
theorem view_execute {d : Driver} {q : Request} (h : ∀ n, q = .bootDisable n → d.loaded = true) :
    (d.execute q.command).2.view = d.view.assign (effect (q, (d.execute q.command).1)) := by
  have hcore (n : Fin 2) (state : State) (hloaded : d.loaded = true) :
      (d.setCore hloaded n state).view =
        d.view.assign ⟨none, fun k => if k = n then some state else none⟩ := by
    ext k
    · rfl
    · by_cases hk : k = n
      · subst hk
        simp [Driver.setCore, Driver.view, View.assign]
      · simp [Driver.setCore, Driver.view, View.assign, hk]
  cases q with
  | probe => rfl
  | unprobe => rfl
  | control n m =>
    by_cases hloaded : d.loaded = true
    · simpa [Request.command, Driver.execute, hloaded, effect] using hcore n m.control.next hloaded
    · simp [Request.command, Driver.execute, hloaded, effect, ENOENT, View.assign]
  | bootDisable n =>
    have hloaded := h n rfl
    have hexecute : d.execute (Request.bootDisable n).command =
        (0, d.setCore hloaded n .stopped) := dif_pos hloaded
    rw [hexecute]
    exact hcore n .stopped hloaded

/-! ## The invariant -/

/-- The object once the replies that are under way have arrived in order. -/
def Overlap.replayed (s : Overlap) : View := (s.replies.map effect).foldl View.assign s.pruss.view

/-- A request that will bring the core into a known state is still to come. -/
def Owed (s : Overlap) (n : Fin 2) : Prop :=
  .probe ∈ s.sent ∨ (.probe, 0) ∈ s.replies ∨ .bootDisable n ∈ s.sent

/-- The object will agree with the daemon once the replies have arrived, except in
what a request is still to come for. -/
structure Inv (s : Overlap) : Prop where
  on : s.replayed.on = s.driver.loaded ∨ .probe ∈ s.sent
  state : ∀ n, s.replayed.state n = s.driver.core n ∨ Owed s n

theorem inv_start (d : Driver) : Inv (.start d) :=
  ⟨.inr (List.mem_cons_self ..), fun _ => .inr (.inl (List.mem_cons_self ..))⟩

/-- A request that is taken out of a list is the one, or still there. -/
theorem mem_of_mem_split {α : Type} {x y : α} {l before after : List α}
    (h : l = before ++ x :: after) (hy : y ∈ l) : y = x ∨ y ∈ before ++ after := by
  subst h
  simp only [List.mem_append, List.mem_cons] at hy ⊢
  tauto

/-- A call of the object asks for more. -/
theorem Inv.call {s : Overlap} (h : Inv s) (op : Op) :
    Inv { s with sent := s.sent ++ s.pruss.send op } := by
  refine ⟨h.on.imp_right (List.mem_append_left _), fun n => (h.state n).imp_right ?_⟩
  rintro (hprobe | hreply | hboot)
  · exact .inl (List.mem_append_left _ hprobe)
  · exact .inr (.inl hreply)
  · exact .inr (.inr (List.mem_append_left _ hboot))

/-- The daemon executes a request: the object will follow once the reply has
arrived. -/
theorem Inv.execute {s : Overlap} (h : Inv s) {before after : List Request} {q : Request}
    (hsent : s.sent = before ++ q :: after) (horderly : Orderly s (.execute q)) :
    Inv { s with
      driver := (s.driver.execute q.command).2
      sent := before ++ after
      replies := s.replies ++ [(q, (s.driver.execute q.command).1)] } := by
  have hview := view_execute horderly
  -- the reply joins the log, and the daemon has moved as it will say
  have hreplayed : ((s.replies ++ [(q, (s.driver.execute q.command).1)]).map effect).foldl
      View.assign s.pruss.view =
        s.replayed.assign (effect (q, (s.driver.execute q.command).1)) := by
    rw [List.map_append]
    exact replay_concat _ _ _
  constructor
  · show View.on (List.foldl _ _ _) = (Driver.view _).on ∨ _
    rw [hreplayed, hview]
    rcases h.on with hon | hprobe
    · exact .inl (congrArg (Option.getD _) hon)
    · rcases mem_of_mem_split hsent hprobe with rfl | hrest
      · exact .inl rfl
      · exact .inr hrest
  · intro n
    show View.state (List.foldl _ _ _) n = (Driver.view _).state n ∨ _
    rw [hreplayed, hview]
    rcases h.state n with hstate | hprobe | hreply | hboot
    · exact .inl (congrArg (Option.getD _) hstate)
    · rcases mem_of_mem_split hsent hprobe with rfl | hrest
      · exact .inr (.inr (.inl (List.mem_append_right _ (List.mem_singleton_self _))))
      · exact .inr (.inl hrest)
    · exact .inr (.inr (.inl (List.mem_append_left _ hreply)))
    · rcases mem_of_mem_split hsent hboot with rfl | hrest
      · left
        simp [View.assign, effect]
      · exact .inr (.inr (.inr hrest))

/-- A reply arrives before others that it does not conflict with. -/
theorem Inv.reply {s : Overlap} (h : Inv s) {earlier later : List Reply} {x : Reply}
    (hreplies : s.replies = earlier ++ x :: later) (horderly : Orderly s (.reply earlier x)) :
    Inv { s with
      pruss := (s.pruss.onReply x.1 x.2).1
      sent := s.sent ++ (s.pruss.onReply x.1 x.2).2
      replies := earlier ++ later } := by
  have hcommute : ∀ a ∈ earlier.map effect, Commute View.assign (effect x) a := by
    intro a ha
    obtain ⟨y, hy, rfl⟩ := List.mem_map.1 ha
    exact commute_of_not_conflict (horderly y hy)
  -- the reply was in the log, and may be taken early
  have hreplayed : ((earlier ++ later).map effect).foldl View.assign
      (s.pruss.onReply x.1 x.2).1.view = s.replayed := by
    unfold Overlap.replayed
    rw [view_onReply, List.map_append, replay_take hcommute, hreplies, List.map_append,
      List.map_cons]
  constructor
  · show View.on (List.foldl _ _ _) = _ ∨ _
    rw [hreplayed]
    exact h.on.imp_right (List.mem_append_left _)
  · intro n
    show View.state (List.foldl _ _ _) n = _ ∨ _
    rw [hreplayed]
    refine (h.state n).imp_right ?_
    rintro (hprobe | hreply | hboot)
    · exact .inl (List.mem_append_left _ hprobe)
    · rcases mem_of_mem_split hreplies hreply with rfl | hrest
      · refine .inr (.inr (List.mem_append_right _ ?_))
        exact List.mem_map_of_mem (List.mem_finRange n)
      · exact .inr (.inl hrest)
    · exact .inr (.inr (List.mem_append_left _ hboot))

/-- **An orderly step keeps the invariant.** -/
theorem Step.inv {s s' : Overlap} {e : Event} (horderly : Orderly s e) (hstep : Step s e s')
    (h : Inv s) : Inv s' := by
  cases hstep with
  | call op => exact h.call op
  | execute before q after hsent => exact h.execute hsent horderly
  | reply earlier x later hreplies => exact h.reply hreplies horderly

/-- Where no request is under way, the invariant is the agreement. -/
theorem Inv.agrees {s : Overlap} (h : Inv s) (hsent : s.sent = []) (hreplies : s.replies = []) :
    Agrees s := by
  have hreplayed : s.replayed = s.pruss.view := by
    unfold Overlap.replayed
    rw [hreplies]
    rfl
  have hon : s.pruss.on = s.driver.loaded := by
    rcases h.on with hon | hprobe
    · rwa [hreplayed] at hon
    · rw [hsent] at hprobe
      cases hprobe
  have hstate (n : Fin 2) : (s.pruss.prus n).state = s.driver.core n := by
    rcases h.state n with hstate | hprobe | hreply | hboot
    · rwa [hreplayed] at hstate
    · rw [hsent] at hprobe
      cases hprobe
    · rw [hreplies] at hreply
      cases hreply
    · rw [hsent] at hboot
      cases hboot
  exact ⟨hon, hstate, fun hoff n => (hstate n).trans (s.driver.off (hon ▸ hoff) n)⟩

/-- **When the object agrees with the daemon.**  However the calls, the
executions and the replies are ordered, as long as no reply arrives before one
that was given earlier and conflicts with it, and no `DISABLE_n` of `bootUp` is
executed while the driver is not loaded, the object agrees with the daemon
whenever no request is under way. -/
theorem overlap_agrees {d : Driver} {es : List Event} {s : Overlap}
    (hrun : Run (Guarded Orderly Step) (.start d) es s) (hsent : s.sent = [])
    (hreplies : s.replies = []) : Agrees s := by
  have hinv : Inv s := by
    refine hrun.invariant ?_ (inv_start d)
    rintro s e s' hs ⟨horderly, hstep⟩
    exact hstep.inv horderly hs
  exact hinv.agrees hsent hreplies

/-- The steps of a `bootUp` on its own. -/
def bootEvents : List Event :=
  [.execute .probe, .reply [] (.probe, 0)] ++
    (List.finRange 2).map (fun n => .execute (.bootDisable n)) ++
    (List.finRange 2).map (fun n => .reply [] (.bootDisable n, 0))

theorem overlap_agrees_boot :
    ∃ s, Run Step (.start Driver.unprobed) bootEvents s ∧ Agrees s := by
  have hrun : Run (Guarded Orderly Step) (.start Driver.unprobed) bootEvents _ :=
    .cons ⟨by simp [Orderly], .execute [] .probe [] rfl⟩ <|
    .cons ⟨by simp [Orderly], .reply [] (.probe, 0) [] rfl⟩ <|
    .cons ⟨fun _ _ => rfl, .execute [] (.bootDisable 0) [.bootDisable 1] rfl⟩ <|
    .cons ⟨fun _ _ => rfl, .execute [] (.bootDisable 1) [] rfl⟩ <|
    .cons ⟨by simp [Orderly], .reply [] (.bootDisable 0, 0) [(.bootDisable 1, 0)] rfl⟩ <|
    .cons ⟨by simp [Orderly], .reply [] (.bootDisable 1, 0) [] rfl⟩ <| .nil _
  exact ⟨_, hrun.unguard, overlap_agrees hrun rfl rfl⟩

/-- Core `0` is started and the driver shut down; the `DISABLE_0` of `shutDown` is
executed first, and its reply arrives last.  It leaves the state `STOPPED` in an
object that is off. -/
theorem shutDown_disagrees :
    ∃ s, Run Step (.start Driver.unprobed) (bootEvents ++
        [.call (.control 0 .enable), .execute (.control 0 .enable),
          .reply [] (.control 0 .enable, 0), .call .shutDown, .execute (.control 0 .disable),
          .execute .unprobe, .reply [(.control 0 .disable, 0)] (.unprobe, 0),
          .reply [] (.control 0 .disable, 0)]) s ∧
      s.sent = [] ∧ s.replies = [] ∧ s.pruss.on = false ∧ (s.pruss.prus 0).state = .stopped ∧
      s.driver.core 0 = .none ∧ ¬ Agrees s := by
  have hrun : Run Step (.start Driver.unprobed) (bootEvents ++
        [.call (.control 0 .enable), .execute (.control 0 .enable),
          .reply [] (.control 0 .enable, 0), .call .shutDown, .execute (.control 0 .disable),
          .execute .unprobe, .reply [(.control 0 .disable, 0)] (.unprobe, 0),
          .reply [] (.control 0 .disable, 0)]) _ :=
    .cons (.execute [] .probe [] rfl) <|
    .cons (.reply [] (.probe, 0) [] rfl) <|
    .cons (.execute [] (.bootDisable 0) [.bootDisable 1] rfl) <|
    .cons (.execute [] (.bootDisable 1) [] rfl) <|
    .cons (.reply [] (.bootDisable 0, 0) [(.bootDisable 1, 0)] rfl) <|
    .cons (.reply [] (.bootDisable 1, 0) [] rfl) <|
    .cons (.call (.control 0 .enable)) <|
    .cons (.execute [] (.control 0 .enable) [] rfl) <|
    .cons (.reply [] (.control 0 .enable, 0) [] rfl) <|
    .cons (.call .shutDown) <|
    .cons (.execute [] (.control 0 .disable) [.unprobe] rfl) <|
    .cons (.execute [] .unprobe [] rfl) <|
    .cons (.reply [(.control 0 .disable, 0)] (.unprobe, 0) [] rfl) <|
    .cons (.reply [] (.control 0 .disable, 0) [] rfl) <| .nil _
  refine ⟨_, hrun, rfl, rfl, rfl, rfl, rfl, fun hagrees => ?_⟩
  have hnone := hagrees.off rfl 0
  cases hnone

end Node
