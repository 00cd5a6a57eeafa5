import PrussBindings.Client.Shutdown

/-!
# On and off, over whole runs

What the calls on the `PRUSS` object and on its members send, and in which order,
whatever the daemon answers.  Every call is a sequence of single exchanges (a
command and its reply), and the object decides about each from four values.

* `Control`, `PRUSS.control` — these values: whether the subsystem is on, and the
  state of each core.
* `Exchange` — one command and its reply: when it is sent, and what it changes.
* `Orderly` — what holds along every run of exchanges; `Exchange.orderly` is its
  step and `orderly_of_run` its run.
* `keeps_call` — **every call is a run of exchanges**, whatever the replies.
* `discipline` — **the on/off discipline**: the object is on exactly if its cores
  have states, only then commands go to the cores, and no core is started twice
  without being stopped, or the driver reloaded, in between.
-/

namespace Client

open Effect Errno Text Transition

/-! ## The commands -/

/-- `PROBE_RPROC`. -/
def probeCmd : Bytes := lit "PROBE_RPROC"

/-- `UNPROBE_RPROC`. -/
def unprobeCmd : Bytes := lit "UNPROBE_RPROC"

/-- `PAUSE_n`. -/
def pauseCmd (n : Nat) : Bytes := lit "PAUSE_" ++ toStr n

/-- `RESUME_n`. -/
def resumeCmd (n : Nat) : Bytes := lit "RESUME_" ++ toStr n

/-- A command that goes to a core and changes what it does. -/
def IsCoreCmd (command : Bytes) : Prop :=
  ∃ n : Core, command = enableCmd n ∨ command = disableCmd n ∨ command = pauseCmd n ∨
    command = resumeCmd n

/-- A command that changes neither the driver nor what a core does. -/
def IsQuery (command : Bytes) : Prop :=
  ¬ IsCoreCmd command ∧ command ≠ probeCmd ∧ command ≠ unprobeCmd

/-- The commands are told apart by their first two letters. -/
theorem IsCoreCmd.take {command : Bytes} (h : IsCoreCmd command) :
    command.take 2 ∈ [lit "EN", lit "DI", lit "PA", lit "RE"] := by
  obtain ⟨n, rfl | rfl | rfl | rfl⟩ := h
  · exact List.mem_cons_self ..
  · exact List.mem_cons_of_mem _ (List.mem_cons_self ..)
  · exact List.mem_cons_of_mem _ (List.mem_cons_of_mem _ (List.mem_cons_self ..))
  · exact List.mem_cons_of_mem _ (List.mem_cons_of_mem _ (List.mem_cons_of_mem _
      (List.mem_cons_self ..)))

theorem isQuery_of_take {command : Bytes} (two : Bytes) (h : command.take 2 = two)
    (htwo : two ∉ [lit "EN", lit "DI", lit "PA", lit "RE"] ∧ two ≠ lit "PR" ∧ two ≠ lit "UN") :
    IsQuery command := by
  subst h
  refine ⟨fun hcore => htwo.1 hcore.take, ?_, ?_⟩
  · rintro rfl
    exact htwo.2.1 rfl
  · rintro rfl
    exact htwo.2.2 rfl

theorem ne_enableCmd {command : Bytes} (two : Bytes) (h : command.take 2 = two)
    (htwo : two ≠ lit "EN") (n : Nat) : command ≠ enableCmd n := by
  rintro rfl
  exact htwo (h.symm.trans (take_enableCmd n))

/-! ## Exchanges -/

/-- A command and its reply. -/
abbrev Xchg := Bytes × Bytes

/-- The command was answered `0`. -/
def Xchg.Acked (x : Xchg) : Prop := stoi x.2 = .ok 0

instance (x : Xchg) : Decidable x.Acked := inferInstanceAs (Decidable (stoi x.2 = .ok 0))

/-- What a `PRUSS` object decides from. -/
@[ext]
structure Control where
  on : Bool
  state : Core → State

namespace Control

/-- Gives one core a state. -/
def set (v : Control) (n : Core) (state : State) : Control :=
  { v with state := Function.update v.state n state }

/-- The subsystem off. -/
def off : Control := ⟨false, fun _ => .none⟩

/-- The subsystem on, and both cores stopped. -/
def booted : Control := ⟨true, fun _ => .stopped⟩

end Control

/-- One command and its reply: in which states the object sends it, and what it
assigns if the answer is `0`. -/
inductive Exchange (v : Control) : Xchg → Control → Prop where
  | probe (reply : Bytes) (off : v.on = false) :
    Exchange v (probeCmd, reply) (if Xchg.Acked (probeCmd, reply) then .booted else v)
  | unprobe (reply : Bytes) :
    Exchange v (unprobeCmd, reply) (if Xchg.Acked (unprobeCmd, reply) then .off else v)
  | enable (n : Core) (reply : Bytes) (guard : v.state n = .stopped) :
    Exchange v (enableCmd n, reply) (if Xchg.Acked (enableCmd n, reply) then v.set n .running else v)
  | disable (n : Core) (reply : Bytes) (guard : v.state n = .running ∨ v.state n = .halted) :
    Exchange v (disableCmd n, reply)
      (if Xchg.Acked (disableCmd n, reply) then v.set n .stopped else v)
  | pause (n : Core) (reply : Bytes) (guard : v.state n = .stopped ∨ v.state n = .running) :
    Exchange v (pauseCmd n, reply) (if Xchg.Acked (pauseCmd n, reply) then v.set n .halted else v)
  | resume (n : Core) (reply : Bytes) (guard : v.state n = .halted) :
    Exchange v (resumeCmd n, reply) (if Xchg.Acked (resumeCmd n, reply) then v.set n .running else v)
  | query (command reply : Bytes) (quiet : IsQuery command) : Exchange v (command, reply) v

/-! ## What the history of exchanges says -/

/-- The command was sent and answered `0`. -/
def Done (command : Bytes) (es : List Xchg) : Prop := ∃ x ∈ es, x.1 = command ∧ x.Acked

/-- The driver was unloaded and loaded again. -/
def Reloaded (es : List Xchg) : Prop :=
  ∃ es₁ es₂, es = es₁ ++ es₂ ∧ Done unprobeCmd es₁ ∧ Done probeCmd es₂

/-- Core `n` was stopped, or the driver reloaded. -/
def Released (n : Core) (es : List Xchg) : Prop := Done (disableCmd n) es ∨ Reloaded es

/-- Since every start of core `n`, `P` has happened. -/
def SinceStart (n : Core) (P : List Xchg → Prop) (es : List Xchg) : Prop :=
  ∀ before x after, es = before ++ x :: after → x.1 = enableCmd n → x.Acked → P after

/-- Between two starts of core `n` it is released. -/
def Alternates (n : Core) (es : List Xchg) : Prop :=
  ∀ before x mid y after, es = before ++ x :: (mid ++ y :: after) → x.1 = enableCmd n → x.Acked →
    y.1 = enableCmd n → y.Acked → Released n mid

section History

variable {n : Core} {command : Bytes} {es es' : List Xchg} {x : Xchg} {P Q : List Xchg → Prop}

theorem Done.append (h : Done command es) : Done command (es ++ es') := by
  obtain ⟨x, hx, hdone⟩ := h
  exact ⟨x, List.mem_append_left _ hx, hdone⟩

theorem done_concat (hx : x.1 = command) (hack : x.Acked) : Done command (es ++ [x]) :=
  ⟨x, by simp, hx, hack⟩

theorem Released.append (h : Released n es) : Released n (es ++ es') := by
  rcases h with h | ⟨es₁, es₂, rfl, hun, hpr⟩
  · exact .inl h.append
  · exact .inr ⟨es₁, es₂ ++ es', List.append_assoc .., hun, hpr.append⟩

/-- An element of a list with one more at the end. -/
theorem concat_eq_append_cons {before after : List Xchg} {y : Xchg}
    (h : es ++ [x] = before ++ y :: after) :
    x = y ∧ es = before ∧ after = [] ∨ ∃ after', after = after' ++ [x] ∧ es = before ++ y :: after' := by
  rcases List.eq_nil_or_concat after with rfl | ⟨after', z, rfl⟩
  · obtain ⟨hes, hxy⟩ := List.append_inj' h rfl
    exact .inl ⟨(List.cons.inj hxy).1, hes, rfl⟩
  · rw [List.concat_eq_append, ← List.cons_append, ← List.append_assoc] at h
    obtain ⟨hes, hxz⟩ := List.append_inj' h rfl
    exact .inr ⟨after', by rw [List.concat_eq_append, (List.cons.inj hxz).1], hes⟩

/-- One more exchange that is not a start. -/
theorem SinceStart.concat (h : SinceStart n P es) (hx : x.1 = enableCmd n → ¬ x.Acked)
    (hP : ∀ es, P es → Q (es ++ [x])) : SinceStart n Q (es ++ [x]) := by
  intro before y after heq hy hack
  obtain ⟨rfl, -, -⟩ | ⟨after', rfl, hes⟩ := concat_eq_append_cons heq
  · exact absurd hack (hx hy)
  · exact hP after' (h before y after' hes hy hack)

/-- An exchange that does what is asked for, after every start so far. -/
theorem sinceStart_concat (hx : x.1 ≠ enableCmd n) (hP : ∀ es, P (es ++ [x])) :
    SinceStart n P (es ++ [x]) := by
  intro before y after heq hy hack
  obtain ⟨rfl, -, -⟩ | ⟨after', rfl, -⟩ := concat_eq_append_cons heq
  · exact absurd hy hx
  · exact hP after'

/-- A start of a core that has been released since the last one. -/
theorem Alternates.concat (h : Alternates n es)
    (hx : x.1 = enableCmd n → x.Acked → SinceStart n (Released n) es) : Alternates n (es ++ [x]) := by
  intro before y mid z after heq hy hyack hz hzack
  rw [← List.cons_append, ← List.append_assoc] at heq
  obtain ⟨rfl, hes, -⟩ | ⟨after', -, hes⟩ := concat_eq_append_cons heq
  · exact hx hz hzack before y mid hes hy hyack
  · rw [List.append_assoc, List.cons_append] at hes
    exact h before y mid z after' hes hy hyack hz hzack

end History

/-! ## Runs of exchanges -/

theorem Control.set_state (v : Control) (n m : Core) (state : State) :
    (v.set n state).state m = if m = n then state else v.state m :=
  Function.update_apply ..

/-- What holds of a run of exchanges and the values it ends in. -/
structure Orderly (es : List Xchg) (v : Control) : Prop where
  off_iff : ∀ n, v.state n = .none ↔ v.on = false
  stopped : ∀ n, v.state n = .stopped → SinceStart n (Released n) es
  none : ∀ n, v.state n = .none →
    SinceStart n (fun es => Done (disableCmd n) es ∨ Done unprobeCmd es) es
  alternates : ∀ n, Alternates n es

theorem orderly_off : Orderly [] .off := by
  refine ⟨fun _ => iff_of_true rfl rfl, ?_, ?_, ?_⟩
  · intro n h
    cases h
  · intro n _ before x after h
    simp at h
  · intro n before x mid y after h
    simp at h

theorem orderly_booted : Orderly [] .booted := by
  refine ⟨fun _ => iff_of_false (by simp [Control.booted]) (by simp [Control.booted]), ?_, ?_, ?_⟩
  · intro n _ before x after h
    simp at h
  · intro n h
    cases h
  · intro n before x mid y after h
    simp at h

section Orderly

variable {es : List Xchg} {v : Control} {x : Xchg}

/-- An exchange that assigns nothing. -/
theorem Orderly.keep (h : Orderly es v) (hx : ∀ n : Core, x.1 = enableCmd n → ¬ x.Acked) :
    Orderly (es ++ [x]) v where
  off_iff := h.off_iff
  stopped n hn := (h.stopped n hn).concat (hx n) fun _ hes => hes.append
  none n hn := (h.none n hn).concat (hx n) fun _ hes => hes.imp Done.append Done.append
  alternates n := (h.alternates n).concat fun heq hack => absurd hack (hx n heq)

/-- An exchange that gives one core a state. -/
theorem Orderly.set (h : Orderly es v) {n : Core} {state : State} (hn : v.state n ≠ .none)
    (hstate : state ≠ .none)
    (hstart : ∀ m : Core, x.1 = enableCmd m → m = n ∧ v.state n = .stopped)
    (hstop : state = .stopped → x.1 = disableCmd n ∧ x.Acked) :
    Orderly (es ++ [x]) (v.set n state) := by
  refine ⟨fun m => ?_, fun m hm => ?_, fun m hm => ?_, fun m => ?_⟩
  · rw [Control.set_state]
    by_cases hmn : m = n
    · rw [if_pos hmn]
      exact iff_of_false hstate fun hoff => hn ((h.off_iff n).2 hoff)
    · rw [if_neg hmn]
      exact h.off_iff m
  · rw [Control.set_state] at hm
    by_cases hmn : m = n
    · rw [if_pos hmn] at hm
      obtain ⟨hcmd, hack⟩ := hstop hm
      rw [hmn]
      refine sinceStart_concat ?_ fun _ => .inl (done_concat hcmd hack)
      rw [hcmd]
      exact disableCmd_ne_enableCmd n n
    · rw [if_neg hmn] at hm
      exact (h.stopped m hm).concat (fun heq => absurd (hstart m heq).1 hmn) fun _ hes => hes.append
  · rw [Control.set_state] at hm
    by_cases hmn : m = n
    · rw [if_pos hmn] at hm
      exact absurd hm hstate
    · rw [if_neg hmn] at hm
      exact (h.none m hm).concat (fun heq => absurd (hstart m heq).1 hmn) fun _ hes =>
        hes.imp Done.append Done.append
  · refine (h.alternates m).concat fun heq _ => ?_
    obtain ⟨rfl, hstopped⟩ := hstart m heq
    exact h.stopped m hstopped

/-- An exchange that moves the object only if it is answered with `0`. -/
theorem Orderly.ite {v' : Control} (h : Orderly es v) (hacked : x.Acked → Orderly (es ++ [x]) v') :
    Orderly (es ++ [x]) (if x.Acked then v' else v) := by
  by_cases hack : x.Acked
  · rw [if_pos hack]
    exact hacked hack
  · rw [if_neg hack]
    exact h.keep fun _ _ => hack

/-- **What one exchange keeps.** -/
theorem Exchange.orderly {v' : Control} (h : Orderly es v) (hstep : Exchange v x v') :
    Orderly (es ++ [x]) v' := by
  cases hstep with
  | probe reply off =>
    have hne (n : Nat) : probeCmd ≠ enableCmd n := ne_enableCmd (lit "PR") rfl (by decide) n
    refine h.ite fun hack => ?_
    refine ⟨fun _ => iff_of_false (by simp [Control.booted]) (by simp [Control.booted]), ?_, ?_, ?_⟩
    · intro n _
      refine (h.none n ((h.off_iff n).2 off)).concat (fun heq => absurd heq (hne n)) fun es hes => ?_
      rcases hes with hes | hes
      · exact .inl hes.append
      · exact .inr ⟨es, _, rfl, hes, ⟨_, List.mem_singleton_self _, rfl, hack⟩⟩
    · intro n hn
      cases hn
    · exact fun n => (h.alternates n).concat fun heq => absurd heq (hne n)
  | unprobe reply =>
    have hne (n : Nat) : unprobeCmd ≠ enableCmd n := ne_enableCmd (lit "UN") rfl (by decide) n
    refine h.ite fun hack => ?_
    refine ⟨fun _ => iff_of_true rfl rfl, ?_, ?_, ?_⟩
    · intro n hn
      cases hn
    · exact fun n _ => sinceStart_concat (hne n) fun _ => .inr (done_concat rfl hack)
    · exact fun n => (h.alternates n).concat fun heq => absurd heq (hne n)
  | enable n reply guard =>
    refine h.ite fun hack => h.set (by rw [guard]; simp) (by simp) (fun m heq => ?_) (by simp)
    exact ⟨(Fin.ext (enableCmd_inj.1 heq)).symm, guard⟩
  | disable n reply guard =>
    refine h.ite fun hack => h.set (by rcases guard with guard | guard <;> rw [guard] <;> simp)
      (by simp) (fun m heq => ?_) fun _ => ⟨rfl, hack⟩
    exact absurd heq (disableCmd_ne_enableCmd n m)
  | pause n reply guard =>
    refine h.ite fun hack => h.set (by rcases guard with guard | guard <;> rw [guard] <;> simp)
      (by simp) (fun m heq => ?_) (by simp)
    exact absurd heq (ne_enableCmd (lit "PA") rfl (by decide) m)
  | resume n reply guard =>
    refine h.ite fun hack => h.set (by rw [guard]; simp) (by simp) (fun m heq => ?_) (by simp)
    exact absurd heq (ne_enableCmd (lit "RE") rfl (by decide) m)
  | query command reply quiet =>
    exact h.keep fun n heq => absurd ⟨n, .inl heq⟩ quiet.1

/-- **What a run of exchanges keeps.** -/
theorem orderly_of_run {v₀ : Control} (h₀ : Orderly [] v₀) (hrun : Run Exchange v₀ es v) :
    Orderly es v :=
  hrun.history h₀ fun _ _ _ _ _ hpast hstep => hstep.orderly hpast

/-- Commands go to a core only while the subsystem is on. -/
theorem Exchange.on_of_coreCmd {v' : Control} (h : Orderly es v) (hstep : Exchange v x v')
    (hx : IsCoreCmd x.1) : v.on = true := by
  have hon {n : Core} (hn : v.state n ≠ .none) : v.on = true := by
    rw [← Bool.not_eq_false]
    exact fun hoff => hn ((h.off_iff n).2 hoff)
  cases hstep with
  | probe reply off => exact absurd hx.take (show lit "PR" ∉ _ by decide)
  | unprobe reply => exact absurd hx.take (show lit "UN" ∉ _ by decide)
  | enable n reply guard => exact hon (n := n) (by rw [guard]; simp)
  | disable n reply guard =>
    exact hon (n := n) (by rcases guard with guard | guard <;> rw [guard] <;> simp)
  | pause n reply guard =>
    exact hon (n := n) (by rcases guard with guard | guard <;> rw [guard] <;> simp)
  | resume n reply guard => exact hon (n := n) (by rw [guard]; simp)
  | query command reply quiet => exact absurd hx quiet.1

end Orderly

/-! ## Calls are runs of exchanges -/

/-- The values a `PRUSS` object decides from. -/
def PRUSS.control (p : PRUSS) : Control := ⟨p.on, fun n => (p.pru n).state⟩

/-- A daemon that may answer anything, and the exchanges so far. -/
def recorded : Env (fun _ : Bytes => Bytes) (List Xchg) :=
  fun command es reply es' => es' = es ++ [(command, reply)]

theorem PRUSS.control_setPru (p : PRUSS) (n : Core) (q : PRU) :
    (p.setPru n q).control = p.control.set n q.state := by
  refine Control.ext (p.setPru_on n q) (funext fun m => ?_)
  rw [Control.set_state]
  by_cases hmn : m = n
  · rw [if_pos hmn, hmn]
    exact congrArg PRU.state (p.pru_setPru n q)
  · rw [if_neg hmn]
    exact congrArg PRU.state (p.pru_setPru_ne q hmn)

theorem Control.set_set (v : Control) (n : Core) (state state' : State) :
    (v.set n state).set n state' = v.set n state' :=
  Control.ext rfl (Function.update_idem ..)

/-- The exchanges so far are a run from `v₀` to the values of the object, whose
members have their numbers. -/
structure Follows (v₀ : Control) (es : List Xchg) (p : PRUSS) : Prop where
  run : Run Exchange v₀ es p.control
  number : ∀ n, (p.pru n).number = n

section Follows

variable {v₀ : Control} {p : PRUSS} {n : Core}

/-- What has to be checked of a method of a member. -/
theorem Follows.setPru {es es' : List Xchg} {q q' : PRU} (h : Follows v₀ es (p.setPru n q))
    (hnumber : q'.number = q.number)
    (hrun : Run Exchange v₀ es (p.setPru n q).control →
      Run Exchange v₀ es' ((p.setPru n q).control.set n q'.state)) :
    Follows v₀ es' (p.setPru n q') where
  run := by
    have hrun' := hrun h.run
    rwa [PRUSS.control_setPru, Control.set_set, ← PRUSS.control_setPru] at hrun'
  number m := by
    have hm := h.number m
    by_cases hmn : m = n
    · subst hmn
      rw [PRUSS.pru_setPru] at hm ⊢
      rw [hnumber, hm]
    · rwa [PRUSS.pru_setPru_ne _ _ hmn] at hm ⊢

theorem Control.set_self (v : Control) (n : Core) : v.set n (v.state n) = v :=
  Control.ext rfl (Function.update_eq_self ..)

theorem PRUSS.control_state (q : PRU) : (p.setPru n q).control.state n = q.state :=
  congrArg PRU.state (p.pru_setPru n q)

/-- `enable`, `disable`, `pause` and `resume`. -/
theorem keeps_core {refused : State → Option Int} {name : String} {next : State}
    (hx : ∀ v reply, refused (v.state n) = none →
      Exchange v (lit name ++ toStr n, reply)
        (if Xchg.Acked (lit name ++ toStr n, reply) then v.set n next else v)) :
    Keeps recorded (fun es q => Follows v₀ es (p.setPru n q)) (PRU.control refused name next) := by
  refine PRU.keeps_control fun es q reply es' hq hrefused hstep => ?_
  cases hstep
  have hnumber : q.number = n := by
    have hn := hq.number n
    rwa [PRUSS.pru_setPru] at hn
  have hverb : q.verb name = lit name ++ toStr n := by
    unfold PRU.verb
    rw [hnumber]
  have hexchange := hx (p.setPru n q).control reply (by rwa [PRUSS.control_state])
  rw [hverb]
  by_cases hack : stoi reply = .ok 0
  · rw [if_pos hack]
    rw [if_pos (show Xchg.Acked (_, reply) from hack)] at hexchange
    exact hq.setPru rfl fun hrun => hrun.concat hexchange
  · rw [if_neg hack]
    rw [if_neg (show ¬ Xchg.Acked (_, reply) from hack)] at hexchange
    refine hq.setPru rfl fun hrun => ?_
    have hself := Control.set_self (p.setPru n q).control n
    rw [PRUSS.control_state] at hself
    rw [hself]
    exact hrun.concat hexchange

/-- A call that sends one command of another kind. -/
theorem keeps_query {α : Type} {command : PRU → Bytes} {result : Bytes → Except StoiError α}
    (hquery : ∀ q, IsQuery (command q)) :
    Keeps recorded (fun es q => Follows v₀ es (p.setPru n q))
      (fun q => do let reply ← sendcmd (command q); return (result reply, q)) := by
  refine Keeps.exchange fun es q reply es' hq hstep => ?_
  cases hstep
  exact ⟨hq.run.concat (.query _ _ (hquery q)), hq.number⟩

theorem keeps_enable :
    Keeps recorded (fun es q => Follows v₀ es (p.setPru n q)) PRU.enable := by
  refine keeps_core fun v reply hrefused => .enable n reply ?_
  cases hstate : v.state n with
  | none => rw [hstate] at hrefused; cases hrefused
  | stopped => exact rfl
  | running => rw [hstate] at hrefused; cases hrefused
  | halted => rw [hstate] at hrefused; cases hrefused

theorem keeps_disable :
    Keeps recorded (fun es q => Follows v₀ es (p.setPru n q)) PRU.disable := by
  refine keeps_core fun v reply hrefused => .disable n reply ?_
  cases hstate : v.state n with
  | none => rw [hstate] at hrefused; cases hrefused
  | stopped => rw [hstate] at hrefused; cases hrefused
  | running => exact .inl rfl
  | halted => exact .inr rfl

theorem keeps_pause :
    Keeps recorded (fun es q => Follows v₀ es (p.setPru n q)) PRU.pause := by
  refine keeps_core fun v reply hrefused => .pause n reply ?_
  cases hstate : v.state n with
  | none => rw [hstate] at hrefused; cases hrefused
  | stopped => exact .inl rfl
  | running => exact .inr rfl
  | halted => rw [hstate] at hrefused; cases hrefused

theorem keeps_resume :
    Keeps recorded (fun es q => Follows v₀ es (p.setPru n q)) PRU.resume := by
  refine keeps_core fun v reply hrefused => .resume n reply ?_
  cases hstate : v.state n with
  | none => rw [hstate] at hrefused; cases hrefused
  | stopped => rw [hstate] at hrefused; cases hrefused
  | running => rw [hstate] at hrefused; cases hrefused
  | halted => exact rfl

/-- Every call on a member. -/
theorem keeps_pruCall (realpath : Bytes → Bytes) (c : PruCall) :
    Keeps recorded (fun es q => Follows v₀ es (p.setPru n q)) (c.method realpath) := by
  have hreturn {α : Type} {m : Method PRU α}
      (hm : Keeps recorded (fun es q => Follows v₀ es (p.setPru n q)) m) :
      Keeps recorded (fun es q => Follows v₀ es (p.setPru n q))
        (m.andThen fun _ => Method.return ()) := hm.andThen fun _ => Keeps.return ()
  have hquery {command : Bytes} (two : Bytes) (h : command.take 2 = two)
      (htwo : two ∉ [lit "EN", lit "DI", lit "PA", lit "RE"] ∧ two ≠ lit "PR" ∧ two ≠ lit "UN") :
      IsQuery command := isQuery_of_take two h htwo
  have hchannel {es : List Xchg} {q : PRU} (port : CInt) (name : Bytes)
      (hq : Follows v₀ es (p.setPru n q)) :
      Follows v₀ es (p.setPru n { q with chanPort := port, chanName := name }) := by
    refine hq.setPru rfl fun hrun => ?_
    have hself := Control.set_self (p.setPru n q).control n
    rw [PRUSS.control_state] at hself
    exact hself.symm ▸ hrun
  cases c with
  | enable => exact hreturn keeps_enable
  | disable => exact hreturn keeps_disable
  | reset => exact hreturn (keeps_disable.andThen fun _ => keeps_enable)
  | pause => exact hreturn keeps_pause
  | resume => exact hreturn keeps_resume
  | showRegs => exact hreturn (keeps_query fun _ => hquery (lit "GE") rfl (by decide))
  | load fw =>
    refine hreturn (keeps_disable.andThen fun _ => Keeps.andThen ?_ fun ret =>
      keeps_enable.andThen fun _ => Keeps.return ret)
    exact keeps_query fun _ => hquery (lit "LO") rfl (by decide)
  | setChannel =>
    intro es q hq res q' hout
    cases hout
    exact hchannel _ _ hq
  | setChannelTo port name =>
    intro es q hq res q' hout
    cases hout
    unfold PRU.setChannelTo
    split_ifs
    · exact hq
    · exact hchannel _ _ hq
  | sendMsgString message => exact hreturn (keeps_query fun _ => hquery (lit "SE") rfl (by decide))
  | sendMsgRaw message => exact keeps_query fun _ => hquery (lit "SE") rfl (by decide)
  | getMsg => exact hreturn (keeps_query fun _ => hquery (lit "GE") rfl (by decide))
  | waitForEvent time => exact hreturn (keeps_query fun _ => hquery (lit "EV") rfl (by decide))
  | memRead mem offset =>
    refine hreturn (keeps_query fun _ => ?_)
    cases mem <;> exact hquery (lit "ME") rfl (by decide)
  | memWrite mem offset data =>
    refine hreturn (keeps_query fun _ => ?_)
    cases mem <;> exact hquery (lit "ME") rfl (by decide)

theorem control_setStates (p : PRUSS) (state : State) (on : Bool) :
    PRUSS.control { p.setStates state with on := on } = ⟨on, fun _ => state⟩ :=
  Control.ext rfl (funext fun m => congrArg PRU.state (p.pru_setStates m state))

/-- Assigning the same state to both members, and `on`. -/
theorem Follows.setStates {es es' : List Xchg} (h : Follows v₀ es p) (state : State) (on : Bool)
    (hrun : Run Exchange v₀ es p.control → Run Exchange v₀ es' ⟨on, fun _ => state⟩) :
    Follows v₀ es' { p.setStates state with on := on } := by
  refine ⟨?_, fun m => ?_⟩
  · rw [control_setStates]
    exact hrun h.run
  · have hm : ({ p.setStates state with on := on } : PRUSS).pru m = (p.setStates state).pru m := by
      fin_cases m <;> rfl
    rw [hm, PRUSS.pru_setStates]
    exact h.number m

theorem keeps_bootUp : Keeps recorded (Follows v₀) PRUSS.bootUp := by
  refine PRUSS.keeps_bootUp fun es p reply es' hp hon hstep => ?_
  cases hstep
  have hexchange := Exchange.probe (v := p.control) reply hon
  by_cases hack : stoi reply = .ok 0
  · rw [if_pos hack]
    rw [if_pos (show Xchg.Acked (_, reply) from hack)] at hexchange
    exact hp.setStates .stopped true fun hrun => hrun.concat hexchange
  · rw [if_neg hack]
    rw [if_neg (show ¬ Xchg.Acked (_, reply) from hack)] at hexchange
    exact ⟨hp.run.concat hexchange, hp.number⟩

theorem keeps_shutDown : Keeps recorded (Follows v₀) PRUSS.shutDown := by
  refine PRUSS.keeps_shutDown (fun n => PRUSS.keeps_onCore fun p => keeps_disable) ?_
  intro es p reply es' hp hstep
  cases hstep
  have hexchange := Exchange.unprobe (v := p.control) reply
  by_cases hack : stoi reply = .ok 0
  · rw [if_pos hack]
    rw [if_pos (show Xchg.Acked (_, reply) from hack)] at hexchange
    exact hp.setStates .none false fun hrun => hrun.concat hexchange
  · rw [if_neg hack]
    rw [if_neg (show ¬ Xchg.Acked (_, reply) from hack)] at hexchange
    exact ⟨hp.run.concat hexchange, hp.number⟩

end Follows

/-! ## The discipline -/

/-- A call on the `PRUSS` object, or in place on one of its members. -/
inductive PrussCall where
  | bootUp
  | shutDown
  | restart
  | pru (n : Core) (call : PruCall)

/-- What a call runs; its result is left out. -/
def PrussCall.method (realpath : Bytes → Bytes) : PrussCall → Method PRUSS Unit
  | .bootUp => PRUSS.bootUp.andThen fun _ => Method.return ()
  | .shutDown => PRUSS.shutDown.andThen fun _ => Method.return ()
  | .restart => PRUSS.restart
  | .pru n call => PRUSS.onCore n (call.method realpath)

/-- **Every call is a run of exchanges**, whatever the daemon answers. -/
theorem keeps_call (realpath : Bytes → Bytes) (v₀ : Control) (c : PrussCall) :
    Keeps recorded (Follows v₀) (c.method realpath) := by
  cases c with
  | bootUp => exact keeps_bootUp.andThen fun _ => Keeps.return ()
  | shutDown => exact keeps_shutDown.andThen fun _ => Keeps.return ()
  | restart =>
    exact keeps_shutDown.andThen fun _ => keeps_bootUp.andThen fun _ => Keeps.return ()
  | pru n call => exact PRUSS.keeps_onCore fun p => keeps_pruCall realpath call

/-- The object, and the exchanges since it was constructed. -/
structure Session where
  pruss : PRUSS
  sent : List Xchg

/-- `PRUSS::get()` has just constructed the object. -/
def Session.Constructed (s : Session) : Prop :=
  s.sent = [] ∧ ∃ es, Exec recorded PRUSS.construct [] (.ret (.ok (), s.pruss)) es

/-- One call returns, or ends in an exception. -/
def CallStep (realpath : Bytes → Bytes) (s : Session) (c : PrussCall) (s' : Session) : Prop :=
  ∃ res, Exec recorded (c.method realpath s.pruss) s.sent (.ret (res, s'.pruss)) s'.sent

/-- What a construction leaves behind: the subsystem off, or on with both cores
stopped. -/
theorem Session.Constructed.cases {s : Session} (h : s.Constructed) :
    Orderly [] s.pruss.control ∧ Follows s.pruss.control s.sent s.pruss := by
  obtain ⟨hsent, es, hx⟩ := h
  have hwp : wp recorded PRUSS.construct (fun out _ => ∀ res p, out = .ret (res, p) →
      p = PRUSS.fresh ∨ p = { PRUSS.fresh.setStates .stopped with on := true }) [] := by
    rw [PRUSS.construct_eq]
    intro _ _ _ _ es _
    unfold Method.andThen
    rw [wp_bind]
    refine PRUSS.wp_bootUp rfl fun reply es' _ => ?_
    by_cases hack : stoi reply = .ok 0
    · rw [if_pos hack, hack]
      intro res p hout
      cases hout
      exact .inr rfl
    · rw [if_neg hack]
      cases stoi reply with
      | ok r =>
        intro res p hout
        cases hout
        exact .inl rfl
      | error e =>
        intro res p hout
        cases hout
        exact .inl rfl
  have hnumber (n : Core) : (PRUSS.fresh.pru n).number = n := by
    fin_cases n <;> rfl
  rw [hsent]
  rcases (wp_iff_exec _).1 hwp _ _ hx _ _ rfl with hp | hp
  · rw [hp]
    refine ⟨?_, .nil _, hnumber⟩
    have hcontrol : PRUSS.fresh.control = .off := Control.ext rfl (funext fun n => by fin_cases n <;> rfl)
    rw [hcontrol]
    exact orderly_off
  · rw [hp, control_setStates]
    refine ⟨orderly_booted, ?_, fun n => ?_⟩
    · rw [control_setStates]
      exact .nil _
    · fin_cases n <;> rfl

/-- The on/off discipline of a session. -/
structure Disciplined (s₀ s : Session) : Prop where
  /-- The commands sent, with their replies, are a run of exchanges. -/
  run : Run Exchange s₀.pruss.control s.sent s.pruss.control
  /-- The object is off exactly if neither core has a state. -/
  off_iff : s.pruss.on = false ↔ s.pruss.pru0.state = .none ∧ s.pruss.pru1.state = .none
  /-- Where a command goes to a core, the object is on. -/
  powered : ∀ before x after v, s.sent = before ++ x :: after → IsCoreCmd x.1 →
    Run Exchange s₀.pruss.control before v → Run Exchange v (x :: after) s.pruss.control →
    v.on = true
  /-- Between two starts of a core it is stopped, or the driver reloaded. -/
  alternates : ∀ n : Core, Alternates n s.sent

/-- **The on/off discipline.**  After any sequence of calls on the object that
`PRUSS::get()` constructed and on its members, whatever the daemon answered to
each command. -/
theorem discipline (realpath : Bytes → Bytes) {s₀ s : Session} {calls : List PrussCall}
    (h₀ : s₀.Constructed) (hrun : Run (CallStep realpath) s₀ calls s) : Disciplined s₀ s := by
  obtain ⟨horderly, hfollows⟩ := h₀.cases
  have hend : Follows s₀.pruss.control s.sent s.pruss := by
    refine hrun.invariant (I := fun s => Follows s₀.pruss.control s.sent s.pruss) ?_ hfollows
    rintro s c s' hs ⟨res, hx⟩
    exact (wp_iff_exec _).1 (keeps_call realpath _ c s.sent s.pruss hs) _ _ hx res s'.pruss rfl
  have hsent := orderly_of_run horderly hend.run
  refine ⟨hend.run, ?_, ?_, hsent.alternates⟩
  · constructor
    · exact fun hoff => ⟨(hsent.off_iff 0).2 hoff, (hsent.off_iff 1).2 hoff⟩
    · exact fun hnone => (hsent.off_iff 0).1 hnone.1
  · intro before x after v _ hx hbefore hafter
    obtain ⟨v', hstep, -⟩ := run_cons_iff.1 hafter
    exact hstep.on_of_coreCmd (orderly_of_run horderly hbefore) hx

/-- The object after the constructor, with core `1` in the given state. -/
def withPru1 (state : State) : PRUSS :=
  { PRUSS.fresh.setStates .stopped with on := true, pru1.state := state }

/-- A session that starts core `1`, stops it and starts it again. -/
theorem discipline_restart :
    Disciplined ⟨withPru1 .stopped, []⟩ ⟨withPru1 .running,
      [(enableCmd 1, toStr 0), (disableCmd 1, toStr 0), (enableCmd 1, toStr 0)]⟩ := by
  have hstart (sent : List Xchg) : CallStep id ⟨withPru1 .stopped, sent⟩ (.pru 1 .enable)
      ⟨withPru1 .running, sent ++ [(enableCmd 1, toStr 0)]⟩ :=
    ⟨.ok (), .call (r := toStr 0) rfl (.ret _ _)⟩
  have hstop (sent : List Xchg) : CallStep id ⟨withPru1 .running, sent⟩ (.pru 1 .disable)
      ⟨withPru1 .stopped, sent ++ [(disableCmd 1, toStr 0)]⟩ :=
    ⟨.ok (), .call (r := toStr 0) rfl (.ret _ _)⟩
  refine discipline id ⟨rfl, ?_⟩ (.cons (hstart []) (.cons (hstop _) (.cons (hstart _) (.nil _))))
  exact ⟨_, .call (r := toStr 0) rfl (.call (r := toStr 0) rfl (.call (r := toStr 0) rfl (.ret _ _)))⟩

end Client
