import PrussBindings.Client.Pru

/-!
# Loading firmware, and what the replies make of it

`PRU::load` disables the core, sends the `LOAD` and enables the core, and returns
what the `LOAD` was answered.  What the other two were answered it drops.

* `LoadReplies`, `scripted` — a daemon that answers the three commands with given
  integers, and the commands it got with its replies.
* `run_load` — what a call sends and returns, and the state it leaves.
* `AllOrNothing` — the result of the call tells whether the core runs the new
  firmware or is as it was.
* `load_allOrNothing_iff` — **the combinations of replies for which it does.**
-/

namespace Client

open Effect Errno Text

/-! ## The daemon -/

/-- What the daemon answers to the three commands of a `load`. -/
structure LoadReplies where
  disable : CInt
  load : CInt
  enable : CInt

namespace LoadReplies

variable (r : LoadReplies) (p : PRU)

/-- The reply to a command. -/
def replyTo (command : Bytes) : CInt :=
  if command = p.verb "DISABLE_" then r.disable
  else if command = p.verb "ENABLE_" then r.enable
  else r.load

/-- The daemon, and the commands it got with its replies. -/
def scripted (command : Bytes) (log : List (Bytes × Int)) : Bytes × List (Bytes × Int) :=
  (toStr (r.replyTo p command), log ++ [(command, (r.replyTo p command : Int))])

theorem replyTo_disable : r.replyTo p (p.verb "DISABLE_") = r.disable := if_pos rfl

theorem replyTo_enable : r.replyTo p (p.verb "ENABLE_") = r.enable := by
  have hne : p.verb "ENABLE_" ≠ p.verb "DISABLE_" := by
    intro h
    have htake : lit "EN" = lit "DI" := congrArg (List.take 2) h
    exact absurd htake (by decide)
  unfold replyTo
  rw [if_neg hne, if_pos rfl]

theorem replyTo_load (fullPath : Bytes) : r.replyTo p (p.loadCmd fullPath) = r.load := by
  have htake : (p.loadCmd fullPath).take 2 = lit "LO" := rfl
  unfold replyTo
  rw [if_neg, if_neg]
  · intro h
    rw [h] at htake
    exact absurd (show lit "EN" = lit "LO" from htake) (by decide)
  · intro h
    rw [h] at htake
    exact absurd (show lit "DI" = lit "LO" from htake) (by decide)

end LoadReplies

theorem stoi_toStr (n : CInt) : stoi (toStr n) = .ok (n : Int) := by
  unfold toStr
  rw [stoi_encode_showInt, if_pos n.2]

/-! ## The call -/

section Run

variable {σ τ α β : Type} {h : (command : Bytes) → τ → Bytes × τ} {s s' : σ} {t t' : τ}

/-- Running one method after another that returns. -/
theorem run_andThen {m : Method σ α} {f : α → Method σ β} {a : α}
    (hm : run h (m s) t = (.ret (.ok a, s'), t')) : run h ((m.andThen f) s) t = run h (f a s') t' := by
  unfold Method.andThen
  rw [run_bind, hm]

variable {r : LoadReplies} {p : PRU} {log : List (Bytes × Int)}

/-- A command whose reply is an integer. -/
theorem run_command (command : σ → Bytes) (s : σ) :
    run (r.scripted p) (Method.command command s) log =
      (.ret (.ok (r.replyTo p (command s) : Int), s),
        log ++ [(command s, (r.replyTo p (command s) : Int))]) := by
  show (Outcome.ret (stoi (toStr (r.replyTo p (command s))), s), _) = _
  rw [stoi_toStr]
  rfl

/-- A call of the shape of `enable` that is refused. -/
theorem run_control_refused {refused : State → Option Int} {name : String} {next : State} {q : PRU}
    {err : Int} (hrefused : refused q.state = some err) :
    run (r.scripted p) (PRU.control refused name next q) log = (.ret (.ok err, q), log) := by
  unfold PRU.control
  rw [hrefused]
  rfl

/-- A call of the shape of `enable` that sends its command. -/
theorem run_control {refused : State → Option Int} {name : String} {next : State} {q : PRU}
    (hrefused : refused q.state = none) :
    run (r.scripted p) (PRU.control refused name next q) log =
      (.ret (.ok (r.replyTo p (q.verb name) : Int),
          if (r.replyTo p (q.verb name) : Int) = 0 then { q with state := next } else q),
        log ++ [(q.verb name, (r.replyTo p (q.verb name) : Int))]) := by
  unfold PRU.control
  rw [hrefused]
  show run (r.scripted p) (Method.command (PRU.verb name) q >>= _) log = _
  rw [run_bind, run_command]
  simp only [Except.ok.injEq]
  rfl

end Run

/-! ## The three commands -/

section Commands

variable {r : LoadReplies} {p q : PRU} {log : List (Bytes × Int)}

theorem verb_congr (hq : q.number = p.number) (name : String) : q.verb name = p.verb name := by
  unfold PRU.verb
  rw [hq]

theorem run_loadCommand (fullPath : Bytes) (hq : q.number = p.number) :
    run (r.scripted p) (Method.command (PRU.loadCmd fullPath) q) log =
      (.ret (.ok (r.load : Int), q), log ++ [(p.loadCmd fullPath, (r.load : Int))]) := by
  have hcmd : PRU.loadCmd fullPath q = p.loadCmd fullPath := by
    unfold PRU.loadCmd
    rw [verb_congr hq]
  rw [run_command, hcmd, r.replyTo_load p]

theorem run_enable (hq : q.number = p.number) (hstate : q.state = .stopped) :
    run (r.scripted p) (PRU.enable q) log =
      (.ret (.ok (r.enable : Int), if (r.enable : Int) = 0 then { q with state := .running } else q),
        log ++ [(p.verb "ENABLE_", (r.enable : Int))]) := by
  unfold PRU.enable
  rw [run_control (by rw [hstate]), verb_congr hq, r.replyTo_enable p]

theorem run_enable_refused (log : List (Bytes × Int)) (hstate : q.state ≠ .stopped) :
    ∃ err, run (r.scripted p) (PRU.enable q) log = (.ret (.ok err, q), log) := by
  unfold PRU.enable
  cases hq : q.state with
  | none => exact ⟨_, run_control_refused (by rw [hq])⟩
  | stopped => exact absurd hq hstate
  | running => exact ⟨_, run_control_refused (by rw [hq])⟩
  | halted => exact ⟨_, run_control_refused (by rw [hq])⟩

theorem run_disable (log : List (Bytes × Int)) (hq : q.number = p.number)
    (hstate : q.state = .running ∨ q.state = .halted) :
    run (r.scripted p) (PRU.disable q) log =
      (.ret (.ok (r.disable : Int), if (r.disable : Int) = 0 then { q with state := .stopped } else q),
        log ++ [(p.verb "DISABLE_", (r.disable : Int))]) := by
  unfold PRU.disable
  rw [run_control (by rcases hstate with hstate | hstate <;> rw [hstate]), verb_congr hq,
    r.replyTo_disable p]

theorem run_disable_refused (log : List (Bytes × Int)) (hstate : q.state = .none ∨ q.state = .stopped) :
    ∃ err, run (r.scripted p) (PRU.disable q) log = (.ret (.ok err, q), log) := by
  unfold PRU.disable
  rcases hstate with hstate | hstate
  · exact ⟨_, run_control_refused (by rw [hstate])⟩
  · exact ⟨_, run_control_refused (by rw [hstate])⟩

end Commands

/-! ## The call -/

section Load

variable (realpath : Bytes → Bytes) (fw : Bytes) (p : PRU) (r : LoadReplies)

/-- What a `load` sends to the daemon, with the replies. -/
def LoadReplies.sent (fullPath : Bytes) : List (Bytes × Int) :=
  let load : Bytes × Int := (p.loadCmd fullPath, r.load)
  let enable : Bytes × Int := (p.verb "ENABLE_", r.enable)
  match p.state with
  | .none => [load]
  | .stopped => [load, enable]
  | .running | .halted =>
    if (r.disable : Int) = 0 then [(p.verb "DISABLE_", 0), load, enable]
    else [(p.verb "DISABLE_", r.disable), load]

/-- The state a `load` leaves behind. -/
def LoadReplies.after : State :=
  match p.state with
  | .none => .none
  | .stopped => if (r.enable : Int) = 0 then .running else .stopped
  | state =>
    if (r.disable : Int) = 0 then (if (r.enable : Int) = 0 then .running else .stopped) else state

/-- The core is stopped when the `LOAD` is sent. -/
theorem run_load_stopped {q : PRU} {log log' : List (Bytes × Int)} {err : Int}
    (hdisable : run (r.scripted p) (PRU.disable p) log = (.ret (.ok err, q), log'))
    (hq : q.number = p.number) (hstate : q.state = .stopped) :
    run (r.scripted p) (PRU.load realpath fw p) log =
      (.ret (.ok (r.load : Int), if (r.enable : Int) = 0 then { q with state := .running } else q),
        log' ++ [(p.loadCmd (realpath fw), (r.load : Int)), (p.verb "ENABLE_", (r.enable : Int))]) := by
  unfold PRU.load
  rw [run_andThen hdisable, run_andThen (run_loadCommand (realpath fw) hq),
    run_andThen (run_enable hq hstate), List.append_assoc]
  rfl

/-- The core is not stopped when the `LOAD` is sent. -/
theorem run_load_not_stopped {q : PRU} {log log' : List (Bytes × Int)} {err : Int}
    (hdisable : run (r.scripted p) (PRU.disable p) log = (.ret (.ok err, q), log'))
    (hq : q.number = p.number) (hstate : q.state ≠ .stopped) :
    run (r.scripted p) (PRU.load realpath fw p) log =
      (.ret (.ok (r.load : Int), q), log' ++ [(p.loadCmd (realpath fw), (r.load : Int))]) := by
  obtain ⟨err', henable⟩ := run_enable_refused (r := r) (p := p)
    (log' ++ [(p.loadCmd (realpath fw), (r.load : Int))]) hstate
  unfold PRU.load
  rw [run_andThen hdisable, run_andThen (run_loadCommand (realpath fw) hq), run_andThen henable]
  rfl

/-- An object is what it was if it is given the state it had. -/
theorem with_state {p : PRU} {state : State} (hstate : p.state = state) :
    { p with state := state } = p := by
  rw [← hstate]

/-- **What a `load` does**: it returns the reply to the `LOAD`, whatever the
others were. -/
theorem run_load :
    run (r.scripted p) (PRU.load realpath fw p) [] =
      (.ret (.ok (r.load : Int), { p with state := r.after p }), r.sent p (realpath fw)) := by
  have hbusy (hstate : p.state = .running ∨ p.state = .halted) :
      run (r.scripted p) (PRU.load realpath fw p) [] =
        (.ret (.ok (r.load : Int), { p with state := r.after p }), r.sent p (realpath fw)) := by
    have hdisable := run_disable (r := r) (p := p) [] rfl hstate
    by_cases hd : (r.disable : Int) = 0
    · rw [if_pos hd, hd] at hdisable
      rw [run_load_stopped realpath fw p r hdisable rfl rfl]
      rcases hstate with hstate | hstate <;>
        by_cases he : (r.enable : Int) = 0 <;>
        simp [LoadReplies.after, LoadReplies.sent, hstate, hd, he]
    · rw [if_neg hd] at hdisable
      rcases hstate with hstate | hstate <;>
        rw [run_load_not_stopped realpath fw p r hdisable rfl (by rw [hstate]; simp)] <;>
        simp [LoadReplies.after, LoadReplies.sent, hstate, hd, with_state hstate]
  cases hstate : p.state with
  | none =>
    obtain ⟨err, hdisable⟩ := run_disable_refused (r := r) (p := p) [] (.inl hstate)
    rw [run_load_not_stopped realpath fw p r hdisable rfl (by rw [hstate]; simp)]
    simp [LoadReplies.after, LoadReplies.sent, hstate, with_state hstate]
  | stopped =>
    obtain ⟨err, hdisable⟩ := run_disable_refused (r := r) (p := p) [] (.inr hstate)
    rw [run_load_stopped realpath fw p r hdisable rfl hstate]
    by_cases he : (r.enable : Int) = 0 <;>
      simp [LoadReplies.after, LoadReplies.sent, hstate, he, with_state hstate]
  | running => exact hbusy (.inl hstate)
  | halted => exact hbusy (.inr hstate)

/-! ## What the result tells -/

/-- A `load` that returns `0` was answered `0` to the `LOAD` and to the `ENABLE`
after it, and the core is running; one that returns anything else leaves the
state as it was, and started no core that was stopped. -/
structure AllOrNothing (result : Except StoiError Int) (p' : PRU) (log : List (Bytes × Int)) :
    Prop where
  done : result = .ok 0 → p'.state = .running ∧
    [(p.loadCmd (realpath fw), 0), (p.verb "ENABLE_", 0)] <:+ log
  undone : ∀ ret, result = .ok ret → ret ≠ 0 → p'.state = p.state ∧
    (p.state = .stopped → ∀ reply, (p.verb "ENABLE_", reply) ∈ log → reply ≠ 0)

/-- The replies that fit together: on a stopped core, `LOAD` and `ENABLE` succeed
together or fail together; on another, either it is stopped and started again, or
it is not stopped and the `LOAD` fails, and one that was halted must not be
started by a call that fails. -/
def LoadReplies.Consistent : State → Prop
  | .none => (r.load : Int) ≠ 0
  | .stopped => (r.load : Int) = 0 ↔ (r.enable : Int) = 0
  | .running => (r.disable : Int) = 0 ∧ (r.enable : Int) = 0 ∨
      (r.disable : Int) ≠ 0 ∧ (r.load : Int) ≠ 0
  | .halted => (r.disable : Int) = 0 ∧ (r.load : Int) = 0 ∧ (r.enable : Int) = 0 ∨
      (r.disable : Int) ≠ 0 ∧ (r.load : Int) ≠ 0

theorem allOrNothing_ok_iff {ret : Int} {p' : PRU} {log : List (Bytes × Int)} :
    AllOrNothing realpath fw p (.ok ret) p' log ↔
      (ret = 0 → p'.state = .running ∧
        [(p.loadCmd (realpath fw), 0), (p.verb "ENABLE_", 0)] <:+ log) ∧
      (ret ≠ 0 → p'.state = p.state ∧
        (p.state = .stopped → ∀ reply, (p.verb "ENABLE_", reply) ∈ log → reply ≠ 0)) := by
  constructor
  · rintro ⟨hdone, hundone⟩
    exact ⟨fun hret => hdone (by rw [hret]), fun hret => hundone ret rfl hret⟩
  · rintro ⟨hdone, hundone⟩
    refine ⟨fun hret => hdone (Except.ok.inj hret), fun ret' hret hne => ?_⟩
    cases hret
    exact hundone hne

/-- **When `load` is all or nothing.**  For every core, path and combination of
replies the call returns, and what it returns tells what has become of the core
exactly if the replies fit together. -/
theorem load_allOrNothing_iff :
    ∃ result p' log, run (r.scripted p) (PRU.load realpath fw p) [] = (.ret (result, p'), log) ∧
      (AllOrNothing realpath fw p result p' log ↔ r.Consistent p.state) := by
  have hverb : p.verb "ENABLE_" ≠ p.loadCmd (realpath fw) := by
    intro h
    have htake : lit "EN" = lit "LO" := congrArg (List.take 2) h
    exact absurd htake (by decide)
  have hverb' : p.loadCmd (realpath fw) ≠ p.verb "DISABLE_" := by
    intro h
    have htake : lit "LO" = lit "DI" := congrArg (List.take 2) h
    exact absurd htake (by decide)
  refine ⟨_, _, _, run_load realpath fw p r, ?_⟩
  rw [allOrNothing_ok_iff]
  cases hstate : p.state with
  | none => simp [LoadReplies.after, LoadReplies.Consistent, hstate]
  | stopped =>
    by_cases hl : (r.load : Int) = 0 <;> by_cases he : (r.enable : Int) = 0 <;>
      simp [LoadReplies.after, LoadReplies.sent, LoadReplies.Consistent, hstate, hl, he, hverb]
  | running =>
    by_cases hd : (r.disable : Int) = 0 <;> by_cases hl : (r.load : Int) = 0 <;>
      by_cases he : (r.enable : Int) = 0 <;>
      simp [LoadReplies.after, LoadReplies.sent, LoadReplies.Consistent, hstate, hd, hl, he,
        List.suffix_iff_eq_drop, hverb']
  | halted =>
    by_cases hd : (r.disable : Int) = 0 <;> by_cases hl : (r.load : Int) = 0 <;>
      by_cases he : (r.enable : Int) = 0 <;>
      simp [LoadReplies.after, LoadReplies.sent, LoadReplies.Consistent, hstate, hd, hl, he,
        List.suffix_iff_eq_drop, hverb']

end Load

/-- A stopped core whose `LOAD` is answered `0` and whose `ENABLE` fails: the call
returns `0`, and the core is stopped. -/
theorem load_returns_zero_without_running :
    ∃ p' log, run (LoadReplies.scripted ⟨⟨0, by decide⟩, ⟨0, by decide⟩, ⟨-EINVAL, by decide⟩⟩
        ⟨0, ⟨0, by decide⟩, lit "pruss_api_pru", .stopped⟩)
        (PRU.load id (lit "/tmp/fw") ⟨0, ⟨0, by decide⟩, lit "pruss_api_pru", .stopped⟩) [] =
          (.ret (.ok 0, p'), log) ∧
      ¬ AllOrNothing id (lit "/tmp/fw") ⟨0, ⟨0, by decide⟩, lit "pruss_api_pru", .stopped⟩ (.ok 0)
        p' log := by
  refine ⟨_, _, run_load _ _ _ _, fun hall => ?_⟩
  exact absurd (hall.done rfl).1 (by decide)

end Client
