import PrussBindings.Client.Pru

/-!
# The C++ client: the PRU subsystem

`class PRUSS` of `cpp-bindings/pruss.cpp`: the two cores and the driver module
under them.

* `PRUSS`, `PRUSS.onCore` — the object, and a call on one of its members.
* `PRUSS.bootUp`, `PRUSS.shutDown`, `PRUSS.restart` — the driver module.
* `PRUSS.construct`, `PRUSS.destroy` — the constructor and the destructor.
* `PRUSS.keeps_onCore`, `PRUSS.keeps_bootUp`, `PRUSS.keeps_shutDown` — what has
  to be checked for a call to keep a relation.
-/

namespace Client

open Effect Errno Text

/-- The number of a core. -/
abbrev Core := Fin 2

/-- The data members of `class PRUSS`. -/
structure PRUSS where
  on : Bool
  pru0 : PRU
  pru1 : PRU
  deriving DecidableEq, Repr

namespace PRUSS

/-- One of the members `pru0` and `pru1`. -/
def pru (p : PRUSS) : Core → PRU
  | 0 => p.pru0
  | 1 => p.pru1

/-- Assigns one of the members. -/
def setPru (p : PRUSS) (n : Core) (q : PRU) : PRUSS :=
  match n with
  | 0 => { p with pru0 := q }
  | 1 => { p with pru1 := q }

/-- `p.pruN.m()`. -/
def onCore {α : Type} (n : Core) (m : Method PRU α) : Method PRUSS α := fun p => do
  let (ret, q) ← m (p.pru n)
  return (ret, p.setPru n q)

/-- Assigns the states of both members. -/
def setStates (p : PRUSS) (state : State) : PRUSS :=
  { p with pru0.state := state, pru1.state := state }

/-- `PRUSS::bootUp`. -/
def bootUp : Method PRUSS Int := fun p =>
  if p.on then .ret (.ok (-EALREADY), p)
  else do
    let (ret, p) ← Method.command (fun _ => lit "PROBE_RPROC") p
    return (ret, if ret = .ok 0 then { p.setStates .stopped with on := true } else p)

/-- `PRUSS::shutDown`. -/
def shutDown : Method PRUSS Int := fun p =>
  if !p.on then .ret (.ok (-EALREADY), p)
  else
    ((onCore 0 PRU.disable).andThen fun _ => (onCore 1 PRU.disable).andThen fun _ p => do
      let (ret, p) ← Method.command (fun _ => lit "UNPROBE_RPROC") p
      return (ret, if ret = .ok 0 then { p.setStates .none with on := false } else p)) p

/-- `PRUSS::restart`. -/
def restart : Method PRUSS Unit :=
  shutDown.andThen fun _ => bootUp.andThen fun _ => Method.return ()

/-- `PRUSS::PRUSS`: both cores are stopped by their commands, whatever the
replies, and the driver module is loaded. -/
def construct : Cpp (Except StoiError Unit × PRUSS) := do
  let (_, pru0) ← PRU.construct 0
  let (_, pru1) ← PRU.construct 1
  let _ ← sendcmd (lit "DISABLE_0")
  let _ ← sendcmd (lit "DISABLE_1")
  bootUp.andThen (fun _ => Method.return ()) ⟨false, pru0, pru1⟩

/-- The object before the constructor sends anything. -/
def fresh : PRUSS where
  on := false
  pru0 := PRU.fresh 0
  pru1 := PRU.fresh 1

theorem construct_eq :
    construct = .call (lit "DISABLE_0") fun _ => .call (lit "DISABLE_1") fun _ =>
      bootUp.andThen (fun _ => Method.return ()) fresh := rfl

/-- `PRUSS::~PRUSS`. -/
def destroy : Method PRUSS Unit := fun p =>
  if p.on then shutDown.andThen (fun _ => Method.return ()) p else .ret (.ok (), p)

section Members

variable (p : PRUSS) (n m : Core) (q : PRU)

@[simp] theorem setPru_on : (p.setPru n q).on = p.on := by
  fin_cases n <;> rfl

@[simp] theorem pru_setPru : (p.setPru n q).pru n = q := by
  fin_cases n <;> rfl

theorem pru_setPru_ne {n m : Core} (h : m ≠ n) : (p.setPru n q).pru m = p.pru m := by
  fin_cases n <;> fin_cases m <;> first | rfl | exact absurd rfl h

@[simp] theorem pru_setStates (state : State) :
    (p.setStates state).pru n = { p.pru n with state := state } := by
  fin_cases n <;> rfl

@[simp] theorem setPru_pru : p.setPru n (p.pru n) = p := by
  fin_cases n <;> rfl

end Members

/-! ## What the calls keep -/

section Keeps

variable {τ α : Type} {E : Env (fun _ : Bytes => Bytes) τ} {I : τ → PRUSS → Prop}

theorem keeps_onCore {n : Core} {m : Method PRU α}
    (h : ∀ p : PRUSS, Keeps E (fun t q => I t (p.setPru n q)) m) : Keeps E I (onCore n m) := by
  intro t p hI
  unfold onCore
  rw [wp_bind]
  apply wp_mono _ (h p t (p.pru n) (by rwa [setPru_pru]))
  intro out t' hout
  cases out with
  | ret r =>
    intro res p' heq
    cases heq
    exact hout _ _ rfl
  | raise e => exact e.elim
  | spin => exact fun _ _ heq => by cases heq

/-- What `bootUp` does on an object that is off. -/
theorem wp_bootUp {t : τ} {p : PRUSS} {Q : Outcome Empty (Except StoiError Int × PRUSS) → τ → Prop}
    (hon : p.on = false)
    (h : ∀ reply t', E (lit "PROBE_RPROC") t reply t' →
      Q (.ret (stoi reply,
        if stoi reply = .ok 0 then { p.setStates .stopped with on := true } else p)) t') :
    wp E (bootUp p) Q t := by
  unfold bootUp
  rw [hon]
  exact h

theorem keeps_bootUp
    (h : ∀ t p reply t', I t p → p.on = false → E (lit "PROBE_RPROC") t reply t' →
      I t' (if stoi reply = .ok 0 then { p.setStates .stopped with on := true } else p)) :
    Keeps E I bootUp := by
  intro t p hI
  unfold bootUp
  cases hon : p.on with
  | true =>
    intro res p' hout
    cases hout
    exact hI
  | false =>
    intro reply t' hstep res p' hout
    cases hout
    exact h t p reply t' hI hon hstep

theorem keeps_shutDown
    (hdisable : ∀ n, Keeps E I (onCore n PRU.disable))
    (h : ∀ t p reply t', I t p → E (lit "UNPROBE_RPROC") t reply t' →
      I t' (if stoi reply = .ok 0 then { p.setStates .none with on := false } else p)) :
    Keeps E I shutDown := by
  have hunprobe : Keeps E I (fun p => do
      let (ret, p) ← Method.command (fun _ => lit "UNPROBE_RPROC") p
      return (ret, if ret = .ok 0 then { p.setStates .none with on := false } else p)) := by
    intro t p hI reply t' hstep res p' hout
    cases hout
    exact h t p reply t' hI hstep
  intro t p hI
  unfold shutDown
  cases hon : p.on with
  | true => exact (hdisable 0).andThen (fun _ => (hdisable 1).andThen fun _ => hunprobe) t p hI
  | false =>
    intro res p' hout
    cases hout
    exact hI

end Keeps

end PRUSS

end Client
