import PrussBindings.System.Socket

/-!
# The cached state and the cores

The client keeps a state for each core and a flag for the driver, and updates
them from the replies.  This file runs the client against the daemon against a
kernel, and asks when the cached state is the real one.

* `Kernel`, `kernelEnv` — the driver and the cores: what a write to `state` or
  `single_step` and a `modprobe` do, and that any of them may fail.
* `Call`, `CallStep` — a call of the program on its `PRUSS` object.
* `Agrees` — the cached state is the real one.
* `Clean` — the answers of the kernel that the client's bookkeeping allows for.
* `agrees_of_run` — **as long as the kernel's answers are clean, the cached
  state is the real one after every call**.
* `pause_stopped_disagrees` — a `pause` of a stopped core is one that is not.
-/

namespace System

open Effect Errno Text Client Daemon Transition

/-! ## The kernel -/

/-- The driver and the cores. -/
structure Kernel where
  loaded : Bool
  started : Core → Bool
  single : Core → Bool

/-- `/sys/class/remoteproc/remoteprocN/state`. -/
def statePath (n : Core) : Str := rprocSysfs "state".toList n

/-- `/sys/kernel/debug/remoteproc/remoteprocN/single_step`. -/
def singleStepPath (n : Core) : Str := rprocDebugfs "single_step".toList n

/-- What a write that succeeds does.  The attributes are there while the driver
is loaded, and `single_step` can be written whether the core is started or not.
Starting or stopping a core may end single-stepping. -/
inductive KernelWrite (k : Kernel) (path : Str) (data : Bytes) : Kernel → Prop where
  | start (n : Core) (single : Bool) : path = statePath n → data = encode "start".toList →
    k.loaded = true → (single = true → k.single n = true) →
    KernelWrite k path data { k with
      started := Function.update k.started n true, single := Function.update k.single n single }
  | stop (n : Core) (single : Bool) : path = statePath n → data = encode "stop".toList →
    k.loaded = true → (single = true → k.single n = true) →
    KernelWrite k path data { k with
      started := Function.update k.started n false, single := Function.update k.single n single }
  | singleStep (n : Core) (on : Bool) : path = singleStepPath n →
    data = encode (showInt (if on then 1 else 0)) → k.loaded = true →
    KernelWrite k path data { k with single := Function.update k.single n on }
  | other : (∀ n, path ≠ statePath n) → (∀ n, path ≠ singleStepPath n) →
    KernelWrite k path data k

/-- The command line of a probe. -/
def probeArgv : List Str := [modprobePath, "pru_rproc".toList]

/-- The command line that removes the driver. -/
def unprobeArgv : List Str := [modprobePath, "-r".toList, "pru_rproc".toList]

/-- What a `modprobe` that exits with status `0` does.  A driver that is loaded
already is left alone, and unloading may stop the cores. -/
inductive KernelModprobe (k : Kernel) : List Str → Kernel → Prop where
  | probe : KernelModprobe k probeArgv { k with loaded := true }
  | unprobe (started single : Core → Bool) : (∀ n, started n = true → k.started n = true) →
    KernelModprobe k unprobeArgv { loaded := false, started := started, single := single }

/-- The system as the kernel sees it.  A call that fails leaves the kernel as it
is, and its error is not zero; a `modprobe` fails with an exit status.  A write that
was refused may be carried out when Python makes it again. -/
def kernelEnv : Env OsRes Kernel
  | .write path data, k, .ok _, k' => KernelWrite k path data k'
  | .write _ _, k, .error e, k' => Nonzero e ∧ k' = k
  | .writeAgain path data, k, .ok _, k' => KernelWrite k path data k'
  | .writeAgain _ _, k, .error e, k' => Nonzero e ∧ k' = k
  | .openFile _ _, k, r, k' => (∀ e, r = .error e → Nonzero e) ∧ k' = k
  | .popenWait argv, k, .ok status, k' =>
    if status = 0 then KernelModprobe k argv k' else k' = k
  | .popenWait _, k, .error e, k' => Nonzero e ∧ k' = k
  | _, k, _, k' => k' = k

/-- Nothing that the cached state speaks of changes: a core that is not started may
be made to single-step. -/
structure Unchanged (k k' : Kernel) : Prop where
  loaded : k'.loaded = k.loaded
  started : ∀ n, k'.started n = k.started n
  single : ∀ n, k.started n = true → k'.single n = k.single n

/-- The answers the client's bookkeeping allows for: a `modprobe` that ran did
what it was run for, and no core was started while the driver was not; one that
could not be run left a driver unloaded that was to be loaded; a core that is
started is not left single-stepping; only a core that is started is made
to single-step; and what was refused does not happen when it is written again. -/
def Clean : (o : OsOp) → Kernel → OsRes o → Kernel → Prop
  | .popenWait argv, _, .ok _, k' =>
    (argv = probeArgv → k'.loaded = true ∧ ∀ n, k'.started n = false) ∧
      (argv = unprobeArgv → k'.loaded = false)
  | .popenWait argv, k, .error _, _ => argv = probeArgv → k.loaded = false
  | .write path data, k, .ok _, k' => ∀ n,
    (path = statePath n → data = encode "start".toList → k'.single n = false) ∧
      (path = singleStepPath n → data = encode (showInt 1) → k.started n = true)
  | .writeAgain _ _, k, .ok _, k' => Unchanged k k'
  | _, _, _, _ => True

/-- The kernel as long as its answers are clean. -/
def cleanEnv : Env OsRes Kernel := fun o k r k' => kernelEnv o k r k' ∧ Clean o k r k'

/-! ## What the commands do to the kernel -/

theorem statePath_inj {n m : Core} (h : statePath n = statePath m) : n = m := by
  revert h
  revert n m
  decide

theorem singleStepPath_inj {n m : Core} (h : singleStepPath n = singleStepPath m) : n = m := by
  revert h
  revert n m
  decide

theorem statePath_ne_singleStepPath (n m : Core) : statePath n ≠ singleStepPath m := by
  revert n m
  decide

/-- Nothing but one core changes. -/
structure OnlyCore (n : Core) (k k' : Kernel) : Prop where
  loaded : k'.loaded = k.loaded
  started : ∀ m, m ≠ n → k'.started m = k.started m
  single : ∀ m, m ≠ n → k'.single m = k.single m

theorem KernelWrite.of_start {k k' : Kernel} {n : Core}
    (h : KernelWrite k (statePath n) (encode "start".toList) k') :
    OnlyCore n k k' ∧ k'.started n = true := by
  cases h with
  | start m single hpath =>
    obtain rfl := statePath_inj hpath
    exact ⟨⟨rfl, fun _ h => Function.update_of_ne h .., fun _ h => Function.update_of_ne h ..⟩,
      Function.update_self ..⟩
  | stop m single hpath hdata => exact absurd hdata (by decide)
  | singleStep m on hpath => exact absurd hpath (statePath_ne_singleStepPath n m)
  | other hstate => exact absurd rfl (hstate n)

theorem KernelWrite.of_stop {k k' : Kernel} {n : Core}
    (h : KernelWrite k (statePath n) (encode "stop".toList) k') :
    OnlyCore n k k' ∧ k'.started n = false := by
  cases h with
  | start m single hpath hdata => exact absurd hdata (by decide)
  | stop m single hpath =>
    obtain rfl := statePath_inj hpath
    exact ⟨⟨rfl, fun _ h => Function.update_of_ne h .., fun _ h => Function.update_of_ne h ..⟩,
      Function.update_self ..⟩
  | singleStep m on hpath => exact absurd hpath (statePath_ne_singleStepPath n m)
  | other hstate => exact absurd rfl (hstate n)

theorem KernelWrite.of_singleStep {k k' : Kernel} {n : Core} (on : Bool)
    (h : KernelWrite k (singleStepPath n) (encode (showInt (if on then 1 else 0))) k') :
    OnlyCore n k k' ∧ k'.started n = k.started n ∧ k'.single n = on := by
  cases h with
  | start m single hpath => exact absurd hpath.symm (statePath_ne_singleStepPath m n)
  | stop m single hpath => exact absurd hpath.symm (statePath_ne_singleStepPath m n)
  | singleStep m on' hpath hdata =>
    obtain rfl := singleStepPath_inj hpath
    have hon : on = on' := by
      have hval := showInt_inj.1 (encode_injective hdata)
      cases on <;> cases on' <;> simp_all
    subst hon
    exact ⟨⟨rfl, fun _ _ => rfl, fun _ h => Function.update_of_ne h ..⟩, rfl,
      Function.update_self ..⟩
  | other _ hsingle => exact absurd rfl (hsingle n)

/-! ## The handlers -/

section Handlers

variable {done failed : Kernel → Prop} {k : Kernel}

theorem Unchanged.refl (k : Kernel) : Unchanged k k := ⟨rfl, fun _ => rfl, fun _ _ => rfl⟩

/-- How the write of a text ends: either it is done, or an exception is raised and
nothing changes that the cached state speaks of. -/
inductive Written (path : Str) (data : Bytes) (k : Kernel) :
    Outcome PyExc Unit → Kernel → Prop where
  | done {k' : Kernel} : KernelWrite k path data k' → Clean (.write path data) k (.ok ()) k' →
    Written path data k (.ret ()) k'
  | refused {e : PyExc} {k' : Kernel} : Nonzero e → Unchanged k k' →
    Written path data k (.raise e) k'

/-- **What a text does to the kernel**, in one attempt or in two. -/
theorem wp_writeText {path : Str} {data : Bytes} (hdata : data ≠ []) :
    wp cleanEnv (writeText path data) (Written path data k) k := by
  unfold writeText
  rw [if_neg hdata]
  rintro r k' ⟨hwrite, hclean⟩
  cases r with
  | ok u => exact .done hwrite hclean
  | error e =>
    obtain ⟨he, rfl⟩ := hwrite
    by_cases hfits : data.length ≤ blockSize
    · simp only [if_pos hfits]
      rintro r k' ⟨hagain, hunchanged⟩
      cases r with
      | ok u => exact .refused he hunchanged
      | error e' =>
        obtain ⟨he', rfl⟩ := hagain
        exact .refused he' (.refl _)
    · simp only [if_neg hfits]
      exact .refused he (.refl _)

theorem wp_exceptOSError {e : PyExc} (he : Nonzero e) (hk : failed k) :
    wp cleanEnv (exceptOSError e) (Answered done failed) k := by
  cases e with
  | osError errno =>
    cases errno with
    | none => exact .exc _ hk
    | some j => exact .number (neg_ne_zero.2 he) hk
  | _ => exact .exc _ hk

/-- A write to an attribute is done and answered `0`, or nothing happens that the
cached state speaks of. -/
theorem wp_sysfsWrite {path val : Str} (hval : encode val ≠ [])
    (hdone : ∀ k', KernelWrite k path (encode val) k' →
      Clean (.write path (encode val)) k (.ok ()) k' → done k') :
    wp cleanEnv (sysfsWrite path val) (Answered done (Unchanged k)) k := by
  rintro b k ⟨rfl, -⟩
  cases b with
  | false => exact .number (by decide) (.refl _)
  | true =>
    rintro r k ⟨⟨hr, rfl⟩, -⟩
    cases r with
    | error e => exact wp_exceptOSError (hr e rfl) (.refl _)
    | ok u =>
      show wp cleanEnv ((((((writeText path (encode val)).tryCatch fun e => do
        close path; .raise e) >>= fun a => do close path; return a) >>= fun _ =>
          .ret (.int 0)).tryCatch exceptOSError)) _ _
      rw [wp_tryCatch, wp_bind, wp_bind, wp_tryCatch]
      refine wp_mono (fun out k' hout => ?_) (wp_writeText hval)
      cases hout with
      | done hwrite hclean =>
        rintro u k ⟨rfl, -⟩
        exact .zero (hdone _ hwrite hclean)
      | refused he hunchanged =>
        rintro u k ⟨rfl, -⟩
        exact wp_exceptOSError he hunchanged

/-- A `modprobe` is answered `0` if it could be run. -/
theorem wp_modProbe {probe : Bool}
    (hdone : ∀ status k', cleanEnv (.popenWait (if probe then probeArgv else unprobeArgv)) k
      (.ok status) k' → done k')
    (hfailed : ∀ e k', cleanEnv (.popenWait (if probe then probeArgv else unprobeArgv)) k
      (.error e) k' → failed k') :
    wp cleanEnv (modProbe "pru_rproc".toList probe) (Answered done failed) k := by
  intro r k' hr
  cases r with
  | error e => exact wp_exceptOSError hr.1.1 (hfailed e k' hr)
  | ok status => exact .zero (hdone status k' hr)

end Handlers

/-! ## The cached state -/

/-- The state the client keeps for a core, and the core. -/
def CoreAgrees (state : State) (started single : Bool) : Prop :=
  match state with
  | .none => True
  | .stopped => started = false
  | .running => started = true ∧ single = false
  | .halted => started = true ∧ single = true

/-- The cached state is the real one. -/
structure Agrees (k : Kernel) (p : PRUSS) : Prop where
  on : p.on = true ↔ k.loaded = true
  cores : ∀ n, CoreAgrees (p.pru n).state (k.started n) (k.single n)

/-- The cached state is the real one, and the members are in their places. -/
structure Inv (k : Kernel) (p : PRUSS) : Prop extends Agrees k p where
  number : ∀ n, (p.pru n).number = n

/-- What is unchanged is still right. -/
theorem Inv.of_unchanged {k k' : Kernel} {p : PRUSS} (h : Inv k p) (hk : Unchanged k k') :
    Inv k' p := by
  refine ⟨⟨by rw [hk.loaded]; exact h.on, fun n => ?_⟩, h.number⟩
  have hcore := h.cores n
  unfold CoreAgrees at hcore ⊢
  rw [hk.started n]
  cases hstate : (p.pru n).state with
  | none => trivial
  | stopped =>
    rw [hstate] at hcore
    exact hcore
  | running =>
    rw [hstate] at hcore
    exact ⟨hcore.1, (hk.single n hcore.1).trans hcore.2⟩
  | halted =>
    rw [hstate] at hcore
    exact ⟨hcore.1, (hk.single n hcore.1).trans hcore.2⟩

/-- What has to be checked after a command to one core. -/
theorem Inv.setPru {k k' : Kernel} {p : PRUSS} {n : Core} {q q' : PRU}
    (h : Inv k (p.setPru n q)) (hk : OnlyCore n k k') (hnumber : q'.number = q.number)
    (hcore : CoreAgrees q'.state (k'.started n) (k'.single n)) : Inv k' (p.setPru n q') := by
  refine ⟨⟨?_, fun m => ?_⟩, fun m => ?_⟩
  · have hon := h.on
    rw [PRUSS.setPru_on] at hon ⊢
    rw [hk.loaded]
    exact hon
  · by_cases hm : m = n
    · subst hm
      rw [PRUSS.pru_setPru]
      exact hcore
    · have hcores := h.cores m
      rw [PRUSS.pru_setPru_ne _ _ hm] at hcores ⊢
      rw [hk.started m hm, hk.single m hm]
      exact hcores
  · have hnum := h.number m
    by_cases hm : m = n
    · subst hm
      rw [PRUSS.pru_setPru] at hnum ⊢
      rw [hnumber, hnum]
    · rw [PRUSS.pru_setPru_ne _ _ hm] at hnum ⊢
      exact hnum

section Calls

variable {setup : Setup}

/-- The environment of the client. -/
abbrev clientEnv (setup : Setup) : Env (fun _ : Bytes => Bytes) Kernel := socketEnv setup cleanEnv

/-- **The rule for the commands of a core**: the command is a write to an
attribute, and a write that succeeds makes the next state the real one. -/
theorem keeps_coreCommand {refused : State → Option Int} {name : String} {next : State} (n : Core)
    (path val : Str) (p : PRUSS) (hval : encode val ≠ [])
    (htoken : IsToken (name.toList ++ showInt n))
    (hserve : serve setup [name.toList ++ showInt n] = sysfsWrite path val)
    (heffect : ∀ k k' q, Inv k (p.setPru n q) → refused q.state = none →
      KernelWrite k path (encode val) k' → Clean (.write path (encode val)) k (.ok ()) k' →
      OnlyCore n k k' ∧ CoreAgrees next (k'.started n) (k'.single n)) :
    Keeps (clientEnv setup) (fun k q => Inv k (p.setPru n q)) (PRU.control refused name next) := by
  refine PRU.keeps_control fun k q reply k' hinv hrefused hstep => ?_
  have hnumber : q.number = n := by
    have h := hinv.number n
    rwa [PRUSS.pru_setPru] at h
  rw [PRU.verb_eq, hnumber] at hstep
  have hwp : wp cleanEnv (serve setup [name.toList ++ showInt n])
      (Answered (fun k' => OnlyCore n k k' ∧ CoreAgrees next (k'.started n) (k'.single n))
        (Unchanged k)) k := by
    rw [hserve]
    exact wp_sysfsWrite hval fun k' hwrite hclean => heffect k k' q hinv hrefused hwrite hclean
  obtain ⟨hzero, honly, hcore⟩ | ⟨hzero, hunchanged⟩ := socketEnv_answered htoken hwp hstep
  · rw [if_pos hzero]
    exact hinv.setPru honly rfl hcore
  · rw [if_neg hzero]
    exact hinv.of_unchanged hunchanged

theorem keeps_enable (n : Core) (p : PRUSS) :
    Keeps (clientEnv setup) (fun k q => Inv k (p.setPru n q)) PRU.enable := by
  refine keeps_coreCommand n (statePath n) "start".toList p (by decide) ?_ ?_ ?_
  · revert n
    decide
  · match n with
    | 0 => rfl
    | 1 => rfl
  · intro k k' q hinv hrefused hwrite hclean
    obtain ⟨honly, hstarted⟩ := hwrite.of_start
    exact ⟨honly, hstarted, (hclean n).1 rfl rfl⟩

theorem keeps_disable (n : Core) (p : PRUSS) :
    Keeps (clientEnv setup) (fun k q => Inv k (p.setPru n q)) PRU.disable := by
  refine keeps_coreCommand n (statePath n) "stop".toList p (by decide) ?_ ?_ ?_
  · revert n
    decide
  · match n with
    | 0 => rfl
    | 1 => rfl
  · intro k k' q hinv hrefused hwrite hclean
    exact hwrite.of_stop

/-- Pausing a core that is started; that a stopped one is not refused is what
`Clean` has to make up for. -/
theorem keeps_pause (n : Core) (p : PRUSS) :
    Keeps (clientEnv setup) (fun k q => Inv k (p.setPru n q)) PRU.pause := by
  refine keeps_coreCommand n (singleStepPath n) (showInt 1) p (by decide) ?_ ?_ ?_
  · revert n
    decide
  · match n with
    | 0 => rfl
    | 1 => rfl
  · intro k k' q hinv hrefused hwrite hclean
    obtain ⟨honly, hstarted, hsingle⟩ := KernelWrite.of_singleStep true hwrite
    exact ⟨honly, hstarted.trans ((hclean n).2 rfl rfl), hsingle⟩

theorem keeps_resume (n : Core) (p : PRUSS) :
    Keeps (clientEnv setup) (fun k q => Inv k (p.setPru n q)) PRU.resume := by
  refine keeps_coreCommand n (singleStepPath n) (showInt 0) p (by decide) ?_ ?_ ?_
  · revert n
    decide
  · match n with
    | 0 => rfl
    | 1 => rfl
  · intro k k' q hinv hrefused hwrite hclean
    obtain ⟨honly, hstarted, hsingle⟩ := KernelWrite.of_singleStep false hwrite
    -- a core that is not refused is halted, hence started
    have hcore := hinv.cores n
    rw [PRUSS.pru_setPru] at hcore
    cases hstate : q.state with
    | none => rw [hstate] at hrefused; cases hrefused
    | stopped => rw [hstate] at hrefused; cases hrefused
    | running => rw [hstate] at hrefused; cases hrefused
    | halted =>
      rw [hstate] at hcore
      exact ⟨honly, hstarted.trans hcore.1, hsingle⟩

/-! A `LOAD` neither writes the attributes of the kernel nor runs `modprobe`. -/

/-- A call that does not change the kernel. -/
def Quiet : OsOp → Prop
  | .write path _ | .writeAgain path _ => ∀ n, path ≠ statePath n ∧ path ≠ singleStepPath n
  | .popenWait _ => False
  | _ => True

theorem kernelWrite_quiet {path : Str} {data : Bytes} {k k' : Kernel}
    (hpath : ∀ n, path ≠ statePath n ∧ path ≠ singleStepPath n) (h : KernelWrite k path data k') :
    k' = k := by
  cases h with
  | start n _ hstate => exact absurd hstate (hpath n).1
  | stop n _ hstate => exact absurd hstate (hpath n).1
  | singleStep n _ hsingle => exact absurd hsingle (hpath n).2
  | other => rfl

theorem quiet_step {o : OsOp} {k k' : Kernel} {r : OsRes o} (ho : Quiet o)
    (h : cleanEnv o k r k') : k' = k := by
  have hk := h.1
  cases o with
  | write path data =>
    cases r with
    | error e => exact hk.2
    | ok u => exact kernelWrite_quiet ho hk
  | writeAgain path data =>
    cases r with
    | error e => exact hk.2
    | ok u => exact kernelWrite_quiet ho hk
  | popenWait argv => exact ho.elim
  | openFile path mode => exact hk.2
  | _ => exact hk

theorem clean_of_quiet {o : OsOp} {k : Kernel} {r : OsRes o} (ho : Quiet o) : Clean o k r k := by
  cases o with
  | write path data =>
    cases r with
    | error e => trivial
    | ok u =>
      exact fun n => ⟨fun hpath => absurd hpath (ho n).1, fun hpath => absurd hpath (ho n).2⟩
  | writeAgain path data =>
    cases r with
    | error e => trivial
    | ok u => exact .refl k
  | popenWait argv => exact ho.elim
  | _ => trivial

theorem uses_loadFirmware (n : Core) (cmd : List Str) : Uses Quiet (loadFirmware n cmd) := by
  have hwrite (name : Str) :
      Uses Quiet (sysfsWrite (rprocSysfs "firmware".toList n) name) := by
    have hpath (m : Core) : rprocSysfs "firmware".toList n ≠ statePath m ∧
        rprocSysfs "firmware".toList n ≠ singleStepPath m := by
      revert n m
      decide
    exact uses_sysfsWrite trivial trivial hpath hpath trivial
  unfold loadFirmware
  by_cases hlen : cmd.length > 2
  · rw [if_pos hlen]
    trivial
  · rw [if_neg hlen]
    cases index cmd 1 with
    | error e => trivial
    | ok source =>
      refine ⟨trivial, fun b => ?_⟩
      cases b with
      | false => trivial
      | true =>
        refine uses_catchOSError ?_
        by_cases hsame : source ≠ fwPath source
        · simp only [if_pos hsame]
          exact uses_bind ⟨trivial, uses_check⟩ fun _ => hwrite _
        · simp only [if_neg hsame]
          exact hwrite _

/-- The first word of the command line of `PRU::load`. -/
theorem loadName_eq (n : Core) : "LOAD_".toList ++ showInt n = loadName n := by
  revert n
  decide

theorem isToken_loadName (n : Core) : IsToken (loadName n) := by
  revert n
  decide

theorem load_quiet {n : Core} {q : PRU} {path reply : Bytes} {k k' : Kernel}
    (hnumber : q.number = n) (hstep : clientEnv setup (q.loadCmd path) k reply k') : k' = k := by
  obtain ⟨out, hx, -⟩ := hstep
  have hline : q.loadCmd path ++ [10] = encode (loadName n ++ [' ']) ++ (path ++ [10]) := by
    unfold PRU.loadCmd
    rw [PRU.verb_eq, hnumber, ← loadName_eq, encode_append _ [' '], List.append_assoc,
      List.append_assoc, List.append_assoc]
    rfl
  rw [hline] at hx
  unfold handle at hx
  obtain hcmd | ⟨args, hcmd⟩ := cmdOf_first_word (isToken_loadName n) (path ++ [10])
  · rw [hcmd] at hx
    cases hx
    rfl
  · rw [hcmd] at hx
    have huses : Uses Quiet (do
        let resp ← serve setup (loadName n :: args)
        return encode resp.toStr) := by
      rw [serve_loadName]
      exact uses_bind (uses_loadFirmware n _) fun _ => trivial
    have hwp := wp_of_uses (R := cleanEnv) (I := fun k'' => k'' = k) huses
      (fun _ _ _ _ ho h hs => (quiet_step ho h).trans hs) rfl
    exact (wp_iff_exec _).1 hwp out k' hx

theorem keeps_reset (n : Core) (p : PRUSS) :
    Keeps (clientEnv setup) (fun k q => Inv k (p.setPru n q)) PRU.reset :=
  (keeps_disable n p).andThen fun _ => keeps_enable n p

theorem keeps_load (realpath : Bytes → Bytes) (fw : Bytes) (n : Core) (p : PRUSS) :
    Keeps (clientEnv setup) (fun k q => Inv k (p.setPru n q)) (PRU.load realpath fw) := by
  refine (keeps_disable n p).andThen fun _ => Keeps.andThen (Keeps.command ?_) fun ret =>
    (keeps_enable n p).andThen fun _ => Keeps.return ret
  intro k q reply k' hinv hstep
  have hnumber : q.number = n := by
    have h := hinv.number n
    rwa [PRUSS.pru_setPru] at h
  rw [load_quiet hnumber hstep]
  exact hinv

/-- A probe that is answered `0` leaves the driver loaded and no core started. -/
theorem bootUp_answered {k k' : Kernel} {reply : Bytes}
    (hstep : clientEnv setup (lit "PROBE_RPROC") k reply k') :
    stoi reply = .ok 0 ∧ (k'.loaded = true ∧ ∀ n, k'.started n = false) ∨
      stoi reply ≠ .ok 0 ∧ k' = k ∧ k.loaded = false := by
  have hwp : wp cleanEnv (modProbe "pru_rproc".toList true)
      (Answered (fun k' => k'.loaded = true ∧ ∀ n, k'.started n = false)
        (fun k' => k' = k ∧ k.loaded = false)) k :=
    wp_modProbe (fun status k' h => h.2.1 rfl) fun e k' h => ⟨h.1.2, h.2 rfl⟩
  exact socketEnv_answered (w := "PROBE_RPROC".toList) (by decide) hwp hstep

/-- What `bootUp` assigns when it is answered `0` is right. -/
theorem inv_booted {k : Kernel} {p : PRUSS} (hnumber : ∀ n, (p.pru n).number = n)
    (hloaded : k.loaded = true) (hstarted : ∀ n, k.started n = false) :
    Inv k { p.setStates .stopped with on := true } := by
  refine ⟨⟨iff_of_true rfl hloaded, fun n => ?_⟩, fun n => ?_⟩
  · match n with
    | 0 => exact hstarted 0
    | 1 => exact hstarted 1
  · match n with
    | 0 => exact hnumber 0
    | 1 => exact hnumber 1

theorem keeps_bootUp : Keeps (clientEnv setup) Inv PRUSS.bootUp := by
  refine PRUSS.keeps_bootUp fun k p reply k' hinv hon hstep => ?_
  obtain ⟨hzero, hloaded, hstarted⟩ | ⟨hzero, rfl, -⟩ := bootUp_answered hstep
  · rw [if_pos hzero]
    exact inv_booted hinv.number hloaded hstarted
  · rw [if_neg hzero]
    exact hinv

theorem keeps_shutDown : Keeps (clientEnv setup) Inv PRUSS.shutDown := by
  refine PRUSS.keeps_shutDown (fun n => PRUSS.keeps_onCore (keeps_disable n)) ?_
  intro k p reply k' hinv hstep
  have hwp : wp cleanEnv (modProbe "pru_rproc".toList false)
      (Answered (fun k' => k'.loaded = false) (fun k' => k' = k)) k :=
    wp_modProbe (fun status k' h => h.2.2 rfl) fun e k' h => h.1.2
  obtain ⟨hzero, hloaded⟩ | ⟨hzero, rfl⟩ :=
    socketEnv_answered (w := "UNPROBE_RPROC".toList) (by decide) hwp hstep
  · rw [if_pos hzero]
    refine ⟨⟨iff_of_false (by simp) (by simp [hloaded]), fun n => ?_⟩, fun n => ?_⟩
    · match n with
      | 0 => trivial
      | 1 => trivial
    · match n with
      | 0 => exact hinv.number 0
      | 1 => exact hinv.number 1
  · rw [if_neg hzero]
    exact hinv

end Calls

/-! ## Runs -/

/-- A call of the program. -/
inductive Call where
  | bootUp
  | shutDown
  | restart
  | enable (n : Core)
  | disable (n : Core)
  | reset (n : Core)
  | pause (n : Core)
  | resume (n : Core)
  | load (n : Core) (fw : Bytes)

/-- What a call runs; its result is left out. -/
def Call.method (realpath : Bytes → Bytes) : Call → Method PRUSS Unit
  | .bootUp => PRUSS.bootUp.andThen fun _ => Method.return ()
  | .shutDown => PRUSS.shutDown.andThen fun _ => Method.return ()
  | .restart => PRUSS.restart
  | .enable n => (PRUSS.onCore n PRU.enable).andThen fun _ => Method.return ()
  | .disable n => (PRUSS.onCore n PRU.disable).andThen fun _ => Method.return ()
  | .reset n => (PRUSS.onCore n PRU.reset).andThen fun _ => Method.return ()
  | .pause n => (PRUSS.onCore n PRU.pause).andThen fun _ => Method.return ()
  | .resume n => (PRUSS.onCore n PRU.resume).andThen fun _ => Method.return ()
  | .load n fw => (PRUSS.onCore n (PRU.load realpath fw)).andThen fun _ => Method.return ()

theorem Call.keeps {setup : Setup} (realpath : Bytes → Bytes) (call : Call) :
    Keeps (clientEnv setup) Inv (call.method realpath) := by
  have hreturn {α : Type} {m : Method PRUSS α} (hm : Keeps (clientEnv setup) Inv m) :
      Keeps (clientEnv setup) Inv (m.andThen fun _ => Method.return ()) :=
    hm.andThen fun _ => Keeps.return ()
  cases call with
  | bootUp => exact hreturn keeps_bootUp
  | shutDown => exact hreturn keeps_shutDown
  | restart => exact keeps_shutDown.andThen fun _ => hreturn keeps_bootUp
  | enable n => exact hreturn (PRUSS.keeps_onCore (keeps_enable n))
  | disable n => exact hreturn (PRUSS.keeps_onCore (keeps_disable n))
  | reset n => exact hreturn (PRUSS.keeps_onCore (keeps_reset n))
  | pause n => exact hreturn (PRUSS.keeps_onCore (keeps_pause n))
  | resume n => exact hreturn (PRUSS.keeps_onCore (keeps_resume n))
  | load n fw => exact hreturn (PRUSS.keeps_onCore (keeps_load realpath fw n))

/-- The state of the kernel and of the program. -/
abbrev World := Kernel × PRUSS

/-- A call of the program on its `PRUSS` object, with the daemon in an
environment `E`.  The object is left as far as the call got. -/
def CallStep (setup : Setup) (realpath : Bytes → Bytes) (E : Env OsRes Kernel) (s : World)
    (call : Call) (s' : World) : Prop :=
  ∃ res, Exec (socketEnv setup E) (call.method realpath s.2) s.1 (.ret (res, s'.2)) s'.1

/-- The state after the constructor, on any kernel. -/
def Constructed (setup : Setup) (E : Env OsRes Kernel) (s : World) : Prop :=
  ∃ k res, Exec (socketEnv setup E) PRUSS.construct k (.ret (res, s.2)) s.1

theorem number_fresh (n : Core) : (PRUSS.fresh.pru n).number = n := by
  match n with
  | 0 => rfl
  | 1 => rfl

theorem inv_fresh {k : Kernel} (hloaded : k.loaded = false) : Inv k PRUSS.fresh := by
  refine ⟨⟨iff_of_false (by simp [PRUSS.fresh]) (by simp [hloaded]), fun n => ?_⟩, number_fresh⟩
  match n with
  | 0 => trivial
  | 1 => trivial

theorem inv_of_constructed {setup : Setup} {s : World} (h : Constructed setup cleanEnv s) :
    Inv s.1 s.2 := by
  obtain ⟨k, res, hx⟩ := h
  have hwp : wp (clientEnv setup) PRUSS.construct
      (fun out k' => ∀ res p', out = .ret (res, p') → Inv k' p') k := by
    rw [PRUSS.construct_eq]
    -- the replies to the two `DISABLE` commands are dropped
    intro _ k₁ _ _ k₂ _
    refine wp_andThen_return (PRUSS.wp_bootUp rfl ?_)
    intro reply k' hstep res p' hout
    cases hout
    obtain ⟨hzero, hloaded, hstarted⟩ | ⟨hzero, rfl, hloaded⟩ := bootUp_answered hstep
    · rw [if_pos hzero]
      exact inv_booted number_fresh hloaded hstarted
    · rw [if_neg hzero]
      exact inv_fresh hloaded
  exact (wp_iff_exec _).1 hwp _ _ hx res s.2 rfl

/-- **One call.** -/
theorem inv_of_callStep {setup : Setup} {realpath : Bytes → Bytes} {s s' : World} {call : Call}
    (hs : Inv s.1 s.2) (h : CallStep setup realpath cleanEnv s call s') : Inv s'.1 s'.2 := by
  obtain ⟨res, hx⟩ := h
  exact (wp_iff_exec _).1 (call.keeps realpath s.1 s.2 hs) _ _ hx res s'.2 rfl

/-- **As long as the kernel's answers are clean, the cached state is the real
one**: after the constructor, on whatever kernel it ran, and after every call of
every sequence of calls. -/
theorem agrees_of_run (setup : Setup) (realpath : Bytes → Bytes) {s s' : World} {calls : List Call}
    (hinit : Constructed setup cleanEnv s)
    (hrun : Run (CallStep setup realpath cleanEnv) s calls s') : Agrees s'.1 s'.2 :=
  (hrun.invariant (I := fun s => Inv s.1 s.2) (fun _ _ _ hs h => inv_of_callStep hs h)
    (inv_of_constructed hinit)).toAgrees

/-! Two runs after a constructor that finds no driver and loads it. -/

section Examples

/-- The configuration the daemon starts with. -/
def initialSetup : Setup := ⟨.initial, 1000, 10, .default⟩

/-- No driver. -/
def noDriver : Kernel := ⟨false, fun _ => false, fun _ => false⟩

/-- The driver is loaded and both cores are stopped. -/
def driverLoaded : Kernel := ⟨true, fun _ => false, fun _ => false⟩

/-- The object over it. -/
def booted : PRUSS := { PRUSS.fresh.setStates .stopped with on := true }

/-- A write to an attribute that is not there. -/
theorem socketEnv_missing {w path val : Str} (hw : IsToken w)
    (hserve : serve initialSetup [w] = sysfsWrite path val) (k : Kernel) :
    socketEnv initialSetup cleanEnv (encode w) k (encode (showInt (-ENOENT))) k := by
  refine socketEnv_of_serve hw (.int (-ENOENT)) ?_
  rw [hserve]
  exact .call (r := false) ⟨rfl, trivial⟩ (.ret _ _)

/-- A write to an attribute that goes through. -/
theorem socketEnv_written {E : Env OsRes Kernel} {w path val : Str} {k k' : Kernel}
    (hw : IsToken w) (hserve : serve initialSetup [w] = sysfsWrite path val)
    (hval : encode val ≠ [])
    (hquiet : ∀ o, Quiet o → ∀ r, kernelEnv o k r k → E o k r k)
    (hquiet' : E (.close path) k' () k')
    (hwrite : E (.write path (encode val)) k (.ok ()) k') :
    socketEnv initialSetup E (encode w) k (encode (showInt 0)) k' := by
  refine socketEnv_of_serve hw (.int 0) ?_
  rw [hserve]
  refine .call (r := true) (hquiet (.pathExists path) trivial true rfl) ?_
  have hopen : Exec E (openFile path .w) k (.ret ()) k := by
    refine .call (r := .ok ()) (hquiet (.openFile path .w) trivial (.ok ()) ⟨fun e h => ?_, rfl⟩) ?_
    · cases h
    · exact .ret _ _
  have htext : Exec E (writeText path (encode val)) k (.ret ()) k' := by
    unfold writeText
    rw [if_neg hval]
    exact .tryCatch_ret _ (.call (r := .ok ()) hwrite (.ret _ _))
  have hclose : Exec E (close path >>= fun _ => .ret ()) k' (.ret ()) k' :=
    .call (r := ()) hquiet' (.ret _ _)
  have hblock : Exec E (withOpen path .w (writeText path (encode val))) k (.ret ()) k' :=
    hopen.bind (.bind (.tryCatch_ret _ htext) hclose)
  exact .tryCatch_ret _ (.bind hblock (.ret _ _))

theorem constructed : Constructed initialSetup cleanEnv (driverLoaded, booted) := by
  have hprobe : socketEnv initialSetup cleanEnv (encode "PROBE_RPROC".toList) noDriver
      (encode (showInt 0)) driverLoaded := by
    refine socketEnv_of_serve (by decide) (.int 0) ?_
    have hclean : Clean (.popenWait probeArgv) noDriver (.ok 0) driverLoaded :=
      ⟨fun _ => ⟨rfl, fun _ => rfl⟩, fun h => absurd h (by decide)⟩
    have hkernel : kernelEnv (.popenWait probeArgv) noDriver (.ok 0) driverLoaded := by
      show if (0 : Int) = 0 then KernelModprobe noDriver probeArgv driverLoaded
        else driverLoaded = noDriver
      rw [if_pos rfl]
      exact .probe
    have hcall : cleanEnv (.popenWait probeArgv) noDriver (.ok 0) driverLoaded := ⟨hkernel, hclean⟩
    refine .call hcall ?_
    exact .ret _ _
  have hdisable0 := socketEnv_missing (w := "DISABLE_0".toList) (by decide) rfl noDriver
  have hdisable1 := socketEnv_missing (w := "DISABLE_1".toList) (by decide) rfl noDriver
  refine ⟨noDriver, .ok (), ?_⟩
  rw [PRUSS.construct_eq]
  exact .call hdisable0 (.call hdisable1 (.call hprobe (.ret _ _)))

/-- Core `0` is started. -/
def coreStarted : Kernel := ⟨true, fun n => n.val = 0, fun _ => false⟩

theorem agrees_of_run_enable :
    Run (CallStep initialSetup id cleanEnv) (driverLoaded, booted) [.enable 0]
        (coreStarted, { booted with pru0.state := .running }) ∧
      Agrees coreStarted { booted with pru0.state := .running } := by
  have hkernel : KernelWrite driverLoaded (statePath 0) (encode "start".toList) coreStarted := by
    have h := KernelWrite.start (k := driverLoaded) 0 false rfl rfl rfl (fun h => by cases h)
    have hstarted : Function.update driverLoaded.started 0 true = coreStarted.started := by decide
    have hsingle : Function.update driverLoaded.single 0 false = coreStarted.single := by decide
    rwa [hstarted, hsingle] at h
  have hclean : Clean (.write (statePath 0) (encode "start".toList)) driverLoaded (.ok ())
      coreStarted :=
    fun n => ⟨fun _ _ => rfl, fun h => absurd h (statePath_ne_singleStepPath 0 n)⟩
  have henable := socketEnv_written (E := cleanEnv) (w := "ENABLE_0".toList) (by decide) rfl
    (by decide) (fun o ho r h => ⟨h, clean_of_quiet ho⟩) ⟨rfl, trivial⟩ ⟨hkernel, hclean⟩
  have hrun : Run (CallStep initialSetup id cleanEnv) (driverLoaded, booted) [.enable 0]
      (coreStarted, { booted with pru0.state := .running }) := by
    refine .cons ⟨.ok (), ?_⟩ (.nil _)
    exact .call henable (.ret _ _)
  exact ⟨hrun, agrees_of_run initialSetup id constructed hrun⟩

/-- Core `0` single-steps, if it is ever started. -/
def coreSingleStep : Kernel := ⟨true, fun _ => false, fun n => n.val = 0⟩

/-- **Pausing a core that was never started**: the client takes it for halted. -/
theorem pause_stopped_disagrees :
    ∃ s s', Constructed initialSetup kernelEnv s ∧
      Run (CallStep initialSetup id kernelEnv) s [.pause 0] s' ∧ ¬ Agrees s'.1 s'.2 := by
  have hwrite : KernelWrite driverLoaded (singleStepPath 0) (encode (showInt 1)) coreSingleStep := by
    have h := KernelWrite.singleStep (k := driverLoaded) 0 true rfl rfl rfl
    have hsingle : Function.update driverLoaded.single 0 true = coreSingleStep.single := by decide
    rwa [hsingle] at h
  have hpause := socketEnv_written (E := kernelEnv) (w := "PAUSE_0".toList) (by decide) rfl
    (by decide) (fun _ _ _ h => h) rfl hwrite
  obtain ⟨k, res, hx⟩ := constructed
  have hconstruct : Constructed initialSetup kernelEnv (driverLoaded, booted) :=
    ⟨k, res, hx.mono fun _ _ _ _ h => socketEnv_mono (fun _ _ _ _ h => h.1) h⟩
  refine ⟨_, (coreSingleStep, { booted with pru0.state := .halted }), hconstruct,
    .cons ⟨.ok (), .call hpause (.ret _ _)⟩ (.nil _), fun h => ?_⟩
  exact absurd (h.cores 0).1 (by decide)

end Examples

end System
