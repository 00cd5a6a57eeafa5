import PrussBindings.Driver.Device
import PrussBindings.Lib.Table
import PrussBindings.Lib.Transition

/-!
# Probing and removing devices

`pruss_api_probe` takes four things from the kernel one after the other, a minor
number, a `cdev`, a device node and a FIFO, and gives them back in the opposite
order where the next one cannot be had.

* `Kernel` — the four tables, and the `drvdata` of the devices.
* `prussApiProbe`, with its labels `failAllocFifo`, `failCreateDevice` and
  `failAddCdev`, and `prussApiRemove`.
* `CoreStep` — the driver core probes devices that are not bound and removes those
  that are, in any order.
* `Exact` — the tables hold what belongs to the given devices, and nothing else.
* `prussApiProbe_failed` — a probe that fails at any step leaves the kernel as it
  was.
* `tables_exact` — **after any history the tables are exactly those of the devices
  that were probed and not removed.**
-/

namespace Driver

open Errno Table Transition

/-- `PRU_MAX_DEVICES`. -/
def pruMaxDevices : Nat := 8

/-- `MKDEV(major, minor)`. -/
def mkdev (major minor : Nat) : Nat := major <<< 20 ||| minor

/-- `MINOR(devt)`. -/
def minorOf (devt : Nat) : Nat := devt &&& (2 ^ 20 - 1)

theorem mkdev_eq (major : Nat) {minor : Nat} (h : minor < pruMaxDevices) :
    mkdev major minor = major * 2 ^ 20 + minor := by
  have hlt : minor < 2 ^ 20 := h.trans (by decide)
  rw [mkdev, ← Nat.shiftLeft_add_eq_or_of_lt hlt, Nat.shiftLeft_eq]

theorem minorOf_mkdev (major : Nat) {minor : Nat} (h : minor < pruMaxDevices) :
    minorOf (mkdev major minor) = minor := by
  have hlt : minor < 2 ^ 20 := h.trans (by decide)
  rw [minorOf, mkdev_eq major h, Nat.and_two_pow_sub_one_eq_mod, Nat.mul_add_mod_self_right,
    Nat.mod_eq_of_lt hlt]

/-! ## The tables -/

/-- A device of the class `pruss_api`, as `device_create` makes it. -/
structure ClassDevice (δ : Type) where
  parent : δ
  name : String

/-- What the driver keeps in `struct pruss_api_dev`. -/
structure Prudev where
  devt : Nat
  dev : PrussApiDev

/-- What the driver has of the kernel, where `δ` are the rpmsg devices: the minors
of `pruss_api_minors`, the registered `cdev`s, the devices of the class, the FIFOs
that are allocated, and the `drvdata`. -/
structure Kernel (δ : Type) where
  minors : Nat → Option δ
  cdevs : δ → Option Nat
  nodes : Nat → Option (ClassDevice δ)
  fifos : Finset δ
  drvdata : δ → Option Prudev

namespace Kernel

variable {δ : Type}

/-- Nothing has been probed. -/
def init : Kernel δ := ⟨fun _ => none, fun _ => none, fun _ => none, ∅, fun _ => none⟩

/-- `idr_alloc`, where it gave the minor. -/
def idrAlloc (k : Kernel δ) (rpdev : δ) (minor : Nat) : Kernel δ :=
  { k with minors := Function.update k.minors minor (some rpdev) }

/-- `idr_remove`. -/
def idrRemove (k : Kernel δ) (minor : Nat) : Kernel δ :=
  { k with minors := Function.update k.minors minor none }

/-- `device_create`. -/
def deviceCreate (k : Kernel δ) (devt : Nat) (node : ClassDevice δ) : Kernel δ :=
  { k with nodes := Function.update k.nodes devt (some node) }

/-- `device_destroy`. -/
def deviceDestroy (k : Kernel δ) (devt : Nat) : Kernel δ :=
  { k with nodes := Function.update k.nodes devt none }

theorem idrRemove_idrAlloc {k : Kernel δ} {minor : Nat} (h : k.minors minor = none) (rpdev : δ) :
    (k.idrAlloc rpdev minor).idrRemove minor = k := by
  simp [idrAlloc, idrRemove, ← h]

theorem deviceDestroy_deviceCreate {k : Kernel δ} {devt : Nat} (h : k.nodes devt = none)
    (node : ClassDevice δ) : (k.deviceCreate devt node).deviceDestroy devt = k := by
  simp [deviceCreate, deviceDestroy, ← h]

variable [DecidableEq δ]

/-- `cdev_add`. -/
def cdevAdd (k : Kernel δ) (rpdev : δ) (devt : Nat) : Kernel δ :=
  { k with cdevs := Function.update k.cdevs rpdev (some devt) }

/-- `cdev_del`. -/
def cdevDel (k : Kernel δ) (rpdev : δ) : Kernel δ :=
  { k with cdevs := Function.update k.cdevs rpdev none }

/-- `kfifo_alloc`. -/
def kfifoAlloc (k : Kernel δ) (rpdev : δ) : Kernel δ := { k with fifos := insert rpdev k.fifos }

/-- `kfifo_free`. -/
def kfifoFree (k : Kernel δ) (rpdev : δ) : Kernel δ := { k with fifos := k.fifos.erase rpdev }

/-- `dev_set_drvdata`. -/
def setDrvdata (k : Kernel δ) (rpdev : δ) (prudev : Prudev) : Kernel δ :=
  { k with drvdata := Function.update k.drvdata rpdev (some prudev) }

theorem cdevDel_cdevAdd {k : Kernel δ} {rpdev : δ} (h : k.cdevs rpdev = none) (devt : Nat) :
    (k.cdevAdd rpdev devt).cdevDel rpdev = k := by
  simp [cdevAdd, cdevDel, ← h]

end Kernel

/-! ## Probe and remove -/

/-- A negative error number. -/
abbrev Failure := {e : Int // e < 0}

/-- What the kernel answers during a probe: `none` is a step that succeeds. -/
structure ProbeAnswers where
  kzalloc : Bool
  idrAlloc : Except Failure Nat
  cdevAdd : Option Failure
  deviceCreate : Option Failure
  kfifoAlloc : Option Failure

/-- `idr_alloc` gives a minor of the range that is free. -/
def ProbeAnswers.Legal {δ : Type} (a : ProbeAnswers) (k : Kernel δ) : Prop :=
  ∀ minor, a.idrAlloc = .ok minor → minor < pruMaxDevices ∧ k.minors minor = none

/-- What a probe hands back: its return value, what it wrote to the kernel log,
and the kernel. -/
structure ProbeRet (δ : Type) where
  ret : Int
  log : Option String
  kernel : Kernel δ

/-- The major number of the module, and the addresses of the rpmsg devices. -/
structure Bus (δ : Type) where
  major : Nat
  dst : δ → Nat

/-- The device that `device_create` makes for an rpmsg device. -/
def Bus.node {δ : Type} (bus : Bus δ) (rpdev : δ) : ClassDevice δ :=
  ⟨rpdev, "pruss_api_pru" ++ toString (bus.dst rpdev)⟩

section Probe

variable {δ : Type} [DecidableEq δ]

/-- The label `fail_add_cdev`. -/
def failAddCdev (k : Kernel δ) (minorGot : Nat) : Kernel δ := k.idrRemove minorGot

/-- The label `fail_create_device`, which falls through. -/
def failCreateDevice (k : Kernel δ) (rpdev : δ) (minorGot : Nat) : Kernel δ :=
  failAddCdev (k.cdevDel rpdev) minorGot

/-- The label `fail_alloc_fifo`, which falls through. -/
def failAllocFifo (k : Kernel δ) (rpdev : δ) (devt minorGot : Nat) : Kernel δ :=
  failCreateDevice (k.deviceDestroy devt) rpdev minorGot

omit [DecidableEq δ] in
theorem failAddCdev_idrAlloc {k : Kernel δ} {minor : Nat} (h : k.minors minor = none) (rpdev : δ) :
    failAddCdev (k.idrAlloc rpdev minor) minor = k := Kernel.idrRemove_idrAlloc h rpdev

/-- The label gives the `cdev` back, and goes on where `cdev_add` fails. -/
theorem failCreateDevice_cdevAdd {k : Kernel δ} {rpdev : δ} (h : k.cdevs rpdev = none)
    (devt minor : Nat) :
    failCreateDevice (k.cdevAdd rpdev devt) rpdev minor = failAddCdev k minor := by
  rw [failCreateDevice, Kernel.cdevDel_cdevAdd h]

/-- The label gives the device node back, and goes on where `device_create` fails. -/
theorem failAllocFifo_deviceCreate {k : Kernel δ} {devt : Nat} (h : k.nodes devt = none)
    (node : ClassDevice δ) (rpdev : δ) (minor : Nat) :
    failAllocFifo (k.deviceCreate devt node) rpdev devt minor = failCreateDevice k rpdev minor := by
  rw [failAllocFifo, Kernel.deviceDestroy_deviceCreate h]

/-- `pruss_api_probe`. -/
def prussApiProbe (bus : Bus δ) (k : Kernel δ) (rpdev : δ) (a : ProbeAnswers) : ProbeRet δ :=
  if !a.kzalloc then ⟨-ENOMEM, none, k⟩
  else match a.idrAlloc with
    | .error e =>
      ⟨e, some "Failed to get a minor number for the rpsmg device for pruss_api: %d\n", k⟩
    | .ok minorGot =>
      let k := k.idrAlloc rpdev minorGot
      let devt := mkdev bus.major minorGot
      match a.cdevAdd with
      | some e =>
        ⟨e, some "Unable to add cdev for the rpmsg device for pruss_api\n", failAddCdev k minorGot⟩
      | none =>
        let k := k.cdevAdd rpdev devt
        match a.deviceCreate with
        | some e =>
          ⟨e, some "Unable to create the rpmsg device for pruss_api\n",
            failCreateDevice k rpdev minorGot⟩
        | none =>
          let k := k.deviceCreate devt (bus.node rpdev)
          match a.kfifoAlloc with
          | some e =>
            ⟨e, some "Unable to allocate fifo for the rpmsg device for pruss_api\n",
              failAllocFifo k rpdev devt minorGot⟩
          | none =>
            ⟨0, some "new pruss_api device: /dev/pruss_api_pru%d",
              (k.kfifoAlloc rpdev).setDrvdata rpdev ⟨devt, .probed⟩⟩

/-- `pruss_api_remove`.  `none` is a device without `drvdata`, whose null pointer
is followed. -/
def prussApiRemove (k : Kernel δ) (rpdev : δ) : Option (Kernel δ) :=
  (k.drvdata rpdev).map fun prudev =>
    (((k.kfifoFree rpdev).deviceDestroy prudev.devt).cdevDel rpdev).idrRemove (minorOf prudev.devt)

/-- The kernel and the devices that are bound to the driver. -/
structure CoreState (δ : Type) where
  kernel : Kernel δ
  bound : Finset δ

/-- The module was just loaded. -/
def CoreState.init : CoreState δ := ⟨.init, ∅⟩

/-- A call of the driver core, with what `pruss_api_probe` returned. -/
inductive CoreEvent (δ : Type) where
  | probe (rpdev : δ) (ret : Int)
  | remove (rpdev : δ)

/-- The driver core probes a device that is not bound, which binds it if the probe
returns `0`, and removes a device that is bound. -/
inductive CoreStep (bus : Bus δ) : CoreState δ → CoreEvent δ → CoreState δ → Prop where
  | probe {s : CoreState δ} {rpdev : δ} {a : ProbeAnswers} {r : ProbeRet δ} : rpdev ∉ s.bound →
    a.Legal s.kernel → prussApiProbe bus s.kernel rpdev a = r →
    CoreStep bus s (.probe rpdev r.ret)
      ⟨r.kernel, if r.ret = 0 then insert rpdev s.bound else s.bound⟩
  | remove {s : CoreState δ} {rpdev : δ} {k : Kernel δ} : rpdev ∈ s.bound →
    prussApiRemove s.kernel rpdev = some k →
    CoreStep bus s (.remove rpdev) ⟨k, s.bound.erase rpdev⟩

/-- What one call changes about the devices that are there. -/
def CoreEvent.live (devices : Finset δ) : CoreEvent δ → Finset δ
  | .probe rpdev ret => if ret = 0 then insert rpdev devices else devices
  | .remove rpdev => devices.erase rpdev

/-- The devices that were probed with success and have not been removed. -/
def liveDevices (es : List (CoreEvent δ)) : Finset δ := es.foldl CoreEvent.live ∅

theorem liveDevices_concat (es : List (CoreEvent δ)) (e : CoreEvent δ) :
    liveDevices (es ++ [e]) = e.live (liveDevices es) := List.foldl_concat ..

end Probe

/-! ## The tables are those of the live devices -/

section Exact

variable {δ : Type}

/-- The tables hold what belongs to these devices, whose minors are given, and
nothing else. -/
structure Exact (bus : Bus δ) (devices : Finset δ) (minor : δ → Nat) (k : Kernel δ) : Prop where
  distinct : Set.InjOn minor devices
  below : ∀ d ∈ devices, minor d < pruMaxDevices
  minors : Lists k.minors devices minor id
  cdevs : Lists k.cdevs devices id fun d => mkdev bus.major (minor d)
  nodes : Lists k.nodes devices (fun d => mkdev bus.major (minor d)) bus.node
  fifos : k.fifos = devices
  drvdata : ∀ d ∈ devices, ∃ dev, k.drvdata d = some ⟨mkdev bus.major (minor d), dev⟩

variable {bus : Bus δ} {devices : Finset δ} {minor : δ → Nat} {k : Kernel δ}

theorem exact_init (bus : Bus δ) : Exact bus ∅ (fun _ => 0) (.init : Kernel δ) where
  distinct := by simp
  below := by simp
  minors := lists_empty _ _
  cdevs := lists_empty _ _
  nodes := lists_empty _ _
  fifos := rfl
  drvdata := by simp

/-- Two device numbers are the same for one minor only. -/
theorem mkdev_inj {major m m' : Nat} (hm : m < pruMaxDevices) (hm' : m' < pruMaxDevices)
    (h : mkdev major m = mkdev major m') : m = m' := by
  rw [mkdev_eq _ hm, mkdev_eq _ hm'] at h
  exact Nat.add_left_cancel h

/-- The devices have different device numbers. -/
theorem Exact.devt_injOn (h : Exact bus devices minor k) :
    Set.InjOn (fun d => mkdev bus.major (minor d)) devices := fun d hd d' hd' heq =>
  h.distinct hd hd' (mkdev_inj (h.below d hd) (h.below d' hd') heq)

/-- No device node stands where one is to be made. -/
theorem Exact.nodes_free (h : Exact bus devices minor k) {m : Nat} (hlt : m < pruMaxDevices)
    (hm : k.minors m = none) : k.nodes (mkdev bus.major m) = none := by
  refine h.nodes.eq_none_iff.2 fun d hd hdevt => ?_
  exact h.minors.eq_none_iff.1 hm d hd (mkdev_inj (h.below d hd) hlt hdevt)

/-- No `cdev` is registered for a device that is not there. -/
theorem Exact.cdevs_free (h : Exact bus devices minor k) {rpdev : δ} (hd : rpdev ∉ devices) :
    k.cdevs rpdev = none :=
  h.cdevs.eq_none_iff.2 fun _ hmem heq => hd (heq ▸ hmem)

/-- The tables say the same where the minors of the devices are the same. -/
theorem Exact.congr (h : Exact bus devices minor k) {minor' : δ → Nat}
    (heq : ∀ d ∈ devices, minor' d = minor d) : Exact bus devices minor' k := by
  have hdevt : ∀ d ∈ devices, mkdev bus.major (minor' d) = mkdev bus.major (minor d) :=
    fun d hd => congrArg _ (heq d hd)
  refine ⟨h.distinct.congr fun d hd => (heq d hd).symm, fun d hd => ?_, ?_, ?_, ?_, h.fifos,
    fun d hd => ?_⟩
  · rw [heq d hd]
    exact h.below d hd
  · exact h.minors.congr fun d hd => ⟨heq d hd, rfl⟩
  · exact h.cdevs.congr fun d hd => ⟨rfl, hdevt d hd⟩
  · exact h.nodes.congr fun d hd => ⟨hdevt d hd, rfl⟩
  · rw [hdevt d hd]
    exact h.drvdata d hd

variable [DecidableEq δ]

/-- **What a probe does**: it fails, and goes on at one of the labels, or it
succeeds. -/
theorem prussApiProbe_cases (bus : Bus δ) (k : Kernel δ) (rpdev : δ) (a : ProbeAnswers) :
    ((prussApiProbe bus k rpdev a).ret ≠ 0 ∧
      ((prussApiProbe bus k rpdev a).kernel = k ∨
        ∃ m, a.idrAlloc = .ok m ∧
          ((prussApiProbe bus k rpdev a).kernel = failAddCdev (k.idrAlloc rpdev m) m ∨
            (prussApiProbe bus k rpdev a).kernel =
              failCreateDevice ((k.idrAlloc rpdev m).cdevAdd rpdev (mkdev bus.major m)) rpdev m ∨
            (prussApiProbe bus k rpdev a).kernel =
              failAllocFifo (((k.idrAlloc rpdev m).cdevAdd rpdev (mkdev bus.major m)).deviceCreate
                (mkdev bus.major m) (bus.node rpdev)) rpdev (mkdev bus.major m) m))) ∨
    ((prussApiProbe bus k rpdev a).ret = 0 ∧
      ∃ m, a.idrAlloc = .ok m ∧ (prussApiProbe bus k rpdev a).kernel =
        ((((k.idrAlloc rpdev m).cdevAdd rpdev (mkdev bus.major m)).deviceCreate
          (mkdev bus.major m) (bus.node rpdev)).kfifoAlloc rpdev).setDrvdata rpdev
            ⟨mkdev bus.major m, .probed⟩) := by
  have hfailure (e : Failure) : e.1 ≠ 0 := e.2.ne
  unfold prussApiProbe
  cases a.kzalloc with
  | false => exact .inl ⟨(by decide : -ENOMEM ≠ 0), .inl rfl⟩
  | true =>
    cases a.idrAlloc with
    | error e => exact .inl ⟨hfailure e, .inl rfl⟩
    | ok m =>
      cases a.cdevAdd with
      | some e => exact .inl ⟨hfailure e, .inr ⟨m, rfl, .inl rfl⟩⟩
      | none =>
        cases a.deviceCreate with
        | some e => exact .inl ⟨hfailure e, .inr ⟨m, rfl, .inr (.inl rfl)⟩⟩
        | none =>
          cases a.kfifoAlloc with
          | some e => exact .inl ⟨hfailure e, .inr ⟨m, rfl, .inr (.inr rfl)⟩⟩
          | none => exact .inr ⟨rfl, m, rfl, rfl⟩

/-- **A probe that fails at any step leaves the kernel as it was.** -/
theorem prussApiProbe_failed (h : Exact bus devices minor k) {rpdev : δ} (hd : rpdev ∉ devices)
    {a : ProbeAnswers} (ha : a.Legal k) (hret : (prussApiProbe bus k rpdev a).ret ≠ 0) :
    (prussApiProbe bus k rpdev a).kernel = k := by
  obtain ⟨-, hsame | ⟨m, hidr, hlabel⟩⟩ | ⟨hzero, -⟩ := prussApiProbe_cases bus k rpdev a
  · exact hsame
  · obtain ⟨hlt, hfree⟩ := ha m hidr
    have hcdev : (k.idrAlloc rpdev m).cdevs rpdev = none := h.cdevs_free hd
    have hnode : ((k.idrAlloc rpdev m).cdevAdd rpdev (mkdev bus.major m)).nodes
        (mkdev bus.major m) = none := h.nodes_free hlt hfree
    obtain hkernel | hkernel | hkernel := hlabel
    · rw [hkernel, failAddCdev_idrAlloc hfree]
    · rw [hkernel, failCreateDevice_cdevAdd hcdev, failAddCdev_idrAlloc hfree]
    · rw [hkernel, failAllocFifo_deviceCreate hnode, failCreateDevice_cdevAdd hcdev,
        failAddCdev_idrAlloc hfree]
  · exact absurd hzero hret

/-- **A probe that succeeds has added the device to the tables.** -/
theorem prussApiProbe_exact (h : Exact bus devices minor k) {rpdev : δ} (hd : rpdev ∉ devices)
    {a : ProbeAnswers} (ha : a.Legal k) (hret : (prussApiProbe bus k rpdev a).ret = 0) :
    ∃ m, Exact bus (insert rpdev devices) (Function.update minor rpdev m)
      (prussApiProbe bus k rpdev a).kernel := by
  obtain ⟨m, hidr, hkernel⟩ :=
    ((prussApiProbe_cases bus k rpdev a).resolve_left fun hfailed => hfailed.1 hret).2
  obtain ⟨hlt, hfree⟩ := ha m hidr
  have hother {d : δ} (hd' : d ∈ devices) : d ≠ rpdev := fun heq => hd (heq ▸ hd')
  refine ⟨m, ?_⟩
  rw [hkernel]
  have hm : m = Function.update minor rpdev m rpdev := by simp
  replace h : Exact bus devices (Function.update minor rpdev m) k :=
    h.congr fun d hd' => Function.update_of_ne (hother hd') ..
  generalize Function.update minor rpdev m = minor at h hm ⊢
  subst hm
  have hminors : Lists _ (insert rpdev devices) minor id := h.minors.insert hfree
  exact {
    distinct := hminors.injOn Function.injective_id.injOn
    below := Finset.forall_mem_insert .. |>.2 ⟨hlt, h.below⟩
    minors := hminors
    cdevs := h.cdevs.insert (h.cdevs_free hd)
    nodes := h.nodes.insert (h.nodes_free hlt hfree)
    fifos := congrArg (insert rpdev) h.fifos
    drvdata := by
      refine Finset.forall_mem_insert .. |>.2 ⟨⟨.probed, Function.update_self ..⟩, fun d hd' => ?_⟩
      obtain ⟨dev, hdev⟩ := h.drvdata d hd'
      exact ⟨dev, (Function.update_of_ne (hother hd') ..).trans hdev⟩ }

/-- **A removed device is taken out of the tables**, and it is there to be
taken out. -/
theorem prussApiRemove_exact (h : Exact bus devices minor k) {rpdev : δ} (hd : rpdev ∈ devices) :
    ∃ k', prussApiRemove k rpdev = some k' ∧ Exact bus (devices.erase rpdev) minor k' := by
  obtain ⟨dev, hdrvdata⟩ := h.drvdata rpdev hd
  refine ⟨_, by rw [prussApiRemove, hdrvdata]; rfl, ?_⟩
  dsimp only
  rw [minorOf_mkdev _ (h.below rpdev hd)]
  exact {
    distinct := h.distinct.mono (Finset.coe_subset.2 (Finset.erase_subset ..))
    below := fun d hd' => h.below d (Finset.mem_of_mem_erase hd')
    minors := h.minors.erase h.distinct hd
    cdevs := h.cdevs.erase Function.injective_id.injOn hd
    nodes := h.nodes.erase h.devt_injOn hd
    fifos := congrArg (Finset.erase · rpdev) h.fifos
    drvdata := fun d hd' => h.drvdata d (Finset.mem_of_mem_erase hd') }

/-! ## Histories -/

/-- The bound devices are the live ones, and the tables are theirs. -/
def Tracks (bus : Bus δ) (past : List (CoreEvent δ)) (s : CoreState δ) : Prop :=
  s.bound = liveDevices past ∧ ∃ minor, Exact bus (liveDevices past) minor s.kernel

/-- **The step lemma.** -/
theorem Tracks.step {past : List (CoreEvent δ)} {s s' : CoreState δ} {e : CoreEvent δ}
    (h : Tracks bus past s) (hstep : CoreStep bus s e s') : Tracks bus (past ++ [e]) s' := by
  obtain ⟨hbound, minor, hexact⟩ := h
  rw [Tracks, liveDevices_concat]
  cases hstep with
  | @probe rpdev a r hfree ha hr =>
    subst hr
    rw [hbound] at hfree
    by_cases hret : (prussApiProbe bus s.kernel rpdev a).ret = 0
    · obtain ⟨m, hadded⟩ := prussApiProbe_exact hexact hfree ha hret
      simp only [CoreEvent.live, if_pos hret, hbound, true_and]
      exact ⟨_, hadded⟩
    · simp only [CoreEvent.live, if_neg hret, hbound, true_and]
      rw [prussApiProbe_failed hexact hfree ha hret]
      exact ⟨minor, hexact⟩
  | remove hlive hremove =>
    rw [hbound] at hlive
    obtain ⟨k', hk', hgone⟩ := prussApiRemove_exact hexact hlive
    obtain rfl := Option.some_inj.1 (hremove.symm.trans hk')
    simp only [CoreEvent.live, hbound, true_and]
    exact ⟨minor, hgone⟩

theorem Tracks.run {es : List (CoreEvent δ)} {s : CoreState δ}
    (h : Run (CoreStep bus) .init es s) : Tracks bus es s :=
  h.history ⟨rfl, fun _ => 0, exact_init bus⟩ fun _ _ _ _ _ hpast hstep => hpast.step hstep

/-- **After any history of probes and removes, whatever failed in them, the tables
are exactly those of the devices that were probed and have not been removed**, no
two of them have one minor, each of them can be removed, and a further probe that
fails, at whatever step, changes nothing. -/
theorem tables_exact {es : List (CoreEvent δ)} {s : CoreState δ}
    (hrun : Run (CoreStep bus) .init es s) :
    (∃ minor, Exact bus (liveDevices es) minor s.kernel) ∧
      (∀ rpdev ∈ liveDevices es, prussApiRemove s.kernel rpdev ≠ none) ∧
      ∀ rpdev ∉ liveDevices es, ∀ a : ProbeAnswers, a.Legal s.kernel →
        (prussApiProbe bus s.kernel rpdev a).ret ≠ 0 →
        (prussApiProbe bus s.kernel rpdev a).kernel = s.kernel := by
  obtain ⟨-, minor, hexact⟩ := Tracks.run hrun
  refine ⟨⟨minor, hexact⟩, fun rpdev hd => ?_, fun rpdev hd a ha hret =>
    prussApiProbe_failed hexact hd ha hret⟩
  obtain ⟨k', hk', -⟩ := prussApiRemove_exact hexact hd
  exact fun hnone => by cases hnone.symm.trans hk'

/-- The kernel gives minor `0` and then has no room for the FIFO. -/
def noFifo : ProbeAnswers := ⟨true, .ok 0, none, none, some ⟨-ENOMEM, by decide⟩⟩

/-- The kernel gives minor `0` and everything else. -/
def allGiven : ProbeAnswers := ⟨true, .ok 0, none, none, none⟩

/-- The bus of the examples. -/
def exampleBus : Bus Nat := ⟨240, id⟩

/-- A probe fails at its last step, and the same device is probed again. -/
def secondTry : List (CoreEvent Nat) := [.probe 30 (-ENOMEM), .probe 30 0]

theorem tables_exact_secondTry :
    ∃ s : CoreState Nat, (∃ minor, Exact exampleBus (liveDevices secondTry) minor s.kernel) ∧
      (∀ rpdev ∈ liveDevices secondTry, prussApiRemove s.kernel rpdev ≠ none) ∧
      ∀ rpdev ∉ liveDevices secondTry, ∀ a : ProbeAnswers, a.Legal s.kernel →
        (prussApiProbe exampleBus s.kernel rpdev a).ret ≠ 0 →
        (prussApiProbe exampleBus s.kernel rpdev a).kernel = s.kernel := by
  have hunbound : 30 ∉ (CoreState.init : CoreState Nat).bound := by simp [CoreState.init]
  have hfails : CoreStep exampleBus .init (.probe 30 (-ENOMEM)) .init := by
    have hlegal : noFifo.Legal (.init : Kernel Nat) := fun minor hminor => by
      cases hminor
      exact ⟨by decide, rfl⟩
    have hsame : (prussApiProbe exampleBus .init 30 noFifo).kernel = .init :=
      prussApiProbe_failed (exact_init exampleBus) (by simp) hlegal (by decide)
    have hstep := CoreStep.probe hunbound hlegal
      (rfl : prussApiProbe exampleBus .init 30 noFifo = _)
    rw [hsame] at hstep
    exact hstep
  have hlegal : allGiven.Legal (.init : Kernel Nat) := fun minor hminor => by
    cases hminor
    exact ⟨by decide, rfl⟩
  have hsucceeds := CoreStep.probe hunbound hlegal
    (rfl : prussApiProbe exampleBus .init 30 allGiven = _)
  exact ⟨_, tables_exact (.cons hfails (.cons hsucceeds (.nil _)))⟩

end Exact

end Driver
