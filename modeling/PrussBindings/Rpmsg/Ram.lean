import PrussBindings.Rpmsg.Layout
import PrussBindings.Rpmsg.Queue

/-!
# The firmware over a memory of bytes

The accesses of the firmware and the steps of the ARM once more, now as loads and stores
of bytes at the addresses that the structures have.  Seen field by field they are those of
`Rpmsg.Host`, so that what is proved of the firmware there holds over the bytes.

* `Ram` — the memory in bytes, with the record of what went through the vrings.
* `Ram.Sem`, `Ram.HostStep` — the accesses and the steps of the ARM.
* `Ram.world` — the memory seen field by field.
* `exec_world` — **an execution over the bytes is one over the fields**.
* `wp_world` — what is proved over the fields holds over the bytes.
-/

namespace Rpmsg

open Effect ByteMemory

/-- The memory in bytes, and what `World` has beside it. -/
structure Ram where
  bytes : Bytes
  log : VringId → Log
  event : Bool
  kicked : ℕ
  strobes : List ℕ

namespace Ram

variable (L : Layout)

/-- The memory seen field by field. -/
noncomputable def world (w : Ram) : World where
  mem := fields (Place.addr L.rsc) Place.size (Live L.setup) w.bytes
  log := w.log
  event := w.event
  kicked := w.kicked
  strobes := w.strobes

/-- The accesses of the firmware. -/
def Sem : Env Access.Res Ram
  | .load p => fun w r w' => Live L.setup p →
    r = read w.bytes (p.addr L.rsc) p.size ∧
      w' = { w with log := ((w.world L).look L.setup p).log }
  | .store p v => fun w _ w' => Live L.setup p →
    w' = { w with
      bytes := write w.bytes (p.addr L.rsc) v p.size
      log := ((w.world L).store L.setup p v).log }
  | .writeR31 v => fun w _ w' => w' = { w with strobes := w.strobes ++ [v] }
  | .readR31 => fun w r w' => r.testBit L.hostBit = w.event ∧ w' = w
  | .clearStatus event => fun w _ w' =>
    w' = if event = L.fromArmEvent then { w with event := false } else w

/-- A step of the ARM: it leaves the bytes of the fields alone that `Rpmsg.HostStep` does
not let it write. -/
inductive HostStep : Ram → Ram → Prop where
  | write {w : Ram} (bytes : Bytes)
    (h : ∀ p q, Live L.setup p → GuardedBy (L.setup.vring q) (w.log q) p →
      ∀ a, p.addr L.rsc ≤ a → a < p.addr L.rsc + p.size → bytes a = w.bytes a) :
    HostStep w { w with bytes := bytes }
  | post {w : Ram} (q : VringId) (e : Entry) (h : Postable L.setup (w.world L) q e) :
    HostStep w { w with
      bytes := ByteMemory.write w.bytes (Place.addr L.rsc (.availIdx (L.vringAt q).avail))
        ((w.log q).posted.length + 1) 2
      log := ((w.world L).post L.setup q e).log }
  | collect {w : Ram} (q : VringId)
    (h : (w.log q).collected.length < (w.log q).returned.length) :
    HostStep w { w with log := ((w.world L).collect L.setup q).log }
  | kick {w : Ram} :
    HostStep w { w with event := true, kicked := (w.log .vring1).posted.length }

/-- The firmware on top of the bytes that it shares with the ARM. -/
def Arm : Env Access.Res Ram := interleaved (HostStep L) (Sem L)

/-! ## The bytes seen field by field -/

variable {L} {w w' : Ram}

/-- A field is written. -/
theorem world_write {p : Place} (hp : Live L.setup p) (v : ℕ) (w : Ram) (log : VringId → Log) :
    world L { w with bytes := write w.bytes (p.addr L.rsc) v p.size, log := log } =
      { w.world L with
        mem := Function.update (w.world L).mem p (v % 256 ^ p.size)
        log := log } :=
  congrArg (fun mem => World.mk mem log w.event w.kicked w.strobes) (fields_write L.apart hp)

theorem world_mem_of_live {p : Place} (hp : Live L.setup p) (w : Ram) :
    (w.world L).mem p = read w.bytes (p.addr L.rsc) p.size := fields_of_live hp

theorem sem_world {a : Access} {r : a.Res} (h : Sem L a w r w') :
    Rpmsg.Sem L.setup a (w.world L) r (w'.world L) := by
  cases a with
  | load p =>
    intro hp
    obtain ⟨rfl, rfl⟩ := h hp
    refine ⟨(world_mem_of_live hp w).symm, ?_⟩
    cases p <;> rfl
  | store p v =>
    intro hp
    obtain rfl := h hp
    exact world_write hp v w _
  | writeR31 v =>
    obtain rfl := h
    rfl
  | readR31 =>
    obtain ⟨hbit, rfl⟩ := h
    exact ⟨hbit, rfl⟩
  | clearStatus event =>
    obtain rfl := h
    change world L (if event = L.fromArmEvent then _ else _) =
      if event = L.fromArmEvent then _ else _
    split <;> rfl

theorem hostStep_world (h : HostStep L w w') :
    Rpmsg.HostStep L.setup (w.world L) (w'.world L) := by
  cases h with
  | write bytes hbytes =>
    refine .write _ fun p q hguard => ?_
    by_cases hp : Live L.setup p
    · rw [world_mem_of_live hp]
      exact (fields_of_live hp).trans (read_congr (hbytes p q hp hguard))
    · exact (if_neg hp).trans (if_neg hp).symm
  | post q e hpost =>
    have hlive : Live L.setup (.availIdx (L.vringAt q).avail) := ⟨q, rfl⟩
    exact world_write hlive ((w.log q).posted.length + 1) w _ ▸ .post q e hpost
  | collect q hlt => exact .collect q hlt
  | kick => exact .kick

/-- **An execution over the bytes is one over the fields.** -/
theorem exec_world {α : Type} {p : C α} {out : Outcome Empty α} (h : Exec (Arm L) p w out w') :
    Exec (Rpmsg.Arm L.setup) p (w.world L) out (w'.world L) := by
  refine h.view (world L) fun a s r s' hstep => ?_
  obtain ⟨t, hst, hsem⟩ := hstep
  exact ⟨t.world L, hst.lift (world L) fun _ _ => hostStep_world, sem_world hsem⟩

/-- Nothing is in the memory. -/
def zero : Ram := ⟨fun _ => 0, fun _ => ⟨[], [], [], []⟩, false, 0, []⟩

/-- The ARM writes a byte into one of its buffers. -/
theorem hostStep_buffer (x : UInt8) :
    HostStep echoLayout zero { zero with bytes := Function.update zero.bytes 0xD000 x } := by
  refine .write _ fun p q hlive hguard a hle hlt => Function.update_of_ne ?_ ..
  have hrings : (echoLayout.setup.vring q).used = VringId.each 0x9130 0xA130 q ∧
      (echoLayout.setup.vring q).avail = VringId.each 0x9100 0xA100 q := by
    cases q <;> exact ⟨rfl, rfl⟩
  have hnum (q : VringId) : (echoLayout.setup.vring q).num = 16 := by cases q <;> rfl
  -- nothing is posted yet, and the rings lie below the buffers
  cases p
  case availIdx a' =>
    obtain rfl : a' = _ := hguard
    simp only [Place.addr, Place.size, hrings.2] at hlt
    cases q <;> simp only [VringId.each] at hlt <;> omega
  case usedIdx u =>
    obtain rfl : u = _ := hguard
    simp only [Place.addr, Place.size, hrings.1] at hlt
    cases q <;> simp only [VringId.each] at hlt <;> omega
  case usedId u i | usedLen u i =>
    obtain rfl : u = _ := hguard
    obtain ⟨q', -, hi⟩ := hlive
    rw [hnum] at hi
    simp only [Place.addr, Place.size, hrings.1] at hlt
    cases q <;> simp only [VringId.each] at hlt <;> omega
  case availRing a' i =>
    obtain ⟨-, k, -, hk, -⟩ := hguard
    exact absurd hk (Nat.not_lt_zero k)
  all_goals first
    | exact hguard.elim
    | obtain ⟨-, e, he, -⟩ := hguard
      cases he
    | obtain ⟨e, he, -⟩ := hguard
      cases he

/-- The first entry of a used ring is filled in, while the ARM writes to a buffer. -/
theorem exec_world_addUsedBuf :
    ∃ w' : Ram, Exec (Rpmsg.Arm echoLayout.setup)
        ((PruVirtqueue.init ⟨0x9000, 16, 16, 0⟩ 16 17).addUsedBuf 0 64)
        (zero.world echoLayout) (.ret virtqueueSuccess) (w'.world echoLayout) ∧
      w'.bytes 0x9132 = 1 ∧ w'.bytes 0x9138 = 64 ∧ w'.bytes 0xD000 = 42 := by
  obtain ⟨w', hx, hbytes⟩ : ∃ w', Exec (Arm echoLayout)
      ((PruVirtqueue.init ⟨0x9000, 16, 16, 0⟩ 16 17).addUsedBuf 0 64) zero
      (.ret virtqueueSuccess) w' ∧
        w'.bytes 0x9132 = 1 ∧ w'.bytes 0x9138 = 64 ∧ w'.bytes 0xD000 = 42 :=
    ⟨_, .call (r := (0 : ℕ)) ⟨_, .single (hostStep_buffer 42), fun _ => ⟨rfl, rfl⟩⟩
      (.call (r := ()) ⟨_, .refl, fun _ => rfl⟩ (.call (r := ()) ⟨_, .refl, fun _ => rfl⟩
        (.call (r := ()) ⟨_, .refl, fun _ => rfl⟩ (.ret _ _)))), by decide, by decide, by decide⟩
  exact ⟨w', exec_world hx, hbytes⟩

/-- What is proved over the fields holds over the bytes. -/
theorem wp_world {α : Type} {p : C α} {Q : Outcome Empty α → World → Prop}
    (h : wp (Rpmsg.Arm L.setup) p Q (w.world L)) :
    wp (Arm L) p (fun out w' => Q out (w'.world L)) w := by
  rw [wp_iff_exec] at h ⊢
  exact fun out w' hx => h out _ (exec_world hx)

end Ram

end Rpmsg
