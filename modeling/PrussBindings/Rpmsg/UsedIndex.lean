import PrussBindings.Rpmsg.Service

/-!
# The used index runs ahead

`pru_virtqueue_add_used_buf` increments `used->idx` before it writes the entry that the
index now counts.  An ARM that goes by the index alone, as the ring is meant to be read,
can look in between.

* `World.Shows`, `EagerStep` — an ARM that collects whenever the index says so.
* `shows_iff` — between two calls of the PRU the index is right.
* `addUsedBuf_early` — **during a call the ARM can be given what was in the slot before**.
-/

namespace Rpmsg

open Effect

/-- The used index is not where the ARM left off. -/
def World.Shows (S : Setup) (w : World) (q : VringId) : Prop :=
  (w.log q).collected.length % 2 ^ 16 ≠ w.mem (.usedIdx (S.vring q).used)

/-- A step of an ARM that goes by the used index. -/
inductive EagerStep (S : Setup) : World → World → Prop where
  | host {w w' : World} (h : HostStep S w w') : EagerStep S w w'
  | collect {w : World} (q : VringId) (h : w.Shows S q) : EagerStep S w (w.collect S q)

section UsedIndex

variable {S : Setup} {g : Ghost} {q : VringId} {w : World} {e : Entry} {f : Memory}

/-- The index shows what has been counted. -/
theorem At.shows (h : At S g w) : w.Shows S q ↔ (w.log q).collected.length < g.shown q := by
  have hs := h.safe.sound q
  have hle : (w.log q).collected.length ≤ g.shown q := hs.collected_le.trans hs.returned_le
  have hposted := hs.posted_le
  have htaken := hs.taken_le
  have hshown := hs.shown_le
  have hnum := S.num_le q
  rw [World.Shows, hs.usedIdx, Ne, Counter.mod_eq_iff hle (by omega)]
  omega

/-- **Between two calls the index is right**: it shows something exactly when there is a
complete entry to be collected. -/
theorem shows_iff {tr : PruRpmsgTransport} (htr : Idle S g tr) (h : At S g w) :
    w.Shows S q ↔ (w.log q).collected.length < (w.log q).returned.length := by
  rw [h.shows, htr.shown, ← htr.returned, h.returned]

/-- What a slot of the used ring holds, and the message that goes with it. -/
def World.inSlot (S : Setup) (w : World) (q : VringId) (i : ℕ) : Used :=
  let head := w.mem (.usedId (S.vring q).used i)
  ⟨head, w.mem (.usedLen (S.vring q).used i),
    .at w.mem (w.mem (.descAddr (S.vring q).desc head))⟩

/-- **The ARM can be given what was in the slot before**: whenever it has collected all
that there was, there is an execution in which it looks before the entry is written, and
so collects the old contents of the slot instead of the buffer that is returned. -/
theorem addUsedBuf_early {vq : PruVirtqueue} (hvring : vq.vring = S.vring q)
    (hw : Held S g q e f w) (hshown : g.shown q = (g.returned q).length)
    (hcollected : (w.log q).collected.length = (g.returned q).length) (len : ℕ) :
    ∃ w', Exec (interleaved (EagerStep S) (Sem S)) (vq.addUsedBuf e.head len) w
        (.ret virtqueueSuccess) w' ∧
      (w'.log q).returned = (w.log q).returned ++ [⟨e.head, len % 2 ^ 32, .at f e.addr⟩] ∧
      (w'.log q).collected =
        (w.log q).collected ++ [w.inSlot S q ((g.returned q).length % (S.vring q).num)] := by
  obtain ⟨id, toArm, fromArm, last, vring⟩ := vq
  simp only at hvring
  subst hvring
  have hs := hw.at'.safe.sound q
  have hlt := hs.head_lt e hw.outstanding
  have hle := S.num_le q
  have hnum : int32 (S.vring q).num = (S.vring q).num := if_pos (by omega)
  have hhead : uint32 e.head = e.head := by
    rw [uint32]
    omega
  have hidx := hs.usedIdx
  rw [hshown] at hidx
  obtain ⟨-, haddr, -⟩ := hs.entry _ e (hcollected ▸ le_rfl) hw.posted
  -- the index has been written, the entry has not
  let w₁ := w.store S (.usedIdx (S.vring q).used) ((g.returned q).length % 2 ^ 16 + 1)
  have hshows : w₁.Shows S q := by
    change (w.log q).collected.length % 2 ^ 16 ≠ Function.update w.mem _ _ _
    rw [Function.update_self, hcollected]
    change _ ≠ ((g.returned q).length % 2 ^ 16 + 1) % 2 ^ 16
    omega
  let w₂ := (w₁.collect S q).store S
    (.usedId (S.vring q).used ((g.returned q).length % (S.vring q).num)) e.head
  let w₃ := w₂.store S
    (.usedLen (S.vring q).used ((g.returned q).length % (S.vring q).num)) len
  have hmem (p : Place) (hp : p ≠ .usedIdx (S.vring q).used) : w₁.mem p = w.mem p :=
    Function.update_of_ne hp ..
  have hat (m : ℕ) : Msg.at w₁.mem m = Msg.at w.mem m := Msg.at_update _ (by simp [Place.msg?])
  have hinSlot (i : ℕ) : w₁.inSlot S q i = w.inSlot S q i := by
    simp only [World.inSlot]
    rw [hmem _ (by simp), hmem _ (by simp), hmem _ (by simp), hat]
  have hw₂ : w₂.log q = { w.log q with collected := (w.log q).collected ++
      [w.inSlot S q ((g.returned q).length % (S.vring q).num)] } := by
    rw [← hinSlot, ← hcollected]
    exact Function.update_self ..
  have hmem₂ : w₂.mem = Function.update w₁.mem
      (.usedId (S.vring q).used ((g.returned q).length % (S.vring q).num)) (e.head % 2 ^ 32) := rfl
  have hid : w₂.mem (.usedId (S.vring q).used ((g.returned q).length % (S.vring q).num)) =
      e.head := by
    rw [hmem₂, Function.update_self, Nat.mod_eq_of_lt (by omega)]
  have hdesc : w₂.mem (.descAddr (S.vring q).desc e.head) = e.addr := by
    rw [hmem₂, Function.update_of_ne (by simp), hmem _ (by simp), haddr]
  have hmsg : Msg.at w₂.mem e.addr = .at f e.addr := by
    rw [hmem₂, Msg.at_update _ (by simp [Place.msg?]), hat, hw.msg]
  have hlog : w₃.log q = { w₂.log q with returned := (w₂.log q).returned ++
      [⟨w₂.mem (.usedId (S.vring q).used ((g.returned q).length % (S.vring q).num)), len % 2 ^ 32,
        .at w₂.mem (w₂.mem (.descAddr (S.vring q).desc
          (w₂.mem (.usedId (S.vring q).used ((g.returned q).length % (S.vring q).num)))))⟩] } :=
    if_pos rfl
  refine ⟨w₃, ?_, ?_, ?_⟩
  · simp only [PruVirtqueue.addUsedBuf, load, store, Prog.perform_bind, Prog.pure_eq]
    rw [hnum, if_neg (by omega)]
    refine .call ⟨w, .refl, fun _ => ⟨rfl, rfl⟩⟩ ?_
    rw [hidx, S.slot_eq, hhead]
    refine exec_call_iff.2 ⟨(), _, ⟨w, .refl, fun _ => rfl⟩, ?_⟩
    refine exec_call_iff.2 ⟨(), _, ⟨_, .single (.collect q hshows), fun _ => rfl⟩, ?_⟩
    exact exec_call_iff.2 ⟨(), _, ⟨_, .refl, fun _ => rfl⟩, .ret _ _⟩
  · rw [hlog, hw₂, hid, hdesc, hmsg]
  · rw [hlog, hw₂]

end UsedIndex

/-! ## One buffer -/

/-- The ARM has filled in the first descriptor of `vring0`. -/
def World.filled : World :=
  { World.zero with mem := Function.update (fun _ => 0) (.descAddr 0x9000 0) 0xB000 }

/-- It posts it. -/
def firstEntry : Entry := ⟨0, 0xB000, 0, ⟨0, 0, 0, 0, []⟩⟩

theorem postable_first : Postable echoLayout.setup .filled .vring0 firstEntry where
  head_lt := by decide
  head_free := List.not_mem_nil
  buffer := ⟨0, by omega, rfl⟩
  addr_free _ := List.not_mem_nil
  entry := rfl
  addr := rfl
  len := rfl
  msg := rfl
  short h := by cases h
  announced h := by cases h

/-- And the PRU has taken it. -/
theorem held_first :
    Held echoLayout.setup (Ghost.zero.take .vring0) .vring0 firstEntry
      (World.filled.post echoLayout.setup .vring0 firstEntry).mem
      (World.filled.post echoLayout.setup .vring0 firstEntry) where
  at' := by
    have hstart : Start echoLayout.setup .filled :=
      ⟨fun _ => rfl, fun _ => rfl, fun _ => rfl, rfl⟩
    exact (stable_at _ _ _ _ hstart.at (.post _ _ postable_first)).take (by decide)
  posted := rfl
  buffer _ _ := rfl

theorem addUsedBuf_early_first :
    ∃ w', Exec (interleaved (EagerStep echoLayout.setup) (Sem echoLayout.setup))
        ((PruVirtqueue.init ⟨0x9000, 16, 16, 0⟩ 16 17).addUsedBuf 0 7)
        (World.filled.post echoLayout.setup .vring0 firstEntry) (.ret virtqueueSuccess) w' ∧
      (w'.log .vring0).returned = [] ++ [⟨0, 7 % 2 ^ 32, .at
        (World.filled.post echoLayout.setup .vring0 firstEntry).mem 0xB000⟩] ∧
      (w'.log .vring0).collected = [] ++ [(World.filled.post echoLayout.setup .vring0
        firstEntry).inSlot echoLayout.setup .vring0 0] :=
  @addUsedBuf_early _ _ _ _ _ _ (.init ⟨0x9000, 16, 16, 0⟩ 16 17) rfl held_first rfl rfl 7

end Rpmsg
