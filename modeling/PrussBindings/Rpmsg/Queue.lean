import PrussBindings.Rpmsg.Host

/-!
# A virtqueue while the ARM goes on

The functions of `pru_virtqueue.c` with the steps of the ARM between any two of their
accesses.

* `Ghost`, `At` — how far the PRU has come, and what holds there.
* `Safe.countUsed`, `Safe.writeId`, `Safe.complete` — the three stores into a used ring.
* `getAvailBuf_spec` — **the next descriptor that was posted is taken, if there is one**.
* `addUsedBuf_spec` — **it is returned**.
-/

namespace Rpmsg

open Effect

/-- The firmware on top of the memory that it shares with the ARM. -/
def Arm (S : Setup) : Env Access.Res World := interleaved (HostStep S) (Sem S)

/-- How many entries the PRU has taken off each vring, to what the used index counts, what
it has returned, and what it has found when it looked; the messages it has received; whether
it is going to notice a kick, and to how many entries the ARM had kicked it at some time. -/
structure Ghost where
  taken : VringId → ℕ
  shown : VringId → ℕ
  returned : VringId → List Used
  looks : VringId → List Bool
  heard : List Msg
  alert : Bool
  floor : ℕ

namespace Ghost

/-- A look at the available index. -/
def look (g : Ghost) (q : VringId) (found : Bool) : Ghost :=
  { g with looks := Function.update g.looks q (g.looks q ++ [found]) }

/-- An entry is taken. -/
def take (g : Ghost) (q : VringId) : Ghost :=
  { g with taken := Function.update g.taken q (g.taken q + 1) }

/-- The used index counts one more. -/
def count (g : Ghost) (q : VringId) : Ghost :=
  { g with shown := Function.update g.shown q (g.shown q + 1) }

/-- An entry of the used ring is complete. -/
def give (g : Ghost) (q : VringId) (u : Used) : Ghost :=
  { g with returned := Function.update g.returned q (g.returned q ++ [u]) }

variable (g : Ghost) (q : VringId)

@[simp] theorem take_taken : (g.take q).taken q = g.taken q + 1 := Function.update_self ..

@[simp] theorem count_shown : (g.count q).shown q = g.shown q + 1 := Function.update_self ..

@[simp] theorem give_returned (u : Used) : (g.give q u).returned q = g.returned q ++ [u] :=
  Function.update_self ..

end Ghost

/-- What holds of the messages to the PRU and of the kicks. -/
structure Kicks (g : Ghost) (w : World) : Prop where
  heard : g.heard <+: (w.log .vring1).posted.map Entry.msg
  kicked_le : w.kicked ≤ (w.log .vring1).posted.length
  floor_le : g.floor ≤ w.kicked
  awake : g.alert = true → w.event = true ∨ w.kicked ≤ g.taken .vring1
  silent : (w.log .vring0).returned = [] → (w.log .vring1).posted = []

/-- What holds when the PRU has come so far. -/
structure At (S : Setup) (g : Ghost) (w : World) : Prop where
  safe : Safe S g.taken g.shown w
  returned : ∀ q, (w.log q).returned = g.returned q
  looks : ∀ q, (w.log q).looks = g.looks q
  kicks : Kicks g w

/-- The entry `k` of a vring is `e`. -/
def Posted (q : VringId) (k : ℕ) (e : Entry) (w : World) : Prop := (w.log q).posted[k]? = some e

/-! ## What a step of the ARM leaves -/

section Host

variable {S : Setup} {w w' : World}

/-- What has been posted stays so, and what the PRU does is left to it. -/
theorem HostStep.log (h : HostStep S w w') (q : VringId) :
    (w.log q).posted <+: (w'.log q).posted ∧ (w'.log q).returned = (w.log q).returned ∧
      (w'.log q).looks = (w.log q).looks := by
  cases h with
  | write mem hmem => exact ⟨List.prefix_rfl, rfl, rfl⟩
  | post q' e hpost =>
    by_cases hq : q = q'
    · subst hq
      simp [World.post]
    · simp [World.post, hq]
  | collect q' hlt =>
    by_cases hq : q = q'
    · subst hq
      simp [World.collect]
    · simp [World.collect, hq]
  | kick => exact ⟨List.prefix_rfl, rfl, rfl⟩

/-- The ARM does not take a kick back. -/
theorem HostStep.kicks {g : Ghost} (h : HostStep S w w') (hcollected :
    (w.log .vring0).collected <+: (w.log .vring0).returned) (hk : Kicks g w) : Kicks g w' := by
  obtain ⟨hposted, -, -⟩ := h.log .vring1
  obtain ⟨-, hreturned, -⟩ := h.log .vring0
  have hle := hposted.length_le
  cases h with
  | write mem hmem => exact { hk with }
  | post q e hpost =>
    refine ⟨hk.heard.trans (hposted.map _), hk.kicked_le.trans hle, hk.floor_le, hk.awake,
      fun hnone => ?_⟩
    rw [hreturned] at hnone
    cases q with
    | vring0 => exact hk.silent hnone
    | vring1 =>
      rw [hnone] at hcollected
      exact absurd (List.prefix_nil.1 hcollected) (hpost.announced rfl)
  | collect q hlt =>
    refine ⟨hk.heard.trans (hposted.map _), hk.kicked_le.trans hle, hk.floor_le, hk.awake,
      fun hnone => ?_⟩
    rw [hreturned] at hnone
    cases q <;> exact hk.silent hnone
  | kick => exact ⟨hk.heard, le_rfl, hk.floor_le.trans hk.kicked_le, fun _ => .inl rfl, hk.silent⟩

/-- What the PRU does to the memory is no matter to the kicks. -/
theorem Kicks.of_log {g g' : Ghost} (h : Kicks g w) (hevent : w'.event = w.event)
    (hkicked : w'.kicked = w.kicked) (hposted : (w'.log .vring1).posted = (w.log .vring1).posted)
    (hreturned : (w.log .vring0).returned <+: (w'.log .vring0).returned)
    (hheard : g'.heard = g.heard) (halert : g'.alert = g.alert) (hfloor : g'.floor = g.floor)
    (htaken : g.taken .vring1 ≤ g'.taken .vring1) : Kicks g' w' where
  heard := by
    rw [hheard, hposted]
    exact h.heard
  kicked_le := by
    rw [hkicked, hposted]
    exact h.kicked_le
  floor_le := by
    rw [hkicked, hfloor]
    exact h.floor_le
  awake hg := by
    rw [halert] at hg
    rw [hevent, hkicked]
    exact (h.awake hg).imp_right (·.trans htaken)
  silent hnone := by
    rw [hnone] at hreturned
    rw [hposted]
    exact h.silent (List.prefix_nil.1 hreturned)

theorem stable_posted (S : Setup) (q : VringId) (k : ℕ) (e : Entry) :
    Stable (HostStep S) (Posted q k e) := by
  intro w w' h hstep
  obtain ⟨rest, hrest⟩ := (hstep.log q).1
  rw [Posted, ← hrest, List.getElem?_append_left (List.getElem?_eq_some_iff.1 h).1]
  exact h

theorem stable_at (S : Setup) (g : Ghost) : Stable (HostStep S) (At S g) := fun _ _ h hstep =>
  { safe := h.safe.host hstep
    returned := fun q => (hstep.log q).2.1.trans (h.returned q)
    looks := fun q => (hstep.log q).2.2.trans (h.looks q)
    kicks := hstep.kicks (h.safe.sound _).prefix_returned h.kicks }

/-- What is in the hands of the PRU, with what is in its buffer. -/
structure Held (S : Setup) (g : Ghost) (q : VringId) (e : Entry) (f : Memory) (w : World) :
    Prop where
  at' : At S g w
  posted : Posted q (g.returned q).length e w
  buffer : ∀ p : Place, p.msg? = some e.addr → w.mem p = f p

variable {g : Ghost} {q : VringId} {e : Entry} {f : Memory}

theorem Held.msg (h : Held S g q e f w) : Msg.at w.mem e.addr = .at f e.addr :=
  Msg.at_congr h.buffer

theorem Held.outstanding (h : Held S g q e f w) : e ∈ (w.log q).outstanding := by
  refine Log.mem_outstanding.2 ⟨_, ?_, h.posted⟩
  rw [← h.at'.returned]
  exact (h.at'.safe.sound q).collected_le

theorem stable_held (S : Setup) (g : Ghost) (q : VringId) (e : Entry) (f : Memory) :
    Stable (HostStep S) (Held S g q e f) := by
  intro w w' h hstep
  refine ⟨stable_at S g _ _ h.at' hstep, stable_posted S q _ e _ _ h.posted hstep,
    fun p hp => ?_⟩
  cases hstep with
  | write mem hmem => exact (hmem p q (guardedBy_msg h.outstanding hp)).trans (h.buffer p hp)
  | post q' e' hpost =>
    refine (Function.update_of_ne ?_ ..).trans (h.buffer p hp)
    rintro rfl
    cases hp
  | collect q' hlt => exact h.buffer p hp
  | kick => exact h.buffer p hp

end Host

/-! ## A buffer is taken -/

theorem Setup.used_inj (S : Setup) {q q' : VringId} :
    (S.vring q).used = (S.vring q').used ↔ q = q' := by
  have := S.used_ne
  cases q <;> cases q' <;> simp_all [eq_comm]

theorem Setup.num_pos (S : Setup) (q : VringId) : 0 < (S.vring q).num :=
  S.num_eq q ▸ Nat.two_pow_pos _

theorem Setup.num_le (S : Setup) (q : VringId) : (S.vring q).num ≤ 2 ^ 15 :=
  S.num_eq q ▸ Nat.pow_le_pow_right (by omega) (S.exp_le q)

/-- The slot of a counter that has run over. -/
theorem Setup.slot_eq (S : Setup) (q : VringId) (c : ℕ) :
    slot (c % 2 ^ 16) (S.vring q).num = c % (S.vring q).num := by
  have hpos := S.num_pos q
  have hle := S.num_le q
  have hsub : sub32 (S.vring q).num 1 = (S.vring q).num - 1 := by
    rw [sub32]
    omega
  rw [slot, hsub]
  exact Counter.mod_and_pred (S.num_eq q) rfl (by have := S.exp_le q; omega)

theorem int16_of_lt {n : ℕ} (h : n < 2 ^ 15) : int16 n = n := if_pos h

theorem Sound.take {S : Setup} {v : Vring} {taken shown : ℕ} {l : Log} {mem : Memory}
    (h : Sound S v taken shown l mem) (hlt : taken < l.posted.length) :
    Sound S v (taken + 1) shown l mem :=
  { h with
    shown_le := h.shown_le.trans (Nat.le_succ _)
    taken_le := hlt
    waiting := fun k e hk => h.waiting k e (by omega) }

section GetAvailBuf

variable {S : Setup} {g : Ghost} {q : VringId} {w : World}

theorem At.take (h : At S g w) (hlt : g.taken q < (w.log q).posted.length) :
    At S (g.take q) w := by
  refine { h with
    safe := { h.safe with sound := fun q' => ?_ }
    kicks := h.kicks.of_log rfl rfl rfl List.prefix_rfl rfl rfl rfl ?_ }
  · by_cases hq : q' = q
    · subst hq
      simpa [Ghost.take] using (h.safe.sound q').take hlt
    · simpa [Ghost.take, hq] using h.safe.sound q'
  · cases q <;> simp [Ghost.take]

theorem At.look (h : At S g w) (hnone : (g.returned q).length = g.taken q) {found : Bool}
    (hfound : found = decide (g.taken q < (w.log q).posted.length)) :
    At S (g.look q found) (w.look S (.availIdx (S.vring q).avail)) := by
  have hlog (q' : VringId) : (w.look S (.availIdx (S.vring q).avail)).log q' =
      if q = q' then { w.log q' with looks := (w.log q').looks ++ [found] } else w.log q' := by
    simp only [World.look, S.avail_inj]
    split
    case isTrue hq =>
      subst hq
      rw [h.returned, hnone, hfound]
    case isFalse => rfl
  have hsame (q' : VringId) :
      ((w.look S (.availIdx (S.vring q).avail)).log q').posted = (w.log q').posted ∧
      ((w.look S (.availIdx (S.vring q).avail)).log q').returned = (w.log q').returned ∧
      ((w.look S (.availIdx (S.vring q).avail)).log q').collected = (w.log q').collected := by
    rw [hlog]
    split <;> exact ⟨rfl, rfl, rfl⟩
  refine ⟨⟨fun q' => ?_, ?_, ?_⟩, fun q' => ?_, fun q' => ?_, ?_⟩
  · have hs := h.safe.sound q'
    rw [hlog]
    split
    · exact { hs with }
    · exact hs
  · intro q₁ q₂ k₁ k₂ e₁ e₂
    rw [(hsame q₁).1, (hsame q₁).2.2, (hsame q₂).1, (hsame q₂).2.2]
    exact h.safe.addr_inj q₁ q₂ k₁ k₂ e₁ e₂
  · rw [(hsame _).1]
    exact h.safe.short
  · rw [(hsame q').2.1, h.returned]
    rfl
  · rw [hlog]
    by_cases hq : q = q'
    · subst hq
      simp [Ghost.look, h.looks]
    · simp [Ghost.look, hq, Ne.symm hq, h.looks]
  · exact h.kicks.of_log rfl rfl (hsame _).1 (by rw [(hsame _).2.1]) rfl rfl rfl le_rfl

/-- The index says whether there is something that has not been taken. -/
theorem At.availIdx_eq (h : At S g w) :
    g.taken q % 2 ^ 16 = w.mem (.availIdx (S.vring q).avail) ↔
      (w.log q).posted.length = g.taken q := by
  have hs := h.safe.sound q
  have := hs.taken_le
  have := hs.posted_le
  have := hs.collected_le_taken
  have := S.num_le q
  rw [hs.availIdx, Counter.mod_eq_iff hs.taken_le (by omega), eq_comm]

/-- **The next descriptor that was posted is taken, if there is one.** -/
theorem getAvailBuf_spec {vq : PruVirtqueue} (hvring : vq.vring = S.vring q)
    (hlast : vq.lastAvailIdx = g.taken q % 2 ^ 16) (hnone : (g.returned q).length = g.taken q)
    (hw : At S g w) (buf len : ℕ) :
    wp (Arm S) (vq.getAvailBuf buf len) (Returning fun r w' =>
      (r = (vq, ⟨virtqueueNoBufAvailable, buf, len⟩) ∧ At S (g.look q false) w' ∧
        (w'.log q).posted.length = g.taken q) ∨
      ∃ e : Entry, r = ({ vq with lastAvailIdx := (g.taken q + 1) % 2 ^ 16 },
          ⟨e.head, e.addr, e.len⟩) ∧
        Held S ((g.look q true).take q) q e w'.mem w' ∧ Msg.at w'.mem e.addr = e.msg) w := by
  obtain ⟨id, toArm, fromArm, last, vring⟩ := vq
  simp only at hvring hlast
  subst hvring hlast
  simp only [PruVirtqueue.getAvailBuf, load, Prog.perform_bind, Prog.pure_eq]
  refine wp_call_stable (stable_at S g) hw fun t idx t' ht hidx => ?_
  obtain ⟨rfl, rfl⟩ := hidx ⟨q, rfl⟩
  have hposted : ((t.look S (.availIdx (S.vring q).avail)).log q).posted = (t.log q).posted := by
    simp only [World.look]
    split <;> rfl
  by_cases hempty : (t.log q).posted.length = g.taken q
  · rw [if_pos (ht.availIdx_eq.2 hempty)]
    exact .inl ⟨rfl, ht.look hnone (by simp [hempty]), hposted ▸ hempty⟩
  · rw [if_neg (mt ht.availIdx_eq.1 hempty)]
    have hlt : g.taken q < (t.log q).posted.length :=
      lt_of_le_of_ne (ht.safe.sound q).taken_le (Ne.symm hempty)
    have ht' : At S (g.look q true) (t.look S (.availIdx (S.vring q).avail)) :=
      ht.look hnone (by simp [hlt])
    have he : Posted q (g.taken q) (t.log q).posted[g.taken q]
        (t.look S (.availIdx (S.vring q).avail)) := by
      rw [Posted, hposted]
      exact List.getElem?_eq_getElem hlt
    generalize (t.log q).posted[g.taken q] = e at he
    -- what has been posted stays so while its fields are read
    have hstable := (stable_at S (g.look q true)).and (stable_posted S q (g.taken q) e)
    have hfields {u : World} (hu : At S (g.look q true) u ∧ Posted q (g.taken q) e u) :
        e ∈ (u.log q).outstanding ∧
          u.mem (.availRing (S.vring q).avail (g.taken q % (S.vring q).num)) = e.head ∧
          u.mem (.descAddr (S.vring q).desc e.head) = e.addr ∧
          u.mem (.descLen (S.vring q).desc e.head) = e.len := by
      have hs := hu.1.safe.sound q
      exact ⟨hs.mem_outstanding le_rfl hu.2, hs.entry _ e hs.collected_le_taken hu.2⟩
    refine wp_call_stable hstable ⟨ht', he⟩ fun u entry u' hu hentry => ?_
    obtain ⟨rfl, rfl⟩ := hentry ⟨q, rfl, by
      rw [S.slot_eq]; exact Nat.mod_lt _ (S.num_pos q)⟩
    obtain ⟨hout, hring, -⟩ := hfields hu
    have hlt := (hu.1.safe.sound q).head_lt e hout
    have hle := S.num_le q
    rw [S.slot_eq, hring, int16_of_lt (by omega)]
    refine wp_call_stable hstable hu fun u₁ addr u₁' hu₁ haddr => ?_
    obtain ⟨rfl, rfl⟩ := haddr ⟨q, rfl, by omega, by omega⟩
    refine wp_call_stable hstable hu₁ fun u₂ len u₂' hu₂ hlen => ?_
    obtain ⟨rfl, rfl⟩ := hlen ⟨q, rfl, by omega, by omega⟩
    obtain ⟨-, -, haddr, -⟩ := hfields hu₁
    obtain ⟨hout, -, -, hlen⟩ := hfields hu₂
    have hs := hu₂.1.safe.sound q
    have hbuf := S.buffer_lt _ (hs.buffer e hout)
    refine .inr ⟨e, ?_, ⟨?_, ?_, fun _ _ => rfl⟩, ?_⟩
    · rw [haddr, hlen, Nat.mod_eq_of_lt hbuf, Nat.mod_add_mod]
    · exact hu₂.1.take (List.getElem?_eq_some_iff.1 hu₂.2).1
    · change Posted q (g.returned q).length e u₂'
      rw [hnone]
      exact hu₂.2
    · exact hs.waiting _ e le_rfl hu₂.2

end GetAvailBuf

/-! ## A buffer is returned -/

namespace Sound

variable {S : Setup} {v : Vring} {taken shown : ℕ} {l : Log} {mem : Memory}

/-- The used index counts one more, before there is an entry for it. -/
theorem countUsed (h : Sound S v taken shown l mem) (hlt : shown < taken) :
    Sound S v taken (shown + 1) l
      (Function.update mem (.usedIdx v.used) ((shown + 1) % 2 ^ 16)) where
  prefix_returned := h.prefix_returned
  returned_le := h.returned_le.trans (Nat.le_succ _)
  shown_le := hlt
  taken_le := h.taken_le
  heads := h.heads
  nodup := h.nodup
  head_lt := h.head_lt
  buffer := h.buffer
  availIdx := by simpa using h.availIdx
  entry := by simpa using h.entry
  waiting k e hk hget := by
    rw [Msg.at_update _ (by simp [Place.msg?]), h.waiting k e hk hget]
  usedIdx := by simp
  usedRing k u hk hget := by simpa using h.usedRing k u (by omega) hget
  answered k u e hk hu he := by
    rw [Msg.at_update _ (by simp [Place.msg?]), h.answered k u e hk hu he]

/-- The slot of the entry to come is no longer one of those that are looked at. -/
theorem writeId (h : Sound S v taken shown l mem) (hshown : shown = l.returned.length + 1) (x : ℕ) :
    Sound S v taken shown l
      (Function.update mem (.usedId v.used (l.returned.length % v.num)) x) where
  prefix_returned := h.prefix_returned
  returned_le := h.returned_le
  shown_le := h.shown_le
  taken_le := h.taken_le
  heads := h.heads
  nodup := h.nodup
  head_lt := h.head_lt
  buffer := h.buffer
  availIdx := by simpa using h.availIdx
  entry := by simpa using h.entry
  waiting k e hk hget := by
    rw [Msg.at_update _ (by simp [Place.msg?]), h.waiting k e hk hget]
  usedIdx := by simpa using h.usedIdx
  usedRing k u hk hget := by
    have hlt := (List.getElem?_eq_some_iff.1 hget).1
    have hslot : k % v.num ≠ l.returned.length % v.num := by
      rw [Ne, Counter.slot_inj (by omega) (by omega)]
      omega
    simpa [hslot] using h.usedRing k u hk hget
  answered k u e hk hu he := by
    rw [Msg.at_update _ (by simp [Place.msg?]), h.answered k u e hk hu he]

/-- The entry is complete. -/
theorem complete (h : Sound S v taken shown l mem) (hshown : shown = l.returned.length + 1)
    {e : Entry} {u : Used} (he : l.posted[l.returned.length]? = some e) (hhead : u.head = e.head)
    (hid : mem (.usedId v.used (l.returned.length % v.num)) = u.head)
    (hmsg : .at mem e.addr = u.msg) :
    Sound S v taken shown { l with returned := l.returned ++ [u] }
      (Function.update mem (.usedLen v.used (l.returned.length % v.num)) u.len) where
  prefix_returned := h.prefix_returned.trans (List.prefix_append ..)
  returned_le := by simp [hshown]
  shown_le := h.shown_le
  taken_le := h.taken_le
  heads k u' e' hu he' := by
    rcases getElem?_concat hu with hu | ⟨rfl, rfl⟩
    · exact h.heads k u' e' hu he'
    · rw [he] at he'
      cases he'
      exact hhead
  nodup := h.nodup
  head_lt := h.head_lt
  buffer := h.buffer
  availIdx := by simpa using h.availIdx
  entry := by simpa using h.entry
  waiting k e hk hget := by
    rw [Msg.at_update _ (by simp [Place.msg?]), h.waiting k e hk hget]
  usedIdx := by simpa using h.usedIdx
  usedRing k u' hk hget := by
    rcases getElem?_concat hget with hget | ⟨rfl, rfl⟩
    · have hlt := (List.getElem?_eq_some_iff.1 hget).1
      have hslot : k % v.num ≠ l.returned.length % v.num := by
        rw [Ne, Counter.slot_inj (by omega) (by omega)]
        omega
      simpa [hslot] using h.usedRing k u' hk hget
    · simpa using hid
  answered k u' e' hk hu he' := by
    rw [Msg.at_update _ (by simp [Place.msg?])]
    rcases getElem?_concat hu with hu | ⟨rfl, rfl⟩
    · exact h.answered k u' e' hk hu he'
    · rw [he] at he'
      cases he'
      exact hmsg

end Sound

/-- A change to one vring, that the ARM has no part in. -/
theorem Safe.lift {S : Setup} {taken shown taken' shown' : VringId → ℕ} {w w' : World}
    (h : Safe S taken shown w) (q : VringId)
    (hq : Sound S (S.vring q) (taken' q) (shown' q) (w'.log q) w'.mem)
    (hposted : (w'.log q).posted = (w.log q).posted)
    (hcollected : (w'.log q).collected = (w.log q).collected)
    (hother : ∀ q', q' ≠ q → taken' q' = taken q' ∧ shown' q' = shown q' ∧ w'.log q' = w.log q')
    (hmem : ∀ q', q' ≠ q → ∀ p, GuardedBy (S.vring q') (w.log q') p → w'.mem p = w.mem p) :
    Safe S taken' shown' w' := by
  have hsame (q' : VringId) : (w'.log q').posted = (w.log q').posted ∧
      (w'.log q').collected = (w.log q').collected := by
    by_cases hq' : q' = q
    · subst hq'
      exact ⟨hposted, hcollected⟩
    · rw [(hother q' hq').2.2]
      exact ⟨rfl, rfl⟩
  constructor
  case sound =>
    intro q'
    by_cases hq' : q' = q
    · subst hq'
      exact hq
    · obtain ⟨htaken, hshown, hlog⟩ := hother q' hq'
      rw [htaken, hshown, hlog]
      exact (h.sound q').of_mem (hmem q' hq')
  case addr_inj =>
    intro q₁ q₂ k₁ k₂ e₁ e₂
    rw [(hsame q₁).1, (hsame q₁).2, (hsame q₂).1, (hsame q₂).2]
    exact h.addr_inj q₁ q₂ k₁ k₂ e₁ e₂
  case short =>
    rw [(hsame _).1]
    exact h.short

/-- The used ring a field belongs to. -/
def Place.used? : Place → Option ℕ
  | .usedIdx u | .usedId u _ | .usedLen u _ => some u
  | _ => none

theorem guardedBy_used {v : Vring} {l : Log} {p : Place} {u : ℕ} (hp : p.used? = some u) :
    GuardedBy v l p ↔ u = v.used := by
  cases p <;> simp_all [Place.used?, GuardedBy]

/-- The used ring is left to the PRU. -/
theorem stable_used (S : Setup) (q : VringId) {p : Place} (hp : p.used? = some (S.vring q).used)
    (x : ℕ) : Stable (HostStep S) fun w => w.mem p = x := by
  intro w w' h hstep
  cases hstep with
  | write mem hmem => exact (hmem p q ((guardedBy_used hp).2 rfl)).trans h
  | post q' e hpost =>
    refine (Function.update_of_ne ?_ ..).trans h
    rintro rfl
    cases hp
  | collect q' hlt => exact h
  | kick => exact h

theorem World.store_log {S : Setup} {w : World} {p : Place} (v : ℕ)
    (hp : ∀ u i, p ≠ .usedLen u i) : (w.store S p v).log = w.log := by
  cases p <;> simp_all [World.store]

section AddUsedBuf

variable {S : Setup} {g : Ghost} {q : VringId} {w : World} {e : Entry} {f : Memory}

/-- A field of another used ring is not one of this vring. -/
theorem update_used {q' : VringId} (hq : q' ≠ q) {p p' : Place} {l : Log} {v : ℕ}
    (hp : p.used? = some (S.vring q).used) (hp' : GuardedBy (S.vring q') l p') :
    Function.update w.mem p v p' = w.mem p' := by
  refine Function.update_of_ne ?_ ..
  rintro rfl
  exact hq (S.used_inj.1 ((guardedBy_used hp).1 hp')).symm

theorem Held.countUsed (h : Held S g q e f w) (hlt : g.shown q < g.taken q) :
    Held S (g.count q) q e f (w.store S (.usedIdx (S.vring q).used) (g.shown q % 2 ^ 16 + 1)) := by
  have hmem : (w.store S (.usedIdx (S.vring q).used) (g.shown q % 2 ^ 16 + 1)).mem =
      Function.update w.mem (.usedIdx (S.vring q).used) ((g.shown q + 1) % 2 ^ 16) := by
    change Function.update w.mem (.usedIdx (S.vring q).used)
      ((g.shown q % 2 ^ 16 + 1) % 2 ^ 16) = _
    rw [Nat.mod_add_mod]
  refine ⟨⟨h.at'.safe.lift q ?_ rfl rfl ?_ ?_, h.at'.returned, h.at'.looks, ?_⟩,
    h.posted, ?_⟩
  · rw [hmem, Ghost.count_shown]
    exact (h.at'.safe.sound q).countUsed hlt
  · exact fun q' hq => ⟨rfl, Function.update_of_ne hq .., rfl⟩
  · exact fun q' hq p hp => hmem ▸ update_used hq rfl hp
  · exact h.at'.kicks.of_log rfl rfl rfl List.prefix_rfl rfl rfl rfl le_rfl
  · exact fun p hp => (Function.update_of_ne (by rintro rfl; cases hp) ..).trans (h.buffer p hp)

theorem Held.writeId (h : Held S g q e f w) (hshown : g.shown q = (g.returned q).length + 1)
    (x : ℕ) :
    Held S g q e f (w.store S
      (.usedId (S.vring q).used ((g.returned q).length % (S.vring q).num)) x) := by
  refine ⟨⟨h.at'.safe.lift q ?_ rfl rfl ?_ ?_, h.at'.returned, h.at'.looks, ?_⟩,
    h.posted, ?_⟩
  · have hs := (h.at'.safe.sound q).writeId (by rw [h.at'.returned, hshown])
      (x % 256 ^ (Place.usedId (S.vring q).used 0).size)
    rw [h.at'.returned] at hs
    exact hs
  · exact fun q' hq => ⟨rfl, rfl, rfl⟩
  · exact fun q' hq p hp => update_used hq rfl hp
  · exact h.at'.kicks.of_log rfl rfl rfl List.prefix_rfl rfl rfl rfl le_rfl
  · exact fun p hp => (Function.update_of_ne (by rintro rfl; cases hp) ..).trans (h.buffer p hp)

theorem Held.complete (h : Held S g q e f w) (hshown : g.shown q = (g.returned q).length + 1)
    (hid : w.mem (.usedId (S.vring q).used ((g.returned q).length % (S.vring q).num)) = e.head)
    (len : ℕ) :
    At S (g.give q ⟨e.head, len % 2 ^ 32, .at f e.addr⟩) (w.store S
      (.usedLen (S.vring q).used ((g.returned q).length % (S.vring q).num)) len) := by
  have hs := h.at'.safe.sound q
  obtain ⟨-, haddr, -⟩ := hs.entry _ e (h.at'.returned q ▸ hs.collected_le) h.posted
  have hlog (q' : VringId) : (w.store S (.usedLen (S.vring q).used
      ((g.returned q).length % (S.vring q).num)) len).log q' =
      if q = q' then { w.log q' with
        returned := (w.log q').returned ++ [⟨e.head, len % 2 ^ 32, .at f e.addr⟩] }
      else w.log q' := by
    simp only [World.store, S.used_inj]
    split
    case isTrue hq =>
      subst hq
      rw [hid, haddr, h.msg]
    case isFalse => rfl
  have hother {q' : VringId} (hq : q' ≠ q) : (w.store S (.usedLen (S.vring q).used
      ((g.returned q).length % (S.vring q).num)) len).log q' = w.log q' := by
    rw [hlog, if_neg (Ne.symm hq)]
  have hself := hlog q
  rw [if_pos rfl] at hself
  have hposted (q' : VringId) : ((w.store S (.usedLen (S.vring q).used
      ((g.returned q).length % (S.vring q).num)) len).log q').posted = (w.log q').posted := by
    rw [hlog]
    split <;> rfl
  refine ⟨h.at'.safe.lift q ?_ ?_ ?_ ?_ ?_, fun q' => ?_, fun q' => ?_, ?_⟩
  · rw [hself]
    have hposted : (w.log q).posted[(w.log q).returned.length]? = some e :=
      (h.at'.returned q).symm ▸ h.posted
    have hcomplete := hs.complete (u := ⟨e.head, len % 2 ^ 32, .at f e.addr⟩)
      (by rw [h.at'.returned, hshown]) hposted rfl (by rw [h.at'.returned]; exact hid) h.msg
    rw [h.at'.returned] at hcomplete ⊢
    exact hcomplete
  · rw [hself]
  · rw [hself]
  · exact fun q' hq => ⟨rfl, rfl, hother hq⟩
  · exact fun q' hq p hp => update_used hq rfl hp
  · by_cases hq : q' = q
    · subst hq
      rw [hself, h.at'.returned]
      simp [Ghost.give]
    · rw [hother hq, h.at'.returned]
      simp [Ghost.give, hq]
  · have hlooks := h.at'.looks q'
    rw [hlog]
    split <;> exact hlooks
  · refine h.at'.kicks.of_log rfl rfl (hposted _) ?_ rfl rfl rfl le_rfl
    rw [hlog]
    split
    · exact List.prefix_append ..
    · exact List.prefix_rfl

/-- **A buffer is returned**, with the message that is in it. -/
theorem addUsedBuf_spec {vq : PruVirtqueue} (hvring : vq.vring = S.vring q)
    (hw : Held S g q e f w) (hshown : g.shown q = (g.returned q).length)
    (htaken : g.taken q = (g.returned q).length + 1) (len : ℕ) :
    wp (Arm S) (vq.addUsedBuf e.head len) (Returning fun r w' =>
      r = virtqueueSuccess ∧ At S ((g.count q).give q ⟨e.head, len % 2 ^ 32, .at f e.addr⟩) w' ∧
        Posted q (g.returned q).length e w') w := by
  obtain ⟨id, toArm, fromArm, last, vring⟩ := vq
  simp only at hvring
  subst hvring
  have hlt := (hw.at'.safe.sound q).head_lt e hw.outstanding
  have hle := S.num_le q
  have hnum : int32 (S.vring q).num = (S.vring q).num := if_pos (by omega)
  have hhead : uint32 e.head = e.head := by
    rw [uint32]
    omega
  have hslot : Live S (.usedId (S.vring q).used
      ((g.returned q).length % (S.vring q).num)) := ⟨q, rfl, Nat.mod_lt _ (S.num_pos q)⟩
  simp only [PruVirtqueue.addUsedBuf, load, store, Prog.perform_bind, Prog.pure_eq]
  rw [hnum, if_neg (by omega)]
  refine wp_call_stable (stable_held S g q e f) hw fun t idx t' ht hidx => ?_
  obtain ⟨rfl, rfl⟩ := hidx ⟨q, rfl⟩
  have hidx := (ht.at'.safe.sound q).usedIdx
  rw [hidx, S.slot_eq, hhead, hshown]
  refine wp_call_stable (stable_held S g q e f) ht fun u _ u' hu hcount => ?_
  obtain rfl := hcount ⟨q, rfl⟩
  have hcounted := hu.countUsed (by omega)
  rw [hshown] at hcounted
  refine wp_call_stable (stable_held S _ q e f) hcounted fun u₁ _ u₁' hu₁ hid => ?_
  obtain rfl := hid hslot
  have hwritten := hu₁.writeId (by rw [Ghost.count_shown, hshown]; rfl) e.head
  have hid : (u₁.store S (.usedId (S.vring q).used ((g.returned q).length % (S.vring q).num))
      e.head).mem (.usedId (S.vring q).used ((g.returned q).length % (S.vring q).num)) =
      e.head := by
    change Function.update u₁.mem _ (e.head % 2 ^ 32) _ = e.head
    rw [Function.update_self, Nat.mod_eq_of_lt (by omega)]
  refine wp_call_stable ((stable_held S _ q e f).and (stable_used S q rfl _)) ⟨hwritten, hid⟩
    fun u₂ _ u₂' hu₂ hlen => ?_
  obtain rfl := hlen hslot
  refine ⟨rfl, hu₂.1.complete (by rw [Ghost.count_shown, hshown]; rfl) hu₂.2 len, ?_⟩
  have hposted := hu₂.1.posted
  rw [Posted] at hposted ⊢
  rw [← hposted]
  simp only [World.store]
  split <;> rfl

end AddUsedBuf

end Rpmsg
