import PrussBindings.Rpmsg.Queue

/-!
# Sending and receiving while the ARM goes on

The functions of `pru_rpmsg.c` with the steps of the ARM between any two of their
accesses.

* `Idle` — the transport between two calls.
* `copyOut_spec`, `copyIn_spec` — the two directions of `memcpy`.
* `send_spec` — **what is sent is what the ARM finds in the buffer**, and what happens if
  the message is too long or there is no buffer.
* `receive_spec` — **what is received is what the ARM had posted**, and what happens if
  nothing is posted.
-/

namespace Rpmsg

open Effect

variable {S : Setup} {g : Ghost} {q : VringId} {w : World} {e : Entry} {f : Memory}

/-! ## The buffer in the hands of the PRU -/

/-- Nothing else matters than the fields of the rings, and the messages that are not in the
hands of the PRU. -/
theorem Sound.of_held {v : Vring} {taken shown : ℕ} {l : Log} {mem mem' : Memory}
    (h : Sound S v taken shown l mem) (hmem : ∀ p : Place, p.msg? = none → mem' p = mem p)
    (hmsg : ∀ (k : ℕ) (e : Entry), l.collected.length ≤ k → l.posted[k]? = some e →
      k < l.returned.length ∨ taken ≤ k → Msg.at mem' e.addr = Msg.at mem e.addr) :
    Sound S v taken shown l mem' where
  prefix_returned := h.prefix_returned
  returned_le := h.returned_le
  shown_le := h.shown_le
  taken_le := h.taken_le
  heads := h.heads
  nodup := h.nodup
  head_lt := h.head_lt
  buffer := h.buffer
  availIdx := by rw [hmem _ rfl, h.availIdx]
  entry k e hk hget := by
    rw [hmem _ rfl, hmem _ rfl, hmem _ rfl]
    exact h.entry k e hk hget
  waiting k e hk hget := by
    rw [hmsg k e (h.collected_le_taken.trans hk) hget (.inr hk), h.waiting k e hk hget]
  usedIdx := by rw [hmem _ rfl, h.usedIdx]
  usedRing k u hk hget := by
    rw [hmem _ rfl, hmem _ rfl]
    exact h.usedRing k u hk hget
  answered k u e hk hu he := by
    rw [hmsg k e hk he (.inl (List.getElem?_eq_some_iff.1 hu).1), h.answered k u e hk hu he]

/-- A field of the buffer is written. -/
theorem Held.store (h : Held S g q e f w) (hlt : (g.returned q).length < g.taken q) {p : Place}
    (hp : p.msg? = some e.addr) (v : ℕ) :
    Held S g q e (Function.update f p (v % 256 ^ p.size)) (w.store S p v) := by
  have hlog : (w.store S p v).log = w.log := World.store_log v (by rintro u i rfl; cases hp)
  have hcollected : (w.log q).collected.length ≤ (g.returned q).length := by
    rw [← h.at'.returned]
    exact (h.at'.safe.sound q).collected_le
  refine ⟨⟨⟨fun q' => ?_, ?_, ?_⟩, ?_, ?_, ?_⟩, ?_, fun p' hp' => ?_⟩
  · rw [hlog]
    refine (h.at'.safe.sound q').of_held (fun p' hp' => Function.update_of_ne ?_ ..)
      fun k e' hk hget hnot => Msg.at_update _ fun heq => ?_
    · rintro rfl
      rw [hp] at hp'
      cases hp'
    · -- another entry with this buffer would be the one in the hands of the PRU
      rw [hp] at heq
      obtain ⟨rfl, rfl⟩ := h.at'.safe.addr_inj q q' _ k e e' hcollected h.posted hk hget
        (Option.some.inj heq)
      rw [h.at'.returned] at hnot
      omega
  · rw [hlog]
    exact h.at'.safe.addr_inj
  · rw [hlog]
    exact h.at'.safe.short
  · rw [hlog]
    exact h.at'.returned
  · rw [hlog]
    exact h.at'.looks
  · exact h.at'.kicks.of_log rfl rfl (by rw [hlog]) (by rw [hlog]) rfl rfl rfl le_rfl
  · rw [Posted, hlog]
    exact h.posted
  · by_cases heq : p' = p
    · subst heq
      simp [World.store]
    · simp only [World.store, Function.update_of_ne heq]
      exact h.buffer p' hp'

theorem Held.isBuffer (h : Held S g q e f w) : S.buffer e.addr :=
  (h.at'.safe.sound q).buffer e h.outstanding

section Held

variable {α : Type} {Q : Outcome Empty α → World → Prop} {p : Place}

theorem wp_store_held {v : ℕ} {k : Unit → C α} (h : Held S g q e f w)
    (hlt : (g.returned q).length < g.taken q) (hp : p.msg? = some e.addr) (hlive : Live S p)
    (hk : ∀ w', Held S g q e (Function.update f p (v % 256 ^ p.size)) w' →
      wp (Arm S) (k ()) Q w') :
    wp (Arm S) (.call (.store p v) k) Q w :=
  wp_call_stable (stable_held S g q e f) h fun _ _ _ ht hstore =>
    hk _ (hstore hlive ▸ ht.store hlt hp v)

theorem wp_load_held {k : ℕ → C α} (h : Held S g q e f w) (hp : p.msg? = some e.addr)
    (hlive : Live S p) (hk : ∀ w', Held S g q e f w' → wp (Arm S) (k (f p)) Q w') :
    wp (Arm S) (.call (.load p) k) Q w := by
  refine wp_call_stable (stable_held S g q e f) h fun t r t' ht hload => ?_
  obtain ⟨rfl, rfl⟩ := hload hlive
  have hlook : t.look S p = t := by
    cases p <;> first | rfl | cases hp
  rw [hlook, ht.buffer p hp]
  exact hk t ht

end Held

/-! ## Copying -/

/-- A buffer after `memcpy` into it. -/
def written (f : Memory) (m : ℕ) (data : ℕ → ℕ) (i : ℕ) : ℕ → Memory
  | 0 => f
  | n + 1 => written (Function.update f (.msgData m i) (data i % 256)) m data (i + 1) n

theorem written_data (f : Memory) (m : ℕ) (data : ℕ → ℕ) (i n j : ℕ) :
    written f m data i n (.msgData m j) =
      if i ≤ j ∧ j < i + n then data j % 256 else f (.msgData m j) := by
  induction n generalizing f i with
  | zero => simp [written]
  | succ n ih =>
    rw [written, ih]
    by_cases hj : j = i
    · subst hj
      simp
    · have hne : Place.msgData m j ≠ .msgData m i := by simpa using hj
      rw [Function.update_of_ne hne]
      exact if_congr (by omega) rfl rfl

theorem copyOut_spec (data : ℕ → ℕ) {i n : ℕ} (hn : i + n ≤ rpmsgBufSize - sizeofRpmsgHdr)
    (hlt : (g.returned q).length < g.taken q) (h : Held S g q e f w) :
    wp (Arm S) (copyOut e.addr data i n) (Returning fun _ w' =>
      Held S g q e (written f e.addr data i n) w') w := by
  induction n generalizing i f w with
  | zero => exact h
  | succ n ih =>
    simp only [copyOut, Rpmsg.store, Prog.perform_bind]
    exact wp_store_held h hlt rfl ⟨h.isBuffer, by omega⟩ fun w' hw' => ih (by omega) hw'

theorem copyIn_spec {data : ℕ → ℕ} {i n : ℕ} (hn : i + n ≤ rpmsgBufSize - sizeofRpmsgHdr)
    (h : Held S g q e f w) :
    wp (Arm S) (copyIn e.addr data i n) (Returning fun r w' =>
      (r = fun j => if i ≤ j ∧ j < i + n then f (.msgData e.addr j) else data j) ∧
        Held S g q e f w') w := by
  induction n generalizing i data w with
  | zero => exact ⟨funext fun j => by rw [if_neg (by omega)], h⟩
  | succ n ih =>
    simp only [copyIn, load, Prog.perform_bind]
    refine wp_load_held h rfl ⟨h.isBuffer, by omega⟩ fun w' hw' => ?_
    refine wp_mono (Returning.mono fun r w'' => ?_) (ih (by omega) hw')
    rintro ⟨rfl, hw''⟩
    refine ⟨funext fun j => ?_, hw''⟩
    by_cases hj : j = i
    · subst hj
      simp
    · rw [Function.update_of_ne hj]
      exact if_congr (by omega) rfl rfl

/-! ## The two functions -/

/-- A buffer has been taken and returned. -/
def Ghost.exchange (g : Ghost) (q : VringId) (u : Used) : Ghost :=
  (((g.look q true).take q).count q).give q u

/-- Between two calls nothing is in the hands of the PRU. -/
structure Idle (S : Setup) (g : Ghost) (tr : PruRpmsgTransport) : Prop where
  vring0 : tr.virtqueue0.vring = S.vring .vring0
  vring1 : tr.virtqueue1.vring = S.vring .vring1
  last0 : tr.virtqueue0.lastAvailIdx = g.taken .vring0 % 2 ^ 16
  last1 : tr.virtqueue1.lastAvailIdx = g.taken .vring1 % 2 ^ 16
  returned : ∀ q, (g.returned q).length = g.taken q
  shown : ∀ q, g.shown q = g.taken q

theorem Idle.look {tr : PruRpmsgTransport} (h : Idle S g tr) (q : VringId) (found : Bool) :
    Idle S (g.look q found) tr := { h with }

@[simp] theorem Ghost.exchange_taken (g : Ghost) (q q' : VringId) (u : Used) :
    (g.exchange q u).taken q' = if q' = q then g.taken q + 1 else g.taken q' :=
  Function.update_apply ..

@[simp] theorem Ghost.exchange_shown (g : Ghost) (q q' : VringId) (u : Used) :
    (g.exchange q u).shown q' = if q' = q then g.shown q + 1 else g.shown q' :=
  Function.update_apply ..

@[simp] theorem Ghost.exchange_returned (g : Ghost) (q q' : VringId) (u : Used) :
    (g.exchange q u).returned q' = if q' = q then g.returned q ++ [u] else g.returned q' :=
  Function.update_apply ..

@[simp] theorem Ghost.look_looks (g : Ghost) (q q' : VringId) (found : Bool) :
    (g.look q found).looks q' = if q' = q then g.looks q ++ [found] else g.looks q' :=
  Function.update_apply ..

@[simp] theorem Ghost.exchange_looks (g : Ghost) (q q' : VringId) (u : Used) :
    (g.exchange q u).looks q' = if q' = q then g.looks q ++ [true] else g.looks q' :=
  Function.update_apply ..

theorem Idle.exchange0 {tr : PruRpmsgTransport} (h : Idle S g tr) (u : Used) :
    Idle S (g.exchange .vring0 u) { tr with virtqueue0 :=
      { tr.virtqueue0 with lastAvailIdx := (g.taken .vring0 + 1) % 2 ^ 16 } } where
  vring0 := h.vring0
  vring1 := h.vring1
  last0 := by simp
  last1 := by simpa using h.last1
  returned q := by cases q <;> simp [h.returned]
  shown q := by cases q <;> simp [h.shown]

theorem Idle.exchange1 {tr : PruRpmsgTransport} (h : Idle S g tr) (u : Used) :
    Idle S (g.exchange .vring1 u) { tr with virtqueue1 :=
      { tr.virtqueue1 with lastAvailIdx := (g.taken .vring1 + 1) % 2 ^ 16 } } where
  vring0 := h.vring0
  vring1 := h.vring1
  last0 := by simpa using h.last0
  last1 := by simp
  returned q := by cases q <;> simp [h.returned]
  shown q := by cases q <;> simp [h.shown]

/-- The message that `pru_rpmsg_send` makes. -/
def sentMsg (src dst : ℕ) (data : ℕ → ℕ) (len : ℕ) : Msg where
  src := src % 2 ^ 32
  dst := dst % 2 ^ 32
  reserved := 0
  flags := 0
  data := (List.range len).map fun i => data i % 256

/-- The ARM is told, unless it does not want to be. -/
theorem kick_spec {vq : PruVirtqueue} {k : ℕ} (hvring : vq.vring = S.vring q) (hw : At S g w)
    (he : Posted q k e w) :
    wp (Arm S) vq.kick (Returning fun _ w' => At S g w' ∧ Posted q k e w') w := by
  obtain ⟨id, toArm, fromArm, last, vring⟩ := vq
  simp only at hvring
  subst hvring
  simp only [PruVirtqueue.kick, load, Prog.perform_bind, Prog.pure_eq]
  have hstable := (stable_at S g).and (stable_posted S q k e)
  refine wp_call_stable hstable ⟨hw, he⟩ fun t flags t' ht hload => ?_
  obtain ⟨rfl, rfl⟩ := hload ⟨q, rfl⟩
  split
  · exact ht
  · refine wp_call_stable hstable ht fun u _ u' hu hwrite => ?_
    obtain rfl := hwrite
    exact ⟨⟨⟨hu.1.safe.sound, hu.1.safe.addr_inj, hu.1.safe.short⟩, hu.1.returned, hu.1.looks,
      hu.1.kicks.of_log rfl rfl rfl List.prefix_rfl rfl rfl rfl le_rfl⟩, hu.2⟩

/-- **What is sent is what the ARM finds in the buffer.** -/
theorem send_spec {tr : PruRpmsgTransport} (htr : Idle S g tr) (hw : At S g w) (src dst : ℕ)
    (data : ℕ → ℕ) (len : ℕ) :
    wp (Arm S) (tr.send src dst data len) (Returning fun r w' =>
      (rpmsgBufSize - sizeofRpmsgHdr < len ∧ r = (tr, rpmsgBufTooSmall) ∧ At S g w') ∨
      (len ≤ rpmsgBufSize - sizeofRpmsgHdr ∧ r = (tr, rpmsgNoBufAvailable) ∧
        At S (g.look .vring0 false) w' ∧ (w'.log .vring0).posted.length = g.taken .vring0) ∨
      (len ≤ rpmsgBufSize - sizeofRpmsgHdr ∧ r.2 = rpmsgSuccess ∧
        ∃ u : Used, u.msg = sentMsg src dst data len ∧
          Idle S (g.exchange .vring0 u) r.1 ∧ At S (g.exchange .vring0 u) w')) w := by
  rw [PruRpmsgTransport.send]
  by_cases hlen : len > rpmsgBufSize - sizeofRpmsgHdr
  · rw [if_pos hlen]
    exact .inl ⟨hlen, rfl, hw⟩
  rw [if_neg hlen]
  refine wp_bind_returning (getAvailBuf_spec htr.vring0 htr.last0 (htr.returned _) hw 0 0) ?_
  rintro r w₁ (⟨rfl, hat, hempty⟩ | ⟨e, rfl, hheld, -⟩)
  · exact .inr (.inl ⟨not_lt.1 hlen, rfl, hat, hempty⟩)
  have htaken : (((g.look .vring0 true).take .vring0).returned .vring0).length <
      ((g.look .vring0 true).take .vring0).taken .vring0 := by
    rw [Ghost.take_taken]
    exact Nat.lt_succ_of_le (htr.returned _).le
  simp only [Nat.cast_nonneg, not_lt.2, if_false]
  refine wp_bind_returning (copyOut_spec data (by omega) htaken hheld) fun _ w₂ hw₂ => ?_
  simp only [Rpmsg.store, Prog.perform_bind]
  refine wp_store_held hw₂ htaken rfl hw₂.isBuffer fun w₃ hw₃ => ?_
  refine wp_store_held hw₃ htaken rfl hw₂.isBuffer fun w₄ hw₄ => ?_
  refine wp_store_held hw₄ htaken rfl hw₂.isBuffer fun w₅ hw₅ => ?_
  refine wp_store_held hw₅ htaken rfl hw₂.isBuffer fun w₆ hw₆ => ?_
  refine wp_store_held hw₆ htaken rfl hw₂.isBuffer fun w₇ hw₇ => ?_
  refine wp_bind_returning (addUsedBuf_spec htr.vring0 hw₇ ?_ ?_ e.len) ?_
  · exact (htr.shown _).trans (htr.returned _).symm
  · rw [Ghost.take_taken]
    exact congrArg (· + 1) (htr.returned _).symm
  rintro r w₈ ⟨rfl, hw₈, hposted⟩
  rw [if_neg (by decide)]
  refine wp_bind_returning (kick_spec htr.vring0 hw₈ hposted) fun _ w₉ hw₉ => ?_
  refine .inr (.inr ⟨not_lt.1 hlen, rfl, _, ?_, htr.exchange0 _, hw₉.1⟩)
  have hlt : len % 65536 = len := by
    have : rpmsgBufSize - sizeofRpmsgHdr = 496 := rfl
    omega
  simp +contextual [Msg.at, sentMsg, Place.size, written_data, hlt]

/-- What is received of a message: the addresses are cut to 16 bits, and what is behind the
message in `data` stays there. -/
def Msg.received (m : Msg) (out : Received) : Received where
  src := m.src % 2 ^ 16
  dst := m.dst % 2 ^ 16
  data i := m.data.getD i (out.data i)
  len := m.data.length

/-- **What is received is what the ARM had posted.** -/
theorem receive_spec {tr : PruRpmsgTransport} (htr : Idle S g tr) (hw : At S g w)
    (out : Received) :
    wp (Arm S) (tr.receive out) (Returning fun r w' =>
      (r = (tr, rpmsgNoBufAvailable, out) ∧ At S (g.look .vring1 false) w' ∧
        (w'.log .vring1).posted.length = g.taken .vring1) ∨
      ∃ e : Entry, Posted .vring1 (g.taken .vring1) e w' ∧
        r.2 = (rpmsgSuccess, e.msg.received out) ∧
        Idle S (g.exchange .vring1 ⟨e.head, e.len % 2 ^ 32, e.msg⟩) r.1 ∧
        At S (g.exchange .vring1 ⟨e.head, e.len % 2 ^ 32, e.msg⟩) w') w := by
  rw [PruRpmsgTransport.receive]
  refine wp_bind_returning (getAvailBuf_spec htr.vring1 htr.last1 (htr.returned _) hw 0 0) ?_
  rintro r w₁ (⟨rfl, hat, hempty⟩ | ⟨e, rfl, hheld, hmsg⟩)
  · exact .inl ⟨rfl, hat, hempty⟩
  simp only [Nat.cast_nonneg, not_lt.2, if_false, load, Prog.perform_bind]
  -- the message is short enough for the buffer
  have hdata : e.msg.data = (List.range (w₁.mem (.msgLen e.addr))).map fun i =>
      w₁.mem (.msgData e.addr i) := hmsg ▸ rfl
  have hlen : w₁.mem (.msgLen e.addr) = e.msg.data.length := by simp [hdata]
  have hshort := hheld.at'.safe.short e (List.mem_iff_getElem?.2 ⟨_, hheld.posted⟩)
  refine wp_load_held hheld rfl hheld.isBuffer fun w₂ hw₂ => ?_
  refine wp_bind_returning (copyIn_spec (by omega) hw₂) ?_
  rintro data w₃ ⟨rfl, hw₃⟩
  refine wp_load_held hw₃ rfl hheld.isBuffer fun w₄ hw₄ => ?_
  refine wp_load_held hw₄ rfl hheld.isBuffer fun w₅ hw₅ => ?_
  refine wp_load_held hw₅ rfl hheld.isBuffer fun w₆ hw₆ => ?_
  refine wp_bind_returning (addUsedBuf_spec htr.vring1 hw₆ ?_ ?_ e.len) ?_
  · exact (htr.shown _).trans (htr.returned _).symm
  · rw [Ghost.take_taken]
    exact congrArg (· + 1) (htr.returned _).symm
  rintro r w₇ ⟨rfl, hw₇, hposted⟩
  rw [if_neg (by decide)]
  refine wp_bind_returning (kick_spec htr.vring1 hw₇ hposted) fun _ w₈ hw₈ => ?_
  rw [hmsg] at hw₈
  refine .inr ⟨e, ?_, ?_, htr.exchange1 _, hw₈.1⟩
  · rw [← htr.returned]
    exact hw₈.2
  · have hget (n j : ℕ) (f : ℕ → ℕ) :
        ((List.range n).map f).getD j (out.data j) = if j < n then f j else out.data j := by
      by_cases hj : j < n <;> simp [hj]
    simp only [← hmsg, Msg.received, Msg.at, hget, List.length_map, List.length_range,
      Nat.zero_le, true_and, Nat.zero_add]

end Rpmsg
