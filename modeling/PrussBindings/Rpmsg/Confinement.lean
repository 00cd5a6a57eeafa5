import PrussBindings.Rpmsg.Service
import PrussBindings.Rpmsg.Unruly

/-!
# What the firmware never does

The programs of `Rpmsg.Firmware` beside an ARM that keeps to no rules, as long as the
lengths and the addresses that it gives are within bounds: a message longer than `payload`,
and a buffer that lies in the memory of the PRU, would have the PRU overwrite its own state.

* `InBounds`, `Kept` — what was read is within bounds, and the PRU's own memory is kept.
* `Between`, `Left` — what holds between two calls, and where a loop is left.
* `drain_left`, `poll_left`, `rounds_left`, `main_left` — the loops.
* `main_orderly` — **every descriptor is taken in turn, and each whose index is at most the
  size of the table is returned, once and in order**.
* `main_confined` — **the PRU writes to the used rings and to the buffers it was given for
  its messages, and nowhere else**.
-/

namespace Rpmsg

open Effect

/-- What was read is within bounds: no message is longer than `payload`, and no buffer that
is given to the PRU for a message lies in its own memory `own`. -/
structure InBounds (v : VringId → Vring) (own : Set ℕ) (log : Accesses) : Prop where
  lengths : ∀ m n, (⟨.load (.msgLen m), n⟩ : Call Access.Res) ∈ log → n ≤ rpmsgBufSize
  buffers : ∀ (i : ℤ) (addr : ℕ),
    (⟨.load (.descAddr (v .vring0).desc i), addr⟩ : Call Access.Res) ∈ log →
      ∀ j < rpmsgBufSize, (addr + j) % 2 ^ 32 ∉ own

/-- The PRU's own memory is kept: no field that is written lies in it, and no byte is copied
past the end of `payload`. -/
structure Kept (own : Set ℕ) (rsc : ℕ) (log : Accesses) : Prop where
  stores : ∀ p x b, (⟨.store p x, ()⟩ : Call Access.Res) ∈ log → p.addr rsc ≤ b →
    b < p.addr rsc + p.size → b % 2 ^ 32 ∉ own
  payload : ∀ m i b, (⟨.load (.msgData m i), b⟩ : Call Access.Res) ∈ log → i < rpmsgBufSize

/-- What holds between two calls. -/
structure Between (S : Setup) (toArm : ℕ) (clears : List ℕ) (tr : PruRpmsgTransport)
    (log : Accesses) : Prop where
  vring : ∀ q, (tr.virtqueue q).vring = S.vring q
  event : ∀ q, (tr.virtqueue q).toArmEvent = toArm
  orderly : ∀ q, Orderly (S.vring q) (tr.virtqueue q).lastAvailIdx log
  confined : Confined S.vring toArm clears [] log

/-- The events that a program clears. -/
def Firmware.clears {σ : Type} (fw : Firmware σ) : List ℕ :=
  fw.fromArmHost :: (fw.awaits.map Prod.snd).toList

/-- What holds wherever a loop is left. -/
def Left (S : Setup) (toArm : ℕ) (clears : List ℕ) {σ : Type} (data : ℕ → ℕ)
    (o : Outcome Empty (PruRpmsgTransport × σ × Received)) (log : Accesses) : Prop :=
  ∃ tr, Between S toArm clears tr log ∧ ∀ r, o = .ret r → r.1 = tr ∧ Filled data r.2.2.data log

section Firmware

variable {S : Setup} {σ : Type} {fw : Firmware σ} {tr tr' : PruRpmsgTransport}
  {log log' : Accesses} {toArm : ℕ} {clears : List ℕ} {data : ℕ → ℕ}

theorem Between.left_spin (h : Between S toArm clears tr log) :
    Left S toArm clears (σ := σ) data .spin log := by
  refine ⟨tr, h, ?_⟩
  rintro _ ⟨⟩

theorem Between.called {q : VringId} (h : Between S toArm clears tr log)
    (hc : Called S toArm clears q tr tr' log') : Between S toArm clears tr' (log ++ log') := by
  obtain ⟨e, hturn⟩ := hc.turn
  constructor
  case vring =>
    intro q'
    by_cases hq : q' = q
    · rw [hq, hc.vq_eq, h.vring]
    · rw [hc.same q' hq, h.vring]
  case event =>
    intro q'
    by_cases hq : q' = q
    · rw [hq, hc.vq_eq, h.event]
    · rw [hc.same q' hq, h.event]
  case orderly =>
    intro q'
    by_cases hq : q' = q
    · rw [hq]
      exact (h.orderly q).turn hturn
    · rw [hc.same q' hq]
      exact (h.orderly q').other hq hturn
  case confined => exact h.confined.append (hc.confined.mono (List.nil_subset _))

/-- An access that takes nothing and returns nothing. -/
theorem Between.access (h : Between S toArm clears tr log) {c : Call Access.Res}
    (hneutral : Neutral c.1) (hc : ∀ seen, Permitted S.vring toArm clears seen c.1) :
    Between S toArm clears tr (log ++ [c]) := by
  have hone : ∀ c' ∈ [c], Neutral c'.1 := by simpa using hneutral
  have htaken := taken_of_neutral hone
  have hgiven := given_of_neutral hone
  refine ⟨h.vring, h.event, fun q => ⟨?_, ?_, ?_⟩, h.confined.append ⟨hc _, trivial⟩⟩
  · rw [taken_append, htaken, List.append_nil, (h.orderly q).last_eq]
  · rw [taken_append, htaken, List.append_nil, (h.orderly q).slots]
  · rw [taken_append, given_append, htaken, hgiven, List.append_nil, List.append_nil,
      (h.orderly q).given_eq]

theorem Filled.append (h : Filled data data' log) : Filled data data' (log ++ log') := fun i hi =>
  let ⟨m, n, hmem, hlt⟩ := h i hi
  ⟨m, n, List.mem_append_left _ hmem, hlt⟩

theorem wp_send (h : Between S toArm clears tr log) (src dst : ℕ) (d : ℕ → ℕ) (len : ℕ) :
    wp traced (tr.send src dst d len)
      (Returning fun r log' => Between S toArm clears r.1 log' ∧ ∃ new, log' = log ++ new) log :=
  (send_called (h.vring .vring0) (h.event .vring0) src dst d len).wp fun out new hout => by
    cases out with
    | ret r => exact ⟨h.called hout, new, rfl⟩
    | raise e => exact hout
    | spin => exact hout

theorem wp_receive (h : Between S toArm clears tr log) {out : Received}
    (hdata : Filled data out.data log) :
    wp traced (tr.receive out) (Returning fun r log' =>
      Between S toArm clears r.1 log' ∧ Filled data r.2.2.data log') log :=
  (receive_called (h.vring .vring1) (h.event .vring1) out).wp fun o new hout => by
    cases o with
    | ret r =>
      refine ⟨h.called hout.1, fun i hi => ?_⟩
      by_cases hold : r.2.2.data i = out.data i
      · exact hdata.append i (hold ▸ hi)
      · obtain ⟨m, n, hmem, hlt⟩ := hout.2 i hold
        exact ⟨m, n, List.mem_append_right _ hmem, hlt⟩
    | raise e => exact hout
    | spin => exact hout

theorem awaitEvent_between {mask event : ℕ} (hevent : event ∈ clears) (k : ℕ)
    (h : Between S toArm clears tr log) (hdata : Filled data data' log) :
    wp traced (Firmware.awaitEvent mask event k) (fun _ log' =>
      Between S toArm clears tr log' ∧ Filled data data' log') log := by
  induction k generalizing log with
  | zero => exact ⟨h, hdata⟩
  | succ k ih =>
    simp only [Firmware.awaitEvent, Prog.perform_bind]
    rintro r31 _ rfl
    have hread := h.access (c := ⟨.readR31, r31⟩) trivial fun _ => trivial
    by_cases hbit : r31 &&& mask ≠ 0
    · simp only [if_pos hbit]
      rintro r _ rfl
      exact ⟨hread.access (c := ⟨.clearStatus event, r⟩) trivial fun _ => hevent,
        hdata.append.append⟩
    · simp only [if_neg hbit]
      exact ih hread hdata.append

theorem await_between (k : ℕ) (h : Between S toArm fw.clears tr log)
    (hdata : Filled data data' log) :
    wp traced (fw.await k) (fun _ log' =>
      Between S toArm fw.clears tr log' ∧ Filled data data' log') log := by
  rw [Firmware.await]
  rcases hawaits : fw.awaits with _ | ⟨mask, event⟩
  · exact ⟨h, hdata⟩
  · refine awaitEvent_between ?_ k h hdata
    rw [Firmware.clears, hawaits]
    exact List.mem_cons_of_mem _ (List.mem_singleton_self event)

theorem drain_left (k : ℕ) (h : Between S toArm fw.clears tr log) (s : σ) {out : Received}
    (hdata : Filled data out.data log) :
    wp traced (fw.drain k tr s out) (Left S toArm fw.clears data) log := by
  induction k generalizing tr s out log with
  | zero => exact h.left_spin
  | succ k ih =>
    rw [Firmware.drain]
    refine wp_bind_returning (wp_receive h hdata) ?_
    rintro ⟨tr₁, ret, out₁⟩ log₁ ⟨hbetween, hdata₁⟩
    by_cases hret : ret = rpmsgSuccess
    · simp only [if_pos hret]
      rcases fw.body s out₁ with ⟨s₁, _ | ⟨reply, len⟩⟩
      · exact ih hbetween s₁ hdata₁
      · rw [wp_bind]
        refine wp_mono (fun o log₂ => ?_) (await_between k hbetween hdata₁)
        rintro ⟨hbetween₁, hdata₂⟩
        cases o with
        | raise e => exact e.elim
        | spin => exact hbetween₁.left_spin
        | ret _ =>
          refine wp_bind_returning (wp_send hbetween₁ out₁.dst out₁.src reply len) ?_
          rintro ⟨tr₂, _⟩ _ ⟨hbetween₂, new, rfl⟩
          exact ih hbetween₂ s₁ hdata₂.append
    · simp only [if_neg hret]
      refine ⟨tr₁, hbetween, ?_⟩
      rintro _ ⟨⟩
      exact ⟨rfl, hdata₁⟩

theorem poll_left (k : ℕ) (h : Between S toArm fw.clears tr log) (s : σ) {out : Received}
    (hdata : Filled data out.data log) :
    wp traced (fw.poll k tr s out) (Left S toArm fw.clears data) log := by
  simp only [Firmware.poll, Prog.perform_bind]
  rintro r31 _ rfl
  have hread := h.access (c := ⟨.readR31, r31⟩) trivial fun _ => trivial
  by_cases hkick : r31 &&& fw.hostInt ≠ 0
  · simp only [if_pos hkick]
    rintro r _ rfl
    have hclear := hread.access (c := ⟨.clearStatus fw.fromArmHost, r⟩) trivial fun _ =>
      List.mem_cons_self ..
    exact drain_left k hclear s hdata.append.append
  · simp only [if_neg hkick]
    refine ⟨tr, hread, ?_⟩
    rintro _ ⟨⟩
    exact ⟨rfl, hdata.append⟩

theorem rounds_left (k n : ℕ) (h : Between S toArm fw.clears tr log) (s : σ) {out : Received}
    (hdata : Filled data out.data log) :
    wp traced (fw.rounds k n tr s out) (Left S toArm fw.clears data) log := by
  induction n generalizing tr s out log with
  | zero =>
    refine ⟨tr, h, ?_⟩
    rintro _ ⟨⟩
    exact ⟨rfl, hdata⟩
  | succ n ih =>
    rw [Firmware.rounds, wp_bind]
    refine wp_mono (fun o log₁ => ?_) (poll_left k h s hdata)
    rintro ⟨tr₁, hbetween, hret⟩
    cases o with
    | ret r =>
      obtain ⟨rfl, hdata₁⟩ := hret r rfl
      exact ih hbetween r.2.1 hdata₁
    | raise e => exact e.elim
    | spin => exact hbetween.left_spin

theorem awaitDriver_between (k : ℕ) (h : Between S toArm clears tr log) :
    wp traced (Firmware.awaitDriver k) (fun _ log' => Between S toArm clears tr log') log := by
  induction k generalizing log with
  | zero => exact h
  | succ k ih =>
    simp only [Firmware.awaitDriver, load, Prog.perform_bind]
    rintro status _ rfl
    have hload := h.access (c := ⟨.load .status, status⟩) trivial fun _ => trivial
    by_cases hok : status &&& virtioConfigSDriverOk ≠ 0
    · simp only [if_pos hok]
      exact hload
    · simp only [if_neg hok]
      exact ih hload

theorem announce_between (k : ℕ) (h : Between S toArm clears tr log) :
    wp traced (fw.announce k tr) (fun o log' => ∃ tr', Between S toArm clears tr' log' ∧
      ∀ r, o = .ret r → r = tr') log := by
  induction k generalizing tr log with
  | zero =>
    refine ⟨tr, h, ?_⟩
    rintro _ ⟨⟩
  | succ k ih =>
    rw [Firmware.announce, PruRpmsgTransport.channel]
    refine wp_bind_returning (wp_send h _ 53 _ sizeofRpmsgNsMsg) ?_
    rintro ⟨tr₁, ret⟩ _ ⟨hbetween, -⟩
    by_cases hret : ret = rpmsgSuccess
    · simp only [if_pos hret]
      exact ⟨tr₁, hbetween, fun _ h => (Outcome.ret.inj h).symm⟩
    · simp only [if_neg hret]
      exact ih hbetween

/-- The transport as `pru_rpmsg_init` leaves it. -/
theorem between_init {vring0 vring1 : FwRscVdevVring} (fromArm : ℕ)
    (h0 : S.vring .vring0 = .init vring0.num vring0.da (vring0.align.setWidth 64))
    (h1 : S.vring .vring1 = .init vring1.num vring1.da (vring1.align.setWidth 64)) :
    Between S toArm clears
      ⟨.init vring0 toArm fromArm, .init vring1 toArm fromArm⟩ [] := by
  refine ⟨fun q => ?_, fun q => ?_, fun q => ?_, trivial⟩
  · cases q with
    | vring0 => exact h0.symm
    | vring1 => exact h1.symm
  · cases q <;> rfl
  · cases q <;> exact ⟨rfl, rfl, rfl⟩

theorem boot_between {vring0 vring1 : FwRscVdevVring}
    (hto : minValidEvent ≤ fw.toArmHost ∧ fw.toArmHost ≤ maxValidEvent)
    (hfrom : minValidEvent ≤ fw.fromArmHost ∧ fw.fromArmHost ≤ maxValidEvent)
    (h0 : S.vring .vring0 = .init vring0.num vring0.da (vring0.align.setWidth 64))
    (h1 : S.vring .vring1 = .init vring1.num vring1.da (vring1.align.setWidth 64)) (k : ℕ) :
    wp traced (fw.boot tr vring0 vring1 k) (fun o log' =>
      ∃ tr', Between S fw.toArmHost fw.clears tr' log' ∧ ∀ r, o = .ret r → r = tr') [] := by
  have hinit : tr.init vring0 vring1 fw.toArmHost fw.fromArmHost =
      (⟨.init vring0 fw.toArmHost fw.fromArmHost, .init vring1 fw.toArmHost fw.fromArmHost⟩,
        rpmsgSuccess) := by
    rw [PruRpmsgTransport.init, if_neg (by omega), if_neg (by omega)]
  have hstart : Between S fw.toArmHost fw.clears
      ⟨.init vring0 fw.toArmHost fw.fromArmHost, .init vring1 fw.toArmHost fw.fromArmHost⟩ [] :=
    between_init _ h0 h1
  simp only [Firmware.boot, hinit, Prog.perform_bind]
  rintro r _ rfl
  have hclear := hstart.access (c := ⟨.clearStatus fw.fromArmHost, r⟩) trivial fun _ =>
      List.mem_cons_self ..
  rw [wp_bind]
  refine wp_mono (fun o log₁ hawait => ?_) (awaitDriver_between k hclear)
  cases o with
  | ret _ => exact announce_between k hawait
  | raise e => exact e.elim
  | spin =>
    refine ⟨_, hawait, ?_⟩
    rintro _ ⟨⟩

theorem main_left {vring0 vring1 : FwRscVdevVring}
    (hto : minValidEvent ≤ fw.toArmHost ∧ fw.toArmHost ≤ maxValidEvent)
    (hfrom : minValidEvent ≤ fw.fromArmHost ∧ fw.fromArmHost ≤ maxValidEvent)
    (h0 : S.vring .vring0 = .init vring0.num vring0.da (vring0.align.setWidth 64))
    (h1 : S.vring .vring1 = .init vring1.num vring1.da (vring1.align.setWidth 64))
    (s : σ) (out : Received) (k n : ℕ) :
    wp traced (fw.main tr vring0 vring1 s out k n)
      (Left S fw.toArmHost fw.clears out.data) [] := by
  rw [Firmware.main, wp_bind]
  refine wp_mono (fun o log₁ => ?_) (boot_between hto hfrom h0 h1 k)
  rintro ⟨tr₁, hbetween, hret⟩
  cases o with
  | ret r =>
    obtain rfl := hret r rfl
    exact rounds_left k n hbetween s fun i hi => absurd rfl hi
  | raise e => exact e.elim
  | spin => exact hbetween.left_spin

/-- The bytes of a field that may be written. -/
theorem Writable.bytes {seen : Accesses} {p : Place} (h : Writable S.vring seen p) (rsc : ℕ) {b : ℕ}
    (hb : p.addr rsc ≤ b) (hlt : b < p.addr rsc + p.size) :
    (∃ q, (S.vring q).used ≤ b ∧ b < (S.vring q).used + 4 + 8 * (S.vring q).num) ∨
      ∃ (i : ℤ) (addr : ℕ),
        (⟨.load (.descAddr (S.vring .vring0).desc i), addr⟩ : Call Access.Res) ∈ seen ∧
          addr % 2 ^ 32 ≤ b ∧ b < addr % 2 ^ 32 + rpmsgBufSize := by
  have hbuffer {m : ℕ} (hm : ForMessage (S.vring .vring0) seen m) (hle : m ≤ b)
      (hlt : b < m + 512) : ∃ (i : ℤ) (addr : ℕ),
        (⟨.load (.descAddr (S.vring .vring0).desc i), addr⟩ : Call Access.Res) ∈ seen ∧
          addr % 2 ^ 32 ≤ b ∧ b < addr % 2 ^ 32 + rpmsgBufSize := by
    obtain ⟨i, addr, hmem, rfl⟩ := hm
    exact ⟨i, addr, hmem, hle, hlt⟩
  cases p
  case usedIdx u =>
    obtain ⟨q, rfl⟩ := h
    simp only [Place.addr, Place.size] at hb hlt
    exact .inl ⟨q, by omega, by omega⟩
  case usedId u i =>
    obtain ⟨q, rfl, hi⟩ := h
    simp only [Place.addr, Place.size] at hb hlt
    exact .inl ⟨q, by omega, by omega⟩
  case usedLen u i =>
    obtain ⟨q, rfl, hi⟩ := h
    simp only [Place.addr, Place.size] at hb hlt
    exact .inl ⟨q, by omega, by omega⟩
  case msgData m i =>
    have hi : i < 496 := h.2
    simp only [Place.addr, Place.size] at hb hlt
    exact .inr (hbuffer h.1 (by omega) (by omega))
  all_goals first
    | exact h.elim
    | simp only [Place.addr, Place.size] at hb hlt
      exact .inr (hbuffer h (by omega) (by omega))

/-- A confined run keeps the PRU's own memory, as long as what it reads is within bounds. -/
theorem Confined.kept {own : Set ℕ} {rsc : ℕ}
    (hown : ∀ q, ∀ j < 4 + 8 * (S.vring q).num, ((S.vring q).used + j) % 2 ^ 32 ∉ own)
    (h : Confined S.vring toArm clears [] log) (hbounds : InBounds S.vring own log) :
    Kept own rsc log := by
  constructor
  case stores =>
    intro p x b hmem hb hlt
    obtain ⟨seen, rest, hlog⟩ := List.append_of_mem hmem
    rw [hlog] at h
    obtain ⟨q, hle, hring⟩ | ⟨i, addr, haddr, hle, hbuffer⟩ :=
      Writable.bytes h.permitted rsc hb hlt
    · have hout := hown q (b - (S.vring q).used) (by omega)
      rwa [Nat.add_sub_cancel' hle] at hout
    · have hseen : (⟨.load (.descAddr (S.vring .vring0).desc i), addr⟩ : Call Access.Res) ∈ log :=
        hlog ▸ List.mem_append_left _ haddr
      have hout := hbounds.buffers i addr hseen (b - addr % 2 ^ 32) (by omega)
      rwa [← Nat.mod_add_mod, Nat.add_sub_cancel' hle] at hout
  case payload =>
    intro m i b hmem
    obtain ⟨seen, rest, hlog⟩ := List.append_of_mem hmem
    rw [hlog] at h
    obtain ⟨n, hlen, hi⟩ := h.permitted
    exact hi.trans_le (hbounds.lengths m n (hlog ▸ List.mem_append_left _ hlen))

/-- **Every descriptor is taken in turn, and returned if its index is at most the size of the
table**, once, in the order in which they were taken, and no other, whatever the ARM does, as
long as the lengths and addresses that the PRU reads leave its own memory alone. -/
theorem main_orderly {vring0 vring1 : FwRscVdevVring} {own : Set ℕ}
    (hown : ∀ q, ∀ j < 4 + 8 * (S.vring q).num, ((S.vring q).used + j) % 2 ^ 32 ∉ own)
    (hto : minValidEvent ≤ fw.toArmHost ∧ fw.toArmHost ≤ maxValidEvent)
    (hfrom : minValidEvent ≤ fw.fromArmHost ∧ fw.fromArmHost ≤ maxValidEvent)
    (h0 : S.vring .vring0 = .init vring0.num vring0.da (vring0.align.setWidth 64))
    (h1 : S.vring .vring1 = .init vring1.num vring1.da (vring1.align.setWidth 64))
    (tr : PruRpmsgTransport) (s : σ) (out : Received) (k n rsc : ℕ) (q : VringId) :
    wp traced (fw.main tr vring0 vring1 s out k n) (fun _ log => InBounds S.vring own log →
      Kept own rsc log ∧
        (taken (S.vring q).avail log).map Prod.fst =
          (List.range (taken (S.vring q).avail log).length).map (· % (S.vring q).num) ∧
        given (S.vring q).used log =
          returns (S.vring q) ((taken (S.vring q).avail log).map Prod.snd)) [] := by
  refine wp_mono (fun o log => ?_) (main_left hto hfrom h0 h1 s out k n)
  rintro ⟨tr₁, hbetween, -⟩ hbounds
  exact ⟨hbetween.confined.kept hown hbounds, (hbetween.orderly q).slots,
    (hbetween.orderly q).given_eq⟩

/-- The lower half of the data memory of a PRU, where its stack and its variables are. -/
def lowMemory : Set ℕ := {b | b < 0x1000}

theorem used_not_lowMemory (q : VringId) : ∀ j < 4 + 8 * (echoLayout.setup.vring q).num,
    ((echoLayout.setup.vring q).used + j) % 2 ^ 32 ∉ lowMemory := by
  have hused : (echoLayout.setup.vring q).used = VringId.each 0x9130 0xA130 q ∧
      (echoLayout.setup.vring q).num = 16 := by
    cases q <;> exact ⟨rfl, rfl⟩
  intro j hj hlow
  have hlt : ((echoLayout.setup.vring q).used + j) % 2 ^ 32 < 0x1000 := hlow
  rw [hused.2] at hj
  rw [hused.1] at hlt
  cases q <;> simp only [VringId.each] at hlt <;> omega

theorem main_orderly_echo :
    wp traced ((rpmsgEcho fun _ => 0).main
      ⟨.init ⟨0, 0, 0, 0⟩ 0 0, .init ⟨0, 0, 0, 0⟩ 0 0⟩
      ⟨0x9000, 16, 16, 0⟩ ⟨0xA000, 16, 16, 1⟩ () ⟨0, 0, fun _ => 0, 0⟩ 9 9) (fun _ log =>
        InBounds echoLayout.setup.vring lowMemory log →
          Kept lowMemory 0x1000 log ∧
            (taken (echoLayout.setup.vring .vring1).avail log).map Prod.fst =
              (List.range (taken (echoLayout.setup.vring .vring1).avail log).length).map
                (· % (echoLayout.setup.vring .vring1).num) ∧
            given (echoLayout.setup.vring .vring1).used log =
              returns (echoLayout.setup.vring .vring1)
                ((taken (echoLayout.setup.vring .vring1).avail log).map Prod.snd)) [] :=
  main_orderly used_not_lowMemory (by decide) (by decide) rfl rfl _ _ _ 9 9 0x1000 .vring1

/-- **The PRU writes to the used rings, and to the buffers that it was given for its
messages, and nowhere else**, whatever the ARM does, as long as the lengths and addresses that
it reads leave its own memory alone; it raises no other event than its own and clears only
those it waits for, and its own `payload` is written no further than a length in a message
says. -/
theorem main_confined {vring0 vring1 : FwRscVdevVring} {own : Set ℕ}
    (hown : ∀ q, ∀ j < 4 + 8 * (S.vring q).num, ((S.vring q).used + j) % 2 ^ 32 ∉ own)
    (hto : minValidEvent ≤ fw.toArmHost ∧ fw.toArmHost ≤ maxValidEvent)
    (hfrom : minValidEvent ≤ fw.fromArmHost ∧ fw.fromArmHost ≤ maxValidEvent)
    (h0 : S.vring .vring0 = .init vring0.num vring0.da (vring0.align.setWidth 64))
    (h1 : S.vring .vring1 = .init vring1.num vring1.da (vring1.align.setWidth 64))
    (tr : PruRpmsgTransport) (s : σ) (out : Received) (k n rsc : ℕ) :
    wp traced (fw.main tr vring0 vring1 s out k n) (fun o log => InBounds S.vring own log →
      Kept own rsc log ∧
      (∀ (seen rest : Accesses) p x b, log = seen ++ ⟨.store p x, ()⟩ :: rest →
        p.addr rsc ≤ b → b < p.addr rsc + p.size →
        (∃ q, (S.vring q).used ≤ b ∧ b < (S.vring q).used + 4 + 8 * (S.vring q).num) ∨
          ∃ (i : ℤ) (addr : ℕ),
            (⟨.load (.descAddr (S.vring .vring0).desc i), addr⟩ : Call Access.Res) ∈ seen ∧
              addr % 2 ^ 32 ≤ b ∧ b < addr % 2 ^ 32 + rpmsgBufSize) ∧
      (∀ x, (⟨.writeR31 x, ()⟩ : Call Access.Res) ∈ log →
        x = intEnable ||| (fw.toArmHost - intOffset)) ∧
      (∀ event, (⟨.clearStatus event, ()⟩ : Call Access.Res) ∈ log → event ∈ fw.clears) ∧
      ∀ tr' s' out', o = .ret (tr', s', out') → ∀ i, out'.data i ≠ out.data i →
        ∃ m len, (⟨.load (.msgLen m), len⟩ : Call Access.Res) ∈ log ∧ i < len ∧
          len ≤ rpmsgBufSize) [] := by
  refine wp_mono (fun o log => ?_) (main_left hto hfrom h0 h1 s out k n)
  rintro ⟨tr₁, hbetween, hret⟩ hbounds
  refine ⟨hbetween.confined.kept hown hbounds, fun seen rest p x b hlog hb hlt => ?_,
    fun x hx => ?_, fun event hevent => ?_,
    fun tr' s' out' ho i hi => ?_⟩
  · have hconfined := hbetween.confined
    rw [hlog] at hconfined
    exact Writable.bytes hconfined.permitted rsc hb hlt
  · obtain ⟨seen, rest, hlog⟩ := List.append_of_mem hx
    have hconfined := hbetween.confined
    rw [hlog] at hconfined
    have hevent : x = intEnable ||| sub32 fw.toArmHost intOffset := hconfined.permitted
    have hsub : sub32 fw.toArmHost intOffset = fw.toArmHost - intOffset := by
      have hmin : minValidEvent = 16 := rfl
      have hmax : maxValidEvent = 31 := rfl
      have hoffset : intOffset = 16 := rfl
      rw [sub32]
      omega
    rw [hevent, hsub]
  · obtain ⟨seen, rest, hlog⟩ := List.append_of_mem hevent
    have hconfined := hbetween.confined
    rw [hlog] at hconfined
    exact hconfined.permitted
  · obtain ⟨m, len, hlen, hlt⟩ := (hret _ ho).2 i hi
    exact ⟨m, len, hlen, hlt, hbounds.lengths m len hlen⟩

theorem main_confined_echo :
    wp traced ((rpmsgEcho fun _ => 0).main ⟨.init ⟨0, 0, 0, 0⟩ 0 0, .init ⟨0, 0, 0, 0⟩ 0 0⟩
      ⟨0x9000, 16, 16, 0⟩ ⟨0xA000, 16, 16, 1⟩ () ⟨0, 0, fun _ => 0, 0⟩ 9 9) (fun o log =>
        InBounds echoLayout.setup.vring lowMemory log → Kept lowMemory 0x1000 log ∧
        (∀ (seen rest : Accesses) p x b, log = seen ++ ⟨.store p x, ()⟩ :: rest →
          p.addr 0x1000 ≤ b → b < p.addr 0x1000 + p.size →
          (∃ q, (echoLayout.setup.vring q).used ≤ b ∧
            b < (echoLayout.setup.vring q).used + 4 + 8 * (echoLayout.setup.vring q).num) ∨
            ∃ (i : ℤ) (addr : ℕ),
              (⟨.load (.descAddr (echoLayout.setup.vring .vring0).desc i), addr⟩ :
                Call Access.Res) ∈ seen ∧
                addr % 2 ^ 32 ≤ b ∧ b < addr % 2 ^ 32 + rpmsgBufSize) ∧
        (∀ x, (⟨.writeR31 x, ()⟩ : Call Access.Res) ∈ log →
          x = intEnable ||| (16 - intOffset)) ∧
        (∀ event, (⟨.clearStatus event, ()⟩ : Call Access.Res) ∈ log → event ∈ [17]) ∧
        ∀ tr' s' out', o = .ret (tr', s', out') → ∀ i, out'.data i ≠ 0 →
          ∃ m len, (⟨.load (.msgLen m), len⟩ : Call Access.Res) ∈ log ∧ i < len ∧
            len ≤ rpmsgBufSize) [] :=
  main_confined used_not_lowMemory (by decide) (by decide) rfl rfl _ _ _ 9 9 0x1000

end Firmware

end Rpmsg
