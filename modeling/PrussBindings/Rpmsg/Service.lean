import Mathlib.Data.Nat.Bitwise
import PrussBindings.Rpmsg.Firmware
import PrussBindings.Rpmsg.Layout

/-!
# What the firmware does for the messages

The programs of `Rpmsg.Firmware` from their beginning on, with the steps of the ARM between
any two of their accesses.

* `picked` — the answers for which there was a buffer.
* `Serving`, `CutShort` — what holds at the head of a loop, and inside; `drain_spec`,
  `poll_spec`, `rounds_spec`.
* `Start`, `boot_spec` — the beginning.
* `main_spec` — **every message is received once and in order, and its answer is sent if
  there is a buffer for it**.
* `noticed` — **a round receives everything for which the ARM had kicked the PRU**.
-/

namespace Rpmsg

open Effect

/-- The items that a list of flags picks. -/
def picked {α : Type} (l : List α) (bs : List Bool) : List α :=
  ((l.zip bs).filter Prod.snd).map Prod.fst

theorem picked_concat {α : Type} {l : List α} {bs : List Bool} (h : bs.length = l.length) (a : α)
    (b : Bool) : picked (l ++ [a]) (bs ++ [b]) = picked l bs ++ if b then [a] else [] := by
  rw [picked, List.zip_append h.symm, List.filter_append, List.map_append]
  cases b <;> rfl

/-- What is behind the flags is not picked. -/
theorem picked_append {α : Type} {l : List α} {bs : List Bool} (h : bs.length = l.length)
    (l' : List α) : picked (l ++ l') bs = picked l bs := by
  have hzip : (l ++ l').zip (bs ++ []) = l.zip bs ++ l'.zip [] := List.zip_append h.symm
  rw [List.append_nil, List.zip_nil_right, List.append_nil] at hzip
  rw [picked, hzip]
  rfl

variable {σ : Type} {S : Setup} {fw : Firmware σ}

/-- A program that does not try to send more than a buffer holds. -/
def Firmware.Short (fw : Firmware σ) : Prop :=
  ∀ s (out : Received) reply, out.len ≤ rpmsgBufSize - sizeofRpmsgHdr →
    (fw.body s out).2 = some reply → reply.2 ≤ rpmsgBufSize - sizeofRpmsgHdr

/-- The program and the interrupt controller mean the same events, and what is waited for is
not the ARM. -/
structure Firmware.Fits (fw : Firmware σ) (S : Setup) : Prop where
  hostInt : fw.hostInt = 2 ^ S.hostBit
  fromArm : fw.fromArmHost = S.fromArmEvent
  toArm_valid : minValidEvent ≤ fw.toArmHost ∧ fw.toArmHost ≤ maxValidEvent
  fromArm_valid : minValidEvent ≤ fw.fromArmHost ∧ fw.fromArmHost ≤ maxValidEvent
  short : fw.Short
  awaits : ∀ mask event, fw.awaits = some (mask, event) → event ≠ S.fromArmEvent

/-- All answers but the last `late` have been sent, as far as there were buffers: `ann` has
been sent before the loop, and `before` was found then. -/
def Answered (fw : Firmware σ) (x₀ : σ × Received) (ann : List Msg) (before : List Bool)
    (g : Ghost) (late : ℕ) : Prop :=
  ∃ bs : List Bool, g.looks .vring0 = before ++ bs ∧
    bs.length + late = (fw.answers x₀ g.heard).length ∧
    (g.returned .vring0).map Used.msg = ann ++ picked (fw.answers x₀ g.heard) bs

/-- The head of a loop. -/
structure Serving (S : Setup) (fw : Firmware σ) (x₀ : σ × Received) (ann : List Msg)
    (before : List Bool) (g : Ghost) (tr : PruRpmsgTransport) (x : σ × Received) : Prop where
  idle : Idle S g tr
  vars : x = fw.after x₀ g.heard
  received : (g.returned .vring1).map Used.msg = g.heard
  answered : Answered fw x₀ ann before g 0

/-- The loop is not left: it goes on, or waits before an answer. -/
structure CutShort (fw : Firmware σ) (x₀ : σ × Received) (ann : List Msg)
    (before : List Bool) (g : Ghost) : Prop where
  received : (g.returned .vring1).map Used.msg = g.heard
  answered : Answered fw x₀ ann before g 0 ∨ fw.awaits ≠ none ∧ Answered fw x₀ ann before g 1

/-- A message is received. -/
theorem At.hear {g : Ghost} {w : World} {e : Entry} (h : At S g w)
    (he : Posted .vring1 g.heard.length e w) :
    At S { g with heard := g.heard ++ [e.msg] } w := by
  refine ⟨h.safe, h.returned, h.looks, { h.kicks with heard := ?_ }⟩
  obtain ⟨rest, hrest⟩ := h.kicks.heard
  have hget : ((w.log .vring1).posted.map Entry.msg)[g.heard.length]? = some e.msg := by
    rw [List.getElem?_map, he, Option.map_some]
  rw [← hrest, List.getElem?_append_right le_rfl, Nat.sub_self] at hget
  cases rest with
  | nil => cases hget
  | cons m rest =>
    have hm : m = e.msg := by simpa using hget
    exact ⟨rest, by rw [← hrest, hm, List.append_assoc, List.singleton_append]⟩

section Drain

variable {x₀ : σ × Received} {ann : List Msg} {before : List Bool} {g : Ghost}
  {tr : PruRpmsgTransport} {x : σ × Received} {w : World}

theorem Serving.cut (h : Serving S fw x₀ ann before g tr x) : CutShort fw x₀ ann before g :=
  ⟨h.received, .inl h.answered⟩

/-- The message has been received, and its answer has to wait. -/
theorem Serving.wait (h : Serving S fw x₀ ann before g tr x) {m a : Msg} {g' : Ghost}
    (hheard : g'.heard = g.heard ++ [m])
    (hreceived : (g'.returned .vring1).map Used.msg = (g.returned .vring1).map Used.msg ++ [m])
    (hlooks : g'.looks .vring0 = g.looks .vring0) (hsent : g'.returned .vring0 = g.returned .vring0)
    (hanswer : (fw.step x m).2 = some a) (hawaits : fw.awaits ≠ none) :
    CutShort fw x₀ ann before g' := by
  obtain ⟨bs, hbs, hlen, hreturned⟩ := h.answered
  have hlen' : bs.length = (fw.answers x₀ g.heard).length := hlen
  have hvars := h.vars
  refine ⟨by rw [hreceived, hheard, h.received], .inr ⟨hawaits, bs, hlooks.trans hbs, ?_, ?_⟩⟩
  · rw [hheard, Firmware.answers_append, ← hvars, hanswer, List.length_append, hlen']
    rfl
  · rw [hsent, hreturned, hheard, Firmware.answers_append, picked_append hlen']

/-- The body of the loop is done with a message. -/
theorem Serving.next (h : Serving S fw x₀ ann before g tr x) {m : Msg} {g' : Ghost}
    {tr' : PruRpmsgTransport} (hidle : Idle S g' tr') (hheard : g'.heard = g.heard ++ [m])
    (hreceived : (g'.returned .vring1).map Used.msg = (g.returned .vring1).map Used.msg ++ [m])
    (hanswer : (fw.step x m).2 = none ∧ g'.looks .vring0 = g.looks .vring0 ∧
        (g'.returned .vring0).map Used.msg = (g.returned .vring0).map Used.msg ∨
      ∃ a b, (fw.step x m).2 = some a ∧ g'.looks .vring0 = g.looks .vring0 ++ [b] ∧
        (g'.returned .vring0).map Used.msg =
          (g.returned .vring0).map Used.msg ++ if b then [a] else []) :
    Serving S fw x₀ ann before g' tr' (fw.step x m).1 := by
  obtain ⟨bs, hlooks, hlen, hsent⟩ := h.answered
  have hlen : bs.length = (fw.answers x₀ g.heard).length := hlen
  have hvars := h.vars
  refine ⟨hidle, by rw [hheard, Firmware.after_append, hvars],
    by rw [hreceived, hheard, h.received], ?_⟩
  rw [Answered, hheard, Firmware.answers_append, ← hvars]
  rcases hanswer with ⟨hnone, hlooks', hsent'⟩ | ⟨a, b, hsome, hlooks', hsent'⟩
  · rw [hnone]
    exact ⟨bs, hlooks'.trans hlooks, by simpa using hlen, by simpa using hsent'.trans hsent⟩
  · rw [hsome]
    refine ⟨bs ++ [b], ?_, by simpa using hlen, ?_⟩
    · rw [hlooks', hlooks, List.append_assoc]
    · rw [hsent', hsent, Option.toList_some, picked_concat hlen, List.append_assoc]

/-- The ARM has nothing to do with what is waited for. -/
theorem awaitEvent_spec {mask event : ℕ} (hevent : event ≠ S.fromArmEvent) (k : ℕ) (hw : At S g w) :
    wp (Arm S) (Firmware.awaitEvent mask event k)
      (fun o w' => At S g w' ∧ (o = .spin ∨ o = .ret ())) w := by
  induction k generalizing w with
  | zero => exact ⟨hw, .inl rfl⟩
  | succ k ih =>
    simp only [Firmware.awaitEvent, Prog.perform_bind]
    refine wp_call_stable (stable_at S g) hw fun t r t' ht hread => ?_
    obtain ⟨-, rfl⟩ := hread
    split
    · refine wp_call_stable (stable_at S g) ht fun u _ u' hu hclear => ?_
      obtain rfl := hclear
      exact ⟨by rwa [if_neg hevent], .inr rfl⟩
    · exact ih ht

theorem await_spec (hfw : fw.Fits S) (k : ℕ) (hw : At S g w) :
    wp (Arm S) (fw.await k)
      (fun o w' => At S g w' ∧ (o = .spin ∧ fw.awaits ≠ none ∨ o = .ret ())) w := by
  rw [Firmware.await]
  rcases hawaits : fw.awaits with _ | ⟨mask, event⟩
  · exact ⟨hw, .inr rfl⟩
  · refine wp_mono (fun o w' => ?_) (awaitEvent_spec (hfw.awaits mask event hawaits) k hw)
    rintro ⟨hat, rfl | rfl⟩
    · exact ⟨hat, .inl ⟨rfl, nofun⟩⟩
    · exact ⟨hat, .inr rfl⟩

/-- What there is is received, until nothing is left; only the bound `k` keeps the loop from
going on. -/
theorem drain_spec (hfw : fw.Fits S) (k : ℕ) (h : Serving S fw x₀ ann before g tr x)
    (hw : At S g w) :
    wp (Arm S) (fw.drain k tr x.1 x.2) (fun o w' => ∃ g', At S g' w' ∧
      g'.alert = g.alert ∧ g'.floor = g.floor ∧
      (o = .spin ∧ CutShort fw x₀ ann before g' ∨
        ∃ tr' x', o = .ret (tr', x') ∧ Serving S fw x₀ ann before g' tr' x' ∧
          (w'.log .vring1).posted.length = g'.taken .vring1)) w := by
  induction k generalizing g tr x w with
  | zero => exact ⟨g, hw, rfl, rfl, .inl ⟨rfl, h.cut⟩⟩
  | succ k ih =>
    rw [Firmware.drain]
    refine wp_bind_returning (receive_spec h.idle hw x.2) ?_
    rintro r w₁ (⟨rfl, hat, hempty⟩ | ⟨e, he, hr, hidle, hat⟩)
    · exact ⟨_, hat, rfl, rfl, .inr ⟨tr, x, rfl, { h with idle := h.idle.look _ _ }, hempty⟩⟩
    obtain ⟨tr₁, r⟩ := r
    obtain rfl : r = (rpmsgSuccess, e.msg.received x.2) := hr
    simp only [if_true]
    have hlen : g.heard.length = g.taken .vring1 := by
      rw [← h.received, List.length_map, h.idle.returned]
    have hat' := hat.hear (by rw [← hlen] at he; exact he)
    have hreceived : ((g.exchange .vring1 ⟨e.head, e.len % 2 ^ 32, e.msg⟩).returned .vring1).map
        Used.msg = (g.returned .vring1).map Used.msg ++ [e.msg] := by simp
    have hidle' : Idle S { g.exchange .vring1 ⟨e.head, e.len % 2 ^ 32, e.msg⟩ with
        heard := g.heard ++ [e.msg] } tr₁ := { hidle with }
    rcases hbody : fw.body x.1 (e.msg.received x.2) with ⟨s, _ | ⟨data, len⟩⟩
    · have hstep : fw.step x e.msg = ((s, e.msg.received x.2), none) := by
        rw [Firmware.step, hbody]
        rfl
      have hnext := h.next hidle' rfl hreceived (.inl ⟨by rw [hstep], rfl, by simp⟩)
      rw [hstep] at hnext
      exact ih hnext hat'
    · have hstep : fw.step x e.msg = ((s, e.msg.received x.2),
          some (sentMsg (e.msg.received x.2).dst (e.msg.received x.2).src data len)) := by
        rw [Firmware.step, hbody]
        rfl
      have hshort : len ≤ rpmsgBufSize - sizeofRpmsgHdr := by
        refine hfw.short x.1 (e.msg.received x.2) (data, len) ?_ (by rw [hbody])
        exact hat'.safe.short e (List.mem_iff_getElem?.2 ⟨_, he⟩)
      rw [wp_bind]
      refine wp_mono (fun o w₂ => ?_) (await_spec hfw k hat')
      rintro ⟨hat', ⟨rfl, hawaits⟩ | rfl⟩
      · exact ⟨_, hat', rfl, rfl, .inl ⟨rfl, h.wait rfl hreceived (by simp) (by simp)
          (by rw [hstep]) hawaits⟩⟩
      refine wp_bind_returning (send_spec hidle' hat' _ _ data len) ?_
      rintro ⟨tr₂, ret⟩ w₂ (⟨hlong, -⟩ | ⟨-, hr, hat₂, -⟩ | ⟨-, -, u, hu, hidle₂, hat₂⟩)
      · omega
      · obtain ⟨rfl, -⟩ := Prod.mk.inj hr
        have hnext := h.next (hidle'.look .vring0 false) rfl hreceived
          (.inr ⟨_, false, by rw [hstep], by simp, by simp [Ghost.look]⟩)
        rw [hstep] at hnext
        exact ih hnext hat₂
      · have hnext := h.next hidle₂ rfl (by simp)
          (.inr ⟨_, true, by rw [hstep], by simp, by simp [hu]⟩)
        rw [hstep] at hnext
        exact ih hnext hat₂

end Drain

/-! ## The rounds -/

section Rounds

variable {x₀ : σ × Received} {ann : List Msg} {before : List Bool} {g : Ghost}
  {tr : PruRpmsgTransport} {x : σ × Received} {w : World}

theorem and_hostInt {r i : ℕ} : r &&& 2 ^ i ≠ 0 ↔ r.testBit i = true := by
  rw [Nat.and_two_pow]
  cases r.testBit i <;> simp

/-- Nothing is waiting, so nothing is missed. -/
theorem At.alarm (h : At S g w) (hle : w.kicked ≤ g.taken .vring1) :
    At S { g with alert := true } w :=
  { h with kicks := { h.kicks with awake := fun _ => .inr hle } }

/-- The PRU leaves its event alone, or clears it. -/
theorem At.clear (h : At S g w) (event : ℕ) :
    At S { g with alert := false }
      (if event = S.fromArmEvent then { w with event := false } else w) := by
  have hkicks {w' : World} (hlog : w'.log = w.log) (hkicked : w'.kicked = w.kicked) :
      Kicks { g with alert := false } w' := by
    refine ⟨?_, ?_, ?_, fun h' => Bool.noConfusion h', ?_⟩
    · rw [hlog]
      exact h.kicks.heard
    · rw [hkicked, hlog]
      exact h.kicks.kicked_le
    · rw [hkicked]
      exact h.kicks.floor_le
    · rw [hlog]
      exact h.kicks.silent
  split
  · exact ⟨⟨h.safe.sound, h.safe.addr_inj, h.safe.short⟩, h.returned, h.looks, hkicks rfl rfl⟩
  · exact ⟨h.safe, h.returned, h.looks, hkicks rfl rfl⟩

/-- **A round receives everything for which the ARM had kicked the PRU.** -/
theorem poll_spec (hfw : fw.Fits S) (k : ℕ) (h : Serving S fw x₀ ann before g tr x)
    (hw : At S g w) (halert : g.alert = true) :
    wp (Arm S) (fw.poll k tr x.1 x.2) (fun o w' => ∃ g', At S g' w' ∧
      (o = .spin ∧ CutShort fw x₀ ann before g' ∨
        ∃ tr' x', o = .ret (tr', x') ∧ Serving S fw x₀ ann before g' tr' x' ∧
          g'.alert = true ∧ g.floor ≤ g'.taken .vring1)) w := by
  simp only [Firmware.poll, Prog.perform_bind]
  refine wp_call_stable (stable_at S g) hw fun t r t' ht hread => ?_
  obtain ⟨hevent, rfl⟩ := hread
  rw [hfw.hostInt]
  by_cases hkick : t'.event = true
  · rw [if_pos (and_hostInt.2 (hevent.trans hkick))]
    refine wp_call_stable (stable_at S g) ht fun u _ u' hu hclear => ?_
    obtain rfl := hclear
    have hserving : Serving S fw x₀ ann before { g with alert := false } tr x :=
      { h with idle := { h.idle with } }
    refine wp_mono (fun o w' => ?_) (drain_spec hfw k hserving (hu.clear fw.fromArmHost))
    rintro ⟨g', hat, -, hfloor, ⟨rfl, hcut⟩ | ⟨tr', x', rfl, hserving', hall⟩⟩
    · exact ⟨g', hat, .inl ⟨rfl, hcut⟩⟩
    · have hle : w'.kicked ≤ g'.taken .vring1 := hall ▸ hat.kicks.kicked_le
      refine ⟨_, hat.alarm hle, .inr ⟨tr', x', rfl, { hserving' with idle := ?_ }, rfl, ?_⟩⟩
      · exact { hserving'.idle with }
      · exact hfloor ▸ hat.kicks.floor_le.trans hle
  · rw [if_neg (mt and_hostInt.1 (hevent.symm ▸ hkick))]
    have hle := (ht.kicks.awake halert).resolve_left hkick
    exact ⟨g, ht, .inr ⟨tr, x, rfl, h, halert, ht.kicks.floor_le.trans hle⟩⟩

theorem rounds_spec (hfw : fw.Fits S) (k n : ℕ) (h : Serving S fw x₀ ann before g tr x)
    (hw : At S g w) (halert : g.alert = true) :
    wp (Arm S) (fw.rounds k n tr x.1 x.2) (fun o w' => ∃ g', At S g' w' ∧
      (o = .spin ∧ CutShort fw x₀ ann before g' ∨
        ∃ tr' x', o = .ret (tr', x') ∧ Serving S fw x₀ ann before g' tr' x' ∧
          g'.alert = true)) w := by
  induction n generalizing g tr x w with
  | zero => exact ⟨g, hw, .inr ⟨tr, x, rfl, h, halert⟩⟩
  | succ n ih =>
    rw [Firmware.rounds, wp_bind]
    refine wp_mono (fun o w₁ => ?_) (poll_spec hfw k h hw halert)
    rintro ⟨g₁, hat, ⟨rfl, hcut⟩ | ⟨tr₁, x₁, rfl, hserving, halert₁, -⟩⟩
    · exact ⟨g₁, hat, .inl ⟨rfl, hcut⟩⟩
    · exact ih hserving hat halert₁

end Rounds

/-! ## The beginning -/

/-- Before the program runs, the vrings are empty. -/
structure Start (S : Setup) (w : World) : Prop where
  log : ∀ q, w.log q = ⟨[], [], [], []⟩
  availIdx : ∀ q, w.mem (.availIdx (S.vring q).avail) = 0
  usedIdx : ∀ q, w.mem (.usedIdx (S.vring q).used) = 0
  kicked : w.kicked = 0

/-- Nothing has happened. -/
def Ghost.zero : Ghost where
  taken _ := 0
  shown _ := 0
  returned _ := []
  looks _ := []
  heard := []
  alert := true
  floor := 0

theorem Start.at {w : World} (h : Start S w) : At S .zero w := by
  refine ⟨⟨fun q => ?_, ?_, ?_⟩, ?_, ?_, ?_⟩
  · rw [h.log]
    refine ⟨List.prefix_rfl, le_rfl, le_rfl, le_rfl, ?_, ?_, ?_, ?_, h.availIdx q, ?_, ?_,
      h.usedIdx q, ?_, ?_⟩ <;> simp [Log.outstanding]
  · intro q q' k k' e e' _ he
    rw [h.log] at he
    simp at he
  · simp [h.log]
  · exact fun q => by rw [h.log]; rfl
  · exact fun q => by rw [h.log]; rfl
  · refine ⟨List.nil_prefix, ?_, Nat.zero_le _, fun _ => .inr ?_, fun _ => ?_⟩
    · rw [h.kicked]
      exact Nat.zero_le _
    · exact h.kicked.le
    · rw [h.log]

/-- The message that announces the channel. -/
def Firmware.announcement (fw : Firmware σ) : Msg :=
  sentMsg (uint32 fw.chanPort) 53
    (PruRpmsgTransport.nsMsg rpmsgNsCreate fw.chanName fw.chanDesc fw.chanPort) sizeofRpmsgNsMsg

section Boot

variable {w : World} {g : Ghost} {tr : PruRpmsgTransport}

/-- Nothing has been received, and nothing but looked for a buffer. -/
structure Silent (S : Setup) (g : Ghost) (tr : PruRpmsgTransport) : Prop where
  idle : Idle S g tr
  returned : ∀ q, g.returned q = []
  heard : g.heard = []
  looks : ∃ j, g.looks .vring0 = List.replicate j false
  alert : g.alert = true

theorem awaitDriver_spec (k : ℕ) (hw : At S g w) :
    wp (Arm S) (Firmware.awaitDriver k) (fun o w' => At S g w' ∧ (o = .spin ∨ o = .ret ())) w := by
  induction k generalizing w with
  | zero => exact ⟨hw, .inl rfl⟩
  | succ k ih =>
    simp only [Firmware.awaitDriver, load, Prog.perform_bind]
    refine wp_call_stable (stable_at S g) hw fun t status t' ht hload => ?_
    obtain ⟨rfl, rfl⟩ := hload trivial
    split
    · exact ⟨ht, .inr rfl⟩
    · exact ih ht

theorem announce_spec (k : ℕ) (x₀ : σ × Received) (h : Silent S g tr) (hw : At S g w) :
    wp (Arm S) (fw.announce k tr) (fun o w' => ∃ g', At S g' w' ∧
      (o = .spin ∧ (∃ tr', Silent S g' tr') ∨
        ∃ tr' j, o = .ret tr' ∧ g'.alert = true ∧
          Serving S fw x₀ [fw.announcement] (List.replicate j false ++ [true]) g' tr' x₀)) w := by
  induction k generalizing g tr w with
  | zero => exact ⟨g, hw, .inl ⟨rfl, tr, h⟩⟩
  | succ k ih =>
    obtain ⟨j, hj⟩ := h.looks
    rw [Firmware.announce, PruRpmsgTransport.channel]
    refine wp_bind_returning (send_spec h.idle hw _ 53 _ sizeofRpmsgNsMsg) ?_
    rintro ⟨tr₁, ret⟩ w₁ (⟨hlong, -⟩ | ⟨-, hr, hat, -⟩ | ⟨-, hr, u, hu, hidle, hat⟩)
    · exact absurd hlong (by decide)
    · obtain ⟨rfl, rfl⟩ := Prod.mk.inj hr
      have hne : ¬ rpmsgNoBufAvailable = rpmsgSuccess := by decide
      simp only [if_neg hne]
      refine ih ⟨h.idle.look _ _, h.returned, h.heard, ⟨j + 1, ?_⟩, h.alert⟩ hat
      rw [Ghost.look_looks, if_pos rfl, hj, List.replicate_succ']
    · obtain rfl : ret = rpmsgSuccess := hr
      simp only [if_true]
      have hheard : (g.exchange .vring0 u).heard = [] := h.heard
      refine ⟨_, hat, .inr ⟨tr₁, j, rfl, h.alert, hidle, ?_, ?_, [], ?_, ?_, ?_⟩⟩
      · rw [hheard]
        rfl
      · simp [hheard, h.returned]
      · simp [hj]
      · simp [hheard, Firmware.answers]
      · simp [hheard, Firmware.answers, h.returned, hu, Firmware.announcement, picked]

/-- **The channel is announced once.** -/
theorem boot_spec (hfw : fw.Fits S) {vring0 vring1 : FwRscVdevVring}
    (h0 : S.vring .vring0 = .init vring0.num vring0.da (vring0.align.setWidth 64))
    (h1 : S.vring .vring1 = .init vring1.num vring1.da (vring1.align.setWidth 64))
    (hw : Start S w) (k : ℕ) (x₀ : σ × Received) :
    wp (Arm S) (fw.boot tr vring0 vring1 k) (fun o w' => ∃ g', At S g' w' ∧
      (o = .spin ∧ (∃ tr', Silent S g' tr') ∨
        ∃ tr' j, o = .ret tr' ∧ g'.alert = true ∧
          Serving S fw x₀ [fw.announcement] (List.replicate j false ++ [true]) g' tr' x₀)) w := by
  have hinit : tr.init vring0 vring1 fw.toArmHost fw.fromArmHost =
      (⟨.init vring0 fw.toArmHost fw.fromArmHost, .init vring1 fw.toArmHost fw.fromArmHost⟩,
        rpmsgSuccess) := by
    have := hfw.toArm_valid
    have := hfw.fromArm_valid
    rw [PruRpmsgTransport.init, if_neg (by omega), if_neg (by omega)]
  have hsilent : Silent S .zero
      ⟨.init vring0 fw.toArmHost fw.fromArmHost, .init vring1 fw.toArmHost fw.fromArmHost⟩ :=
    ⟨⟨h0.symm, h1.symm, rfl, rfl, fun _ => rfl, fun _ => rfl⟩, fun _ => rfl, rfl, ⟨0, rfl⟩, rfl⟩
  simp only [Firmware.boot, Prog.perform_bind, hinit]
  refine wp_call_stable (stable_at S .zero) hw.at fun t _ t' ht hclear => ?_
  obtain rfl := hclear
  have hcleared : At S .zero
      (if fw.fromArmHost = S.fromArmEvent then { t with event := false } else t) := by
    -- the ARM has not had anything to kick for
    refine (ht.clear fw.fromArmHost).alarm ?_
    have hnone : (t.log .vring0).returned = [] := ht.returned _
    have hle := ht.kicks.kicked_le
    rw [ht.kicks.silent hnone] at hle
    split <;> exact hle
  rw [wp_bind]
  refine wp_mono (fun o u => ?_) (awaitDriver_spec k hcleared)
  rintro ⟨hat, rfl | rfl⟩
  · exact ⟨_, hat, .inl ⟨rfl, _, hsilent⟩⟩
  · exact announce_spec k x₀ hsilent hat

end Boot

/-! ## The whole program -/

section Main

variable {w : World} {vring0 vring1 : FwRscVdevVring}

theorem At.prefix_returned {g : Ghost} (h : At S g w) (q : VringId) :
    (w.log q).collected <+: (w.log q).returned := (h.safe.sound q).prefix_returned

/-- What has come of the messages: those that were received are the first that were posted,
those that were sent are the announcement and the answers for which a look found a buffer,
and the ARM has collected the first of them.  Only a program that waits before an answer can
owe one. -/
def Firmware.Served (fw : Firmware σ) (x₀ : σ × Received)
    (o : Outcome Empty (PruRpmsgTransport × σ × Received)) (w : World) : Prop :=
  let received := (w.log .vring1).returned.map Used.msg
  let sent := (w.log .vring0).returned.map Used.msg
  received <+: (w.log .vring1).posted.map Entry.msg ∧
  (w.log .vring0).collected <+: (w.log .vring0).returned ∧
  (received = [] ∧ sent = [] ∨
    ∃ j bs, (w.log .vring0).looks = List.replicate j false ++ true :: bs ∧
      (bs.length = (fw.answers x₀ received).length ∨
        o = .spin ∧ fw.awaits ≠ none ∧ bs.length + 1 = (fw.answers x₀ received).length) ∧
      sent = fw.announcement :: picked (fw.answers x₀ received) bs ∧
      ∀ tr x, o = .ret (tr, x) → x = fw.after x₀ received)

/-- What is known wherever the program is stopped. -/
def Firmware.Stopped (fw : Firmware σ) (S : Setup) (x₀ : σ × Received)
    (o : Outcome Empty (PruRpmsgTransport × σ × Received)) (w : World) : Prop :=
  ∃ g, At S g w ∧
    (o = .spin ∧ (∃ tr, Silent S g tr) ∨
      ∃ j, o = .spin ∧ CutShort fw x₀ [fw.announcement] (List.replicate j false ++ [true]) g ∨
        ∃ tr x, o = .ret (tr, x) ∧ g.alert = true ∧
          Serving S fw x₀ [fw.announcement] (List.replicate j false ++ [true]) g tr x)

theorem main_stopped (hfw : fw.Fits S)
    (h0 : S.vring .vring0 = .init vring0.num vring0.da (vring0.align.setWidth 64))
    (h1 : S.vring .vring1 = .init vring1.num vring1.da (vring1.align.setWidth 64))
    (hw : Start S w) (tr : PruRpmsgTransport) (x₀ : σ × Received) (k n : ℕ) :
    wp (Arm S) (fw.main tr vring0 vring1 x₀.1 x₀.2 k n) (fw.Stopped S x₀) w := by
  rw [Firmware.main, wp_bind]
  refine wp_mono (fun o w₁ => ?_) (boot_spec hfw h0 h1 hw k x₀)
  rintro ⟨g₁, hat₁, ⟨rfl, hsilent⟩ | ⟨tr₁, j, rfl, halert, hserv⟩⟩
  · exact ⟨g₁, hat₁, .inl ⟨rfl, hsilent⟩⟩
  · refine wp_mono (fun o w' => ?_) (rounds_spec hfw k n hserv hat₁ halert)
    rintro ⟨g', hat, ⟨rfl, hcut⟩ | ⟨tr', x', rfl, hserv', halert'⟩⟩
    · exact ⟨g', hat, .inr ⟨j, .inl ⟨rfl, hcut⟩⟩⟩
    · exact ⟨g', hat, .inr ⟨j, .inr ⟨tr', x', rfl, halert', hserv'⟩⟩⟩

theorem Firmware.Stopped.served {x₀ : σ × Received}
    {o : Outcome Empty (PruRpmsgTransport × σ × Received)} (h : fw.Stopped S x₀ o w) :
    fw.Served x₀ o w := by
  obtain ⟨g, hat, ⟨rfl, tr, hsilent⟩ | ⟨j, hleft⟩⟩ := h
  · have hnone (q : VringId) : (w.log q).returned.map Used.msg = [] := by
      rw [hat.returned, hsilent.returned]
      rfl
    simp only [Firmware.Served, hnone]
    exact ⟨List.nil_prefix, hat.prefix_returned _, .inl ⟨trivial, trivial⟩⟩
  have hreceived : (w.log .vring1).returned.map Used.msg = g.heard := by
    rcases hleft with ⟨-, hcut⟩ | ⟨tr, x, -, -, hserv⟩
    · exact hat.returned _ ▸ hcut.received
    · exact hat.returned _ ▸ hserv.received
  obtain ⟨late, hlate, bs, hlooks, hlen, hsent⟩ :
      ∃ late, (late = 0 ∨ o = .spin ∧ fw.awaits ≠ none ∧ late = 1) ∧
        Answered fw x₀ [fw.announcement] (List.replicate j false ++ [true]) g late := by
    rcases hleft with ⟨ho, hcut⟩ | ⟨tr, x, -, -, hserv⟩
    · rcases hcut.answered with hall | ⟨hawaits, hlast⟩
      · exact ⟨0, .inl rfl, hall⟩
      · exact ⟨1, .inr ⟨ho, hawaits, rfl⟩, hlast⟩
    · exact ⟨0, .inl rfl, hserv.answered⟩
  simp only [Firmware.Served, hreceived]
  refine ⟨hat.kicks.heard, hat.prefix_returned _, .inr ⟨j, bs, ?_, ?_, ?_, ?_⟩⟩
  · rw [hat.looks, hlooks, List.append_assoc, List.singleton_append]
  · rcases hlate with rfl | ⟨ho, hawaits, rfl⟩
    · exact .inl hlen
    · exact .inr ⟨ho, hawaits, hlen⟩
  · exact hat.returned _ ▸ hsent
  · rintro tr₁ x₁ rfl
    rcases hleft with ⟨ho, -⟩ | ⟨tr, x, ho, -, hserv⟩
    · cases ho
    · cases ho
      exact hserv.vars

/-- **Every message is received once and in order, and its answer is sent if there is a
buffer for it**, in every run of the program with the ARM beside it. -/
theorem main_spec (hfw : fw.Fits S)
    (h0 : S.vring .vring0 = .init vring0.num vring0.da (vring0.align.setWidth 64))
    (h1 : S.vring .vring1 = .init vring1.num vring1.da (vring1.align.setWidth 64))
    (hw : Start S w) (tr : PruRpmsgTransport) (x₀ : σ × Received) (k n : ℕ) :
    wp (Arm S) (fw.main tr vring0 vring1 x₀.1 x₀.2 k n) (fw.Served x₀) w :=
  wp_mono (fun _ _ => Firmware.Stopped.served) (main_stopped hfw h0 h1 hw tr x₀ k n)

/-- The memory before the ARM has filled anything in. -/
def World.zero : World where
  mem _ := 0
  log _ := ⟨[], [], [], []⟩
  event := false
  kicked := 0
  strobes := []

theorem start_zero : Start echoLayout.setup World.zero :=
  ⟨fun _ => rfl, fun _ => rfl, fun _ => rfl, rfl⟩

theorem rpmsgEcho_fits (mem : ℕ → ℕ) (hbit : S.hostBit = 30) (hevent : S.fromArmEvent = 17) :
    (rpmsgEcho mem).Fits S where
  hostInt := hbit ▸ rfl
  fromArm := hevent.symm
  toArm_valid := (by decide : 16 ≤ 16 ∧ 16 ≤ 31)
  fromArm_valid := (by decide : 16 ≤ 17 ∧ 17 ≤ 31)
  short := by
    rintro s out reply hout hreply
    obtain rfl := Option.some.inj hreply
    exact hout
  awaits _ _ h := by cases h

theorem main_spec_echo :
    wp (Arm echoLayout.setup) ((rpmsgEcho fun _ => 0).main
      ⟨.init ⟨0, 0, 0, 0⟩ 0 0, .init ⟨0, 0, 0, 0⟩ 0 0⟩
      ⟨0x9000, 16, 16, 0⟩ ⟨0xA000, 16, 16, 1⟩ () ⟨0, 0, fun _ => 0, 0⟩ 9 9)
      ((rpmsgEcho fun _ => 0).Served ((), ⟨0, 0, fun _ => 0, 0⟩)) .zero :=
  main_spec (rpmsgEcho_fits _ rfl rfl) rfl rfl start_zero _ ((), ⟨0, 0, fun _ => 0, 0⟩) 9 9

/-- **No message is left lying**: when a round ends, everything has been received for which
the ARM had kicked the PRU when the round began. -/
theorem noticed (hfw : fw.Fits S)
    (h0 : S.vring .vring0 = .init vring0.num vring0.da (vring0.align.setWidth 64))
    (h1 : S.vring .vring1 = .init vring1.num vring1.da (vring1.align.setWidth 64))
    (hw : Start S w) (tr : PruRpmsgTransport) (x₀ : σ × Received) (k n : ℕ) :
    wp (Arm S) (fw.main tr vring0 vring1 x₀.1 x₀.2 k n) (fun o w₁ =>
      ∀ tr₁ x₁, o = .ret (tr₁, x₁) →
        wp (Arm S) (fw.poll k tr₁ x₁.1 x₁.2) (fun o' w₂ =>
          ∀ y, o' = .ret y → w₁.kicked ≤ (w₂.log .vring1).returned.length) w₁) w := by
  refine wp_mono (fun o w₂ => ?_) (main_stopped hfw h0 h1 hw tr x₀ k n)
  rintro ⟨g₂, hat₂, ⟨rfl, -⟩ | ⟨j, ⟨rfl, -⟩ | ⟨tr₂, x₂, rfl, halert₂, hserv₂⟩⟩⟩
  · intro _ _ h
    cases h
  · intro _ _ h
    cases h
  rintro _ _ ⟨⟩
  -- from here on the number of entries is the one to be reached
  have hat : At S { g₂ with floor := w₂.kicked } w₂ :=
    { hat₂ with kicks := { hat₂.kicks with floor_le := le_rfl } }
  have hserv' : Serving S fw x₀ [fw.announcement] (List.replicate j false ++ [true])
      { g₂ with floor := w₂.kicked } tr₂ x₂ := { hserv₂ with idle := { hserv₂.idle with } }
  refine wp_mono (fun o' w₃ => ?_) (poll_spec hfw k hserv' hat halert₂)
  rintro ⟨g₃, hat₃, ⟨rfl, -⟩ | ⟨tr₃, x₃, rfl, hserv₃, -, hfloor⟩⟩
  · intro _ h
    cases h
  · intro _ _
    rw [hat₃.returned, hserv₃.idle.returned]
    exact hfloor

theorem noticed_echo :
    wp (Arm echoLayout.setup) ((rpmsgEcho fun _ => 0).main
      ⟨.init ⟨0, 0, 0, 0⟩ 0 0, .init ⟨0, 0, 0, 0⟩ 0 0⟩
      ⟨0x9000, 16, 16, 0⟩ ⟨0xA000, 16, 16, 1⟩ () ⟨0, 0, fun _ => 0, 0⟩ 9 9)
      (fun o w₁ => ∀ tr₁ x₁, o = .ret (tr₁, x₁) →
        wp (Arm echoLayout.setup) ((rpmsgEcho fun _ => 0).poll 9 tr₁ x₁.1 x₁.2) (fun o' w₂ =>
          ∀ y, o' = .ret y → w₁.kicked ≤ (w₂.log .vring1).returned.length) w₁) .zero :=
  noticed (rpmsgEcho_fits _ rfl rfl) rfl rfl start_zero _ ((), ⟨0, 0, fun _ => 0, 0⟩) 9 9

end Main

end Rpmsg
