import PrussBindings.Lib.Rely
import PrussBindings.Rpmsg.Queue

/-!
# An ARM that keeps to no rules

`Rpmsg.Host` has the ARM keep to the rules of a vring.  Here every field has any value
whenever the firmware looks at it: what does a PRU do then?

* `Accesses`, `taken`, `given` — the accesses of a run; what was taken off an available
  ring, and what was put onto a used ring.
* `Writable`, `Permitted`, `Confined` — what the firmware may do, after what it has seen.
* `Turn` — what a call does to a vring; `Orderly` — what holds of one between two calls.
* `Got`, `Added` — what the functions of the virtqueue do.
* `send_called`, `receive_called` — **a call takes at most one descriptor, and returns it if
  it can**, and writes where it may.
-/

namespace Rpmsg

open Effect

/-- The accesses of a run, with what they gave. -/
abbrev Accesses := Trace Access.Res

/-- What was taken off an available ring: the slots, and the entries in them. -/
def taken (avail : ℕ) (log : Accesses) : List (ℕ × ℕ) :=
  log.filterMap fun
    | ⟨.load (.availRing a i), entry⟩ => if a = avail then some (i, entry) else none
    | _ => none

/-- The descriptors put onto a used ring. -/
def given (used : ℕ) (log : Accesses) : List ℕ :=
  log.filterMap fun
    | ⟨.store (.usedId u _) head, _⟩ => if u = used then some head else none
    | _ => none

/-- The buffer was given to the PRU for a message. -/
def ForMessage (v : Vring) (seen : Accesses) (m : ℕ) : Prop :=
  ∃ (i : ℤ) (addr : ℕ), (⟨.load (.descAddr v.desc i), addr⟩ : Call Access.Res) ∈ seen ∧
    m = addr % 2 ^ 32

/-- The fields that may be written, after what has been seen. -/
def Writable (v : VringId → Vring) (seen : Accesses) : Place → Prop
  | .usedIdx u => ∃ q, u = (v q).used
  | .usedId u i | .usedLen u i => ∃ q, u = (v q).used ∧ i < (v q).num
  | .msgSrc m | .msgDst m | .msgReserved m | .msgLen m | .msgFlags m =>
    ForMessage (v .vring0) seen m
  | .msgData m i => ForMessage (v .vring0) seen m ∧ i < rpmsgBufSize - sizeofRpmsgHdr
  | _ => False

/-- What may be done, after what has been seen: fields are written, the ARM is told, and
events are cleared; and of a message no byte is copied that is not below its length. -/
def Permitted (v : VringId → Vring) (toArm : ℕ) (clears : List ℕ) (seen : Accesses) : Access → Prop
  | .store p _ => Writable v seen p
  | .writeR31 x => x = intEnable ||| sub32 toArm intOffset
  | .clearStatus event => event ∈ clears
  | .load (.msgData m i) => ∃ n, (⟨.load (.msgLen m), n⟩ : Call Access.Res) ∈ seen ∧ i < n
  | .load _ | .readR31 => True

/-- Every access is one that may be done. -/
def Confined (v : VringId → Vring) (toArm : ℕ) (clears : List ℕ) : Accesses → Accesses → Prop
  | _, [] => True
  | seen, c :: log => Permitted v toArm clears seen c.1 ∧
    Confined v toArm clears (seen ++ [c]) log

/-- What is returned of what was taken: `pru_virtqueue_add_used_buf` refuses an index above
the size of the table, and the callers do not get there with a negative one. -/
def returns (v : Vring) (entries : List ℕ) : List ℕ :=
  (entries.filter fun entry => 0 ≤ int16 entry ∧ int16 entry ≤ v.num).map
    fun entry => uint32 (int16 entry)

/-- What a call does to a vring: `e` is the entry that it takes. -/
structure Turn (v : Vring) (last last' : ℕ) (e : Option ℕ) (log : Accesses) : Prop where
  last_eq : last' = if e.isSome then (last + 1) % 2 ^ 16 else last
  taken_eq : ∀ a, taken a log = if a = v.avail then e.toList.map (slot last v.num, ·) else []
  given_eq : ∀ u, given u log = if u = v.used then returns v e.toList else []

/-- A vring between two calls: the slots have been gone through in turn, and what was taken
has been returned, as far as it can be. -/
structure Orderly (v : Vring) (last : ℕ) (log : Accesses) : Prop where
  last_eq : last = (taken v.avail log).length % 2 ^ 16
  slots : (taken v.avail log).map Prod.fst =
    (List.range (taken v.avail log).length).map (· % v.num)
  given_eq : given v.used log = returns v ((taken v.avail log).map Prod.snd)

section Record

variable {v : VringId → Vring} {toArm : ℕ} {clears : List ℕ} {seen seen' log log' : Accesses}

@[simp] theorem taken_append (a : ℕ) : taken a (log ++ log') = taken a log ++ taken a log' :=
  List.filterMap_append ..

@[simp] theorem given_append (u : ℕ) : given u (log ++ log') = given u log ++ given u log' :=
  List.filterMap_append ..

theorem returns_append (v : Vring) (l l' : List ℕ) :
    returns v (l ++ l') = returns v l ++ returns v l' := by
  rw [returns, List.filter_append, List.map_append]
  rfl

/-- What is permitted stays so. -/
theorem Permitted.mono {a : Access} (h : Permitted v toArm clears seen a)
    (hsub : seen ⊆ seen') : Permitted v toArm clears seen' a := by
  have hbuffer {m : ℕ} : ForMessage (v .vring0) seen m → ForMessage (v .vring0) seen' m :=
    fun ⟨i, addr, hmem, hm⟩ => ⟨i, addr, hsub hmem, hm⟩
  cases a with
  | store p x => cases p <;> first | exact h | exact hbuffer h | exact ⟨hbuffer h.1, h.2⟩
  | load p =>
    cases p
    case msgData m i =>
      obtain ⟨n, hmem, hi⟩ := h
      exact ⟨n, hsub hmem, hi⟩
    all_goals exact h
  | _ => exact h

theorem Confined.of_forall (h : ∀ c ∈ log, Permitted v toArm clears seen c.1) :
    Confined v toArm clears seen log := by
  induction log generalizing seen with
  | nil => trivial
  | cons c log ih =>
    exact ⟨h c (List.mem_cons_self ..), ih fun c' hc' =>
      (h c' (List.mem_cons_of_mem _ hc')).mono (List.subset_append_left ..)⟩

theorem Confined.mono (h : Confined v toArm clears seen log) (hsub : seen ⊆ seen') :
    Confined v toArm clears seen' log := by
  induction log generalizing seen seen' with
  | nil => trivial
  | cons c log ih =>
    exact ⟨h.1.mono hsub, ih h.2 (List.append_subset.2
      ⟨fun _ h => List.mem_append_left _ (hsub h), List.subset_append_right ..⟩)⟩

theorem Confined.append (h : Confined v toArm clears seen log)
    (h' : Confined v toArm clears (seen ++ log) log') :
    Confined v toArm clears seen (log ++ log') := by
  induction log generalizing seen with
  | nil => rwa [List.append_nil] at h'
  | cons c log ih => exact ⟨h.1, ih h.2 (by rwa [List.append_assoc, List.singleton_append])⟩

/-- An access of a confined run. -/
theorem Confined.permitted {pre post : Accesses} {c : Call Access.Res}
    (h : Confined v toArm clears seen (pre ++ c :: post)) :
    Permitted v toArm clears (seen ++ pre) c.1 := by
  induction pre generalizing seen with
  | nil => exact (List.append_nil seen).symm ▸ h.1
  | cons d pre ih =>
    have hpermitted := ih h.2
    rwa [List.append_assoc, List.singleton_append] at hpermitted

end Record

section Turns

variable {S : Setup} {q : VringId} {last last' : ℕ} {e : Option ℕ} {log log' : Accesses}

/-- A call at this vring. -/
theorem Orderly.turn (h : Orderly (S.vring q) last log)
    (hturn : Turn (S.vring q) last last' e log') : Orderly (S.vring q) last' (log ++ log') := by
  have htaken := hturn.taken_eq (S.vring q).avail
  have hgiven := hturn.given_eq (S.vring q).used
  rw [if_pos rfl] at htaken hgiven
  constructor
  case last_eq =>
    rw [taken_append, htaken, hturn.last_eq, h.last_eq]
    cases e <;> simp
  case slots =>
    rw [taken_append, htaken, List.map_append, h.slots]
    cases e with
    | none => simp
    | some entry =>
      have hslot := S.slot_eq q (taken (S.vring q).avail log).length
      rw [← h.last_eq] at hslot
      simp [hslot, List.range_succ]
  case given_eq =>
    rw [given_append, hgiven, h.given_eq, taken_append, htaken, List.map_append, returns_append]
    simp

/-- A call at the other one. -/
theorem Orderly.other {q' : VringId} (hne : q' ≠ q) (h : Orderly (S.vring q') last log)
    {last₁ last₁' : ℕ} (hturn : Turn (S.vring q) last₁ last₁' e log') :
    Orderly (S.vring q') last (log ++ log') := by
  have htaken := hturn.taken_eq (S.vring q').avail
  have hgiven := hturn.given_eq (S.vring q').used
  rw [if_neg (mt S.avail_inj.1 hne)] at htaken
  rw [if_neg (mt S.used_inj.1 hne)] at hgiven
  constructor
  case last_eq => rw [taken_append, htaken, List.append_nil, h.last_eq]
  case slots => rw [taken_append, htaken, List.append_nil, h.slots]
  case given_eq => rw [given_append, hgiven, taken_append, htaken, List.append_nil, List.append_nil,
    h.given_eq]

end Turns

/-! ## The functions of the virtqueue -/

section Virtqueue

variable {S : Setup} {q : VringId} {vq : PruVirtqueue}

/-- What `pru_virtqueue_get_avail_buf` has done. -/
structure Got (vq : PruVirtqueue) (e : Option ℕ) (r : PruVirtqueue × AvailBuf)
    (log : Accesses) : Prop where
  vq_eq : r.1 = { vq with lastAvailIdx :=
    if e.isSome then (vq.lastAvailIdx + 1) % 2 ^ 16 else vq.lastAvailIdx }
  head_eq : r.2.head = e.elim virtqueueNoBufAvailable int16
  buf_eq : e.isSome → ForMessage vq.vring log r.2.buf
  taken_eq : ∀ a, taken a log =
    if a = vq.vring.avail then e.toList.map (slot vq.lastAvailIdx vq.vring.num, ·) else []
  loads : ∀ c ∈ log, ∃ p, c.1 = .load p ∧ p.msg? = none

theorem getAvailBuf_got (vq : PruVirtqueue) (buf len : ℕ) :
    Recorded (vq.getAvailBuf buf len) (Returning fun r log => ∃ e, Got vq e r log) := by
  simp only [PruVirtqueue.getAvailBuf, load, Prog.perform_bind]
  intro idx
  by_cases hidx : vq.lastAvailIdx = idx
  · simp only [if_pos hidx]
    exact ⟨none, rfl, rfl, fun h => (Bool.false_ne_true h).elim, by simp [taken],
      by simp [Place.msg?]⟩
  · simp only [if_neg hidx]
    intro entry addr descLen
    refine ⟨some entry, rfl, rfl, fun _ => ⟨int16 entry, addr, by simp, rfl⟩, fun a => ?_,
      by simp [Place.msg?]⟩
    by_cases ha : a = vq.vring.avail
    · simp [taken, ha]
    · simp [taken, ha, Ne.symm ha]

/-- An access that takes nothing off a ring and puts nothing onto one. -/
def Neutral : Access → Prop
  | .load (.availRing ..) | .store (.usedId ..) _ => False
  | _ => True

theorem taken_of_neutral {log : Accesses} (h : ∀ c ∈ log, Neutral c.1) (a : ℕ) :
    taken a log = [] := by
  refine List.filterMap_eq_nil_iff.2 fun ⟨o, r⟩ hc => ?_
  have hneutral := h _ hc
  cases o with
  | load p => cases p <;> first | rfl | exact hneutral.elim
  | _ => rfl

theorem given_of_neutral {log : Accesses} (h : ∀ c ∈ log, Neutral c.1) (u : ℕ) :
    given u log = [] := by
  refine List.filterMap_eq_nil_iff.2 fun ⟨o, r⟩ hc => ?_
  have hneutral := h _ hc
  cases o with
  | store p x => cases p <;> first | rfl | exact hneutral.elim
  | _ => rfl

theorem given_of_loads {log : Accesses} (h : ∀ c ∈ log, ∃ p, c.1 = .load p ∧ p.msg? = none)
    (u : ℕ) : given u log = [] := by
  refine List.filterMap_eq_nil_iff.2 fun ⟨o, r⟩ hc => ?_
  obtain ⟨p, rfl, -⟩ := h _ hc
  rfl

theorem confined_of_loads {toArm : ℕ} {clears : List ℕ} {log : Accesses}
    (h : ∀ c ∈ log, ∃ p, c.1 = .load p ∧ p.msg? = none) (seen : Accesses) :
    Confined S.vring toArm clears seen log := by
  refine .of_forall fun ⟨o, r⟩ hc => ?_
  obtain ⟨p, rfl, hmsg⟩ := h _ hc
  cases p
  case msgData m i => cases hmsg
  all_goals trivial

/-- What `pru_virtqueue_add_used_buf` has done. -/
structure Added (S : Setup) (toArm : ℕ) (clears : List ℕ) (q : VringId) (head ret : ℤ)
    (log : Accesses) : Prop where
  taken_eq : ∀ a, taken a log = []
  given_eq : ∀ u, given u log =
    if u = (S.vring q).used then if head ≤ (S.vring q).num then [uint32 head] else [] else []
  confined : ∀ seen, Confined S.vring toArm clears seen log
  refused : ret < 0 ↔ ¬ head ≤ (S.vring q).num

theorem addUsedBuf_added (toArm : ℕ) (clears : List ℕ) (hvq : vq.vring = S.vring q)
    (head : ℤ) (len : ℕ) :
    Recorded (vq.addUsedBuf head len) (Returning (Added S toArm clears q head)) := by
  have hpos := S.num_pos q
  have hle := S.num_le q
  have hnum : int32 (S.vring q).num = (S.vring q).num := if_pos (by omega)
  have hslot (idx : ℕ) : slot idx (S.vring q).num < (S.vring q).num := by
    have hsub : sub32 (S.vring q).num 1 = (S.vring q).num - 1 := by
      rw [sub32]
      omega
    rw [slot, hsub]
    exact Nat.and_le_right.trans_lt (by omega)
  unfold PruVirtqueue.addUsedBuf
  simp only [hvq, hnum]
  by_cases hhead : head > (S.vring q).num
  · rw [if_pos hhead]
    have hnot : ¬ head ≤ (S.vring q).num := not_le.2 hhead
    exact ⟨fun _ => rfl, fun u => by simp [given, hnot], fun _ => trivial,
      iff_of_true (by decide) hnot⟩
  · rw [if_neg hhead]
    have hhead' : head ≤ (S.vring q).num := not_lt.1 hhead
    intro idx _ _ _
    refine ⟨fun _ => rfl, fun u => ?_, fun seen => ?_, iff_of_false (by decide) (not_not.2 hhead')⟩
    · by_cases hu : u = (S.vring q).used
      · simp [given, hu, hhead']
      · simp [given, hu, Ne.symm hu]
    · exact ⟨trivial, ⟨q, rfl⟩, ⟨q, rfl, hslot idx⟩, ⟨q, rfl, hslot idx⟩, trivial⟩

/-- `pru_virtqueue_kick` does no more than to tell the ARM. -/
theorem kick_neutral (v : VringId → Vring) (clears : List ℕ) :
    Recorded vq.kick (Returning fun _ log =>
      ∀ c ∈ log, Neutral c.1 ∧ ∀ seen, Permitted v vq.toArmEvent clears seen c.1) := by
  simp only [PruVirtqueue.kick, load, Prog.perform_bind]
  intro flags
  by_cases hflags : flags &&& vringAvailFNoInterrupt ≠ 0
  · simp only [if_pos hflags]
    simp [Returning, Recorded, Neutral, Permitted]
  · simp only [if_neg hflags]
    intro _
    simp [Returning, Recorded, Neutral, Permitted]

end Virtqueue

/-! ## Sending and receiving -/

namespace PruRpmsgTransport

/-- One of the virtqueues. -/
def virtqueue (tr : PruRpmsgTransport) : VringId → PruVirtqueue :=
  VringId.each tr.virtqueue0 tr.virtqueue1

end PruRpmsgTransport

/-- What a call does that uses one of the virtqueues. -/
structure Called (S : Setup) (toArm : ℕ) (clears : List ℕ) (q : VringId)
    (tr tr' : PruRpmsgTransport) (log : Accesses) : Prop where
  same : ∀ q', q' ≠ q → tr'.virtqueue q' = tr.virtqueue q'
  vq_eq : tr'.virtqueue q =
    { tr.virtqueue q with lastAvailIdx := (tr'.virtqueue q).lastAvailIdx }
  turn : ∃ e, Turn (S.vring q) (tr.virtqueue q).lastAvailIdx (tr'.virtqueue q).lastAvailIdx e log
  confined : Confined S.vring toArm clears [] log

/-- What has been received lies below a length that was read. -/
def Filled (data data' : ℕ → ℕ) (log : Accesses) : Prop :=
  ∀ i, data' i ≠ data i → ∃ m n, (⟨.load (.msgLen m), n⟩ : Call Access.Res) ∈ log ∧ i < n

section Calls

variable {S : Setup} {toArm : ℕ} {clears : List ℕ} {tr : PruRpmsgTransport}

theorem copyOut_stores (msg : ℕ) (data : ℕ → ℕ) (i n : ℕ) :
    Recorded (copyOut msg data i n) (Returning fun _ log =>
      ∀ c ∈ log, ∃ j x, c.1 = .store (.msgData msg j) x ∧ j < i + n) := by
  induction n generalizing i with
  | zero => simp [copyOut, Recorded, Returning]
  | succ n ih =>
    intro _
    refine (ih (i + 1)).returning fun _ log h c hc => ?_
    obtain rfl | hc := List.mem_cons.1 hc
    · exact ⟨i, data i, rfl, by omega⟩
    · obtain ⟨j, x, hc, hj⟩ := h c hc
      exact ⟨j, x, hc, by omega⟩

theorem copyIn_loads (msg : ℕ) (data : ℕ → ℕ) (i n : ℕ) :
    Recorded (copyIn msg data i n) (Returning fun data' log =>
      (∀ c ∈ log, ∃ j, c.1 = .load (.msgData msg j) ∧ j < i + n) ∧
        ∀ j, data' j ≠ data j → j < i + n) := by
  induction n generalizing data i with
  | zero => exact ⟨by simp, fun j hj => absurd rfl hj⟩
  | succ n ih =>
    intro b
    refine (ih _ (i + 1)).returning fun data' log h => ⟨fun c hc => ?_, fun j hj => ?_⟩
    · obtain rfl | hc := List.mem_cons.1 hc
      · exact ⟨i, rfl, by omega⟩
      · obtain ⟨j, hj, hlt⟩ := h.1 c hc
        exact ⟨j, hj, by omega⟩
    · by_cases hji : j = i
      · omega
      · have hlt := h.2 j (by rwa [Function.update_of_ne hji])
        omega

/-- The descriptor was not returned. -/
theorem Got.turn_nil {vq : PruVirtqueue} {e : Option ℕ} {r : PruVirtqueue × AvailBuf}
    {log : Accesses} (h : Got vq e r log) (hhead : r.2.head < 0) :
    Turn vq.vring vq.lastAvailIdx r.1.lastAvailIdx e log where
  last_eq := congrArg PruVirtqueue.lastAvailIdx h.vq_eq
  taken_eq := h.taken_eq
  given_eq u := by
    have hreturns : returns vq.vring e.toList = [] := by
      cases e with
      | none => rfl
      | some entry =>
        have hneg : ¬ 0 ≤ int16 entry := not_le.2 (lt_of_eq_of_lt h.head_eq.symm hhead)
        simp [returns, hneg]
    rw [given_of_loads h.loads, hreturns, ite_self]

/-- The descriptor was returned, or refused. -/
theorem Got.turn_added {q : VringId} {vq : PruVirtqueue} {e : Option ℕ}
    {r : PruVirtqueue × AvailBuf} {log log₁ log₂ log₃ : Accesses} {ret : ℤ} (h : Got vq e r log)
    (hvq : vq.vring = S.vring q) (hhead : ¬ r.2.head < 0) (hmid : ∀ c ∈ log₁, Neutral c.1)
    (hadd : Added S toArm clears q r.2.head ret log₂) (hend : ∀ c ∈ log₃, Neutral c.1) :
    Turn (S.vring q) vq.lastAvailIdx r.1.lastAvailIdx e (log ++ (log₁ ++ (log₂ ++ log₃))) where
  last_eq := congrArg PruVirtqueue.lastAvailIdx h.vq_eq
  taken_eq a := by
    rw [taken_append, taken_append, taken_append, h.taken_eq, hadd.taken_eq,
      taken_of_neutral hmid, taken_of_neutral hend, hvq]
    simp
  given_eq u := by
    rw [given_append, given_append, given_append, given_of_loads h.loads, hadd.given_eq,
      given_of_neutral hmid, given_of_neutral hend]
    cases e with
    | none => exact absurd (h.head_eq ▸ (by decide : virtqueueNoBufAvailable < 0)) hhead
    | some entry =>
      have hentry : r.2.head = int16 entry := h.head_eq
      rw [hentry] at hhead ⊢
      by_cases hle : int16 entry ≤ (S.vring q).num
      · simp [returns, hle, not_lt.1 hhead]
      · simp [returns, hle]

/-- The end of a call: the descriptor is returned, and the ARM is told. -/
theorem giveBack_called (q : VringId) (tr tr' : PruRpmsgTransport) {avail : AvailBuf}
    {e : Option ℕ} {log : Accesses} (mid : Accesses)
    (hgot : Got (tr.virtqueue q) e (tr'.virtqueue q, avail) log)
    (hvring : (tr.virtqueue q).vring = S.vring q) (hevent : (tr.virtqueue q).toArmEvent = toArm)
    (hsame : ∀ q', q' ≠ q → tr'.virtqueue q' = tr.virtqueue q') (hhead : ¬ avail.head < 0)
    (hmid : ∀ c ∈ mid, Neutral c.1) (hconfined : Confined S.vring toArm clears log mid)
    {α : Type} (P : α → Accesses → Prop) {a b : α}
    (hP : ∀ log', Called S toArm clears q tr tr' log' → mid ⊆ log' → P a log' ∧ P b log') :
    Recorded (do
      let ret ← (tr'.virtqueue q).addUsedBuf avail.head avail.len
      if ret < 0 then
        return a
      let _ ← (tr'.virtqueue q).kick
      return b) (fun out new => Returning P out (log ++ (mid ++ new))) := by
  have hvq : tr'.virtqueue q =
      { tr.virtqueue q with lastAvailIdx := (tr'.virtqueue q).lastAvailIdx } := by
    rw [show tr'.virtqueue q = _ from hgot.vq_eq]
  have hvring' : (tr'.virtqueue q).vring = S.vring q := by rw [hvq, hvring]
  have hevent' : (tr'.virtqueue q).toArmEvent = toArm := by rw [hvq, hevent]
  refine (addUsedBuf_added toArm clears hvring' _ _).bind_returning fun ret log₂ hadd => ?_
  have hcalled (log₃ : Accesses)
      (hend : ∀ c ∈ log₃, Neutral c.1 ∧ ∀ seen, Permitted S.vring toArm clears seen c.1) :
      Called S toArm clears q tr tr' (log ++ (mid ++ (log₂ ++ log₃))) :=
    ⟨hsame, hvq, ⟨e, hgot.turn_added hvring hhead hmid hadd fun c hc => (hend c hc).1⟩,
      (confined_of_loads hgot.loads _).append (hconfined.append
        ((hadd.confined _).append (.of_forall fun c hc => (hend c hc).2 _)))⟩
  have hsub (log₃ : Accesses) : mid ⊆ log ++ (mid ++ (log₂ ++ log₃)) := fun c hc =>
    List.mem_append_right _ (List.mem_append_left _ hc)
  by_cases hret : ret < 0
  · rw [if_pos hret]
    exact (hP _ (hcalled [] (by simp)) (hsub _)).1
  · rw [if_neg hret]
    refine (kick_neutral S.vring clears).bind_returning fun _ log₃ hend => ?_
    rw [hevent'] at hend
    have hP' := (hP _ (hcalled log₃ hend) (hsub _)).2
    rwa [← List.append_nil log₃] at hP'

theorem send_called (h0 : tr.virtqueue0.vring = S.vring .vring0)
    (hevent : tr.virtqueue0.toArmEvent = toArm) (src dst : ℕ) (data : ℕ → ℕ) (len : ℕ) :
    Recorded (tr.send src dst data len)
      (Returning fun r log => Called S toArm clears .vring0 tr r.1 log) := by
  unfold PruRpmsgTransport.send
  by_cases hlen : len > rpmsgBufSize - sizeofRpmsgHdr
  · simp only [if_pos hlen]
    exact ⟨fun _ _ => rfl, rfl, ⟨none, rfl, by simp [taken], by simp [given, returns]⟩, trivial⟩
  simp only [if_neg hlen]
  refine (getAvailBuf_got tr.virtqueue0 0 0).bind_returning ?_
  rintro ⟨vq, avail⟩ log ⟨e, hgot⟩
  have hsame : ∀ q', q' ≠ .vring0 →
      ({ tr with virtqueue0 := vq } : PruRpmsgTransport).virtqueue q' = tr.virtqueue q'
    | .vring0, hq => absurd rfl hq
    | .vring1, _ => rfl
  by_cases hhead : avail.head < 0
  · simp only [if_pos hhead]
    refine ⟨hsame, ?_, ⟨e, ?_⟩, ?_⟩
    · exact (show vq = _ from hgot.vq_eq) ▸ rfl
    · rw [List.append_nil, ← h0]
      exact hgot.turn_nil hhead
    · rw [List.append_nil]
      exact confined_of_loads hgot.loads _
  simp only [if_neg hhead]
  have hmsg : ForMessage (S.vring .vring0) log avail.buf := by
    rw [← h0]
    refine hgot.buf_eq (Option.isSome_iff_ne_none.2 ?_)
    rintro rfl
    exact hhead (lt_of_eq_of_lt hgot.head_eq (by decide))
  refine (copyOut_stores avail.buf data 0 len).bind_returning fun _ copied hcopy => ?_
  have hneutral : ∀ c ∈ copied, Neutral c.1 := by
    rintro ⟨o, r⟩ hc
    obtain ⟨j, x, rfl, -⟩ := hcopy _ hc
    trivial
  have hcopied : Confined S.vring toArm clears log copied := by
    refine .of_forall fun ⟨o, r⟩ hc => ?_
    obtain ⟨j, x, rfl, hj⟩ := hcopy _ hc
    exact ⟨hmsg, by omega⟩
  intro _ _ _ _ _
  refine (giveBack_called .vring0 tr { tr with virtqueue0 := vq } (copied ++
    [⟨.store (.msgLen avail.buf) len, ()⟩, ⟨.store (.msgDst avail.buf) dst, ()⟩,
      ⟨.store (.msgSrc avail.buf) src, ()⟩, ⟨.store (.msgFlags avail.buf) 0, ()⟩,
      ⟨.store (.msgReserved avail.buf) 0, ()⟩]) hgot h0 hevent hsame hhead ?_ ?_
    (fun r log => Called S toArm clears .vring0 tr r.1 log)
    fun log' h _ => ⟨h, h⟩).mono fun out new h => ?_
  · simpa [or_imp, forall_and, Neutral] using hneutral
  · refine hcopied.append (.of_forall fun c hc => Permitted.mono ?_ (List.subset_append_left ..))
    simp only [List.mem_cons, List.not_mem_nil, or_false] at hc
    rcases hc with rfl | rfl | rfl | rfl | rfl <;> exact hmsg
  · rwa [List.append_assoc] at h

theorem receive_called (h1 : tr.virtqueue1.vring = S.vring .vring1)
    (hevent : tr.virtqueue1.toArmEvent = toArm) (out : Received) :
    Recorded (tr.receive out) (Returning fun r log =>
      Called S toArm clears .vring1 tr r.1 log ∧ Filled out.data r.2.2.data log) := by
  refine (getAvailBuf_got tr.virtqueue1 0 0).bind_returning ?_
  rintro ⟨vq, avail⟩ log ⟨e, hgot⟩
  have hsame : ∀ q', q' ≠ .vring1 →
      ({ tr with virtqueue1 := vq } : PruRpmsgTransport).virtqueue q' = tr.virtqueue q'
    | .vring0, _ => rfl
    | .vring1, hq => absurd rfl hq
  by_cases hhead : avail.head < 0
  · simp only [if_pos hhead]
    refine ⟨⟨hsame, ?_, ⟨e, ?_⟩, ?_⟩, fun i hi => absurd rfl hi⟩
    · exact (show vq = _ from hgot.vq_eq) ▸ rfl
    · rw [List.append_nil, ← h1]
      exact hgot.turn_nil hhead
    · rw [List.append_nil]
      exact confined_of_loads hgot.loads _
  simp only [if_neg hhead]
  intro n
  refine (copyIn_loads avail.buf out.data 0 n).bind_returning fun data copied hcopy => ?_
  intro src dst len
  -- the message is read
  obtain ⟨mid, hmid⟩ : ∃ mid : Accesses, mid = ⟨.load (.msgLen avail.buf), n⟩ :: (copied ++
    [⟨.load (.msgSrc avail.buf), src⟩, ⟨.load (.msgDst avail.buf), dst⟩,
      ⟨.load (.msgLen avail.buf), len⟩]) := ⟨_, rfl⟩
  have hloads : ∀ c ∈ mid, ∃ p, c.1 = .load p ∧ p.msg? = some avail.buf := by
    simp only [hmid, List.mem_cons, List.mem_append, List.not_mem_nil, or_false]
    rintro ⟨o, r⟩ (h | h | h | h | h)
    · exact ⟨_, congrArg Sigma.fst h, rfl⟩
    · obtain ⟨j, hj, -⟩ := hcopy.1 _ h
      exact ⟨_, hj, rfl⟩
    all_goals exact ⟨_, congrArg Sigma.fst h, rfl⟩
  have hneutral : ∀ c ∈ mid, Neutral c.1 := by
    intro c hc
    obtain ⟨p, hp, hmsg⟩ := hloads c hc
    rw [hp]
    cases p <;> trivial
  have hconfined : Confined S.vring toArm clears log mid := by
    rw [hmid]
    refine ⟨trivial, .append (.of_forall fun ⟨o, r⟩ hc => ?_) (.of_forall fun c hc => ?_)⟩
    · obtain ⟨j, rfl, hj⟩ := hcopy.1 _ hc
      exact ⟨n, List.mem_append_right _ (List.mem_singleton_self _), by omega⟩
    · simp only [List.mem_cons, List.not_mem_nil, or_false] at hc
      rcases hc with rfl | rfl | rfl <;> trivial
  refine (giveBack_called .vring1 tr { tr with virtqueue1 := vq } mid hgot h1 hevent hsame hhead
    hneutral hconfined
    (fun r log => Called S toArm clears .vring1 tr r.1 log ∧ Filled out.data r.2.2.data log)
    fun log' h hsub => ?_).mono fun out new h => ?_
  · have hfilled : Filled out.data data log' := fun i hi =>
      ⟨_, n, hsub (hmid ▸ List.mem_cons_self ..), by simpa using hcopy.2 i hi⟩
    exact ⟨⟨h, hfilled⟩, h, hfilled⟩
  · rwa [hmid, List.cons_append, List.append_assoc] at h

end Calls

end Rpmsg
