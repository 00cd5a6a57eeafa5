import PrussBindings.Lib.Counter
import PrussBindings.Lib.Rely
import PrussBindings.Rpmsg.Transport

/-!
# The ARM at the other end

What is under the accesses of the firmware: the shared memory, with the ARM, that writes
to it whenever it likes but keeps to the rules of a vring.  It posts a descriptor that it
owns, and owns it again when it has collected it; what it has posted and not collected,
it leaves alone.

* `Setup`, `Live` — the two vrings and the buffers, and the fields they consist of.
* `World` — the memory, with a record of what went through each vring; `Sem` — the
  accesses of the firmware, where one to a field that there is not may do anything.
* `HostStep` — the steps of the ARM.
* `Sound` — what holds of a vring; `Safe` — of both; `Safe.host` — **the ARM keeps it**.
-/

namespace Rpmsg

open Effect

/-- The vrings: PRU to ARM, and ARM to PRU. -/
inductive VringId where
  | vring0
  | vring1
  deriving DecidableEq, Repr

/-- One thing for each vring. -/
def VringId.each {α : Type} (x y : α) : VringId → α
  | .vring0 => x
  | .vring1 => y

/-- The memory, field by field. -/
abbrev Memory := Place → ℕ

/-- A message with its header. -/
structure Msg where
  src : ℕ
  dst : ℕ
  reserved : ℕ
  flags : ℕ
  data : List ℕ
  deriving DecidableEq, Repr

/-- The message in a buffer. -/
def Msg.at (mem : Memory) (m : ℕ) : Msg where
  src := mem (.msgSrc m)
  dst := mem (.msgDst m)
  reserved := mem (.msgReserved m)
  flags := mem (.msgFlags m)
  data := (List.range (mem (.msgLen m))).map fun i => mem (.msgData m i)

/-- A descriptor the ARM has posted, and the message in its buffer at that time. -/
structure Entry where
  head : ℕ
  addr : ℕ
  len : ℕ
  msg : Msg
  deriving DecidableEq, Repr

/-- A descriptor that has been returned, and the message in its buffer at that time. -/
structure Used where
  head : ℕ
  len : ℕ
  msg : Msg
  deriving DecidableEq, Repr

/-- What went through a vring; `looks` has an item for every look at the available index,
and says whether there was something that had not been returned. -/
structure Log where
  posted : List Entry
  returned : List Used
  collected : List Used
  looks : List Bool

/-- What has been posted and not collected. -/
def Log.outstanding (l : Log) : List Entry := l.posted.drop l.collected.length

/-- The two vrings, the buffers, and the interrupt by which the ARM kicks the PRU. -/
structure Setup where
  vring : VringId → Vring
  exp : VringId → ℕ
  buffer : ℕ → Prop
  hostBit : ℕ
  fromArmEvent : ℕ
  num_eq : ∀ q, (vring q).num = 2 ^ exp q
  exp_le : ∀ q, exp q ≤ 15
  desc_ne : (vring .vring0).desc ≠ (vring .vring1).desc
  avail_ne : (vring .vring0).avail ≠ (vring .vring1).avail
  used_ne : (vring .vring0).used ≠ (vring .vring1).used
  buffer_lt : ∀ m, buffer m → m < 2 ^ 32

/-- The fields that the vrings and the buffers consist of. -/
def Live (S : Setup) : Place → Prop
  | .descAddr d i | .descLen d i => ∃ q, d = (S.vring q).desc ∧ 0 ≤ i ∧ i < (S.vring q).num
  | .availFlags a | .availIdx a => ∃ q, a = (S.vring q).avail
  | .availRing a i => ∃ q, a = (S.vring q).avail ∧ i < (S.vring q).num
  | .usedIdx u => ∃ q, u = (S.vring q).used
  | .usedId u i | .usedLen u i => ∃ q, u = (S.vring q).used ∧ i < (S.vring q).num
  | .msgSrc m | .msgDst m | .msgReserved m | .msgLen m | .msgFlags m => S.buffer m
  | .msgData m i => S.buffer m ∧ i < rpmsgBufSize - sizeofRpmsgHdr
  | .status => True

/-- The memory, what went through the vrings, the event by which the ARM kicks the PRU,
how much was posted on `vring1` when it last did, and what was written to `__R31`. -/
structure World where
  mem : Memory
  log : VringId → Log
  event : Bool
  kicked : ℕ
  strobes : List ℕ

namespace World

/-- The record of a look at the available index. -/
def look (S : Setup) (w : World) : Place → World
  | .availIdx a => { w with
      log := fun q =>
        if a = (S.vring q).avail then
          { w.log q with looks := (w.log q).looks ++
            [decide ((w.log q).returned.length < (w.log q).posted.length)] }
        else w.log q }
  | _ => w

/-- A field is written; with its length, an entry of the used ring is complete. -/
def store (S : Setup) (w : World) (p : Place) (v : ℕ) : World where
  mem := Function.update w.mem p (v % 256 ^ p.size)
  log := match p with
    | .usedLen u i => fun q =>
      if u = (S.vring q).used then
        let head := w.mem (.usedId u i)
        { w.log q with returned := (w.log q).returned ++
          [⟨head, v % 2 ^ 32, .at w.mem (w.mem (.descAddr (S.vring q).desc head))⟩] }
      else w.log q
    | _ => w.log
  event := w.event
  kicked := w.kicked
  strobes := w.strobes

/-- The ARM puts a descriptor onto the available ring. -/
def post (S : Setup) (w : World) (q : VringId) (e : Entry) : World :=
  { w with
    mem := Function.update w.mem (.availIdx (S.vring q).avail)
      (((w.log q).posted.length + 1) % 2 ^ 16)
    log := Function.update w.log q { w.log q with posted := (w.log q).posted ++ [e] } }

/-- The ARM takes what is next on the used ring, with the message in the buffer of the
descriptor it finds there. -/
def collect (S : Setup) (w : World) (q : VringId) : World :=
  let v := S.vring q
  let i := (w.log q).collected.length % v.num
  let head := w.mem (.usedId v.used i)
  { w with
    log := Function.update w.log q { w.log q with
      collected := (w.log q).collected ++
        [⟨head, w.mem (.usedLen v.used i), .at w.mem (w.mem (.descAddr v.desc head))⟩] } }

end World

/-- The accesses of the firmware. -/
def Sem (S : Setup) : Env Access.Res World
  | .load p => fun w r w' => Live S p → r = w.mem p ∧ w' = w.look S p
  | .store p v => fun w _ w' => Live S p → w' = w.store S p v
  | .writeR31 v => fun w _ w' => w' = { w with strobes := w.strobes ++ [v] }
  | .readR31 => fun w r w' => r.testBit S.hostBit = w.event ∧ w' = w
  | .clearStatus event => fun w _ w' =>
    w' = if event = S.fromArmEvent then { w with event := false } else w

/-! ## The steps of the ARM -/

/-- The fields of a vring that the ARM leaves alone. -/
def GuardedBy (v : Vring) (l : Log) : Place → Prop
  | .descAddr d i | .descLen d i => d = v.desc ∧ ∃ e ∈ l.outstanding, i = e.head
  | .availIdx a => a = v.avail
  | .availRing a i =>
    a = v.avail ∧ ∃ k, l.collected.length ≤ k ∧ k < l.posted.length ∧ i = k % v.num
  | .usedIdx u | .usedId u _ | .usedLen u _ => u = v.used
  | .msgSrc m | .msgDst m | .msgReserved m | .msgLen m | .msgFlags m | .msgData m _ =>
    ∃ e ∈ l.outstanding, m = e.addr
  | _ => False

/-- What the ARM may post: a descriptor of its own that it has filled in, with a buffer of
its own, behind what it has posted.  To the PRU it does not send anything before it has got
a message that says that there is a channel. -/
structure Postable (S : Setup) (w : World) (q : VringId) (e : Entry) : Prop where
  head_lt : e.head < (S.vring q).num
  head_free : e.head ∉ (w.log q).outstanding.map Entry.head
  buffer : S.buffer e.addr
  addr_free : ∀ q', e.addr ∉ (w.log q').outstanding.map Entry.addr
  entry : w.mem (.availRing (S.vring q).avail ((w.log q).posted.length % (S.vring q).num)) = e.head
  addr : w.mem (.descAddr (S.vring q).desc e.head) = e.addr
  len : w.mem (.descLen (S.vring q).desc e.head) = e.len
  msg : e.msg = .at w.mem e.addr
  short : q = .vring1 → e.msg.data.length ≤ rpmsgBufSize - sizeofRpmsgHdr
  announced : q = .vring1 → (w.log .vring0).collected ≠ []

/-- A step of the ARM.  It does not collect an entry that is not complete. -/
inductive HostStep (S : Setup) : World → World → Prop where
  | write {w : World} (mem : Memory)
    (h : ∀ p q, GuardedBy (S.vring q) (w.log q) p → mem p = w.mem p) :
    HostStep S w { w with mem := mem }
  | post {w : World} (q : VringId) (e : Entry) (h : Postable S w q e) :
    HostStep S w (w.post S q e)
  | collect {w : World} (q : VringId)
    (h : (w.log q).collected.length < (w.log q).returned.length) : HostStep S w (w.collect S q)
  | kick {w : World} :
    HostStep S w { w with event := true, kicked := (w.log .vring1).posted.length }

/-! ## What holds of a vring -/

/-- A vring of whose entries the PRU has taken `taken`, and whose used index counts to
`shown`: the rings hold the entries that are between the counters, and the buffers their
messages. -/
structure Sound (S : Setup) (v : Vring) (taken shown : ℕ) (l : Log) (mem : Memory) : Prop where
  prefix_returned : l.collected <+: l.returned
  returned_le : l.returned.length ≤ shown
  shown_le : shown ≤ taken
  taken_le : taken ≤ l.posted.length
  heads : ∀ (k : ℕ) (u : Used) (e : Entry), l.returned[k]? = some u → l.posted[k]? = some e →
    u.head = e.head
  nodup : (l.outstanding.map Entry.head).Nodup
  head_lt : ∀ e ∈ l.outstanding, e.head < v.num
  buffer : ∀ e ∈ l.outstanding, S.buffer e.addr
  availIdx : mem (.availIdx v.avail) = l.posted.length % 2 ^ 16
  entry : ∀ (k : ℕ) (e : Entry), l.collected.length ≤ k → l.posted[k]? = some e →
    mem (.availRing v.avail (k % v.num)) = e.head ∧
      mem (.descAddr v.desc e.head) = e.addr ∧ mem (.descLen v.desc e.head) = e.len
  waiting : ∀ (k : ℕ) (e : Entry), taken ≤ k → l.posted[k]? = some e → Msg.at mem e.addr = e.msg
  usedIdx : mem (.usedIdx v.used) = shown % 2 ^ 16
  usedRing : ∀ (k : ℕ) (u : Used), shown ≤ k + v.num → l.returned[k]? = some u →
    mem (.usedId v.used (k % v.num)) = u.head ∧ mem (.usedLen v.used (k % v.num)) = u.len
  answered : ∀ (k : ℕ) (u : Used) (e : Entry), l.collected.length ≤ k → l.returned[k]? = some u →
    l.posted[k]? = some e → Msg.at mem e.addr = u.msg

/-- Both vrings are sound, and no buffer is in two places. -/
structure Safe (S : Setup) (taken shown : VringId → ℕ) (w : World) : Prop where
  sound : ∀ q, Sound S (S.vring q) (taken q) (shown q) (w.log q) w.mem
  addr_inj : ∀ (q q' : VringId) (k k' : ℕ) (e e' : Entry),
    (w.log q).collected.length ≤ k → (w.log q).posted[k]? = some e →
    (w.log q').collected.length ≤ k' → (w.log q').posted[k']? = some e' →
    e.addr = e'.addr → q = q' ∧ k = k'
  short : ∀ e ∈ (w.log .vring1).posted, e.msg.data.length ≤ rpmsgBufSize - sizeofRpmsgHdr

/-- An entry is one of those before, or the last one. -/
theorem getElem?_concat {α : Type} {l : List α} {x y : α} {k : ℕ}
    (h : (l ++ [x])[k]? = some y) : l[k]? = some y ∨ k = l.length ∧ y = x := by
  rcases Nat.lt_trichotomy k l.length with hk | rfl | hk
  · rw [List.getElem?_append_left hk] at h
    exact .inl h
  · rw [List.getElem?_concat_length] at h
    exact .inr ⟨rfl, (Option.some.inj h).symm⟩
  · rw [List.getElem?_eq_none (by simp; omega)] at h
    cases h

namespace Log

variable {l : Log} {e : Entry}

theorem mem_outstanding :
    e ∈ l.outstanding ↔ ∃ k, l.collected.length ≤ k ∧ l.posted[k]? = some e := by
  rw [outstanding, List.mem_iff_getElem?]
  constructor
  · rintro ⟨i, hi⟩
    rw [List.getElem?_drop] at hi
    exact ⟨_, Nat.le_add_right .., hi⟩
  · rintro ⟨k, hk, hget⟩
    refine ⟨k - l.collected.length, ?_⟩
    rwa [List.getElem?_drop, Nat.add_sub_cancel' hk]

end Log

/-- The buffer a field belongs to. -/
def Place.msg? : Place → Option ℕ
  | .msgSrc m | .msgDst m | .msgReserved m | .msgLen m | .msgFlags m | .msgData m _ => some m
  | _ => none

theorem Msg.at_congr {mem mem' : Memory} {m : ℕ}
    (h : ∀ p : Place, p.msg? = some m → mem' p = mem p) :
    Msg.at mem' m = Msg.at mem m := by
  simp only [Msg.at, h (.msgSrc m) rfl, h (.msgDst m) rfl, h (.msgReserved m) rfl,
    h (.msgLen m) rfl, h (.msgFlags m) rfl, fun i => h (.msgData m i) rfl]

/-- A message does not see the fields of other structures. -/
theorem Msg.at_update {mem : Memory} {p : Place} {m : ℕ} (v : ℕ) (h : p.msg? ≠ some m) :
    Msg.at (Function.update mem p v) m = Msg.at mem m :=
  Msg.at_congr fun _ hp => Function.update_of_ne (by rintro rfl; exact h hp) ..

theorem guardedBy_msg {v : Vring} {l : Log} {p : Place} {e : Entry} (he : e ∈ l.outstanding)
    (hp : p.msg? = some e.addr) : GuardedBy v l p := by
  cases p <;> simp_all [Place.msg?, GuardedBy] <;> exact ⟨e, he, rfl⟩

namespace Sound

variable {S : Setup} {v : Vring} {taken shown : ℕ} {l : Log} {mem mem' : Memory} {e : Entry}
  {k : ℕ}

theorem collected_le (h : Sound S v taken shown l mem) :
    l.collected.length ≤ l.returned.length := h.prefix_returned.length_le

theorem collected_le_taken (h : Sound S v taken shown l mem) : l.collected.length ≤ taken := by
  have := h.collected_le
  have := h.returned_le
  have := h.shown_le
  omega

theorem mem_outstanding (h : Sound S v taken shown l mem) (hk : taken ≤ k)
    (hget : l.posted[k]? = some e) : e ∈ l.outstanding :=
  Log.mem_outstanding.2 ⟨k, h.collected_le_taken.trans hk, hget⟩

/-- No more is posted and not collected than there are descriptors. -/
theorem posted_le (h : Sound S v taken shown l mem) :
    l.posted.length ≤ l.collected.length + v.num := by
  have hlen := Counter.length_le_of_nodup h.nodup (N := v.num) (by
    simp only [List.mem_map, forall_exists_index, and_imp]
    rintro _ e he rfl
    exact h.head_lt e he)
  rw [List.length_map, Log.outstanding, List.length_drop] at hlen
  omega

/-- Nothing else matters than the fields that the ARM leaves alone. -/
theorem of_mem (h : Sound S v taken shown l mem)
    (hmem : ∀ p, GuardedBy v l p → mem' p = mem p) : Sound S v taken shown l mem' where
  prefix_returned := h.prefix_returned
  returned_le := h.returned_le
  shown_le := h.shown_le
  taken_le := h.taken_le
  heads := h.heads
  nodup := h.nodup
  head_lt := h.head_lt
  buffer := h.buffer
  availIdx := by rw [hmem (.availIdx v.avail) rfl, h.availIdx]
  entry k e hk hget := by
    have he : e ∈ l.outstanding := Log.mem_outstanding.2 ⟨k, hk, hget⟩
    have hlt : k < l.posted.length := (List.getElem?_eq_some_iff.1 hget).1
    rw [hmem (.availRing ..) ⟨rfl, k, hk, hlt, rfl⟩, hmem (.descAddr ..) ⟨rfl, e, he, rfl⟩,
      hmem (.descLen ..) ⟨rfl, e, he, rfl⟩]
    exact h.entry k e hk hget
  waiting k e hk hget := by
    have he := h.mem_outstanding hk hget
    rw [Msg.at_congr fun p hp => hmem p (guardedBy_msg he hp), h.waiting k e hk hget]
  usedIdx := by rw [hmem (.usedIdx v.used) rfl, h.usedIdx]
  usedRing k u hk hget := by
    rw [hmem (.usedId ..) rfl, hmem (.usedLen ..) rfl]
    exact h.usedRing k u hk hget
  answered k u e hk hu he := by
    have hmem' : e ∈ l.outstanding := Log.mem_outstanding.2 ⟨k, hk, he⟩
    rw [Msg.at_congr fun p hp => hmem p (guardedBy_msg hmem' hp), h.answered k u e hk hu he]

/-- A descriptor is posted. -/
theorem post (h : Sound S v taken shown l mem) (hlt : e.head < v.num)
    (hfree : e.head ∉ l.outstanding.map Entry.head) (hbuf : S.buffer e.addr)
    (hring : mem (.availRing v.avail (l.posted.length % v.num)) = e.head)
    (haddr : mem (.descAddr v.desc e.head) = e.addr) (hlen : mem (.descLen v.desc e.head) = e.len)
    (hmsg : e.msg = .at mem e.addr) :
    Sound S v taken shown { l with posted := l.posted ++ [e] }
      (Function.update mem (.availIdx v.avail) ((l.posted.length + 1) % 2 ^ 16)) := by
  have hle : l.collected.length ≤ l.posted.length := h.collected_le_taken.trans h.taken_le
  have hout : Log.outstanding { l with posted := l.posted ++ [e] } = l.outstanding ++ [e] :=
    List.drop_append_of_le_length hle
  have hold {k : ℕ} (hk : k < l.posted.length) : (l.posted ++ [e])[k]? = l.posted[k]? :=
    List.getElem?_append_left hk
  have hreturned {k : ℕ} {u : Used} (hu : l.returned[k]? = some u) : k < l.posted.length := by
    have := (List.getElem?_eq_some_iff.1 hu).1
    have := h.returned_le
    have := h.shown_le
    have := h.taken_le
    omega
  have hat (m : ℕ) : Msg.at (Function.update mem (.availIdx v.avail)
      ((l.posted.length + 1) % 2 ^ 16)) m = Msg.at mem m := Msg.at_update _ (by simp [Place.msg?])
  constructor
  case prefix_returned => exact h.prefix_returned
  case returned_le => exact h.returned_le
  case shown_le => exact h.shown_le
  case taken_le => exact h.taken_le.trans (by simp)
  case heads =>
    intro k u e' hu he'
    rw [hold (hreturned hu)] at he'
    exact h.heads k u e' hu he'
  case nodup =>
    rw [hout, List.map_append]
    exact List.nodup_append.2 ⟨h.nodup, by simp, by simp_all⟩
  case head_lt =>
    rw [hout]
    simpa [or_imp, forall_and] using ⟨h.head_lt, hlt⟩
  case buffer =>
    rw [hout]
    simpa [or_imp, forall_and] using ⟨h.buffer, hbuf⟩
  case availIdx => simp
  case entry =>
    intro k e' hk hget
    rcases getElem?_concat hget with hget | ⟨rfl, rfl⟩
    · simpa using h.entry k e' hk hget
    · simpa using ⟨hring, haddr, hlen⟩
  case waiting =>
    intro k e' hk hget
    rw [hat]
    rcases getElem?_concat hget with hget | ⟨rfl, rfl⟩
    · exact h.waiting k e' hk hget
    · exact hmsg.symm
  case usedIdx => simpa using h.usedIdx
  case usedRing => simpa using h.usedRing
  case answered =>
    intro k u e' hk hu he'
    rw [hold (hreturned hu)] at he'
    rw [hat]
    exact h.answered k u e' hk hu he'

/-- What the ARM finds on the used ring. -/
theorem found (h : Sound S v taken shown l mem) {u : Used}
    (hu : l.returned[l.collected.length]? = some u) :
    let head := mem (.usedId v.used (l.collected.length % v.num))
    (⟨head, mem (.usedLen v.used (l.collected.length % v.num)),
      .at mem (mem (.descAddr v.desc head))⟩ : Used) = u := by
  have hlt := (List.getElem?_eq_some_iff.1 hu).1
  have hposted : l.collected.length < l.posted.length :=
    hlt.trans_le (h.returned_le.trans (h.shown_le.trans h.taken_le))
  have hshown : shown ≤ l.collected.length + v.num :=
    h.shown_le.trans (h.taken_le.trans h.posted_le)
  have he := List.getElem?_eq_getElem hposted
  obtain ⟨hid, hlen⟩ := h.usedRing _ u hshown hu
  obtain ⟨-, haddr, -⟩ := h.entry _ _ le_rfl he
  intro head
  have hhead : head = (l.posted[l.collected.length]).head := hid.trans (h.heads _ _ _ hu he)
  have hmsg := h.answered _ u _ le_rfl hu he
  rw [hhead, haddr, hlen, hmsg, ← h.heads _ _ _ hu he]

/-- What comes next on the used ring is collected. -/
theorem collect (h : Sound S v taken shown l mem) {u : Used}
    (hu : l.returned[l.collected.length]? = some u) :
    Sound S v taken shown { l with collected := l.collected ++ [u] } mem := by
  have hsub : Log.outstanding { l with collected := l.collected ++ [u] } = l.outstanding.tail := by
    simp [Log.outstanding, List.tail_drop]
  have hle {k : ℕ} (hk : (l.collected ++ [u]).length ≤ k) : l.collected.length ≤ k := by
    rw [List.length_append] at hk
    omega
  constructor
  case prefix_returned =>
    obtain ⟨rest, hrest⟩ := h.prefix_returned
    rw [← hrest, List.getElem?_append_right le_rfl, Nat.sub_self] at hu
    obtain ⟨rest', rfl⟩ : ∃ rest', rest = u :: rest' := by
      cases rest with
      | nil => cases hu
      | cons x rest' => exact ⟨rest', by simpa using hu⟩
    exact ⟨rest', by rw [← hrest, List.append_assoc, List.singleton_append]⟩
  case returned_le => exact h.returned_le
  case shown_le => exact h.shown_le
  case taken_le => exact h.taken_le
  case heads => exact h.heads
  case nodup =>
    rw [hsub, List.map_tail]
    exact h.nodup.sublist (List.tail_sublist _)
  case head_lt =>
    rw [hsub]
    exact fun e he => h.head_lt e (List.mem_of_mem_tail he)
  case buffer =>
    rw [hsub]
    exact fun e he => h.buffer e (List.mem_of_mem_tail he)
  case availIdx => exact h.availIdx
  case entry => exact fun k e hk => h.entry k e (hle hk)
  case waiting => exact h.waiting
  case usedIdx => exact h.usedIdx
  case usedRing => exact h.usedRing
  case answered => exact fun k u e hk => h.answered k u e (hle hk)

end Sound

theorem Setup.avail_inj (S : Setup) {q q' : VringId} :
    (S.vring q).avail = (S.vring q').avail ↔ q = q' := by
  have := S.avail_ne
  cases q <;> cases q' <;> simp_all [eq_comm]

namespace Safe

variable {S : Setup} {taken shown : VringId → ℕ} {w w' : World}

theorem post (h : Safe S taken shown w) {q : VringId} {e : Entry} (hpost : Postable S w q e) :
    Safe S taken shown (w.post S q e) := by
  -- the new entry has its buffer for itself
  have hfree {q' : VringId} {k : ℕ} {e' : Entry} (hk : (w.log q').collected.length ≤ k)
      (hget : (w.log q').posted[k]? = some e') : e'.addr ≠ e.addr := fun heq =>
    hpost.addr_free q' (List.mem_map.2 ⟨e', Log.mem_outstanding.2 ⟨k, hk, hget⟩, heq⟩)
  have hcases {q' : VringId} {k : ℕ} {e' : Entry}
      (hget : ((w.post S q e).log q').posted[k]? = some e') :
      (w.log q').posted[k]? = some e' ∨ q' = q ∧ k = (w.log q).posted.length ∧ e' = e := by
    by_cases hq : q' = q
    · subst hq
      simp only [World.post, Function.update_self] at hget
      simpa using getElem?_concat hget
    · simp only [World.post, Function.update_of_ne hq] at hget
      exact .inl hget
  have hcollected (q' : VringId) :
      ((w.post S q e).log q').collected = (w.log q').collected := by
    by_cases hq : q' = q
    · subst hq
      simp [World.post]
    · simp [World.post, hq]
  constructor
  case sound =>
    intro q'
    by_cases hq : q' = q
    · subst hq
      simpa [World.post] using (h.sound q').post hpost.head_lt hpost.head_free hpost.buffer
        hpost.entry hpost.addr hpost.len hpost.msg
    · simp only [World.post, Function.update_of_ne hq]
      refine (h.sound q').of_mem fun p hp => Function.update_of_ne ?_ ..
      rintro rfl
      exact hq (S.avail_inj.1 hp).symm
  case addr_inj =>
    intro q₁ q₂ k₁ k₂ e₁ e₂ hk₁ he₁ hk₂ he₂ heq
    rw [hcollected] at hk₁ hk₂
    rcases hcases he₁ with hold₁ | ⟨rfl, rfl, rfl⟩ <;>
      rcases hcases he₂ with hold₂ | ⟨rfl, rfl, rfl⟩
    · exact h.addr_inj q₁ q₂ k₁ k₂ e₁ e₂ hk₁ hold₁ hk₂ hold₂ heq
    · exact absurd heq (hfree hk₁ hold₁)
    · exact absurd heq.symm (hfree hk₂ hold₂)
    · exact ⟨rfl, rfl⟩
  case short =>
    intro e' he'
    obtain ⟨k, hget⟩ := List.mem_iff_getElem?.1 he'
    rcases hcases hget with hget | ⟨rfl, rfl, rfl⟩
    · exact h.short e' (List.mem_iff_getElem?.2 ⟨k, hget⟩)
    · exact hpost.short rfl

theorem collect (h : Safe S taken shown w) {q : VringId}
    (hlt : (w.log q).collected.length < (w.log q).returned.length) :
    Safe S taken shown (w.collect S q) := by
  have hu := List.getElem?_eq_getElem hlt
  have hfound := (h.sound q).found hu
  simp only at hfound
  have hposted (q' : VringId) : ((w.collect S q).log q').posted = (w.log q').posted := by
    by_cases hq : q' = q
    · subst hq
      simp [World.collect]
    · simp [World.collect, hq]
  have hcollected (q' : VringId) :
      (w.log q').collected.length ≤ ((w.collect S q).log q').collected.length := by
    by_cases hq : q' = q
    · subst hq
      simp [World.collect]
    · simp [World.collect, hq]
  constructor
  case sound =>
    intro q'
    by_cases hq : q' = q
    · subst hq
      simp only [World.collect, Function.update_self]
      rw [hfound]
      exact (h.sound q').collect hu
    · simp only [World.collect, Function.update_of_ne hq]
      exact h.sound q'
  case addr_inj =>
    intro q₁ q₂ k₁ k₂ e₁ e₂ hk₁ he₁ hk₂ he₂ heq
    rw [hposted] at he₁ he₂
    exact h.addr_inj q₁ q₂ k₁ k₂ e₁ e₂ ((hcollected q₁).trans hk₁) he₁ ((hcollected q₂).trans hk₂)
      he₂ heq
  case short =>
    rw [hposted]
    exact h.short

/-- **The ARM keeps it.** -/
theorem host (h : Safe S taken shown w) (hstep : HostStep S w w') : Safe S taken shown w' := by
  cases hstep with
  | write mem hmem => exact ⟨fun q => (h.sound q).of_mem fun p => hmem p q, h.addr_inj, h.short⟩
  | post q e hpost => exact h.post hpost
  | collect q hlt => exact h.collect hlt
  | kick => exact ⟨h.sound, h.addr_inj, h.short⟩

end Safe

end Rpmsg
