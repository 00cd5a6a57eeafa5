import Mathlib.Tactic

/-!
# Circular tables and framed byte queues

Two structures that a buffered channel keeps side by side: a queue of items in
which messages are laid end to end, and a circular table of their lengths.
Neither means anything without the other, and the point of this file is the
invariant that ties them together.

* `advance i k` — the slot `k` places after `i` in a table of `N` slots, and
  `ring t i n` — the `n` entries from slot `i` on, wrapping at the end.
* `ring_succ`, `ring_succ'`, `ring_update` — how the entries change when the
  range grows at either end or a slot outside it is written.
* `Framed q t rd wr ms` — **the framing invariant**: the queue holds the
  messages `ms` laid end to end, the slots from `rd` up to `wr` hold exactly
  their lengths, and at least one slot is free.
* `Framed.push`, `Framed.pop` — adding a message at the writing end and taking
  one off at the reading end keep it; `Framed.full_iff` says what the test
  `wr + 1 = rd` finds out.
-/

namespace Ring

variable {N : Nat} {α β : Type}

/-! ## Slots -/

/-- The slot `k` places after slot `i`. -/
def advance (i : Fin N) (k : Nat) : Fin N :=
  ⟨(i + k) % N, Nat.mod_lt _ (i.pos)⟩

@[simp] theorem advance_zero (i : Fin N) : advance i 0 = i :=
  Fin.ext (Nat.mod_eq_of_lt i.isLt)

@[simp] theorem advance_advance (i : Fin N) (j k : Nat) :
    advance (advance i j) k = advance i (j + k) :=
  Fin.ext (by simp [advance, Nat.add_assoc])

/-- Fewer than `N` places apart, two slots are the same only when the distances
are. -/
theorem advance_inj {i : Fin N} {j k : Nat} (hj : j < N) (hk : k < N) :
    advance i j = advance i k ↔ j = k := by
  refine ⟨fun h => ?_, fun h => h ▸ rfl⟩
  have hmod : (i + j) % N = (i + k) % N := congrArg Fin.val h
  have hjk : j ≡ k [MOD N] := Nat.ModEq.add_left_cancel' (i : Nat) hmod
  rwa [Nat.ModEq, Nat.mod_eq_of_lt hj, Nat.mod_eq_of_lt hk] at hjk

/-! ## Ranges of a circular table -/

/-- The `n` entries of a circular table from slot `i` on. -/
def ring (t : Fin N → α) (i : Fin N) (n : Nat) : List α :=
  (List.range n).map fun k => t (advance i k)

/-- A range grows at its far end. -/
theorem ring_succ (t : Fin N → α) (i : Fin N) (n : Nat) :
    ring t i (n + 1) = ring t i n ++ [t (advance i n)] := by
  simp [ring, List.range_succ]

/-- A range starts with its first slot. -/
theorem ring_succ' (t : Fin N → α) (i : Fin N) (n : Nat) :
    ring t i (n + 1) = t i :: ring t (advance i 1) n := by
  simp [ring, List.range_succ_eq_map, Function.comp_def, Nat.add_comm]

/-- Writing the first free slot does not touch the range. -/
theorem ring_update (t : Fin N → α) (i : Fin N) (a : α) {n : Nat} (hn : n < N) :
    ring (Function.update t (advance i n) a) i n = ring t i n := by
  refine List.map_congr_left fun k hk => Function.update_of_ne ?_ _ _
  have hk : k < n := List.mem_range.1 hk
  rw [Ne, advance_inj (by omega) hn]
  omega

/-! ## The framing invariant -/

/-- The queue holds the messages laid end to end, and the slots from `rd` to
`wr` hold exactly their lengths; one slot is always free, so that `rd = wr`
can only mean empty. -/
structure Framed (q : List β) (t : Fin N → Nat) (rd wr : Fin N) (ms : List (List β)) : Prop where
  bytes : q = ms.flatten
  lengths : ring t rd ms.length = ms.map List.length
  last : wr = advance rd ms.length
  free : ms.length < N

namespace Framed

variable {q : List β} {t : Fin N → Nat} {rd wr : Fin N} {ms : List (List β)}

theorem empty (t : Fin N → Nat) (i : Fin N) : Framed ([] : List β) t i i [] :=
  ⟨rfl, rfl, by simp, i.pos⟩

/-- The writing end has caught up with the reading end exactly when one slot
fewer than the table has is in use. -/
theorem full_iff (h : Framed q t rd wr ms) : advance wr 1 = rd ↔ ms.length + 1 = N := by
  rw [h.last, advance_advance]
  have hfree := h.free
  constructor
  · intro hadv
    by_contra hne
    have hrd : advance rd (ms.length + 1) = advance rd 0 := by rw [hadv, advance_zero]
    rw [advance_inj (by omega) (by omega)] at hrd
    omega
  · intro hN
    refine Fin.ext ?_
    simp [advance, hN, Nat.mod_eq_of_lt rd.isLt]

/-- **Writing a message**: its items go to the back of the queue, its length
into the slot at the writing end. -/
theorem push (h : Framed q t rd wr ms) (m : List β) (hroom : ms.length + 1 < N) :
    Framed (q ++ m) (Function.update t wr m.length) rd (advance wr 1) (ms ++ [m]) where
  bytes := by simp [h.bytes]
  lengths := by
    rw [List.length_append, List.length_singleton, ring_succ, h.last, ring_update _ _ _ h.free,
      h.lengths, Function.update_self]
    simp
  last := by simp [h.last]
  free := by simpa using hroom

/-- The slot at the reading end holds the length of the oldest message. -/
theorem head {m : List β} (h : Framed q t rd wr (m :: ms)) : t rd = m.length := by
  have hl := h.lengths
  rw [List.length_cons, ring_succ', List.map_cons] at hl
  exact (List.cons.inj hl).1

/-- The oldest message is what the front of the queue holds. -/
theorem take {m : List β} (h : Framed q t rd wr (m :: ms)) : q.take (t rd) = m := by
  rw [h.head, h.bytes, List.flatten_cons, List.take_left]

/-- **Reading a message**: dropping as many items as the first slot says takes
off exactly the oldest message. -/
theorem pop {m : List β} (h : Framed q t rd wr (m :: ms)) :
    Framed (q.drop (t rd)) t (advance rd 1) wr ms where
  bytes := by rw [h.head, h.bytes, List.flatten_cons, List.drop_left]
  lengths := by
    have hl := h.lengths
    rw [List.length_cons, ring_succ', List.map_cons] at hl
    exact (List.cons.inj hl).2
  last := by rw [h.last, advance_advance, List.length_cons, Nat.add_comm]
  free := by have := h.free; simp only [List.length_cons] at this; omega

end Framed

end Ring
