import Mathlib.Data.Finset.Insert
import Mathlib.Data.Finset.Erase
import Mathlib.Data.Set.Function
import Mathlib.Logic.Function.Basic

/-!
# Tables of what is held

A table maps keys to values.  Each of some holders has one entry in it, under a key
of its own.

* `Lists` — the table has the entries of the given holders, and nothing else.
* `Lists.insert`, `Lists.erase` — an entry is made for a new holder, and one is taken
  out again.
* `Lists.injOn` — holders that are told apart by their values have different keys.
-/

namespace Table

variable {κ ν δ : Type}

/-- The table has the values of these holders under their keys, and nothing else. -/
def Lists (t : κ → Option ν) (holders : Finset δ) (key : δ → κ) (val : δ → ν) : Prop :=
  ∀ k v, t k = some v ↔ ∃ d ∈ holders, key d = k ∧ val d = v

theorem lists_empty (key : δ → κ) (val : δ → ν) : Lists (fun _ => none) ∅ key val := by
  intro k v
  simp

namespace Lists

variable {t : κ → Option ν} {holders : Finset δ} {key key' : δ → κ} {val val' : δ → ν}

theorem apply (h : Lists t holders key val) {d : δ} (hd : d ∈ holders) :
    t (key d) = some (val d) := (h _ _).2 ⟨d, hd, rfl, rfl⟩

/-- A key without an entry is nobody's. -/
theorem eq_none_iff (h : Lists t holders key val) {k : κ} :
    t k = none ↔ ∀ d ∈ holders, key d ≠ k := by
  rw [Option.eq_none_iff_forall_ne_some]
  constructor
  · rintro hnone d hd rfl
    exact hnone _ (h.apply hd)
  · intro hne v hv
    obtain ⟨d, hd, hkey, -⟩ := (h k v).1 hv
    exact hne d hd hkey

theorem congr (h : Lists t holders key val)
    (heq : ∀ d ∈ holders, key' d = key d ∧ val' d = val d) : Lists t holders key' val' := by
  intro k v
  rw [h k v]
  refine exists_congr fun d => and_congr_right fun hd => ?_
  rw [(heq d hd).1, (heq d hd).2]

theorem injOn (h : Lists t holders key val) (hval : Set.InjOn val holders) :
    Set.InjOn key holders := by
  intro d hd d' hd' heq
  have hentry := h.apply hd
  rw [heq, h.apply hd'] at hentry
  exact hval hd hd' (Option.some_inj.1 hentry).symm

variable [DecidableEq κ] [DecidableEq δ]

theorem insert (h : Lists t holders key val) {d : δ} (hfree : t (key d) = none) :
    Lists (Function.update t (key d) (some (val d))) (insert d holders) key val := by
  intro k v
  rw [Finset.exists_mem_insert]
  by_cases hk : k = key d
  · subst hk
    rw [Function.update_self, Option.some_inj]
    refine ⟨fun hv => .inl ⟨rfl, hv⟩, fun hor => hor.elim And.right ?_⟩
    rintro ⟨d', hd', hkey, -⟩
    exact absurd hkey (h.eq_none_iff.1 hfree d' hd')
  · rw [Function.update_of_ne hk, h k v]
    exact ⟨.inr, fun hor => hor.resolve_left fun hnew => hk hnew.1.symm⟩

theorem erase (h : Lists t holders key val) (hinj : Set.InjOn key holders) {d : δ}
    (hd : d ∈ holders) :
    Lists (Function.update t (key d) none) (holders.erase d) key val := by
  intro k v
  by_cases hk : k = key d
  · subst hk
    rw [Function.update_self]
    refine iff_of_false (by simp) ?_
    rintro ⟨d', hd', hkey, -⟩
    obtain ⟨hne, hmem⟩ := Finset.mem_erase.1 hd'
    exact hne (hinj hmem hd hkey)
  · rw [Function.update_of_ne hk, h k v]
    refine exists_congr fun d' => ?_
    rw [Finset.mem_erase]
    refine ⟨fun ⟨hmem, hkey, hval⟩ => ⟨⟨?_, hmem⟩, hkey, hval⟩,
      fun ⟨hmem, hkey, hval⟩ => ⟨hmem.2, hkey, hval⟩⟩
    rintro rfl
    exact hk hkey.symm

end Lists

end Table
