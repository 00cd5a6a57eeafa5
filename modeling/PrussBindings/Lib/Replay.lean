import Mathlib.Tactic

/-!
# Replaying a log out of order

A replica that has not yet applied all entries of a log will be up to date once
it has.  This file says when it still will be if it takes the entries in another
order.

* `Commute act x y` — the entries `x` and `y` have one effect in either order.
* `replay_concat` — an entry is added at the end of the log.
* `replay_take` — **an entry may be taken early if it commutes with those that
  are passed over**.
-/

namespace Replay

variable {σ ε : Type}

/-- The two entries have the same effect in either order. -/
def Commute (act : σ → ε → σ) (x y : ε) : Prop := ∀ s, act (act s x) y = act (act s y) x

variable {act : σ → ε → σ} {x : ε} {earlier later : List ε}

theorem replay_concat (log : List ε) (x : ε) (s : σ) :
    (log ++ [x]).foldl act s = act (log.foldl act s) x := by
  rw [List.foldl_append]
  rfl

/-- An entry that commutes with a log may be applied before it. -/
theorem foldl_commute (h : ∀ y ∈ earlier, Commute act x y) (s : σ) :
    earlier.foldl act (act s x) = act (earlier.foldl act s) x := by
  induction earlier generalizing s with
  | nil => rfl
  | cons y earlier ih =>
    rw [List.foldl_cons, List.foldl_cons, h y (List.mem_cons_self ..),
      ih fun z hz => h z (List.mem_cons_of_mem _ hz)]

/-- **An entry may be taken early** if it commutes with those that are passed
over. -/
theorem replay_take (h : ∀ y ∈ earlier, Commute act x y) (s : σ) :
    (earlier ++ later).foldl act (act s x) = (earlier ++ x :: later).foldl act s := by
  rw [List.foldl_append, foldl_commute h, List.foldl_append, List.foldl_cons]

end Replay
