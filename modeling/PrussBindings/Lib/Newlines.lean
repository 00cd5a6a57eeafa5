import PrussBindings.Lib.Utf8

/-!
# Separators and line endings

What stands before and after a separator, and what Python takes for the end of a
line: a file that is opened as text ends its lines with a newline, whatever the bytes
of the file, and a carriage return, alone or before a newline, is read as one.

* `takeWhile_ne_append`, `dropWhile_ne_append` — a list is cut at its first separator.
* `universalNewlines` — the translation of a whole text.
* `NewlineDecoder.feed` — the translation of a text that comes in pieces; a
  carriage return at the end of a piece is held back, for a newline may follow.
* `universalNewlines_eq_self`, `NewlineDecoder.feed_eq` — **text without a
  carriage return stands for itself**; no other text does, since none is left.
-/

namespace Text

/-! ## Up to a separator -/

section Separator

variable {α : Type} [DecidableEq α] {x : α} {k : List α}

theorem all_ne_of_not_mem (hk : x ∉ k) : ∀ y ∈ k, decide (y ≠ x) = true := by
  intro y hy
  exact decide_eq_true fun h => hk (h ▸ hy)

/-- What stands before the first separator. -/
theorem takeWhile_ne_append (hk : x ∉ k) (v : List α) : (k ++ x :: v).takeWhile (· ≠ x) = k := by
  rw [List.takeWhile_append_of_pos (all_ne_of_not_mem hk)]
  simp

/-- The separator and what stands after it. -/
theorem dropWhile_ne_append (hk : x ∉ k) (v : List α) :
    (k ++ x :: v).dropWhile (· ≠ x) = x :: v := by
  rw [List.dropWhile_append_of_pos (all_ne_of_not_mem hk)]
  simp

omit [DecidableEq α] in
theorem dropWhile_append_cons {p : α → Bool} {c : α} (hc : p c = false) (k v : List α) :
    (k ++ c :: v).dropWhile p = k.dropWhile p ++ c :: v := by
  induction k with
  | nil => exact List.dropWhile_cons_of_neg (by simp [hc])
  | cons d k ih =>
    rw [List.cons_append]
    by_cases hd : p d = true
    · rw [List.dropWhile_cons_of_pos hd, List.dropWhile_cons_of_pos hd, ih]
    · rw [List.dropWhile_cons_of_neg hd, List.dropWhile_cons_of_neg hd, List.cons_append]

theorem length_splitOn (s : List α) (x : α) : (s.splitOn x).length = s.count x + 1 := by
  induction s with
  | nil => rfl
  | cons d s ih =>
    rw [List.splitOn_cons_eq_if_modifyHead]
    by_cases hd : d = x
    · subst hd
      simp [ih]
    · simp [hd, ih]

end Separator

/-! ## Whole text -/

/-- Reads every line ending as a newline; the flag says that the character
before was a carriage return, to which a newline now belongs. -/
def translateNewlines : Bool → Str → Str
  | _, [] => []
  | afterCr, c :: s =>
    if c = '\r' then '\n' :: translateNewlines true s
    else if c = '\n' ∧ afterCr then translateNewlines false s
    else c :: translateNewlines false s

/-- `s.replace("\r\n", "\n").replace("\r", "\n")`. -/
def universalNewlines (s : Str) : Str := translateNewlines false s

theorem not_mem_translateNewlines (afterCr : Bool) (s : Str) :
    '\r' ∉ translateNewlines afterCr s := by
  induction s generalizing afterCr with
  | nil => simp [translateNewlines]
  | cons c s ih =>
    unfold translateNewlines
    split_ifs with hcr hnl
    · simpa using ih true
    · exact ih false
    · rw [List.mem_cons, not_or]
      exact ⟨Ne.symm hcr, ih false⟩

/-- No carriage return is left. -/
theorem not_mem_universalNewlines (s : Str) : '\r' ∉ universalNewlines s :=
  not_mem_translateNewlines false s

/-- Text without a carriage return stands for itself. -/
theorem universalNewlines_eq_self {s : Str} (h : '\r' ∉ s) : universalNewlines s = s := by
  unfold universalNewlines
  induction s with
  | nil => rfl
  | cons c s ih =>
    rw [List.mem_cons, not_or] at h
    rw [translateNewlines, if_neg (Ne.symm h.1), if_neg (by simp), ih h.2]

/-! ## Text in pieces -/

/-- A translation under way: `held` is a carriage return that the last piece
ended with. -/
structure NewlineDecoder where
  held : Bool
  deriving DecidableEq, Repr

namespace NewlineDecoder

/-- The next piece, with what was held back in front. -/
def resume (d : NewlineDecoder) (piece : Str) (final : Bool) : Str :=
  if d.held ∧ (piece ≠ [] ∨ final) then '\r' :: piece else piece

/-- What a piece of text adds to the translation.  After the `final` one nothing
is held back. -/
def feed (d : NewlineDecoder) (piece : Str) (final : Bool) : Str × NewlineDecoder :=
  let output := d.resume piece final
  if output.getLast? = some '\r' ∧ final = false then (universalNewlines output.dropLast, ⟨true⟩)
  else (universalNewlines output, ⟨d.held && piece.isEmpty && !final⟩)

/-- No carriage return is let through. -/
theorem not_mem_feed (d : NewlineDecoder) (piece : Str) (final : Bool) :
    '\r' ∉ (d.feed piece final).1 := by
  simp only [feed]
  split_ifs <;> exact not_mem_universalNewlines _

/-- A piece without a carriage return is let through as it is. -/
theorem feed_eq {piece : Str} (h : '\r' ∉ piece) (final : Bool) :
    feed ⟨false⟩ piece final = (piece, ⟨false⟩) := by
  have hresume : resume ⟨false⟩ piece final = piece := if_neg (by simp)
  have hlast : ¬ (piece.getLast? = some '\r' ∧ final = false) :=
    fun hcr => h (List.mem_of_getLast? hcr.1)
  unfold feed
  simp only [hresume]
  rw [if_neg hlast, universalNewlines_eq_self h]
  rfl

end NewlineDecoder

end Text
