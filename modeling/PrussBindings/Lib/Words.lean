import Mathlib.Data.List.DropRight
import PrussBindings.Lib.Utf8

/-!
# Words of a line

A line of a text protocol is taken apart at its blanks and put together again
with single spaces.  This file models the string methods involved — `strip`,
`split` and `join` with no argument, as Python defines them — and says what a
round trip through them keeps.

* `isSpace` — the code points `str.split()` splits at; `isAsciiSpace` — the
  bytes `bytes.strip()` strips.
* `words` — `s.split()`; `words_append` cuts it at a blank, and `words_token` says
  what it does with a word.
* `unwords` — `' '.join(ws)`; `words_unwords` — **words survive the round
  trip**, and `flatMap_words_eq_self_iff`: nothing else does.
* `decode_intercalate` — a line of bytes put together with single spaces
  decodes piece by piece.
* `words_decode_strip` — stripping the bytes of a line before decoding does not
  change its words.
-/

namespace Text

/-- The code points Python counts as white space. -/
def isSpace (c : Char) : Bool :=
  let n := c.toNat
  (9 ≤ n && n ≤ 13) || (28 ≤ n && n ≤ 32) || n == 0x85 || n == 0xa0 || n == 0x1680 ||
    (0x2000 ≤ n && n ≤ 0x200a) || n == 0x2028 || n == 0x2029 || n == 0x202f || n == 0x205f ||
    n == 0x3000

/-- The bytes `bytes.strip()` strips. -/
def isAsciiSpace (b : UInt8) : Bool := (9 ≤ b && b ≤ 13) || b == 32

/-! ## Words -/

/-- `s.split()`: the maximal runs of characters that are not white space. -/
def words (s : Str) : List Str := (s.splitOnP isSpace).filter (· ≠ [])

/-- A word: what `split` can return. -/
def IsToken (w : Str) : Prop := w ≠ [] ∧ ∀ c ∈ w, isSpace c = false

-- the instance for lists, so that it is not decided over all characters
instance (w : Str) : Decidable (IsToken w) :=
  @instDecidableAnd _ _ inferInstance (List.decidableBAll _ w)

@[simp] theorem words_nil : words [] = [] := rfl

/-- A blank separates words. -/
theorem words_append (s t : Str) {c : Char} (hc : isSpace c = true) :
    words (s ++ c :: t) = words s ++ words t := by
  unfold words
  rw [List.splitOnP_append_cons s t hc, List.filter_append]

@[simp] theorem words_space (t : Str) {c : Char} (hc : isSpace c = true) :
    words (c :: t) = words t := by
  simpa using words_append [] t hc

theorem words_append_space (s : Str) {c : Char} (hc : isSpace c = true) :
    words (s ++ [c]) = words s := by
  simpa using words_append s [] hc

theorem words_rdropWhile (v : Str) : words (v.rdropWhile isSpace) = words v := by
  induction v using List.reverseRecOn with
  | nil => rfl
  | append_singleton v c ih =>
    by_cases hc : isSpace c = true
    · rw [List.rdropWhile_concat_pos _ _ _ hc, ih, words_append_space v hc]
    · rw [List.rdropWhile_concat_neg _ _ _ hc]

/-- A word is its own only word. -/
theorem words_token {w : Str} (hw : IsToken w) : words w = [w] := by
  unfold words
  rw [List.splitOnP_eq_singleton hw.2]
  simp [hw.1]

/-- What `split` returns are words. -/
theorem isToken_of_mem_words {s w : Str} (hw : w ∈ words s) : IsToken w := by
  unfold words at hw
  rw [List.mem_filter] at hw
  obtain ⟨hmem, hne⟩ := hw
  refine ⟨by simpa using hne, ?_⟩
  clear hne
  induction s generalizing w with
  | nil =>
    rw [List.splitOnP_nil, List.mem_singleton] at hmem
    simp [hmem]
  | cons c s ih =>
    rw [List.splitOnP_cons_eq_if_modifyHead] at hmem
    by_cases hc : isSpace c = true
    · rw [if_pos hc] at hmem
      rcases List.mem_cons.1 hmem with rfl | hmem
      · simp
      · exact ih hmem
    · rw [if_neg hc] at hmem
      cases hp : s.splitOnP isSpace with
      | nil => exact absurd hp (List.splitOnP_ne_nil _ _)
      | cons p ps =>
        rw [hp, List.modifyHead_cons] at hmem
        rcases List.mem_cons.1 hmem with rfl | hmem
        · intro d hd
          rcases List.mem_cons.1 hd with rfl | hd
          · simpa using hc
          · exact ih (by rw [hp]; exact List.mem_cons_self ..) d hd
        · exact ih (by rw [hp]; exact List.mem_cons_of_mem _ hmem)

/-! ## Joining -/

/-- `' '.join(ws)`. -/
def unwords (ws : List Str) : Str := [' '].intercalate ws

@[simp] theorem unwords_nil : unwords [] = [] := rfl

@[simp] theorem unwords_singleton (w : Str) : unwords [w] = w := by simp [unwords]

theorem unwords_cons_cons (w v : Str) (ws : List Str) :
    unwords (w :: v :: ws) = w ++ ' ' :: unwords (v :: ws) := by
  simp [unwords]

/-- Joining and splitting again splits every piece. -/
theorem words_unwords_flatMap (ss : List Str) : words (unwords ss) = ss.flatMap words := by
  induction ss with
  | nil => rfl
  | cons s ss ih =>
    cases ss with
    | nil => simp
    | cons t ss =>
      rw [unwords_cons_cons, words_append s _ (by decide), ih]
      rfl

/-- A list of strings splits into itself exactly if each of them is a word. -/
theorem flatMap_words_eq_self_iff {ss : List Str} :
    ss.flatMap words = ss ↔ ∀ s ∈ ss, IsToken s := by
  constructor
  · intro h s hs
    rw [← h, List.mem_flatMap] at hs
    obtain ⟨t, -, hw⟩ := hs
    exact isToken_of_mem_words hw
  · intro h
    induction ss with
    | nil => rfl
    | cons s ss ih =>
      rw [List.flatMap_cons, words_token (h s (List.mem_cons_self ..)),
        ih fun t ht => h t (List.mem_cons_of_mem _ ht)]
      rfl

/-- **Words survive the round trip.** -/
theorem words_unwords {ws : List Str} (h : ∀ w ∈ ws, IsToken w) : words (unwords ws) = ws := by
  rw [words_unwords_flatMap, flatMap_words_eq_self_iff.2 h]

/-- Joining commutes with encoding. -/
theorem encode_unwords (ws : List Str) : encode (unwords ws) = [32].intercalate (ws.map encode) := by
  induction ws with
  | nil => rfl
  | cons w ws ih =>
    cases ws with
    | nil => simp
    | cons v ws =>
      rw [unwords_cons_cons, encode_append, show encode (' ' :: unwords (v :: ws)) =
        32 :: encode (unwords (v :: ws)) from rfl, ih]
      simp

/-- A line of bytes put together with single spaces decodes piece by piece. -/
theorem decode_intercalate (b : Bytes) (bs : List Bytes) :
    decode ([32].intercalate (b :: bs)) = ((b :: bs).mapM decode).map unwords := by
  induction bs generalizing b with
  | nil => cases decode b <;> simp [*]
  | cons c bs ih =>
    have hjoin : [32].intercalate (b :: c :: bs) = b ++ 32 :: [32].intercalate (c :: bs) := by
      simp
    rw [hjoin, decode_append_ascii _ _ (by decide), ih, List.mapM_cons (a := b)]
    cases decode b with
    | none => rfl
    | some s =>
      simp only [List.mapM_cons]
      cases decode c with
      | none => rfl
      | some t =>
        cases bs.mapM decode with
        | none => rfl
        | some ts => exact congrArg some (unwords_cons_cons s t ts).symm

/-! ## Stripping -/

/-- `b.strip()` on bytes. -/
def strip (b : Bytes) : Bytes := (b.dropWhile isAsciiSpace).rdropWhile isAsciiSpace

theorem isAsciiSpace_lt {x : UInt8} (hx : isAsciiSpace x = true) : x < 128 := by
  have hx' : (9 ≤ x.toNat ∧ x.toNat ≤ 13) ∨ x.toNat = 32 := by
    simpa [isAsciiSpace, UInt8.le_iff_toNat_le, ← UInt8.toNat_inj] using hx
  show x.toNat < 128
  omega

theorem isSpace_asciiChar {x : UInt8} (hx : isAsciiSpace x = true) :
    isSpace (asciiChar x) = true := by
  have hx' : (9 ≤ x.toNat ∧ x.toNat ≤ 13) ∨ x.toNat = 32 := by
    simpa [isAsciiSpace, UInt8.le_iff_toNat_le, ← UInt8.toNat_inj] using hx
  have hn : (asciiChar x).toNat = x.toNat := toNat_asciiChar x
  simp only [isSpace, hn, Bool.or_eq_true, Bool.and_eq_true, decide_eq_true_eq, beq_iff_eq]
  omega

theorem words_decode_cons {x : UInt8} (hx : isAsciiSpace x = true) (b : Bytes) :
    (decode (x :: b)).map words = (decode b).map words := by
  have hd := decode_append_ascii [] b (isAsciiSpace_lt hx)
  rw [List.nil_append] at hd
  rw [hd, show decode [] = some [] from decode_encode [], Option.bind_some, Option.map_map]
  congr 1
  funext u
  exact words_space u (isSpace_asciiChar hx)

theorem words_decode_concat {x : UInt8} (hx : isAsciiSpace x = true) (b : Bytes) :
    (decode (b ++ [x])).map words = (decode b).map words := by
  rw [decode_append_ascii b [] (isAsciiSpace_lt hx), show decode [] = some [] from decode_encode []]
  cases decode b with
  | none => rfl
  | some s => simp [words_append_space s (isSpace_asciiChar hx)]

/-- **Stripping the bytes of a line does not change its words**, nor whether it
decodes at all. -/
theorem words_decode_strip (b : Bytes) : (decode (strip b)).map words = (decode b).map words := by
  have hleft : ∀ b : Bytes,
      (decode (b.dropWhile isAsciiSpace)).map words = (decode b).map words := by
    intro b
    induction b with
    | nil => rfl
    | cons x b ih =>
      by_cases hx : isAsciiSpace x = true
      · rw [List.dropWhile_cons_of_pos hx, ih, words_decode_cons hx]
      · rw [List.dropWhile_cons_of_neg hx]
  have hright : ∀ b : Bytes,
      (decode (b.rdropWhile isAsciiSpace)).map words = (decode b).map words := by
    intro b
    induction b using List.reverseRecOn with
    | nil => rfl
    | append_singleton b x ih =>
      by_cases hx : isAsciiSpace x = true
      · rw [List.rdropWhile_concat_pos _ _ _ hx, ih, words_decode_concat hx]
      · rw [List.rdropWhile_concat_neg _ _ _ hx]
  rw [strip, hright, hleft]

end Text
