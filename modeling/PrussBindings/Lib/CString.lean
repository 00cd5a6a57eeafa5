import PrussBindings.Lib.Utf8
import Mathlib.Data.List.TakeWhile

/-!
# C strings and format strings

What the C library makes of a string: it ends at its first zero byte, and where
it is passed as a format it is read once more, with `%` as an escape.

* `cstr` — the bytes up to the first zero.
* `expand` — the output of `printf` for a format without arguments: `%%` is a
  `%`, and any other use of `%` asks for an argument that is not there.
* `expand_eq_self_iff`, `expand_append_left`, `expand_append_right` — text without a
  `%` stands for itself, alone or around a format.
* `expand_encode` — **a format in UTF-8 can be expanded as text.**
-/

namespace Text

/-! ## Up to the first zero -/

/-- The bytes of a C string: up to the first zero. -/
def cstr (b : Bytes) : Bytes := b.takeWhile (· ≠ 0)

theorem cstr_eq_self {b : Bytes} (hb : 0 ∉ b) : cstr b = b := by
  refine List.takeWhile_eq_self_iff.2 fun x hx => ?_
  have hne : x ≠ 0 := fun h => hb (h ▸ hx)
  simpa using hne

theorem length_cstr_le (b : Bytes) : (cstr b).length ≤ b.length :=
  (List.takeWhile_prefix _).length_le

/-- Text without a zero stays in front. -/
theorem cstr_append {a : Bytes} (ha : 0 ∉ a) (b : Bytes) : cstr (a ++ b) = a ++ cstr b := by
  refine List.takeWhile_append_of_pos fun x hx => ?_
  have hne : x ≠ 0 := fun h => ha (h ▸ hx)
  simpa using hne

/-! ## Formats -/

section Expand

variable {α : Type} [DecidableEq α] {pct : α}

/-- The output of `printf` for a format without arguments, `none` where the
format asks for one. -/
def expand (pct : α) : List α → Option (List α)
  | [] => some []
  | [c] => if c = pct then none else some [c]
  | c :: d :: s =>
    if c = pct then if d = pct then (expand pct s).map (pct :: ·) else none
    else (expand pct (d :: s)).map (c :: ·)

theorem expand_cons {c : α} (hc : c ≠ pct) (s : List α) :
    expand pct (c :: s) = (expand pct s).map (c :: ·) := by
  cases s with
  | nil => simp [expand, hc]
  | cons d s => rw [expand, if_neg hc]

/-- Text without a `%` before a format. -/
theorem expand_append_left {a : List α} (ha : pct ∉ a) (s : List α) :
    expand pct (a ++ s) = (expand pct s).map (a ++ ·) := by
  induction a with
  | nil => simp
  | cons c a ih =>
    rw [List.mem_cons, not_or] at ha
    rw [List.cons_append, expand_cons (Ne.symm ha.1), ih ha.2, Option.map_map]
    rfl

/-- Text without a `%` stands for itself. -/
theorem expand_eq_self {a : List α} (ha : pct ∉ a) : expand pct a = some a := by
  simpa [expand] using expand_append_left ha []

/-- Text without a `%` after a format. -/
theorem expand_append_right (s : List α) {b : List α} (hb : pct ∉ b) :
    expand pct (s ++ b) = (expand pct s).map (· ++ b) := by
  induction s using expand.induct pct with
  | case1 => simp [expand_eq_self hb, expand]
  | case2 =>
    cases b with
    | nil => simp [expand]
    | cons d b =>
      rw [List.mem_cons, not_or] at hb
      simp [expand, Ne.symm hb.1]
  | case3 c hc =>
    rw [List.singleton_append, expand_cons hc, expand_eq_self hb]
    simp [expand, hc]
  | case4 s ih =>
    simp only [List.cons_append, expand, if_true]
    rw [ih]
    cases expand pct s <;> simp
  | case5 d s hd => simp [expand, hd]
  | case6 c d s hc ih =>
    rw [List.cons_append, expand_cons hc, ih, expand_cons hc]
    cases expand pct (d :: s) <;> simp

/-- The output consists of characters of the format. -/
theorem mem_of_expand {s t : List α} (h : expand pct s = some t) {c : α} (hc : c ∈ t) : c ∈ s := by
  induction s using expand.induct pct generalizing t with
  | case1 =>
    cases h
    exact hc
  | case2 => simp [expand] at h
  | case3 d hd =>
    simp only [expand, if_neg hd, Option.some.injEq] at h
    exact h ▸ hc
  | case4 s ih =>
    simp only [expand, if_true, Option.map_eq_some_iff] at h
    obtain ⟨u, hu, rfl⟩ := h
    rcases List.mem_cons.1 hc with rfl | hc
    · exact List.mem_cons_self ..
    · exact List.mem_cons_of_mem _ (List.mem_cons_of_mem _ (ih hu hc))
  | case5 d s hd => simp [expand, hd] at h
  | case6 d e s hd ih =>
    rw [expand_cons hd, Option.map_eq_some_iff] at h
    obtain ⟨u, hu, rfl⟩ := h
    rcases List.mem_cons.1 hc with rfl | hc
    · exact List.mem_cons_self ..
    · exact List.mem_cons_of_mem _ (ih hu hc)

/-- A format with a `%` in it comes out shorter. -/
theorem length_expand_lt {s t : List α} (h : expand pct s = some t) (hpct : pct ∈ s) :
    t.length < s.length := by
  induction s using expand.induct pct generalizing t with
  | case1 => simp at hpct
  | case2 => simp [expand] at h
  | case3 d hd => exact absurd (List.mem_singleton.1 hpct).symm hd
  | case4 s ih =>
    simp only [expand, if_true, Option.map_eq_some_iff] at h
    obtain ⟨u, hu, rfl⟩ := h
    by_cases hs : pct ∈ s
    · have hlt := ih hu hs
      simp only [List.length_cons]
      omega
    · rw [expand_eq_self hs] at hu
      cases hu
      simp
  | case5 d s hd => simp [expand, hd] at h
  | case6 d e s hd ih =>
    rw [expand_cons hd, Option.map_eq_some_iff] at h
    obtain ⟨u, hu, rfl⟩ := h
    have hlt := ih hu ((List.mem_cons.1 hpct).resolve_left (Ne.symm hd))
    simpa using hlt

/-- **A format stands for itself exactly if it has no `%` in it.** -/
theorem expand_eq_self_iff {s : List α} : expand pct s = some s ↔ pct ∉ s :=
  ⟨fun h hpct => absurd (length_expand_lt h hpct) (Nat.lt_irrefl _), expand_eq_self⟩

theorem expand_ne_nil {s t : List α} (h : expand pct s = some t) (hs : s ≠ []) : t ≠ [] := by
  match s, hs with
  | [c], _ =>
    by_cases hc : c = pct <;> simp [expand, hc] at h
    simp [← h]
  | c :: d :: s, _ =>
    by_cases hc : c = pct
    · by_cases hd : d = pct
      · simp only [expand, hc, hd, if_true, Option.map_eq_some_iff] at h
        obtain ⟨u, -, rfl⟩ := h
        exact List.cons_ne_nil _ _
      · simp [expand, hc, hd] at h
    · rw [expand_cons hc, Option.map_eq_some_iff] at h
      obtain ⟨u, -, rfl⟩ := h
      exact List.cons_ne_nil _ _

end Expand

theorem encode_pct_cons (s : Str) : encode ('%' :: s) = 37 :: encode s := by
  rw [← List.singleton_append, encode_append, show encode ['%'] = [37] by decide,
    List.singleton_append]

/-- No byte of another character is a `%`. -/
theorem pct_not_mem_encode {c : Char} (hc : c ≠ '%') : (37 : UInt8) ∉ encode [c] :=
  not_mem_encode (by decide) fun h => hc (List.mem_singleton.1 h).symm

/-- **A format in UTF-8 can be expanded as text.** -/
theorem expand_encode (s : Str) : expand 37 (encode s) = (expand '%' s).map encode := by
  induction s using expand.induct '%' with
  | case1 => rfl
  | case2 =>
    rw [encode_pct_cons]
    rfl
  | case3 c hc =>
    rw [expand_eq_self (pct_not_mem_encode hc)]
    simp [expand, hc]
  | case4 s ih =>
    rw [encode_pct_cons, encode_pct_cons]
    simp only [expand, if_true]
    rw [ih, Option.map_map, Option.map_map]
    refine congrArg (Option.map · (expand '%' s)) (funext fun t => ?_)
    exact (encode_pct_cons t).symm
  | case5 d s hd =>
    rw [encode_pct_cons, show encode (d :: s) = encode [d] ++ encode s from encode_append [d] s]
    cases hfirst : encode [d] with
    | nil =>
      have hempty := congrArg decode hfirst
      rw [decode_encode] at hempty
      cases hempty
    | cons x b =>
      have hx : x ≠ 37 := fun h => pct_not_mem_encode hd (by simp [hfirst, h])
      simp [expand, hd, hx]
  | case6 c d s hc ih =>
    rw [expand_cons hc, ← List.singleton_append, encode_append,
      expand_append_left (pct_not_mem_encode hc), ih, Option.map_map, Option.map_map]
    congr 1
    funext t
    show encode [c] ++ encode t = encode (c :: t)
    rw [← encode_append, List.singleton_append]

end Text
