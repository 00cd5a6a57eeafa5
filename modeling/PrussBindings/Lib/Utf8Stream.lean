import PrussBindings.Lib.Utf8

/-!
# UTF-8 text in pieces

Bytes that come from a stream are cut where the stream likes, also inside a
character.  A decoder keeps the front of such a character until the rest comes.

* `isPartial` — the bytes are the front of a character, and not all of it.
* `pushByte`, `pushBytes` — a strict decoder: it gives the characters that are
  complete, keeps what may become one, and fails at a byte that fits nothing.
* `pushBytes_sound`, `pushBytes_append`, `pushBytes_eq_some_nil_iff` — **no byte is
  lost, it does not matter how the bytes are cut, and well-formed text is decoded.**
* `decodeLossy` — the decoder that puts a replacement character where the strict
  one fails.
-/

namespace Text

/-! ## The front of a character -/

/-- A byte that continues a character. -/
def isContinuation (x : UInt8) : Bool := decide (0x80 ≤ x ∧ x ≤ 0xBF)

/-- The second byte may follow the first one. -/
def isSecond (x y : UInt8) : Bool :=
  if x = 0xE0 then decide (0xA0 ≤ y ∧ y ≤ 0xBF)
  else if x = 0xED then decide (0x80 ≤ y ∧ y ≤ 0x9F)
  else if x = 0xF0 then decide (0x90 ≤ y ∧ y ≤ 0xBF)
  else if x = 0xF4 then decide (0x80 ≤ y ∧ y ≤ 0x8F)
  else isContinuation y

/-- The bytes are the front of a character, but not all of it. -/
def isPartial : Bytes → Bool
  | [x] => decide (0xC2 ≤ x ∧ x ≤ 0xF4)
  | [x, y] => decide (0xE0 ≤ x ∧ x ≤ 0xF4) && isSecond x y
  | [x, y, z] => decide (0xF0 ≤ x ∧ x ≤ 0xF4) && isSecond x y && isContinuation z
  | _ => false

theorem isContinuation_iff (x : UInt8) :
    isContinuation x = true ↔ 0x80 ≤ x.toNat ∧ x.toNat ≤ 0xBF := by
  simp [isContinuation, UInt8.le_iff_toNat_le]

theorem isSecond_iff (x y : UInt8) : isSecond x y = true ↔
    (0x80 ≤ y.toNat ∧ y.toNat ≤ 0xBF) ∧ (x.toNat = 0xE0 → 0xA0 ≤ y.toNat) ∧
      (x.toNat = 0xED → y.toNat ≤ 0x9F) ∧ (x.toNat = 0xF0 → 0x90 ≤ y.toNat) ∧
      (x.toNat = 0xF4 → y.toNat ≤ 0x8F) := by
  unfold isSecond
  simp only [← UInt8.toNat_inj, UInt8.reduceToNat]
  split_ifs <;> simp [isContinuation_iff, UInt8.le_iff_toNat_le, *] <;> omega

/-- The bytes of a character, by their number. -/
theorem encodeChar_cases (c : Char) :
    (∃ x, String.utf8EncodeChar c = [x]) ∨
    (∃ x y, String.utf8EncodeChar c = [x, y] ∧ 0xC2 ≤ x.toNat ∧ x.toNat ≤ 0xDF) ∨
    (∃ x y z, String.utf8EncodeChar c = [x, y, z] ∧ 0xE0 ≤ x.toNat ∧ x.toNat ≤ 0xEF ∧
      isSecond x y = true) ∨
    ∃ x y z w, String.utf8EncodeChar c = [x, y, z, w] ∧ 0xF0 ≤ x.toNat ∧ x.toNat ≤ 0xF4 ∧
      isSecond x y = true ∧ isContinuation z = true := by
  have hvalid : c.val.toNat < 0xD800 ∨ 0xDFFF < c.val.toNat ∧ c.val.toNat < 0x110000 := c.valid
  simp only [isSecond_iff, isContinuation_iff]
  unfold String.utf8EncodeChar
  generalize c.val.toNat = v at hvalid
  dsimp only
  split_ifs with hone htwo hthree
  · exact .inl ⟨_, rfl⟩
  · refine .inr (.inl ⟨_, _, rfl, ?_, ?_⟩) <;> simp only [UInt8.toNat_ofNat'] <;> omega
  · refine .inr (.inr (.inl ⟨_, _, _, rfl, ?_, ?_, ?_⟩)) <;> simp only [UInt8.toNat_ofNat'] <;> omega
  · refine .inr (.inr (.inr ⟨_, _, _, _, rfl, ?_, ?_, ?_, ?_⟩)) <;> simp only [UInt8.toNat_ofNat'] <;>
      omega

theorem isPartial_one {x : UInt8} (hlo : 0xC2 ≤ x.toNat) (hhi : x.toNat ≤ 0xF4) :
    isPartial [x] = true := by
  simpa [isPartial, UInt8.le_iff_toNat_le] using And.intro hlo hhi

theorem isPartial_two {x y : UInt8} (hlo : 0xE0 ≤ x.toNat) (hhi : x.toNat ≤ 0xF4)
    (hsecond : isSecond x y = true) : isPartial [x, y] = true := by
  simpa [isPartial, UInt8.le_iff_toNat_le, hsecond] using And.intro hlo hhi

theorem isPartial_three {x y z : UInt8} (hlo : 0xF0 ≤ x.toNat) (hhi : x.toNat ≤ 0xF4)
    (hsecond : isSecond x y = true) (hthird : isContinuation z = true) :
    isPartial [x, y, z] = true := by
  simpa [isPartial, UInt8.le_iff_toNat_le, hsecond, hthird] using And.intro hlo hhi

/-- What is cut off the end of a character leaves a front of it. -/
theorem isPartial_of_encodeChar {c : Char} {a b : Bytes} (hab : String.utf8EncodeChar c = a ++ b)
    (ha : a ≠ []) (hb : b ≠ []) : isPartial a = true := by
  obtain ⟨x, hc⟩ | ⟨x, y, hc, hlo, hhi⟩ | ⟨x, y, z, hc, hlo, hhi, hsecond⟩ |
    ⟨x, y, z, w, hc, hlo, hhi, hsecond, hthird⟩ := encodeChar_cases c
  all_goals
    rw [hc] at hab
    obtain ⟨x', a, rfl⟩ := List.exists_cons_of_ne_nil ha
    obtain ⟨rfl, htail⟩ := List.cons.inj hab
    clear hab ha
  · exact absurd (List.append_eq_nil_iff.1 htail.symm).2 hb
  · match a, htail with
    | [], _ => exact isPartial_one hlo (by omega)
    | _ :: a, htail =>
      obtain ⟨rfl, hnil⟩ := List.cons.inj htail
      exact absurd (List.append_eq_nil_iff.1 hnil.symm).2 hb
  · match a, htail with
    | [], _ => exact isPartial_one (by omega) (by omega)
    | [_], htail =>
      obtain ⟨rfl, -⟩ := List.cons.inj htail
      exact isPartial_two hlo (by omega) hsecond
    | _ :: _ :: a, htail =>
      obtain ⟨rfl, hrest⟩ := List.cons.inj htail
      exact absurd (List.append_eq_nil_iff.1 (List.cons.inj hrest).2.symm).2 hb
  · match a, htail with
    | [], _ => exact isPartial_one (by omega) hhi
    | [_], htail =>
      obtain ⟨rfl, -⟩ := List.cons.inj htail
      exact isPartial_two (by omega) hhi hsecond
    | [_, _], htail =>
      obtain ⟨rfl, hrest⟩ := List.cons.inj htail
      obtain ⟨rfl, -⟩ := List.cons.inj hrest
      exact isPartial_three hlo hhi hsecond hthird
    | _ :: _ :: _ :: a, htail =>
      obtain ⟨rfl, hrest⟩ := List.cons.inj htail
      obtain ⟨rfl, hlast⟩ := List.cons.inj hrest
      exact absurd (List.append_eq_nil_iff.1 (List.cons.inj hlast).2.symm).2 hb

/-- A front of a character is no text. -/
theorem decode_front {c : Char} {a b : Bytes} (hab : String.utf8EncodeChar c = a ++ b)
    (ha : a ≠ []) (hb : b ≠ []) : decode a = none := by
  by_contra hne
  obtain ⟨s, hs⟩ := Option.ne_none_iff_exists'.1 hne
  obtain rfl : encode s = a := decode_eq_some_iff.1 hs
  have hone : decode (encode s ++ b) = some [c] := by
    rw [← hab]
    exact decode_eq_some_iff.2 (List.append_nil _)
  rw [decode_encode_append, Option.map_eq_some_iff] at hone
  obtain ⟨u, hu, hc⟩ := hone
  rcases List.append_eq_singleton_iff.1 hc with ⟨rfl, -⟩ | ⟨-, rfl⟩
  · exact ha rfl
  · exact hb (decode_eq_some_iff.1 hu).symm

/-! ## The strict decoder -/

/-- One byte, after those that were kept: the characters it completes, and what
is kept then. -/
def pushByte (kept : Bytes) (x : UInt8) : Option (Str × Bytes) :=
  match decode (kept ++ [x]) with
  | some s => some (s, [])
  | none => if isPartial (kept ++ [x]) then some ([], kept ++ [x]) else none

/-- Some bytes, after those that were kept. -/
def pushBytes (kept : Bytes) : Bytes → Option (Str × Bytes)
  | [] => some ([], kept)
  | x :: b => do
    let (s, kept) ← pushByte kept x
    let (t, kept) ← pushBytes kept b
    return (s ++ t, kept)

@[simp] theorem pushBytes_nil (kept : Bytes) : pushBytes kept [] = some ([], kept) := rfl

theorem pushBytes_cons (kept : Bytes) (x : UInt8) (b : Bytes) :
    pushBytes kept (x :: b) =
      (pushByte kept x).bind fun r => (pushBytes r.2 b).bind fun r' => some (r.1 ++ r'.1, r'.2) := rfl

theorem pushByte_sound {kept kept' : Bytes} {x : UInt8} {s : Str}
    (h : pushByte kept x = some (s, kept')) : encode s ++ kept' = kept ++ [x] := by
  unfold pushByte at h
  split at h
  next s' hs =>
    cases h
    rw [List.append_nil]
    exact decode_eq_some_iff.1 hs
  next =>
    split_ifs at h
    cases h
    rfl

/-- **No byte is lost.** -/
theorem pushBytes_sound {kept kept' b : Bytes} {s : Str} (h : pushBytes kept b = some (s, kept')) :
    encode s ++ kept' = kept ++ b := by
  induction b generalizing kept s with
  | nil =>
    cases h
    exact (List.append_nil _).symm
  | cons x b ih =>
    rw [pushBytes_cons] at h
    obtain ⟨⟨s₁, mid⟩, hx, h⟩ := Option.bind_eq_some_iff.1 h
    obtain ⟨⟨s₂, kept₂⟩, hb, heq⟩ := Option.bind_eq_some_iff.1 h
    cases heq
    rw [encode_append, List.append_assoc, ih hb, ← List.append_assoc, pushByte_sound hx,
      List.append_assoc, List.singleton_append]

/-- **It does not matter how the bytes are cut.** -/
theorem pushBytes_append (kept a b : Bytes) :
    pushBytes kept (a ++ b) =
      (pushBytes kept a).bind fun r => (pushBytes r.2 b).bind fun r' => some (r.1 ++ r'.1, r'.2) := by
  induction a generalizing kept with
  | nil => simp
  | cons x a ih =>
    rw [List.cons_append, pushBytes_cons, pushBytes_cons, Option.bind_assoc]
    refine Option.bind_congr fun r _ => ?_
    rw [ih, Option.bind_assoc, Option.bind_assoc]
    refine Option.bind_congr fun r' _ => ?_
    simp [Option.bind_assoc, List.append_assoc]

/-- The front of a character is kept. -/
theorem pushBytes_front {c : Char} {a b : Bytes} (hab : String.utf8EncodeChar c = a ++ b)
    (hb : b ≠ []) : pushBytes [] a = some ([], a) := by
  induction a using List.reverseRecOn generalizing b with
  | nil => rfl
  | append_singleton a x ih =>
    have hab' : String.utf8EncodeChar c = a ++ x :: b := by simpa using hab
    have hpush : pushByte a x = some ([], a ++ [x]) := by
      unfold pushByte
      rw [decode_front hab (by simp) hb]
      exact if_pos (isPartial_of_encodeChar hab (by simp) hb)
    rw [pushBytes_append, ih hab' (by simp)]
    simp [pushBytes, hpush]

theorem pushBytes_encodeChar (c : Char) :
    pushBytes [] (String.utf8EncodeChar c) = some ([c], []) := by
  rcases List.eq_nil_or_concat (String.utf8EncodeChar c) with hnil | ⟨a, x, hax⟩
  · exact absurd hnil (String.utf8EncodeChar_ne_nil)
  · have hdecode : decode (a ++ [x]) = some [c] := by
      rw [← List.concat_eq_append, ← hax]
      exact decode_eq_some_iff.2 (List.append_nil _)
    rw [hax, List.concat_eq_append, pushBytes_append,
      pushBytes_front (b := [x]) (hax.trans List.concat_eq_append) (by simp)]
    simp [pushBytes, pushByte, hdecode]

/-- Text is decoded. -/
theorem pushBytes_encode (s : Str) : pushBytes [] (encode s) = some (s, []) := by
  induction s with
  | nil => rfl
  | cons c s ih =>
    rw [encode_cons, pushBytes_append, pushBytes_encodeChar]
    simp [ih]

/-- **Bytes that leave nothing over are those of the text.** -/
theorem pushBytes_eq_some_nil_iff {b : Bytes} {s : Str} :
    pushBytes [] b = some (s, []) ↔ decode b = some s := by
  constructor
  · intro h
    exact decode_eq_some_iff.2 (by simpa using pushBytes_sound h)
  · intro h
    rw [← decode_eq_some_iff.1 h]
    exact pushBytes_encode s

/-- What a decoder keeps: nothing, or the front of a character. -/
def IsFront (b : Bytes) : Prop := b = [] ∨ isPartial b = true

theorem isFront_nil : IsFront [] := .inl rfl

/-- No byte that is kept is an ASCII byte. -/
theorem IsFront.ge {b : Bytes} (h : IsFront b) : ∀ x ∈ b, ¬ x < 128 := by
  have hsecond {x y : UInt8} (hxy : isSecond x y = true) : 128 ≤ y.toNat :=
    ((isSecond_iff x y).1 hxy).1.1
  rcases h with rfl | h
  · simp
  · match b, h with
    | [x], h =>
      simp only [isPartial, decide_eq_true_eq, UInt8.le_iff_toNat_le, UInt8.reduceToNat] at h
      simp only [List.mem_singleton, forall_eq, UInt8.lt_iff_toNat_lt, UInt8.reduceToNat]
      omega
    | [x, y], h =>
      simp only [isPartial, Bool.and_eq_true, decide_eq_true_eq, UInt8.le_iff_toNat_le,
        UInt8.reduceToNat] at h
      have hy := hsecond h.2
      simp only [List.forall_mem_cons, UInt8.lt_iff_toNat_lt, UInt8.reduceToNat]
      exact ⟨by omega, by omega, by simp⟩
    | [x, y, z], h =>
      simp only [isPartial, Bool.and_eq_true, decide_eq_true_eq, UInt8.le_iff_toNat_le,
        UInt8.reduceToNat] at h
      have hy := hsecond h.1.2
      have hz := (isContinuation_iff z).1 h.2
      simp only [List.forall_mem_cons, UInt8.lt_iff_toNat_lt, UInt8.reduceToNat]
      exact ⟨by omega, by omega, by omega, by simp⟩

theorem pushByte_isFront {kept kept' : Bytes} {x : UInt8} {s : Str}
    (h : pushByte kept x = some (s, kept')) : IsFront kept' := by
  unfold pushByte at h
  split at h
  next =>
    cases h
    exact isFront_nil
  next =>
    split_ifs at h with hpartial
    cases h
    exact .inr hpartial

theorem pushBytes_isFront {kept kept' b : Bytes} {s : Str} (hkept : IsFront kept)
    (h : pushBytes kept b = some (s, kept')) : IsFront kept' := by
  induction b generalizing kept s with
  | nil =>
    cases h
    exact hkept
  | cons x b ih =>
    rw [pushBytes_cons] at h
    obtain ⟨⟨s₁, mid⟩, hx, h⟩ := Option.bind_eq_some_iff.1 h
    obtain ⟨⟨s₂, kept₂⟩, hb, heq⟩ := Option.bind_eq_some_iff.1 h
    cases heq
    exact ih (pushByte_isFront hx) hb

/-! ## The lossy decoder -/

/-- U+FFFD. -/
def replacement : Char := Char.ofNat 0xFFFD

/-- The decoder that never fails.  Where a byte does not fit, a replacement
character stands for what was kept, and the byte is tried anew; where it fits
nothing, another one stands for the byte. -/
def decodeLossy (kept : Bytes) : Bytes → Str
  | [] => if kept = [] then [] else [replacement]
  | x :: b =>
    match pushByte kept x, pushByte [] x with
    | some (s, kept'), _ => s ++ decodeLossy kept' b
    | none, some (s, kept') => replacement :: (s ++ decodeLossy kept' b)
    | none, none =>
      (if kept = [] then [replacement] else [replacement, replacement]) ++ decodeLossy [] b

theorem decodeLossy_eq {kept b : Bytes} {s : Str} (h : pushBytes kept b = some (s, [])) :
    decodeLossy kept b = s := by
  induction b generalizing kept s with
  | nil =>
    cases h
    rfl
  | cons x b ih =>
    rw [pushBytes_cons] at h
    obtain ⟨⟨s₁, mid⟩, hx, h⟩ := Option.bind_eq_some_iff.1 h
    obtain ⟨⟨s₂, kept₂⟩, hb, heq⟩ := Option.bind_eq_some_iff.1 h
    cases heq
    simp only [decodeLossy, hx, ih hb]

/-- **Text that arrives whole is not changed.** -/
@[simp] theorem decodeLossy_encode (s : Str) : decodeLossy [] (encode s) = s :=
  decodeLossy_eq (pushBytes_encode s)

/-- A character that is cut in two is lost. -/
example : decodeLossy [] [0xC3] = [replacement] ∧ decodeLossy [] [0xC3, 0xA4] = ['ä'] := by decide

end Text
