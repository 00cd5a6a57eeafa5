import Mathlib.Tactic

/-!
# UTF-8 text on a byte stream

Text travels as bytes.  Strings are modelled as `List Char` and byte strings
as `List UInt8`; the encoding itself is the one of Lean's `String`, which
accepts exactly the well-formed sequences.

* `encode`, `decode` — the codec; `decode_eq_some_iff` says that it is one.
* `encodeChar_ge` — the bytes of a character outside ASCII are all `≥ 128`, so
  an ASCII byte in a stream always stands for itself.
* `decode_append_ascii` — **decoding can be done piece by piece at any ASCII
  byte**, in particular at blanks and newlines.
-/

namespace Text

/-- A byte string. -/
abbrev Bytes := List UInt8

/-- A string, as the sequence of its code points. -/
abbrev Str := List Char

/-- The UTF-8 encoding. -/
def encode (s : Str) : Bytes := s.flatMap String.utf8EncodeChar

/-- The UTF-8 decoding, `none` where the bytes are malformed. -/
def decode (b : Bytes) : Option Str := b.toByteArray.utf8Decode?.map Array.toList

@[simp] theorem encode_nil : encode [] = [] := rfl

theorem encode_cons (c : Char) (s : Str) :
    encode (c :: s) = String.utf8EncodeChar c ++ encode s := rfl

@[simp] theorem encode_append (s t : Str) : encode (s ++ t) = encode s ++ encode t :=
  List.flatMap_append

theorem utf8Encode_eq (s : Str) : s.utf8Encode = (encode s).toByteArray := rfl

theorem toByteArray_inj {a b : Bytes} (h : a.toByteArray = b.toByteArray) : a = b := by
  have hdata := congrArg (fun x : ByteArray => x.data.toList) h
  simpa using hdata

@[simp] theorem decode_encode (s : Str) : decode (encode s) = some s := by
  rw [decode, ← utf8Encode_eq, List.utf8Decode?_utf8Encode]
  rfl

theorem decode_eq_some_iff {b : Bytes} {s : Str} : decode b = some s ↔ encode s = b := by
  constructor
  · intro h
    have hsome : b.toByteArray.utf8Decode?.isSome := by
      rw [decode] at h
      cases hd : b.toByteArray.utf8Decode? with
      | none => rw [hd] at h; exact absurd h (by simp)
      | some a => rfl
    obtain ⟨t, ht⟩ := ByteArray.isSome_utf8Decode?_iff.1 hsome
    have hb : encode t = b := toByteArray_inj (by rw [← utf8Encode_eq, ← ht])
    rw [← hb, decode_encode] at h
    cases h
    exact hb
  · rintro rfl
    exact decode_encode s

theorem encode_injective {s t : Str} (h : encode s = encode t) : s = t :=
  Option.some_inj.1 (by rw [← decode_encode s, h, decode_encode])

/-! ## ASCII bytes stand for themselves -/

/-- The character of an ASCII byte. -/
def asciiChar (x : UInt8) : Char := Char.ofUInt8 x

theorem toNat_asciiChar (x : UInt8) : (asciiChar x).val.toNat = x.toNat :=
  UInt8.toNat_toUInt32 x

theorem utf8EncodeChar_asciiChar {x : UInt8} (hx : x < 128) :
    String.utf8EncodeChar (asciiChar x) = [x] := by
  have hx' : x.toNat < 128 := hx
  unfold String.utf8EncodeChar
  rw [toNat_asciiChar, if_pos (by omega)]
  simp

theorem encode_asciiChar_cons {x : UInt8} (hx : x < 128) (s : Str) :
    encode (asciiChar x :: s) = x :: encode s := by
  rw [encode_cons, utf8EncodeChar_asciiChar hx]
  rfl

/-- A character is encoded as one ASCII byte or by bytes `≥ 128` only. -/
theorem encodeChar_ge (c : Char) :
    (∃ x : UInt8, x < 128 ∧ c = asciiChar x) ∨ ∀ y ∈ String.utf8EncodeChar c, ¬ y < 128 := by
  have hv : c.val.toNat < 1114112 := by
    have := c.valid
    unfold UInt32.isValidChar Nat.isValidChar at this
    omega
  by_cases h : c.val.toNat ≤ 0x7f
  · refine .inl ⟨UInt8.ofNat c.val.toNat, ?_, ?_⟩
    · show (UInt8.ofNat c.val.toNat).toNat < 128
      rw [UInt8.toNat_ofNat']
      omega
    · refine Char.val_inj.1 (UInt32.toNat_inj.1 ?_)
      rw [toNat_asciiChar, UInt8.toNat_ofNat', Nat.mod_eq_of_lt (by omega)]
  · refine .inr fun y hy => ?_
    unfold String.utf8EncodeChar at hy
    rw [if_neg h] at hy
    show ¬ y.toNat < 128
    split_ifs at hy
    all_goals
      simp only [List.mem_cons, List.not_mem_nil, or_false] at hy
      rcases hy with rfl | hy
    all_goals try rcases hy with rfl | hy
    all_goals try rcases hy with rfl | hy
    all_goals try subst hy
    all_goals
      rw [UInt8.toNat_ofNat']
      omega

/-- Where an ASCII byte occurs in an encoded string, the string has that
character there. -/
theorem exists_of_encode_eq_append {t : Str} {a b : Bytes} {x : UInt8} (hx : x < 128)
    (h : encode t = a ++ x :: b) :
    ∃ s u, t = s ++ asciiChar x :: u ∧ encode s = a ∧ encode u = b := by
  induction t generalizing a with
  | nil => simp at h
  | cons c t ih =>
    rw [encode_cons, List.append_eq_append_iff] at h
    obtain ⟨as, hcut, hrest⟩ | ⟨bs, hcut, hrest⟩ := h
    · -- the character lies before the ASCII byte
      obtain ⟨s, u, rfl, rfl, rfl⟩ := ih hrest
      exact ⟨c :: s, u, rfl, hcut.symm, rfl⟩
    · cases bs with
      | nil =>
        obtain ⟨s, u, rfl, hs, rfl⟩ := ih (a := []) hrest.symm
        obtain rfl : s = [] := encode_injective hs
        exact ⟨[c], u, rfl, by simpa [encode_cons] using hcut, rfl⟩
      | cons y bs =>
        -- the character starts with, or contains, the ASCII byte: it is that byte
        obtain ⟨rfl, hb⟩ := List.cons.inj hrest
        obtain ⟨z, hz, rfl⟩ | hge := encodeChar_ge c
        · rw [utf8EncodeChar_asciiChar hz] at hcut
          obtain ⟨rfl, hzx⟩ : a = [] ∧ [z] = x :: bs := by
            cases a with
            | nil => exact ⟨rfl, hcut⟩
            | cons _ _ => simp at hcut
          obtain ⟨rfl, rfl⟩ := List.cons.inj hzx
          exact ⟨[], t, rfl, rfl, hb.symm⟩
        · exact absurd hx (hge x (by rw [hcut]; simp))

/-- A character that is not in a string has no byte in its encoding. -/
theorem not_mem_encode {s : Str} {x : UInt8} (hx : x < 128) (hs : asciiChar x ∉ s) :
    x ∉ encode s := by
  intro hmem
  obtain ⟨a, b, hab⟩ := List.append_of_mem hmem
  obtain ⟨t, u, rfl, -, -⟩ := exists_of_encode_eq_append hx hab
  exact hs (List.mem_append_right _ (List.mem_cons_self ..))

/-- An ASCII character of a string is a byte of its encoding. -/
theorem mem_encode {s : Str} {x : UInt8} (hx : x < 128) (hs : asciiChar x ∈ s) : x ∈ encode s := by
  obtain ⟨a, b, rfl⟩ := List.append_of_mem hs
  rw [encode_append, encode_asciiChar_cons hx]
  exact List.mem_append_right _ (List.mem_cons_self ..)

/-- A string of ASCII characters has one byte for each. -/
theorem length_encode_ascii {s : Str} (hs : ∀ c ∈ s, c.toNat < 128) :
    (encode s).length = s.length := by
  induction s with
  | nil => rfl
  | cons c s ih =>
    obtain ⟨hc, hrest⟩ := List.forall_mem_cons.1 hs
    have hone : c.utf8Size = 1 := Char.utf8Size_eq_one_iff.2 (by
      show c.toNat ≤ 127
      omega)
    rw [encode_cons, List.length_append, String.length_utf8EncodeChar, hone, ih hrest,
      List.length_cons, Nat.add_comm]

/-- **Decoding can be done piece by piece at any ASCII byte.** -/
theorem decode_append_ascii (a b : Bytes) {x : UInt8} (hx : x < 128) :
    decode (a ++ x :: b) =
      (decode a).bind fun s => (decode b).map fun u => s ++ asciiChar x :: u := by
  cases hd : decode (a ++ x :: b) with
  | some t =>
    obtain ⟨s, u, rfl, rfl, rfl⟩ := exists_of_encode_eq_append hx (decode_eq_some_iff.1 hd)
    simp
  | none =>
    cases ha : decode a with
    | none => rfl
    | some s =>
      cases hb : decode b with
      | none => rfl
      | some u =>
        have hab : encode (s ++ asciiChar x :: u) = a ++ x :: b := by
          rw [encode_append, encode_asciiChar_cons hx, decode_eq_some_iff.1 ha,
            decode_eq_some_iff.1 hb]
        rw [decode_eq_some_iff.2 hab] at hd
        exact absurd hd (by simp)

/-- An encoded prefix decodes to itself. -/
theorem decode_encode_append (s : Str) (b : Bytes) :
    decode (encode s ++ b) = (decode b).map (s ++ ·) := by
  induction s with
  | nil => simp
  | cons c s ih =>
    have hcons : decode (encode (c :: s) ++ b) = (decode (encode s ++ b)).map (c :: ·) := by
      have hbytes : (encode (c :: s) ++ b).toByteArray
          = [c].utf8Encode ++ (encode s ++ b).toByteArray := by
        rw [utf8Encode_eq, ← List.toByteArray_append]
        simp [encode_cons]
      rw [decode, hbytes, ByteArray.utf8Decode?_utf8Encode_singleton_append, decode, Option.map_map,
        Option.map_map]
      congr 1
      funext u
      simp
    rw [hcons, ih, Option.map_map]
    rfl

end Text
