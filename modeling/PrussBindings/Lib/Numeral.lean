import PrussBindings.Lib.Words

/-!
# Integers in text

`str(n)` and C++'s `to_string(n)` write an integer in decimal; Python's
`int(s, base)` reads one back, and reads a good deal more: signs, digits of
other scripts, underscores between digits, and in base 16 a prefix.

* `showInt`, `numeral` — the two directions, and `numeral_showInt`, **the round
  trip**.
* `DigitLimit`, `parseInt` — Python reads no numeral with too many digits;
  `parseInt_showInt` is the round trip for integers far below the limit.
* `isToken_showInt`, `slash_not_mem_showInt` — a written integer is a single
  word, and can stand in a file name.
* `stoi` — C++'s `std::stoi` on a byte string, and `stoi_encode_showInt`, the
  round trip across the two languages.

`parseInt` is `int` on the words of a line, so it does not strip blanks.
-/

namespace Text

/-! ## Writing -/

/-- The decimal digits of a natural number. -/
def showNat (n : Nat) : Str := Nat.toDigits 10 n

/-- `str(n)`, and `to_string(n)`. -/
def showInt : Int → Str
  | .ofNat n => showNat n
  | .negSucc n => '-' :: showNat (n + 1)

theorem isDigit_of_mem_showNat {n : Nat} {c : Char} (hc : c ∈ showNat n) : c.isDigit :=
  Nat.isDigit_of_mem_toDigits (by decide) (by decide) hc

theorem showNat_ne_nil (n : Nat) : showNat n ≠ [] := Nat.toDigits_ne_nil

theorem showInt_ne_nil (n : Int) : showInt n ≠ [] := by
  cases n with
  | ofNat n => exact showNat_ne_nil n
  | negSucc n => simp [showInt]

/-- The characters of a written integer. -/
theorem mem_showInt {n : Int} {c : Char} (hc : c ∈ showInt n) : c.isDigit ∨ c = '-' := by
  cases n with
  | ofNat n => exact .inl (isDigit_of_mem_showNat hc)
  | negSucc n =>
    rcases List.mem_cons.1 hc with rfl | hc
    · exact .inr rfl
    · exact .inl (isDigit_of_mem_showNat hc)

theorem toNat_of_isDigit {c : Char} (hc : c.isDigit) : 48 ≤ c.toNat ∧ c.toNat ≤ 57 :=
  Char.isDigit_iff_toNat.1 hc

theorem toNat_of_mem_showInt {n : Int} {c : Char} (hc : c ∈ showInt n) :
    c.toNat = 45 ∨ 48 ≤ c.toNat ∧ c.toNat ≤ 57 := by
  rcases mem_showInt hc with hd | rfl
  · exact .inr (toNat_of_isDigit hd)
  · exact .inl rfl

/-- No character below the minus sign is in a written integer. -/
theorem not_mem_showInt {n : Int} {c : Char} (hc : c.toNat < 45) : c ∉ showInt n := by
  intro hmem
  have hrange := toNat_of_mem_showInt hmem
  omega

theorem isToken_showInt (n : Int) : IsToken (showInt n) := by
  refine ⟨showInt_ne_nil n, fun c hc => ?_⟩
  have hn := toNat_of_mem_showInt hc
  rw [← Bool.not_eq_true]
  simp only [isSpace, Bool.or_eq_true, Bool.and_eq_true, decide_eq_true_eq, beq_iff_eq]
  omega

theorem slash_not_mem_showInt (n : Int) : '/' ∉ showInt n := by
  intro hc
  have hn := toNat_of_mem_showInt hc
  simp at hn

theorem showInt_getLast (n : Int) (h : showInt n ≠ []) : ((showInt n).getLast h).isDigit := by
  cases n with
  | ofNat n => exact isDigit_of_mem_showNat (List.getLast_mem h)
  | negSucc n =>
    have hlast : (showInt (.negSucc n)).getLast h = (showNat (n + 1)).getLast (showNat_ne_nil _) :=
      List.getLast_cons (showNat_ne_nil _)
    rw [hlast]
    exact isDigit_of_mem_showNat (List.getLast_mem _)

/-! ## Reading -/

/-- The zeros of the scripts that have decimal digits; the other nine digits of
a script follow its zero. -/
def zeros : List Nat :=
  [0x30, 0x660, 0x6f0, 0x7c0, 0x966, 0x9e6, 0xa66, 0xae6, 0xb66, 0xbe6, 0xc66, 0xce6, 0xd66, 0xde6,
    0xe50, 0xed0, 0xf20, 0x1040, 0x1090, 0x17e0, 0x1810, 0x1946, 0x19d0, 0x1a80, 0x1a90, 0x1b50,
    0x1bb0, 0x1c40, 0x1c50, 0xa620, 0xa8d0, 0xa900, 0xa9d0, 0xa9f0, 0xaa50, 0xabf0, 0xff10, 0x104a0,
    0x10d30, 0x11066, 0x110f0, 0x11136, 0x111d0, 0x112f0, 0x11450, 0x114d0, 0x11650, 0x116c0,
    0x11730, 0x118e0, 0x11950, 0x11c50, 0x11d50, 0x11da0, 0x16a60, 0x16ac0, 0x16b50, 0x1d7ce,
    0x1d7d8, 0x1d7e2, 0x1d7ec, 0x1d7f6, 0x1e140, 0x1e2f0, 0x1e950, 0x1fbf0]

/-- `int` first replaces every decimal digit by the ASCII digit of its value. -/
def asciiDigit (c : Char) : Char :=
  match zeros.find? fun z => z ≤ c.toNat && c.toNat < z + 10 with
  | some z => Char.ofNat (48 + (c.toNat - z))
  | none => c

/-- The value of an ASCII digit or letter in a base. -/
def digitValue (base : Nat) (c : Char) : Option Nat :=
  let v :=
    if '0' ≤ c ∧ c ≤ '9' then some (c.toNat - 48)
    else if 'a' ≤ c ∧ c ≤ 'z' then some (c.toNat - 97 + 10)
    else if 'A' ≤ c ∧ c ≤ 'Z' then some (c.toNat - 65 + 10)
    else none
  v.filter (· < base)

/-- Digits with single underscores between them; `afterDigit` says whether an
underscore, or the end, may come next. -/
def parseDigits (base : Nat) : Nat → Bool → Str → Option Nat
  | acc, afterDigit, [] => if afterDigit then some acc else none
  | acc, afterDigit, c :: cs =>
    if c = '_' then if afterDigit then parseDigits base acc false cs else none
    else match digitValue base c with
      | some d => parseDigits base (base * acc + d) true cs
      | none => none

/-- The prefix `0x`, and an underscore after it, in base 16. -/
def dropPrefix (base : Nat) (s : Str) : Str :=
  match base, s with
  | 16, '0' :: 'x' :: '_' :: cs => cs
  | 16, '0' :: 'X' :: '_' :: cs => cs
  | 16, '0' :: 'x' :: cs => cs
  | 16, '0' :: 'X' :: cs => cs
  | _, s => s

/-- The integer that a text stands for in a base, if it is a numeral. -/
def numeral (base : Nat) (s : Str) : Option Int :=
  match s.map asciiDigit with
  | '-' :: cs => (parseDigits base 0 false (dropPrefix base cs)).map fun n : Nat => -(n : Int)
  | '+' :: cs => (parseDigits base 0 false (dropPrefix base cs)).map Int.ofNat
  | cs => (parseDigits base 0 false (dropPrefix base cs)).map Int.ofNat

/-- The digits of a decimal numeral: all of it but the sign and the underscores. -/
def digitCount (s : Str) : Nat := s.countP fun c => c ≠ '-' && c ≠ '+' && c ≠ '_'

/-- `sys.set_int_max_str_digits`: the most digits that `int` reads in a base that
is no power of two.  Zero is no limit, and Python sets none below 640. -/
structure DigitLimit where
  digits : Nat
  ok : digits = 0 ∨ 640 ≤ digits

/-- The limit Python starts with. -/
def DigitLimit.default : DigitLimit := ⟨4300, .inr (by decide)⟩

/-- The numeral is not too long. -/
def DigitLimit.Allows (limit : DigitLimit) (base : Nat) (s : Str) : Prop :=
  2 ^ base.log2 = base ∨ limit.digits = 0 ∨ digitCount s ≤ limit.digits

instance (limit : DigitLimit) (base : Nat) (s : Str) : Decidable (limit.Allows base s) :=
  inferInstanceAs (Decidable (_ ∨ _ ∨ _))

/-- `int(s, base)`, `none` for a `ValueError`. -/
def parseInt (limit : DigitLimit) (base : Nat) (s : Str) : Option Int :=
  if limit.Allows base s then numeral base s else none

theorem DigitLimit.allows_of_le (limit : DigitLimit) (base : Nat) {s : Str}
    (h : digitCount s ≤ 640) : limit.Allows base s := by
  obtain hzero | hle := limit.ok
  · exact .inr (.inl hzero)
  · exact .inr (.inr (h.trans hle))

theorem asciiDigit_of_isDigit {c : Char} (hc : c.isDigit) : asciiDigit c = c := by
  obtain ⟨h48, h57⟩ := toNat_of_isDigit hc
  have hfind : zeros.find? (fun z => z ≤ c.toNat && c.toNat < z + 10) = some 48 := by
    rw [zeros, List.find?_cons_of_pos]
    simp only [Bool.and_eq_true, decide_eq_true_eq]
    omega
  rw [asciiDigit, hfind]
  show Char.ofNat (48 + (c.toNat - 48)) = c
  rw [Nat.add_sub_cancel' h48, Char.ofNat_toNat]

theorem digitValue_of_isDigit {c : Char} (hc : c.isDigit) :
    digitValue 10 c = some (c.toNat - 48) := by
  obtain ⟨h48, h57⟩ := toNat_of_isDigit hc
  have hle : '0' ≤ c ∧ c ≤ '9' := ⟨h48, h57⟩
  rw [digitValue, if_pos hle]
  simp only [Option.filter_some]
  rw [if_pos]
  simpa using by omega

theorem parseDigits_digits {s : Str} (hs : ∀ c ∈ s, c.isDigit) (acc : Nat) (b : Bool)
    (h : s ≠ [] ∨ b = true) : parseDigits 10 acc b s = some (Nat.ofDigitChars 10 s acc) := by
  induction s generalizing acc b with
  | nil =>
    obtain rfl : b = true := h.resolve_left fun hne => hne rfl
    simp [parseDigits]
  | cons c s ih =>
    have hc : c.isDigit := hs c (List.mem_cons_self ..)
    have hne : c ≠ '_' := by
      rintro rfl
      exact absurd hc (by decide)
    rw [parseDigits, if_neg hne, digitValue_of_isDigit hc]
    show parseDigits 10 (10 * acc + (c.toNat - 48)) true s = _
    rw [ih (fun d hd => hs d (List.mem_cons_of_mem _ hd)) _ true (.inr rfl), Nat.ofDigitChars_cons]
    rfl

theorem parseDigits_showNat (n : Nat) : parseDigits 10 0 false (showNat n) = some n := by
  rw [parseDigits_digits (fun _ => isDigit_of_mem_showNat) 0 false (.inl (showNat_ne_nil n))]
  exact congrArg some Nat.ofDigitChars_ten_toDigits

theorem map_asciiDigit_showNat (n : Nat) : (showNat n).map asciiDigit = showNat n :=
  (List.map_congr_left fun _ hc => asciiDigit_of_isDigit (isDigit_of_mem_showNat hc)).trans
    (List.map_id _)

/-- A number starts with a digit, and not with a sign. -/
theorem exists_cons_showNat (n : Nat) :
    ∃ c cs, showNat n = c :: cs ∧ c ≠ '-' ∧ c ≠ '+' := by
  obtain ⟨c, cs, hcs⟩ := List.exists_cons_of_ne_nil (showNat_ne_nil n)
  have hc : c.isDigit := isDigit_of_mem_showNat (by rw [hcs]; exact List.mem_cons_self ..)
  refine ⟨c, cs, hcs, ?_, ?_⟩
  · rintro rfl
    exact absurd hc (by decide)
  · rintro rfl
    exact absurd hc (by decide)

/-- **Reading what was written gives the integer back.** -/
theorem numeral_showInt (n : Int) : numeral 10 (showInt n) = some n := by
  cases n with
  | ofNat n =>
    obtain ⟨c, cs, hcs, hminus, hplus⟩ := exists_cons_showNat n
    rw [showInt, numeral, map_asciiDigit_showNat]
    have hparse := parseDigits_showNat n
    rw [hcs] at hparse ⊢
    split
    · rename_i ds hds; exact absurd (List.cons.inj hds).1 hminus
    · rename_i ds hds; exact absurd (List.cons.inj hds).1 hplus
    · rw [show dropPrefix 10 (c :: cs) = c :: cs from rfl, hparse]
      rfl
  | negSucc n =>
    rw [showInt, numeral, List.map_cons, map_asciiDigit_showNat,
      show asciiDigit '-' = '-' from by decide]
    show (parseDigits 10 0 false (showNat (n + 1))).map _ = _
    rw [parseDigits_showNat]
    rfl

/-- A written integer has as many digits as its absolute value. -/
theorem digitCount_showInt_le (n : Int) : digitCount (showInt n) ≤ (showNat n.natAbs).length := by
  cases n with
  | ofNat n => exact List.countP_le_length
  | negSucc n =>
    show List.countP _ ('-' :: showNat (n + 1)) ≤ _
    rw [List.countP_cons_of_neg (by decide)]
    exact List.countP_le_length

/-- The same with the limit, for integers far below it. -/
theorem parseInt_showInt (limit : DigitLimit) {n : Int} (hn : n.natAbs < 10 ^ 100) :
    parseInt limit 10 (showInt n) = some n := by
  have hlen : (showNat n.natAbs).length ≤ 640 :=
    ((Nat.length_toDigits_le_iff (by decide) (by decide)).2 hn).trans (by decide : 100 ≤ 640)
  have hallows := limit.allows_of_le 10 ((digitCount_showInt_le n).trans hlen)
  rw [parseInt, if_pos hallows, numeral_showInt]

theorem showInt_inj {m n : Int} : showInt m = showInt n ↔ m = n := by
  refine ⟨fun h => ?_, fun h => h ▸ rfl⟩
  have hparse := congrArg (numeral 10) h
  rw [numeral_showInt, numeral_showInt] at hparse
  exact Option.some_inj.1 hparse

/-! ## Reading a C string -/

/-- What `std::stoi` throws. -/
inductive StoiError where
  | invalidArgument
  | outOfRange
  deriving DecidableEq, Repr

/-- The value of the longest prefix of digits, with a sign, as an `int`. -/
def stoiDigits (neg : Bool) (cs : Str) : Except StoiError Int :=
  let ds := cs.takeWhile Char.isDigit
  let n : Int := Nat.ofDigitChars 10 ds 0
  let v := if neg then -n else n
  if ds = [] then .error .invalidArgument
  else if -2 ^ 31 ≤ v ∧ v < 2 ^ 31 then .ok v
  else .error .outOfRange

/-- `std::stoi(s)`. -/
def stoi (b : Bytes) : Except StoiError Int :=
  match (b.dropWhile isAsciiSpace).map asciiChar with
  | '-' :: cs => stoiDigits true cs
  | '+' :: cs => stoiDigits false cs
  | cs => stoiDigits false cs

theorem stoiDigits_showNat (neg : Bool) (n : Nat) :
    stoiDigits neg (showNat n) =
      let v : Int := if neg then -n else n
      if -2 ^ 31 ≤ v ∧ v < 2 ^ 31 then .ok v else .error .outOfRange := by
  have htake : (showNat n).takeWhile Char.isDigit = showNat n :=
    List.takeWhile_eq_self_iff.2 fun c hc => isDigit_of_mem_showNat hc
  have hval : Nat.ofDigitChars 10 (showNat n) 0 = n := Nat.ofDigitChars_ten_toDigits
  simp only [stoiDigits, htake, hval, if_neg (showNat_ne_nil n)]

/-- An ASCII string is encoded one byte a character. -/
theorem map_asciiChar_encode {s : Str} (hs : ∀ c ∈ s, c.toNat < 128) :
    (encode s).map asciiChar = s := by
  induction s with
  | nil => rfl
  | cons c s ih =>
    obtain ⟨x, hx, rfl⟩ | hge := encodeChar_ge c
    · rw [encode_asciiChar_cons hx, List.map_cons, ih fun d hd => hs d (List.mem_cons_of_mem _ hd)]
    · have hc : c.val.toNat < 128 := hs c (List.mem_cons_self ..)
      have hlt : UInt8.ofNat c.val.toNat < 128 := by
        show (UInt8.ofNat c.val.toNat).toNat < 128
        rw [UInt8.toNat_ofNat']
        omega
      refine absurd hlt (hge _ ?_)
      unfold String.utf8EncodeChar
      rw [if_pos (by omega)]
      exact List.mem_singleton.2 rfl

theorem ascii_of_mem_showInt {n : Int} {c : Char} (hc : c ∈ showInt n) : c.toNat < 128 := by
  have hn := toNat_of_mem_showInt hc
  omega

/-- **`stoi` reads what `str` wrote**, as far as it fits an `int`. -/
theorem stoi_encode_showInt (n : Int) :
    stoi (encode (showInt n)) =
      if -2 ^ 31 ≤ n ∧ n < 2 ^ 31 then .ok n else .error .outOfRange := by
  have hmap : ((encode (showInt n)).dropWhile isAsciiSpace).map asciiChar = showInt n := by
    have hdrop : (encode (showInt n)).dropWhile isAsciiSpace = encode (showInt n) := by
      cases hb : encode (showInt n) with
      | nil => rfl
      | cons x b =>
        refine List.dropWhile_cons_of_neg fun hx => ?_
        have hm := map_asciiChar_encode fun c => ascii_of_mem_showInt (n := n) (c := c)
        have hmem : asciiChar x ∈ showInt n := by
          rw [← hm, hb]
          exact List.mem_cons_self ..
        have hspace := isSpace_asciiChar hx
        rw [(isToken_showInt n).2 _ hmem] at hspace
        exact absurd hspace (by decide)
    rw [hdrop]
    exact map_asciiChar_encode fun c => ascii_of_mem_showInt
  unfold stoi
  rw [hmap]
  cases n with
  | ofNat n =>
    obtain ⟨c, cs, hcs, hminus, hplus⟩ := exists_cons_showNat n
    have hdigits := stoiDigits_showNat false n
    rw [hcs] at hdigits
    rw [show showInt (.ofNat n) = c :: cs from hcs]
    split
    · rename_i ds hds; exact absurd (List.cons.inj hds).1 hminus
    · rename_i ds hds; exact absurd (List.cons.inj hds).1 hplus
    · rw [hdigits]
      rfl
  | negSucc n =>
    show stoiDigits true (showNat (n + 1)) = _
    rw [stoiDigits_showNat]
    rfl

end Text
