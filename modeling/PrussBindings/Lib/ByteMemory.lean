import Mathlib.Tactic

/-!
# A memory of bytes

Numbers of several bytes lie in a memory of bytes with the lowest byte first.  A table of
fields, each with an address and a size, gives another picture of the memory: one number
for each field.

* `read`, `write` — the number in some bytes; `read_write` — **what was written is read**.
* `read_write_of_apart` — and nothing else has changed.
* `fields` — the picture of the memory; `fields_write` — **a write changes one field of
  it**, if the fields do not overlap.
-/

namespace ByteMemory

/-- A memory. -/
abbrev Bytes := ℕ → UInt8

/-- The number in the `n` bytes from `a` on. -/
def read (b : Bytes) (a : ℕ) : ℕ → ℕ
  | 0 => 0
  | n + 1 => (b a).toNat + 256 * read b (a + 1) n

/-- A number is put into the `n` bytes from `a` on, as far as they hold it. -/
def write (b : Bytes) (a v : ℕ) : ℕ → Bytes
  | 0 => b
  | n + 1 => write (Function.update b a (.ofNat v)) (a + 1) (v / 256) n

variable {b b' : Bytes} {a a' x v n n' : ℕ}

theorem write_of_not_mem (h : x < a ∨ a + n ≤ x) : write b a v n x = b x := by
  induction n generalizing b a v with
  | zero => rfl
  | succ n ih => rw [write, ih (by omega), Function.update_of_ne (by omega)]

theorem read_congr (h : ∀ x, a ≤ x → x < a + n → b x = b' x) : read b a n = read b' a n := by
  induction n generalizing a with
  | zero => rfl
  | succ n ih =>
    rw [read, read, h a le_rfl (by omega), ih fun x hx hlt => h x (by omega) (by omega)]

/-- **What was written is read.** -/
theorem read_write : read (write b a v n) a n = v % 256 ^ n := by
  induction n generalizing b a v with
  | zero => rw [read, pow_zero, Nat.mod_one]
  | succ n ih =>
    rw [write, read, ih, write_of_not_mem (by omega), Function.update_self, UInt8.toNat_ofNat',
      show 2 ^ 8 = 256 from rfl, pow_succ', Nat.mod_mul]

/-- What lies apart is left alone. -/
theorem read_write_of_apart (h : a' + n' ≤ a ∨ a + n ≤ a') :
    read (write b a v n) a' n' = read b a' n' :=
  read_congr fun x hx hlt => write_of_not_mem (by omega)

/-! ## Fields -/

section Fields

variable {P : Type} (addr size : P → ℕ) (live : P → Prop)

open scoped Classical in
/-- Every field that there is has the number that its bytes hold. -/
noncomputable def fields (b : Bytes) (p : P) : ℕ := if live p then read b (addr p) (size p) else 0

/-- No two fields have a byte in common. -/
def Apart : Prop :=
  ∀ p p', live p → live p' → p ≠ p' → addr p + size p ≤ addr p' ∨ addr p' + size p' ≤ addr p

variable {addr size live} {p : P}

theorem fields_of_live (hp : live p) : fields addr size live b p = read b (addr p) (size p) :=
  if_pos hp

/-- **A write changes one field.** -/
theorem fields_write [DecidableEq P] (h : Apart addr size live) (hp : live p) :
    fields addr size live (write b (addr p) v (size p)) =
      Function.update (fields addr size live b) p (v % 256 ^ size p) := by
  funext p'
  by_cases hp' : live p'
  · by_cases heq : p' = p
    · subst heq
      rw [fields_of_live hp', Function.update_self, read_write]
    · rw [fields_of_live hp', Function.update_of_ne heq, fields_of_live hp',
        read_write_of_apart (h p' p hp' hp heq)]
  · have hne : p' ≠ p := fun heq => hp' (heq ▸ hp)
    rw [Function.update_of_ne hne, fields, fields, if_neg hp', if_neg hp']

end Fields

end ByteMemory
