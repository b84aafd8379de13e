/-
# `JsonText` — JSON texts as bytes, and how long they are

The compact form: no white space, fields in order, strings escaped where the
format requires it and nowhere else.  Escaping works on the bytes of the UTF-8
text, since the characters it touches are single bytes and no other character
contains them.

Texts are measured here, not parsed.  Escaping can make a byte six;
`escapedLength` counts exactly and adds up over concatenation.
-/
import Mathlib.Algebra.BigOperators.Group.List.Basic
import Mathlib.Algebra.Ring.Nat
import Mathlib.Data.List.Basic

namespace JsonText

/-- A hexadecimal digit, in lower case. -/
def hexDigit (n : UInt8) : UInt8 := if n < 10 then 0x30 + n else 0x57 + n

/-- The escaped form of one byte of a string: quote, backslash and the control
characters, of which five have short names. -/
def escape (b : UInt8) : List UInt8 :=
  if b = 0x22 then [0x5c, 0x22]
  else if b = 0x5c then [0x5c, 0x5c]
  else if b = 0x08 then [0x5c, 0x62]
  else if b = 0x0c then [0x5c, 0x66]
  else if b = 0x0a then [0x5c, 0x6e]
  else if b = 0x0d then [0x5c, 0x72]
  else if b = 0x09 then [0x5c, 0x74]
  else if b < 0x20 then [0x5c, 0x75, 0x30, 0x30, hexDigit (b >>> 4), hexDigit (b &&& 0x0f)]
  else [b]

/-- A string literal. -/
def quote (s : List UInt8) : List UInt8 := 0x22 :: s.flatMap escape ++ [0x22]

/-- An unsigned integer in decimal. -/
def number (n : Nat) : List UInt8 :=
  if n < 10 then [0x30 + UInt8.ofNat n] else number (n / 10) ++ [0x30 + UInt8.ofNat (n % 10)]

/-- Texts with commas between them. -/
def commaSeparated : List (List UInt8) → List UInt8
  | [] => []
  | [x] => x
  | x :: y :: xs => x ++ 0x2c :: commaSeparated (y :: xs)

/-- `[x,y]`. -/
def array (items : List (List UInt8)) : List UInt8 := 0x5b :: commaSeparated items ++ [0x5d]

/-- `{"k":v}`, the names given without their quotes. -/
def object (fields : List (List UInt8 × List UInt8)) : List UInt8 :=
  0x7b :: commaSeparated (fields.map fun f => quote f.1 ++ 0x3a :: f.2) ++ [0x7d]

/-! ## Lengths -/

/-- The length of a text once escaped. -/
def escapedLength (s : List UInt8) : Nat := (s.map fun b => (escape b).length).sum

theorem length_quote (s : List UInt8) : (quote s).length = escapedLength s + 2 := by
  rw [quote, escapedLength, List.length_append, List.length_cons, List.length_flatMap]
  rfl

theorem escapedLength_append (s t : List UInt8) :
    escapedLength (s ++ t) = escapedLength s + escapedLength t := by
  rw [escapedLength, List.map_append, List.sum_append]
  rfl

/-- A number below a power of ten has at most that many digits. -/
theorem length_number_le {k : Nat} : ∀ {n : Nat}, n < 10 ^ (k + 1) → (number n).length ≤ k + 1 := by
  induction k with
  | zero =>
      intro n h
      rw [number, if_pos (by simpa using h)]
      exact Nat.le_refl 1
  | succ k ih =>
      intro n h
      rw [number]
      split
      · rw [List.length_singleton]
        omega
      · have hdiv : n / 10 < 10 ^ (k + 1) := by
          rw [Nat.div_lt_iff_lt_mul (by decide), ← Nat.pow_succ]
          exact h
        rw [List.length_append, List.length_singleton]
        have := ih hdiv
        omega

/-- A list of texts is as long as the texts and the commas between them. -/
theorem length_commaSeparated (items : List (List UInt8)) :
    (commaSeparated items).length = (items.map List.length).sum + (items.length - 1) := by
  induction items with
  | nil => rfl
  | cons x xs ih =>
      cases xs with
      | nil => rfl
      | cons y ys =>
          rw [commaSeparated, List.length_append, List.length_cons, ih]
          simp only [List.map_cons, List.sum_cons, List.length_cons]
          omega

theorem length_array (items : List (List UInt8)) :
    (array items).length = (items.map List.length).sum + (items.length - 1) + 2 := by
  rw [array, List.length_append, List.length_cons, length_commaSeparated]
  rfl

/-- An object is as long as its names, quoted and with a colon each, its values,
the commas and the braces. -/
theorem length_object (fields : List (List UInt8 × List UInt8)) :
    (object fields).length = (fields.map fun f => escapedLength f.1 + 3 + f.2.length).sum
      + (fields.length - 1) + 2 := by
  have hfield : ∀ f : List UInt8 × List UInt8,
      (quote f.1 ++ 0x3a :: f.2).length = escapedLength f.1 + 3 + f.2.length := by
    intro f
    rw [List.length_append, List.length_cons, length_quote]
    omega
  rw [object, List.length_append, List.length_cons, length_commaSeparated, List.map_map,
    List.length_map, List.length_singleton]
  simp only [Function.comp_def, hfield]

end JsonText
