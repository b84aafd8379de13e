/-
# `Binary64` — floating-point numbers as words

An IEEE 754 binary64 is a sign and a 63-bit magnitude code, the exponent field
above the fraction field.  Codes order magnitudes as numbers do, so comparison
is comparison of signed codes; the codes above `infCode` are the NaNs, which
compare with nothing, and the two zeros have one signed code.

`ofNat` is the conversion of an unsigned integer, rounded to nearest with ties
to even (`roundHalfEven`).  It is monotone (`ofNat_le_ofNat`): a counter that
never decreases is never reported as decreasing.
-/
import Mathlib.Algebra.Ring.Nat
import Mathlib.Data.Nat.Log

/-- A sign and a 63-bit magnitude code. -/
structure Binary64 where
  sign : Bool
  code : Nat
  small : code < 2 ^ 63
  deriving DecidableEq

namespace Binary64

/-- The code of infinity: the exponent field all ones, no fraction. -/
abbrev infCode : Nat := 2047 * 2 ^ 52

def IsNaN (x : Binary64) : Prop := infCode < x.code

def IsFinite (x : Binary64) : Prop := x.code < infCode

instance (x : Binary64) : Decidable x.IsNaN := inferInstanceAs (Decidable (infCode < x.code))

instance (x : Binary64) : Decidable x.IsFinite := inferInstanceAs (Decidable (x.code < infCode))

/-- Positive infinity. -/
def inf : Binary64 := ⟨false, infCode, by decide⟩

/-- Negative infinity. -/
def negInf : Binary64 := ⟨true, infCode, by decide⟩

/-- The signed code. -/
def key (x : Binary64) : Int := if x.sign then -x.code else x.code

instance : LT Binary64 := ⟨fun x y => ¬ x.IsNaN ∧ ¬ y.IsNaN ∧ x.key < y.key⟩

instance : LE Binary64 := ⟨fun x y => ¬ x.IsNaN ∧ ¬ y.IsNaN ∧ x.key ≤ y.key⟩

theorem lt_iff {x y : Binary64} : x < y ↔ ¬ x.IsNaN ∧ ¬ y.IsNaN ∧ x.key < y.key := Iff.rfl

theorem le_iff {x y : Binary64} : x ≤ y ↔ ¬ x.IsNaN ∧ ¬ y.IsNaN ∧ x.key ≤ y.key := Iff.rfl

instance (x y : Binary64) : Decidable (x < y) := decidable_of_iff _ lt_iff.symm

instance (x y : Binary64) : Decidable (x ≤ y) := decidable_of_iff _ le_iff.symm

theorem ne_of_lt {x y : Binary64} (h : x < y) : x ≠ y := by
  rintro rfl
  exact Int.lt_irrefl _ h.2.2

theorem not_le_of_lt {x y : Binary64} (h : x < y) : ¬ y ≤ x := fun h' =>
  Int.not_le.mpr h.2.2 h'.2.2

theorem code_le_of_key {x : Binary64} : x.key ≤ x.code := by
  rw [key]
  split <;> omega

theorem not_nan_inf : ¬ inf.IsNaN := by decide

/-- A number is finite, an infinity, or no number. -/
theorem cases (x : Binary64) : x.IsFinite ∨ x = inf ∨ x = negInf ∨ x.IsNaN := by
  rcases Nat.lt_trichotomy x.code infCode with h | h | h
  · exact Or.inl h
  · obtain ⟨sign, code, small⟩ := x
    obtain rfl : code = infCode := h
    cases sign with
    | false => exact Or.inr (Or.inl rfl)
    | true => exact Or.inr (Or.inr (Or.inl rfl))
  · exact Or.inr (Or.inr (Or.inr h))

/-- Nothing but infinity is as large as infinity. -/
theorem eq_inf_of_le {x : Binary64} (h : inf ≤ x) : x = inf := by
  obtain ⟨_, hx, hle⟩ := h
  have hinf : inf.key = infCode := rfl
  have hkey := @code_le_of_key x
  rcases x.cases with hfin | rfl | rfl | hnan
  · have hlt : x.code < infCode := hfin
    omega
  · rfl
  · exact absurd hle (by decide)
  · exact absurd hnan hx

/-! ## Rounding -/

/-- `a / d`, rounded to the nearest integer, ties to even. -/
def roundHalfEven (a d : Nat) : Nat :=
  if d < 2 * (a % d) ∨ (2 * (a % d) = d ∧ a / d % 2 = 1) then a / d + 1 else a / d

theorem div_le_roundHalfEven (a d : Nat) : a / d ≤ roundHalfEven a d := by
  rw [roundHalfEven]
  split <;> omega

theorem roundHalfEven_le (a d : Nat) : roundHalfEven a d ≤ a / d + 1 := by
  rw [roundHalfEven]
  split <;> omega

/-- Rounding respects the order: within one quotient the remainders decide. -/
theorem roundHalfEven_mono {a b d : Nat} (h : a ≤ b) : roundHalfEven a d ≤ roundHalfEven b d := by
  rcases Nat.lt_or_eq_of_le (Nat.div_le_div_right (c := d) h) with hlt | heq
  · exact Nat.le_trans (roundHalfEven_le a d)
      (Nat.le_trans hlt (div_le_roundHalfEven b d))
  · have hrem : a % d ≤ b % d := by
      have ha := Nat.div_add_mod a d
      have hb := Nat.div_add_mod b d
      rw [heq] at ha
      omega
    rw [roundHalfEven, roundHalfEven, heq]
    split
    · next ha =>
        rw [if_pos (by omega)]
    · split <;> omega

/-! ## Conversion of integers -/

/-- The code of a natural number: its exponent above its rounded 53-bit
significand, whose leading bit adds one to the exponent field. -/
def codeOf (n : Nat) : Nat :=
  if n = 0 then 0
  else (1022 + Nat.log 2 n) * 2 ^ 52 + roundHalfEven (n * 2 ^ 52) (2 ^ Nat.log 2 n)

/-- The significand of a positive number has 53 bits, or rounds up to 54. -/
theorem significand_bounds {n : Nat} (h : n ≠ 0) :
    2 ^ 52 ≤ roundHalfEven (n * 2 ^ 52) (2 ^ Nat.log 2 n) ∧
      roundHalfEven (n * 2 ^ 52) (2 ^ Nat.log 2 n) ≤ 2 ^ 53 := by
  have hpos : 0 < 2 ^ Nat.log 2 n := Nat.two_pow_pos _
  have hlow : 2 ^ Nat.log 2 n ≤ n := Nat.pow_log_le_self 2 h
  have hhigh : n < 2 ^ Nat.log 2 n * 2 := by
    rw [← Nat.pow_succ]
    exact Nat.lt_pow_succ_log_self (by decide) n
  constructor
  · refine Nat.le_trans ?_ (div_le_roundHalfEven _ _)
    rw [Nat.le_div_iff_mul_le hpos, Nat.mul_comm]
    exact Nat.mul_le_mul_right _ hlow
  · refine Nat.le_trans (roundHalfEven_le _ _) ?_
    rw [Nat.succ_le_iff, Nat.div_lt_iff_lt_mul hpos]
    calc n * 2 ^ 52 < 2 ^ Nat.log 2 n * 2 * 2 ^ 52 := by
          exact Nat.mul_lt_mul_of_pos_right hhigh (by decide)
      _ = 2 ^ 53 * 2 ^ Nat.log 2 n := by
          rw [Nat.mul_assoc, Nat.mul_comm, ← Nat.pow_succ']

theorem codeOf_mono {n m : Nat} (h : n ≤ m) : codeOf n ≤ codeOf m := by
  rcases eq_or_ne n 0 with rfl | hn
  · exact Nat.zero_le _
  · have hm : m ≠ 0 := by omega
    rw [codeOf, codeOf, if_neg hn, if_neg hm]
    have hlog : Nat.log 2 n ≤ Nat.log 2 m := Nat.log_mono_right h
    rcases Nat.lt_or_eq_of_le hlog with hlt | heq
    · have hupper := (significand_bounds hn).2
      have hlower := (significand_bounds hm).1
      omega
    · rw [heq]
      exact Nat.add_le_add_left (roundHalfEven_mono (Nat.mul_le_mul_right _ h)) _

theorem codeOf_lt {n : Nat} (h : n < 2 ^ 64) : codeOf n < infCode := by
  rw [codeOf]
  split
  · decide
  · next hn =>
      have hlog : Nat.log 2 n < 64 := Nat.log_lt_of_lt_pow hn h
      have hupper := (significand_bounds hn).2
      have : infCode = 2047 * 2 ^ 52 := rfl
      omega

/-- Nothing is rounded below `2 ^ 53`. -/
theorem codeOf_small {n : Nat} (hn : n ≠ 0) (h : n < 2 ^ 53) :
    codeOf n = (1022 + Nat.log 2 n) * 2 ^ 52 + n * 2 ^ (52 - Nat.log 2 n) := by
  have hlog : Nat.log 2 n ≤ 52 := Nat.le_of_lt_succ (Nat.log_lt_of_lt_pow hn h)
  have hpow : n * 2 ^ 52 = n * 2 ^ (52 - Nat.log 2 n) * 2 ^ Nat.log 2 n := by
    rw [Nat.mul_assoc, ← Nat.pow_add, Nat.sub_add_cancel hlog]
  have hdiv : n * 2 ^ 52 / 2 ^ Nat.log 2 n = n * 2 ^ (52 - Nat.log 2 n) := by
    rw [hpow]
    exact Nat.mul_div_cancel _ (Nat.two_pow_pos _)
  have hmod : n * 2 ^ 52 % 2 ^ Nat.log 2 n = 0 := by
    rw [hpow]
    exact Nat.mul_mod_left _ _
  rw [codeOf, if_neg hn, roundHalfEven, hmod, hdiv, if_neg]
  have := Nat.two_pow_pos (Nat.log 2 n)
  omega

/-- Below `2 ^ 53` different integers have different floats. -/
theorem codeOf_strictMono {n m : Nat} (h : n < m) (hm : m < 2 ^ 53) : codeOf n < codeOf m := by
  have hm0 : m ≠ 0 := by omega
  have hlower := (significand_bounds hm0).1
  rcases eq_or_ne n 0 with rfl | hn
  · rw [codeOf, codeOf, if_pos rfl, if_neg hm0]
    have := Nat.two_pow_pos 52
    omega
  · rcases Nat.lt_or_eq_of_le (Nat.log_mono_right (b := 2) (Nat.le_of_lt h)) with hlt | heq
    · have hupper : n * 2 ^ (52 - Nat.log 2 n) < 2 ^ 53 := by
        have hlog : Nat.log 2 n ≤ 52 :=
          Nat.le_of_lt_succ (Nat.log_lt_of_lt_pow hn (Nat.lt_trans h hm))
        calc n * 2 ^ (52 - Nat.log 2 n)
            < 2 ^ (Nat.log 2 n + 1) * 2 ^ (52 - Nat.log 2 n) :=
              Nat.mul_lt_mul_of_pos_right (Nat.lt_pow_succ_log_self (by decide) n)
                (Nat.two_pow_pos _)
          _ = 2 ^ 53 := by
              rw [← Nat.pow_add]
              congr 1
              omega
      rw [codeOf_small hn (Nat.lt_trans h hm), codeOf, if_neg hm0]
      omega
    · rw [codeOf_small hn (Nat.lt_trans h hm), codeOf_small hm0 hm, heq]
      exact Nat.add_lt_add_left (Nat.mul_lt_mul_of_pos_right h (Nat.two_pow_pos _)) _

/-- `n as f64` for an unsigned 64-bit integer. -/
def ofUInt64 (n : UInt64) : Binary64 :=
  ⟨false, codeOf n.toNat, Nat.lt_trans (codeOf_lt n.toNat_lt) (by decide)⟩

theorem ofUInt64_le {n m : UInt64} (h : n ≤ m) : ofUInt64 n ≤ ofUInt64 m := by
  have hn : ¬ (ofUInt64 n).IsNaN := Nat.not_lt.mpr (Nat.le_of_lt (codeOf_lt n.toNat_lt))
  have hm : ¬ (ofUInt64 m).IsNaN := Nat.not_lt.mpr (Nat.le_of_lt (codeOf_lt m.toNat_lt))
  refine ⟨hn, hm, ?_⟩
  show ((codeOf n.toNat : Nat) : Int) ≤ (codeOf m.toNat : Nat)
  exact Int.ofNat_le.mpr (codeOf_mono (UInt64.le_iff_toNat_le.mp h))

/-- The integers below `2 ^ 53` can be told apart by their floats. -/
theorem ofUInt64_inj {n m : UInt64} (hn : n.toNat < 2 ^ 53) (hm : m.toNat < 2 ^ 53)
    (h : (ofUInt64 n).code = (ofUInt64 m).code) : n = m := by
  have hcode : codeOf n.toNat = codeOf m.toNat := h
  refine UInt64.toNat_inj.mp ?_
  rcases Nat.lt_trichotomy n.toNat m.toNat with hlt | heq | hlt
  · exact absurd hcode (Nat.ne_of_lt (codeOf_strictMono hlt hm))
  · exact heq
  · exact absurd hcode.symm (Nat.ne_of_lt (codeOf_strictMono hlt hn))

/-- The first integer without a float of its own goes to its even neighbour. -/
example : (ofUInt64 9007199254740993).code = (ofUInt64 9007199254740992).code := by
  decide +kernel

/-! ## The word -/

/-- Sign bit and magnitude code, as one word. -/
def toBits (x : Binary64) : UInt64 := UInt64.ofNat ((if x.sign then 2 ^ 63 else 0) + x.code)

def ofBits (w : UInt64) : Binary64 :=
  ⟨decide (2 ^ 63 ≤ w.toNat), w.toNat % 2 ^ 63, Nat.mod_lt _ (by decide)⟩

@[simp] theorem ofBits_toBits (x : Binary64) : ofBits x.toBits = x := by
  obtain ⟨sign, code, small⟩ := x
  have hword : (toBits ⟨sign, code, small⟩).toNat = (if sign then 2 ^ 63 else 0) + code := by
    rw [toBits, UInt64.toNat_ofNat']
    refine Nat.mod_eq_of_lt ?_
    dsimp only
    split <;> omega
  rw [ofBits, mk.injEq, hword]
  cases sign with
  | true => exact ⟨by simp, by simp; omega⟩
  | false => exact ⟨by simpa using small, by simp; omega⟩

/-- The same number, up to the sign of zero. -/
def Same (x y : Binary64) : Prop := x = y ∨ (x.code = 0 ∧ y.code = 0)

theorem Same.of_same {x y z : Binary64} (h : x.Same z) (h' : y.Same z) : x.Same y := by
  rcases h with rfl | ⟨hx, hz⟩
  · rcases h' with rfl | ⟨hy, hx⟩
    · exact Or.inl rfl
    · exact Or.inr ⟨hx, hy⟩
  · rcases h' with rfl | ⟨hy, _⟩
    · exact Or.inr ⟨hx, hz⟩
    · exact Or.inr ⟨hx, hy⟩

end Binary64
