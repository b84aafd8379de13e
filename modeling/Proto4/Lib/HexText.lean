/-
# `HexText` — hexadecimal in Unicode texts

A text is its list of characters.  `splitBytes` cuts it after so many bytes of
its UTF-8, which is impossible inside a character; `trim` takes white space off
both ends.

`Denotes t raw` says that `t` is the hexadecimal of `raw`, in either case:
digit by digit it is the two halves of every byte.  `decode` is the decoder
that reads two digits at a time and accepts nothing else (`decode_ok_iff`).
-/
import Mathlib.Data.List.DropRight

namespace HexText

/-! ## Cutting a text by bytes -/

def byteLength : List Char → Nat
  | [] => 0
  | c :: t => c.utf8Size + byteLength t

/-- The text before and after byte `n`; `none` inside a character or past the end. -/
def splitBytes (n : Nat) : List Char → Option (List Char × List Char)
  | [] => if n = 0 then some ([], []) else none
  | c :: t =>
      if n = 0 then some ([], c :: t)
      else if c.utf8Size ≤ n then
        (splitBytes (n - c.utf8Size) t).map fun halves => (c :: halves.1, halves.2)
      else none

/-- The text from byte `i` to byte `j`. -/
def sliceBytes (i j : Nat) (t : List Char) : Option (List Char) :=
  (splitBytes i t).bind fun halves => (splitBytes (j - i) halves.2).map Prod.fst

theorem byteLength_append (t u : List Char) :
    byteLength (t ++ u) = byteLength t + byteLength u := by
  induction t with
  | nil => exact (Nat.zero_add _).symm
  | cons c t ih =>
      show c.utf8Size + byteLength (t ++ u) = c.utf8Size + byteLength t + byteLength u
      rw [ih, Nat.add_assoc]

theorem eq_nil_of_byteLength {t : List Char} (h : byteLength t = 0) : t = [] := by
  cases t with
  | nil => rfl
  | cons c t =>
      have hpos := c.utf8Size_pos
      rw [byteLength] at h
      omega

theorem splitBytes_zero (t : List Char) : splitBytes 0 t = some ([], t) := by
  cases t with
  | nil => rfl
  | cons c t => rfl

theorem splitBytes_append (t u : List Char) : splitBytes (byteLength t) (t ++ u) = some (t, u) := by
  induction t with
  | nil => exact splitBytes_zero u
  | cons c t ih =>
      have hpos : ¬ c.utf8Size + byteLength t = 0 := by
        have := c.utf8Size_pos
        omega
      rw [List.cons_append, byteLength, splitBytes, if_neg hpos, if_pos (Nat.le_add_right _ _),
        Nat.add_sub_cancel_left, ih]
      rfl

/-- A slice that starts where a part ends. -/
theorem sliceBytes_append (t u : List Char) (k : Nat) :
    sliceBytes (byteLength t) (byteLength t + k) (t ++ u) = (splitBytes k u).map Prod.fst := by
  rw [sliceBytes, splitBytes_append, Nat.add_sub_cancel_left]
  rfl

theorem splitBytes_cons {n : Nat} (hn : 0 < n) (c : Char) (t : List Char) :
    splitBytes n (c :: t) =
      if c.utf8Size ≤ n then
        (splitBytes (n - c.utf8Size) t).map fun halves => (c :: halves.1, halves.2)
      else none := by
  rw [splitBytes, if_neg (Nat.pos_iff_ne_zero.mp hn)]

/-- The first two bytes end inside a character. -/
def CutFirst : List Char → Prop
  | [] => False
  | [c] => 2 < c.utf8Size
  | c :: d :: _ => 2 < c.utf8Size ∨ (c.utf8Size = 1 ∧ 1 < d.utf8Size)

/-- The first two bytes: part of a character, two characters, or one. -/
theorem splitBytes_two {t : List Char} (h : 2 ≤ byteLength t) :
    (CutFirst t ∧ splitBytes 2 t = none) ∨
    (∃ c d u, t = c :: d :: u ∧ c.utf8Size = 1 ∧ d.utf8Size = 1 ∧
      splitBytes 2 t = some ([c, d], u)) ∨
    (∃ c u, t = c :: u ∧ c.utf8Size = 2 ∧ splitBytes 2 t = some ([c], u)) := by
  match t with
  | [] => exact absurd h (by decide)
  | c :: u =>
      have hpos := c.utf8Size_pos
      rcases Nat.lt_trichotomy c.utf8Size 2 with hone | htwo | hwide
      · match u with
        | [] =>
            rw [byteLength, byteLength] at h
            omega
        | d :: v =>
            obtain hone : c.utf8Size = 1 := by omega
            rw [splitBytes_cons Nat.two_pos, if_pos (by omega), hone,
              splitBytes_cons (show 0 < 2 - 1 from Nat.one_pos)]
            rcases Nat.lt_or_ge 1 d.utf8Size with hcut | hle
            · rw [if_neg (by omega)]
              exact Or.inl ⟨Or.inr ⟨hone, hcut⟩, rfl⟩
            · have hpos' := d.utf8Size_pos
              obtain hone' : d.utf8Size = 1 := by omega
              rw [if_pos hle, hone', splitBytes_zero]
              exact Or.inr (Or.inl ⟨c, d, v, rfl, hone, hone', rfl⟩)
      · rw [splitBytes_cons Nat.two_pos, if_pos (Nat.le_of_eq htwo), htwo, splitBytes_zero]
        exact Or.inr (Or.inr ⟨c, u, rfl, htwo, rfl⟩)
      · rw [splitBytes_cons Nat.two_pos, if_neg (Nat.not_le.mpr hwide)]
        refine Or.inl ⟨?_, rfl⟩
        cases u with
        | nil => exact hwide
        | cons d v => exact Or.inl hwide

theorem not_cutFirst_of_two {c d : Char} {t : List Char} (hc : c.utf8Size = 1)
    (hd : d.utf8Size = 1) : ¬ CutFirst (c :: d :: t) := by
  rintro (h | ⟨_, h⟩)
  · omega
  · omega

theorem not_cutFirst_of_one {c : Char} {t : List Char} (hc : c.utf8Size = 2) :
    ¬ CutFirst (c :: t) := by
  cases t with
  | nil =>
      intro h
      rw [CutFirst] at h
      omega
  | cons d t =>
      rintro (h | ⟨h, _⟩)
      · omega
      · omega

/-! ## White space -/

/-- The property `White_Space`. -/
def isWhiteSpace (c : Char) : Bool :=
  c.toNat ∈ [0x09, 0x0a, 0x0b, 0x0c, 0x0d, 0x20, 0x85, 0xa0, 0x1680, 0x2028, 0x2029, 0x202f,
    0x205f, 0x3000] ∨ (0x2000 ≤ c.toNat ∧ c.toNat ≤ 0x200a)

def trim (t : List Char) : List Char := (t.dropWhile isWhiteSpace).rdropWhile isWhiteSpace

/-! ## Digits -/

def digit (c : Char) : Option Nat :=
  if 0x30 ≤ c.toNat ∧ c.toNat ≤ 0x39 then some (c.toNat - 0x30)
  else if 0x61 ≤ c.toNat ∧ c.toNat ≤ 0x66 then some (c.toNat - 0x57)
  else if 0x41 ≤ c.toNat ∧ c.toNat ≤ 0x46 then some (c.toNat - 0x37)
  else none

theorem digit_bound {c : Char} {x : Nat} (h : digit c = some x) : x < 16 ∧ c.toNat < 128 := by
  rw [digit] at h
  split at h
  · obtain rfl := Option.some.inj h
    omega
  · split at h
    · obtain rfl := Option.some.inj h
      omega
    · split at h
      · obtain rfl := Option.some.inj h
        omega
      · cases h

/-- A digit is one byte. -/
theorem utf8Size_of_digit {c : Char} {x : Nat} (h : digit c = some x) : c.utf8Size = 1 := by
  have hlt : c.val.toNat < 128 := (digit_bound h).2
  exact Char.utf8Size_eq_one_iff.mpr (UInt32.le_iff_toNat_le.mpr (Nat.le_of_lt_succ hlt))

def byteOf (x y : Nat) : UInt8 := UInt8.ofNat (16 * x + y)

/-- `t` is the hexadecimal of `raw`. -/
def Denotes (t : List Char) (raw : List UInt8) : Prop :=
  t.map digit = (raw.flatMap fun b => [b.toNat / 16, b.toNat % 16]).map some

theorem denotes_nil {raw : List UInt8} : Denotes [] raw ↔ raw = [] := by
  cases raw with
  | nil => exact iff_of_true rfl rfl
  | cons b raw => exact iff_of_false (fun h => by cases h) (List.cons_ne_nil _ _)

theorem not_denotes_singleton (c : Char) (raw : List UInt8) : ¬ Denotes [c] raw := by
  intro h
  cases raw with
  | nil => cases h
  | cons b raw => cases congrArg List.length h

theorem toNat_byteOf {x y : Nat} (hx : x < 16) (hy : y < 16) : (byteOf x y).toNat = 16 * x + y :=
  UInt8.toNat_ofNat_of_lt' (show 16 * x + y < 256 by omega)

/-- A byte is put together from its halves. -/
theorem byteOf_halves (b : UInt8) : byteOf (b.toNat / 16) (b.toNat % 16) = b := by
  rw [byteOf, Nat.div_add_mod, UInt8.ofNat_toNat]

theorem denotes_cons_cons {c d : Char} {t : List Char} {raw : List UInt8} :
    Denotes (c :: d :: t) raw ↔
      ∃ x y rest, digit c = some x ∧ digit d = some y ∧ Denotes t rest ∧
        raw = byteOf x y :: rest := by
  constructor
  · intro h
    cases raw with
    | nil => cases h
    | cons b rest =>
        obtain ⟨hc, hrest⟩ := List.cons.inj h
        obtain ⟨hd, ht⟩ := List.cons.inj hrest
        exact ⟨_, _, rest, hc, hd, ht, congrArg (· :: rest) (byteOf_halves b).symm⟩
  · rintro ⟨x, y, rest, hc, hd, ht, rfl⟩
    have hx := (digit_bound hc).1
    have hy := (digit_bound hd).1
    have hdiv : (byteOf x y).toNat / 16 = x := by
      rw [toNat_byteOf hx hy]
      omega
    have hmod : (byteOf x y).toNat % 16 = y := by
      rw [toNat_byteOf hx hy]
      omega
    rw [Denotes, List.map_cons, List.map_cons, hc, hd, ht, List.flatMap_cons, hdiv, hmod]
    rfl

/-- What denotes bytes is twice as many digits. -/
theorem Denotes.digits {t : List Char} {raw : List UInt8} (h : Denotes t raw) :
    t.length = 2 * raw.length ∧ ∀ c ∈ t, (digit c).isSome := by
  constructor
  · have hlen := congrArg List.length h
    simp only [List.length_map, List.length_flatMap, List.length_cons, List.length_nil,
      List.map_const', List.sum_replicate_nat] at hlen
    omega
  · intro c hc
    have hmem : digit c ∈ t.map digit := List.mem_map_of_mem hc
    rw [h] at hmem
    obtain ⟨x, _, hx⟩ := List.mem_map.mp hmem
    rw [← hx]
    rfl

/-- An even number of digits denotes bytes. -/
theorem exists_denotes : ∀ {n : Nat} {t : List Char}, t.length = 2 * n →
    (∀ c ∈ t, (digit c).isSome) → ∃ raw, Denotes t raw
  | 0, t, hlen, _ => ⟨[], by rw [List.length_eq_zero_iff.mp hlen]; rfl⟩
  | n + 1, [], hlen, _ => absurd hlen (by simp)
  | n + 1, [_], hlen, _ => absurd hlen (by simp; omega)
  | n + 1, c :: d :: t, hlen, hall => by
      obtain ⟨x, hx⟩ := Option.isSome_iff_exists.mp (hall c (by simp))
      obtain ⟨y, hy⟩ := Option.isSome_iff_exists.mp (hall d (by simp))
      have hlen' : t.length = 2 * n := by
        simp only [List.length_cons] at hlen
        omega
      obtain ⟨raw, hraw⟩ := exists_denotes hlen' fun e he => hall e (by simp [he])
      exact ⟨_, denotes_cons_cons.mpr ⟨x, y, raw, hx, hy, hraw, rfl⟩⟩

/-! ## The strict decoder -/

inductive DecodeError
  | invalid (c : Char)
  | length

/-- Two digits a byte; of an odd text the last character is looked at before its length. -/
def decode : List Char → Except DecodeError (List UInt8)
  | [] => .ok []
  | [c] =>
      match digit c with
      | none => .error (.invalid c)
      | some _ => .error .length
  | c :: d :: t =>
      match digit c, digit d with
      | none, _ => .error (.invalid c)
      | some _, none => .error (.invalid d)
      | some x, some y => (decode t).map (byteOf x y :: ·)

/-- **The decoder accepts what denotes bytes**, and answers them. -/
theorem decode_ok_iff {t : List Char} {raw : List UInt8} : decode t = .ok raw ↔ Denotes t raw := by
  induction t using decode.induct generalizing raw with
  | case1 =>
      rw [denotes_nil]
      exact ⟨fun h => (Except.ok.inj h).symm, fun h => congrArg _ h.symm⟩
  | case2 c hc =>
      rw [decode, hc]
      exact iff_of_false (fun h => by cases h) (not_denotes_singleton c raw)
  | case3 c x hc =>
      rw [decode, hc]
      exact iff_of_false (fun h => by cases h) (not_denotes_singleton c raw)
  | case4 c d t hc =>
      rw [decode, hc, denotes_cons_cons]
      refine iff_of_false (fun h => by cases h) ?_
      rintro ⟨x, _, _, hx, _⟩
      cases hc.symm.trans hx
  | case5 c d t x hd hc =>
      rw [decode, hc, hd, denotes_cons_cons]
      refine iff_of_false (fun h => by cases h) ?_
      rintro ⟨_, y, _, _, hy, _⟩
      cases hd.symm.trans hy
  | case6 c d t x y hd hc ih =>
      rw [decode, hc, hd, denotes_cons_cons]
      constructor
      · intro h
        cases hdec : decode t with
        | error e =>
            rw [hdec] at h
            cases h
        | ok rest =>
            rw [hdec] at h
            exact ⟨x, y, rest, hc, hd, ih.mp hdec, (Except.ok.inj h).symm⟩
      · rintro ⟨x', y', rest, hx, hy, hrest, rfl⟩
        obtain rfl : x = x' := Option.some.inj (hc.symm.trans hx)
        obtain rfl : y = y' := Option.some.inj (hd.symm.trans hy)
        dsimp only
        rw [ih.mpr hrest]
        rfl

end HexText
