/-
# `Proto4.PromProxy.SecretKey` — the key on the command line and in the manifest

The proxy takes its key as hexadecimal from an argument or the environment
(`src/bin/prom_proxy.rs`), the Go client and the command `tframe` take it from
their configuration.  Go decodes with `encoding/hex`.  The proxy cuts the text
into slices of two bytes and reads each as an integer, and an integer may have a
sign and a slice may end inside a character.

`sameKey_iff`: those two things are all that keeps the three from being one
function.
-/
import Proto4.Lib.HexText
import Proto4.Tframe.Get

namespace Proto4.PromProxy

open HexText
open TinyFrame (Key)

/-! ## Rust -/

inductive IntErrorKind
  | empty
  | invalidDigit
  | posOverflow
  deriving DecidableEq, Repr

def IntErrorKind.text : IntErrorKind → String
  | .empty => "cannot parse integer from empty string"
  | .invalidDigit => "invalid digit found in string"
  | .posOverflow => "number too large to fit in target type"

/-- One more digit of a `u8` in base 16. -/
def pushDigit (value : UInt8) (c : Char) : Except IntErrorKind UInt8 :=
  match digit c with
  | none => .error .invalidDigit
  | some x =>
      if value.toNat * 16 + x < 256 then .ok (byteOf value.toNat x) else .error .posOverflow

/-- `u8::from_str_radix(.., 16)`. -/
def fromStrRadix16 : List Char → Except IntErrorKind UInt8
  | [] => .error .empty
  | [c] => pushDigit 0 c
  | c :: d :: t =>
      if c = '+' then (d :: t).foldlM pushDigit 0 else (c :: d :: t).foldlM pushDigit 0

/-- How `hex_decode` ends without bytes. -/
inductive HexFault
  | err (message : String)
  | panic
  deriving DecidableEq, Repr

/-- The byte at `s[i..i + 2]`; the slice panics off a character boundary. -/
def hexByte (t : List Char) (i : Nat) : Except HexFault UInt8 :=
  match sliceBytes i (i + 2) t with
  | none => .error .panic
  | some u =>
      match fromStrRadix16 u with
      | .error e => .error (.err e.text)
      | .ok b => .ok b

def hexDecode (s : String) : Except HexFault Bytes :=
  let t := trim s.toList
  if byteLength t % 2 ≠ 0 then .error (.err "odd length")
  else (List.range' 0 (byteLength t / 2) 2).mapM (hexByte t)

/-- How the process ends before it serves. -/
inductive Exit
  | failure (message : String)
  | panic
  deriving DecidableEq, Repr

/-- What `parse_args` makes of the key. -/
def parseKeyArg (keyHex : String) : Except Exit Key :=
  match hexDecode keyHex with
  | .error (.err e) => .error (.failure s!"invalid secretkey: {e}")
  | .error .panic => .error .panic
  | .ok raw =>
      if h : raw.length = TinyFrame.keyLen then .ok ⟨raw, h⟩
      else .error (.failure s!"secretkey must be 32 bytes (64 hex chars), got {raw.length}")

/-! ## Go -/

/-- `strings.TrimSpace`, of valid UTF-8. -/
def goTrimSpace (s : String) : String := String.ofList (trim s.toList)

/-- `%#U` of a byte. -/
def unicodeText (b : UInt8) : String :=
  let code := String.ofList (List.leftpad 4 '0' ((Nat.toDigits 16 b.toNat).map Char.toUpper))
  let printable := (0x20 ≤ b ∧ b < 0x7f) ∨ (0xa1 ≤ b ∧ b ≠ 0xad)
  "U+" ++ code ++ if printable then " '" ++ String.singleton (Char.ofNat b.toNat) ++ "'" else ""

/-- The texts of `hex.InvalidByteError` and `hex.ErrLength`; a character is
invalid at its first byte. -/
def decodeErrorText : DecodeError → String
  | .invalid c =>
      "encoding/hex: invalid byte: " ++ unicodeText ((String.utf8EncodeChar c).headD 0)
  | .length => "encoding/hex: odd length hex string"

/-- `hex.DecodeString`. -/
def goDecodeString (s : String) : Except String Bytes :=
  match decode s.toList with
  | .error e => .error (decodeErrorText e)
  | .ok raw => .ok raw

/-- Go's functions on texts, in place of whatever stands for them. -/
def goTexts (std : Tframe.GoStd) : Tframe.GoStd :=
  { std with trimSpace := goTrimSpace, decodeHex := goDecodeString }

/-- `ParseSecretKeyHex`. -/
def parseSecretKeyHex (std : Tframe.GoStd) (hexKey : String) : GoTinyframe.Result Key :=
  match std.decodeHex (std.trimSpace hexKey) with
  | .error e => GoTinyframe.err s!"invalid secretkey hex: {e}"
  | .ok raw =>
      if h : raw.length = TinyFrame.keyLen then .ok ⟨raw, h⟩
      else GoTinyframe.err s!"secretkey must be 32 bytes (64 hex chars), got {raw.length}"

/-! ## A slice of two bytes -/

/-- Two characters `u8::from_str_radix` reads as a byte. -/
def Pair (c d : Char) : Prop := (c = '+' ∨ (digit c).isSome) ∧ (digit d).isSome

/-- Only such pairs. -/
inductive Pairs : List Char → Prop
  | nil : Pairs []
  | cons {c d : Char} {t : List Char} : Pair c d → Pairs t → Pairs (c :: d :: t)

/-- After some pairs, two bytes that end inside a character. -/
inductive CutAfter : List Char → Prop
  | here {t : List Char} : CutFirst t → CutAfter t
  | later {c d : Char} {t : List Char} : Pair c d → CutAfter t → CutAfter (c :: d :: t)

/-- The bytes of pairs. -/
inductive ReadsAs : List Char → Bytes → Prop
  | nil : ReadsAs [] []
  | cons {c d : Char} {b : UInt8} {t : List Char} {raw : Bytes} :
      fromStrRadix16 [c, d] = .ok b → ReadsAs t raw → ReadsAs (c :: d :: t) (b :: raw)

theorem pushDigit_ok_iff {value : UInt8} (hvalue : value.toNat < 16) {c : Char} {b : UInt8} :
    pushDigit value c = .ok b ↔ ∃ y, digit c = some y ∧ b = byteOf value.toNat y := by
  rw [pushDigit]
  cases hc : digit c with
  | none => exact iff_of_false (fun h => by cases h) (by rintro ⟨_, h, _⟩; cases h)
  | some y =>
      have hy := (digit_bound hc).1
      dsimp only
      rw [if_pos (by omega)]
      constructor
      · intro h
        exact ⟨y, rfl, (Except.ok.inj h).symm⟩
      · rintro ⟨_, h, rfl⟩
        rw [Option.some.inj h]

theorem digit_plus : digit '+' = none := rfl

/-- What `u8::from_str_radix` makes of two characters. -/
theorem fromStrRadix16_pair {c d : Char} {b : UInt8} :
    fromStrRadix16 [c, d] = .ok b ↔
      ∃ y, digit d = some y ∧
        ((c = '+' ∧ b = byteOf 0 y) ∨ ∃ x, digit c = some x ∧ b = byteOf x y) := by
  have hlast : ∀ value : UInt8, [d].foldlM pushDigit value = pushDigit value d := by
    intro value
    rw [List.foldlM_cons]
    cases pushDigit value d <;> rfl
  have hzero : (0 : UInt8).toNat = 0 := rfl
  rw [fromStrRadix16, hlast]
  rcases eq_or_ne c '+' with rfl | hne
  · rw [if_pos rfl, pushDigit_ok_iff (by decide), hzero]
    simp [digit_plus]
  · rw [if_neg hne, List.foldlM_cons, Outcome.bind_ok_iff]
    constructor
    · rintro ⟨value, hvalue, hd⟩
      obtain ⟨x, hx, rfl⟩ := (pushDigit_ok_iff (by decide)).mp hvalue
      have hvalue := toNat_byteOf (Nat.zero_lt_succ 15) (digit_bound hx).1
      rw [hlast, pushDigit_ok_iff (by rw [hzero, hvalue]; have := digit_bound hx; omega)] at hd
      obtain ⟨y, hy, rfl⟩ := hd
      rw [hzero, hvalue, Nat.mul_zero, Nat.zero_add]
      exact ⟨y, hy, Or.inr ⟨x, hx, rfl⟩⟩
    · rintro ⟨y, hy, ⟨rfl, _⟩ | ⟨x, hx, rfl⟩⟩
      · exact absurd rfl hne
      · have hvalue := toNat_byteOf (Nat.zero_lt_succ 15) (digit_bound hx).1
        rw [Nat.mul_zero, Nat.zero_add] at hvalue
        refine ⟨byteOf 0 x, (pushDigit_ok_iff (by decide)).mpr ⟨x, hx, rfl⟩, ?_⟩
        rw [hlast, pushDigit_ok_iff (by have := digit_bound hx; omega), hvalue]
        exact ⟨y, hy, rfl⟩

theorem pair_iff {c d : Char} : Pair c d ↔ ∃ b, fromStrRadix16 [c, d] = .ok b := by
  constructor
  · rintro ⟨hc, hd⟩
    obtain ⟨y, hy⟩ := Option.isSome_iff_exists.mp hd
    rcases hc with rfl | hc
    · exact ⟨_, fromStrRadix16_pair.mpr ⟨y, hy, Or.inl ⟨rfl, rfl⟩⟩⟩
    · obtain ⟨x, hx⟩ := Option.isSome_iff_exists.mp hc
      exact ⟨_, fromStrRadix16_pair.mpr ⟨y, hy, Or.inr ⟨x, hx, rfl⟩⟩⟩
  · rintro ⟨b, hb⟩
    obtain ⟨y, hy, ⟨hc, _⟩ | ⟨x, hx, _⟩⟩ := fromStrRadix16_pair.mp hb
    · exact ⟨Or.inl hc, Option.isSome_of_eq_some hy⟩
    · exact ⟨Or.inr (Option.isSome_of_eq_some hx), Option.isSome_of_eq_some hy⟩

/-- Both characters of a pair are one byte. -/
theorem Pair.utf8Size {c d : Char} (h : Pair c d) : c.utf8Size = 1 ∧ d.utf8Size = 1 := by
  obtain ⟨hc, hd⟩ := h
  obtain ⟨y, hy⟩ := Option.isSome_iff_exists.mp hd
  refine ⟨?_, utf8Size_of_digit hy⟩
  rcases hc with rfl | hc
  · rfl
  · obtain ⟨x, hx⟩ := Option.isSome_iff_exists.mp hc
    exact utf8Size_of_digit hx

/-- **A slice of two bytes**: it ends inside a character, it is a pair, or it is
refused. -/
theorem hexByte_cases (front : List Char) {rest : List Char} {n : Nat}
    (hbytes : byteLength rest = 2 * (n + 1)) :
    (CutFirst rest ∧ hexByte (front ++ rest) (byteLength front) = .error .panic) ∨
    (∃ c d t b, rest = c :: d :: t ∧ fromStrRadix16 [c, d] = .ok b ∧
      hexByte (front ++ rest) (byteLength front) = .ok b) ∨
    (¬ CutFirst rest ∧ (∀ c d t, rest = c :: d :: t → ¬ Pair c d) ∧
      ∃ e, hexByte (front ++ rest) (byteLength front) = .error (.err e)) := by
  rw [hexByte, sliceBytes_append]
  rcases splitBytes_two (show 2 ≤ byteLength rest by omega) with
    ⟨hcut, hsplit⟩ | ⟨c, d, t, rfl, hc, hd, hsplit⟩ | ⟨c, t, rfl, hc, hsplit⟩
  · rw [hsplit]
    exact Or.inl ⟨hcut, rfl⟩
  · rw [hsplit]
    dsimp only [Option.map_some]
    cases hread : fromStrRadix16 [c, d] with
    | ok b => exact Or.inr (Or.inl ⟨c, d, t, b, rfl, hread, rfl⟩)
    | error e =>
        refine Or.inr (Or.inr ⟨not_cutFirst_of_two hc hd, ?_, e.text, rfl⟩)
        rintro c' d' t' heq hpair
        obtain ⟨rfl, htail⟩ := List.cons.inj heq
        obtain ⟨rfl, _⟩ := List.cons.inj htail
        obtain ⟨b, hb⟩ := pair_iff.mp hpair
        cases hread.symm.trans hb
  · rw [hsplit]
    have hnone : digit c = none := by
      cases hdigit : digit c with
      | none => rfl
      | some x =>
          have hone := utf8Size_of_digit hdigit
          omega
    refine Or.inr (Or.inr ⟨not_cutFirst_of_one hc, ?_, IntErrorKind.invalidDigit.text, ?_⟩)
    · rintro c' d' t' heq hpair
      obtain ⟨rfl, _⟩ := List.cons.inj heq
      have hone := hpair.utf8Size.1
      omega
    · dsimp only [Option.map_some]
      rw [fromStrRadix16, pushDigit, hnone]

/-! ## All slices -/

theorem Pair.byteLength {c d : Char} (h : Pair c d) (t : List Char) :
    byteLength (c :: d :: t) = byteLength t + 2 := by
  obtain ⟨hc, hd⟩ := h.utf8Size
  rw [HexText.byteLength, HexText.byteLength, hc, hd]
  omega

theorem Pair.byteLength_rest {c d : Char} (h : Pair c d) {t : List Char} {n : Nat}
    (hbytes : HexText.byteLength (c :: d :: t) = 2 * (n + 1)) :
    HexText.byteLength t = 2 * n := by
  rw [h.byteLength] at hbytes
  omega

/-- After a pair the next slice starts at the rest. -/
theorem slices_after_pair {c d : Char} (h : Pair c d) (front t : List Char) (n : Nat) :
    (List.range' (byteLength front + 2) n 2).mapM (hexByte (front ++ c :: d :: t))
      = (List.range' (byteLength (front ++ [c, d])) n 2).mapM
          (hexByte ((front ++ [c, d]) ++ t)) := by
  rw [byteLength_append, h.byteLength [], List.append_assoc]
  rfl

/-- **The slices of a text are bytes exactly as its pairs are**; `rest` is what
is left of it. -/
theorem slices_ok_iff {n : Nat} : ∀ {front rest : List Char} {raw : Bytes},
    byteLength rest = 2 * n →
    ((List.range' (byteLength front) n 2).mapM (hexByte (front ++ rest)) = .ok raw ↔
      ReadsAs rest raw) := by
  induction n with
  | zero =>
      intro front rest raw hbytes
      obtain rfl := eq_nil_of_byteLength hbytes
      constructor
      · intro h
        obtain rfl := Except.ok.inj h
        exact .nil
      · intro h
        cases h
        rfl
  | succ n ih =>
      intro front rest raw hbytes
      rw [List.range'_succ, List.mapM_cons, Outcome.bind_ok_iff]
      rcases hexByte_cases front hbytes with
        ⟨hcut, hbyte⟩ | ⟨c, d, t, b, rfl, hread, hbyte⟩ | ⟨_, hnot, e, hbyte⟩
      · rw [hbyte]
        refine iff_of_false (by rintro ⟨_, h, _⟩; cases h) fun h => ?_
        cases h with
        | nil => exact hcut
        | cons hread _ =>
            have hpair := pair_iff.mpr ⟨_, hread⟩
            exact absurd hcut (not_cutFirst_of_two hpair.utf8Size.1 hpair.utf8Size.2)
      · have hpair := pair_iff.mpr ⟨b, hread⟩
        have ht := hpair.byteLength_rest hbytes
        rw [hbyte, slices_after_pair hpair]
        constructor
        · rintro ⟨b', hb, h⟩
          obtain rfl := Except.ok.inj hb
          obtain ⟨raw', hraw, h⟩ := Outcome.bind_ok_iff.mp h
          obtain rfl := Except.ok.inj h
          exact .cons hread ((ih ht).mp hraw)
        · intro h
          cases h with
          | cons hread' hrest =>
              obtain rfl := Except.ok.inj (hread.symm.trans hread')
              exact ⟨b, rfl, Outcome.bind_ok_iff.mpr ⟨_, (ih ht).mpr hrest, rfl⟩⟩
      · rw [hbyte]
        refine iff_of_false (by rintro ⟨_, h, _⟩; cases h) fun h => ?_
        cases h with
        | nil => cases hbytes
        | cons hread _ => exact hnot _ _ _ rfl (pair_iff.mpr ⟨_, hread⟩)

/-- **Decoding panics exactly at a slice that ends inside a character**, if no
earlier one was refused. -/
theorem slices_panic_iff {n : Nat} : ∀ {front rest : List Char},
    byteLength rest = 2 * n →
    ((List.range' (byteLength front) n 2).mapM (hexByte (front ++ rest)) = .error .panic ↔
      CutAfter rest) := by
  induction n with
  | zero =>
      intro front rest hbytes
      obtain rfl := eq_nil_of_byteLength hbytes
      refine iff_of_false (fun h => by cases h) fun h => ?_
      cases h with
      | here hcut => exact hcut
  | succ n ih =>
      intro front rest hbytes
      rw [List.range'_succ, List.mapM_cons, Outcome.bind_error_iff]
      rcases hexByte_cases front hbytes with
        ⟨hcut, hbyte⟩ | ⟨c, d, t, b, rfl, hread, hbyte⟩ | ⟨hcut, hnot, e, hbyte⟩
      · exact iff_of_true (Or.inl hbyte) (.here hcut)
      · have hpair := pair_iff.mpr ⟨b, hread⟩
        have ht := hpair.byteLength_rest hbytes
        rw [hbyte, slices_after_pair hpair]
        constructor
        · rintro (h | ⟨b', hb, h⟩)
          · cases h
          · rcases Outcome.bind_error_iff.mp h with h | ⟨_, _, h⟩
            · exact .later hpair ((ih ht).mp h)
            · cases h
        · intro h
          cases h with
          | here hcut => exact absurd hcut (not_cutFirst_of_two hpair.utf8Size.1 hpair.utf8Size.2)
          | later _ hrest =>
              exact Or.inr ⟨b, rfl, Outcome.bind_error_iff.mpr (Or.inl ((ih ht).mpr hrest))⟩
      · rw [hbyte]
        constructor
        · rintro (h | ⟨_, h, _⟩)
          · cases h
          · cases h
        · intro h
          cases h with
          | here hcut' => exact absurd hcut' hcut
          | later hpair _ => exact absurd hpair (hnot _ _ _ rfl)

/-! ## What each of the three accepts -/

theorem ReadsAs.length {t : List Char} {raw : Bytes} (h : ReadsAs t raw) :
    byteLength t = 2 * raw.length ∧ t.length = 2 * raw.length := by
  induction h with
  | nil => exact ⟨rfl, rfl⟩
  | cons hread _ ih =>
      rw [(pair_iff.mpr ⟨_, hread⟩).byteLength, List.length_cons, List.length_cons,
        List.length_cons]
      omega

theorem hexDecode_ok_iff {s : String} {raw : Bytes} :
    hexDecode s = .ok raw ↔ ReadsAs (trim s.toList) raw := by
  rw [hexDecode]
  split
  · next hodd =>
      refine iff_of_false (fun h => by cases h) fun h => ?_
      have := h.length.1
      omega
  · next heven =>
      have hbytes : byteLength (trim s.toList) = 2 * (byteLength (trim s.toList) / 2) := by omega
      exact @slices_ok_iff _ [] _ _ hbytes

/-- The text has a slice that cannot be taken. -/
def Cuts (t : List Char) : Prop := byteLength t % 2 = 0 ∧ CutAfter t

theorem hexDecode_panic_iff {s : String} :
    hexDecode s = .error .panic ↔ Cuts (trim s.toList) := by
  rw [hexDecode]
  split
  · next hodd => exact iff_of_false (fun h => by cases h) fun h => hodd h.1
  · next heven =>
      have hbytes : byteLength (trim s.toList) = 2 * (byteLength (trim s.toList) / 2) := by omega
      refine (@slices_panic_iff _ [] _ hbytes).trans ?_
      exact (and_iff_right (Decidable.not_not.mp heven)).symm

/-- The length check, which all three make. -/
theorem checkLength_ok_iff {ε : Type} {e : ε} {raw : Bytes} {key : Key} :
    (if h : raw.length = TinyFrame.keyLen then (.ok ⟨raw, h⟩ : Except ε Key) else .error e)
      = .ok key ↔ raw = key.val := by
  split
  · constructor
    · intro h
      rw [← Except.ok.inj h]
    · rintro rfl
      rfl
  · next hlen =>
      refine iff_of_false (fun h => by cases h) ?_
      rintro rfl
      exact hlen key.property

theorem parseKeyArg_ok_iff {s : String} {key : Key} :
    parseKeyArg s = .ok key ↔ ReadsAs (trim s.toList) key.val := by
  rw [← hexDecode_ok_iff, parseKeyArg]
  cases hexDecode s with
  | error e =>
      cases e with
      | err message => exact iff_of_false (fun h => by cases h) fun h => by cases h
      | panic => exact iff_of_false (fun h => by cases h) fun h => by cases h
  | ok raw =>
      exact checkLength_ok_iff.trans ⟨fun h => congrArg _ h, fun h => Except.ok.inj h⟩

section
variable {std : Tframe.GoStd}

@[simp] theorem goTexts_trimSpace : (goTexts std).trimSpace = goTrimSpace := rfl

@[simp] theorem goTexts_decodeHex : (goTexts std).decodeHex = goDecodeString := rfl

theorem goDecodeString_ok_iff {s : String} {raw : Bytes} :
    goDecodeString (goTrimSpace s) = .ok raw ↔ Denotes (trim s.toList) raw := by
  rw [← decode_ok_iff, goDecodeString, goTrimSpace, String.toList_ofList]
  cases decode (trim s.toList) with
  | error e => exact iff_of_false (fun h => by cases h) fun h => by cases h
  | ok raw' => exact ⟨fun h => congrArg _ (Except.ok.inj h), fun h => congrArg _ (Except.ok.inj h)⟩

/-- The Go client accepts the hexadecimal of 32 bytes, within white space. -/
theorem parseSecretKeyHex_ok_iff {hexKey : String} {key : Key} :
    parseSecretKeyHex (goTexts std) hexKey = .ok key ↔ Denotes (trim hexKey.toList) key.val := by
  rw [← goDecodeString_ok_iff, parseSecretKeyHex, goTexts_trimSpace, goTexts_decodeHex]
  cases goDecodeString (goTrimSpace hexKey) with
  | error e => exact iff_of_false (fun h => by cases h) fun h => by cases h
  | ok raw =>
      exact checkLength_ok_iff.trans ⟨fun h => congrArg _ h, fun h => Except.ok.inj h⟩

/-- The client and the manifest accept the same keys, whatever Go's functions do. -/
theorem parseSecretKeyHex_agrees (m : Tframe.Manifest) :
    Outcome.Agrees (parseSecretKeyHex std m.api.secretKey) (Tframe.parseSecretKey std m) := by
  rw [parseSecretKeyHex, Tframe.parseSecretKey]
  cases std.decodeHex (std.trimSpace m.api.secretKey) with
  | error e => exact Outcome.agrees_error _ _
  | ok raw =>
      dsimp only
      split
      · exact Outcome.agrees_ok _
      · exact Outcome.agrees_error _ _

end

/-! ## Where the three agree -/

/-- Hexadecimal is read as what it denotes. -/
theorem readsAs_of_denotes : ∀ {t : List Char} {raw : Bytes}, Denotes t raw → ReadsAs t raw
  | [], raw, h => by
      obtain rfl := denotes_nil.mp h
      exact .nil
  | [c], raw, h => absurd h (not_denotes_singleton c raw)
  | c :: d :: t, raw, h => by
      obtain ⟨x, y, rest, hx, hy, hrest, rfl⟩ := denotes_cons_cons.mp h
      exact .cons (fromStrRadix16_pair.mpr ⟨y, hy, Or.inr ⟨x, hx, rfl⟩⟩) (readsAs_of_denotes hrest)

/-- What is read as bytes and has no sign is hexadecimal of them. -/
theorem ReadsAs.denotes {t : List Char} {raw : Bytes} (h : ReadsAs t raw) (hplus : '+' ∉ t) :
    Denotes t raw := by
  induction h with
  | nil => exact denotes_nil.mpr rfl
  | cons hread _ ih =>
      simp only [List.mem_cons, not_or] at hplus
      obtain ⟨hc, _, ht⟩ := hplus
      obtain ⟨y, hy, ⟨rfl, _⟩ | ⟨x, hx, rfl⟩⟩ := fromStrRadix16_pair.mp hread
      · exact absurd rfl hc
      · exact denotes_cons_cons.mpr ⟨x, y, _, hx, hy, ih ht, rfl⟩

theorem plus_not_mem {t : List Char} {raw : Bytes} (h : Denotes t raw) : '+' ∉ t := by
  intro hmem
  have hdigit := h.digits.2 '+' hmem
  rw [digit_plus] at hdigit
  cases hdigit

theorem pairs_iff {t : List Char} : Pairs t ↔ ∃ raw, ReadsAs t raw := by
  constructor
  · intro h
    induction h with
    | nil => exact ⟨[], .nil⟩
    | cons hpair _ ih =>
        obtain ⟨b, hb⟩ := pair_iff.mp hpair
        obtain ⟨raw, hraw⟩ := ih
        exact ⟨b :: raw, .cons hb hraw⟩
  · rintro ⟨raw, h⟩
    induction h with
    | nil => exact .nil
    | cons hread _ ih => exact .cons (pair_iff.mpr ⟨_, hread⟩) ih

/-- 32 bytes, at least one of them with a sign. -/
def Signed (t : List Char) : Prop := t.length = 64 ∧ Pairs t ∧ '+' ∈ t

/-- Every key the proxy accepts is hexadecimal, unless a sign is in it. -/
theorem denotes_of_parseKeyArg {s : String} {key : Key} (hsigned : ¬ Signed (trim s.toList))
    (h : parseKeyArg s = .ok key) : Denotes (trim s.toList) key.val := by
  have hreads := parseKeyArg_ok_iff.mp h
  refine hreads.denotes fun hplus => hsigned ⟨?_, pairs_iff.mpr ⟨_, hreads⟩, hplus⟩
  have hlen := hreads.length.2
  rw [key.property] at hlen
  exact hlen

/-- The key is parsed exactly, and alike by the proxy, the client and the manifest. -/
structure SameKey (s : String) : Prop where
  noPanic : hexDecode s ≠ .error .panic
  accepts : (∃ key, parseKeyArg s = .ok key) ↔
    (trim s.toList).length = 64 ∧ ∀ c ∈ trim s.toList, (digit c).isSome
  bytes : ∀ key, parseKeyArg s = .ok key → Denotes (trim s.toList) key.val
  client : ∀ std key, parseKeyArg s = .ok key ↔ parseSecretKeyHex (goTexts std) s = .ok key
  manifest : ∀ std (m : Tframe.Manifest), m.api.secretKey = s →
    ∀ key, parseKeyArg s = .ok key ↔ Tframe.parseSecretKey (goTexts std) m = .ok key

/-- **The key is parsed exactly and everywhere the same, except where a slice
ends inside a character and where a byte has a sign.** -/
theorem sameKey_iff (s : String) :
    SameKey s ↔ ¬ Cuts (trim s.toList) ∧ ¬ Signed (trim s.toList) := by
  constructor
  · intro h
    refine ⟨fun hcuts => h.noPanic (hexDecode_panic_iff.mpr hcuts), ?_⟩
    rintro ⟨hlen, hpairs, hplus⟩
    obtain ⟨raw, hraw⟩ := pairs_iff.mp hpairs
    have hraw32 : raw.length = TinyFrame.keyLen := by
      have hlen' := hraw.length.2
      show raw.length = 32
      omega
    have hkey : parseKeyArg s = .ok ⟨raw, hraw32⟩ := parseKeyArg_ok_iff.mpr hraw
    exact plus_not_mem (h.bytes _ hkey) hplus
  · rintro ⟨hcuts, hsigned⟩
    have hsame : ∀ key, parseKeyArg s = .ok key ↔ Denotes (trim s.toList) key.val := fun key =>
      ⟨denotes_of_parseKeyArg hsigned,
        fun h => parseKeyArg_ok_iff.mpr (readsAs_of_denotes h)⟩
    have hclient : ∀ std key,
        parseKeyArg s = .ok key ↔ parseSecretKeyHex (goTexts std) s = .ok key :=
      fun std key => (hsame key).trans parseSecretKeyHex_ok_iff.symm
    refine ⟨fun h => hcuts (hexDecode_panic_iff.mp h), ⟨?_, ?_⟩, fun key => (hsame key).mp,
      hclient, ?_⟩
    · rintro ⟨key, hkey⟩
      have hdigits := ((hsame key).mp hkey).digits
      rw [key.property] at hdigits
      exact hdigits
    · rintro ⟨hlen, hdigits⟩
      obtain ⟨raw, hraw⟩ := exists_denotes (show _ = 2 * 32 from hlen) hdigits
      have hraw32 : raw.length = TinyFrame.keyLen := by
        have hlen' := hraw.digits.1
        show raw.length = 32
        omega
      exact ⟨⟨raw, hraw32⟩, (hsame _).mpr hraw⟩
    · rintro std m rfl key
      exact (hclient std key).trans ((parseSecretKeyHex_agrees m).ok_iff key)

/-- A sign is read as a digit; a character of three bytes panics. -/
theorem sameKey_fails :
    ¬ SameKey "+f00000000000000000000000000000000000000000000000000000000000000" ∧
      ¬ SameKey "€a" := by
  constructor
  · intro h
    have hdecode : hexDecode "+f00000000000000000000000000000000000000000000000000000000000000"
        = .ok (0x0f :: List.replicate 31 0) := by decide +kernel
    have hkey := h.bytes ⟨0x0f :: List.replicate 31 0, rfl⟩
      (parseKeyArg_ok_iff.mpr (hexDecode_ok_iff.mp hdecode))
    exact plus_not_mem hkey (by decide +kernel)
  · intro h
    exact h.noPanic (by decide +kernel)

end Proto4.PromProxy
