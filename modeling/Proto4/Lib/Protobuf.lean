/-
# `Protobuf` — the wire format of protocol buffers

A message is a sequence of records; a record is a field number and a value, and
a value is a number, eight bytes, or a block of bytes that is long as it says.
Numbers are varints: seven bits a byte, lowest first, with the top bit set on
every byte but the last.

`readRecords_encode` is the round trip of a whole message.  Records say nothing
about which fields there are: a reader collects the `occurrences` of a field,
takes the last one of a field that occurs once, and its default if there is
none.  So a writer may leave out a field that holds its default, and whether it
does is not part of the format: that is `Written`.
-/
import Mathlib.Data.List.Basic

namespace Protobuf

/-! ## Varints -/

/-- The bytes of `n`, lowest seven bits first; `fuel` bounds how many. -/
def septets : Nat → Nat → List UInt8
  | 0, _ => []
  | fuel + 1, n =>
      if n < 128 then [UInt8.ofNat n]
      else UInt8.ofNat (n % 128 + 128) :: septets fuel (n / 128)

def varint (n : Nat) : List UInt8 := septets (n + 1) n

/-- The number at the start of the bytes, and the bytes after it. -/
def readVarint : List UInt8 → Option (Nat × List UInt8)
  | [] => none
  | b :: rest =>
      if b.toNat < 128 then some (b.toNat, rest)
      else (readVarint rest).map fun (m, rest') => (b.toNat - 128 + 128 * m, rest')

theorem toNat_ofNat {n : Nat} (h : n < 256) : (UInt8.ofNat n).toNat = n := by
  rw [UInt8.toNat_ofNat']
  exact Nat.mod_eq_of_lt h

/-- Enough fuel is enough, whatever follows. -/
theorem readVarint_septets {fuel n : Nat} (h : n < fuel) (rest : List UInt8) :
    readVarint (septets fuel n ++ rest) = some (n, rest) := by
  induction fuel generalizing n with
  | zero => exact absurd h (Nat.not_lt_zero n)
  | succ fuel ih =>
      rw [septets]
      split
      · next hlast =>
          have hbyte : (UInt8.ofNat n).toNat = n := toNat_ofNat (by omega)
          rw [List.singleton_append, readVarint, hbyte, if_pos hlast]
      · next hmore =>
          have hbyte : (UInt8.ofNat (n % 128 + 128)).toNat = n % 128 + 128 :=
            toNat_ofNat (by omega)
          rw [List.cons_append, readVarint, hbyte, if_neg (by omega), ih (by omega),
            Option.map_some]
          have hsum : n % 128 + 128 - 128 + 128 * (n / 128) = n := by omega
          dsimp only
          rw [hsum]

@[simp] theorem readVarint_varint (n : Nat) (rest : List UInt8) :
    readVarint (varint n ++ rest) = some (n, rest) := readVarint_septets (Nat.lt_succ_self n) rest

theorem varint_ne_nil (n : Nat) : varint n ≠ [] := by
  rw [varint, septets]
  split
  · exact List.cons_ne_nil _ _
  · exact List.cons_ne_nil _ _

/-! ## Records -/

/-- The value of a record. -/
inductive Wire
  | varint (n : Nat)
  | fixed64 (bs : { bs : List UInt8 // bs.length = 8 })
  | bytes (bs : List UInt8)
  deriving DecidableEq

/-- A value under a field number. -/
structure Record where
  number : Nat
  value : Wire
  deriving DecidableEq

/-- The wire type, as it stands in the tag. -/
def Wire.type : Wire → Nat
  | .varint _ => 0
  | .fixed64 _ => 1
  | .bytes _ => 2

def Wire.encode : Wire → List UInt8
  | .varint n => Protobuf.varint n
  | .fixed64 bs => bs.val
  | .bytes bs => Protobuf.varint bs.length ++ bs

def Record.encode (r : Record) : List UInt8 :=
  varint (8 * r.number + r.value.type) ++ r.value.encode

/-- A message is its records, one after the other. -/
def encode (rs : List Record) : List UInt8 := rs.flatMap Record.encode

/-- The value of a wire type at the start of the bytes; the other wire types are refused. -/
def readWire : Nat → List UInt8 → Option (Wire × List UInt8)
  | 0, s => (readVarint s).map fun (n, rest) => (.varint n, rest)
  | 1, s => if h : (s.take 8).length = 8 then some (.fixed64 ⟨s.take 8, h⟩, s.drop 8) else none
  | 2, s =>
      (readVarint s).bind fun (n, rest) =>
        if n ≤ rest.length then some (.bytes (rest.take n), rest.drop n) else none
  | _, _ => none

def readRecord (s : List UInt8) : Option (Record × List UInt8) :=
  (readVarint s).bind fun (tag, rest) =>
    (readWire (tag % 8) rest).map fun (value, rest') => (⟨tag / 8, value⟩, rest')

/-- The records of a message; `fuel` bounds how many. -/
def readRecordsUpTo : Nat → List UInt8 → Option (List Record)
  | _, [] => some []
  | 0, _ :: _ => none
  | fuel + 1, b :: s =>
      (readRecord (b :: s)).bind fun (r, rest) => (readRecordsUpTo fuel rest).map (r :: ·)

/-- A record takes a byte at least, so a message has no more records than bytes. -/
def readRecords (s : List UInt8) : Option (List Record) := readRecordsUpTo s.length s

theorem readWire_encode (value : Wire) (rest : List UInt8) :
    readWire value.type (value.encode ++ rest) = some (value, rest) := by
  cases value with
  | varint n => rw [Wire.encode, Wire.type, readWire, readVarint_varint, Option.map_some]
  | fixed64 bs =>
      obtain ⟨bs, hlen⟩ := bs
      have htake : (bs ++ rest).take 8 = bs := by rw [← hlen, List.take_left]
      have hdrop : (bs ++ rest).drop 8 = rest := by rw [← hlen, List.drop_left]
      simp only [Wire.encode, Wire.type, readWire, htake, hdrop, hlen, dif_pos]
  | bytes bs =>
      rw [Wire.encode, Wire.type, readWire, List.append_assoc, readVarint_varint,
        Option.bind_some]
      dsimp only
      rw [if_pos (by simp), List.take_left, List.drop_left]

theorem type_lt (value : Wire) : value.type < 8 := by
  cases value with
  | varint n => exact Nat.succ_pos 7
  | fixed64 bs => exact Nat.one_lt_succ_succ 6
  | bytes bs => exact Nat.lt_of_sub_pos (Nat.succ_pos 5)

theorem readRecord_encode (r : Record) (rest : List UInt8) :
    readRecord (r.encode ++ rest) = some (r, rest) := by
  have hlt := type_lt r.value
  have htype : (8 * r.number + r.value.type) % 8 = r.value.type := by omega
  have hnumber : (8 * r.number + r.value.type) / 8 = r.number := by omega
  rw [readRecord, Record.encode, List.append_assoc, readVarint_varint, Option.bind_some]
  dsimp only
  rw [htype, readWire_encode, hnumber, Option.map_some]

theorem length_encode_pos (r : Record) : 0 < r.encode.length := by
  rw [Record.encode, List.length_append]
  have := List.length_pos_iff.mpr (varint_ne_nil (8 * r.number + r.value.type))
  omega

/-- **A message reads back.** -/
theorem readRecords_encode (rs : List Record) : readRecords (encode rs) = some rs := by
  have hfuel : ∀ fuel, (encode rs).length ≤ fuel → readRecordsUpTo fuel (encode rs) = some rs := by
    induction rs with
    | nil =>
        intro fuel _
        cases fuel <;> rfl
    | cons r rs ih =>
        intro fuel hle
        have hpos := length_encode_pos r
        have hsplit : encode (r :: rs) = r.encode ++ encode rs := List.flatMap_cons
        rw [hsplit, List.length_append] at hle
        cases fuel with
        | zero => omega
        | succ fuel =>
            obtain ⟨b, bs, hcons⟩ : ∃ b bs, r.encode ++ encode rs = b :: bs := by
              refine List.exists_cons_of_ne_nil fun hnil => ?_
              rw [(List.append_eq_nil_iff.mp hnil).1] at hpos
              exact Nat.lt_irrefl 0 hpos
            have hread := readRecord_encode r (encode rs)
            rw [hcons] at hread
            rw [hsplit, hcons, readRecordsUpTo, hread, Option.bind_some]
            dsimp only
            rw [ih fuel (by omega), Option.map_some]
  exact hfuel _ (Nat.le_refl _)

/-! ## Fields -/

/-- The values under a field number, in order. -/
def occurrences (number : Nat) (rs : List Record) : List Wire :=
  (rs.filter fun r => r.number = number).map Record.value

theorem occurrences_append (number : Nat) (rs rs' : List Record) :
    occurrences number (rs ++ rs') = occurrences number rs ++ occurrences number rs' := by
  rw [occurrences, List.filter_append, List.map_append]
  rfl

/-- A field of several messages. -/
def repeated (number : Nat) (blocks : List (List UInt8)) : List Record :=
  blocks.map fun bs => ⟨number, .bytes bs⟩

theorem occurrences_repeated (number : Nat) (blocks : List (List UInt8)) :
    occurrences number (repeated number blocks) = blocks.map Wire.bytes := by
  rw [occurrences, repeated, List.filter_eq_self.mpr (by simp), List.map_map]
  rfl

theorem occurrences_repeated_other {number number' : Nat} (hne : number' ≠ number)
    (blocks : List (List UInt8)) : occurrences number (repeated number' blocks) = [] := by
  rw [occurrences, repeated, List.filter_eq_nil_iff.mpr (by simp [hne])]
  rfl

/-- A field of one value is the last of its occurrences. -/
def last (number : Nat) (rs : List Record) : Option Wire := (occurrences number rs).getLast?

/-- What a writer may make of a field: one record, or none for a default. -/
inductive Written (isDefault : Prop) (number : Nat) (value : Wire) : List Record → Prop
  | present : Written isDefault number value [⟨number, value⟩]
  | omitted : isDefault → Written isDefault number value []

/-- A field of one value, left out when it holds its default. -/
def field (isDefault : Prop) [Decidable isDefault] (number : Nat) (value : Wire) : List Record :=
  if isDefault then [] else [⟨number, value⟩]

theorem written_field (isDefault : Prop) [Decidable isDefault] (number : Nat) (value : Wire) :
    Written isDefault number value (field isDefault number value) := by
  rw [field]
  split
  · next hdef => exact .omitted hdef
  · exact .present

/-- The messages under a field number, each read by `read`. -/
def readRepeated {α : Type} (read : List UInt8 → Option α) (number : Nat) (rs : List Record) :
    Option (List α) :=
  (occurrences number rs).mapM fun
    | .bytes bs => read bs
    | _ => none

/-- Messages that are read one by one are read as a field. -/
theorem readRepeated_of_forall₂ {α β : Type} {read : List UInt8 → Option β} {R : α → β → Prop}
    {number : Nat} {rs : List Record} {as : List α} {blocks : List (List UInt8)}
    (hrs : occurrences number rs = blocks.map Wire.bytes)
    (h : List.Forall₂ (fun a bs => ∃ b, read bs = some b ∧ R a b) as blocks) :
    ∃ bs, readRepeated read number rs = some bs ∧ List.Forall₂ R as bs := by
  rw [readRepeated, hrs]
  clear hrs
  induction h with
  | nil => exact ⟨[], rfl, .nil⟩
  | cons hblock _ ih =>
      obtain ⟨b, hread, hR⟩ := hblock
      obtain ⟨bs, hbs, hall⟩ := ih
      refine ⟨b :: bs, ?_, .cons hR hall⟩
      simp only [List.map_cons, List.mapM_cons, hread, hbs]
      rfl

variable {isDefault : Prop} {number number' : Nat} {value : Wire} {rs : List Record}

/-- A field of one value is what was written, or it is absent and was a default. -/
theorem Written.last (h : Written isDefault number value rs) :
    last number rs = some value ∨ (last number rs = none ∧ isDefault) := by
  cases h with
  | present => exact Or.inl (by simp [Protobuf.last, occurrences])
  | omitted hdef => exact Or.inr ⟨rfl, hdef⟩

/-- It does not show under another number. -/
theorem Written.occurrences_other (h : Written isDefault number value rs) (hne : number ≠ number') :
    occurrences number' rs = [] := by
  cases h with
  | present => simp [occurrences, hne]
  | omitted _ => rfl

end Protobuf
