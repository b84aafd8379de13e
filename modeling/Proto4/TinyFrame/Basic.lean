/-
# `Proto4.TinyFrame.Basic` — the frame, its header byte, and how calls fail

The vocabulary of `src/tiny_frame.rs`: a frame is

    1 byte   header = 5 bits message_type, 3 bits flags
    8 bytes  tx_id, big-endian
    2 bytes  payload length, big-endian
    payload

with flag bits 0-1 naming a compression and bit 2 saying the payload is
encrypted.  This file holds the constants, the `Frame` a reader answers, the
global key cell, and the header byte with the facts everything else turns on:
which pairs `packHeaderByte` accepts, that the pair can be read back from the
byte, and that every byte a reader may accept is packed from such a pair.

A call ends in one of three ways — a value, an `io::Error`, or a panic — so
the results are `Except Fault`, a panic being a fault of its own kind rather
than an error.
-/
import Mathlib.Data.List.Basic

namespace Proto4

/-- Byte strings, `Vec<u8>` and `&[u8]` alike. -/
abbrev Bytes := List UInt8

/-- The bytes of a text. -/
def utf8 (s : String) : Bytes := s.toUTF8.data.toList

namespace TinyFrame

abbrev keyLen : Nat := 32
abbrev nonceLen : Nat := 12
abbrev tagLen : Nat := 16

/-- `[u8; N]`: a byte string whose length is part of its type. -/
abbrev ByteArr (n : Nat) := { bs : Bytes // bs.length = n }

/-- `[u8; N]` filled with one byte. -/
def ByteArr.fill (n : Nat) (b : UInt8) : ByteArr n := ⟨List.replicate n b, List.length_replicate⟩

abbrev Key := ByteArr keyLen

abbrev Nonce := ByteArr nonceLen

inductive ErrorKind
  | invalidInput
  | invalidData
  | unexpectedEof
  | other
  deriving DecidableEq, Repr

/-- How a call fails: an `io::Error`, or a panic with its message. -/
inductive Fault
  | io (kind : ErrorKind) (message : String)
  | panic (message : String)
  deriving DecidableEq, Repr

abbrev Result (α : Type) := Except Fault α

def invalidInput {α : Type} (message : String) : Result α :=
  .error (.io .invalidInput message)

def invalidData {α : Type} (message : String) : Result α :=
  .error (.io .invalidData message)

theorem invalidInput_ne_ok {α : Type} (message : String) (a : α) :
    invalidInput message ≠ .ok a := nofun

/-! ## The key cell

`ENCRYPT_KEY_CHACHA20POLY1305 : OnceCell<Option<[u8; KEY_LEN]>>` is unset, set
to no key, or set to a key. -/

abbrev KeyCell := Option (Option Key)

/-- The key, or the panic of whichever `expect` fails. -/
def requireEncryptKey : KeyCell → Result Key
  | none => .error (.panic
      "ENCRYPT_KEY_CHACHA20POLY1305 not configured; call set_encrypt_key first")
  | some none => .error (.panic
      "ENCRYPT_KEY_CHACHA20POLY1305 is None; cannot use CHACHA20POLY1305 encryption")
  | some (some key) => .ok key

/-! ## Flags -/

abbrev compressNone : UInt8 := 0x00
abbrev compressGzip : UInt8 := 0x01
abbrev compressDeflate : UInt8 := 0x02
abbrev chacha20Poly1305 : UInt8 := 0x04

abbrev messageTypeBits : UInt8 := 5
abbrev messageTypeMask : UInt8 := (1 <<< messageTypeBits) - 1
abbrev flagsMask : UInt8 := 0x07
abbrev compressMask : UInt8 := 0x03

/-- A parsed frame; `data` is the content after decryption and decompression. -/
structure Frame where
  messageType : UInt8
  compressId : UInt8
  encrypted : Bool
  txId : UInt64
  data : Bytes
  deriving DecidableEq, Repr

/-- Whether the flags ask for encryption. -/
def isEncrypted (flags : UInt8) : Bool := flags &&& chacha20Poly1305 != 0

/-- `{:#x}`. -/
def lowerHex (n : Nat) : String := "0x" ++ String.ofList (Nat.toDigits 16 n)

def packHeaderByte (messageType flags : UInt8) : Result UInt8 :=
  if messageType > messageTypeMask then
    invalidInput s!"message_type must fit in {messageTypeBits} bits, got {messageType}"
  else if flags &&& ~~~flagsMask != 0 then
    invalidInput s!"flags must fit in 3 bits, got {lowerHex flags.toNat}"
  else
    let compressId := flags &&& compressMask
    if compressId = compressNone ∨ compressId = compressGzip ∨ compressId = compressDeflate then
      .ok ((messageType <<< 3) ||| flags)
    else
      invalidInput s!"unsupported compress_id: {compressId}"

/-! ## Bit facts

Each is a statement about one byte, or about a 5-bit and a 3-bit value, and is
checked over all of them. -/

/-- A byte as one of its 256 values: how a bit fact is reduced to a check. -/
theorem forall_byte {P : UInt8 → Prop} (h : ∀ i : Fin 256, P (UInt8.ofNat i)) (x : UInt8) :
    P x := by
  have hx := h ⟨x.toNat, x.toNat_lt⟩
  rwa [UInt8.ofNat_toNat] at hx

theorem flags_fit_iff : ∀ flags : UInt8, (flags &&& ~~~flagsMask != 0) = false ↔ flags ≤ 7 :=
  forall_byte (by decide +kernel)

theorem compressId_cases : ∀ flags : UInt8,
    (flags &&& compressMask = compressNone ∨ flags &&& compressMask = compressGzip ∨
      flags &&& compressMask = compressDeflate) ↔ flags &&& compressMask ≠ 3 :=
  forall_byte (by decide +kernel)

/-- Packing loses nothing: shift and mask recover the two fields. -/
theorem header_fields {messageType flags : UInt8} (hm : messageType ≤ 31) (hf : flags ≤ 7) :
    ((messageType <<< 3) ||| flags) >>> 3 = messageType ∧
      ((messageType <<< 3) ||| flags) &&& flagsMask = flags := by
  have key : ∀ (i : Fin 32) (j : Fin 8),
      ((UInt8.ofNat i <<< 3) ||| UInt8.ofNat j) >>> 3 = UInt8.ofNat i ∧
        ((UInt8.ofNat i <<< 3) ||| UInt8.ofNat j) &&& flagsMask = UInt8.ofNat j := by
    decide +kernel
  have hm' : messageType.toNat < 32 := Nat.lt_succ_of_le (UInt8.le_iff_toNat_le.mp hm)
  have hf' : flags.toNat < 8 := Nat.lt_succ_of_le (UInt8.le_iff_toNat_le.mp hf)
  have := key ⟨_, hm'⟩ ⟨_, hf'⟩
  simpa only [UInt8.ofNat_toNat] using this

/-- The other way round: every byte is packed from its own two fields. -/
theorem header_of_fields : ∀ header : UInt8,
    header >>> 3 ≤ 31 ∧ header &&& flagsMask ≤ 7 ∧
      ((header >>> 3) <<< 3) ||| (header &&& flagsMask) = header :=
  forall_byte (by decide +kernel)

/-- The compression bits of a header are those of its flags. -/
theorem compressMask_flagsMask : ∀ header : UInt8,
    header &&& flagsMask &&& compressMask = header &&& compressMask :=
  forall_byte (by decide +kernel)

/-! ## What `packHeaderByte` accepts -/

/-- **Specification of `packHeaderByte`.** -/
theorem packHeaderByte_ok_iff {messageType flags header : UInt8} :
    packHeaderByte messageType flags = .ok header ↔
      messageType ≤ 31 ∧ flags ≤ 7 ∧ flags &&& compressMask ≠ 3 ∧
        header = (messageType <<< 3) ||| flags := by
  have hmask : messageTypeMask = 31 := by decide
  rw [packHeaderByte]
  by_cases hm : messageType > messageTypeMask
  · rw [if_pos hm]
    have hle : ¬ messageType ≤ 31 := by
      rw [← hmask]
      exact UInt8.not_le.mpr hm
    exact ⟨fun h => absurd h (invalidInput_ne_ok _ _), fun h => absurd h.1 hle⟩
  · have hle : messageType ≤ 31 := by
      rw [← hmask]
      exact UInt8.not_lt.mp hm
    rw [if_neg hm]
    cases hf : (flags &&& ~~~flagsMask != 0) with
    | true =>
        have hgt : ¬ flags ≤ 7 := fun h => by
          rw [(flags_fit_iff flags).mpr h] at hf
          exact Bool.noConfusion hf
        exact ⟨fun h => absurd h (invalidInput_ne_ok _ _), fun h => absurd h.2.1 hgt⟩
    | false =>
        have hle7 : flags ≤ 7 := (flags_fit_iff flags).mp hf
        by_cases hc : flags &&& compressMask = compressNone ∨
            flags &&& compressMask = compressGzip ∨ flags &&& compressMask = compressDeflate
        · have hne := (compressId_cases flags).mp hc
          simp only [Bool.false_eq_true, if_false, if_pos hc, Except.ok.injEq]
          exact ⟨fun h => ⟨hle, hle7, hne, h.symm⟩, fun h => h.2.2.2.symm⟩
        · have heq : ¬ flags &&& compressMask ≠ 3 := fun h => hc ((compressId_cases flags).mpr h)
          simp only [Bool.false_eq_true, if_false, if_neg hc]
          exact ⟨fun h => absurd h (invalidInput_ne_ok _ _), fun h => absurd h.2.2.1 heq⟩

/-- The fields of a packed header, read back. -/
theorem packHeaderByte_fields {messageType flags header : UInt8}
    (h : packHeaderByte messageType flags = .ok header) :
    header >>> 3 = messageType ∧ header &&& flagsMask = flags := by
  obtain ⟨hm, hf, _, rfl⟩ := packHeaderByte_ok_iff.mp h
  exact header_fields hm hf

/-- A byte that names a known compression is a packed header. -/
theorem packHeaderByte_of_header {header : UInt8} (h : header &&& compressMask ≠ 3) :
    packHeaderByte (header >>> 3) (header &&& flagsMask) = .ok header := by
  obtain ⟨hm, hf, heq⟩ := header_of_fields header
  refine packHeaderByte_ok_iff.mpr ⟨hm, hf, ?_, heq.symm⟩
  rwa [compressMask_flagsMask]

end TinyFrame

end Proto4
