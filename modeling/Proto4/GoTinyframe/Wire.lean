/-
# `Proto4.GoTinyframe.Wire` — the Go package `tinyframe`

`tinyframe/frame.go`, function by function: the second implementation of the
frame format, with its own header packing, compressors, associated data and
limits.  Go's `error` values carry a text and no kind, a `panic` is a fault of
its own, and `chacha20poly1305`'s `Seal` panics where the Rust crate answers an
error.

`writeFrameWithKey` is `encodeFrame` — everything up to the single `w.Write` —
and that write.
-/
import Proto4.TinyFrame.Wire

namespace Proto4.GoTinyframe

open BigEndian
open TinyFrame (Key Nonce Cipher Flate)

inductive Fault
  | err (message : String)
  | panic (message : String)
  deriving DecidableEq, Repr

abbrev Result (α : Type) := Except Fault α

def err {α : Type} (message : String) : Result α := .error (.err message)

abbrev keyLen : Nat := 32
abbrev nonceLen : Nat := 12
abbrev tagLen : Nat := 16

abbrev compressNone : UInt8 := 0x00
abbrev compressGzip : UInt8 := 0x01
abbrev compressDeflate : UInt8 := 0x02
abbrev chaCha20Poly1305 : UInt8 := 0x04

abbrev messageTypeBits : UInt8 := 5
abbrev messageTypeMask : UInt8 := (1 <<< messageTypeBits) - 1
abbrev flagsMask : UInt8 := 0x07
abbrev compressMask : UInt8 := 0x03

structure Frame where
  messageType : UInt8
  compressID : UInt8
  encrypted : Bool
  txID : UInt64
  data : Bytes
  deriving DecidableEq, Repr

/-- What a Go program brings to the codec: the cipher and the compressors. -/
structure GoProc where
  cipher : Cipher
  flate : Flate

/-- The package variables `encryptKey` and `encryptKeySet`: never set, set to
nil, or set to a key. -/
abbrev GlobalKey := Option (Option Key)

def requireEncryptKey : GlobalKey → Result Key
  | none => .error (.panic
      "ENCRYPT_KEY_CHACHA20POLY1305 not configured; call SetEncryptKey first")
  | some none => .error (.panic
      "ENCRYPT_KEY_CHACHA20POLY1305 is nil; cannot use ChaCha20Poly1305 encryption")
  | some (some key) => .ok key

/-- Whether the flags ask for encryption. -/
def isEncrypted (flags : UInt8) : Bool := flags &&& chaCha20Poly1305 != 0

def packHeaderByte (messageType flags : UInt8) : Result UInt8 :=
  if messageType > messageTypeMask then
    err s!"message_type must fit in {messageTypeBits} bits, got {messageType}"
  else if flags &&& ~~~flagsMask != 0 then
    err s!"flags must fit in 3 bits, got {TinyFrame.lowerHex flags.toNat}"
  else
    let compressID := flags &&& compressMask
    if compressID = compressNone ∨ compressID = compressGzip ∨ compressID = compressDeflate then
      .ok ((messageType <<< 3) ||| flags)
    else
      err s!"unsupported compress_id: {compressID}"

/-- A compressor's own failure. -/
def ofFlate {α : Type} : Option α → Result α
  | some a => .ok a
  | none => err "compress"

def compressPayload (fl : Flate) (compressID : UInt8) (data : Bytes) : Result Bytes :=
  if compressID = compressNone then .ok data
  else if compressID = compressGzip then ofFlate (fl.gzip.encode data)
  else if compressID = compressDeflate then ofFlate (fl.deflate.encode data)
  else err s!"unsupported compress_id: {compressID}"

def decompressPayload (fl : Flate) (compressID : UInt8) (data : Bytes) : Result Bytes :=
  if compressID = compressNone then .ok data
  else if compressID = compressGzip then ofFlate (fl.gzip.decode data)
  else if compressID = compressDeflate then ofFlate (fl.deflate.decode data)
  else err s!"unsupported compress_id: {compressID}"

def aeadAAD (header : UInt8) (txID : UInt64) : Bytes := header :: ofU64 txID

def encryptPayload (cipher : Cipher) (nonce : Nonce) (key : Key) (aad plaintext : Bytes) :
    Result Bytes :=
  match cipher.encrypt key nonce aad plaintext with
  | some ciphertext => .ok (nonce.val ++ ciphertext)
  | none => .error (.panic "chacha20poly1305: plaintext too large")

def decryptPayload (cipher : Cipher) (key : Key) (aad payload : Bytes) : Result Bytes :=
  if h : payload.length < nonceLen + tagLen then
    err "encrypted payload too short"
  else
    let nonce : Nonce := ⟨payload.take nonceLen, List.length_take_of_le (by omega)⟩
    let ciphertext := payload.drop nonceLen
    match cipher.decrypt key nonce aad ciphertext with
    | some plain => .ok plain
    | none => err "chacha20poly1305 decrypt failed"

/-- `WriteFrameWithKey` up to the call of `w.Write`. -/
def encodeFrame (p : GoProc) (nonce : Nonce) (messageType : UInt8) (txID : UInt64)
    (data : Bytes) (flags : UInt8) (key : Option Key) : Result Bytes := do
  let header ← packHeaderByte messageType flags
  let compressed ← compressPayload p.flate (flags &&& compressMask) data
  let payload ← (if isEncrypted flags then
      match key with
      | none => err "encryption requires a 32-byte key"
      | some k => encryptPayload p.cipher nonce k (aeadAAD header txID) compressed
    else pure compressed)
  if payload.length > 0xffff then
    err "payload length exceeds uint16 max"
  else
    pure (header :: ofU64 txID ++ ofU16 (UInt16.ofNat payload.length) ++ payload)

/-- One `w.Write`, and `Flush` where the writer has it. -/
def write (w : Sink UInt8) (buf : Bytes) : Result Unit × Sink UInt8 :=
  match w.push buf with
  | (true, w') => (.ok (), w')
  | (false, w') => (err "write", w')

def writeFrameWithKey (p : GoProc) (nonce : Nonce) (messageType : UInt8) (txID : UInt64)
    (data : Bytes) (flags : UInt8) (key : Option Key) (w : Sink UInt8) :
    Result Unit × Sink UInt8 :=
  match encodeFrame p nonce messageType txID data flags key with
  | .error e => (.error e, w)
  | .ok buf => write w buf

/-- `WriteFrame`: the package's key is fetched first, and only when the flags
ask for it. -/
def writeFrame (p : GoProc) (globalKey : GlobalKey) (nonce : Nonce) (messageType : UInt8)
    (txID : UInt64) (data : Bytes) (flags : UInt8) (w : Sink UInt8) :
    Result Unit × Sink UInt8 :=
  if isEncrypted flags then
    match requireEncryptKey globalKey with
    | .error e => (.error e, w)
    | .ok key => writeFrameWithKey p nonce messageType txID data flags (some key) w
  else writeFrameWithKey p nonce messageType txID data flags none w

/-- What `io.ReadFull` answers when the stream ends: `EOF` if nothing was there. -/
def readFullError (s : Bytes) : Fault :=
  if s.isEmpty then .err "EOF" else .err "unexpected EOF"

/-- The tail of `readFrame`: decrypt and decompress.  `useGlobal` carries the
package's key when the caller asked for it. -/
def openFrame (p : GoProc) (key : Option Key) (useGlobal : Option GlobalKey) (header : UInt8)
    (txID : UInt64) (payload : Bytes) : Result Frame := do
  let messageType := header >>> 3
  let flags := header &&& flagsMask
  let compressID := flags &&& compressMask
  let encrypted := isEncrypted flags
  let opened ← (if encrypted then do
      let k ← (match useGlobal with
        | some globalKey => some <$> requireEncryptKey globalKey
        | none => pure key)
      match k with
      | none => err "encrypted frame requires a 32-byte key"
      | some k => decryptPayload p.cipher k (aeadAAD header txID) payload
    else pure payload)
  let data ← decompressPayload p.flate compressID opened
  pure { messageType, compressID, encrypted, txID, data }

def readFrameFrom (p : GoProc) (key : Option Key) (useGlobal : Option GlobalKey) :
    Reader UInt8 Fault Frame := do
  let headerBuf ← Reader.readExact 1 readFullError
  let header := headerBuf.headD 0
  let txBuf ← Reader.readExact 8 readFullError
  let txID := toU64 txBuf
  let lenBuf ← Reader.readExact 2 readFullError
  let n := (toU16 lenBuf).toNat
  let payload ← (if n > 0 then Reader.readExact n readFullError else pure [])
  Reader.ofExcept (openFrame p key useGlobal header txID payload)

/-- `ReadFrame`: the package's key. -/
def readFrame (p : GoProc) (globalKey : GlobalKey) : Reader UInt8 Fault Frame :=
  readFrameFrom p none (some globalKey)

/-- `ReadFrameWithKey`: the caller's key. -/
def readFrameWithKey (p : GoProc) (key : Option Key) : Reader UInt8 Fault Frame :=
  readFrameFrom p key none

end Proto4.GoTinyframe
