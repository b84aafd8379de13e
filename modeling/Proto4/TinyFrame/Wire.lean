/-
# `Proto4.TinyFrame.Wire` — building, parsing, writing and reading a frame

`src/tiny_frame.rs`, function by function.  Writing compresses and then
encrypts; reading decrypts and then decompresses, under the associated data
`header ‖ tx_id` recomputed from what was read.

What the code takes from elsewhere is a parameter, gathered in `Proc`: the
cipher (`chacha20poly1305`), the compressors (`flate2`) and the process-wide
key cell.  The nonce `OsRng` draws is an argument of the writers.

The specification half says what each function does without opening it again:
`buildWireFrame_ok_iff` and `parseWireFrame_ok_iff` for the two codecs, and
`readFrame_run` for the reader — which is `splitWire`, cut at the length field,
followed by the parser, and a stream that ends
inside a frame is consumed whole.  `splitWire_eq_some` says that cutting and gluing are
inverse, and every statement about streams goes through it.
-/
import Proto4.Lib.Aead
import Proto4.Lib.BigEndian
import Proto4.Lib.Codec
import Proto4.Lib.Outcome
import Proto4.Lib.Reader
import Proto4.TinyFrame.Basic

namespace Proto4.TinyFrame

open BigEndian

/-- The two compression formats as a language's library implements them. -/
structure Flate where
  gzip : Codec Bytes Bytes
  deflate : Codec Bytes Bytes

/-- ChaCha20-Poly1305. -/
abbrev Cipher := Aead Key Nonce Bytes Bytes Bytes

/-- What a process brings to the codec: two libraries and the key cell. -/
structure Proc where
  cipher : Cipher
  flate : Flate
  keyCell : KeyCell

/-- A compressor's own failure. -/
def ofFlate {α : Type} : Option α → Result α
  | some a => .ok a
  | none => .error (.io .other "flate2")

def compressPayload (fl : Flate) (compressId : UInt8) (data : Bytes) : Result Bytes :=
  if compressId = compressNone then .ok data
  else if compressId = compressGzip then ofFlate (fl.gzip.encode data)
  else if compressId = compressDeflate then ofFlate (fl.deflate.encode data)
  else invalidInput s!"unsupported compress_id: {compressId}"

def decompressPayload (fl : Flate) (compressId : UInt8) (data : Bytes) : Result Bytes :=
  if compressId = compressNone then .ok data
  else if compressId = compressGzip then ofFlate (fl.gzip.decode data)
  else if compressId = compressDeflate then ofFlate (fl.deflate.decode data)
  else invalidData s!"unsupported compress_id: {compressId}"

def aeadAad (header : UInt8) (txId : UInt64) : Bytes := header :: ofU64 txId

def encryptPayload (cipher : Cipher) (nonceBytes : Nonce) (key : Key) (aad plaintext : Bytes) :
    Result Bytes :=
  match cipher.encrypt key nonceBytes aad plaintext with
  | some ciphertext => .ok (nonceBytes.val ++ ciphertext)
  | none => .error (.io .other "chacha20poly1305 encrypt failed")

def decryptPayload (cipher : Cipher) (key : Key) (aad payload : Bytes) : Result Bytes :=
  if h : payload.length < nonceLen + tagLen then
    invalidData "encrypted payload too short"
  else
    let nonceBytes : Nonce := ⟨payload.take nonceLen, List.length_take_of_le (by omega)⟩
    let ciphertext := payload.drop nonceLen
    match cipher.decrypt key nonceBytes aad ciphertext with
    | some plaintext => .ok plaintext
    | none => invalidData "chacha20poly1305 decrypt failed"

def buildWireFrame (p : Proc) (nonceBytes : Nonce) (messageType : UInt8) (txId : UInt64)
    (data : Bytes) (flags : UInt8) : Result Bytes := do
  let header ← packHeaderByte messageType flags
  let compressed ← compressPayload p.flate (flags &&& compressMask) data
  let payload ← (if isEncrypted flags then do
      let key ← requireEncryptKey p.keyCell
      encryptPayload p.cipher nonceBytes key (aeadAad header txId) compressed
    else pure compressed)
  if payload.length > 0xffff then
    invalidInput "payload length exceeds u16::MAX"
  else
    pure (header :: ofU64 txId ++ ofU16 (UInt16.ofNat payload.length) ++ payload)

def parseWireFrame (p : Proc) (header : UInt8) (txId : UInt64) (payload : Bytes) :
    Result Frame := do
  let messageType := header >>> 3
  let flags := header &&& flagsMask
  let compressId := flags &&& compressMask
  let encrypted := isEncrypted flags
  let opened ← (if encrypted then do
      let key ← requireEncryptKey p.keyCell
      decryptPayload p.cipher key (aeadAad header txId) payload
    else pure payload)
  let data ← decompressPayload p.flate compressId opened
  pure { messageType, compressId, encrypted, txId, data }

/-! ## Writing -/

/-- `write_all` and `flush`. -/
def writeAll (w : Sink UInt8) (buf : Bytes) : Result Unit × Sink UInt8 :=
  match w.push buf with
  | (true, w') => (.ok (), w')
  | (false, w') => (.error (.io .other "write"), w')

/-- `write_frame`: nothing reaches the sink unless the whole frame was built. -/
def writeFrame (p : Proc) (nonceBytes : Nonce) (messageType : UInt8) (txId : UInt64)
    (data : Bytes) (flags : UInt8) (w : Sink UInt8) : Result Unit × Sink UInt8 :=
  match buildWireFrame p nonceBytes messageType txId data flags with
  | .error e => (.error e, w)
  | .ok buf => writeAll w buf

/-- `write_frame_blocking`, the same over `std::io::Write`. -/
def writeFrameBlocking (p : Proc) (nonceBytes : Nonce) (messageType : UInt8) (txId : UInt64)
    (data : Bytes) (flags : UInt8) (w : Sink UInt8) : Result Unit × Sink UInt8 :=
  match buildWireFrame p nonceBytes messageType txId data flags with
  | .error e => (.error e, w)
  | .ok buf => writeAll w buf

/-- `write_frame_plain`: no compression, no encryption. -/
def writeFramePlain (p : Proc) (nonceBytes : Nonce) (messageType : UInt8) (txId : UInt64)
    (data : Bytes) (w : Sink UInt8) : Result Unit × Sink UInt8 :=
  writeFrame p nonceBytes messageType txId data compressNone w

/-! ## Reading -/

/-- The stream ended inside a frame.  The runtimes word it differently; the
kind is the same. -/
def earlyEof : Fault := .io .unexpectedEof "unexpected end of file"

def eof (_ : Bytes) : Fault := earlyEof

def readFrameHeader : Reader UInt8 Fault (UInt8 × UInt64 × Bytes) := do
  let headerBuf ← Reader.readExact 1 eof
  let header := headerBuf.headD 0
  let txBytes ← Reader.readExact 8 eof
  let txId := toU64 txBytes
  let lenBytes ← Reader.readExact 2 eof
  let len := (toU16 lenBytes).toNat
  let payload ← (if len > 0 then Reader.readExact len eof else pure [])
  pure (header, txId, payload)

def readFrame (p : Proc) : Reader UInt8 Fault Frame := do
  let headerBuf ← Reader.readExact 1 eof
  let header := headerBuf.headD 0
  let txBytes ← Reader.readExact 8 eof
  let txId := toU64 txBytes
  let lenBytes ← Reader.readExact 2 eof
  let len := (toU16 lenBytes).toNat
  let payload ← (if len > 0 then Reader.readExact len eof else pure [])
  Reader.ofExcept (parseWireFrame p header txId payload)

def readFrameBlocking (p : Proc) : Reader UInt8 Fault Frame := do
  let (header, txId, payload) ← readFrameHeader
  Reader.ofExcept (parseWireFrame p header txId payload)

/-! ## The bytes of a frame

`wireBytes` is the layout; `splitWire` cuts a stream at the length field. -/

def wireBytes (header : UInt8) (txId : UInt64) (payload : Bytes) : Bytes :=
  header :: ofU64 txId ++ ofU16 (UInt16.ofNat payload.length) ++ payload

/-- The header byte, transaction id and payload a stream starts with, and what
follows them; `none` when the stream ends before the payload does. -/
def splitWire (s : Bytes) : Option (UInt8 × UInt64 × Bytes × Bytes) :=
  if s.length < 11 then none
  else
    let n := (toU16 ((s.drop 9).take 2)).toNat
    if s.length < 11 + n then none
    else some (s.headD 0, toU64 ((s.drop 1).take 8), (s.drop 11).take n, s.drop (11 + n))

theorem length_wireBytes (header : UInt8) (txId : UInt64) (payload : Bytes) :
    (wireBytes header txId payload).length = 11 + payload.length := by
  simp [wireBytes]
  omega

theorem toNat_ofNat_u16 {n : Nat} (h : n ≤ 0xffff) : (UInt16.ofNat n).toNat = n := by
  rw [UInt16.toNat_ofNat']
  omega

theorem splitWire_wireBytes (header : UInt8) (txId : UInt64) {payload : Bytes}
    (h : payload.length ≤ 0xffff) (rest : Bytes) :
    splitWire (wireBytes header txId payload ++ rest) = some (header, txId, payload, rest) := by
  have hlen : (wireBytes header txId payload ++ rest).length
      = 11 + payload.length + rest.length := by
    rw [List.length_append, length_wireBytes]
  have htx : ((wireBytes header txId payload ++ rest).drop 1).take 8 = ofU64 txId := by
    simp [wireBytes, List.append_assoc]
  have hafter : (wireBytes header txId payload ++ rest).drop 9
      = ofU16 (UInt16.ofNat payload.length) ++ (payload ++ rest) := by
    simp [wireBytes, List.append_assoc]
  have hsize : (toU16 (((wireBytes header txId payload ++ rest).drop 9).take 2)).toNat
      = payload.length := by
    rw [hafter, List.take_left' (length_ofU16 _), toU16_ofU16, toNat_ofNat_u16 h]
  have hbody : (wireBytes header txId payload ++ rest).drop 11 = payload ++ rest := by
    rw [show (11 : Nat) = 9 + 2 from rfl, ← List.drop_drop, hafter,
      List.drop_left' (length_ofU16 _)]
  have htail : (wireBytes header txId payload ++ rest).drop (11 + payload.length) = rest := by
    rw [← List.drop_drop, hbody, List.drop_left]
  rw [splitWire]
  rw [if_neg (by omega), hsize, if_neg (by omega), htx, hbody, List.take_left, htail, toU64_ofU64]
  rfl

/-- The first eleven bytes, field by field. -/
theorem fixed_part {s : Bytes} (h : s ≠ []) :
    s = s.headD 0 :: (s.drop 1).take 8 ++ (s.drop 9).take 2 ++ s.drop 11 := by
  obtain ⟨b, bs, rfl⟩ := List.exists_cons_of_ne_nil h
  have hlen : (bs.drop 8).take 2 ++ bs.drop 10 = bs.drop 8 := by
    have h10 : bs.drop 10 = (bs.drop 8).drop 2 := by rw [List.drop_drop]
    rw [h10, List.take_append_drop]
  simp [hlen, List.append_assoc]

/-- **Cutting and gluing are inverse.** -/
theorem splitWire_eq_some {s payload rest : Bytes} {header : UInt8} {txId : UInt64} :
    splitWire s = some (header, txId, payload, rest) ↔
      payload.length ≤ 0xffff ∧ s = wireBytes header txId payload ++ rest := by
  constructor
  · intro h
    rw [splitWire] at h
    by_cases h11 : s.length < 11
    · simp [h11] at h
    · rw [if_neg h11] at h
      by_cases hn : s.length < 11 + (toU16 ((s.drop 9).take 2)).toNat
      · simp [hn] at h
      · rw [if_neg hn] at h
        obtain ⟨rfl, rfl, rfl, rfl⟩ : s.headD 0 = header ∧ toU64 ((s.drop 1).take 8) = txId ∧
            (s.drop 11).take (toU16 ((s.drop 9).take 2)).toNat = payload ∧
            s.drop (11 + (toU16 ((s.drop 9).take 2)).toNat) = rest := by
          simpa using h
        have hsize : ((s.drop 11).take (toU16 ((s.drop 9).take 2)).toNat).length
            = (toU16 ((s.drop 9).take 2)).toNat := by
          rw [List.length_take, List.length_drop]
          omega
        have hlt := (toU16 ((s.drop 9).take 2)).toNat_lt
        refine ⟨by rw [hsize]; omega, ?_⟩
        have htx : ofU64 (toU64 ((s.drop 1).take 8)) = (s.drop 1).take 8 :=
          ofU64_toU64 (by rw [List.length_take, List.length_drop]; omega)
        have hlen : ofU16 (toU16 ((s.drop 9).take 2)) = (s.drop 9).take 2 :=
          ofU16_toU16 (by rw [List.length_take, List.length_drop]; omega)
        rw [wireBytes, hsize, UInt16.ofNat_toNat, htx, hlen, List.append_assoc,
          ← List.drop_drop, List.take_append_drop]
        exact fixed_part (by rintro rfl; simp at h11)
  · rintro ⟨hle, rfl⟩
    exact splitWire_wireBytes header txId hle rest

theorem splitWire_short {s : Bytes} (h : splitWire s = none) :
    s.length < 11 ∨ s.length < 11 + (toU16 ((s.drop 9).take 2)).toNat := by
  rw [splitWire] at h
  by_cases h11 : s.length < 11
  · exact Or.inl h11
  · rw [if_neg h11] at h
    by_cases hn : s.length < 11 + (toU16 ((s.drop 9).take 2)).toNat
    · exact Or.inr hn
    · rw [if_neg hn] at h
      cases h

/-! ## What the readers do

Every reader of the format reads the same fields and differs in how it words
the end of the stream; `readFields` leaves the wording open. -/

def readFields {ε : Type} (eof : Bytes → ε) : Reader UInt8 ε (UInt8 × UInt64 × Bytes) := do
  let headerBuf ← Reader.readExact 1 eof
  let txBytes ← Reader.readExact 8 eof
  let lenBytes ← Reader.readExact 2 eof
  let payload ← (if (toU16 lenBytes).toNat > 0 then Reader.readExact (toU16 lenBytes).toNat eof
    else pure [])
  pure (headerBuf.headD 0, toU64 txBytes, payload)

theorem readFields_of_split {ε : Type} (eof : Bytes → ε) {s payload rest : Bytes} {header : UInt8}
    {txId : UInt64} (h : splitWire s = some (header, txId, payload, rest)) :
    (readFields eof).run s = (.ok (header, txId, payload), rest) := by
  obtain ⟨hle, rfl⟩ := splitWire_eq_some.mp h
  have hsplit : wireBytes header txId payload ++ rest
      = [header] ++ (ofU64 txId ++ (ofU16 (UInt16.ofNat payload.length) ++
          (payload ++ rest))) := by
    simp [wireBytes, List.append_assoc]
  have hlen : (toU16 (ofU16 (UInt16.ofNat payload.length))).toNat = payload.length := by
    rw [toU16_ofU16, toNat_ofNat_u16 hle]
  rw [hsplit, readFields,
    Reader.bind_ok (Reader.readExact_append eof _ (show [header].length = 1 from rfl)),
    Reader.bind_ok (Reader.readExact_append eof _ (length_ofU64 txId)),
    Reader.bind_ok (Reader.readExact_append eof _ (length_ofU16 _)), hlen, toU64_ofU64]
  rcases Nat.eq_zero_or_pos payload.length with hzero | hpos
  · obtain rfl : payload = [] := List.eq_nil_of_length_eq_zero hzero
    rfl
  · rw [if_pos hpos, Reader.bind_ok (Reader.readExact_append eof rest rfl)]
    rfl

/-- A stream that ends inside a frame is consumed whole. -/
theorem readFields_short {ε : Type} (eof : Bytes → ε) {s : Bytes} (h : splitWire s = none) :
    ∃ t, (readFields eof).run s = (.error (eof t), []) := by
  have hshort := splitWire_short h
  rw [readFields]
  rcases Nat.lt_or_ge s.length 1 with h1 | h1
  · exact ⟨_, Reader.bind_error (Reader.readExact_short eof h1)⟩
  rw [Reader.bind_ok (Reader.readExact_of_le eof h1)]
  rcases Nat.lt_or_ge (s.drop 1).length 8 with h8 | h8
  · exact ⟨_, Reader.bind_error (Reader.readExact_short eof h8)⟩
  rw [Reader.bind_ok (Reader.readExact_of_le eof h8), List.drop_drop]
  rcases Nat.lt_or_ge (s.drop (1 + 8)).length 2 with h2 | h2
  · exact ⟨_, Reader.bind_error (Reader.readExact_short eof h2)⟩
  rw [Reader.bind_ok (Reader.readExact_of_le eof h2), List.drop_drop]
  have hn : s.length < 11 + (toU16 ((s.drop 9).take 2)).toNat := by
    simp only [List.length_drop] at h8 h2
    omega
  have hbody : (s.drop (1 + 8 + 2)).length < (toU16 ((s.drop (1 + 8)).take 2)).toNat := by
    simp only [List.length_drop] at h2
    rw [List.length_drop]
    exact Nat.sub_lt_left_of_lt_add (by omega) hn
  rw [if_pos (Nat.lt_of_le_of_lt (Nat.zero_le _) hbody)]
  exact ⟨_, Reader.bind_error (Reader.readExact_short eof hbody)⟩

theorem readFrameHeader_eq : readFrameHeader = readFields eof := rfl

/-- The two readers are one function. -/
theorem readFrame_eq_blocking (p : Proc) : readFrame p = readFrameBlocking p := by
  simp only [readFrame, readFrameBlocking, readFrameHeader, bind_assoc, pure_bind]

/-- **Specification of `readFrame`.** -/
theorem readFrame_run (p : Proc) (s : Bytes) :
    (readFrame p).run s = match splitWire s with
      | some (header, txId, payload, rest) => (parseWireFrame p header txId payload, rest)
      | none => (.error earlyEof, []) := by
  rw [readFrame_eq_blocking, readFrameBlocking, readFrameHeader_eq]
  cases h : splitWire s with
  | none =>
      obtain ⟨_, ht⟩ := readFields_short eof h
      rw [Reader.bind_run, ht]
      rfl
  | some cut =>
      obtain ⟨header, txId, payload, rest⟩ := cut
      rw [Reader.bind_run, readFields_of_split eof h]
      rfl

/-- A frame was read: the stream starts with the bytes of one, and it parsed. -/
theorem readFrame_ok_iff {p : Proc} {s rest : Bytes} {f : Frame} :
    (readFrame p).run s = (.ok f, rest) ↔
      ∃ header txId payload, payload.length ≤ 0xffff ∧
        s = wireBytes header txId payload ++ rest ∧
        parseWireFrame p header txId payload = .ok f := by
  rw [readFrame_run]
  constructor
  · intro h
    cases hs : splitWire s with
    | none =>
        rw [hs] at h
        cases h
    | some cut =>
        obtain ⟨header, txId, payload, rest'⟩ := cut
        rw [hs] at h
        obtain ⟨hparse, rfl⟩ := Prod.mk.inj h
        obtain ⟨hle, heq⟩ := splitWire_eq_some.mp hs
        exact ⟨header, txId, payload, hle, heq, hparse⟩
  · rintro ⟨header, txId, payload, hle, rfl, hparse⟩
    rw [splitWire_wireBytes header txId hle rest]
    exact Prod.ext hparse rfl

/-! ## What the codecs do

Encryption is optional, so each direction is a relation with two rules: the
payload is the content itself, or it is a nonce followed by a ciphertext. -/

/-- `Protects p n h t flags c payload`: the writer's payload for compressed content `c`. -/
inductive Protects (p : Proc) (nonceBytes : Nonce) (header : UInt8) (txId : UInt64)
    (flags : UInt8) : Bytes → Bytes → Prop
  | clear {c : Bytes} : isEncrypted flags = false → Protects p nonceBytes header txId flags c c
  | sealed {c ciphertext : Bytes} {key : Key} :
      isEncrypted flags = true → p.keyCell = some (some key) →
      p.cipher.encrypt key nonceBytes (aeadAad header txId) c = some ciphertext →
      Protects p nonceBytes header txId flags c (nonceBytes.val ++ ciphertext)

/-- `Opens p h t flags payload c`: the content a reader finds in a payload. -/
inductive Opens (p : Proc) (header : UInt8) (txId : UInt64) (flags : UInt8) :
    Bytes → Bytes → Prop
  | clear {c : Bytes} : isEncrypted flags = false → Opens p header txId flags c c
  | sealed {c ciphertext : Bytes} {key : Key} (nonceBytes : Nonce) :
      isEncrypted flags = true → p.keyCell = some (some key) → tagLen ≤ ciphertext.length →
      p.cipher.decrypt key nonceBytes (aeadAad header txId) ciphertext = some c →
      Opens p header txId flags (nonceBytes.val ++ ciphertext) c

theorem requireEncryptKey_ok_iff {cell : KeyCell} {key : Key} :
    requireEncryptKey cell = .ok key ↔ cell = some (some key) := by
  match cell with
  | none => exact ⟨nofun, nofun⟩
  | some none => exact ⟨nofun, nofun⟩
  | some (some k) =>
      constructor
      · intro h
        rw [Except.ok.inj h]
      · intro h
        obtain rfl : k = key := by simpa using h
        rfl

theorem encryptPayload_ok_iff {cipher : Cipher} {n : Nonce} {key : Key} {aad m out : Bytes} :
    encryptPayload cipher n key aad m = .ok out ↔
      ∃ ciphertext, cipher.encrypt key n aad m = some ciphertext ∧ out = n.val ++ ciphertext := by
  rw [encryptPayload]
  cases cipher.encrypt key n aad m with
  | none => simp
  | some ciphertext => simp [eq_comm]

/-- A payload opens when it is a nonce followed by a long enough ciphertext
that the cipher accepts. -/
theorem decryptPayload_ok_iff {cipher : Cipher} {key : Key} {aad payload m : Bytes} :
    decryptPayload cipher key aad payload = .ok m ↔
      ∃ (n : Nonce) (ciphertext : Bytes), payload = n.val ++ ciphertext ∧
        tagLen ≤ ciphertext.length ∧ cipher.decrypt key n aad ciphertext = some m := by
  rw [decryptPayload]
  constructor
  · intro h
    split at h
    · cases h
    · next hlen =>
        refine ⟨⟨payload.take nonceLen, List.length_take_of_le (by omega)⟩,
          payload.drop nonceLen, ?_, ?_, ?_⟩
        · exact (List.take_append_drop nonceLen payload).symm
        · rw [List.length_drop]
          omega
        · dsimp only at h
          split at h
          · next heq => exact heq.trans (congrArg some (Except.ok.inj h))
          · cases h
  · rintro ⟨n, ciphertext, rfl, hlen, hm⟩
    have hn : n.val.length = nonceLen := n.property
    have htake : (n.val ++ ciphertext).take nonceLen = n.val := List.take_left' hn
    have hdrop : (n.val ++ ciphertext).drop nonceLen = ciphertext := List.drop_left' hn
    have hfirst : ∀ h, (⟨(n.val ++ ciphertext).take nonceLen, h⟩ : Nonce) = n :=
      fun _ => Subtype.ext htake
    rw [dif_neg (by rw [List.length_append, hn]; omega)]
    simp only [hfirst, hdrop, hm]

/-- **Specification of `buildWireFrame`.** -/
theorem buildWireFrame_ok_iff {p : Proc} {n : Nonce} {messageType flags : UInt8} {txId : UInt64}
    {data buf : Bytes} :
    buildWireFrame p n messageType txId data flags = .ok buf ↔
      ∃ header compressed payload,
        packHeaderByte messageType flags = .ok header ∧
        compressPayload p.flate (flags &&& compressMask) data = .ok compressed ∧
        Protects p n header txId flags compressed payload ∧
        payload.length ≤ 0xffff ∧ buf = wireBytes header txId payload := by
  have hsize : ∀ header payload,
      (if payload.length > 0xffff then invalidInput "payload length exceeds u16::MAX"
        else pure (header :: ofU64 txId ++ ofU16 (UInt16.ofNat payload.length) ++ payload) :
        Result Bytes) = .ok buf ↔
      payload.length ≤ 0xffff ∧ buf = wireBytes header txId payload := by
    intro header payload
    rcases Nat.lt_or_ge 0xffff payload.length with h | h
    · rw [if_pos h]
      exact ⟨fun e => absurd e (invalidInput_ne_ok _ _), fun e => absurd e.1 (by omega)⟩
    · rw [if_neg (by omega)]
      exact ⟨fun e => ⟨h, (Except.ok.inj e).symm⟩, fun e => by rw [e.2]; rfl⟩
  simp only [buildWireFrame, Outcome.bind_ok_iff, hsize]
  constructor
  · rintro ⟨header, hh, compressed, hc, payload, hp, hle, rfl⟩
    refine ⟨header, compressed, payload, hh, hc, ?_, hle, rfl⟩
    cases he : isEncrypted flags with
    | false =>
        rw [he] at hp
        obtain rfl : compressed = payload := Except.ok.inj hp
        exact .clear he
    | true =>
        rw [he] at hp
        obtain ⟨key, hk, henc⟩ := Outcome.bind_ok_iff.mp hp
        obtain ⟨ciphertext, hct, rfl⟩ := encryptPayload_ok_iff.mp henc
        exact .sealed he (requireEncryptKey_ok_iff.mp hk) hct
  · rintro ⟨header, compressed, payload, hh, hc, hp, hle, rfl⟩
    refine ⟨header, hh, compressed, hc, payload, ?_, hle, rfl⟩
    cases hp with
    | clear he =>
        rw [he]
        rfl
    | sealed he hk hct =>
        rw [he]
        exact Outcome.bind_ok_iff.mpr
          ⟨_, requireEncryptKey_ok_iff.mpr hk, encryptPayload_ok_iff.mpr ⟨_, hct, rfl⟩⟩

/-- **Specification of `parseWireFrame`.** -/
theorem parseWireFrame_ok_iff {p : Proc} {header : UInt8} {txId : UInt64} {payload : Bytes}
    {f : Frame} :
    parseWireFrame p header txId payload = .ok f ↔
      ∃ opened data,
        Opens p header txId (header &&& flagsMask) payload opened ∧
        decompressPayload p.flate (header &&& compressMask) opened = .ok data ∧
        f = ⟨header >>> 3, header &&& compressMask, isEncrypted (header &&& flagsMask), txId,
          data⟩ := by
  simp only [parseWireFrame, Outcome.bind_ok_iff, compressMask_flagsMask]
  constructor
  · rintro ⟨opened, ho, data, hd, hf⟩
    refine ⟨opened, data, ?_, hd, (Except.ok.inj hf).symm⟩
    cases he : isEncrypted (header &&& flagsMask) with
    | false =>
        rw [he] at ho
        obtain rfl : payload = opened := Except.ok.inj ho
        exact .clear he
    | true =>
        rw [he] at ho
        obtain ⟨key, hk, hdec⟩ := Outcome.bind_ok_iff.mp ho
        obtain ⟨n, ciphertext, rfl, hlen, hm⟩ := decryptPayload_ok_iff.mp hdec
        exact .sealed n he (requireEncryptKey_ok_iff.mp hk) hlen hm
  · rintro ⟨opened, data, ho, hd, rfl⟩
    refine ⟨opened, ?_, data, hd, rfl⟩
    cases ho with
    | clear he =>
        rw [he]
        rfl
    | sealed n he hk hlen hm =>
        rw [he]
        exact Outcome.bind_ok_iff.mpr
          ⟨_, requireEncryptKey_ok_iff.mpr hk, decryptPayload_ok_iff.mpr ⟨n, _, rfl, hlen, hm⟩⟩

theorem ne_three_of_decompress {fl : Flate} {compressId : UInt8} {data out : Bytes}
    (h : decompressPayload fl compressId data = .ok out) : compressId ≠ 3 := by
  rintro rfl
  cases h

end Proto4.TinyFrame
