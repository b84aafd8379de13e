/-
# `Proto4.TinyFrame.Authentic` — what an encrypted frame vouches for

The other direction of the codec, from the reader's side and against everyone:
if a reader answers a frame with `encrypted = true`, whatever bytes it was
given, then a holder of the key wrote that frame — same type, compression,
transaction id and content.

The cipher is symbolic.  `Sealed W` lists the encryptions the writers in `W`
made under the key, and `Unforgeable` says that nothing else decrypts.  `W` is
an arbitrary set of requests, each with the compressors of the program that
made it, so writers in several languages may hold the key.

Three things have to be bound for this to work, and each is one lemma: the
associated data determines header and transaction id (`aeadAad_injective`),
the header determines type and flags (`packHeaderByte_fields`), and the
length field, which is *not* authenticated, cannot be used to smuggle in the
ciphertext of a request that was sealed but then rejected as too long — such a
ciphertext fits in no payload (`written_of_sealed`).
-/
import Proto4.TinyFrame.RoundTrip
import Mathlib.Data.Set.Basic

namespace Proto4.TinyFrame

open BigEndian

/-- Requests to write made by holders of a key, each with its writer's compressors. -/
abbrev Writes := Set (Flate × WriteCall)

/-- The encryptions the writers made: one for each request whose flags ask for
it, over its compressed data, under its header and transaction id. -/
inductive Sealed (W : Writes) : Nonce → Bytes → Bytes → Prop
  | mk {fl : Flate} {c : WriteCall} {header : UInt8} {compressed : Bytes} :
      (fl, c) ∈ W → isEncrypted c.flags = true →
      packHeaderByte c.messageType c.flags = .ok header →
      compressPayload fl (c.flags &&& compressMask) c.data = .ok compressed →
      Sealed W c.nonceBytes (aeadAad header c.txId) compressed

/-- `WrittenEncrypted cipher key W f`: some request of `W` was really written
under `key`, encrypted, and `f` is the frame it stands for. -/
def WrittenEncrypted (cipher : Cipher) (key : Key) (W : Writes) (f : Frame) : Prop :=
  ∃ fl c buf, (fl, c) ∈ W ∧ isEncrypted c.flags = true ∧
    c.build ⟨cipher, fl, some (some key)⟩ = .ok buf ∧ c.frame = f

/-- The associated data determines the header byte and the transaction id. -/
theorem aeadAad_injective {h h' : UInt8} {t t' : UInt64} (e : aeadAad h t = aeadAad h' t') :
    h = h' ∧ t = t' := by
  obtain ⟨hh, ht⟩ := List.cons.inj e
  exact ⟨hh, ofU64_injective ht⟩

/-- A ciphertext short enough to be read from a payload belongs to a request
that passed the writer's length check. -/
theorem written_of_sealed {cipher : Cipher} {key : Key} {fl : Flate} {c : WriteCall}
    {header : UInt8} {compressed ciphertext : Bytes} (he : isEncrypted c.flags = true)
    (hh : packHeaderByte c.messageType c.flags = .ok header)
    (hc : compressPayload fl (c.flags &&& compressMask) c.data = .ok compressed)
    (hct : cipher.encrypt key c.nonceBytes (aeadAad header c.txId) compressed = some ciphertext)
    (hle : (c.nonceBytes.val ++ ciphertext).length ≤ 0xffff) :
    ∃ buf, c.build ⟨cipher, fl, some (some key)⟩ = .ok buf := by
  refine ⟨wireBytes header c.txId (c.nonceBytes.val ++ ciphertext), ?_⟩
  refine buildWireFrame_ok_iff.mpr ⟨header, compressed, _, hh, hc, ?_, hle, rfl⟩
  exact .sealed he rfl hct

/-- **Authenticity of the parser.**  A payload that fits its length field and
parses as an encrypted frame is one of the frames written. -/
theorem written_of_parse {p : Proc} {key : Key} {W : Writes} (hkey : p.keyCell = some (some key))
    (hunf : p.cipher.Unforgeable key (Sealed W))
    (hflate : ∀ x ∈ W, Flate.Decodes p.flate x.1)
    {header : UInt8} {txId : UInt64} {payload : Bytes} {f : Frame}
    (hle : payload.length ≤ 0xffff) (hparse : parseWireFrame p header txId payload = .ok f)
    (henc : f.encrypted = true) : WrittenEncrypted p.cipher key W f := by
  obtain ⟨opened, data, ho, hd, rfl⟩ := parseWireFrame_ok_iff.mp hparse
  cases ho with
  | clear hclear =>
      have : isEncrypted (header &&& flagsMask) = true := henc
      rw [hclear] at this
      cases this
  | @sealed _ ciphertext key' n hflag hk hlen hdec =>
      obtain rfl : key' = key := by
        rw [hkey] at hk
        exact (Option.some.inj (Option.some.inj hk)).symm
      obtain ⟨hmade, hct⟩ := hunf _ _ _ _ hdec
      generalize haad : aeadAad header txId = aad at hmade hct
      cases hmade with
      | @mk fl c header' _ hmem he hh hc =>
          obtain ⟨rfl, rfl⟩ := aeadAad_injective haad
          obtain ⟨buf, hbuf⟩ := written_of_sealed he hh hc hct hle
          refine ⟨fl, c, buf, hmem, he, hbuf, ?_⟩
          obtain ⟨hm, hf⟩ := packHeaderByte_fields hh
          have hid : header &&& compressMask = c.flags &&& compressMask := by
            rw [← compressMask_flagsMask, hf]
          rw [hid] at hd
          have hdata : c.data = data := by
            have := decompress_compress (hflate _ hmem) hc
            rw [this] at hd
            exact Except.ok.inj hd
          rw [hm, hf, hid, ← hdata]
          rfl

/-- **Encrypted frames are authentic.**  Whatever bytes the reader is given, a
frame it answers with the encryption flag is a frame that was written encrypted
under the key. -/
theorem readFrame_authentic (p : Proc) (key : Key) (hkey : p.keyCell = some (some key))
    (W : Writes) (hunf : p.cipher.Unforgeable key (Sealed W))
    (hflate : ∀ x ∈ W, Flate.Decodes p.flate x.1)
    (stream rest : Bytes) (f : Frame) (hread : (readFrame p).run stream = (.ok f, rest))
    (henc : f.encrypted = true) :
    ∃ fl c buf, (fl, c) ∈ W ∧ isEncrypted c.flags = true ∧
      c.build ⟨p.cipher, fl, some (some key)⟩ = .ok buf ∧
      f.messageType = c.messageType ∧ f.compressId = c.flags &&& compressMask ∧
      f.txId = c.txId ∧ f.data = c.data := by
  obtain ⟨header, txId, payload, hle, _, hparse⟩ := readFrame_ok_iff.mp hread
  obtain ⟨fl, c, buf, hmem, he, hbuf, rfl⟩ := written_of_parse hkey hunf hflate hle hparse henc
  exact ⟨fl, c, buf, hmem, he, hbuf, rfl, rfl, rfl, rfl⟩

/-! One request sealed under the key and nothing else: the ideal cipher over
that log, on which the statement is run. -/

/-- The encryption of `padCipher`, and decryption of `log` alone. -/
def logCipher (log : List (Nonce × Bytes × Bytes)) : Cipher :=
  Aead.ideal (fun _ _ m => m ++ List.replicate tagLen 0) log

/-- An encrypted request: type 10, transaction 1, one byte. -/
def oneCall : WriteCall := ⟨zeroNonce, 10, 1, [0x61], chacha20Poly1305⟩

/-- The process that holds the key of `oneCall`. -/
def oneProc : Proc where
  cipher := logCipher [(zeroNonce, aeadAad 0x54 1, [0x61])]
  flate := storeFlate
  keyCell := some (some testKey)

/-- A log of one request, as it was sealed, is unforgeable for its writer. -/
theorem logCipher_unforgeable {c : WriteCall} {header : UInt8} {compressed : Bytes}
    (he : isEncrypted c.flags = true) (hh : packHeaderByte c.messageType c.flags = .ok header)
    (hc : compressPayload storeFlate (c.flags &&& compressMask) c.data = .ok compressed) :
    (logCipher [(c.nonceBytes, aeadAad header c.txId, compressed)]).Unforgeable testKey
      (Sealed {(storeFlate, c)}) := by
  intro n a ct m h
  obtain ⟨hmem, hct⟩ := Aead.ideal_unforgeable _ _ testKey n a ct m h
  refine ⟨?_, hct⟩
  obtain ⟨rfl, rfl, rfl⟩ : n = c.nonceBytes ∧ a = aeadAad header c.txId ∧ m = compressed := by
    simpa using hmem
  exact .mk (Set.mem_singleton _) he hh hc

theorem decodes_singleton (c : WriteCall) :
    ∀ x ∈ ({(storeFlate, c)} : Writes), Flate.Decodes storeFlate x.1 := by
  intro x hx
  obtain rfl : x = (storeFlate, c) := hx
  exact storeFlate_decodes

theorem oneProc_unforgeable :
    oneProc.cipher.Unforgeable testKey (Sealed {(storeFlate, oneCall)}) :=
  @logCipher_unforgeable oneCall 0x54 [0x61] rfl rfl rfl

theorem readFrame_authentic_one :
    ∃ fl c buf, (fl, c) ∈ ({(storeFlate, oneCall)} : Writes) ∧ isEncrypted c.flags = true ∧
      c.build ⟨oneProc.cipher, fl, some (some testKey)⟩ = .ok buf ∧
      10 = c.messageType ∧ 0 = c.flags &&& compressMask ∧ 1 = c.txId ∧ [0x61] = c.data :=
  readFrame_authentic oneProc testKey rfl _ oneProc_unforgeable (decodes_singleton oneCall)
    (84 :: List.replicate 7 0 ++ [1, 0, 29] ++ List.replicate 12 0 ++ [0x61]
      ++ List.replicate 16 0 ++ [9, 9])
    [9, 9] ⟨10, 0, true, 1, [0x61]⟩ (by rfl) rfl

end Proto4.TinyFrame
