/-
# `Proto4.TinyFrame.RoundTrip` — what was written is what is read

One direction of the codec, from the writer's side: if `build_wire_frame`
accepts a request, the bytes it answers are read back as that request and
nothing after them is touched.  The reader may belong to another process with
other compressors — it has to share the key and to decompress what the writer
compressed, and that is all (`takes_of_build`).  A stream of frames is then
the framing law of the reader library applied to this one fact.

The libraries are asked for three things, each documented behaviour: that a
decoder inverts an encoder (`Flate.Decodes`), that decryption inverts
encryption, and that a ciphertext is sixteen bytes longer than its message.
-/
import Proto4.TinyFrame.Wire

namespace Proto4.TinyFrame

/-- The decoders of `d` undo the encoders of `e`, format by format. -/
structure Flate.Decodes (d e : Flate) : Prop where
  gzip : Codec.Decodes d.gzip.decode e.gzip.encode
  deflate : Codec.Decodes d.deflate.decode e.deflate.encode

theorem ofFlate_ok_iff {α : Type} {x : Option α} {a : α} : ofFlate x = .ok a ↔ x = some a := by
  cases x with
  | none => exact ⟨nofun, nofun⟩
  | some b => simp [ofFlate]

/-- Decompression undoes compression under the same id. -/
theorem decompress_compress {d e : Flate} (h : Flate.Decodes d e) {compressId : UInt8}
    {data compressed : Bytes} (hc : compressPayload e compressId data = .ok compressed) :
    decompressPayload d compressId compressed = .ok data := by
  rw [compressPayload] at hc
  rw [decompressPayload]
  split at hc
  · next h0 => rw [if_pos h0, Except.ok.inj hc]
  · next h0 =>
      rw [if_neg h0]
      split at hc
      · next h1 =>
          rw [if_pos h1]
          exact ofFlate_ok_iff.mpr (h.gzip _ _ (ofFlate_ok_iff.mp hc))
      · next h1 =>
          rw [if_neg h1]
          split at hc
          · next h2 =>
              rw [if_pos h2]
              exact ofFlate_ok_iff.mpr (h.deflate _ _ (ofFlate_ok_iff.mp hc))
          · exact absurd hc (invalidInput_ne_ok _ _)

/-! ## Requests to write -/

/-- The arguments of a writer, with the nonce it draws. -/
structure WriteCall where
  nonceBytes : Nonce
  messageType : UInt8
  txId : UInt64
  data : Bytes
  flags : UInt8

namespace WriteCall

/-- The wire frame of a request, in a process. -/
def build (p : Proc) (c : WriteCall) : Result Bytes :=
  buildWireFrame p c.nonceBytes c.messageType c.txId c.data c.flags

/-- The frame a request stands for. -/
def frame (c : WriteCall) : Frame where
  messageType := c.messageType
  compressId := c.flags &&& compressMask
  encrypted := isEncrypted c.flags
  txId := c.txId
  data := c.data

end WriteCall

/-- What a reading process `r` needs of a writing process `w`: the same key and
cipher, decoders for its encoders, and the two laws of the cipher. -/
structure Reads (r w : Proc) : Prop where
  cipher : r.cipher = w.cipher
  keyCell : r.keyCell = w.keyCell
  flate : Flate.Decodes r.flate w.flate
  correct : ∀ key, w.cipher.Correct key
  overhead : ∀ key, w.cipher.Overhead key tagLen

/-- A protected payload opens to the content it was made from. -/
theorem opens_of_protects {r w : Proc} (hcipher : r.cipher = w.cipher)
    (hkey : r.keyCell = w.keyCell) (hcorrect : ∀ key, w.cipher.Correct key)
    (hoverhead : ∀ key, w.cipher.Overhead key tagLen) {n : Nonce} {header flags : UInt8}
    {txId : UInt64} {compressed payload : Bytes}
    (h : Protects w n header txId flags compressed payload) :
    Opens r header txId flags payload compressed := by
  cases h with
  | clear he => exact .clear he
  | sealed he hk hct =>
      refine .sealed n he (hkey.trans hk) ?_ ?_
      · have := hoverhead _ _ _ _ _ hct
        omega
      · rw [hcipher]
        exact hcorrect _ _ _ _ _ hct

/-- A reader that opens what the writer protects and decompresses what it
compressed takes the built frame. -/
theorem takes_of_opens {r w : Proc} {c : WriteCall} {buf : Bytes} (h : c.build w = .ok buf)
    (hopens : ∀ {header compressed payload},
      Protects w c.nonceBytes header c.txId c.flags compressed payload →
        Opens r header c.txId c.flags payload compressed)
    (hflate : ∀ {compressed},
      compressPayload w.flate (c.flags &&& compressMask) c.data = .ok compressed →
        decompressPayload r.flate (c.flags &&& compressMask) compressed = .ok c.data) :
    Reader.Takes (readFrame r) buf c.frame := by
  intro rest
  obtain ⟨header, compressed, payload, hh, hc, hp, hle, rfl⟩ := buildWireFrame_ok_iff.mp h
  obtain ⟨hm, hf⟩ := packHeaderByte_fields hh
  have hid : header &&& compressMask = c.flags &&& compressMask := by
    rw [← compressMask_flagsMask, hf]
  refine readFrame_ok_iff.mpr ⟨header, c.txId, payload, hle, rfl, ?_⟩
  refine parseWireFrame_ok_iff.mpr ⟨compressed, c.data, ?_, ?_, ?_⟩
  · rw [hf]
    exact hopens hp
  · rw [hid]
    exact hflate hc
  · rw [hm, hf, hid]
    rfl

/-- Where nothing is compressed the decompressors do not matter. -/
theorem takes_uncompressed {r w : Proc} {n : Nonce} {messageType flags : UInt8} {txId : UInt64}
    {data buf : Bytes} (hplain : flags &&& compressMask = compressNone)
    (h : buildWireFrame w n messageType txId data flags = .ok buf)
    (hopens : ∀ {header compressed payload}, Protects w n header txId flags compressed payload →
      Opens r header txId flags payload compressed) :
    Reader.Takes (readFrame r) buf ⟨messageType, 0, isEncrypted flags, txId, data⟩ := by
  have htakes := @takes_of_opens r w ⟨n, messageType, txId, data, flags⟩ buf h hopens (by
    intro compressed hc
    dsimp only at hc ⊢
    rw [hplain] at hc ⊢
    obtain rfl : data = compressed := Except.ok.inj hc
    rfl)
  rw [WriteCall.frame] at htakes
  dsimp only at htakes
  rwa [hplain] at htakes

/-- **Round trip of one frame.**  The reader consumes exactly the built bytes
and answers the frame that was asked for. -/
theorem takes_of_build {r w : Proc} (hr : Reads r w) {c : WriteCall} {buf : Bytes}
    (h : c.build w = .ok buf) : Reader.Takes (readFrame r) buf c.frame :=
  takes_of_opens h (opens_of_protects hr.cipher hr.keyCell hr.correct hr.overhead)
    (decompress_compress hr.flate)

theorem forall₂_takes {r w : Proc} (hr : Reads r w) {calls : List WriteCall} {bufs : List Bytes}
    (hbuilt : List.Forall₂ (fun c buf => c.build w = .ok buf) calls bufs) :
    List.Forall₂ (Reader.Takes (readFrame r)) bufs (calls.map WriteCall.frame) := by
  induction hbuilt with
  | nil => exact .nil
  | cons h _ ih => exact .cons (takes_of_build hr h) ih

/-- One reader a frame, either reader, over the concatenation of the frames. -/
theorem inOrder_of_builds {r w : Proc} (hr : Reads r w) {calls : List WriteCall}
    {bufs : List Bytes} (hbuilt : List.Forall₂ (fun c buf => c.build w = .ok buf) calls bufs)
    {readers : List (Reader UInt8 Fault Frame)}
    (hreaders : ∀ x ∈ readers, x = readFrame r ∨ x = readFrameBlocking r)
    (hlen : readers.length = calls.length) (tail : Bytes) :
    (Reader.inOrder readers).run (bufs.flatten ++ tail)
      = (.ok (calls.map WriteCall.frame), tail) := by
  have hsame : readers = List.replicate (calls.map WriteCall.frame).length (readFrame r) := by
    refine List.eq_replicate_iff.mpr ⟨by rw [hlen, List.length_map], ?_⟩
    intro x hx
    rcases hreaders x hx with h | h
    · exact h
    · exact h.trans (readFrame_eq_blocking r).symm
  rw [hsame]
  exact Reader.inOrder_append (forall₂_takes hr hbuilt) tail

/-! ## The stream round trip -/

/-- **Frame streams round trip.**  In one process: whatever requests the writer
accepts, in whatever order, one read a frame gives back exactly those frames
and leaves exactly the tail. -/
theorem frameStream_roundTrip (p : Proc) (hflate : Flate.Decodes p.flate p.flate)
    (hcorrect : ∀ key, p.cipher.Correct key) (hoverhead : ∀ key, p.cipher.Overhead key tagLen)
    (calls : List WriteCall) (bufs : List Bytes)
    (hbuilt : List.Forall₂ (fun c buf => c.build p = .ok buf) calls bufs)
    (readers : List (Reader UInt8 Fault Frame))
    (hreaders : ∀ x ∈ readers, x = readFrame p ∨ x = readFrameBlocking p)
    (hlen : readers.length = calls.length) (tail : Bytes) :
    (Reader.inOrder readers).run (bufs.flatten ++ tail)
      = (.ok (calls.map WriteCall.frame), tail) := by
  have hr : Reads p p := ⟨rfl, rfl, hflate, hcorrect, hoverhead⟩
  exact inOrder_of_builds hr hbuilt hreaders hlen tail

/-! A cipher that only pads and compressors that store: enough to run the
statement on a plain frame, an encrypted frame and a tail. -/

/-- Ciphertext = message ‖ sixteen bytes; everything of the right length opens. -/
def padCipher : Cipher where
  encrypt _ _ _ m := some (m ++ List.replicate tagLen 0)
  decrypt _ _ _ c := if tagLen ≤ c.length then some (c.take (c.length - tagLen)) else none

/-- Compressors that store their input as it is. -/
def storeFlate : Flate := ⟨⟨some, some⟩, ⟨some, some⟩⟩

theorem padCipher_correct (key : Key) : padCipher.Correct key := by
  intro n a m c h
  obtain rfl : m ++ List.replicate tagLen 0 = c := Option.some.inj h
  simp [padCipher]

theorem padCipher_overhead (key : Key) : padCipher.Overhead key tagLen := by
  intro n a m c h
  obtain rfl : m ++ List.replicate tagLen 0 = c := Option.some.inj h
  simp

theorem storeFlate_decodes : Flate.Decodes storeFlate storeFlate where
  gzip _ _ h := h.symm
  deflate _ _ h := h.symm

/-- The key of the repository's own tests, `[0x42; KEY_LEN]`. -/
def testKey : Key := ByteArr.fill keyLen 0x42

/-- A nonce of zeros. -/
def zeroNonce : Nonce := ByteArr.fill nonceLen 0

def padProc : Proc := ⟨padCipher, storeFlate, some (some testKey)⟩

theorem frameStream_roundTrip_two :
    (Reader.inOrder [readFrame padProc, readFrameBlocking padProc]).run
      ([[168, 0, 0, 0, 0, 0, 0, 0, 7, 0, 2, 104, 105],
        28 :: List.replicate 7 0 ++ [99, 0, 29] ++ List.replicate 12 0 ++ [33]
          ++ List.replicate 16 0].flatten ++ [1, 2])
      = (.ok [⟨21, 0, false, 7, [104, 105]⟩, ⟨3, 0, true, 99, [33]⟩], [1, 2]) :=
  frameStream_roundTrip padProc storeFlate_decodes padCipher_correct padCipher_overhead
    [⟨zeroNonce, 21, 7, [104, 105], 0⟩, ⟨zeroNonce, 3, 99, [33], 4⟩] _
    (.cons rfl (.cons rfl .nil)) _ (by simp) rfl [1, 2]

end Proto4.TinyFrame
