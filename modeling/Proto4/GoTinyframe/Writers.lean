/-
# `Proto4.GoTinyframe.Writers` — what the writers accept, and what a refusal leaves

The codec from the side of the arguments.  `Representable` is the set of
requests the format has a frame for; every writer of either library accepts
exactly these (`writers_exact`).  An accepted request adds one frame to the
sink, eleven bytes and a payload of the length those bytes name; a refused one
adds nothing, because the frame is built before the sink is touched.

The cipher is asked to seal whatever fits into a frame and to add sixteen
bytes.  The compressors are asked for nothing: a request whose compressor fails
has no frame.
-/
import Proto4.GoTinyframe.Interop
import Proto4.TinyFrame.Grammar

namespace Proto4.GoTinyframe

open BigEndian Outcome
open TinyFrame (Key Nonce Cipher Flate Proc buildWireFrame Protects wireBytes payloadLength
  payloadOf)

/-! ## The requests that have a frame -/

/-- What encryption adds to a payload: the nonce and the tag. -/
def sealingCost (flags : UInt8) : Nat :=
  if isEncrypted flags then nonceLen + tagLen else 0

/-- The request has a frame: five bits of type, three of flags, a known
compression, and a payload whose length fits into sixteen bits. -/
structure Representable (fl : Flate) (messageType flags : UInt8) (data : Bytes) : Prop where
  type : messageType ≤ 31
  bits : flags ≤ 7
  known : flags &&& compressMask ≠ 3
  fits : ∃ compressed, TinyFrame.compressPayload fl (flags &&& compressMask) data = .ok compressed ∧
    compressed.length + sealingCost flags ≤ 0xffff

/-- What a cipher promises that is handed messages small enough for a frame. -/
structure Seals (cipher : Cipher) (key : Key) : Prop where
  overhead : cipher.Overhead key tagLen
  total : ∀ n a m, m.length + (nonceLen + tagLen) ≤ 0xffff → ∃ c, cipher.encrypt key n a m = some c

/-- The payload of a protected content is as long as the content and the cost. -/
theorem length_of_protects {p : Proc} {key : Key} (hkey : p.keyCell = some (some key))
    (hover : p.cipher.Overhead key tagLen) {n : Nonce} {header flags : UInt8} {txId : UInt64}
    {content payload : Bytes} (h : Protects p n header txId flags content payload) :
    payload.length = content.length + sealingCost flags := by
  cases h with
  | clear he =>
      have hcost : sealingCost flags = 0 := if_neg (Bool.eq_false_iff.mp he)
      rw [hcost, Nat.add_zero]
  | @sealed ciphertext key' he hk hct =>
      obtain rfl : key = key' := by
        rw [hkey] at hk
        exact Option.some.inj (Option.some.inj hk)
      have hcost : sealingCost flags = nonceLen + tagLen := if_pos he
      rw [List.length_append, n.property, hover _ _ _ _ hct, hcost]
      show 12 + (content.length + 16) = content.length + (12 + 16)
      omega

/-- Content that fits is protected. -/
theorem protects_of_fits {p : Proc} {key : Key} (hkey : p.keyCell = some (some key))
    (hseals : Seals p.cipher key) (n : Nonce) (header : UInt8) {flags : UInt8} (txId : UInt64)
    {content : Bytes} (hfits : content.length + sealingCost flags ≤ 0xffff) :
    ∃ payload, Protects p n header txId flags content payload := by
  cases he : isEncrypted flags with
  | false => exact ⟨content, .clear he⟩
  | true =>
      have hcost : sealingCost flags = nonceLen + tagLen := if_pos he
      rw [hcost] at hfits
      obtain ⟨c, hc⟩ := hseals.total n (TinyFrame.aeadAad header txId) content hfits
      exact ⟨_, .sealed he hkey hc⟩

/-- **The builder accepts exactly the representable requests.** -/
theorem build_ok_iff_representable {p : Proc} {key : Key} (hkey : p.keyCell = some (some key))
    (hseals : Seals p.cipher key) (n : Nonce) (messageType : UInt8) (txId : UInt64) (data : Bytes)
    (flags : UInt8) :
    (∃ buf, buildWireFrame p n messageType txId data flags = .ok buf) ↔
      Representable p.flate messageType flags data := by
  constructor
  · rintro ⟨buf, h⟩
    obtain ⟨header, compressed, payload, hpack, hc, hp, hle, _⟩ :=
      TinyFrame.buildWireFrame_ok_iff.mp h
    obtain ⟨hm, hf, hknown, _⟩ := TinyFrame.packHeaderByte_ok_iff.mp hpack
    rw [length_of_protects hkey hseals.overhead hp] at hle
    exact ⟨hm, hf, hknown, compressed, hc, hle⟩
  · rintro ⟨hm, hf, hknown, compressed, hc, hfits⟩
    have hpack := TinyFrame.packHeaderByte_ok_iff.mpr ⟨hm, hf, hknown, rfl⟩
    obtain ⟨payload, hp⟩ := protects_of_fits hkey hseals n _ txId hfits
    refine ⟨_, TinyFrame.buildWireFrame_ok_iff.mpr ⟨_, compressed, payload, hpack, hc, hp, ?_, rfl⟩⟩
    rw [length_of_protects hkey hseals.overhead hp]
    exact hfits

/-! ## The frame that is written -/

/-- `buf` is a frame of this type, flags and transaction id around `payload`,
and its length field says how long that is. -/
structure Frames (messageType flags : UInt8) (txId : UInt64) (payload buf : Bytes) : Prop where
  length : buf.length = 11 + payload.length
  header : buf.headD 0 >>> 3 = messageType ∧ buf.headD 0 &&& flagsMask = flags
  txId : toU64 ((buf.drop 1).take 8) = txId
  size : payloadLength buf = payload.length
  payload : buf.drop 11 = payload

theorem frames_wireBytes {messageType flags header : UInt8} {payload : Bytes}
    (hpack : TinyFrame.packHeaderByte messageType flags = .ok header) (txId : UInt64)
    (hle : payload.length ≤ 0xffff) :
    Frames messageType flags txId payload (wireBytes header txId payload) := by
  have hsplit := TinyFrame.splitWire_wireBytes header txId hle []
  rw [List.append_nil] at hsplit
  obtain ⟨hfixed, hwhole⟩ := TinyFrame.whole_of_splitWire hsplit
  rw [TinyFrame.splitWire_of_whole hfixed hwhole] at hsplit
  simp only [Option.some.injEq, Prod.mk.injEq] at hsplit
  obtain ⟨_, htx, hpayload, _⟩ := hsplit
  refine ⟨TinyFrame.length_wireBytes _ _ _, TinyFrame.packHeaderByte_fields hpack, htx, ?_,
    TinyFrame.drop_wireBytes _ _ _⟩
  rw [← TinyFrame.length_payloadOf hwhole, hpayload]

/-- What a built frame looks like. -/
theorem frames_of_build {p : Proc} {key : Key} (hkey : p.keyCell = some (some key))
    (hover : p.cipher.Overhead key tagLen) {n : Nonce} {messageType flags : UInt8}
    {txId : UInt64} {data buf : Bytes}
    (h : buildWireFrame p n messageType txId data flags = .ok buf) :
    ∃ compressed payload,
      TinyFrame.compressPayload p.flate (flags &&& compressMask) data = .ok compressed ∧
      payload.length = compressed.length + sealingCost flags ∧
      Frames messageType flags txId payload buf := by
  obtain ⟨header, compressed, payload, hpack, hc, hp, hle, rfl⟩ :=
    TinyFrame.buildWireFrame_ok_iff.mp h
  exact ⟨compressed, payload, hc, length_of_protects hkey hover hp,
    frames_wireBytes hpack txId hle⟩

/-! ## The writers -/

/-- A writer of one request into a sink: it succeeds on a sink that takes
everything exactly when the request has a frame; on success the sink has grown
by that frame; and a request without a frame leaves any sink as it was. -/
structure WritesExactly {ε : Type} (fl : Flate) (messageType : UInt8) (txId : UInt64)
    (data : Bytes) (flags : UInt8) (write : Sink UInt8 → Except ε Unit × Sink UInt8) : Prop where
  succeeds_iff : ∀ w, w.room = none →
    ((∃ w', write w = (.ok (), w')) ↔ Representable fl messageType flags data)
  grows : ∀ w w', write w = (.ok (), w') → ∃ compressed payload buf,
    TinyFrame.compressPayload fl (flags &&& compressMask) data = .ok compressed ∧
    payload.length = compressed.length + sealingCost flags ∧
    Frames messageType flags txId payload buf ∧ w'.written = w.written ++ buf
  rejects : ¬ Representable fl messageType flags data → ∀ w, ∃ e, write w = (.error e, w)

/-- Handing a whole frame to the sink. -/
structure Puts {ε : Type} (put : Sink UInt8 → Bytes → Except ε Unit × Sink UInt8) : Prop where
  free : ∀ w buf, w.room = none → ∃ w', put w buf = (.ok (), w')
  grows : ∀ w w' buf, put w buf = (.ok (), w') → w'.written = w.written ++ buf

/-- Building first and writing then is what makes a writer exact. -/
theorem writesExactly_of_build {ε : Type} {fl : Flate} {messageType flags : UInt8} {txId : UInt64}
    {data : Bytes} {put : Sink UInt8 → Bytes → Except ε Unit × Sink UInt8}
    {write : Sink UInt8 → Except ε Unit × Sink UInt8} (hput : Puts put) (build : Except ε Bytes)
    (hok : ∀ buf w, build = .ok buf → write w = put w buf)
    (herror : ∀ e w, build = .error e → write w = (.error e, w))
    (hrep : (∃ buf, build = .ok buf) ↔ Representable fl messageType flags data)
    (hframes : ∀ buf, build = .ok buf → ∃ compressed payload,
      TinyFrame.compressPayload fl (flags &&& compressMask) data = .ok compressed ∧
      payload.length = compressed.length + sealingCost flags ∧
      Frames messageType flags txId payload buf) :
    WritesExactly fl messageType txId data flags write := by
  cases hb : build with
  | error e =>
      have hno : ¬ Representable fl messageType flags data := by
        intro h
        obtain ⟨buf, hbuf⟩ := hrep.mpr h
        cases hb.symm.trans hbuf
      refine ⟨?_, ?_, ?_⟩
      · intro w _
        refine iff_of_false ?_ hno
        rintro ⟨w', h⟩
        cases (herror e w hb).symm.trans h
      · intro w w' h
        cases (herror e w hb).symm.trans h
      · intro _ w
        exact ⟨e, herror e w hb⟩
  | ok buf =>
      have hyes := hrep.mp ⟨buf, hb⟩
      refine ⟨?_, ?_, fun h => absurd hyes h⟩
      · intro w hfree
        refine iff_of_true ?_ hyes
        rw [hok buf w hb]
        exact hput.free w buf hfree
      · intro w w' h
        obtain ⟨compressed, payload, hc, hlen, hframe⟩ := hframes buf hb
        rw [hok buf w hb] at h
        exact ⟨compressed, payload, buf, hc, hlen, hframe, hput.grows w w' buf h⟩

theorem puts_writeAll : Puts TinyFrame.writeAll where
  free w buf hfree := by
    refine ⟨{ w with written := w.written ++ buf }, ?_⟩
    rw [TinyFrame.writeAll, Sink.push, hfree]
  grows w w' buf h := by
    refine written_of_write (w := w) ?_
    have hagree := write_agrees w buf
    rw [h] at hagree
    exact Prod.ext ((hagree.1.ok_iff ()).mp rfl) hagree.2.symm

theorem puts_write : Puts write where
  free w buf hfree := by
    refine ⟨{ w with written := w.written ++ buf }, ?_⟩
    rw [write, Sink.push, hfree]
  grows _ _ _ h := written_of_write h

theorem writesExactly_rust {p : Proc} {key : Key} (hkey : p.keyCell = some (some key))
    (hseals : Seals p.cipher key) (n : Nonce) (messageType : UInt8) (txId : UInt64) (data : Bytes)
    (flags : UInt8) :
    WritesExactly p.flate messageType txId data flags
      (TinyFrame.writeFrame p n messageType txId data flags) := by
  refine writesExactly_of_build puts_writeAll
    (buildWireFrame p n messageType txId data flags) ?_ ?_
    (build_ok_iff_representable hkey hseals n messageType txId data flags)
    (fun buf h => frames_of_build hkey hseals.overhead h)
  · intro buf w h
    rw [TinyFrame.writeFrame, h]
  · intro e w h
    rw [TinyFrame.writeFrame, h]

theorem writesExactly_go (p : GoProc) {key : Key} (hseals : Seals p.cipher key) (n : Nonce)
    (messageType : UInt8) (txId : UInt64) (data : Bytes) (flags : UInt8) :
    WritesExactly p.flate messageType txId data flags
      (writeFrameWithKey p n messageType txId data flags (some key)) := by
  -- the Go writer builds what the Rust writer over the same libraries builds
  have hsame := (encodeFrame_agrees p key n messageType txId data flags).ok_iff
  have hrep := build_ok_iff_representable (p := ⟨p.cipher, p.flate, some (some key)⟩) rfl hseals n
    messageType txId data flags
  refine writesExactly_of_build puts_write
    (encodeFrame p n messageType txId data flags (some key)) ?_ ?_ ?_ ?_
  · intro buf w h
    rw [writeFrameWithKey, h]
  · intro e w h
    rw [writeFrameWithKey, h]
  · rw [← hrep]
    exact exists_congr fun buf => (hsame buf).symm
  · intro buf h
    exact frames_of_build (p := ⟨p.cipher, p.flate, some (some key)⟩) rfl hseals.overhead
      ((hsame buf).mpr h)

/-- **The writers accept exactly the representable frames and fail without a
trace.**  With a key set, on every type, transaction id, content and flags. -/
theorem writers_exact (rust : Proc) (go : GoProc) (key : Key)
    (hkey : rust.keyCell = some (some key)) (hrust : Seals rust.cipher key)
    (hgo : Seals go.cipher key) (nonce : Nonce) (messageType : UInt8) (txId : UInt64)
    (data : Bytes) (flags : UInt8) :
    WritesExactly rust.flate messageType txId data flags
        (TinyFrame.writeFrame rust nonce messageType txId data flags) ∧
      WritesExactly rust.flate messageType txId data flags
        (TinyFrame.writeFrameBlocking rust nonce messageType txId data flags) ∧
      WritesExactly go.flate messageType txId data flags
        (writeFrameWithKey go nonce messageType txId data flags (some key)) :=
  ⟨writesExactly_rust hkey hrust nonce messageType txId data flags,
    writesExactly_rust hkey hrust nonce messageType txId data flags,
    writesExactly_go go hgo nonce messageType txId data flags⟩

theorem padCipher_seals (key : Key) : Seals TinyFrame.padCipher key :=
  ⟨TinyFrame.padCipher_overhead key, fun _ _ _ _ => ⟨_, rfl⟩⟩

/-- A type of six bits is refused, and a sink with three bytes in it keeps them. -/
theorem writers_exact_refused :
    ∃ e, writeFrameWithKey ⟨TinyFrame.padCipher, TinyFrame.storeFlate⟩ TinyFrame.zeroNonce 32 1
      [104, 105] 0 (some TinyFrame.testKey) ⟨[7, 7, 7], none⟩ = (.error e, ⟨[7, 7, 7], none⟩) :=
  (writers_exact TinyFrame.padProc ⟨TinyFrame.padCipher, TinyFrame.storeFlate⟩
    TinyFrame.testKey rfl (padCipher_seals _) (padCipher_seals _) TinyFrame.zeroNonce 32 1
    [104, 105] 0).2.2.rejects (fun h => absurd h.type (by decide)) ⟨[7, 7, 7], none⟩

end Proto4.GoTinyframe
