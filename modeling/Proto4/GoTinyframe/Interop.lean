/-
# `Proto4.GoTinyframe.Interop` — the Rust and the Go codec are one codec

The two libraries are compared function by function under `Agrees`: with the
same arguments they answer the same value, or they both fail — in different
words, and once in a different way, since where the Rust crate reports a
message as too long Go's `Seal` panics.

`encodeFrame_agrees` and `openFrame_agrees` say this of writing and parsing
when both sides link the *same* compressors.  Different compressors are the
business of `TinyFrame.Reads`, so interoperation is agreement followed by the
Rust-only round trip, once in each direction.
-/
import Proto4.GoTinyframe.Wire
import Proto4.TinyFrame.RoundTrip

namespace Proto4.GoTinyframe

open Outcome
open TinyFrame (Key Nonce Cipher Flate Proc WriteCall Reads splitWire)

/-- A Rust frame as the Go structure. -/
def Frame.ofRust (f : TinyFrame.Frame) : Frame :=
  ⟨f.messageType, f.compressId, f.encrypted, f.txId, f.data⟩

/-! ## Function by function -/

theorem packHeaderByte_agrees (messageType flags : UInt8) :
    Agrees (TinyFrame.packHeaderByte messageType flags) (packHeaderByte messageType flags) := by
  refine Agrees.ite (agrees_error _ _) ?_
  refine Agrees.ite (agrees_error _ _) ?_
  exact Agrees.ite (agrees_ok _) (agrees_error _ _)

theorem ofFlate_agrees {α : Type} (x : Option α) : Agrees (TinyFrame.ofFlate x) (ofFlate x) := by
  cases x with
  | none => exact agrees_error _ _
  | some a => exact agrees_ok a

theorem compressPayload_agrees (fl : Flate) (compressID : UInt8) (data : Bytes) :
    Agrees (TinyFrame.compressPayload fl compressID data)
      (compressPayload fl compressID data) := by
  refine Agrees.ite (agrees_ok _) ?_
  refine Agrees.ite (ofFlate_agrees _) ?_
  exact Agrees.ite (ofFlate_agrees _) (agrees_error _ _)

theorem decompressPayload_agrees (fl : Flate) (compressID : UInt8) (data : Bytes) :
    Agrees (TinyFrame.decompressPayload fl compressID data)
      (decompressPayload fl compressID data) := by
  refine Agrees.ite (agrees_ok _) ?_
  refine Agrees.ite (ofFlate_agrees _) ?_
  exact Agrees.ite (ofFlate_agrees _) (agrees_error _ _)

theorem encryptPayload_agrees (cipher : Cipher) (nonce : Nonce) (key : Key)
    (aad plaintext : Bytes) :
    Agrees (TinyFrame.encryptPayload cipher nonce key aad plaintext)
      (encryptPayload cipher nonce key aad plaintext) := by
  rw [TinyFrame.encryptPayload, encryptPayload]
  cases cipher.encrypt key nonce aad plaintext with
  | none => exact agrees_error _ _
  | some ciphertext => exact agrees_ok _

theorem decryptPayload_agrees (cipher : Cipher) (key : Key) (aad payload : Bytes) :
    Agrees (TinyFrame.decryptPayload cipher key aad payload)
      (decryptPayload cipher key aad payload) := by
  rw [TinyFrame.decryptPayload, decryptPayload]
  split
  · exact agrees_error _ _
  · dsimp only
    generalize cipher.decrypt key _ aad _ = opened
    cases opened with
    | none => exact agrees_error _ _
    | some plain => exact agrees_ok plain

/-! ## Writing and parsing -/

/-- **The two writers agree** when they link the same compressors. -/
theorem encodeFrame_agrees (p : GoProc) (key : Key) (nonce : Nonce) (messageType : UInt8)
    (txID : UInt64) (data : Bytes) (flags : UInt8) :
    Agrees
      (TinyFrame.buildWireFrame ⟨p.cipher, p.flate, some (some key)⟩ nonce messageType txID data
        flags)
      (encodeFrame p nonce messageType txID data flags (some key)) := by
  refine (packHeaderByte_agrees messageType flags).bind fun header => ?_
  refine (compressPayload_agrees p.flate _ data).bind fun compressed => ?_
  refine Agrees.bind ?_ fun payload => Agrees.ite (agrees_error _ _) (agrees_ok _)
  exact Agrees.ite (encryptPayload_agrees p.cipher nonce key _ compressed) (agrees_ok compressed)

/-- **The two parsers agree** when they link the same decompressors. -/
theorem openFrame_agrees (p : GoProc) (key : Key) (header : UInt8) (txID : UInt64)
    (payload : Bytes) :
    Agrees
      (Frame.ofRust <$>
        TinyFrame.parseWireFrame ⟨p.cipher, p.flate, some (some key)⟩ header txID payload)
      (openFrame p (some key) none header txID payload) := by
  rw [TinyFrame.parseWireFrame, openFrame, map_bind]
  refine Agrees.bind ?_ fun opened => ?_
  · exact Agrees.ite (decryptPayload_agrees p.cipher key _ payload) (agrees_ok payload)
  · rw [map_bind]
    refine (decompressPayload_agrees p.flate _ opened).bind fun data => ?_
    exact agrees_ok _

/-- Without compression the compressors play no part in what is written. -/
theorem buildWireFrame_uncompressed (cipher : Cipher) (fl fl' : Flate) (cell : TinyFrame.KeyCell)
    (nonce : Nonce) (messageType : UInt8) (txID : UInt64) (data : Bytes) {flags : UInt8}
    (h : flags &&& compressMask = 0) :
    TinyFrame.buildWireFrame ⟨cipher, fl, cell⟩ nonce messageType txID data flags
      = TinyFrame.buildWireFrame ⟨cipher, fl', cell⟩ nonce messageType txID data flags := by
  have hc : ∀ g : Flate, TinyFrame.compressPayload g (flags &&& compressMask) data = .ok data := by
    intro g
    rw [TinyFrame.compressPayload, if_pos h]
  rw [TinyFrame.buildWireFrame, TinyFrame.buildWireFrame, hc fl, hc fl']

/-- The last step of the two writers: one block into one sink. -/
theorem write_agrees (w : Sink UInt8) (buf : Bytes) :
    Agrees (TinyFrame.writeAll w buf).1 (write w buf).1 ∧
      (TinyFrame.writeAll w buf).2 = (write w buf).2 := by
  rw [TinyFrame.writeAll, write]
  cases w.push buf with
  | mk done w' =>
      cases done with
      | true => exact ⟨agrees_ok (), rfl⟩
      | false => exact ⟨agrees_error _ _, rfl⟩

theorem written_of_write {w w' : Sink UInt8} {buf : Bytes} (h : write w buf = (.ok (), w')) :
    w'.written = w.written ++ buf := by
  rw [write] at h
  cases hp : w.push buf with
  | mk done w'' =>
      rw [hp] at h
      cases done with
      | true =>
          obtain rfl : w'' = w' := (Prod.mk.inj h).2
          exact Sink.push_true hp
      | false => cases h

/-! ## Reading -/

theorem readFrameFrom_eq (p : GoProc) (key : Option Key) (useGlobal : Option GlobalKey) :
    readFrameFrom p key useGlobal = TinyFrame.readFields readFullError >>= fun x =>
      Reader.ofExcept (openFrame p key useGlobal x.1 x.2.1 x.2.2) := by
  simp only [readFrameFrom, TinyFrame.readFields, bind_assoc, pure_bind]

/-- **Specification of `readFrameFrom`**, on a stream that holds a whole frame. -/
theorem readFrameFrom_of_split (p : GoProc) (key : Option Key) (useGlobal : Option GlobalKey)
    {s payload rest : Bytes} {header : UInt8} {txID : UInt64}
    (h : splitWire s = some (header, txID, payload, rest)) :
    (readFrameFrom p key useGlobal).run s
      = (openFrame p key useGlobal header txID payload, rest) := by
  rw [readFrameFrom_eq, Reader.bind_ok (TinyFrame.readFields_of_split readFullError h)]
  rfl

/-- A stream that ends inside a frame is an error, consumed whole. -/
theorem readFrameFrom_short (p : GoProc) (key : Option Key) (useGlobal : Option GlobalKey)
    {s : Bytes} (h : splitWire s = none) :
    ∃ e, (readFrameFrom p key useGlobal).run s = (.error e, []) := by
  obtain ⟨t, ht⟩ := TinyFrame.readFields_short readFullError h
  rw [readFrameFrom_eq]
  exact ⟨_, Reader.bind_error ht⟩

/-- What the Rust reader with the Go program's libraries answers, the Go reader answers. -/
theorem read_of_rust {p : GoProc} {key : Key} {s rest : Bytes} {f : TinyFrame.Frame}
    (h : (TinyFrame.readFrame ⟨p.cipher, p.flate, some (some key)⟩).run s = (.ok f, rest)) :
    (readFrameWithKey p (some key)).run s = (.ok (Frame.ofRust f), rest) := by
  obtain ⟨header, txID, payload, hle, heq, hparse⟩ := TinyFrame.readFrame_ok_iff.mp h
  have hsplit := TinyFrame.splitWire_eq_some.mpr ⟨hle, heq⟩
  have hopen : openFrame p (some key) none header txID payload = .ok (Frame.ofRust f) := by
    refine ((openFrame_agrees p key header txID payload).ok_iff _).mp ?_
    rw [hparse]
    rfl
  rw [readFrameWithKey, readFrameFrom_of_split p _ _ hsplit, hopen]

theorem takes_of_rust {p : GoProc} {key : Key} {buf : Bytes} {f : TinyFrame.Frame}
    (h : Reader.Takes (TinyFrame.readFrame ⟨p.cipher, p.flate, some (some key)⟩) buf f) :
    Reader.Takes (readFrameWithKey p (some key)) buf (Frame.ofRust f) :=
  fun rest => read_of_rust (h rest)

/-- What the Go reader answers, the Rust reader with the Go program's libraries answers. -/
theorem rust_of_read {p : GoProc} {key : Key} {s rest : Bytes} {g : Frame}
    (h : (readFrameWithKey p (some key)).run s = (.ok g, rest)) :
    ∃ f, (TinyFrame.readFrame ⟨p.cipher, p.flate, some (some key)⟩).run s = (.ok f, rest) ∧
      Frame.ofRust f = g := by
  cases hsplit : splitWire s with
  | none =>
      obtain ⟨e, he⟩ := readFrameFrom_short p (some key) none hsplit
      rw [readFrameWithKey, he] at h
      cases h
  | some cut =>
      obtain ⟨header, txID, payload, rest'⟩ := cut
      rw [readFrameWithKey, readFrameFrom_of_split p _ _ hsplit] at h
      obtain ⟨hopen, rfl⟩ := Prod.mk.inj h
      have hmap := ((openFrame_agrees p key header txID payload).ok_iff g).mpr hopen
      rw [TinyFrame.readFrame_run, hsplit]
      cases hparse : TinyFrame.parseWireFrame ⟨p.cipher, p.flate, some (some key)⟩ header txID
          payload with
      | error e =>
          rw [hparse] at hmap
          cases hmap
      | ok f =>
          rw [hparse] at hmap
          exact ⟨f, Prod.ext hparse rfl, Except.ok.inj hmap⟩

/-- Reading with the package's key is reading with that key. -/
theorem readFrame_global (p : GoProc) (key : Key) :
    readFrame p (some (some key)) = readFrameWithKey p (some key) := rfl

/-! ## Interoperation -/

/-- **Rust and Go interoperate.**  Both sides hold the key and use one cipher;
each side's decoders invert the other's encoders.  A frame built by Rust is
read by Go, and one written by Go by Rust, with the same fields and nothing
else consumed; and without compression the two writers, given the same nonce,
leave the same bytes in the sink and succeed on the same inputs. -/
theorem rust_go_interoperate (rust : Proc) (go : GoProc) (key : Key)
    (hkey : rust.keyCell = some (some key)) (hcipher : go.cipher = rust.cipher)
    (hcorrect : ∀ k, rust.cipher.Correct k)
    (hoverhead : ∀ k, rust.cipher.Overhead k TinyFrame.tagLen)
    (hgo : Flate.Decodes go.flate rust.flate) (hrust : Flate.Decodes rust.flate go.flate) :
    (∀ (c : WriteCall) (buf : Bytes), c.build rust = .ok buf →
      ∀ rest, (readFrameWithKey go (some key)).run (buf ++ rest)
        = (.ok ⟨c.messageType, c.flags &&& compressMask, isEncrypted c.flags, c.txId, c.data⟩,
            rest)) ∧
    (∀ (c : WriteCall) (w w' : Sink UInt8),
      writeFrameWithKey go c.nonceBytes c.messageType c.txId c.data c.flags (some key) w
        = (.ok (), w') →
      ∃ buf, w'.written = w.written ++ buf ∧
        ∀ rest, (TinyFrame.readFrame rust).run (buf ++ rest)
          = (.ok ⟨c.messageType, c.flags &&& compressMask, isEncrypted c.flags, c.txId, c.data⟩,
              rest)) ∧
    (∀ (c : WriteCall) (w : Sink UInt8), c.flags &&& compressMask = 0 →
      Agrees
        (TinyFrame.writeFrame rust c.nonceBytes c.messageType c.txId c.data c.flags w).1
        (writeFrameWithKey go c.nonceBytes c.messageType c.txId c.data c.flags (some key) w).1 ∧
      (TinyFrame.writeFrame rust c.nonceBytes c.messageType c.txId c.data c.flags w).2
        = (writeFrameWithKey go c.nonceBytes c.messageType c.txId c.data c.flags (some key) w).2) := by
  have hgoProc : ∀ {x : Proc}, x = ⟨go.cipher, go.flate, some (some key)⟩ →
      Reads x rust ∧ Reads rust x := by
    rintro x rfl
    refine ⟨⟨hcipher, hkey.symm, hgo, hcorrect, hoverhead⟩,
      ⟨hcipher.symm, hkey, hrust, ?_, ?_⟩⟩
    · simpa only [hcipher] using hcorrect
    · simpa only [hcipher] using hoverhead
  refine ⟨?_, ?_, ?_⟩
  · intro c buf h
    exact takes_of_rust (TinyFrame.takes_of_build (hgoProc rfl).1 h)
  · intro c w w' h
    rw [writeFrameWithKey] at h
    cases henc : encodeFrame go c.nonceBytes c.messageType c.txId c.data c.flags (some key) with
    | error e =>
        rw [henc] at h
        cases h
    | ok buf =>
        rw [henc] at h
        have hbuild := ((encodeFrame_agrees go key c.nonceBytes c.messageType c.txId c.data
          c.flags).ok_iff buf).mpr henc
        refine ⟨buf, ?_, TinyFrame.takes_of_build (hgoProc rfl).2 hbuild⟩
        exact written_of_write h
  · intro c w h
    have hbuild := buildWireFrame_uncompressed rust.cipher rust.flate go.flate
      rust.keyCell c.nonceBytes c.messageType c.txId c.data h
    have hagree := encodeFrame_agrees go key c.nonceBytes c.messageType c.txId c.data c.flags
    rw [hcipher, ← hkey, ← hbuild] at hagree
    rw [TinyFrame.writeFrame, writeFrameWithKey]
    rcases hagree.cases with ⟨buf, hr, hg⟩ | ⟨e, d, hr, hg⟩
    · rw [hr, hg]
      exact write_agrees w buf
    · rw [hr, hg]
      exact ⟨agrees_error e d, rfl⟩

/-- An encrypted Rust frame and one trailing byte, read by Go. -/
theorem rust_go_interoperate_one :
    (readFrameWithKey ⟨TinyFrame.padCipher, TinyFrame.storeFlate⟩ (some TinyFrame.testKey)).run
      ((28 :: List.replicate 7 0 ++ [99, 0, 29] ++ List.replicate 12 0 ++ [33]
        ++ List.replicate 16 0) ++ [1])
      = (.ok ⟨3, 0, true, 99, [33]⟩, [1]) :=
  (rust_go_interoperate TinyFrame.padProc ⟨TinyFrame.padCipher, TinyFrame.storeFlate⟩
    TinyFrame.testKey rfl rfl TinyFrame.padCipher_correct TinyFrame.padCipher_overhead
    TinyFrame.storeFlate_decodes TinyFrame.storeFlate_decodes).1
    ⟨TinyFrame.zeroNonce, 3, 99, [33], 4⟩ _ rfl [1]

end Proto4.GoTinyframe
