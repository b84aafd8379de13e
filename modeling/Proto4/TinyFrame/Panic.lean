/-
# `Proto4.TinyFrame.Panic` — which calls of the codec panic

`require_encrypt_key` panics while the process has no key, and both directions
call it when the encryption bit is set.  A writer sets that bit itself; a reader
finds it in the stream, so which of its calls panic is up to whoever wrote the
stream (`noPanic_readFrame_iff`).
-/
import Proto4.TinyFrame.Wire

namespace Proto4.TinyFrame

def NoPanic {α : Type} (r : Result α) : Prop := ∀ message, r ≠ .error (.panic message)

section
variable {α β : Type}

theorem noPanic_ok (a : α) : NoPanic (.ok a : Result α) := fun _ h => by cases h

theorem noPanic_io (kind : ErrorKind) (message : String) :
    NoPanic (.error (.io kind message) : Result α) := fun _ h => by cases h

theorem noPanic_ite {c : Prop} [Decidable c] {r r' : Result α} (h : NoPanic r) (h' : NoPanic r') :
    NoPanic (if c then r else r') := by
  split
  · exact h
  · exact h'

/-- A sequence panics in its first half or in its second. -/
theorem noPanic_bind_iff {r : Result α} {f : α → Result β} :
    NoPanic (r >>= f) ↔ NoPanic r ∧ ∀ a, r = .ok a → NoPanic (f a) := by
  cases r with
  | error e =>
      refine ⟨fun h => ⟨fun message he => h message ?_, fun a ha => by cases ha⟩, fun h => ?_⟩
      · rw [Except.error.inj he]
        rfl
      · intro message he
        exact h.1 message (congrArg _ (Except.error.inj he))
  | ok a =>
      refine ⟨fun h => ⟨noPanic_ok a, fun b hb => ?_⟩, fun h => h.2 a rfl⟩
      obtain rfl := Except.ok.inj hb
      exact h

end

/-! ## The parts -/

theorem noPanic_ofFlate {α : Type} (o : Option α) : NoPanic (ofFlate o) := by
  cases o with
  | none => exact noPanic_io _ _
  | some a => exact noPanic_ok a

theorem noPanic_compressPayload (fl : Flate) (compressId : UInt8) (data : Bytes) :
    NoPanic (compressPayload fl compressId data) :=
  noPanic_ite (noPanic_ok data) (noPanic_ite (noPanic_ofFlate _)
    (noPanic_ite (noPanic_ofFlate _) (noPanic_io _ _)))

theorem noPanic_decompressPayload (fl : Flate) (compressId : UInt8) (data : Bytes) :
    NoPanic (decompressPayload fl compressId data) :=
  noPanic_ite (noPanic_ok data) (noPanic_ite (noPanic_ofFlate _)
    (noPanic_ite (noPanic_ofFlate _) (noPanic_io _ _)))

theorem noPanic_decryptPayload (cipher : Cipher) (key : Key) (aad payload : Bytes) :
    NoPanic (decryptPayload cipher key aad payload) := by
  rw [decryptPayload]
  split
  · exact noPanic_io _ _
  · dsimp only
    split
    · exact noPanic_ok _
    · exact noPanic_io _ _

theorem noPanic_packHeaderByte (messageType flags : UInt8) :
    NoPanic (packHeaderByte messageType flags) :=
  noPanic_ite (noPanic_io _ _) (noPanic_ite (noPanic_io _ _)
    (noPanic_ite (noPanic_ok _) (noPanic_io _ _)))

/-- Only a key that is set is found without a panic. -/
theorem noPanic_requireEncryptKey_iff {cell : KeyCell} :
    NoPanic (requireEncryptKey cell) ↔ ∃ key, cell = some (some key) := by
  match cell with
  | none => exact ⟨fun h => absurd rfl (h _), by rintro ⟨_, h⟩; cases h⟩
  | some none => exact ⟨fun h => absurd rfl (h _), by rintro ⟨_, h⟩; cases h⟩
  | some (some key) => exact iff_of_true (noPanic_ok key) ⟨key, rfl⟩

/-! ## Reading -/

/-- The stream starts with a whole frame whose encryption bit is set. -/
def StartsEncrypted (s : Bytes) : Prop :=
  ∃ header txId payload rest, splitWire s = some (header, txId, payload, rest) ∧
    isEncrypted (header &&& flagsMask) = true

theorem noPanic_parseWireFrame_iff {p : Proc} {header : UInt8} {txId : UInt64} {payload : Bytes} :
    NoPanic (parseWireFrame p header txId payload) ↔
      isEncrypted (header &&& flagsMask) = true → ∃ key, p.keyCell = some (some key) := by
  have hrest : ∀ opened : Bytes, NoPanic (do
      let data ← decompressPayload p.flate (header &&& flagsMask &&& compressMask) opened
      pure (⟨header >>> 3, header &&& flagsMask &&& compressMask,
        isEncrypted (header &&& flagsMask), txId, data⟩ : Frame)) := fun opened =>
    noPanic_bind_iff.mpr ⟨noPanic_decompressPayload _ _ _, fun _ _ => noPanic_ok _⟩
  refine noPanic_bind_iff.trans ((and_iff_left fun opened _ => hrest opened).trans ?_)
  cases isEncrypted (header &&& flagsMask) with
  | false => exact iff_of_true (noPanic_ok payload) fun h => by cases h
  | true =>
      have hkey := noPanic_bind_iff.trans
        (and_iff_left fun (key : Key) (_ : requireEncryptKey p.keyCell = .ok key) =>
          noPanic_decryptPayload p.cipher key (aeadAad header txId) payload)
      exact hkey.trans (noPanic_requireEncryptKey_iff.trans ⟨fun h _ => h, fun h => h rfl⟩)

/-- **Reading panics exactly at an encrypted frame without a key.** -/
theorem noPanic_readFrame_iff {p : Proc} {s : Bytes} :
    NoPanic ((readFrame p).run s).1 ↔
      StartsEncrypted s → ∃ key, p.keyCell = some (some key) := by
  rw [readFrame_run]
  cases hsplit : splitWire s with
  | none =>
      refine iff_of_true (noPanic_io _ _) ?_
      rintro ⟨header, txId, payload, rest, h, _⟩
      cases hsplit.symm.trans h
  | some cut =>
      obtain ⟨header, txId, payload, rest⟩ := cut
      refine noPanic_parseWireFrame_iff.trans ⟨?_, ?_⟩
      · rintro h ⟨_, _, _, _, hcut, henc⟩
        obtain ⟨rfl, _⟩ := Prod.mk.inj (Option.some.inj (hsplit.symm.trans hcut))
        exact h henc
      · intro h henc
        exact h ⟨header, txId, payload, rest, hsplit, henc⟩

/-! ## Writing -/

theorem noPanic_writeAll (w : Sink UInt8) (buf : Bytes) : NoPanic (writeAll w buf).1 := by
  rw [writeAll]
  cases w.push buf with
  | mk done w' =>
      cases done with
      | true => exact noPanic_ok _
      | false => exact noPanic_io _ _

/-- A plain frame is written without the key. -/
theorem noPanic_writeFramePlain (p : Proc) (nonceBytes : Nonce) (messageType : UInt8)
    (txId : UInt64) (data : Bytes) (w : Sink UInt8) :
    NoPanic (writeFramePlain p nonceBytes messageType txId data w).1 := by
  have hplain : isEncrypted compressNone = false := by decide
  have hbuild : NoPanic (buildWireFrame p nonceBytes messageType txId data compressNone) := by
    rw [buildWireFrame, hplain]
    refine noPanic_bind_iff.mpr ⟨noPanic_packHeaderByte _ _, fun header _ => ?_⟩
    refine noPanic_bind_iff.mpr ⟨noPanic_compressPayload _ _ _, fun compressed _ => ?_⟩
    refine noPanic_bind_iff.mpr ⟨noPanic_ok _, fun payload _ => ?_⟩
    exact noPanic_ite (noPanic_io _ _) (noPanic_ok _)
  rw [writeFramePlain, writeFrame]
  cases hb : buildWireFrame p nonceBytes messageType txId data compressNone with
  | error e =>
      intro message h
      rw [hb] at hbuild
      exact hbuild message (congrArg Except.error (Except.error.inj h))
  | ok buf => exact noPanic_writeAll w buf

end Proto4.TinyFrame
