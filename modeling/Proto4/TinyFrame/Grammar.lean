/-
# `Proto4.TinyFrame.Grammar` — what the reader accepts, and how far it reads

The codec from the side of the bytes.  `InGrammar` is the format as its
description gives it: eleven fixed bytes, a payload of the length they name, a
known compression, and a payload that opens and decompresses.  The reader
accepts exactly that (`readFrame_grammar`), consumes exactly the frame whether
it accepts it or not, and never panics once a key is set.

Without compression a frame has one encoding.  What the reader accepted, the
writer writes back byte for byte, provided sealing what was opened gives the
same ciphertext (`build_of_read`).
-/
import Proto4.TinyFrame.RoundTrip

namespace Proto4.TinyFrame

open BigEndian

/-! ## The grammar -/

/-- The length field: the big-endian 16-bit word at offset 9. -/
def payloadLength (s : Bytes) : Nat := (toU16 ((s.drop 9).take 2)).toNat

/-- The payload the length field delimits. -/
def payloadOf (s : Bytes) : Bytes := (s.drop 11).take (payloadLength s)

/-- `OpensTo p key s opened`: the payload itself, or what the AEAD opens its
ciphertext to under the header byte and the eight bytes of the transaction id. -/
def OpensTo (p : Proc) (key : Key) (s opened : Bytes) : Prop :=
  if isEncrypted (s.headD 0) then
    nonceLen + tagLen ≤ payloadLength s ∧ ∃ n : Nonce, n.val = (payloadOf s).take nonceLen ∧
      p.cipher.decrypt key n (s.headD 0 :: (s.drop 1).take 8) ((payloadOf s).drop nonceLen)
        = some opened
  else opened = payloadOf s

/-- The decompressor a compression id names accepts the bytes. -/
def Decompresses (fl : Flate) (compressId : UInt8) (data : Bytes) : Prop :=
  compressId = compressNone ∨
    (compressId = compressGzip ∧ (fl.gzip.decode data).isSome) ∨
    (compressId = compressDeflate ∧ (fl.deflate.decode data).isSome)

/-- The stream starts with a frame. -/
structure InGrammar (p : Proc) (key : Key) (s : Bytes) : Prop where
  fixed : 11 ≤ s.length
  whole : 11 + payloadLength s ≤ s.length
  known : s.headD 0 &&& compressMask ≠ 3
  content : ∃ opened, OpensTo p key s opened ∧ Decompresses p.flate (s.headD 0 &&& compressMask) opened

/-! ## The reader, seen from the grammar -/

/-- The encryption bit of a header is that of its flags. -/
theorem isEncrypted_flagsMask : ∀ header : UInt8,
    isEncrypted (header &&& flagsMask) = isEncrypted header :=
  forall_byte (by decide +kernel)

theorem splitWire_of_whole {s : Bytes} (hfixed : 11 ≤ s.length)
    (hwhole : 11 + payloadLength s ≤ s.length) :
    splitWire s = some (s.headD 0, toU64 ((s.drop 1).take 8), payloadOf s,
      s.drop (11 + payloadLength s)) := by
  rw [splitWire, if_neg (Nat.not_lt.mpr hfixed)]
  exact if_neg (Nat.not_lt.mpr hwhole)

theorem whole_of_splitWire {s : Bytes} {cut : UInt8 × UInt64 × Bytes × Bytes}
    (h : splitWire s = some cut) : 11 ≤ s.length ∧ 11 + payloadLength s ≤ s.length := by
  rw [splitWire] at h
  split at h
  · cases h
  · next hfixed =>
      dsimp only at h
      split at h
      · cases h
      · next hwhole => exact ⟨Nat.not_lt.mp hfixed, Nat.not_lt.mp hwhole⟩

/-- The associated data of a stream's first frame is its first nine bytes. -/
theorem aeadAad_of_whole {s : Bytes} (hfixed : 11 ≤ s.length) :
    aeadAad (s.headD 0) (toU64 ((s.drop 1).take 8)) = s.headD 0 :: (s.drop 1).take 8 := by
  have hlen : ((s.drop 1).take 8).length = 8 := by
    rw [List.length_take, List.length_drop]
    omega
  rw [aeadAad, ofU64_toU64 hlen]

theorem length_payloadOf {s : Bytes} (hwhole : 11 + payloadLength s ≤ s.length) :
    (payloadOf s).length = payloadLength s := by
  rw [payloadOf, List.length_take, List.length_drop]
  omega

theorem opensTo_iff {p : Proc} {key : Key} (hkey : p.keyCell = some (some key)) {s opened : Bytes}
    (hfixed : 11 ≤ s.length) (hwhole : 11 + payloadLength s ≤ s.length) :
    OpensTo p key s opened ↔
      Opens p (s.headD 0) (toU64 ((s.drop 1).take 8)) (s.headD 0 &&& flagsMask) (payloadOf s)
        opened := by
  have hlen := length_payloadOf hwhole
  have haad := aeadAad_of_whole hfixed
  have hbit := isEncrypted_flagsMask (s.headD 0)
  constructor
  · intro h
    rw [OpensTo] at h
    split at h
    · next henc =>
        obtain ⟨hshort, n, hn, hdec⟩ := h
        have hsplit : payloadOf s = n.val ++ (payloadOf s).drop nonceLen := by
          rw [hn, List.take_append_drop]
        rw [hsplit]
        refine .sealed n (hbit.trans henc) hkey ?_ ?_
        · rw [List.length_drop, hlen]
          omega
        · rw [haad]
          exact hdec
    · next hclear =>
        rw [h]
        exact .clear (hbit.trans (Bool.eq_false_iff.mpr hclear))
  · intro h
    generalize hpay : payloadOf s = payload at h
    cases h with
    | clear hclear =>
        rw [OpensTo, if_neg (by rw [← hbit, hclear]; exact Bool.false_ne_true), hpay]
    | @sealed _ ciphertext key' n henc hk htag hdec =>
        obtain rfl : key = key' := by
          rw [hkey] at hk
          exact Option.some.inj (Option.some.inj hk)
        rw [OpensTo, if_pos (hbit.symm.trans henc), hpay, List.take_left' n.property,
          List.drop_left' n.property]
        refine ⟨?_, n, rfl, by rw [← haad]; exact hdec⟩
        rw [← hlen, hpay, List.length_append, n.property]
        omega

theorem decompresses_iff {fl : Flate} {compressId : UInt8} {data : Bytes} :
    Decompresses fl compressId data ↔ ∃ out, decompressPayload fl compressId data = .ok out := by
  have hflate : ∀ o : Option Bytes, o.isSome ↔ ∃ out, ofFlate o = .ok out := by
    intro o
    cases o with
    | none =>
        refine iff_of_false Bool.false_ne_true ?_
        rintro ⟨_, h⟩
        cases h
    | some x => exact iff_of_true rfl ⟨x, rfl⟩
  rw [Decompresses, decompressPayload]
  split
  · next h => exact iff_of_true (Or.inl h) ⟨data, rfl⟩
  · next h0 =>
      split
      · next h =>
          rw [← hflate]
          constructor
          · rintro (h' | ⟨_, h'⟩ | ⟨h', _⟩)
            · exact absurd h' h0
            · exact h'
            · exact absurd (h.symm.trans h') (by decide)
          · intro h'
            exact Or.inr (Or.inl ⟨h, h'⟩)
      · next h1 =>
          split
          · next h =>
              rw [← hflate]
              constructor
              · rintro (h' | ⟨h', _⟩ | ⟨_, h'⟩)
                · exact absurd h' h0
                · exact absurd h' h1
                · exact h'
              · intro h'
                exact Or.inr (Or.inr ⟨h, h'⟩)
          · next h2 =>
              refine iff_of_false ?_ ?_
              · rintro (h' | ⟨h', _⟩ | ⟨h', _⟩)
                · exact h0 h'
                · exact h1 h'
                · exact h2 h'
              · rintro ⟨_, h⟩
                cases h

/-- On a whole frame the reader answers what the parser does and stops right after it. -/
theorem readFrame_whole (p : Proc) {s : Bytes} (hfixed : 11 ≤ s.length)
    (hwhole : 11 + payloadLength s ≤ s.length) :
    (readFrame p).run s
      = (parseWireFrame p (s.headD 0) (toU64 ((s.drop 1).take 8)) (payloadOf s),
        s.drop (11 + payloadLength s)) := by
  rw [readFrame_run, splitWire_of_whole hfixed hwhole]

/-- **The accepted streams.** -/
theorem readFrame_accepts_iff {p : Proc} {key : Key} (hkey : p.keyCell = some (some key))
    {s : Bytes} : (∃ f rest, (readFrame p).run s = (.ok f, rest)) ↔ InGrammar p key s := by
  constructor
  · rintro ⟨f, rest, h⟩
    obtain ⟨header, txId, payload, hle, heq, hparse⟩ := readFrame_ok_iff.mp h
    obtain ⟨hfixed, hwhole⟩ := whole_of_splitWire (splitWire_eq_some.mpr ⟨hle, heq⟩)
    rw [readFrame_whole p hfixed hwhole] at h
    obtain ⟨opened, data, hopen, hdata, _⟩ := parseWireFrame_ok_iff.mp (Prod.mk.inj h).1
    exact ⟨hfixed, hwhole, ne_three_of_decompress hdata,
      opened, (opensTo_iff hkey hfixed hwhole).mpr hopen, decompresses_iff.mpr ⟨data, hdata⟩⟩
  · rintro ⟨hfixed, hwhole, _, opened, hopen, hdec⟩
    obtain ⟨data, hdata⟩ := decompresses_iff.mp hdec
    have hparse : ∃ f, parseWireFrame p (s.headD 0) (toU64 ((s.drop 1).take 8)) (payloadOf s)
        = .ok f :=
      ⟨_, parseWireFrame_ok_iff.mpr
        ⟨opened, data, (opensTo_iff hkey hfixed hwhole).mp hopen, hdata, rfl⟩⟩
    obtain ⟨f, hf⟩ := hparse
    exact ⟨f, _, by rw [readFrame_whole p hfixed hwhole, hf]⟩

/-! ## Nothing panics -/

theorem decompressPayload_no_panic {fl : Flate} {compressId : UInt8} {data : Bytes}
    {message : String} : decompressPayload fl compressId data ≠ .error (.panic message) := by
  have hflate : ∀ o : Option Bytes, ofFlate o ≠ .error (.panic message) := by
    intro o h
    cases o with
    | none => cases h
    | some x => cases h
  rw [decompressPayload]
  split
  · intro h
    cases h
  · split
    · exact hflate _
    · split
      · exact hflate _
      · intro h
        cases h

theorem decryptPayload_no_panic {cipher : Cipher} {key : Key} {aad payload : Bytes}
    {message : String} : decryptPayload cipher key aad payload ≠ .error (.panic message) := by
  rw [decryptPayload]
  split
  · intro h
    cases h
  · dsimp only
    split
    · intro h
      cases h
    · intro h
      cases h

/-- With a key set, every parse ends in a frame or an `io::Error`. -/
theorem parseWireFrame_no_panic {p : Proc} {key : Key} (hkey : p.keyCell = some (some key))
    {header : UInt8} {txId : UInt64} {payload : Bytes} {message : String} :
    parseWireFrame p header txId payload ≠ .error (.panic message) := by
  intro h
  simp only [parseWireFrame] at h
  rcases Outcome.bind_error_iff.mp h with hopen | ⟨opened, _, h⟩
  · split at hopen
    · rw [hkey] at hopen
      exact decryptPayload_no_panic hopen
    · cases hopen
  · rcases Outcome.bind_error_iff.mp h with hdata | ⟨_, _, h⟩
    · exact decompressPayload_no_panic hdata
    · cases h

theorem readFrame_no_panic {p : Proc} {key : Key} (hkey : p.keyCell = some (some key))
    (s : Bytes) (message : String) (rest : Bytes) :
    (readFrame p).run s ≠ (.error (.panic message), rest) := by
  intro h
  rw [readFrame_run] at h
  cases hs : splitWire s with
  | none =>
      rw [hs] at h
      cases h
  | some cut =>
      rw [hs] at h
      exact parseWireFrame_no_panic hkey (Prod.mk.inj h).1

/-- **The reader accepts exactly the grammar and stays in sync.**  Both readers
return a frame exactly on the streams that start with one; where the stream
holds the bytes the length field names, exactly these are consumed, accepted or
not; and with a key set no stream makes either panic. -/
theorem readFrame_grammar (p : Proc) (key : Key) (hkey : p.keyCell = some (some key))
    (s : Bytes) :
    ∀ reader, reader = readFrame p ∨ reader = readFrameBlocking p →
      ((∃ f rest, reader.run s = (.ok f, rest)) ↔ InGrammar p key s) ∧
      (11 ≤ s.length → 11 + payloadLength s ≤ s.length →
        (reader.run s).2 = s.drop (11 + payloadLength s)) ∧
      ∀ message rest, reader.run s ≠ (.error (.panic message), rest) := by
  intro reader hreader
  obtain rfl : reader = readFrame p := by
    rcases hreader with h | h
    · exact h
    · exact h.trans (readFrame_eq_blocking p).symm
  refine ⟨readFrame_accepts_iff hkey, ?_, readFrame_no_panic hkey s⟩
  intro hfixed hwhole
  rw [readFrame_whole p hfixed hwhole]

/-- An encrypted frame of two payload bytes is refused, and the byte after it is next. -/
theorem readFrame_grammar_refused :
    ((readFrame padProc).run (4 :: List.replicate 8 0 ++ [0, 2, 1, 2] ++ [9])).2 = [9] :=
  (readFrame_grammar padProc testKey rfl (4 :: List.replicate 8 0 ++ [0, 2, 1, 2] ++ [9]) _
    (Or.inl rfl)).2.1 (by decide) (by decide)

/-! ## Encoding undoes decoding -/

/-- The flags a frame was read under. -/
def flagsOf (f : Frame) : UInt8 :=
  f.compressId ||| (if f.encrypted then chacha20Poly1305 else compressNone)

theorem flags_of_header : ∀ header : UInt8,
    (header &&& compressMask) |||
        (if isEncrypted (header &&& flagsMask) then chacha20Poly1305 else compressNone)
      = header &&& flagsMask :=
  forall_byte (by decide +kernel)

theorem drop_wireBytes (header : UInt8) (txId : UInt64) (payload : Bytes) :
    (wireBytes header txId payload).drop 11 = payload := by
  refine List.drop_left' ?_
  simp

/-- Sealing what was opened gives the payload back, under the nonce it starts with. -/
theorem protects_of_opens {p : Proc}
    (hseal : ∀ key n a c m, p.cipher.decrypt key n a c = some m →
      p.cipher.encrypt key n a m = some c)
    {header flags : UInt8} {txId : UInt64} {payload opened : Bytes}
    (h : Opens p header txId flags payload opened) {nonceBytes : Nonce}
    (hnonce : isEncrypted flags = true → nonceBytes.val = payload.take nonceLen) :
    Protects p nonceBytes header txId flags opened payload := by
  cases h with
  | clear he => exact .clear he
  | @sealed _ ciphertext key n he hk htag hdec =>
      obtain rfl : nonceBytes = n := by
        apply Subtype.ext
        rw [hnonce he, List.take_left' n.property]
      exact .sealed he hk (hseal _ _ _ _ _ hdec)

/-- What the header of an accepted frame was packed from, and the layout of its bytes. -/
theorem layout_of_read {p : Proc} {s rest : Bytes} {f : Frame}
    (h : (readFrame p).run s = (.ok f, rest)) :
    ∃ header payload, s = wireBytes header f.txId payload ++ rest ∧ payload.length ≤ 0xffff ∧
      packHeaderByte f.messageType (flagsOf f) = .ok header ∧
      f.encrypted = isEncrypted (flagsOf f) ∧ f.compressId = flagsOf f &&& compressMask ∧
      ∃ opened, Opens p header f.txId (flagsOf f) payload opened ∧
        decompressPayload p.flate f.compressId opened = .ok f.data := by
  obtain ⟨header, txId, payload, hle, heq, hparse⟩ := readFrame_ok_iff.mp h
  obtain ⟨opened, data, hopen, hdata, rfl⟩ := parseWireFrame_ok_iff.mp hparse
  have hflags : flagsOf ⟨header >>> 3, header &&& compressMask,
      isEncrypted (header &&& flagsMask), txId, data⟩ = header &&& flagsMask :=
    flags_of_header header
  refine ⟨header, payload, heq, hle, ?_, ?_, ?_, opened, ?_, hdata⟩
  · rw [hflags]
    exact packHeaderByte_of_header (ne_three_of_decompress hdata)
  · rw [hflags]
  · rw [hflags, compressMask_flagsMask]
  · rw [hflags]
    exact hopen

/-- An uncompressed frame is rebuilt from its fields and its nonce. -/
theorem rebuild_of_read {p : Proc}
    (hseal : ∀ key n a c m, p.cipher.decrypt key n a c = some m →
      p.cipher.encrypt key n a m = some c)
    {s rest : Bytes} {f : Frame} (h : (readFrame p).run s = (.ok f, rest))
    (hplain : f.compressId = compressNone) :
    ∃ c, s = c ++ rest ∧ ∀ nonceBytes : Nonce,
      (f.encrypted = true → nonceBytes.val = (c.drop 11).take nonceLen) →
      buildWireFrame p nonceBytes f.messageType f.txId f.data (flagsOf f) = .ok c := by
  obtain ⟨header, payload, heq, hle, hpack, henc, hid, opened, hopen, hdata⟩ := layout_of_read h
  have hsame : opened = f.data := by
    rw [hplain] at hdata
    exact Except.ok.inj hdata
  refine ⟨wireBytes header f.txId payload, heq, ?_⟩
  intro nonceBytes hnonce
  rw [drop_wireBytes] at hnonce
  refine buildWireFrame_ok_iff.mpr ⟨header, f.data, payload, hpack, ?_, ?_, hle, rfl⟩
  · rw [← hid, hplain]
    rfl
  · rw [hsame] at hopen
    refine protects_of_opens hseal hopen ?_
    rw [← henc]
    exact hnonce

/-- **Encoding undoes decoding.**  An uncompressed frame that was read is
written back as the very bytes it was read from; so a plain uncompressed frame
has one encoding; and a frame of any kind carries a type and flags that the
writer packs, in a payload of a length that the writer admits. -/
theorem build_of_read (p : Proc)
    (hseal : ∀ key n a c m, p.cipher.decrypt key n a c = some m →
      p.cipher.encrypt key n a m = some c) :
    (∀ s rest f, (readFrame p).run s = (.ok f, rest) → f.compressId = compressNone →
      ∃ c, s = c ++ rest ∧ ∀ nonceBytes : Nonce,
        (f.encrypted = true → nonceBytes.val = (c.drop 11).take nonceLen) →
        buildWireFrame p nonceBytes f.messageType f.txId f.data (flagsOf f) = .ok c) ∧
    (∀ c c' rest rest' f, (readFrame p).run (c ++ rest) = (.ok f, rest) →
      (readFrame p).run (c' ++ rest') = (.ok f, rest') →
      f.compressId = compressNone → f.encrypted = false → c = c') ∧
    (∀ s rest f, (readFrame p).run s = (.ok f, rest) →
      f.messageType ≤ 31 ∧ flagsOf f ≤ 7 ∧ flagsOf f &&& compressMask ≠ 3 ∧
      ∃ header payload, s = wireBytes header f.txId payload ++ rest ∧
        packHeaderByte f.messageType (flagsOf f) = .ok header ∧ payload.length ≤ 0xffff ∧
        (f.encrypted = true → nonceLen + tagLen ≤ payload.length)) := by
  refine ⟨fun s rest f h hplain => rebuild_of_read hseal h hplain, ?_, ?_⟩
  · intro c c' rest rest' f h h' hplain hclear
    obtain ⟨b, hb, hbuild⟩ := rebuild_of_read hseal h hplain
    obtain ⟨b', hb', hbuild'⟩ := rebuild_of_read hseal h' hplain
    have hno : f.encrypted ≠ true := by
      rw [hclear]
      exact Bool.false_ne_true
    have hsame : b = b' := Except.ok.inj
      ((hbuild (ByteArr.fill nonceLen 0) fun e => absurd e hno).symm.trans
        (hbuild' (ByteArr.fill nonceLen 0) fun e => absurd e hno))
    rw [List.append_cancel_right hb, List.append_cancel_right hb', hsame]
  · intro s rest f h
    obtain ⟨header, payload, heq, hle, hpack, henc, _, opened, hopen, _⟩ := layout_of_read h
    obtain ⟨hm, hf, hc, _⟩ := packHeaderByte_ok_iff.mp hpack
    refine ⟨hm, hf, hc, header, payload, heq, hpack, hle, ?_⟩
    intro hsealed
    cases hopen with
    | clear hclear =>
        rw [henc, hclear] at hsealed
        exact absurd hsealed Bool.false_ne_true
    | @sealed _ ciphertext key n _ _ htag _ =>
        rw [List.length_append, n.property]
        omega

/-- `padCipher` that looks at its padding: what it opens, it seals back. -/
def checkedPadCipher : Cipher where
  encrypt _ _ _ m := some (m ++ List.replicate tagLen 0)
  decrypt _ _ _ c :=
    if c = c.take (c.length - tagLen) ++ List.replicate tagLen 0 then
      some (c.take (c.length - tagLen))
    else none

theorem checkedPadCipher_seals (key : Key) (n : Nonce) (a c m : Bytes)
    (h : checkedPadCipher.decrypt key n a c = some m) :
    checkedPadCipher.encrypt key n a m = some c := by
  simp only [checkedPadCipher] at h ⊢
  split at h
  · next hc => rw [← Option.some.inj h, ← hc]
  · cases h

def checkedPadProc : Proc := ⟨checkedPadCipher, storeFlate, some (some testKey)⟩

/-- One encrypted frame, read and written back under its own nonce. -/
theorem build_of_read_one :
    ∃ c, (28 :: List.replicate 7 0 ++ [99, 0, 29] ++ List.replicate 12 5 ++ [33]
        ++ List.replicate 16 0) ++ [1] = c ++ [1] ∧
      ∀ nonceBytes : Nonce, (true = true → nonceBytes.val = (c.drop 11).take nonceLen) →
        buildWireFrame checkedPadProc nonceBytes 3 99 [33] 4 = .ok c :=
  (build_of_read checkedPadProc checkedPadCipher_seals).1 _ [1] ⟨3, 0, true, 99, [33]⟩ rfl rfl

end Proto4.TinyFrame
