/-
# `Proto4.GoTinyframe.Readers` — where the two readers part

On frames that either library wrote the readers agree; this file is about all
byte streams.  Everything up to the decompressor is the same function in both
languages, so they part exactly where the decompressors do
(`readersAgree_iff`): on a gzip payload in which something that matters
follows the first member — the Rust reader stops there, the Go reader
decodes on and refuses what is not a member — and on a deflate stream that
ends early and that the Rust decoder lets pass.

The libraries are described by what they document.  Each has its own way of
taking one gzip member off a payload (`Gunzip`); what is asked of the two is
that they agree on payloads that are one member and nothing else.
-/
import Proto4.GoTinyframe.Interop
import Proto4.TinyFrame.Grammar

namespace Proto4.GoTinyframe

open Outcome
open TinyFrame (Key Cipher Flate Proc OpensTo payloadLength payloadOf splitWire)

/-! ## The decompressors -/

/-- How a library takes one gzip member off the front of a payload: what it takes
is a member by itself, whatever follows. -/
structure Gunzip where
  member : Bytes → Option (Bytes × Bytes)
  cut : ∀ {s out rest}, member s = some (out, rest) →
    ∃ m, s = m ++ rest ∧ m ≠ [] ∧ member m = some (out, [])
  extend : ∀ {m out}, member m = some (out, []) → ∀ rest, member (m ++ rest) = some (out, rest)

theorem Gunzip.shorter (lib : Gunzip) {s out rest : Bytes} (h : lib.member s = some (out, rest)) :
    rest.length < s.length := by
  obtain ⟨m, rfl, hne, _⟩ := lib.cut h
  have := List.length_pos_of_ne_nil hne
  rw [List.length_append]
  omega

/-- `gzip.Reader` in its multistream mode: member after member to the end. -/
def Gunzip.multistream (lib : Gunzip) (s : Bytes) : Option Bytes :=
  match _h : lib.member s with
  | none => none
  | some (out, rest) =>
      if rest = [] then some out
      else (lib.multistream rest).map (out ++ ·)
termination_by s.length
decreasing_by exact lib.shorter ‹_›

theorem Gunzip.multistream_of_member {lib : Gunzip} {s out rest : Bytes}
    (h : lib.member s = some (out, rest)) :
    lib.multistream s = if rest = [] then some out else (lib.multistream rest).map (out ++ ·) := by
  rw [multistream]
  split
  · next hnone => cases h.symm.trans hnone
  · next out' rest' hsome =>
      obtain ⟨rfl, rfl⟩ := Prod.mk.inj (Option.some.inj (h.symm.trans hsome))
      rfl

theorem Gunzip.multistream_of_none {lib : Gunzip} {s : Bytes} (h : lib.member s = none) :
    lib.multistream s = none := by
  rw [multistream]
  split
  · rfl
  · next hsome => cases h.symm.trans hsome

/-- The decompressors as their libraries document them.  Rust decodes the first
gzip member, Go all of them, and they agree on exactly one; a complete deflate
stream they decode alike, and Go fails on an incomplete one. -/
structure Decompressors (rustLib goLib : Gunzip) (complete : Bytes → Bool) (rust go : Flate) :
    Prop where
  rustGzip : ∀ s, rust.gzip.decode s = (rustLib.member s).map Prod.fst
  goGzip : ∀ s, go.gzip.decode s = goLib.multistream s
  single : ∀ s out, rustLib.member s = some (out, []) ↔ goLib.member s = some (out, [])
  deflate : ∀ s, complete s = true → rust.deflate.decode s = go.deflate.decode s
  goTruncated : ∀ s, complete s = false → go.deflate.decode s = none

/-- What a payload must be for the two decoders to make one thing of it: after
the first gzip member there is nothing, or there are members without content;
a deflate stream is complete, or one that the Rust decoder refuses. -/
structure Unambiguous (rustLib goLib : Gunzip) (complete : Bytes → Bool) (rust : Flate)
    (compressID : UInt8) (payload : Bytes) : Prop where
  gzip : compressID = compressGzip → ∀ out rest, rustLib.member payload = some (out, rest) →
    rest = [] ∨ goLib.multistream rest = some []
  deflate : compressID = compressDeflate →
    complete payload = true ∨ rust.deflate.decode payload = none

section
variable {rustLib goLib : Gunzip} {complete : Bytes → Bool} {rust go : Flate}

/-- Who agrees on payloads of one member agrees on the first member of any. -/
theorem member_eq_some (h : Decompressors rustLib goLib complete rust go) {s out rest : Bytes} :
    rustLib.member s = some (out, rest) ↔ goLib.member s = some (out, rest) := by
  constructor
  · intro hm
    obtain ⟨m, rfl, _, hone⟩ := rustLib.cut hm
    exact goLib.extend ((h.single m out).mp hone) rest
  · intro hm
    obtain ⟨m, rfl, _, hone⟩ := goLib.cut hm
    exact rustLib.extend ((h.single m out).mpr hone) rest

theorem member_eq (h : Decompressors rustLib goLib complete rust go) (s : Bytes) :
    goLib.member s = rustLib.member s :=
  Option.ext fun _ => (member_eq_some h).symm

theorem gzip_agrees_iff (h : Decompressors rustLib goLib complete rust go) (payload : Bytes) :
    rust.gzip.decode payload = go.gzip.decode payload ↔
      ∀ out rest, rustLib.member payload = some (out, rest) →
        rest = [] ∨ goLib.multistream rest = some [] := by
  rw [h.rustGzip, h.goGzip]
  cases hm : rustLib.member payload with
  | none =>
      rw [Gunzip.multistream_of_none ((member_eq h payload).trans hm)]
      exact iff_of_true rfl nofun
  | some cut =>
      obtain ⟨out, rest⟩ := cut
      rw [Gunzip.multistream_of_member ((member_eq_some h).mp hm)]
      have hone : (∀ out' rest', some (out, rest) = some (out', rest') →
          rest' = [] ∨ goLib.multistream rest' = some []) ↔
          (rest = [] ∨ goLib.multistream rest = some []) := by
        constructor
        · intro hall
          exact hall out rest rfl
        · rintro hrest out' rest' heq
          obtain ⟨rfl, rfl⟩ := Prod.mk.inj (Option.some.inj heq)
          exact hrest
      rw [hone]
      rcases eq_or_ne rest [] with rfl | hne
      · exact iff_of_true rfl (Or.inl rfl)
      · rw [if_neg hne]
        constructor
        · intro heq
          obtain ⟨more, hmore, happ⟩ := Option.map_eq_some_iff.mp heq.symm
          have hempty : more = [] := List.append_right_eq_self.mp happ
          exact Or.inr (hempty ▸ hmore)
        · rintro (hnil | hmore)
          · exact absurd hnil hne
          · rw [hmore]
            simp

theorem deflate_agrees_iff (h : Decompressors rustLib goLib complete rust go) (payload : Bytes) :
    rust.deflate.decode payload = go.deflate.decode payload ↔
      complete payload = true ∨ rust.deflate.decode payload = none := by
  cases hc : complete payload with
  | true => exact iff_of_true (h.deflate payload hc) (Or.inl rfl)
  | false =>
      rw [h.goTruncated payload hc]
      constructor
      · intro hr
        exact Or.inr hr
      · rintro (hr | hr)
        · cases hr
        · exact hr

theorem ofFlate_ok_congr {x y : Option Bytes} :
    (∀ out, TinyFrame.ofFlate x = .ok out ↔ TinyFrame.ofFlate y = .ok out) ↔ x = y := by
  simp only [TinyFrame.ofFlate_ok_iff]
  exact Option.ext_iff.symm

/-- The decompressing step under the two libraries. -/
theorem decompress_agrees_iff (h : Decompressors rustLib goLib complete rust go)
    (compressID : UInt8) (payload : Bytes) :
    (∀ out, TinyFrame.decompressPayload rust compressID payload = .ok out ↔
        TinyFrame.decompressPayload go compressID payload = .ok out) ↔
      Unambiguous rustLib goLib complete rust compressID payload := by
  simp only [TinyFrame.decompressPayload]
  rcases eq_or_ne compressID compressNone with rfl | h0
  · refine iff_of_true (fun _ => Iff.rfl) ⟨?_, ?_⟩
    · intro heq
      exact absurd heq (by decide)
    · intro heq
      exact absurd heq (by decide)
  rcases eq_or_ne compressID compressGzip with rfl | h1
  · have hgzip := ofFlate_ok_congr.trans (gzip_agrees_iff h payload)
    have hne : compressGzip ≠ compressDeflate := by decide
    refine Iff.trans hgzip
      ⟨fun hall => ⟨fun _ => hall, fun heq => absurd heq hne⟩, fun hu => hu.gzip rfl⟩
  rcases eq_or_ne compressID compressDeflate with rfl | h2
  · have hdeflate := ofFlate_ok_congr.trans (deflate_agrees_iff h payload)
    refine Iff.trans hdeflate
      ⟨fun hall => ⟨fun heq => absurd heq h1, fun _ => hall⟩, fun hu => hu.deflate rfl⟩
  · simp only [if_neg h0, if_neg h1, if_neg h2]
    exact iff_of_true (fun _ => trivial) ⟨fun e => absurd e h1, fun e => absurd e h2⟩

/-! ## The readers -/

/-- A payload opens to one content. -/
theorem opens_unique {p : Proc} {header : UInt8} {txId : UInt64} {flags : UInt8}
    {payload c c' : Bytes} (h : TinyFrame.Opens p header txId flags payload c)
    (h' : TinyFrame.Opens p header txId flags payload c') : c = c' := by
  cases h with
  | clear he =>
      cases h' with
      | clear => rfl
      | sealed _ he' =>
          rw [he] at he'
          cases he'
  | sealed n he hk htag hdec =>
      generalize hpay : n.val ++ _ = payload at h'
      cases h' with
      | clear he' =>
          rw [he] at he'
          cases he'
      | sealed n' he' hk' htag' hdec' =>
          have hn : n.val.length = n'.val.length := n.property.trans n'.property.symm
          obtain ⟨hnn, rfl⟩ := List.append_inj hpay hn
          obtain rfl : n = n' := Subtype.ext hnn
          obtain rfl := Option.some.inj (Option.some.inj (hk.symm.trans hk'))
          exact Option.some.inj (hdec.symm.trans hdec')

/-- The process of the Rust side with the compressors of one library. -/
def rustProc (cipher : Cipher) (key : Key) (fl : Flate) : Proc := ⟨cipher, fl, some (some key)⟩

theorem opens_congr {cipher : Cipher} {key : Key} {fl fl' : Flate} {header : UInt8}
    {txId : UInt64} {flags : UInt8} {payload c : Bytes}
    (h : TinyFrame.Opens (rustProc cipher key fl) header txId flags payload c) :
    TinyFrame.Opens (rustProc cipher key fl') header txId flags payload c := by
  cases h with
  | clear he => exact .clear he
  | sealed n he hk htag hdec => exact .sealed n he hk htag hdec

/-- The parsers over two libraries, on one payload. -/
theorem parse_agrees_iff (h : Decompressors rustLib goLib complete rust go) (cipher : Cipher)
    (key : Key) (header : UInt8) (txId : UInt64) (payload : Bytes) :
    (∀ f, TinyFrame.parseWireFrame (rustProc cipher key rust) header txId payload = .ok f ↔
        TinyFrame.parseWireFrame (rustProc cipher key go) header txId payload = .ok f) ↔
      ∀ opened,
        TinyFrame.Opens (rustProc cipher key rust) header txId (header &&& flagsMask) payload
          opened → Unambiguous rustLib goLib complete rust (header &&& compressMask) opened := by
  simp only [TinyFrame.parseWireFrame_ok_iff]
  constructor
  · intro hall opened hopen
    refine (decompress_agrees_iff h _ opened).mp ?_
    intro out
    constructor
    · intro hout
      obtain ⟨opened', out', hopen', hout', heq⟩ := (hall _).mp ⟨opened, out, hopen, hout, rfl⟩
      obtain rfl := opens_unique hopen (opens_congr hopen')
      obtain rfl : out = out' := congrArg TinyFrame.Frame.data heq
      exact hout'
    · intro hout
      obtain ⟨opened', out', hopen', hout', heq⟩ :=
        (hall _).mpr ⟨opened, out, opens_congr hopen, hout, rfl⟩
      obtain rfl := opens_unique hopen hopen'
      obtain rfl : out = out' := congrArg TinyFrame.Frame.data heq
      exact hout'
  · intro hall f
    constructor
    · rintro ⟨opened, out, hopen, hout, rfl⟩
      have hsame := (decompress_agrees_iff h _ opened).mpr (hall opened hopen)
      exact ⟨opened, out, opens_congr hopen, (hsame out).mp hout, rfl⟩
    · rintro ⟨opened, out, hopen, hout, rfl⟩
      have hsame := (decompress_agrees_iff h _ opened).mpr (hall opened (opens_congr hopen))
      exact ⟨opened, out, opens_congr hopen, (hsame out).mpr hout, rfl⟩

/-- On this stream the two readers both fail or return frames with the same fields. -/
def ReadersAgree (cipher : Cipher) (key : Key) (rust go : Flate) (s : Bytes) : Prop :=
  Agrees (Frame.ofRust <$> ((TinyFrame.readFrame (rustProc cipher key rust)).run s).1)
    ((readFrameWithKey ⟨cipher, go⟩ (some key)).run s).1

theorem ofRust_injective : Function.Injective Frame.ofRust := by
  intro f g h
  cases f
  cases g
  simpa [Frame.ofRust] using h

/-- What a Go reader answers is what a Rust reader over its libraries answers. -/
theorem readersAgree_iff_parse {cipher : Cipher} {key : Key} {rust go : Flate} {s payload rest : Bytes}
    {header : UInt8} {txId : UInt64} (hsplit : splitWire s = some (header, txId, payload, rest)) :
    ReadersAgree cipher key rust go s ↔
      ∀ f, TinyFrame.parseWireFrame (rustProc cipher key rust) header txId payload = .ok f ↔
        TinyFrame.parseWireFrame (rustProc cipher key go) header txId payload = .ok f := by
  have hgo := (openFrame_agrees ⟨cipher, go⟩ key header txId payload).ok_iff
  rw [ReadersAgree, TinyFrame.readFrame_run, hsplit, readFrameWithKey,
    readFrameFrom_of_split _ _ _ hsplit, agrees_iff]
  have hmap : ∀ (x : TinyFrame.Result TinyFrame.Frame) (f : TinyFrame.Frame),
      Frame.ofRust <$> x = .ok (Frame.ofRust f) ↔ x = .ok f := by
    intro x f
    cases x with
    | error e =>
        constructor
        · intro h
          cases h
        · intro h
          cases h
    | ok g =>
        constructor
        · intro h
          rw [ofRust_injective (Except.ok.inj h)]
        · intro h
          rw [h]
          rfl
  have hback : ∀ g : Frame, ∃ f, Frame.ofRust f = g := fun g => ⟨⟨g.messageType, g.compressID,
    g.encrypted, g.txID, g.data⟩, rfl⟩
  constructor
  · intro hall f
    rw [← hmap, ← hmap]
    exact (hall _).trans (hgo _).symm
  · intro hall g
    obtain ⟨f, rfl⟩ := hback g
    refine Iff.trans ?_ (hgo _)
    exact (hmap _ f).trans ((hall f).trans (hmap _ f).symm)

end

/-- **Where the readers agree.**  For every byte stream: exactly when the frame
it starts with, if there is one and it opens, opens to an unambiguous payload. -/
theorem readersAgree_iff (rustLib goLib : Gunzip) (complete : Bytes → Bool) (rust go : Flate)
    (h : Decompressors rustLib goLib complete rust go) (cipher : Cipher) (key : Key) (s : Bytes) :
    ReadersAgree cipher key rust go s ↔
      (11 ≤ s.length → 11 + payloadLength s ≤ s.length →
        ∀ opened, OpensTo (rustProc cipher key rust) key s opened →
          Unambiguous rustLib goLib complete rust (s.headD 0 &&& compressMask) opened) := by
  cases hsplit : splitWire s with
  | none =>
      obtain ⟨e, he⟩ := readFrameFrom_short ⟨cipher, go⟩ (some key) none hsplit
      refine iff_of_true ?_ ?_
      · rw [ReadersAgree, TinyFrame.readFrame_run, hsplit, readFrameWithKey, he]
        exact agrees_error _ e
      · intro hfixed hwhole
        cases hsplit.symm.trans (TinyFrame.splitWire_of_whole hfixed hwhole)
  | some cut =>
      obtain ⟨hfixed, hwhole⟩ := TinyFrame.whole_of_splitWire hsplit
      have hcut := TinyFrame.splitWire_of_whole hfixed hwhole
      rw [readersAgree_iff_parse hcut, parse_agrees_iff h]
      constructor
      · intro hall _ _ opened hopen
        exact hall opened ((TinyFrame.opensTo_iff rfl hfixed hwhole).mp hopen)
      · intro hall opened hopen
        exact hall hfixed hwhole opened ((TinyFrame.opensTo_iff rfl hfixed hwhole).mpr hopen)

/-! A stored gzip member of two bytes, as `gzip` writes it, and one byte after it. -/

/-- The gzip member of `hi`: header, one stored block, checksum and length. -/
def storedMember : Bytes :=
  [31, 139, 8, 0, 0, 0, 0, 0, 0, 255, 1, 2, 0, 253, 255, 104, 105, 172, 42, 147, 216, 2, 0, 0, 0]

/-- A library that knows that member. -/
def storedLib : Gunzip where
  member s := if storedMember.isPrefixOf s then some ([104, 105], s.drop 25) else none
  cut := by
    intro s out rest h
    split at h
    · next hprefix =>
        obtain ⟨rfl, rfl⟩ := Prod.mk.inj (Option.some.inj h)
        obtain ⟨t, rfl⟩ := List.isPrefixOf_iff_prefix.mp hprefix
        exact ⟨storedMember, rfl, List.cons_ne_nil _ _, rfl⟩
    · cases h
  extend := by
    intro m out h rest
    split at h
    · next hprefix =>
        obtain ⟨rfl, hdrop⟩ := Prod.mk.inj (Option.some.inj h)
        obtain ⟨t, rfl⟩ := List.isPrefixOf_iff_prefix.mp hprefix
        obtain rfl : t = [] := hdrop
        rw [List.append_nil, if_pos (List.isPrefixOf_iff_prefix.mpr (List.prefix_append _ _))]
        rfl
    · cases h

def storedRust : Flate :=
  ⟨⟨fun _ => none, fun s => (storedLib.member s).map Prod.fst⟩, ⟨fun _ => none, fun _ => none⟩⟩

def storedGo : Flate := ⟨⟨fun _ => none, storedLib.multistream⟩, ⟨fun _ => none, fun _ => none⟩⟩

/-- Neither side knows a deflate stream. -/
theorem stored_decompressors :
    Decompressors storedLib storedLib (fun _ => false) storedRust storedGo where
  rustGzip _ := rfl
  goGzip _ := rfl
  single _ _ := Iff.rfl
  deflate _ _ := rfl
  goTruncated _ _ := rfl

/-- A plain gzip frame around the member and one byte more. -/
def trailingFrame : Bytes := 1 :: List.replicate 8 0 ++ [0, 26] ++ storedMember ++ [0]

theorem readersAgree_iff_trailing :
    ReadersAgree TinyFrame.padCipher TinyFrame.testKey storedRust storedGo trailingFrame ↔
      (11 ≤ trailingFrame.length → 11 + payloadLength trailingFrame ≤ trailingFrame.length →
        ∀ opened, OpensTo (rustProc TinyFrame.padCipher TinyFrame.testKey storedRust)
          TinyFrame.testKey trailingFrame opened →
          Unambiguous storedLib storedLib (fun _ => false) storedRust
            (trailingFrame.headD 0 &&& compressMask) opened) :=
  readersAgree_iff storedLib storedLib _ storedRust storedGo stored_decompressors _ _ _

/-- **The readers do not always agree.**  Rust reads `hi`, Go refuses the frame. -/
theorem readers_disagree :
    Decompressors storedLib storedLib (fun _ => false) storedRust storedGo ∧
      ¬ ReadersAgree TinyFrame.padCipher TinyFrame.testKey storedRust storedGo trailingFrame := by
  refine ⟨stored_decompressors, ?_⟩
  have hsplit : splitWire trailingFrame = some (1, 0, storedMember ++ [0], []) := by
    decide +kernel
  rw [readersAgree_iff_parse hsplit, parse_agrees_iff stored_decompressors]
  intro hall
  have hmember : storedLib.member (storedMember ++ [0]) = some ([104, 105], [0]) := rfl
  rcases (hall _ (.clear rfl)).gzip rfl _ _ hmember with hnil | hmore
  · cases hnil
  · rw [Gunzip.multistream_of_none rfl] at hmore
    cases hmore

end Proto4.GoTinyframe
