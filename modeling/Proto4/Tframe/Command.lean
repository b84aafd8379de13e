/-
# `Proto4.Tframe.Command` — `tframe get` from its arguments to its output

`main` and `loadManifest` around `doGet`.  What the operating system, `flag`
and `encoding/json` answer is `GoOs`; nothing is assumed of it.

`get_endToEnd` puts a peer with the manifest's key at the other end.  Whatever
that peer has to say, as long as it can write it as a frame, is what comes out
of the command, unless the route asks for a compressed response and the frame
is not compressed: that is the only thing left that can go wrong once
`prepare` accepts, the other refusal of `validateResponseCompression` being one
that `prepare` has already made (`compressing_of_prepare`).  The peer in turn
reads the request as the route's type with nothing in it.
-/
import Proto4.GoTinyframe.Writers
import Proto4.Replies

namespace Proto4.Tframe

open GoTinyframe (GoProc Fault Result Seals err isEncrypted)
open PromProxy (Conn)
open TinyFrame (Key Nonce Proc WriteCall Flate)

/-- What the command is told by the system and by the packages it calls. -/
structure GoOs where
  /-- `flag.Parse`: the value of `-manifest` and the arguments left over, or the
  code the package exits with by itself. -/
  parseFlags : List String → Except Nat (String × List String)
  userHomeDir : Except String String
  joinPath : List String → String
  readFile : String → Except String Bytes
  /-- `json.Unmarshal` into a `manifest`. -/
  unmarshal : Bytes → Except String Manifest

/-- How the command ends: its exit code and what it says on `stderr`. -/
structure Exit where
  code : Nat
  stderr : List String
  deriving DecidableEq

section
variable (os : GoOs) (std : GoStd)

def defaultManifestPath : Except String String :=
  match os.userHomeDir with
  | .error e => .error e
  | .ok home => .ok (os.joinPath [home, ".config", "tframe.json"])

def loadManifest (path : String) : Result Manifest :=
  match os.readFile path with
  | .error e => err s!"read manifest {std.quote path}: {e}"
  | .ok data =>
      match os.unmarshal data with
      | .error e => err s!"parse manifest: {e}"
      | .ok m => if m.api.secretKey = "" then err "manifest api.secretkey is required" else .ok m

/-- The end of a command that met a fault: `main` reports an error and exits
with 1, the runtime reports a panic and exits with 2. -/
def exitOf : Fault → Exit
  | .err message => ⟨1, [s!"tframe: {message}"]⟩
  | .panic message => ⟨2, [s!"panic: {message}"]⟩

/-- `main`; the output is `os.Stdout`, and the connection is answered as the
command leaves it. -/
def main (p : GoProc) (nonce : Nonce) (txID : UInt64) (dial : Except String Conn)
    (args : List String) (out : Sink UInt8) : Exit × Sink UInt8 × Option Conn :=
  match os.parseFlags args with
  | .error code => (⟨code, []⟩, out, none)
  | .ok (manifestPath, ["get", rawURL]) =>
      match (if manifestPath = "" then defaultManifestPath os else .ok manifestPath) with
      | .error e => (⟨1, [s!"tframe: resolve default manifest path: {e}"]⟩, out, none)
      | .ok path =>
          match loadManifest os std path with
          | .error e => (exitOf e, out, none)
          | .ok m =>
              match doGet std p nonce txID dial rawURL m out with
              | (.error e, left) => (exitOf e, left)
              | (.ok (), left) => (⟨0, []⟩, left)
  | .ok _ => (⟨2, ["Usage: tframe get [options] tcp://host:port/path"]⟩, out, none)

variable {os std}

/-! ## What `prepare` accepts -/

/-- **Specification of `prepare`.** -/
theorem prepare_ok_iff {rawURL : String} {m : Manifest} {hostPort : String} {iface : ApiRoute}
    {key : Key} :
    prepare std rawURL m = .ok (hostPort, iface, key) ↔
      ∃ path flag, parseTCPURL std rawURL = .ok (hostPort, path) ∧
        findRoute std m path = .ok iface ∧
        (0 ≤ iface.messageType ∧ iface.messageType ≤ 31) ∧
        parseSecretKey std m = .ok key ∧ compressMethodFlag std m = .ok flag ∧
        (iface.compressed = true → flag ≠ GoTinyframe.compressNone) := by
  constructor
  · intro h
    rw [prepare] at h
    obtain ⟨⟨host, path⟩, hurl, h⟩ := Outcome.bind_ok_iff.mp h
    obtain ⟨iface', hroute, h⟩ := Outcome.bind_ok_iff.mp h
    split at h
    · cases h
    · next hrange =>
        obtain ⟨key', hkey, h⟩ := Outcome.bind_ok_iff.mp h
        obtain ⟨flag, hflag, h⟩ := Outcome.bind_ok_iff.mp h
        split at h
        · cases h
        · next hcompress =>
            obtain ⟨rfl, rfl, rfl⟩ : host = hostPort ∧ iface' = iface ∧ key' = key := by
              simpa using Except.ok.inj h
            refine ⟨path, flag, hurl, hroute, by omega, hkey, hflag, ?_⟩
            intro hc hnone
            exact hcompress ⟨hc, hnone⟩
  · rintro ⟨path, flag, hurl, hroute, hrange, hkey, hflag, hcompress⟩
    rw [prepare]
    refine Outcome.bind_ok_iff.mpr ⟨_, hurl, Outcome.bind_ok_iff.mpr ⟨_, hroute, ?_⟩⟩
    rw [if_neg (by omega)]
    refine Outcome.bind_ok_iff.mpr ⟨_, hkey, Outcome.bind_ok_iff.mpr ⟨_, hflag, ?_⟩⟩
    rw [if_neg fun h => hcompress h.1 h.2]
    rfl

/-- A flag that compresses names a method. -/
theorem method_of_flag {m : Manifest} {flag : UInt8} (h : compressMethodFlag std m = .ok flag)
    (hflag : flag ≠ GoTinyframe.compressNone) :
    ¬ (std.toLower (std.trimSpace m.api.compressMethod) = "" ∨
      std.toLower (std.trimSpace m.api.compressMethod) = "none") := by
  intro hnone
  rw [compressMethodFlag, if_pos hnone] at h
  exact hflag (Except.ok.inj h).symm

/-- What the command says of a response that should have been compressed. -/
def notCompressed (std : GoStd) (iface : ApiRoute) : String :=
  s!"interface {std.quote iface.path} expects compressed response but frame is not compressed"

/-- After `prepare` a response is refused for one reason only. -/
theorem validate_of_prepare {rawURL : String} {m : Manifest} {hostPort : String}
    {iface : ApiRoute} {key : Key} (h : prepare std rawURL m = .ok (hostPort, iface, key))
    (compressFlag : UInt8) :
    validateResponseCompression std iface m.api.compressMethod compressFlag
      = if iface.compressed = true ∧ compressFlag = 0 then err (notCompressed std iface)
        else .ok () := by
  obtain ⟨_, flag, _, _, _, _, hflag, hcompress⟩ := prepare_ok_iff.mp h
  rw [validateResponseCompression]
  cases hc : iface.compressed with
  | false => simp
  | true =>
      simp only [Bool.not_true, Bool.false_eq_true, if_false, true_and,
        if_neg (method_of_flag hflag (hcompress hc))]
      rfl

/-- A type in range is the byte that is sent. -/
theorem type_of_range {n : Int} (h : 0 ≤ n ∧ n ≤ 31) : UInt8.ofNat n.toNat ≤ 31 := by
  rw [UInt8.le_iff_toNat_le, UInt8.toNat_ofNat_of_lt' (by simp; omega)]
  show n.toNat ≤ 31
  omega

/-! ## The exchange -/

/-- The command and a peer that can talk to each other: one key, one cipher that
keeps its laws, and decoders for what the peer compresses. -/
structure Talks (go : GoProc) (peer : Proc) (key : Key) : Prop where
  keyCell : peer.keyCell = some (some key)
  cipher : go.cipher = peer.cipher
  correct : ∀ k, peer.cipher.Correct k
  overhead : ∀ k, peer.cipher.Overhead k TinyFrame.tagLen
  seals : Seals peer.cipher key
  flate : Flate.Decodes go.flate peer.flate

/-- The libraries of the command, as a process that holds the key. -/
def holding (go : GoProc) (key : Key) : Proc := ⟨go.cipher, go.flate, some (some key)⟩

/-- The request goes out whole, and the peer reads it as the route's type with
no data. -/
theorem request_sent {go : GoProc} {peer : Proc} {key : Key} (h : Talks go peer key)
    (nonce : Nonce) (txID : UInt64) {messageType : UInt8} (htype : messageType ≤ 31) :
    ∃ request, (∀ rest, (TinyFrame.readFrame peer).run (request ++ rest)
        = (.ok ⟨messageType, 0, true, txID, []⟩, rest)) ∧
      ∀ w : Sink UInt8, w.room = none →
        GoTinyframe.writeFrame go (some (some key)) nonce messageType txID []
          GoTinyframe.chaCha20Poly1305 w = (.ok (), ⟨w.written ++ request, none⟩) := by
  have hseals : Seals (holding go key).cipher key := by
    show Seals go.cipher key
    rw [h.cipher]
    exact h.seals
  have hrep : GoTinyframe.Representable go.flate messageType GoTinyframe.chaCha20Poly1305 [] :=
    ⟨htype, by decide, by decide, [], rfl, by decide⟩
  obtain ⟨request, hbuild⟩ := (GoTinyframe.build_ok_iff_representable (p := holding go key) rfl
    hseals nonce messageType txID [] GoTinyframe.chaCha20Poly1305).mpr hrep
  have hcorrect : ∀ k, (holding go key).cipher.Correct k := by
    show ∀ k, go.cipher.Correct k
    rw [h.cipher]
    exact h.correct
  have hoverhead : ∀ k, (holding go key).cipher.Overhead k TinyFrame.tagLen := by
    show ∀ k, go.cipher.Overhead k TinyFrame.tagLen
    rw [h.cipher]
    exact h.overhead
  refine ⟨request, ?_, ?_⟩
  · exact TinyFrame.takes_uncompressed rfl hbuild
      (TinyFrame.opens_of_protects h.cipher.symm h.keyCell hcorrect hoverhead)
  · intro w hfree
    have henc := ((GoTinyframe.encodeFrame_agrees go key nonce messageType txID []
      GoTinyframe.chaCha20Poly1305).ok_iff request).mp hbuild
    have hencrypted : isEncrypted GoTinyframe.chaCha20Poly1305 = true := rfl
    simp only [GoTinyframe.writeFrame, hencrypted, if_true, GoTinyframe.requireEncryptKey,
      GoTinyframe.writeFrameWithKey, henc, GoTinyframe.write, Sink.push, hfree]

/-- The frame the peer wrote is the frame the command reads. -/
theorem reply_read {go : GoProc} {peer : Proc} {key : Key} (h : Talks go peer key)
    {c : WriteCall} {buf : Bytes} (hbuf : c.build peer = .ok buf) (rest : Bytes) :
    (GoTinyframe.readFrame go (some (some key))).run (buf ++ rest)
      = (.ok (GoTinyframe.Frame.ofRust c.frame), rest) := by
  have hreads : TinyFrame.Reads (holding go key) peer :=
    ⟨h.cipher, h.keyCell.symm, h.flate, h.correct, h.overhead⟩
  rw [GoTinyframe.readFrame_global]
  exact GoTinyframe.takes_of_rust (TinyFrame.takes_of_build hreads hbuf) rest

/-- The command over a connection to such a peer, from an accepted URL on. -/
theorem doGet_of_talks {go : GoProc} {peer : Proc} {key : Key} (h : Talks go peer key)
    {rawURL : String} {m : Manifest} {hostPort : String} {iface : ApiRoute}
    (hprep : prepare std rawURL m = .ok (hostPort, iface, key)) {c : WriteCall} {buf : Bytes}
    (hbuf : c.build peer = .ok buf) (nonce : Nonce) (txID : UInt64) (rest : Bytes)
    {w out w' : Sink UInt8} (hout : out.room = none)
    (hwrite : GoTinyframe.writeFrame go (some (some key)) nonce
      (UInt8.ofNat iface.messageType.toNat) txID [] GoTinyframe.chaCha20Poly1305 w = (.ok (), w')) :
    doGet std go nonce txID (.ok ⟨w, buf ++ rest⟩) rawURL m out
      = if iface.compressed = true ∧ c.flags &&& TinyFrame.compressMask = 0 then
          (err (notCompressed std iface), out, some ⟨w', rest⟩)
        else (.ok (), ⟨out.written ++ c.data, none⟩, some ⟨w', rest⟩) := by
  have hvalid := validate_of_prepare hprep (GoTinyframe.Frame.ofRust c.frame).compressID
  change validateResponseCompression std iface m.api.compressMethod _
    = if iface.compressed = true ∧ c.flags &&& TinyFrame.compressMask = 0 then _ else _ at hvalid
  by_cases hcompress : iface.compressed = true ∧ c.flags &&& TinyFrame.compressMask = 0
  · rw [if_pos hcompress] at hvalid ⊢
    simp only [doGet, hprep, exchange, hwrite, reply_read h hbuf, hvalid]
    rfl
  · rw [if_neg hcompress] at hvalid ⊢
    simp only [doGet, hprep, exchange, hwrite, reply_read h hbuf, hvalid]
    show (if c.data.length > 0 then _ else _) = _
    split
    · rw [Sink.push, hout]
      rfl
    · next hempty =>
        obtain ⟨written, room⟩ := out
        obtain rfl : room = none := hout
        rw [List.length_eq_zero_iff.mp (Nat.le_zero.mp (Nat.not_lt.mp hempty)), List.append_nil]

/-- **`tframe get`, end to end.**  From any arguments that name a manifest and a
URL which `prepare` accepts, against any peer with the manifest's key that
answers with any frame it can write: the peer reads the request as the route's
type and no data; the command prints the data of the answer and exits with 0,
or, when the route is declared compressed and the answer is not, prints nothing
and exits with 1. -/
theorem get_endToEnd (os : GoOs) (std : GoStd) (go : GoProc) (peer : Proc) (key : Key)
    (h : Talks go peer key) (nonce : Nonce) (txID : UInt64) (args : List String)
    (manifestPath path rawURL : String) (m : Manifest) (hostPort : String) (iface : ApiRoute)
    (hargs : os.parseFlags args = .ok (manifestPath, ["get", rawURL]))
    (hpath : (if manifestPath = "" then defaultManifestPath os else .ok manifestPath) = .ok path)
    (hload : loadManifest os std path = .ok m)
    (hprep : prepare std rawURL m = .ok (hostPort, iface, key))
    (c : WriteCall) (buf rest : Bytes) (hbuf : c.build peer = .ok buf) (w out : Sink UInt8)
    (hw : w.room = none) (hout : out.room = none) :
    ∃ request, (TinyFrame.readFrame peer).run request
        = (.ok ⟨UInt8.ofNat iface.messageType.toNat, 0, true, txID, []⟩, []) ∧
      main os std go nonce txID (.ok ⟨w, buf ++ rest⟩) args out
        = if iface.compressed = true ∧ c.flags &&& TinyFrame.compressMask = 0 then
            (⟨1, [s!"tframe: {notCompressed std iface}"]⟩, out,
              some ⟨⟨w.written ++ request, none⟩, rest⟩)
          else
            (⟨0, []⟩, ⟨out.written ++ c.data, none⟩,
              some ⟨⟨w.written ++ request, none⟩, rest⟩) := by
  obtain ⟨_, _, _, _, hrange, _⟩ := prepare_ok_iff.mp hprep
  obtain ⟨request, hread, hwrite⟩ := request_sent h nonce txID (type_of_range hrange)
  have hget := doGet_of_talks h hprep hbuf nonce txID rest hout (hwrite w hw)
  refine ⟨request, by simpa only [List.append_nil] using hread [], ?_⟩
  by_cases hcompress : iface.compressed = true ∧ c.flags &&& TinyFrame.compressMask = 0
  · rw [if_pos hcompress] at hget ⊢
    simp only [main, hargs, hpath, hload, hget]
    rfl
  · rw [if_neg hcompress] at hget ⊢
    simp only [main, hargs, hpath, hload, hget]

end

/-! A route that is declared compressed, and a compressed answer. -/

def getOs : GoOs where
  parseFlags args := .ok ("", args)
  userHomeDir := .ok "/root"
  joinPath parts := String.intercalate "/" parts
  readFile _ := .ok []
  unmarshal _ := .ok ⟨⟨String.join (List.replicate 32 "42"), "gzip", [⟨1, "/status", true⟩]⟩⟩

theorem pad_talks : Talks ⟨TinyFrame.padCipher, TinyFrame.storeFlate⟩ TinyFrame.padProc
    TinyFrame.testKey where
  keyCell := rfl
  cipher := rfl
  correct := TinyFrame.padCipher_correct
  overhead := TinyFrame.padCipher_overhead
  seals := GoTinyframe.padCipher_seals _
  flate := TinyFrame.storeFlate_decodes

theorem get_endToEnd_compressed : ∃ buf request,
    (TinyFrame.readFrame TinyFrame.padProc).run request = (.ok ⟨1, 0, true, 7, []⟩, []) ∧
    main getOs Replies.ackStd ⟨TinyFrame.padCipher, TinyFrame.storeFlate⟩ TinyFrame.zeroNonce 7
      (.ok ⟨⟨[], none⟩, buf ++ []⟩) ["get", "tcp://127.0.0.1:9100/status"] ⟨[9], none⟩
      = (⟨0, []⟩, ⟨[9, 104, 105], none⟩, some ⟨⟨[] ++ request, none⟩, []⟩) :=
  ⟨_, get_endToEnd getOs Replies.ackStd ⟨TinyFrame.padCipher, TinyFrame.storeFlate⟩
    TinyFrame.padProc TinyFrame.testKey pad_talks TinyFrame.zeroNonce 7
    ["get", "tcp://127.0.0.1:9100/status"] "" "/root/.config/tframe.json"
    "tcp://127.0.0.1:9100/status"
    ⟨⟨String.join (List.replicate 32 "42"), "gzip", [⟨1, "/status", true⟩]⟩⟩ "127.0.0.1:9100"
    ⟨1, "/status", true⟩ rfl rfl rfl rfl ⟨TinyFrame.zeroNonce, 11, 7, [104, 105], 5⟩ _ [] rfl
    ⟨[], none⟩ ⟨[9], none⟩ rfl rfl⟩

end Proto4.Tframe
