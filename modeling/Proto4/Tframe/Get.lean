/-
# `Proto4.Tframe.Get` — the command `tframe get`

`cmd/tframe/client.go` and `cmd/tframe/manifest.go`: look the path of the URL up
in the manifest, send an empty sealed request of the route's type, read one
frame and write its data out.

Parsing of URLs and hexadecimal, trimming, lower case and quoting are Go's own
and pure; nothing is assumed of them, so they are the fields of `GoStd`.
-/
import Proto4.PromProxy.Client

namespace Proto4.Tframe

open GoTinyframe (GoProc Frame Fault Result err)
open PromProxy (Conn wrapErr)
open TinyFrame (Key Nonce)

/-- What `net/url` finds in a URL. -/
structure Url where
  scheme : String
  host : String
  path : String

/-- The functions of Go's standard library the command calls. -/
structure GoStd where
  parseUrl : String → Except String Url
  trimSpace : String → String
  toLower : String → String
  quote : String → String
  decodeHex : String → Except String Bytes

structure ApiRoute where
  messageType : Int
  path : String
  compressed : Bool

structure ApiConfig where
  secretKey : String
  compressMethod : String
  interfaces : List ApiRoute

structure Manifest where
  api : ApiConfig

section
variable (std : GoStd)

/-- `strings.HasPrefix`. -/
def hasPrefix (s text : String) : Bool := text.toList.isPrefixOf s.toList

/-- Host and path of a `tcp://` URL. -/
def parseTCPURL (raw : String) : Result (String × String) :=
  match std.parseUrl raw with
  | .error e => err s!"parse url: {e}"
  | .ok u =>
      if u.scheme ≠ "tcp" then err s!"unsupported scheme {std.quote u.scheme}, expected tcp"
      else if u.host = "" then err "missing host in url"
      else
        let path := if u.path = "" then "/" else u.path
        .ok (u.host, if hasPrefix path "/" then path else "/" ++ path)

def findRoute (m : Manifest) (path : String) : Result ApiRoute :=
  match m.api.interfaces.find? fun iface => iface.path == path with
  | some iface => .ok iface
  | none => err s!"path {std.quote path} not found in manifest interfaces"

def parseSecretKey (m : Manifest) : Result Key :=
  match std.decodeHex (std.trimSpace m.api.secretKey) with
  | .error e => err s!"invalid secretkey hex: {e}"
  | .ok raw =>
      if h : raw.length = TinyFrame.keyLen then .ok ⟨raw, h⟩
      else err s!"secretkey must be 32 bytes (64 hex chars), got {raw.length} bytes"

def compressMethodFlag (m : Manifest) : Result UInt8 :=
  let method := std.toLower (std.trimSpace m.api.compressMethod)
  if method = "" ∨ method = "none" then .ok GoTinyframe.compressNone
  else if method = "gzip" then .ok GoTinyframe.compressGzip
  else if method = "deflate" then .ok GoTinyframe.compressDeflate
  else err s!"unsupported compress_method {std.quote m.api.compressMethod}"

def validateResponseCompression (route : ApiRoute) (compressMethod : String)
    (compressFlag : UInt8) : Result Unit :=
  if !route.compressed then .ok ()
  else
    let method := std.toLower (std.trimSpace compressMethod)
    if method = "" ∨ method = "none" then
      err s!"interface {std.quote route.path} has compressed=true but api.compress_method is not set"
    else if compressFlag = GoTinyframe.compressNone then
      err s!"interface {std.quote route.path} expects compressed response but frame is not compressed"
    else .ok ()

/-- The checks of `doGet` before it connects: the address, the route and the key. -/
def prepare (rawURL : String) (m : Manifest) : Result (String × ApiRoute × Key) := do
  let (hostPort, path) ← parseTCPURL std rawURL
  let iface ← findRoute std m path
  if iface.messageType < 0 ∨ iface.messageType > 31 then
    err s!"message_type {iface.messageType} out of range (0-31)"
  else
    let key ← parseSecretKey std m
    let compressFlag ← compressMethodFlag std m
    if iface.compressed ∧ compressFlag = GoTinyframe.compressNone then
      err s!"interface {std.quote iface.path} has compressed=true but api.compress_method is not set"
    else pure (hostPort, iface, key)

/-- `doGet` from the connection to the data it writes out: the key is set for
the whole package, one request is written and one frame read.  Beside the data
it answers the connection as it leaves it, if there is one. -/
def exchange (p : GoProc) (nonce : Nonce) (txID : UInt64) (m : Manifest) (hostPort : String)
    (iface : ApiRoute) (key : Key) (dial : Except String Conn) : Result Bytes × Option Conn :=
  match dial with
  | .error e => (err s!"connect {hostPort}: {e}", none)
  | .ok conn =>
      match GoTinyframe.writeFrame p (some (some key)) nonce
          (UInt8.ofNat iface.messageType.toNat) txID [] GoTinyframe.chaCha20Poly1305
          conn.request with
      | (.error e, request) => (.error (wrapErr "write request" e), some { conn with request })
      | (.ok (), request) =>
          match (GoTinyframe.readFrame p (some (some key))).run conn.reply with
          | (.error e, reply) => (.error (wrapErr "read response" e), some ⟨request, reply⟩)
          | (.ok frame, reply) =>
              match validateResponseCompression std iface m.api.compressMethod frame.compressID with
              | .error e => (.error e, some ⟨request, reply⟩)
              | .ok () => (.ok frame.data, some ⟨request, reply⟩)

/-- `doGet`; `txID` is drawn at random, `out` takes the data. -/
def doGet (p : GoProc) (nonce : Nonce) (txID : UInt64) (dial : Except String Conn)
    (rawURL : String) (m : Manifest) (out : Sink UInt8) :
    Result Unit × Sink UInt8 × Option Conn :=
  match prepare std rawURL m with
  | .error e => (.error e, out, none)
  | .ok (hostPort, iface, key) =>
      match exchange std p nonce txID m hostPort iface key dial with
      | (.error e, conn) => (.error e, out, conn)
      | (.ok data, conn) =>
          if data.length > 0 then
            match out.push data with
            | (true, out') => (.ok (), out', conn)
            | (false, out') => (err "write output", out', conn)
          else (.ok (), out, conn)

variable {std}

end

end Proto4.Tframe
