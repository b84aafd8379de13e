/-
# `Proto4.PromProxy.Client` — the two clients of the proxy

`src/prom_proxy/client.rs` and `promproxy/client.go`.  A call connects, seals
one request, reads one frame and decides from its type and data alone.  What
the network does with a connection is a `Conn`: the room the peer leaves for
the request, and the bytes that come back, whoever sent them.

The Rust client keeps the key in the process, the Go client in itself.  Both
count transaction ids from one and skip zero on overflow.
-/
import Proto4.GoTinyframe.Interop
import Proto4.PromProxy.Server

namespace Proto4.PromProxy

open Outcome
open TinyFrame (Key Nonce Frame Fault Proc)

/-- A connection, from the client's side. -/
structure Conn where
  request : Sink UInt8
  reply : Bytes

/-! ## Rust -/

structure Client where
  nextTx : UInt64
  messageType : UInt8
  deriving DecidableEq, Repr

def Client.new : Client := ⟨1, msgRemoteWrite⟩

def Client.withMessageType (messageType : UInt8) (c : Client) : Client := { c with messageType }

def Client.nextTxId (c : Client) : UInt64 × Client :=
  (c.nextTx, { c with nextTx := max (c.nextTx + 1) 1 })

inductive ClientError
  | connect
  | tinyFrame (fault : Fault)
  | json
  | protocol (message : String)
  deriving DecidableEq, Repr

def decodeResponse (js : Json) (frame : Frame) : Except ClientError UInt16 :=
  if frame.messageType = msgRemoteWriteAck then
    match js.ack.decode frame.data with
    | none => .error .json
    | some status => .ok status
  else if frame.messageType = msgError then
    match js.errorBody.decode frame.data with
    | none => .error .json
    | some message => .error (.protocol message)
  else .error (.protocol s!"unexpected message_type {frame.messageType}")

/-- `remote_write`; `connect` is the connection, if there is one. -/
def Client.remoteWrite (p : Proc) (js : Json) (nonceBytes : Nonce) (connect : Option Conn)
    (body : Bytes) (c : Client) : Except ClientError UInt16 × Client :=
  let (txId, c') := c.nextTxId
  match connect with
  | none => (.error .connect, c')
  | some conn =>
      match (TinyFrame.writeFrame p nonceBytes c'.messageType txId body
          TinyFrame.chacha20Poly1305 conn.request).1 with
      | .error fault => (.error (.tinyFrame fault), c')
      | .ok () =>
          match ((TinyFrame.readFrame p).run conn.reply).1 with
          | .error fault => (.error (.tinyFrame fault), c')
          | .ok frame => (decodeResponse js frame, c')

/-- `remote_write_blocking`. -/
def Client.remoteWriteBlocking (p : Proc) (js : Json) (nonceBytes : Nonce)
    (connect : Option Conn) (body : Bytes) (c : Client) : Except ClientError UInt16 × Client :=
  let (txId, c') := c.nextTxId
  match connect with
  | none => (.error .connect, c')
  | some conn =>
      match (TinyFrame.writeFrameBlocking p nonceBytes c'.messageType txId body
          TinyFrame.chacha20Poly1305 conn.request).1 with
      | .error fault => (.error (.tinyFrame fault), c')
      | .ok () =>
          match ((TinyFrame.readFrameBlocking p).run conn.reply).1 with
          | .error fault => (.error (.tinyFrame fault), c')
          | .ok frame => (decodeResponse js frame, c')

/-- The two calls are one function. -/
theorem remoteWrite_eq_blocking (p : Proc) (js : Json) (nonceBytes : Nonce)
    (connect : Option Conn) (body : Bytes) (c : Client) :
    c.remoteWriteBlocking p js nonceBytes connect body
      = c.remoteWrite p js nonceBytes connect body := by
  rw [Client.remoteWrite, Client.remoteWriteBlocking]
  rw [TinyFrame.readFrame_eq_blocking]
  rfl

theorem decodeResponse_ok_iff {js : Json} {frame : Frame} {status : UInt16} :
    decodeResponse js frame = .ok status ↔
      frame.messageType = msgRemoteWriteAck ∧ js.ack.decode frame.data = some status := by
  rw [decodeResponse]
  constructor
  · intro h
    split at h
    · next htype =>
        split at h
        · cases h
        · next hdec => exact ⟨htype, hdec.trans (congrArg some (Except.ok.inj h))⟩
    · split at h
      · split at h
        · cases h
        · cases h
      · cases h
  · rintro ⟨htype, hdec⟩
    rw [if_pos htype, hdec]

/-- The fields of `promproxy.Client`. -/
structure GoClient where
  addr : String
  key : Key
  messageType : UInt8
  nextTx : UInt64

def GoClient.nextTxID (c : GoClient) : UInt64 × GoClient :=
  let next := c.nextTx + 1
  (c.nextTx, { c with nextTx := if next = 0 then 1 else next })

/-- `fmt.Errorf("...: %w", err)`; a panic passes through. -/
def wrapErr (text : String) : GoTinyframe.Fault → GoTinyframe.Fault
  | .err message => .err s!"{text}: {message}"
  | .panic message => .panic message

def GoClient.decodeResponse (js : Json) (frame : GoTinyframe.Frame) : GoTinyframe.Result UInt16 :=
  if frame.messageType = msgRemoteWriteAck then
    match js.ack.decode frame.data with
    | none => GoTinyframe.err "promproxy: decode ack"
    | some status => .ok status
  else if frame.messageType = msgError then
    match js.errorBody.decode frame.data with
    | none => GoTinyframe.err "promproxy: decode error"
    | some message => GoTinyframe.err s!"promproxy: {message}"
  else GoTinyframe.err s!"promproxy: unexpected message_type {frame.messageType}"

/-- `RemoteWrite`; `ctxErr` is what `ctx.Err` answers before anything is done. -/
def GoClient.remoteWrite (p : GoTinyframe.GoProc) (js : Json) (nonce : Nonce)
    (ctxErr : Option String) (dial : Except String Conn) (body : Bytes) (c : GoClient) :
    GoTinyframe.Result UInt16 × GoClient :=
  match ctxErr with
  | some message => (GoTinyframe.err message, c)
  | none =>
      match dial with
      | .error message => (GoTinyframe.err s!"promproxy: connect {c.addr}: {message}", c)
      | .ok conn =>
          let (txID, c') := c.nextTxID
          match (GoTinyframe.writeFrameWithKey p nonce c'.messageType txID body
              GoTinyframe.chaCha20Poly1305 (some c'.key) conn.request).1 with
          | .error e => (.error (wrapErr "promproxy: write request" e), c')
          | .ok () =>
              match ((GoTinyframe.readFrameWithKey p (some c'.key)).run conn.reply).1 with
              | .error e => (.error (wrapErr "promproxy: read response" e), c')
              | .ok frame => (GoClient.decodeResponse js frame, c')

/-- The two clients decide alike. -/
theorem decodeResponse_agrees (js : Json) (frame : Frame) :
    Agrees (decodeResponse js frame)
      (GoClient.decodeResponse js (GoTinyframe.Frame.ofRust frame)) := by
  refine Agrees.ite ?_ (Agrees.ite ?_ (agrees_error _ _))
  · show Agrees _ (match js.ack.decode frame.data with
      | none => GoTinyframe.err "promproxy: decode ack"
      | some status => .ok status)
    cases js.ack.decode frame.data with
    | none => exact agrees_error _ _
    | some status => exact agrees_ok status
  · show Agrees _ (match js.errorBody.decode frame.data with
      | none => GoTinyframe.err "promproxy: decode error"
      | some message => GoTinyframe.err s!"promproxy: {message}")
    cases js.errorBody.decode frame.data with
    | none => exact agrees_error _ _
    | some message => exact agrees_error _ _

end Proto4.PromProxy
