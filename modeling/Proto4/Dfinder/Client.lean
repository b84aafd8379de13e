/-
# `Proto4.Dfinder.Client` — the client, and what a peer can make panic

`src/dfinder/client.rs`.  A call sends one plain frame and reads one frame; the
answer to a query is filtered once more by a check of the client's own.

Everything either side of dfinder writes is plain and neither sets a key, but
both read with `read_frame`, which wants the key as soon as the other side sets
the encryption bit.  `peer_noPanic_iff` says for which keys and which received
bytes no endpoint panics.
-/
import Proto4.Dfinder.Connection
import Proto4.TinyFrame.Panic

namespace Proto4.Dfinder

open TinyFrame (Proc Nonce Frame NoPanic StartsEncrypted readFrame writeFramePlain)

/-- A connection, from the client's side: the room the peer leaves for the
request, and the bytes it sends back. -/
structure Conn where
  request : Sink UInt8
  reply : Bytes

inductive ClientError
  | connect
  | tinyFrame (fault : TinyFrame.Fault)
  | json
  | protocol (message : String)
  deriving DecidableEq, Repr

structure Client (E : Type) where
  healthCheck : NodeInfo E → Bool
  nextTx : UInt64

section
variable {E : Type} (sd : Serde E)

def Client.new (healthCheck : NodeInfo E → Bool) : Client E := ⟨healthCheck, 1⟩

def Client.nextTxId (c : Client E) : UInt64 × Client E :=
  (c.nextTx, { c with nextTx := max (c.nextTx + 1) 1 })

/-- A request sent and the frame that comes back; `body` is its JSON, if it can
be written. -/
def roundTrip (p : Proc) (nonceBytes : Nonce) (connect : Option Conn) (messageType : UInt8)
    (txId : UInt64) (body : Option Bytes) : Except ClientError Frame :=
  match connect with
  | none => .error .connect
  | some conn =>
      match body with
      | none => .error .json
      | some body =>
          match (writeFramePlain p nonceBytes messageType txId body conn.request).1 with
          | .error fault => .error (.tinyFrame fault)
          | .ok () =>
              match ((readFrame p).run conn.reply).1 with
              | .error fault => .error (.tinyFrame fault)
              | .ok frame => .ok frame

/-- The message of an error frame. -/
def protocolError {α : Type} (frame : Frame) : Except ClientError α :=
  match sd.errorBody.decode frame.data with
  | none => .error .json
  | some body => .error (.protocol body.message)

def decodeRegisterAck (frame : Frame) : Except ClientError Unit :=
  if frame.messageType = msgRegisterAck then .ok ()
  else if frame.messageType = msgError then protocolError sd frame
  else .error (.protocol s!"unexpected message_type {frame.messageType}")

def decodeQueryResult (frame : Frame) : Except ClientError (List (NodeInfo E)) :=
  if frame.messageType = msgQueryResult then
    match sd.queryResult.decode frame.data with
    | none => .error .json
    | some result => .ok result.nodes
  else if frame.messageType = msgError then protocolError sd frame
  else .error (.protocol s!"unexpected message_type {frame.messageType}")

/-- `register`. -/
def Client.register (p : Proc) (nonceBytes : Nonce) (connect : Option Conn) (port : UInt16)
    (labels : List String) (extra : E) (c : Client E) : Except ClientError Unit × Client E :=
  if labels.isEmpty then (.error (.protocol "register requires >= 1 label"), c)
  else
    let (txId, c') := c.nextTxId
    match roundTrip p nonceBytes connect msgRegister txId
        (sd.registerRequest.encode ⟨port, labels, extra⟩) with
    | .error e => (.error e, c')
    | .ok frame => (decodeRegisterAck sd frame, c')

/-- `query_healthy`: what the registry lists, as far as the client's own check
agrees. -/
def Client.queryHealthy (p : Proc) (nonceBytes : Nonce) (connect : Option Conn)
    (labels : List String) (c : Client E) :
    Except ClientError (List (NodeInfo E)) × Client E :=
  if labels.isEmpty then (.error (.protocol "query requires >= 1 label"), c)
  else
    let (txId, c') := c.nextTxId
    match roundTrip p nonceBytes connect msgQuery txId (sd.queryRequest.encode ⟨labels⟩) with
    | .error e => (.error e, c')
    | .ok frame => ((decodeQueryResult sd frame).map fun nodes => nodes.filter c'.healthCheck, c')

/-! ## What a peer can make panic -/

/-- No endpoint panics when the peer sends `stream`, whatever else goes on. -/
structure PeerSafe (p : Proc) (stream : Bytes) : Prop where
  server : ∀ nonceBytes peer fault nowSecs now g w message,
    (handleConn sd p nonceBytes peer stream fault nowSecs now g w).result
      ≠ .error (.tinyFrame (.panic message))
  register : ∀ (c : Client E) nonceBytes request port labels extra message,
    (c.register sd p nonceBytes (some ⟨request, stream⟩) port labels extra).1
      ≠ .error (.tinyFrame (.panic message))
  queryHealthy : ∀ (c : Client E) nonceBytes request labels message,
    (c.queryHealthy sd p nonceBytes (some ⟨request, stream⟩) labels).1
      ≠ .error (.tinyFrame (.panic message))

variable {sd} {p : Proc} {stream : Bytes}

/-- A connection panics where reading its frame does: the reply is plain. -/
theorem handleConn_ne_panic (h : NoPanic ((readFrame p).run stream).1) (nonceBytes : Nonce)
    (peer : String) (fault : Option StoreError) (nowSecs : Int) (now : Instant) (g : Inner)
    (w : Sink UInt8) (message : String) :
    (handleConn sd p nonceBytes peer stream fault nowSecs now g w).result
      ≠ .error (.tinyFrame (.panic message)) := by
  rw [handleConn]
  rcases hread : (readFrame p).run stream with ⟨e | frame, rest⟩
  · intro heq
    refine h message ?_
    rw [hread, ConnError.tinyFrame.inj (Except.error.inj heq)]
  · dsimp only
    rcases handleFrame sd peer frame fault nowSecs now g with ⟨e | reply, g'⟩
    · intro heq
      cases heq
    · have hwrite := TinyFrame.noPanic_writeFramePlain p nonceBytes reply.messageType reply.txId
        reply.body w
      dsimp only
      rcases hpush : writeFramePlain p nonceBytes reply.messageType reply.txId reply.body w with
        ⟨e | u, w'⟩
      · intro heq
        refine hwrite message ?_
        rw [hpush, ConnError.tinyFrame.inj (Except.error.inj heq)]
      · intro heq
        cases heq

/-- So does a call: the request is plain. -/
theorem roundTrip_ne_panic (h : NoPanic ((readFrame p).run stream).1) (nonceBytes : Nonce)
    (request : Sink UInt8) (messageType : UInt8) (txId : UInt64) (body : Option Bytes)
    (message : String) :
    roundTrip p nonceBytes (some ⟨request, stream⟩) messageType txId body
      ≠ .error (.tinyFrame (.panic message)) := by
  cases body with
  | none =>
      intro heq
      cases heq
  | some body =>
      have hwrite := TinyFrame.noPanic_writeFramePlain p nonceBytes messageType txId body request
      rw [roundTrip]
      rcases hpush : (writeFramePlain p nonceBytes messageType txId body request).1 with e | u
      · intro heq
        refine hwrite message ?_
        rw [hpush, ClientError.tinyFrame.inj (Except.error.inj heq)]
      · dsimp only
        rcases hread : ((readFrame p).run stream).1 with e | frame
        · intro heq
          refine h message ?_
          rw [hread, ClientError.tinyFrame.inj (Except.error.inj heq)]
        · intro heq
          cases heq

theorem protocolError_ne_panic {α : Type} (frame : Frame) (message : String) :
    (protocolError sd frame : Except ClientError α) ≠ .error (.tinyFrame (.panic message)) := by
  rw [protocolError]
  intro heq
  split at heq
  · cases heq
  · cases heq

theorem decodeRegisterAck_ne_panic (frame : Frame) (message : String) :
    decodeRegisterAck sd frame ≠ .error (.tinyFrame (.panic message)) := by
  rw [decodeRegisterAck]
  split
  · intro heq
    cases heq
  · split
    · exact protocolError_ne_panic frame message
    · intro heq
      cases heq

theorem decodeQueryResult_ne_panic (frame : Frame) (message : String) :
    decodeQueryResult sd frame ≠ .error (.tinyFrame (.panic message)) := by
  rw [decodeQueryResult]
  split
  · split
    · intro heq
      cases heq
    · intro heq
      cases heq
  · split
    · exact protocolError_ne_panic frame message
    · intro heq
      cases heq

/-- No endpoint panics on a stream that can be read without a panic. -/
theorem peerSafe_of_noPanic (h : NoPanic ((readFrame p).run stream).1) : PeerSafe sd p stream where
  server := handleConn_ne_panic h
  register c nonceBytes request port labels extra message := by
    rw [Client.register]
    split
    · intro heq
      cases heq
    · dsimp only
      split
      · next e he =>
          intro heq
          obtain rfl := Except.error.inj heq
          exact roundTrip_ne_panic h _ _ _ _ _ _ he
      · exact decodeRegisterAck_ne_panic _ message
  queryHealthy c nonceBytes request labels message := by
    rw [Client.queryHealthy]
    split
    · intro heq
      cases heq
    · dsimp only
      split
      · next e he =>
          intro heq
          obtain rfl := Except.error.inj heq
          exact roundTrip_ne_panic h _ _ _ _ _ _ he
      · next frame _ =>
          intro heq
          refine @decodeQueryResult_ne_panic _ sd frame message ?_
          cases hdec : decodeQueryResult sd frame with
          | ok nodes =>
              rw [hdec] at heq
              cases heq
          | error e =>
              rw [hdec] at heq
              exact congrArg _ (Except.error.inj heq)

end

/-- **No received bytes reach a panic exactly if the process has a key or the
bytes do not start with an encrypted frame.** -/
theorem peer_noPanic_iff {E : Type} (sd : Serde E) (p : Proc) (stream : Bytes) :
    PeerSafe sd p stream ↔ (StartsEncrypted stream → ∃ key, p.keyCell = some (some key)) := by
  rw [← TinyFrame.noPanic_readFrame_iff]
  refine ⟨fun h message hread => ?_, peerSafe_of_noPanic⟩
  refine h.server (TinyFrame.ByteArr.fill _ 0) "" none 0 0 (Inner.empty 0) ⟨[], none⟩ message ?_
  rw [handleConn]
  rcases hrun : (readFrame p).run stream with ⟨e | frame, rest⟩
  · rw [hrun] at hread
    exact congrArg _ (congrArg ConnError.tinyFrame (Except.error.inj hread))
  · rw [hrun] at hread
    cases hread

/-- An encrypted frame of type 1, for transaction 0 and without payload. -/
def encryptedFrame : Bytes := [0x0c, 0, 0, 0, 0, 0, 0, 0, 0, 0, 0]

/-- A process of a dfinder endpoint: it sets no key. -/
def keylessProc : Proc := { TinyFrame.padProc with keyCell := none }

/-- Eleven bytes are enough for the server and for both calls of the client. -/
theorem peer_panics :
    ¬ PeerSafe (labelledSerde ["a"]) keylessProc encryptedFrame ∧
      ∃ message,
        (handleConn (labelledSerde ["a"]) keylessProc TinyFrame.zeroNonce "10.0.0.7"
          encryptedFrame none 0 0 (Inner.empty 0) ⟨[], none⟩).result
            = .error (.tinyFrame (.panic message)) ∧
        ((Client.new fun _ => true).register (labelledSerde ["a"]) keylessProc
          TinyFrame.zeroNonce (some ⟨⟨[], none⟩, encryptedFrame⟩) 9001 ["a"] ()).1
            = .error (.tinyFrame (.panic message)) ∧
        ((Client.new fun _ => true).queryHealthy (labelledSerde ["a"]) keylessProc
          TinyFrame.zeroNonce (some ⟨⟨[], none⟩, encryptedFrame⟩) ["a"]).1
            = .error (.tinyFrame (.panic message)) := by
  refine ⟨fun h => ?_, _, rfl, by decide +kernel, by decide +kernel⟩
  exact h.server TinyFrame.zeroNonce "10.0.0.7" none 0 0 (Inner.empty 0) ⟨[], none⟩ _ rfl

end Proto4.Dfinder
