/-
# `Proto4.Dfinder.Discovery` — a node registers, and is found

The calls of `client.rs` against the running server of `server.rs`: what the
client writes is what the connection handles, and what the connection writes is
what the client reads.  Client and server are two processes; both sides of a
dfinder exchange are plain, so neither needs the other's key.

`register_endToEnd` and `queryHealthy_endToEnd` say what one call comes to, in
any state a run can be in.  `found_after_register` is what the two are for: a
node whose registration was acknowledged is in the answer to every query for
labels of its own, as long as nothing of the few things happens that end a
registration.
-/
import Proto4.Dfinder.Client

namespace Proto4.Dfinder

open Lts
open TinyFrame (Proc Nonce Frame readFrame writeFramePlain)

/-! ## Plain frames between two processes -/

/-- A plain frame is the same whoever writes it. -/
theorem writeFramePlain_congr (p q : Proc) (n n' : Nonce) (messageType : UInt8) (txId : UInt64)
    (data : Bytes) (w : Sink UInt8) :
    writeFramePlain p n messageType txId data w = writeFramePlain q n' messageType txId data w := by
  have hbuild : TinyFrame.buildWireFrame p n messageType txId data TinyFrame.compressNone
      = TinyFrame.buildWireFrame q n' messageType txId data TinyFrame.compressNone := rfl
  rw [writeFramePlain, writeFramePlain, TinyFrame.writeFrame, TinyFrame.writeFrame, hbuild]

/-- On a fresh connection a plain frame arrives, or nothing does. -/
theorem plain_cases (p q : Proc) (n : Nonce) {messageType : UInt8} (hm : messageType ≤ 31)
    (txId : UInt64) (data : Bytes) :
    (data.length ≤ 0xffff ∧
      ∃ buf, writeFramePlain p n messageType txId data ⟨[], none⟩ = (.ok (), ⟨buf, none⟩) ∧
        (readFrame q).run buf = (.ok ⟨messageType, 0, false, txId, data⟩, [])) ∨
      0xffff < data.length ∧
        ∃ e, writeFramePlain p n messageType txId data ⟨[], none⟩ = (.error e, ⟨[], none⟩) := by
  rw [writeFramePlain_congr p q n n]
  exact writeFramePlain_cases q n hm txId data rfl

/-- Nothing comes of a connection on which nothing is sent. -/
theorem readFrame_nil (p : Proc) : ∃ fault, (readFrame p).run [] = (.error fault, []) := by
  rw [TinyFrame.readFrame_run]
  exact ⟨_, rfl⟩

/-! ## The two calls, at a server -/

section
variable {E : Type} (sd : Serde E)

/-- The server's side of a connection, and what its environment chooses. -/
structure Link where
  proc : Proc
  nonceBytes : Nonce
  peer : String
  fault : Option StoreError
  nowSecs : Int

/-- The server meets what a client sent. -/
def Link.serve (x : Link) (now : Instant) (g : Inner) (sent : Bytes) : Handled :=
  handleConn sd x.proc x.nonceBytes x.peer sent x.fault x.nowSecs now g ⟨[], none⟩

/-- What a call puts on its connection.  Without a label it does not connect. -/
def Client.sends (p : Proc) (n : Nonce) (messageType : UInt8) (labels : List String)
    (body : Option Bytes) (c : Client E) : Bytes :=
  if labels.isEmpty then []
  else
    match body with
    | none => []
    | some body => (writeFramePlain p n messageType c.nextTx body ⟨[], none⟩).2.written

/-- `register` at a server in state `g`: the call, and what the server did. -/
def Client.registerAt (p : Proc) (n : Nonce) (x : Link) (now : Instant) (g : Inner)
    (port : UInt16) (labels : List String) (extra : E) (c : Client E) :
    Except ClientError Unit × Handled :=
  let served := x.serve sd now g
    (c.sends p n msgRegister labels (sd.registerRequest.encode ⟨port, labels, extra⟩))
  ((c.register sd p n (some ⟨⟨[], none⟩, served.stream.written⟩) port labels extra).1, served)

/-- `query_healthy` at a server in state `g`. -/
def Client.queryHealthyAt (p : Proc) (n : Nonce) (x : Link) (now : Instant) (g : Inner)
    (labels : List String) (c : Client E) : Except ClientError (List (NodeInfo E)) × Handled :=
  let served := x.serve sd now g
    (c.sends p n msgQuery labels (sd.queryRequest.encode ⟨labels⟩))
  ((c.queryHealthy sd p n (some ⟨⟨[], none⟩, served.stream.written⟩) labels).1, served)

/-- A request of this body reaches the server. -/
def Reaching (labels : List String) (body : Option Bytes) : Prop :=
  labels ≠ [] ∧ ∃ bs, body = some bs ∧ bs.length ≤ 0xffff

variable {sd}

/-- The server of a silent connection does nothing. -/
theorem serve_nil (x : Link) (now : Instant) (g : Inner) :
    (x.serve sd now g []).inner = g ∧ (x.serve sd now g []).stream = ⟨[], none⟩ := by
  obtain ⟨fault, hread⟩ := readFrame_nil x.proc
  rw [Link.serve, handleConn, hread]
  exact ⟨rfl, rfl⟩

/-- Of a silent server the client reads nothing. -/
theorem roundTrip_silent (p : Proc) (n : Nonce) (messageType : UInt8) (txId : UInt64)
    (body : Option Bytes) :
    ∃ e, roundTrip p n (some ⟨⟨[], none⟩, []⟩) messageType txId body = .error e := by
  obtain ⟨fault, hread⟩ := readFrame_nil p
  cases body with
  | none => exact ⟨_, rfl⟩
  | some body =>
      rw [roundTrip]
      split
      · exact ⟨_, rfl⟩
      · rw [hread]
        exact ⟨_, rfl⟩

/-- A request that was sent is answered by what comes back. -/
theorem roundTrip_of_sent {p : Proc} {n : Nonce} {messageType : UInt8} {txId : UInt64}
    {body buf reply : Bytes} {frame : Frame}
    (hsent : writeFramePlain p n messageType txId body ⟨[], none⟩ = (.ok (), ⟨buf, none⟩))
    (hreply : ((readFrame p).run reply).1 = .ok frame) :
    roundTrip p n (some ⟨⟨[], none⟩, reply⟩) messageType txId (some body) = .ok frame := by
  rw [roundTrip, hsent]
  dsimp only
  rw [hreply]

/-- What a call sends: nothing, or a frame that the server reads. -/
theorem sends_cases (p q : Proc) (n : Nonce) {messageType : UInt8} (hm : messageType ≤ 31)
    (labels : List String) (body : Option Bytes) (c : Client E) :
    (Reaching labels body ∧ ∃ bs buf, body = some bs ∧
        writeFramePlain p n messageType c.nextTx bs ⟨[], none⟩ = (.ok (), ⟨buf, none⟩) ∧
        c.sends p n messageType labels body = buf ∧
        (readFrame q).run buf = (.ok ⟨messageType, 0, false, c.nextTx, bs⟩, [])) ∨
      ¬ Reaching labels body ∧ c.sends p n messageType labels body = [] := by
  cases labels with
  | nil => exact Or.inr ⟨fun h => h.1 rfl, rfl⟩
  | cons l labels =>
      cases body with
      | none =>
          refine Or.inr ⟨?_, rfl⟩
          rintro ⟨_, bs, hbs, _⟩
          cases hbs
      | some bs =>
          have hsends : c.sends p n messageType (l :: labels) (some bs)
              = (writeFramePlain p n messageType c.nextTx bs ⟨[], none⟩).2.written := rfl
          rcases plain_cases p q n hm c.nextTx bs with ⟨hle, buf, hbuf, hread⟩ | ⟨hlong, e, he⟩
          · refine Or.inl ⟨⟨List.cons_ne_nil _ _, bs, rfl, hle⟩, bs, buf, rfl, hbuf, ?_, hread⟩
            rw [hsends, hbuf]
          · refine Or.inr ⟨?_, by rw [hsends, he]⟩
            rintro ⟨_, bs', hbs, hle⟩
            obtain rfl := Option.some.inj hbs
            exact Nat.not_le_of_lt hlong hle

/-- What the server does to a frame it has read, once it has a reply. -/
theorem serve_of_reply {x : Link} {now : Instant} {g g' : Inner} {sent rest : Bytes} {frame : Frame}
    (hread : (readFrame x.proc).run sent = (.ok frame, rest)) {reply : Reply}
    (hm : reply.messageType ≤ 31)
    (hframe : handleFrame sd x.peer frame x.fault x.nowSecs now g = (.ok reply, g')) (p : Proc) :
    (x.serve sd now g sent).inner = g' ∧
      ((reply.body.length ≤ 0xffff ∧
          ((readFrame p).run (x.serve sd now g sent).stream.written).1
            = .ok ⟨reply.messageType, 0, false, reply.txId, reply.body⟩) ∨
        0xffff < reply.body.length ∧ (x.serve sd now g sent).stream.written = []) := by
  rw [Link.serve, handleConn, hread]
  dsimp only
  rw [hframe]
  dsimp only
  rcases plain_cases x.proc p x.nonceBytes hm reply.txId reply.body with
    ⟨hle, buf, hbuf, hback⟩ | ⟨hlong, e, he⟩
  · rw [hbuf]
    exact ⟨rfl, Or.inl ⟨hle, by rw [hback]⟩⟩
  · rw [he]
    exact ⟨rfl, Or.inr ⟨hlong, rfl⟩⟩

/-- And without one. -/
theorem serve_of_error {x : Link} {now : Instant} {g g' : Inner} {sent rest : Bytes} {frame : Frame}
    (hread : (readFrame x.proc).run sent = (.ok frame, rest)) {e : ServerError}
    (hframe : handleFrame sd x.peer frame x.fault x.nowSecs now g = (.error e, g')) :
    (x.serve sd now g sent).inner = g' ∧ (x.serve sd now g sent).stream.written = [] := by
  rw [Link.serve, handleConn, hread]
  dsimp only
  rw [hframe]
  exact ⟨rfl, rfl⟩

/-! ## Registering -/

theorem register_of_labels {labels : List String} (hne : labels ≠ []) (p : Proc) (n : Nonce)
    (connect : Option Conn) (port : UInt16) (extra : E) (c : Client E) :
    (c.register sd p n connect port labels extra).1
      = match roundTrip p n connect msgRegister c.nextTx
          (sd.registerRequest.encode ⟨port, labels, extra⟩) with
        | .error e => .error e
        | .ok frame => decodeRegisterAck sd frame := by
  obtain ⟨l, labels, rfl⟩ := List.exists_cons_of_ne_nil hne
  simp only [Client.register, Client.nextTxId, List.isEmpty_cons, Bool.false_eq_true, if_false]
  cases roundTrip p n connect msgRegister c.nextTx
      (sd.registerRequest.encode ⟨port, l :: labels, extra⟩) with
  | error e => rfl
  | ok frame => rfl

/-- A call that is silent, or meets silence, fails. -/
theorem register_silent (p : Proc) (n : Nonce) (port : UInt16) (labels : List String) (extra : E)
    (c : Client E) :
    ∃ e, (c.register sd p n (some ⟨⟨[], none⟩, []⟩) port labels extra).1 = .error e := by
  by_cases hne : labels = []
  · subst hne
    exact ⟨_, rfl⟩
  · obtain ⟨e, he⟩ := roundTrip_silent p n msgRegister c.nextTx
      (sd.registerRequest.encode ⟨port, labels, extra⟩)
    rw [register_of_labels hne, he]
    exact ⟨e, rfl⟩

/-- A registration that goes through at the server, and what it does there. -/
structure Registers (sd : Serde E) (x : Link) (now : Instant) (g g' : Inner) (node : NodeInfo E) :
    Prop where
  available : x.fault = none
  stored : ∃ row, rowOfNode sd x.nowSecs node = .ok row ∧
    g' = { g with
      store := g.store.upsert row
      health := Function.update g.health node.ip (some ⟨true, now⟩) }

theorem registers_iff {x : Link} {now : Instant} {g g' : Inner} {node : NodeInfo E} :
    g.register sd x.fault x.nowSecs now node = .ok g' ↔ Registers sd x now g g' node := by
  rw [register_ok_iff]
  exact ⟨fun h => ⟨h.1, h.2⟩, fun h => ⟨h.1, h.2⟩⟩

/-- **What a registration comes to.**  The call succeeds, and the node is stored
and healthy; or it fails, and the server is as it was. -/
theorem registerAt_cases (hjson : sd.registerRequest.RoundTrips) (p : Proc) (n : Nonce) (x : Link)
    (now : Instant) (g : Inner) (port : UInt16) (labels : List String) (extra : E) (c : Client E) :
    (Reaching labels (sd.registerRequest.encode ⟨port, labels, extra⟩) ∧
      (c.registerAt sd p n x now g port labels extra).1 = .ok () ∧
      Registers sd x now g (c.registerAt sd p n x now g port labels extra).2.inner
        ⟨x.peer, port, labels, extra⟩) ∨
    (∃ e, (c.registerAt sd p n x now g port labels extra).1 = .error e) ∧
      (c.registerAt sd p n x now g port labels extra).2.inner = g ∧
      ¬ (Reaching labels (sd.registerRequest.encode ⟨port, labels, extra⟩) ∧
        ∃ g', Registers sd x now g g' ⟨x.peer, port, labels, extra⟩) := by
  rw [Client.registerAt]
  dsimp only
  rcases sends_cases p x.proc n (show msgRegister ≤ 31 by decide) labels
      (sd.registerRequest.encode ⟨port, labels, extra⟩) c with
    ⟨hreach, bs, buf, hbs, hsent, hsends, hread⟩ | ⟨hnot, hsends⟩
  · rw [hsends]
    have hdec : sd.registerRequest.decode bs = some ⟨port, labels, extra⟩ := hjson _ _ hbs
    have hadm : admitRegister sd x.peer ⟨msgRegister, 0, false, c.nextTx, bs⟩
        = .ok ⟨x.peer, port, labels, extra⟩ := admitRegister_ok_iff.mpr ⟨_, hdec, hreach.1, rfl⟩
    cases hreg : g.register sd x.fault x.nowSecs now (⟨x.peer, port, labels, extra⟩ : NodeInfo E) with
    | ok g' =>
        have hframe : handleFrame sd x.peer ⟨msgRegister, 0, false, c.nextTx, bs⟩ x.fault x.nowSecs
            now g = (.ok ⟨msgRegisterAck, c.nextTx, ackBody⟩, g') := by
          rw [handleFrame, if_pos rfl, handleRegister, hadm]
          dsimp only
          rw [hreg]
        obtain ⟨hinner, ⟨_, hback⟩ | ⟨hlong, _⟩⟩ := serve_of_reply hread
          (show msgRegisterAck ≤ 31 by decide) hframe p
        · refine Or.inl ⟨hreach, ?_, ?_⟩
          · rw [register_of_labels hreach.1, hbs, roundTrip_of_sent hsent hback]
            exact if_pos rfl
          · rw [hinner]
            exact registers_iff.mp hreg
        · exact absurd hlong (show ¬ 0xffff < ackBody.length by decide)
    | error e =>
        have hframe : handleFrame sd x.peer ⟨msgRegister, 0, false, c.nextTx, bs⟩ x.fault x.nowSecs
            now g = (.error (.store e), g) := by
          rw [handleFrame, if_pos rfl, handleRegister, hadm]
          dsimp only
          rw [hreg]
        obtain ⟨hinner, hsilent⟩ := serve_of_error hread hframe
        refine Or.inr ⟨?_, hinner, ?_⟩
        · rw [hsilent]
          exact register_silent p n port labels extra c
        · rintro ⟨_, g', hg'⟩
          cases hreg.symm.trans (registers_iff.mpr hg')
  · rw [hsends]
    obtain ⟨hinner, hstream⟩ := @serve_nil E sd x now g
    refine Or.inr ⟨?_, hinner, fun h => hnot h.1⟩
    rw [hstream]
    exact register_silent p n port labels extra c

/-- The step that the server has made once a registration is acknowledged. -/
theorem step_of_registered (hjson : sd.registerRequest.RoundTrips) {p : Proc} {n : Nonce} {x : Link}
    {r : Run E} (hlock : r.state.cycle.holdsLock = false) {port : UInt16} {labels : List String}
    {extra : E} {c : Client E}
    (hok : (c.registerAt sd p n x r.state.clock r.state.inner port labels extra).1 = .ok ()) :
    ∃ r' frame, Run.step sd r (.frame x.peer frame none x.nowSecs) = some r' ∧
      r'.state.inner
        = (c.registerAt sd p n x r.state.clock r.state.inner port labels extra).2.inner ∧
      r'.log = .registered ⟨x.peer, port, labels, extra⟩ r.state.clock :: r.log := by
  rcases registerAt_cases hjson p n x r.state.clock r.state.inner port labels extra c with
    ⟨⟨hne, bs, hbs, _⟩, _, _, row, hrow, hinner⟩ | ⟨⟨e, he⟩, _⟩
  · refine ⟨_, ⟨msgRegister, 0, false, c.nextTx, bs⟩, registered_step hlock rfl
      (admitRegister_ok_iff.mpr ⟨_, hjson _ _ hbs, hne, rfl⟩) hrow, ?_, rfl⟩
    rw [hinner]
  · cases he.symm.trans hok

/-- **`register` end to end.**  Against a server in any state that is not locked:
the call succeeds exactly if the request fits, the database is there and the
columns can be written; then the server has made one step, after which the node
is registered from its own address, and otherwise it has changed nothing. -/
theorem register_endToEnd (sd : Serde E) (hjson : sd.registerRequest.RoundTrips) (p : Proc)
    (n : Nonce) (x : Link) (r : Run E) (hlock : r.state.cycle.holdsLock = false) (port : UInt16)
    (labels : List String) (extra : E) (c : Client E) :
    ((c.registerAt sd p n x r.state.clock r.state.inner port labels extra).1 = .ok () ↔
      Reaching labels (sd.registerRequest.encode ⟨port, labels, extra⟩) ∧ x.fault = none ∧
        (sd.labels.encode labels).isSome ∧ (sd.extra.encode extra).isSome) ∧
    ((c.registerAt sd p n x r.state.clock r.state.inner port labels extra).1 = .ok () →
      ∃ r' frame, Run.step sd r (.frame x.peer frame none x.nowSecs) = some r' ∧
        r'.state.inner
          = (c.registerAt sd p n x r.state.clock r.state.inner port labels extra).2.inner ∧
        r'.log = .registered ⟨x.peer, port, labels, extra⟩ r.state.clock :: r.log) ∧
    ((∃ e, (c.registerAt sd p n x r.state.clock r.state.inner port labels extra).1 = .error e) →
      (c.registerAt sd p n x r.state.clock r.state.inner port labels extra).2.inner
        = r.state.inner) := by
  have hcols : (∃ g', Registers sd x r.state.clock r.state.inner g' ⟨x.peer, port, labels, extra⟩) ↔
      x.fault = none ∧ (sd.labels.encode labels).isSome ∧ (sd.extra.encode extra).isSome := by
    constructor
    · rintro ⟨g', hfault, row, hrow, _⟩
      obtain ⟨l, y, hl, hy, _⟩ := (rowOfNode_ok_iff sd).mp hrow
      exact ⟨hfault, by rw [hl]; rfl, by rw [hy]; rfl⟩
    · rintro ⟨hfault, hl, hy⟩
      obtain ⟨l, hl⟩ := Option.isSome_iff_exists.mp hl
      obtain ⟨y, hy⟩ := Option.isSome_iff_exists.mp hy
      exact ⟨_, hfault, _, (rowOfNode_ok_iff sd).mpr ⟨l, y, hl, hy, rfl⟩, rfl⟩
  rw [← hcols]
  refine ⟨?_, step_of_registered hjson hlock, ?_⟩
  · rcases registerAt_cases hjson p n x r.state.clock r.state.inner port labels extra c with
      ⟨hreach, hok, hreg⟩ | ⟨⟨e, he⟩, _, hno⟩
    · exact iff_of_true hok ⟨hreach, _, hreg⟩
    · refine iff_of_false ?_ hno
      rw [he]
      intro h
      cases h
  · rintro ⟨e, he⟩
    rcases registerAt_cases hjson p n x r.state.clock r.state.inner port labels extra c with
      ⟨_, hok, _⟩ | ⟨_, hsame, _⟩
    · cases he.symm.trans hok
    · exact hsame

/-! ## Querying -/

theorem queryHealthy_of_labels {labels : List String} (hne : labels ≠ []) (p : Proc) (n : Nonce)
    (connect : Option Conn) (c : Client E) :
    (c.queryHealthy sd p n connect labels).1
      = match roundTrip p n connect msgQuery c.nextTx (sd.queryRequest.encode ⟨labels⟩) with
        | .error e => .error e
        | .ok frame => (decodeQueryResult sd frame).map fun nodes => nodes.filter c.healthCheck := by
  obtain ⟨l, labels, rfl⟩ := List.exists_cons_of_ne_nil hne
  simp only [Client.queryHealthy, Client.nextTxId, List.isEmpty_cons, Bool.false_eq_true, if_false]
  cases roundTrip p n connect msgQuery c.nextTx (sd.queryRequest.encode ⟨l :: labels⟩) with
  | error e => rfl
  | ok frame => rfl

theorem queryHealthy_silent (p : Proc) (n : Nonce) (labels : List String) (c : Client E) :
    ∃ e, (c.queryHealthy sd p n (some ⟨⟨[], none⟩, []⟩) labels).1 = .error e := by
  by_cases hne : labels = []
  · subst hne
    exact ⟨_, rfl⟩
  · obtain ⟨e, he⟩ := roundTrip_silent p n msgQuery c.nextTx (sd.queryRequest.encode ⟨labels⟩)
    rw [queryHealthy_of_labels hne, he]
    exact ⟨e, rfl⟩

/-- A listing that fails is no answer. -/
theorem healthyNodes_fault (e : StoreError) (labels : List String) (g : Inner) :
    (g.healthyNodes sd (some e) labels : Except StoreError (List (NodeInfo E))) = .error e := rfl

variable (sd) in
/-- The JSON of the columns and of a query comes through, and a result is
written as `serde_json` writes it. -/
structure Serde.Queries : Prop where
  columns : sd.ColumnsRoundTrip
  documents : sd.Documents
  request : sd.queryRequest.RoundTrips

variable (sd) in
/-- So does a result that lists these nodes. -/
def ComesThrough (nodes : List (NodeInfo E)) : Prop :=
  ∀ found : List (NodeInfo E), found.Perm nodes →
    ∀ body, sd.queryResult.encode ⟨found⟩ = some body → sd.queryResult.decode body = some ⟨found⟩

/-- **What a query comes to**, about the registrations in force that carry the
labels and were last seen healthy.  The call answers those of them that pass the
client's own check, or it fails; the server is as it was. -/
theorem queryHealthyAt_cases (hsd : sd.Queries) (p : Proc) (n : Nonce) (x : Link)
    {offlineTtl : Duration} {clock : Instant} {r : Run E}
    (hrun : Reaches (Run.step sd) ⟨Sys.start (Inner.empty offlineTtl) clock, []⟩ r)
    (labels : List String) (c : Client E) {nodes : List (NodeInfo E)}
    (hnodes : Matching r.log labels nodes) (hback : ComesThrough sd nodes) :
    (c.queryHealthyAt sd p n x r.state.clock r.state.inner labels).2.inner = r.state.inner ∧
    ((Reaching labels (sd.queryRequest.encode ⟨labels⟩) ∧ x.fault = none ∧
        resultLength sd nodes ≤ 0xffff ∧
        ∃ found : List (NodeInfo E), found.Perm nodes ∧
          (c.queryHealthyAt sd p n x r.state.clock r.state.inner labels).1
            = .ok (found.filter c.healthCheck)) ∨
      ¬ (Reaching labels (sd.queryRequest.encode ⟨labels⟩) ∧ x.fault = none ∧
          resultLength sd nodes ≤ 0xffff) ∧
        ∃ e, (c.queryHealthyAt sd p n x r.state.clock r.state.inner labels).1 = .error e) := by
  rw [Client.queryHealthyAt]
  dsimp only
  rcases sends_cases p x.proc n (show msgQuery ≤ 31 by decide) labels
      (sd.queryRequest.encode ⟨labels⟩) c with
    ⟨hreach, bs, buf, hbs, hsent, hsends, hread⟩ | ⟨hnot, hsends⟩
  · rw [hsends]
    have hreq : sd.queryRequest.decode bs = some ⟨labels⟩ := hsd.request _ _ hbs
    cases hfault : x.fault with
    | some e =>
        have hcons : (labels : List String).isEmpty = false := by simpa using hreach.1
        have hframe : handleFrame sd x.peer ⟨msgQuery, 0, false, c.nextTx, bs⟩ x.fault x.nowSecs
            r.state.clock r.state.inner = (.error (.store e), r.state.inner) := by
          rw [hfault, handleFrame, if_neg (show ¬ msgQuery = msgRegister by decide), if_pos rfl]
          simp only [handleQuery, hreq, hcons, healthyNodes_fault]
          rfl
        obtain ⟨hinner, hsilent⟩ := serve_of_error hread hframe
        rw [hsilent]
        refine ⟨hinner, Or.inr ⟨?_, queryHealthy_silent p n labels c⟩⟩
        rintro ⟨_, h, _⟩
        cases h
    | none =>
        obtain ⟨found, hok, hnodup, hmem⟩ := (mirrors_of_run hsd.columns hrun).query labels
        have hperm := Matching.perm ⟨hnodup, hmem⟩ hnodes
        obtain ⟨items, hitems⟩ := exists_writesNode fun m hm =>
          writable_of_run hrun m.ip m ((hmem m).mp hm).1
        have hbody := hsd.documents.queryResult found items hitems
        have hlength : (resultBytes items).length = resultLength sd nodes := by
          rw [length_resultBytes hitems, resultLength_perm hperm]
        have hframe : handleFrame sd x.peer ⟨msgQuery, 0, false, c.nextTx, bs⟩ x.fault x.nowSecs
            r.state.clock r.state.inner
            = (.ok ⟨msgQueryResult, c.nextTx, resultBytes items⟩, r.state.inner) := by
          rw [hfault, handleFrame_of_query rfl hreq hreach.1 hok, hbody]
          rfl
        obtain ⟨hinner, ⟨hle, hreply⟩ | ⟨hlong, hsilent⟩⟩ := serve_of_reply hread
          (show msgQueryResult ≤ 31 by decide) hframe p
        · refine ⟨hinner, Or.inl ⟨hreach, rfl, hlength ▸ hle, found, hperm, ?_⟩⟩
          rw [queryHealthy_of_labels hreach.1, hbs, roundTrip_of_sent hsent hreply]
          dsimp only
          rw [decodeQueryResult, if_pos rfl, hback found hperm _ hbody]
          rfl
        · rw [hsilent]
          refine ⟨hinner, Or.inr ⟨?_, queryHealthy_silent p n labels c⟩⟩
          rintro ⟨_, _, hle⟩
          exact Nat.not_le_of_lt hlong (hlength.symm ▸ hle)
  · rw [hsends]
    obtain ⟨hinner, hstream⟩ := @serve_nil E sd x r.state.clock r.state.inner
    rw [hstream]
    exact ⟨hinner, Or.inr ⟨fun h => hnot h.1, queryHealthy_silent p n labels c⟩⟩

/-- **`query_healthy` end to end.**  Against a server in any state of any run:
the call succeeds exactly if the request and the list of the matching
registrations fit and the database is there, it then answers the registrations
that pass the client's own check, and the server is not changed either way. -/
theorem queryHealthy_endToEnd (sd : Serde E) (hsd : sd.Queries) (p : Proc) (n : Nonce)
    (x : Link) (offlineTtl : Duration) (clock : Instant) (r : Run E)
    (hrun : Reaches (Run.step sd) ⟨Sys.start (Inner.empty offlineTtl) clock, []⟩ r)
    (labels : List String) (c : Client E) (nodes : List (NodeInfo E))
    (hnodes : Matching r.log labels nodes) (hback : ComesThrough sd nodes) :
    (c.queryHealthyAt sd p n x r.state.clock r.state.inner labels).2.inner = r.state.inner ∧
    ((∃ found, (c.queryHealthyAt sd p n x r.state.clock r.state.inner labels).1 = .ok found) ↔
      Reaching labels (sd.queryRequest.encode ⟨labels⟩) ∧ x.fault = none ∧
        resultLength sd nodes ≤ 0xffff) ∧
    ∀ found, (c.queryHealthyAt sd p n x r.state.clock r.state.inner labels).1 = .ok found →
      found.Perm (nodes.filter c.healthCheck) := by
  obtain ⟨hinner, ⟨hreach, hfault, hle, found, hperm, hok⟩ | ⟨hnot, e, he⟩⟩ :=
    queryHealthyAt_cases hsd p n x hrun labels c hnodes hback
  · refine ⟨hinner, iff_of_true ⟨_, hok⟩ ⟨hreach, hfault, hle⟩, ?_⟩
    intro found' h
    obtain rfl := Except.ok.inj (hok.symm.trans h)
    exact hperm.filter _
  · refine ⟨hinner, iff_of_false ?_ hnot, ?_⟩
    · rintro ⟨found, h⟩
      cases he.symm.trans h
    · intro found h
      cases he.symm.trans h

/-! ## Registered, then found -/

/-- What ends the registration of an ip, or the belief that it is healthy. -/
def Ends (ip : String) : Event E → Prop
  | .started => True
  | .registered node _ => node.ip = ip
  | .probed _ _ => False
  | .verdict node ok => node.ip = ip ∧ ok = false
  | .removed ip' => ip' = ip

/-- Nothing else does. -/
theorem registered_of_undisturbed {ip : String} {log es : List (Event E)}
    (h : ∀ e ∈ es, ¬ Ends ip e) (hhealthy : lastHealthWrite ip log = some true) :
    registration ip (es ++ log) = registration ip log ∧
      lastHealthWrite ip (es ++ log) = some true := by
  induction es with
  | nil => exact ⟨rfl, hhealthy⟩
  | cons e es ih =>
      obtain ⟨hreg, hhealth⟩ := ih fun e' he' => h e' (List.mem_cons_of_mem _ he')
      have he := h e List.mem_cons_self
      rw [List.cons_append]
      cases e with
      | started => exact absurd trivial he
      | registered node time =>
          have hne : node.ip ≠ ip := he
          rw [registration_registered, lastHealthWrite_registered, if_neg hne, if_neg hne]
          exact ⟨hreg, hhealth⟩
      | probed node ok => exact ⟨hreg, hhealth⟩
      | verdict node ok =>
          refine ⟨hreg, ?_⟩
          rw [lastHealthWrite_verdict]
          split
          · next hip =>
              cases ok with
              | true => rfl
              | false => exact absurd ⟨hip, rfl⟩ he
          · exact hhealth
      | removed ip' =>
          have hne : ip' ≠ ip := he
          rw [registration_removed, lastHealthWrite_removed, if_neg hne, if_neg hne]
          exact ⟨hreg, hhealth⟩

/-- **Whoever is acknowledged is found.**  Once `register` has answered, the
server has made the step of the registration; and from then on, whatever its
tasks and other clients do, as long as nothing ends the registration, every query
for labels of the node that succeeds lists it, unless the asking client's own
check rejects it. -/
theorem found_after_register (sd : Serde E) (hsd : sd.Queries)
    (hjson : sd.registerRequest.RoundTrips) (offlineTtl : Duration) (clock : Instant) (r : Run E)
    (hrun : Reaches (Run.step sd) ⟨Sys.start (Inner.empty offlineTtl) clock, []⟩ r)
    (hlock : r.state.cycle.holdsLock = false) (p : Proc) (n : Nonce) (x : Link) (port : UInt16)
    (labels : List String) (extra : E) (c : Client E)
    (hok : (c.registerAt sd p n x r.state.clock r.state.inner port labels extra).1 = .ok ()) :
    ∃ r₁ frame, Run.step sd r (.frame x.peer frame none x.nowSecs) = some r₁ ∧
      r₁.state.inner
        = (c.registerAt sd p n x r.state.clock r.state.inner port labels extra).2.inner ∧
      ∀ r₂ es, Reaches (Run.step sd) r₁ r₂ → r₂.log = es ++ r₁.log → (∀ e ∈ es, ¬ Ends x.peer e) →
        ∀ (labels' : List String) (nodes : List (NodeInfo E)), (∀ l ∈ labels', l ∈ labels) →
          Matching r₂.log labels' nodes → ComesThrough sd nodes →
          ∀ (p' : Proc) (n' : Nonce) (x' : Link) (c' : Client E) (found : List (NodeInfo E)),
            (c'.queryHealthyAt sd p' n' x' r₂.state.clock r₂.state.inner labels').1 = .ok found →
            (⟨x.peer, port, labels, extra⟩ ∈ found ↔
              c'.healthCheck ⟨x.peer, port, labels, extra⟩ = true) := by
  obtain ⟨r₁, frame, hstep, hinner, hlog⟩ := step_of_registered hjson hlock hok
  refine ⟨r₁, frame, hstep, hinner, ?_⟩
  intro r₂ es hreach hes hundisturbed labels' nodes hsub hnodes hback p' n' x' c' found hfound
  have hrun₂ := (hrun.tail hstep).trans hreach
  obtain ⟨hreg, hhealthy⟩ := @registered_of_undisturbed E x.peer r₁.log es hundisturbed
    (by rw [hlog, lastHealthWrite_registered, if_pos rfl])
  rw [← hes] at hreg hhealthy
  rw [hlog, registration_registered, if_pos rfl] at hreg
  have hmem : ⟨x.peer, port, labels, extra⟩ ∈ nodes := (hnodes.mem _).mpr ⟨hreg, hsub, hhealthy⟩
  obtain ⟨_, ⟨_, _, _, all, hperm, hall⟩ | ⟨_, e, he⟩⟩ :=
    queryHealthyAt_cases hsd p' n' x' hrun₂ labels' c' hnodes hback
  · obtain rfl := Except.ok.inj (hall.symm.trans hfound)
    rw [List.mem_filter, hperm.mem_iff]
    exact ⟨fun h => h.2, fun h => ⟨hmem, h⟩⟩
  · cases he.symm.trans hfound

end

/-! A node that registers under one label, and a query for it. -/

/-- The documents of one exchange: those of `labelledSerde`, and the result that
lists the node. -/
def pairSerde : Serde Unit where
  labels := Codec.table [(["a"], "[\"a\"]")]
  extra := Codec.table [((), "null")]
  registerRequest := Codec.table [(⟨9001, ["a"], ()⟩, registerBytes ["a"])]
  queryRequest := Codec.table [(⟨["a"]⟩, queryBytes)]
  queryResult :=
    ⟨fun r => some (resultBytes (r.nodes.map fun n => nodeBytes n "null")),
      fun b => if b = resultBytes [nodeBytes (labelledNode ["a"] "10.0.0.7") "null"] then
        some ⟨[labelledNode ["a"] "10.0.0.7"]⟩ else none⟩
  errorBody := ⟨fun e => some (errorBytes e.message), fun _ => none⟩

theorem pairSerde_queries : pairSerde.Queries where
  columns := ⟨Codec.table_roundTrips (List.nodup_singleton _),
    Codec.table_roundTrips (List.nodup_singleton _)⟩
  documents := ⟨(labelledSerde_documents ["a"]).queryResult⟩
  request := Codec.table_roundTrips (List.nodup_singleton _)

theorem comesThrough_one : ComesThrough pairSerde [labelledNode ["a"] "10.0.0.7"] := by
  intro found hperm body hbody
  obtain rfl := List.perm_singleton.mp hperm
  obtain rfl := Option.some.inj hbody
  exact if_pos rfl

/-- A connection from `10.0.0.7`. -/
def nodeLink : Link := ⟨TinyFrame.padProc, TinyFrame.zeroNonce, "10.0.0.7", none, 0⟩

def anyClient : Client Unit := Client.new fun _ => true

/-- A server that nobody has met. -/
def freshRun : Run Unit := ⟨Sys.start (Inner.empty 100) 0, []⟩

theorem anyClient_ok : (anyClient.registerAt pairSerde TinyFrame.padProc TinyFrame.zeroNonce nodeLink
    freshRun.state.clock freshRun.state.inner 9001 ["a"] ()).1 = .ok () := by
  decide +kernel

theorem register_endToEnd_one :
    ∃ r' frame, Run.step pairSerde freshRun (.frame "10.0.0.7" frame none 0) = some r' ∧
      r'.log = [.registered (labelledNode ["a"] "10.0.0.7") 0] := by
  obtain ⟨hiff, hstep, _⟩ := register_endToEnd pairSerde
    (Codec.table_roundTrips (List.nodup_singleton _)) TinyFrame.padProc TinyFrame.zeroNonce nodeLink
    freshRun rfl 9001 ["a"] () anyClient
  obtain ⟨r', frame, hrun, _, hlog⟩ := hstep (hiff.mpr ⟨⟨List.cons_ne_nil _ _, registerBytes ["a"],
    Codec.table_encode_singleton _ _, by decide +kernel⟩, rfl, by decide, by decide⟩)
  exact ⟨r', frame, hrun, hlog⟩

/-- The node's registration, as a step of the server. -/
theorem pairSerde_step : ∃ s', Run.step pairSerde freshRun
    (.frame "10.0.0.7" (labelledFrame ["a"]) none 0)
      = some ⟨s', [.registered (labelledNode ["a"] "10.0.0.7") 0]⟩ := by
  have hnode : admitRegister pairSerde "10.0.0.7" (labelledFrame ["a"])
      = .ok (labelledNode ["a"] "10.0.0.7") :=
    admitRegister_ok_iff.mpr ⟨_, Codec.table_decode_singleton _ _, List.cons_ne_nil _ _, rfl⟩
  have hrow : rowOfNode pairSerde 0 (labelledNode ["a"] "10.0.0.7")
      = .ok ⟨"10.0.0.7", 9001, "[\"a\"]", "null", 0⟩ :=
    (rowOfNode_ok_iff _).mpr ⟨_, _, Codec.table_encode_singleton _ _,
      Codec.table_encode_singleton _ _, rfl⟩
  exact ⟨_, registered_step rfl rfl hnode hrow⟩

theorem matching_one : Matching [.registered (labelledNode ["a"] "10.0.0.7") 0] ["a"]
    [labelledNode ["a"] "10.0.0.7"] where
  nodup := List.nodup_singleton _
  mem n := by
    rw [registration_registered, lastHealthWrite_registered, List.mem_singleton]
    constructor
    · rintro rfl
      exact ⟨rfl, fun l hl => hl, rfl⟩
    · rintro ⟨hreg, _, _⟩
      split at hreg
      · exact (Option.some.inj hreg).symm
      · cases hreg

theorem queryHealthy_endToEnd_one : ∃ r : Run Unit, ∃ found,
    r.log = [.registered (labelledNode ["a"] "10.0.0.7") 0] ∧
    (anyClient.queryHealthyAt pairSerde TinyFrame.padProc TinyFrame.zeroNonce nodeLink
      r.state.clock r.state.inner ["a"]).1 = .ok found ∧
    found.Perm [labelledNode ["a"] "10.0.0.7"] := by
  obtain ⟨s', hstep⟩ := pairSerde_step
  obtain ⟨_, hiff, hall⟩ := queryHealthy_endToEnd pairSerde pairSerde_queries TinyFrame.padProc
    TinyFrame.zeroNonce nodeLink 100 0 _ (.tail .refl hstep) ["a"] anyClient _ matching_one
    comesThrough_one
  obtain ⟨found, hfound⟩ := hiff.mpr ⟨⟨List.cons_ne_nil _ _, queryBytes,
    Codec.table_encode_singleton _ _, by decide +kernel⟩, rfl, by decide +kernel⟩
  exact ⟨_, found, rfl, hfound, hall found hfound⟩

theorem found_after_register_one : ∃ r₁ frame,
    Run.step pairSerde freshRun (.frame "10.0.0.7" frame none 0) = some r₁ ∧
    ∀ (labels' : List String) (nodes : List (NodeInfo Unit)), (∀ l ∈ labels', l ∈ ["a"]) →
      Matching r₁.log labels' nodes → ComesThrough pairSerde nodes →
      ∀ found, (anyClient.queryHealthyAt pairSerde TinyFrame.padProc TinyFrame.zeroNonce nodeLink
        r₁.state.clock r₁.state.inner labels').1 = .ok found →
        labelledNode ["a"] "10.0.0.7" ∈ found := by
  obtain ⟨r₁, frame, hstep, _, hall⟩ := found_after_register pairSerde pairSerde_queries
    (Codec.table_roundTrips (List.nodup_singleton _)) 100 0 freshRun .refl rfl TinyFrame.padProc
    TinyFrame.zeroNonce nodeLink 9001 ["a"] () anyClient anyClient_ok
  refine ⟨r₁, frame, hstep, ?_⟩
  intro labels' nodes hsub hnodes hback found hfound
  exact (hall r₁ [] .refl rfl (fun e he => by cases he) labels' nodes hsub hnodes hback
    TinyFrame.padProc TinyFrame.zeroNonce nodeLink anyClient found hfound).mpr rfl

end Proto4.Dfinder
