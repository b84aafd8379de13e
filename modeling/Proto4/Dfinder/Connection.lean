/-
# `Proto4.Dfinder.Connection` — one connection, and which queries are answered

`handle_conn` reads a frame, handles it and writes the reply as a plain frame.
The result of a query lists every matching node, and a frame holds 65535 bytes:
past that the writer refuses, the error closes the connection and the query has
no reply at all.

How long a result is follows from the registrations in force, whatever order
the table lists them in (`resultLength`), and `query_answered_iff` says for
which of them a query is answered, in every run of the server.
-/
import Proto4.Dfinder.ProbeLoop
import Proto4.Text
import Proto4.TinyFrame.RoundTrip

namespace Proto4.Dfinder

open Lts
open TinyFrame (Proc Nonce Frame readFrame writeFramePlain)

/-! ## The connection -/

/-- How a connection fails: in its handler, or in the codec. -/
inductive ConnError
  | server (e : ServerError)
  | tinyFrame (fault : TinyFrame.Fault)
  deriving DecidableEq, Repr

/-- What a connection did. -/
structure Handled where
  result : Except ConnError Unit
  inner : Inner
  stream : Sink UInt8

section
variable {E : Type} (sd : Serde E)

/-- `handle_conn`: a handler's error is returned without a reply. -/
def handleConn (p : Proc) (nonceBytes : Nonce) (peer : String) (input : Bytes)
    (fault : Option StoreError) (nowSecs : Int) (now : Instant) (g : Inner) (w : Sink UInt8) :
    Handled :=
  match (readFrame p).run input with
  | (.error e, _) => ⟨.error (.tinyFrame e), g, w⟩
  | (.ok frame, _) =>
      match handleFrame sd peer frame fault nowSecs now g with
      | (.error e, g') => ⟨.error (.server e), g', w⟩
      | (.ok reply, g') =>
          let (result, w') :=
            writeFramePlain p nonceBytes reply.messageType reply.txId reply.body w
          ⟨result.mapError ConnError.tinyFrame, g', w'⟩

/-- A connection does to the shared state what its frame does to the running
server. -/
theorem step_of_handleConn {s : Sys E} (hlock : s.cycle.holdsLock = false) {p : Proc}
    {input rest : Bytes} {frame : Frame} (hread : (readFrame p).run input = (.ok frame, rest))
    (n : Nonce) (peer : String) (fault : Option StoreError) (nowSecs : Int) (w : Sink UInt8) :
    ∃ outbox, s.step sd (.frame peer frame fault nowSecs) = some { s with
      inner := (handleConn sd p n peer input fault nowSecs s.clock s.inner w).inner
      outbox } := by
  rw [handleConn, hread]
  dsimp only
  simp only [Sys.step, hlock]
  rcases handleFrame sd peer frame fault nowSecs s.clock s.inner with ⟨e | reply, g'⟩
  · exact ⟨_, rfl⟩
  · exact ⟨_, rfl⟩

/-! ## Plain frames -/

/-- A plain frame is written and read back if its data fits, and otherwise
nothing is written. -/
theorem writeFramePlain_cases (p : Proc) (n : Nonce) {messageType : UInt8}
    (hm : messageType ≤ 31) (txId : UInt64) (data : Bytes) {w : Sink UInt8}
    (hfree : w.room = none) :
    (data.length ≤ 0xffff ∧
      ∃ buf, writeFramePlain p n messageType txId data w
          = (.ok (), { w with written := w.written ++ buf }) ∧
        (readFrame p).run buf = (.ok ⟨messageType, 0, false, txId, data⟩, [])) ∨
      0xffff < data.length ∧ ∃ e, writeFramePlain p n messageType txId data w = (.error e, w) := by
  have hpack : TinyFrame.packHeaderByte messageType TinyFrame.compressNone
      = .ok (messageType <<< 3 ||| TinyFrame.compressNone) :=
    TinyFrame.packHeaderByte_ok_iff.mpr ⟨hm, by decide, by decide, rfl⟩
  rw [writeFramePlain, TinyFrame.writeFrame]
  cases hb : TinyFrame.buildWireFrame p n messageType txId data TinyFrame.compressNone with
  | ok buf =>
      obtain ⟨_, compressed, payload, _, hc, hp, hle, _⟩ := TinyFrame.buildWireFrame_ok_iff.mp hb
      obtain rfl : data = compressed := Except.ok.inj hc
      cases hp with
      | sealed he _ _ => exact absurd he (by decide)
      | clear _ =>
          have hread := TinyFrame.takes_uncompressed (r := p) (by decide) hb
            (by
              intro header compressed payload hp
              cases hp with
              | clear he => exact .clear he
              | sealed he _ _ => exact absurd he (by decide)) []
          rw [List.append_nil] at hread
          exact Or.inl ⟨hle, buf, by simp only [TinyFrame.writeAll, Sink.push, hfree], hread⟩
  | error e =>
      refine Or.inr ⟨Nat.lt_of_not_le fun hle => ?_, e, rfl⟩
      cases hb.symm.trans (TinyFrame.buildWireFrame_ok_iff.mpr
        ⟨_, data, data, hpack, rfl, .clear (by decide), hle, rfl⟩)

/-! ## How long a result is -/

/-- A node inside a result, its extension already written. -/
def nodeBytes (n : NodeInfo E) (extra : String) : Bytes :=
  JsonText.object
    [(utf8 "ip", JsonText.quote (utf8 n.ip)),
      (utf8 "port", JsonText.number n.port.toNat),
      (utf8 "labels", JsonText.array (n.labels.map fun l => JsonText.quote (utf8 l))),
      (utf8 "extra", utf8 extra)]

/-- `{"nodes":[...]}`. -/
def resultBytes (items : List Bytes) : Bytes :=
  JsonText.object [(utf8 "nodes", JsonText.array items)]

/-- `item` is what becomes of a node. -/
def WritesNode (n : NodeInfo E) (item : Bytes) : Prop :=
  ∃ extra, sd.extra.encode n.extra = some extra ∧ item = nodeBytes n extra

/-- A result as `serde_json` writes it: it writes the extension inside a node as
it does on its own. -/
structure Serde.Documents : Prop where
  queryResult : ∀ nodes items, List.Forall₂ (WritesNode sd) nodes items →
    sd.queryResult.encode ⟨nodes⟩ = some (resultBytes items)

/-- The bytes of an extension. -/
def extraLength (extra : E) : Nat :=
  ((sd.extra.encode extra).map fun text => (utf8 text).length).getD 0

/-- The bytes of a node: names and punctuation take 38, a label its quotes and,
from the second on, a comma. -/
def nodeLength (n : NodeInfo E) : Nat :=
  38 + textLength n.ip + (JsonText.number n.port.toNat).length
    + (n.labels.map fun l => textLength l + 2).sum + (n.labels.length - 1)
    + extraLength sd n.extra

/-- The bytes of a result. -/
def resultLength (nodes : List (NodeInfo E)) : Nat :=
  12 + (nodes.map (nodeLength sd)).sum + (nodes.length - 1)

variable {sd}

theorem length_labels (labels : List String) :
    (JsonText.array (labels.map fun l => JsonText.quote (utf8 l))).length
      = (labels.map fun l => textLength l + 2).sum + (labels.length - 1) + 2 := by
  have hquoted : (labels.map fun l => JsonText.quote (utf8 l)).map List.length
      = labels.map fun l => textLength l + 2 := by
    rw [List.map_map]
    exact List.map_congr_left fun l _ => length_quote_utf8 l
  rw [JsonText.length_array, hquoted, List.length_map]

theorem length_of_writesNode {n : NodeInfo E} {item : Bytes} (h : WritesNode sd n item) :
    item.length = nodeLength sd n := by
  obtain ⟨extra, hextra, rfl⟩ := h
  have hip : JsonText.escapedLength (utf8 "ip") = 2 := by decide +kernel
  have hport : JsonText.escapedLength (utf8 "port") = 4 := by decide +kernel
  have hlabels : JsonText.escapedLength (utf8 "labels") = 6 := by decide +kernel
  have hname : JsonText.escapedLength (utf8 "extra") = 5 := by decide +kernel
  rw [nodeBytes, JsonText.length_object, nodeLength, extraLength, hextra]
  simp only [List.map_cons, List.map_nil, List.sum_cons, List.sum_nil, List.length_cons,
    List.length_nil, Option.map_some, Option.getD_some, hip, hport, hlabels, hname, length_labels,
    length_quote_utf8]
  omega

theorem length_resultBytes {nodes : List (NodeInfo E)} {items : List Bytes}
    (h : List.Forall₂ (WritesNode sd) nodes items) :
    (resultBytes items).length = resultLength sd nodes := by
  have hname : JsonText.escapedLength (utf8 "nodes") = 5 := by decide +kernel
  have hsum : (items.map List.length).sum = (nodes.map (nodeLength sd)).sum := by
    induction h with
    | nil => rfl
    | cons hn _ ih => rw [List.map_cons, List.map_cons, List.sum_cons, List.sum_cons, ih,
        length_of_writesNode hn]
  rw [resultBytes, JsonText.length_object, resultLength]
  simp only [List.map_cons, List.map_nil, List.sum_cons, List.sum_nil, List.length_singleton,
    hname, JsonText.length_array, hsum, h.length_eq]
  omega

/-- The order of a listing does not matter. -/
theorem resultLength_perm {nodes nodes' : List (NodeInfo E)} (h : nodes.Perm nodes') :
    resultLength sd nodes = resultLength sd nodes' := by
  rw [resultLength, resultLength, h.length_eq, (h.map (nodeLength sd)).sum_eq]

/-! ## What is registered can be written -/

variable (sd) in
/-- Every registration in force has an extension that JSON writes. -/
def Writable (log : List (Event E)) : Prop :=
  ∀ ip n, registration ip log = some n → (sd.extra.encode n.extra).isSome

/-- A registration that went through wrote its extension into the table. -/
theorem Writable.effect {log es : List (Event E)} {g g' : Inner} (h : Writable sd log)
    (he : Effect sd g g' es) : Writable sd (es ++ log) := by
  intro ip n hreg
  cases he with
  | quiet => exact h ip n hreg
  | probed node ok => exact h ip n hreg
  | verdict node now ok => exact h ip n hreg
  | started _ => exact h ip n hreg
  | @registered nowSecs now node row hrow =>
      rw [List.singleton_append, registration_registered] at hreg
      split at hreg
      · obtain rfl : node = n := Option.some.inj hreg
        obtain ⟨_, extra, _, hextra, _⟩ := (rowOfNode_ok_iff sd).mp hrow
        rw [hextra]
        rfl
      · exact h ip n hreg
  | removed ip' =>
      rw [List.singleton_append, registration_removed] at hreg
      split at hreg
      · cases hreg
      · exact h ip n hreg

theorem writable_of_run {offlineTtl : Duration} {clock : Instant} {c : Run E}
    (h : Reaches (Run.step sd) ⟨Sys.start (Inner.empty offlineTtl) clock, []⟩ c) :
    Writable sd c.log := by
  refine h.invariant (J := fun c => Writable sd c.log) (fun ip n hreg => nomatch hreg) ?_
  intro c a c' hc hstep
  obtain ⟨es, he, hlog⟩ := effect_of_runStep hstep
  rw [hlog]
  exact hc.effect he

/-- Nodes whose extensions can be written make a result. -/
theorem exists_writesNode {nodes : List (NodeInfo E)}
    (h : ∀ n ∈ nodes, (sd.extra.encode n.extra).isSome) :
    ∃ items, List.Forall₂ (WritesNode sd) nodes items := by
  induction nodes with
  | nil => exact ⟨[], .nil⟩
  | cons n nodes ih =>
      obtain ⟨extra, hextra⟩ := Option.isSome_iff_exists.mp (h n List.mem_cons_self)
      obtain ⟨items, hitems⟩ := ih fun m hm => h m (List.mem_cons_of_mem n hm)
      exact ⟨nodeBytes n extra :: items, .cons ⟨extra, hextra, rfl⟩ hitems⟩

/-! ## Which queries are answered -/

/-- `nodes` are the registrations a query for `labels` is about: those in force
that carry the labels and were last seen healthy, each once. -/
structure Matching (log : List (Event E)) (labels : List String) (nodes : List (NodeInfo E)) :
    Prop where
  nodup : (nodes.map NodeInfo.ip).Nodup
  mem : ∀ n, n ∈ nodes ↔ registration n.ip log = some n ∧ (∀ l ∈ labels, l ∈ n.labels) ∧
    lastHealthWrite n.ip log = some true

theorem Matching.perm {log : List (Event E)} {labels : List String}
    {nodes nodes' : List (NodeInfo E)} (h : Matching log labels nodes)
    (h' : Matching log labels nodes') : nodes.Perm nodes' := by
  refine (List.perm_ext_iff_of_nodup (.of_map _ h.nodup) (.of_map _ h'.nodup)).mpr ?_
  intro n
  rw [h.mem, h'.mem]

variable (sd) in
/-- One plain frame was written, under the transaction id of the query: a result
that lists `nodes`, or an error. -/
def Replied (p : Proc) (txId : UInt64) (nodes : List (NodeInfo E)) (w w' : Sink UInt8) : Prop :=
  ∃ messageType body buf, w'.written = w.written ++ buf ∧
    (readFrame p).run buf = (.ok ⟨messageType, 0, false, txId, body⟩, []) ∧
    ((messageType = msgQueryResult ∧
        ∃ nodes', nodes'.Perm nodes ∧ sd.queryResult.encode ⟨nodes'⟩ = some body) ∨
      messageType = msgError)

theorem not_replied_of_same {p : Proc} {txId : UInt64} {nodes : List (NodeInfo E)}
    {w : Sink UInt8} : ¬ Replied sd p txId nodes w w := by
  rintro ⟨messageType, body, buf, hwritten, hread, _⟩
  obtain rfl : buf = [] := List.self_eq_append_right.mp hwritten
  cases hread

/-- A query is answered if the result fits, and otherwise nothing is written. -/
theorem query_cases (hsd : sd.ColumnsRoundTrip) (hdoc : sd.Documents) (p : Proc) (n : Nonce)
    {offlineTtl : Duration} {clock : Instant} {c : Run E}
    (hrun : Reaches (Run.step sd) ⟨Sys.start (Inner.empty offlineTtl) clock, []⟩ c)
    {input rest : Bytes} {frame : Frame} (hread : (readFrame p).run input = (.ok frame, rest))
    (htype : frame.messageType = msgQuery) {req : QueryRequest}
    (hreq : sd.queryRequest.decode frame.data = some req) (hne : req.labels ≠ [])
    (peer : String) (nowSecs : Int) {w : Sink UInt8} (hfree : w.room = none)
    {nodes : List (NodeInfo E)} (hnodes : Matching c.log req.labels nodes) :
    (resultLength sd nodes ≤ 0xffff ∧ Replied sd p frame.txId nodes w
        (handleConn sd p n peer input none nowSecs c.state.clock c.state.inner w).stream) ∨
      0xffff < resultLength sd nodes ∧
        (handleConn sd p n peer input none nowSecs c.state.clock c.state.inner w).stream = w := by
  obtain ⟨found, hok, hnodup, hmem⟩ := (mirrors_of_run hsd hrun).query req.labels
  have hfound : Matching c.log req.labels found := ⟨hnodup, hmem⟩
  have hperm := hfound.perm hnodes
  -- what the table holds can be written, so there is a body and only its length matters
  obtain ⟨items, hitems⟩ := exists_writesNode fun m hm =>
    writable_of_run hrun m.ip m ((hfound.mem m).mp hm).1
  have hbody := hdoc.queryResult found items hitems
  have hlength : (resultBytes items).length = resultLength sd nodes := by
    rw [length_resultBytes hitems, resultLength_perm hperm]
  rw [handleConn, hread]
  dsimp only
  rw [handleFrame_of_query htype hreq hne hok, hbody]
  dsimp only [jsonReply]
  rw [← hlength]
  rcases writeFramePlain_cases p n (show msgQueryResult ≤ 31 by decide) frame.txId
    (resultBytes items) hfree with ⟨hle, buf, hbuf, hback⟩ | ⟨hlong, e, he⟩
  · rw [hbuf]
    exact Or.inl ⟨hle, msgQueryResult, resultBytes items, buf, rfl, hback,
      Or.inl ⟨rfl, found, hperm, hbody⟩⟩
  · rw [he]
    exact Or.inr ⟨hlong, rfl⟩

theorem exists_matching (hsd : sd.ColumnsRoundTrip) {offlineTtl : Duration} {clock : Instant}
    {c : Run E} (hrun : Reaches (Run.step sd) ⟨Sys.start (Inner.empty offlineTtl) clock, []⟩ c)
    (labels : List String) : ∃ nodes, Matching c.log labels nodes := by
  obtain ⟨nodes, _, hnodup, hmem⟩ := (mirrors_of_run hsd hrun).query labels
  exact ⟨nodes, hnodup, hmem⟩

/-- **Which queries are answered**, by a server in any state of any run: those
about registrations whose result fits into a frame. -/
theorem query_answered_iff (sd : Serde E) (hsd : sd.ColumnsRoundTrip) (hdoc : sd.Documents)
    (p : Proc) (n : Nonce) (offlineTtl : Duration) (clock : Instant) (c : Run E)
    (hrun : Reaches (Run.step sd) ⟨Sys.start (Inner.empty offlineTtl) clock, []⟩ c)
    (input rest : Bytes) (frame : Frame) (hread : (readFrame p).run input = (.ok frame, rest))
    (htype : frame.messageType = msgQuery) (req : QueryRequest)
    (hreq : sd.queryRequest.decode frame.data = some req) (hne : req.labels ≠ [])
    (peer : String) (nowSecs : Int) (w : Sink UInt8) (hfree : w.room = none) :
    (∃ nodes, Matching c.log req.labels nodes) ∧
      ∀ nodes, Matching c.log req.labels nodes →
        (Replied sd p frame.txId nodes w
            (handleConn sd p n peer input none nowSecs c.state.clock c.state.inner w).stream ↔
          resultLength sd nodes ≤ 0xffff) := by
  refine ⟨exists_matching hsd hrun req.labels, ?_⟩
  intro nodes hnodes
  rcases query_cases hsd hdoc p n hrun hread htype hreq hne peer nowSecs hfree hnodes with
    ⟨hle, hreplied⟩ | ⟨hlong, hsame⟩
  · exact iff_of_true hreplied hle
  · rw [hsame]
    exact iff_of_false not_replied_of_same (Nat.not_le_of_lt hlong)

/-- An accepted registration, as a step of the running server. -/
theorem registered_step {c : Run E} (hlock : c.state.cycle.holdsLock = false) {peer : String}
    {frame : Frame} (htype : frame.messageType = msgRegister) {node : NodeInfo E}
    (hnode : admitRegister sd peer frame = .ok node) {nowSecs : Int} {row : NodeRow}
    (hrow : rowOfNode sd nowSecs node = .ok row) :
    Run.step sd c (.frame peer frame none nowSecs) = some
      ⟨{ c.state with
          inner := { c.state.inner with
            store := c.state.inner.store.upsert row
            health := Function.update c.state.inner.health node.ip (some ⟨true, c.state.clock⟩) }
          outbox := c.state.outbox ++ [⟨peer, msgRegisterAck, frame.txId, ackBody⟩] },
        .registered node c.state.clock :: c.log⟩ := by
  have hreg : c.state.inner.register sd none nowSecs c.state.clock node = .ok _ :=
    register_ok_iff.mpr ⟨rfl, row, hrow, rfl⟩
  have hevent : registering sd peer frame none = some node :=
    (registering_eq_some sd nowSecs).mpr ⟨hnode, rfl, row, hrow⟩
  simp only [Run.step, Logged.step, Sys.step, Sys.emit, Sys.op, Registry.emit, registeredEvents,
    handleFrame, handleRegister, hlock, htype, hnode, hreg, hevent, if_true, Bool.false_eq_true,
    if_false]
  rfl

end

/-! Peers that register on one port under the same labels, and a query for one
of them. -/

/-- The labels as the column holds them, where none needs escaping. -/
def labelsText (labels : List String) : String :=
  "[" ++ ",".intercalate (labels.map fun l => "\"" ++ l ++ "\"") ++ "]"

def registerBytes (labels : List String) : Bytes :=
  JsonText.object
    [(utf8 "port", JsonText.number 9001),
      (utf8 "labels", JsonText.array (labels.map fun l => JsonText.quote (utf8 l))),
      (utf8 "extra", utf8 "null")]

/-- `{"labels":["a"]}`. -/
def queryBytes : Bytes := utf8 "\x7b\"labels\":[\"a\"]\x7d"

def labelledSerde (labels : List String) : Serde Unit where
  labels := Codec.table [(labels, labelsText labels)]
  extra := Codec.table [((), "null")]
  registerRequest := Codec.table [(⟨9001, labels, ()⟩, registerBytes labels)]
  queryRequest := Codec.table [(⟨["a"]⟩, queryBytes)]
  queryResult :=
    ⟨fun r => some (resultBytes (r.nodes.map fun n => nodeBytes n "null")), fun _ => none⟩
  errorBody := ⟨fun e => some (errorBytes e.message), fun _ => none⟩

theorem labelledSerde_roundTrips (labels : List String) :
    (labelledSerde labels).ColumnsRoundTrip where
  labels := Codec.table_roundTrips (List.nodup_singleton _)
  extra := Codec.table_roundTrips (List.nodup_singleton _)

theorem labelledSerde_documents (labels : List String) : (labelledSerde labels).Documents where
  queryResult nodes items h := by
    have hitems : items = nodes.map fun n => nodeBytes n "null" := by
      induction h with
      | nil => rfl
      | cons hn _ ih =>
          obtain ⟨extra, hextra, rfl⟩ := hn
          obtain rfl : "null" = extra := Option.some.inj hextra
          rw [List.map_cons, ih]
    rw [hitems]
    rfl

def labelledNode (labels : List String) (ip : String) : NodeInfo Unit := ⟨ip, 9001, labels, ()⟩

def labelledFrame (labels : List String) : Frame := ⟨msgRegister, 0, false, 1, registerBytes labels⟩

/-- The registration of a peer goes through. -/
theorem labelledSerde_step {labels : List String} (hne : labels ≠ []) (peer : String)
    {c : Run Unit} (hlock : c.state.cycle.holdsLock = false) :
    ∃ s', Run.step (labelledSerde labels) c (.frame peer (labelledFrame labels) none 0)
        = some ⟨s', .registered (labelledNode labels peer) c.state.clock :: c.log⟩ ∧
      s'.cycle = c.state.cycle ∧ s'.clock = c.state.clock ∧
      s'.outbox = c.state.outbox ++ [⟨peer, msgRegisterAck, 1, ackBody⟩] := by
  have hnode : admitRegister (labelledSerde labels) peer (labelledFrame labels)
      = .ok (labelledNode labels peer) :=
    admitRegister_ok_iff.mpr ⟨_, Codec.table_decode_singleton _ _, hne, rfl⟩
  have hrow : rowOfNode (labelledSerde labels) 0 (labelledNode labels peer)
      = .ok ⟨peer, 9001, labelsText labels, "null", 0⟩ :=
    (rowOfNode_ok_iff _).mpr ⟨_, _, Codec.table_encode_singleton _ _,
      Codec.table_encode_singleton _ _, rfl⟩
  exact ⟨_, registered_step hlock rfl hnode hrow, rfl, rfl, rfl⟩

/-- The frame of `queryInput`: type 3, transaction 2. -/
def labelQuery : Frame := ⟨msgQuery, 0, false, 2, queryBytes⟩

def queryInput : Bytes := [0x18, 0, 0, 0, 0, 0, 0, 0, 2, 0, 16] ++ queryBytes

theorem read_queryInput :
    (readFrame TinyFrame.padProc).run queryInput = (.ok labelQuery, []) := by rfl

theorem query_answered_iff_one :
    ∃ c : Run Unit, c.log = [.registered (labelledNode ["a"] "10.0.0.7") 0] ∧
      (∃ nodes, Matching c.log ["a"] nodes) ∧
      ∀ nodes, Matching c.log ["a"] nodes →
        (Replied (labelledSerde ["a"]) TinyFrame.padProc 2 nodes ⟨[], none⟩
            (handleConn (labelledSerde ["a"]) TinyFrame.padProc TinyFrame.zeroNonce "10.0.0.9"
              queryInput none 0 c.state.clock c.state.inner ⟨[], none⟩).stream ↔
          resultLength (labelledSerde ["a"]) nodes ≤ 0xffff) := by
  obtain ⟨s, hstep, _⟩ := @labelledSerde_step ["a"] (by simp) "10.0.0.7"
    ⟨Sys.start (Inner.empty 100) 0, []⟩ rfl
  refine ⟨⟨s, _⟩, rfl, ?_⟩
  exact query_answered_iff (labelledSerde ["a"]) (labelledSerde_roundTrips _)
    (labelledSerde_documents _) TinyFrame.padProc TinyFrame.zeroNonce 100 0 _
    (.tail .refl hstep) queryInput [] labelQuery read_queryInput rfl ⟨["a"]⟩
    (Codec.table_decode_singleton _ _) (by simp) "10.0.0.9" 0 ⟨[], none⟩ rfl

/-- A short label and a long one: a registration has room for both. -/
def longLabels : List String := ["a", longText 15]

theorem length_registerBytes (labels : List String) : (registerBytes labels).length
    ≤ 38 + (labels.map fun l => textLength l + 2).sum + (labels.length - 1) := by
  have hport : JsonText.escapedLength (utf8 "port") = 4 := by decide +kernel
  have hlabels : JsonText.escapedLength (utf8 "labels") = 6 := by decide +kernel
  have hname : JsonText.escapedLength (utf8 "extra") = 5 := by decide +kernel
  have hnumber : (JsonText.number 9001).length ≤ 4 := @JsonText.length_number_le 3 _ (by decide)
  have hnull : (utf8 "null").length = 4 := by decide +kernel
  rw [registerBytes, JsonText.length_object]
  simp only [List.map_cons, List.map_nil, List.sum_cons, List.sum_nil, List.length_cons,
    List.length_nil, hport, hlabels, hname, hnull, length_labels]
  omega

theorem sum_longLabels : (longLabels.map fun l => textLength l + 2).sum = 2 ^ 15 + 5 := by
  have ha : textLength "a" = 1 := by decide +kernel
  rw [longLabels, List.map_cons, List.map_cons, List.map_nil, List.sum_cons, List.sum_cons,
    List.sum_nil, textLength_longText, ha]
  omega

/-- The two registrations and nothing else. -/
theorem matching_long : Matching
    [.registered (labelledNode longLabels "10.0.0.8") 0,
      .registered (labelledNode longLabels "10.0.0.7") 0] ["a"]
    [labelledNode longLabels "10.0.0.7", labelledNode longLabels "10.0.0.8"] where
  nodup := by
    show ["10.0.0.7", "10.0.0.8"].Nodup
    decide
  mem := by
    intro n
    rw [registration_registered, registration_registered, lastHealthWrite_registered,
      lastHealthWrite_registered]
    have ha : ∀ l ∈ ["a"], l ∈ longLabels := by
      intro l hl
      rw [List.mem_singleton.mp hl]
      exact List.mem_cons_self
    constructor
    · intro hmem
      rcases List.mem_cons.mp hmem with rfl | hmem
      · exact ⟨rfl, ha, rfl⟩
      · obtain rfl := List.mem_singleton.mp hmem
        exact ⟨rfl, ha, rfl⟩
    · rintro ⟨hreg, _, _⟩
      split at hreg
      · obtain rfl := Option.some.inj hreg
        exact List.mem_cons_of_mem _ List.mem_cons_self
      · split at hreg
        · obtain rfl := Option.some.inj hreg
          exact List.mem_cons_self
        · cases hreg

/-- Two registrations that a frame holds each and not both. -/
theorem resultLength_long : 0xffff < resultLength (labelledSerde longLabels)
    [labelledNode longLabels "10.0.0.7", labelledNode longLabels "10.0.0.8"] := by
  have hnode : ∀ ip, 2 ^ 15 ≤ nodeLength (labelledSerde longLabels) (labelledNode longLabels ip) := by
    intro ip
    have hsum : ((labelledNode longLabels ip).labels.map fun l => textLength l + 2).sum
        = 2 ^ 15 + 5 := sum_longLabels
    rw [nodeLength, hsum]
    omega
  have h₇ := hnode "10.0.0.7"
  have h₈ := hnode "10.0.0.8"
  rw [resultLength, List.map_cons, List.map_cons, List.map_nil, List.sum_cons, List.sum_cons,
    List.sum_nil]
  omega

/-- **Two peers silence every query for a label they share.**  Each registers in a
frame that fits, and is acknowledged; then nothing is written to whoever asks. -/
theorem query_not_answered :
    (labelledFrame longLabels).data.length ≤ 0xffff ∧
    (readFrame TinyFrame.padProc).run queryInput = (.ok labelQuery, []) ∧
    (labelledSerde longLabels).queryRequest.decode labelQuery.data = some ⟨["a"]⟩ ∧
    ∃ c : Run Unit, exec (Run.step (labelledSerde longLabels))
        ⟨Sys.start (Inner.empty 100) 0, []⟩
        [.frame "10.0.0.7" (labelledFrame longLabels) none 0,
          .frame "10.0.0.8" (labelledFrame longLabels) none 0] = some c ∧
      c.state.outbox = [⟨"10.0.0.7", msgRegisterAck, 1, ackBody⟩,
        ⟨"10.0.0.8", msgRegisterAck, 1, ackBody⟩] ∧
      ∀ nodes, ¬ Replied (labelledSerde longLabels) TinyFrame.padProc 2 nodes ⟨[], none⟩
        (handleConn (labelledSerde longLabels) TinyFrame.padProc TinyFrame.zeroNonce "10.0.0.9"
          queryInput none 0 c.state.clock c.state.inner ⟨[], none⟩).stream := by
  have hlength : (registerBytes longLabels).length ≤ 0xffff := by
    have hle := length_registerBytes longLabels
    rw [sum_longLabels] at hle
    exact hle.trans (by decide)
  refine ⟨hlength, read_queryInput, Codec.table_decode_singleton _ _, ?_⟩
  have hne : longLabels ≠ [] := List.cons_ne_nil _ _
  obtain ⟨s₁, hstep₁, hcycle₁, hclock₁, hout₁⟩ := labelledSerde_step hne "10.0.0.7"
    (show (⟨Sys.start (Inner.empty 100) 0, []⟩ : Run Unit).state.cycle.holdsLock = false from rfl)
  obtain ⟨s₂, hstep₂, _, _, hout₂⟩ := @labelledSerde_step longLabels hne "10.0.0.8"
    ⟨s₁, _⟩ (by rw [hcycle₁]; rfl)
  refine ⟨_, by rw [exec, hstep₁, Option.bind_some, exec, hstep₂]; rfl, ?_, ?_⟩
  · rw [hout₂, hout₁]
    rfl
  · intro nodes
    have hlog : Matching
        [.registered (labelledNode longLabels "10.0.0.8") s₁.clock,
          .registered (labelledNode longLabels "10.0.0.7") 0] ["a"]
        [labelledNode longLabels "10.0.0.7", labelledNode longLabels "10.0.0.8"] := by
      rw [hclock₁]
      exact matching_long
    rcases query_cases (labelledSerde_roundTrips longLabels) (labelledSerde_documents longLabels)
        TinyFrame.padProc TinyFrame.zeroNonce (.tail (.tail .refl hstep₁) hstep₂) read_queryInput
        rfl (Codec.table_decode_singleton _ _) (List.cons_ne_nil _ _) "10.0.0.9" 0
        (w := ⟨[], none⟩) rfl hlog with ⟨hle, _⟩ | ⟨_, hsame⟩
    · exact absurd hle (Nat.not_le_of_lt resultLength_long)
    · rw [hsame]
      exact not_replied_of_same

end Proto4.Dfinder
