/-
# `Proto4.PromProxy.Metrics` — gathered metrics on their way to the upstream

The calls of `client.rs`, `promproxy/client.go` and `promproxy/encode.go` that
start from metric families: encode them, compress the protobuf, send it as any
body is sent.  `prost` and `prompb` write the bytes, snappy compresses them, and
of either only the format is known (`Formats`).

What the upstream makes of a body is `receive`: decompress, and read the
request.  `Delivers` follows a call from the families to the upstream and back:
the body that is posted carries their series, or nothing is posted and the call
fails.
-/
import Proto4.GoPromproxy.Encode
import Proto4.PromProxy.EndToEnd
import Proto4.PromProxy.WriteRequest

namespace Proto4.PromProxy

open Lts
open TinyFrame (Key Nonce Proc)

/-! ## The body of a request -/

/-- How a call that starts from metrics fails: as any call does, or by a panic
before there is a body. -/
inductive SendError
  | client (e : ClientError)
  | panic (message : String)
  deriving DecidableEq, Repr

/-- `to_string`. -/
def EncodeError.toString : EncodeError → String
  | .prost message => s!"encode protobuf: {message}"
  | .msg message => message

/-- `prepare_remote_write_body`: `compress_vec`, and `expect`. -/
def prepareRemoteWriteBody (snappy : Codec Bytes Bytes) (protobufWriteRequest : Bytes) :
    Except SendError Bytes :=
  match snappy.encode protobufWriteRequest with
  | some body => .ok body
  | none => .error (.panic "snappy compress")

/-- `PrepareRemoteWriteBody`: `snappy.Encode` panics on what it cannot compress. -/
def goPrepareRemoteWriteBody (snappy : Codec Bytes Bytes) (protobufWriteRequest : Bytes) :
    GoTinyframe.Result Bytes :=
  match snappy.encode protobufWriteRequest with
  | some body => .ok body
  | none => .error (.panic "snappy: decoded block is too large")

/-! ## Rust -/

section
variable (decimal : Binary64 → String) (prost : PbWriteRequest → Except EncodeError Bytes)
  (snappy : Codec Bytes Bytes) (p : Proc) (js : Json) (nonceBytes : Nonce) (connect : Option Conn)

/-- `remote_write_protobuf`. -/
def Client.remoteWriteProtobuf (protobufWriteRequest : Bytes) (c : Client) :
    Except SendError UInt16 × Client :=
  match prepareRemoteWriteBody snappy protobufWriteRequest with
  | .error e => (.error e, c)
  | .ok body =>
      let (result, c') := c.remoteWrite p js nonceBytes connect body
      (result.mapError .client, c')

/-- `remote_write_protobuf_blocking`. -/
def Client.remoteWriteProtobufBlocking (protobufWriteRequest : Bytes) (c : Client) :
    Except SendError UInt16 × Client :=
  match prepareRemoteWriteBody snappy protobufWriteRequest with
  | .error e => (.error e, c)
  | .ok body =>
      let (result, c') := c.remoteWriteBlocking p js nonceBytes connect body
      (result.mapError .client, c')

/-- `remote_write_families`. -/
def Client.remoteWriteFamilies (now : Int64) (mfs : List MetricFamily) (c : Client) :
    Except SendError UInt16 × Client :=
  match encodeMetricFamilies decimal (encodeWriteRequest prost) now mfs with
  | .error e => (.error (.client (.protocol e.toString)), c)
  | .ok protobuf => c.remoteWriteProtobuf snappy p js nonceBytes connect protobuf

/-- `remote_write_families_blocking`. -/
def Client.remoteWriteFamiliesBlocking (now : Int64) (mfs : List MetricFamily) (c : Client) :
    Except SendError UInt16 × Client :=
  match encodeMetricFamilies decimal (encodeWriteRequest prost) now mfs with
  | .error e => (.error (.client (.protocol e.toString)), c)
  | .ok protobuf => c.remoteWriteProtobufBlocking snappy p js nonceBytes connect protobuf

/-- The two calls are one function. -/
theorem remoteWriteFamilies_eq_blocking (now : Int64) (mfs : List MetricFamily) (c : Client) :
    c.remoteWriteFamiliesBlocking decimal prost snappy p js nonceBytes connect now mfs
      = c.remoteWriteFamilies decimal prost snappy p js nonceBytes connect now mfs := by
  simp only [Client.remoteWriteFamiliesBlocking, Client.remoteWriteFamilies,
    Client.remoteWriteProtobufBlocking, Client.remoteWriteProtobuf, remoteWrite_eq_blocking]

end

/-! ## Go -/

section
variable (decimal : Binary64 → String) (marshal : PbWriteRequest → Except String Bytes)
  (snappy : Codec Bytes Bytes) (p : GoTinyframe.GoProc) (js : Json) (nonce : Nonce)
  (ctxErr : Option String) (dial : Except String Conn)

/-- `GatherAndEncode`; `gathered` is what the gatherer answers. -/
def gatherAndEncode (now : Int64) (gathered : Except String (List (Option MetricFamily))) :
    GoTinyframe.Result Bytes :=
  match gathered with
  | .error message => GoTinyframe.err s!"promproxy: gather: {message}"
  | .ok mfs =>
      (GoPromproxy.encodeMetricFamilies decimal
        (fun tss => marshal ⟨tss.map PbTimeSeries.ofSeries⟩) now mfs).mapError .err

/-- `RemoteWriteProtobuf`. -/
def GoClient.remoteWriteProtobuf (protobufWriteRequest : Bytes) (c : GoClient) :
    GoTinyframe.Result UInt16 × GoClient :=
  match goPrepareRemoteWriteBody snappy protobufWriteRequest with
  | .error e => (.error e, c)
  | .ok body => c.remoteWrite p js nonce ctxErr dial body

/-- `RemoteWriteGather`. -/
def GoClient.remoteWriteGather (now : Int64)
    (gathered : Except String (List (Option MetricFamily))) (c : GoClient) :
    GoTinyframe.Result UInt16 × GoClient :=
  match gatherAndEncode decimal marshal now gathered with
  | .error e => (.error e, c)
  | .ok body => c.remoteWriteProtobuf snappy p js nonce ctxErr dial body

end

/-! ## What arrives -/

/-- What the upstream makes of a body. -/
def receive (snappy : Codec Bytes Bytes) (body : Bytes) : Option PbWriteRequest :=
  (snappy.decode body).bind readWriteRequest

/-- The upstream reads these series in the body. -/
def Conveys (snappy : Codec Bytes Bytes) (body : Bytes) (series : List TimeSeries) : Prop :=
  ∃ req, receive snappy body = some req ∧
    List.Forall₂ SameSeries (series.map PbTimeSeries.ofSeries) req.timeseries

/-- What is known of the two formats: the protobuf encoder writes encodings, and
what was compressed is decompressed. -/
structure Formats {ε : Type} (encode : PbWriteRequest → Except ε Bytes)
    (snappy : Codec Bytes Bytes) : Prop where
  encodes : ∀ req bs, encode req = .ok bs → EncodesRequest req bs
  decompresses : snappy.RoundTrips

theorem conveys_of_encoded {ε : Type} {encode : PbWriteRequest → Except ε Bytes}
    {snappy : Codec Bytes Bytes} (hf : Formats encode snappy) {series : List TimeSeries}
    {protobuf body : Bytes} (hproto : encode ⟨series.map PbTimeSeries.ofSeries⟩ = .ok protobuf)
    (hbody : snappy.encode protobuf = some body) : Conveys snappy body series := by
  obtain ⟨req, hreq, hsame⟩ := decodes_of_encodes (hf.encodes _ _ hproto)
  refine ⟨req, ?_, hsame⟩
  rw [receive, hf.decompresses protobuf body hbody]
  exact hreq

/-- A call that starts from metrics, end to end.  `series` are those of the
metrics and `body` is what they come to, if all goes well.  If there is no body,
or it has no frame, the call fails on every connection and leaves no trace.
Otherwise a handler that has served it has posted the body once, the series are
what the upstream reads in it, and the call answers a status exactly when the
upstream accepted with it. -/
structure Delivers {δ : Type} (x : Proxy) (snappy : Codec Bytes Bytes) (messageType : UInt8)
    (series : Option (List TimeSeries)) (body : Option Bytes) (write : Sink UInt8 → Sink UInt8)
    (call : Conn → Except δ UInt16) : Prop where
  fails : (∀ b, body = some b → 31 < messageType ∨ 0xffff < b.length + 28) →
    (∀ conn, (∃ e, call conn = .error e) ∧ write conn.request = conn.request) ∧
    ∀ hash s h served, Reaches (Sys.step x) (Sys.start hash) s → h ∈ s.handlers →
      h.input = (write ⟨[], none⟩).written → h.stage = .done served → served.posted = []
  delivers : ∀ b, body = some b → messageType ≤ 31 → b.length + 28 ≤ 0xffff →
    (∃ tss, series = some tss ∧ Conveys snappy b tss) ∧
    ∀ hash s h served, Reaches (Sys.step x) (Sys.start hash) s → h ∈ s.handlers →
      h.input = (write ⟨[], none⟩).written → h.stream = ⟨[], none⟩ → h.stage = .done served →
        served.posted = [b] ∧ ∀ status,
          call ⟨⟨[], none⟩, served.stream.written⟩ = .ok status ↔ Accepts h.env b status

/-- What a call leaves on a connection: the write of its body, if it has one. -/
def written {ε : Type} (body : Option Bytes) (write : Bytes → Sink UInt8 → Except ε Unit × Sink UInt8)
    (w : Sink UInt8) : Sink UInt8 :=
  match body with
  | none => w
  | some b => (write b w).2

/-- A connection on which nothing was sent posts nothing. -/
theorem posted_of_silence {x : Proxy} {hash : EdgeHash} {s : Sys} {h : Handler} {served : Served}
    (hs : Reaches (Sys.step x) (Sys.start hash) s) (hmem : h ∈ s.handlers) (hinput : h.input = [])
    (hdone : h.stage = .done served) : served.posted = [] := by
  rw [served_of_run hs hmem hdone, hinput, handleConn, TinyFrame.readFrame_run]
  rfl

/-- **From the body to the metrics.**  A call that is end to end for every body
delivers the metrics its body carries. -/
theorem delivers_of_endToEnd {ε δ δ' : Type} {x : Proxy} {snappy : Codec Bytes Bytes}
    {messageType : UInt8} {series : Option (List TimeSeries)} {body : Option Bytes}
    {write : Bytes → Sink UInt8 → Except ε Unit × Sink UInt8}
    {send : Bytes → Conn → Except δ UInt16} {call : Conn → Except δ' UInt16}
    (hend : ∀ b, EndToEnd x messageType b (write b) (send b))
    (hcarries : ∀ b, body = some b → ∃ tss, series = some tss ∧ Conveys snappy b tss)
    (hnone : body = none → ∀ conn, ∃ e, call conn = .error e)
    (hcall : ∀ b, body = some b → ∀ conn status,
      call conn = .ok status ↔ send b conn = .ok status) :
    Delivers x snappy messageType series body (written body write) call where
  fails hno := by
    cases hbody : body with
    | none =>
        refine ⟨fun conn => ⟨hnone hbody conn, rfl⟩, ?_⟩
        intro hash s h served hs hmem hinput hdone
        exact posted_of_silence hs hmem hinput hdone
    | some b =>
        obtain ⟨hfails, hposted⟩ := (hend b).refused (hno b hbody)
        refine ⟨fun conn => ⟨?_, (hfails conn).2⟩, hposted⟩
        obtain ⟨e, he⟩ := (hfails conn).1
        cases hres : call conn with
        | error e' => exact ⟨e', rfl⟩
        | ok status =>
            have := (hcall b hbody conn status).mp hres
            rw [he] at this
            cases this
  delivers b hbody hm hfits := by
    refine ⟨hcarries b hbody, ?_⟩
    subst hbody
    intro hash s h served hs hmem hinput hstream hdone
    obtain ⟨hposted, hstatus⟩ := (hend b).served hm hfits hash s h served hs hmem hinput hstream hdone
    exact ⟨hposted, fun status => (hcall b rfl _ status).trans (hstatus status)⟩

/-! ## The calls -/

/-- The body of `remote_write_families`. -/
def familiesBody (decimal : Binary64 → String) (prost : PbWriteRequest → Except EncodeError Bytes)
    (snappy : Codec Bytes Bytes) (now : Int64) (mfs : List MetricFamily) : Option Bytes :=
  (encodeMetricFamilies decimal (encodeWriteRequest prost) now mfs).toOption.bind snappy.encode

/-- The series of `RemoteWriteGather`. -/
def gatheredSeries (decimal : Binary64 → String) (now : Int64)
    (gathered : Except String (List (Option MetricFamily))) : Option (List TimeSeries) :=
  gathered.toOption.bind fun mfs => (GoPromproxy.familiesSeries decimal now mfs).toOption

/-- The body of `RemoteWriteGather`. -/
def gatheredBody (decimal : Binary64 → String) (marshal : PbWriteRequest → Except String Bytes)
    (snappy : Codec Bytes Bytes) (now : Int64)
    (gathered : Except String (List (Option MetricFamily))) : Option Bytes :=
  (gatherAndEncode decimal marshal now gathered).toOption.bind snappy.encode

section
variable {decimal : Binary64 → String} {prost : PbWriteRequest → Except EncodeError Bytes}
  {marshal : PbWriteRequest → Except String Bytes} {snappy : Codec Bytes Bytes}

theorem familiesBody_some {now : Int64} {mfs : List MetricFamily} {b : Bytes} :
    familiesBody decimal prost snappy now mfs = some b ↔
      ∃ protobuf, prost ⟨(familiesSeries decimal now mfs).map PbTimeSeries.ofSeries⟩ = .ok protobuf ∧
        snappy.encode protobuf = some b := by
  show (prost ⟨(familiesSeries decimal now mfs).map PbTimeSeries.ofSeries⟩).toOption.bind
    snappy.encode = some b ↔ _
  cases prost ⟨(familiesSeries decimal now mfs).map PbTimeSeries.ofSeries⟩ with
  | error e =>
      refine iff_of_false (fun h => by cases h) ?_
      rintro ⟨_, h, _⟩
      cases h
  | ok protobuf =>
      constructor
      · intro h
        exact ⟨protobuf, rfl, h⟩
      · rintro ⟨_, h, hb⟩
        obtain rfl := Except.ok.inj h
        exact hb

/-- With a body, `remote_write_families` is `remote_write` of it; without one it fails. -/
theorem remoteWriteFamilies_eq (p : Proc) (js : Json) (n : Nonce) (connect : Option Conn)
    (now : Int64) (mfs : List MetricFamily) (c : Client) :
    match familiesBody decimal prost snappy now mfs with
    | some b => c.remoteWriteFamilies decimal prost snappy p js n connect now mfs
        = ((c.remoteWrite p js n connect b).1.mapError .client, (c.remoteWrite p js n connect b).2)
    | none => ∃ e, c.remoteWriteFamilies decimal prost snappy p js n connect now mfs = (.error e, c)
    := by
  rw [familiesBody, Client.remoteWriteFamilies]
  cases encodeMetricFamilies decimal (encodeWriteRequest prost) now mfs with
  | error e => exact ⟨_, rfl⟩
  | ok protobuf =>
      dsimp only [Except.toOption, Option.bind_some]
      rw [Client.remoteWriteProtobuf, prepareRemoteWriteBody]
      cases snappy.encode protobuf with
      | none => exact ⟨_, rfl⟩
      | some body => rfl

/-- With a body, `RemoteWriteGather` is `RemoteWrite` of it; without one it fails. -/
theorem remoteWriteGather_eq (p : GoTinyframe.GoProc) (js : Json) (n : Nonce)
    (ctxErr : Option String) (dial : Except String Conn) (now : Int64)
    (gathered : Except String (List (Option MetricFamily))) (c : GoClient) :
    match gatheredBody decimal marshal snappy now gathered with
    | some b => c.remoteWriteGather decimal marshal snappy p js n ctxErr dial now gathered
        = c.remoteWrite p js n ctxErr dial b
    | none => ∃ e,
        c.remoteWriteGather decimal marshal snappy p js n ctxErr dial now gathered = (.error e, c)
    := by
  rw [gatheredBody, GoClient.remoteWriteGather]
  cases gatherAndEncode decimal marshal now gathered with
  | error e => exact ⟨_, rfl⟩
  | ok protobuf =>
      dsimp only [Except.toOption, Option.bind_some]
      rw [GoClient.remoteWriteProtobuf, goPrepareRemoteWriteBody]
      cases snappy.encode protobuf with
      | none => exact ⟨_, rfl⟩
      | some body => rfl

theorem gatherAndEncode_ok {now : Int64} {gathered : Except String (List (Option MetricFamily))}
    {protobuf : Bytes} (h : gatherAndEncode decimal marshal now gathered = .ok protobuf) :
    ∃ tss, gatheredSeries decimal now gathered = some tss ∧
      marshal ⟨tss.map PbTimeSeries.ofSeries⟩ = .ok protobuf := by
  cases gathered with
  | error message => cases h
  | ok mfs =>
      have hok : GoPromproxy.encodeMetricFamilies decimal
          (fun tss => marshal ⟨tss.map PbTimeSeries.ofSeries⟩) now mfs = .ok protobuf := by
        rw [gatherAndEncode] at h
        cases henc : GoPromproxy.encodeMetricFamilies decimal
            (fun tss => marshal ⟨tss.map PbTimeSeries.ofSeries⟩) now mfs with
        | error e =>
            rw [henc] at h
            cases h
        | ok bs =>
            rw [henc] at h
            obtain rfl : bs = protobuf := Except.ok.inj h
            rfl
      obtain ⟨tss, htss, hm⟩ := Outcome.bind_ok_iff.mp hok
      refine ⟨tss, ?_, hm⟩
      show (GoPromproxy.familiesSeries decimal now mfs).toOption = some tss
      rw [htss]
      rfl

/-- **`remote_write_families` end to end.** -/
theorem remoteWriteFamilies_delivers (x : Proxy) (key : Key)
    (hkey : x.proc.keyCell = some (some key)) (hc : Honest x.proc.cipher key) (js : Json)
    (hjs : AcksDecode js x.json) (hf : Formats prost snappy) (n : Nonce) (c : Client) (p : Proc)
    (hpkey : p.keyCell = some (some key)) (hpcipher : p.cipher = x.proc.cipher)
    (htype : c.messageType = x.config.messageType) (now : Int64) (mfs : List MetricFamily) :
    Delivers x snappy c.messageType (some (familiesSeries decimal now mfs))
      (familiesBody decimal prost snappy now mfs)
      (written (familiesBody decimal prost snappy now mfs) (c.send p n))
      (fun conn => (c.remoteWriteFamilies decimal prost snappy p js n (some conn) now mfs).1) := by
  have hend : ∀ b, EndToEnd x c.messageType b (c.send p n b)
      (fun conn => (c.remoteWrite p js n (some conn) b).1) := by
    intro b
    have hcaller := caller_rust hpkey (by rw [hpcipher]; exact hc.seals) js n b c
    rw [hpcipher] at hcaller
    exact endToEnd_of_caller (eq_holding hkey) hc hjs htype hcaller
  refine delivers_of_endToEnd hend ?_ ?_ ?_
  · intro b hb
    obtain ⟨protobuf, hproto, hbody⟩ := familiesBody_some.mp hb
    exact ⟨_, rfl, conveys_of_encoded hf hproto hbody⟩
  · intro hb conn
    have heq := @remoteWriteFamilies_eq decimal prost snappy p js n (some conn) now mfs c
    rw [hb] at heq
    obtain ⟨e, he⟩ := heq
    exact ⟨e, congrArg Prod.fst he⟩
  · intro b hb conn status
    have heq := @remoteWriteFamilies_eq decimal prost snappy p js n (some conn) now mfs c
    rw [hb] at heq
    dsimp only at heq
    rw [heq]
    cases (c.remoteWrite p js n (some conn) b).1 with
    | error e => exact iff_of_false (fun h => by cases h) fun h => by cases h
    | ok got =>
        exact Iff.intro (fun h => congrArg _ (Except.ok.inj h)) fun h => congrArg _ (Except.ok.inj h)

/-- **`RemoteWriteGather` end to end.** -/
theorem remoteWriteGather_delivers (x : Proxy) (key : Key)
    (hkey : x.proc.keyCell = some (some key)) (hc : Honest x.proc.cipher key) (js : Json)
    (hjs : AcksDecode js x.json) (hf : Formats marshal snappy) (n : Nonce) (g : GoClient)
    (q : GoTinyframe.GoProc) (hgkey : g.key = key) (hqcipher : q.cipher = x.proc.cipher)
    (htype : g.messageType = x.config.messageType) (now : Int64)
    (gathered : Except String (List (Option MetricFamily))) :
    Delivers x snappy g.messageType (gatheredSeries decimal now gathered)
      (gatheredBody decimal marshal snappy now gathered)
      (written (gatheredBody decimal marshal snappy now gathered) (g.send q n))
      (fun conn =>
        (g.remoteWriteGather decimal marshal snappy q js n none (.ok conn) now gathered).1) := by
  subst hgkey
  have hend : ∀ b, EndToEnd x g.messageType b (g.send q n b)
      (fun conn => (g.remoteWrite q js n none (.ok conn) b).1) := by
    intro b
    have hcaller := caller_go q g (by rw [hqcipher]; exact hc.seals) js n b
    rw [hqcipher] at hcaller
    exact endToEnd_of_caller (eq_holding hkey) hc hjs htype hcaller
  refine delivers_of_endToEnd hend ?_ ?_ ?_
  · intro b hb
    obtain ⟨protobuf, hgather, hbody⟩ := Option.bind_eq_some_iff.mp hb
    obtain ⟨tss, htss, hm⟩ := gatherAndEncode_ok (Outcome.toOption_eq_some.mp hgather)
    exact ⟨tss, htss, conveys_of_encoded hf hm hbody⟩
  · intro hb conn
    have heq := @remoteWriteGather_eq decimal marshal snappy q js n none (.ok conn) now gathered g
    rw [hb] at heq
    obtain ⟨e, he⟩ := heq
    exact ⟨e, congrArg Prod.fst he⟩
  · intro b hb conn status
    have heq := @remoteWriteGather_eq decimal marshal snappy q js n none (.ok conn) now gathered g
    rw [hb] at heq
    dsimp only at heq
    rw [heq]

end

/-! One gauge, without repetitions: its block is one literal. -/

/-- Snappy at what is short and does not repeat itself: the length, the tag of a
literal, the bytes. -/
def literalSnappy : Codec Bytes Bytes where
  encode b :=
    if 0 < b.length ∧ b.length ≤ 60 then
      some (UInt8.ofNat b.length :: UInt8.ofNat (4 * (b.length - 1)) :: b)
    else if 60 < b.length ∧ b.length < 128 then
      some (UInt8.ofNat b.length :: 0xf0 :: UInt8.ofNat (b.length - 1) :: b)
    else none
  decode
    | _ :: tag :: rest => if tag = 0xf0 then some rest.tail else some rest
    | _ => none

def pi : Binary64 := .ofBits 0x400921fb54442d18

def piFamily : MetricFamily where
  name := "x"
  fieldType := .gauge
  metric := [⟨[], .ofUInt64 0, pi, ⟨0, .ofUInt64 0, []⟩, .ofUInt64 0, ⟨0, .ofUInt64 0, []⟩, some 7⟩]

theorem literalSnappy_roundTrips : literalSnappy.RoundTrips := by
  intro a b h
  rw [literalSnappy] at h
  dsimp only at h
  split at h
  · next hshort =>
      obtain rfl := Option.some.inj h
      refine if_neg fun htag => ?_
      have hnat := congrArg UInt8.toNat htag
      rw [Protobuf.toNat_ofNat (by omega)] at hnat
      have : (0xf0 : UInt8).toNat = 240 := rfl
      omega
  · split at h
    · obtain rfl := Option.some.inj h
      rfl
    · cases h

theorem literal_formats {ε : Type} :
    Formats (fun req => (.ok (requestBytes req) : Except ε Bytes)) literalSnappy where
  encodes req _ h := Except.ok.inj h ▸ encodes_requestBytes req
  decompresses := literalSnappy_roundTrips

theorem remoteWriteFamilies_delivers_pi :
    Delivers wordProxy literalSnappy msgRemoteWrite
      (some (familiesSeries (fun _ => "") 0 [piFamily]))
      (familiesBody (fun _ => "") (fun req => .ok (requestBytes req)) literalSnappy 0 [piFamily])
      (written (familiesBody (fun _ => "") (fun req => .ok (requestBytes req)) literalSnappy 0
        [piFamily]) (Client.new.send TinyFrame.padProc TinyFrame.zeroNonce))
      (fun conn => (Client.new.remoteWriteFamilies (fun _ => "") (fun req => .ok (requestBytes req))
        literalSnappy TinyFrame.padProc wordJson TinyFrame.zeroNonce (some conn) 0 [piFamily]).1) :=
  remoteWriteFamilies_delivers wordProxy TinyFrame.testKey rfl padCipher_honest wordJson
    wordJson_decodes literal_formats TinyFrame.zeroNonce Client.new TinyFrame.padProc rfl rfl rfl 0
    [piFamily]

/-- The Go client of the same configuration. -/
def goClient : GoClient := ⟨"", TinyFrame.testKey, msgRemoteWrite, 1⟩

def goProc : GoTinyframe.GoProc := ⟨TinyFrame.padCipher, TinyFrame.storeFlate⟩

theorem remoteWriteGather_delivers_pi :
    Delivers wordProxy literalSnappy msgRemoteWrite
      (gatheredSeries (fun _ => "") 0 (.ok [some piFamily]))
      (gatheredBody (fun _ => "") (fun req => .ok (requestBytes req)) literalSnappy 0
        (.ok [some piFamily]))
      (written (gatheredBody (fun _ => "") (fun req => .ok (requestBytes req)) literalSnappy 0
        (.ok [some piFamily])) (goClient.send goProc TinyFrame.zeroNonce))
      (fun conn => (goClient.remoteWriteGather (fun _ => "") (fun req => .ok (requestBytes req))
        literalSnappy goProc wordJson TinyFrame.zeroNonce none (.ok conn) 0
        (.ok [some piFamily])).1) :=
  remoteWriteGather_delivers wordProxy TinyFrame.testKey rfl padCipher_honest wordJson
    wordJson_decodes literal_formats TinyFrame.zeroNonce goClient goProc rfl rfl rfl 0
    (.ok [some piFamily])

end Proto4.PromProxy
