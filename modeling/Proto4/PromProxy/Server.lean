/-
# `Proto4.PromProxy.Server` — what the proxy forwards, and for whom

`src/prom_proxy/server.rs` and the messages of `protocol.rs`.  A connection
carries one request: a frame is read, its type compared with the configured
one, its data posted upstream as it is, and the answer sealed.

A connection is a function of what it cannot choose — the bytes the peer sends,
the upstream's answer, the nonce of the reply, the room its peer leaves — and
answers what it did: `posted` are the bodies handed to the HTTP client, as
`Env.send` put them on record, `edges` the counters incremented.

The proxy asks of a frame its type and never whether it was encrypted.  So a
posted body is a key holder's exactly as long as no plain frame is forwarded:
`handleConn_authentic_iff`.
-/
import Proto4.TinyFrame.Authentic

namespace Proto4.PromProxy

open TinyFrame

abbrev msgRemoteWrite : UInt8 := 10
abbrev msgRemoteWriteAck : UInt8 := 11
abbrev msgError : UInt8 := 12

/-- `serde_json` (or `encoding/json`) at the two bodies: the status of an
acknowledgement and the message of an error. -/
structure Json where
  ack : Codec UInt16 Bytes
  errorBody : Codec String Bytes

/-- What `handle_conn` reads of `ServerConfig`. -/
structure ServerConfig where
  messageType : UInt8

/-- What the HTTP client answers to a POST. -/
inductive Upstream
  | transport (message : String)
  | response (status : UInt16) (text : Option String)

/-- What a connection meets that is neither its peer's bytes nor its own doing. -/
structure Env where
  upstream : Bytes → Upstream
  nonceBytes : Nonce

inductive ServerError
  | tinyFrame (fault : Fault)
  | json
  deriving DecidableEq, Repr

/-- The two errors `post_remote_write` ends in. -/
inductive PostError
  | http (message : String)
  | msg (message : String)
  deriving DecidableEq, Repr

/-- `to_string`. -/
def PostError.toString : PostError → String
  | .http message => s!"http: {message}"
  | .msg message => message

/-- `StatusCode::is_success`. -/
def isSuccess (status : UInt16) : Bool := 200 ≤ status ∧ status < 300

/-- One POST by the HTTP client: what came of it, and the bodies it was handed. -/
def Env.send (env : Env) (body : Bytes) : Upstream × List Bytes := (env.upstream body, [body])

/-- How a post ended, and the bodies handed to the HTTP client for it. -/
abbrev Post := Except PostError UInt16 × List Bytes

def postRemoteWrite (env : Env) (body : Bytes) : Post :=
  let (answer, posted) := env.send body
  match answer with
  | .transport message => (.error (.http message), posted)
  | .response status text =>
      if isSuccess status ∨ status = 204 then (.ok status, posted)
      else
        let text := text.getD ""
        (.error (.msg s!"upstream HTTP {status}: {text}"), posted)

def forwardFrame (env : Env) (frame : Frame) : Post := postRemoteWrite env frame.data

/-- A sealed reply; a body that JSON cannot write is no reply. -/
def writeReply (p : Proc) (env : Env) (messageType : UInt8) (txId : UInt64) (body : Option Bytes)
    (w : Sink UInt8) : Except ServerError Unit × Sink UInt8 :=
  match body with
  | none => (.error .json, w)
  | some body =>
      let (result, w') := writeFrame p env.nonceBytes messageType txId body chacha20Poly1305 w
      (result.mapError ServerError.tinyFrame, w')

def writeError (p : Proc) (js : Json) (env : Env) (txId : UInt64) (message : String)
    (w : Sink UInt8) : Except ServerError Unit × Sink UInt8 :=
  writeReply p env msgError txId (js.errorBody.encode message) w

/-- What a connection did. -/
structure Served where
  result : Except ServerError Unit
  posted : List Bytes
  edges : List String
  stream : Sink UInt8

/-- `handle_conn`; a counter that cannot be incremented is only reported. -/
def handleConn (cfg : ServerConfig) (p : Proc) (js : Json) (env : Env) (input : Bytes)
    (w : Sink UInt8) : Served :=
  match (readFrame p).run input with
  | (.error fault, _) => ⟨.error (.tinyFrame fault), [], [], w⟩
  | (.ok frame, _) =>
      if frame.messageType ≠ cfg.messageType then
        let (result, w') :=
          writeError p js env frame.txId s!"unexpected message_type {frame.messageType}" w
        ⟨result, [], [], w'⟩
      else
        match forwardFrame env frame with
        | (.ok status, posted) =>
            let (result, w') :=
              writeReply p env msgRemoteWriteAck frame.txId (js.ack.encode status) w
            ⟨result, posted, ["remote_write_ok"], w'⟩
        | (.error e, posted) =>
            let (result, w') := writeError p js env frame.txId e.toString w
            ⟨result, posted, ["remote_write_err"], w'⟩

/-! ## A post -/

/-- The upstream took a request. -/
def Upstream.took : Upstream → Bool
  | .response status _ => 200 ≤ status ∧ status < 300
  | .transport _ => false

/-- The upstream answered with a 2xx status. -/
def Accepts (env : Env) (body : Bytes) (status : UInt16) : Prop :=
  200 ≤ status ∧ status < 300 ∧ ∃ text, env.upstream body = .response status text

theorem took_iff {env : Env} {body : Bytes} :
    (env.upstream body).took = true ↔ ∃ status, Accepts env body status := by
  cases hup : env.upstream body with
  | transport message =>
      refine iff_of_false Bool.false_ne_true ?_
      rintro ⟨_, _, _, _, h⟩
      cases hup.symm.trans h
  | response status text =>
      rw [Upstream.took, decide_eq_true_iff]
      constructor
      · rintro ⟨hlow, hhigh⟩
        exact ⟨status, hlow, hhigh, text, hup⟩
      · rintro ⟨_, hlow, hhigh, _, h⟩
        obtain ⟨rfl, _⟩ := Upstream.response.inj (hup.symm.trans h)
        exact ⟨hlow, hhigh⟩

/-- The statuses that `post_remote_write` asks for are the 2xx ones. -/
theorem isSuccess_iff {status : UInt16} :
    isSuccess status ∨ status = 204 ↔ 200 ≤ status ∧ status < 300 := by
  have hrange : isSuccess status = true ↔ 200 ≤ status ∧ status < 300 := by simp [isSuccess]
  rw [hrange]
  constructor
  · rintro (h | rfl)
    · exact h
    · decide
  · exact Or.inl

theorem postRemoteWrite_ok_iff {env : Env} {body : Bytes} {status : UInt16} :
    (postRemoteWrite env body).1 = .ok status ↔ Accepts env body status := by
  rw [postRemoteWrite, Accepts, Env.send]
  cases env.upstream body with
  | transport message => exact ⟨nofun, nofun⟩
  | response code text =>
      dsimp only
      split
      · next hsucc =>
          obtain ⟨hlow, hhigh⟩ := isSuccess_iff.mp hsucc
          constructor
          · intro h
            obtain rfl := Except.ok.inj h
            exact ⟨hlow, hhigh, text, rfl⟩
          · rintro ⟨_, _, text', h⟩
            obtain ⟨rfl, _⟩ := Upstream.response.inj h
            rfl
      · next hsucc =>
          constructor
          · intro h
            cases h
          · rintro ⟨hlow, hhigh, text', h⟩
            obtain ⟨rfl, _⟩ := Upstream.response.inj h
            exact absurd (isSuccess_iff.mpr ⟨hlow, hhigh⟩) hsucc

/-- A post hands its body to the client, once. -/
theorem posted_postRemoteWrite (env : Env) (body : Bytes) :
    (postRemoteWrite env body).2 = [body] := by
  rw [postRemoteWrite, Env.send]
  cases env.upstream body with
  | transport message => rfl
  | response code text =>
      dsimp only
      split
      · rfl
      · rfl

/-! ## A connection -/

/-- A frame of another type is not posted. -/
theorem handleConn_of_unexpected {cfg : ServerConfig} {p : Proc} {js : Json} {env : Env}
    {input rest : Bytes} {w : Sink UInt8} {f : Frame}
    (h : (readFrame p).run input = (.ok f, rest)) (htype : f.messageType ≠ cfg.messageType) :
    handleConn cfg p js env input w =
      let (result, w') :=
        writeError p js env f.txId s!"unexpected message_type {f.messageType}" w
      ⟨result, [], [], w'⟩ := by
  rw [handleConn, h]
  exact if_pos htype

/-- A frame of the configured type is posted, and the reply tells how it went. -/
theorem handleConn_of_expected {cfg : ServerConfig} {p : Proc} {js : Json} {env : Env}
    {input rest : Bytes} {w : Sink UInt8} {f : Frame}
    (h : (readFrame p).run input = (.ok f, rest)) (htype : f.messageType = cfg.messageType) :
    handleConn cfg p js env input w = match forwardFrame env f with
      | (.ok status, posted) =>
          let (result, w') := writeReply p env msgRemoteWriteAck f.txId (js.ack.encode status) w
          ⟨result, posted, ["remote_write_ok"], w'⟩
      | (.error e, posted) =>
          let (result, w') := writeError p js env f.txId e.toString w
          ⟨result, posted, ["remote_write_err"], w'⟩ := by
  rw [handleConn, h]
  exact if_neg (not_not.mpr htype)

theorem posted_of_read {cfg : ServerConfig} {p : Proc} {js : Json} {env : Env} {input rest : Bytes}
    {w : Sink UInt8} {f : Frame} (h : (readFrame p).run input = (.ok f, rest)) :
    (handleConn cfg p js env input w).posted
      = if f.messageType = cfg.messageType then [f.data] else [] := by
  by_cases htype : f.messageType = cfg.messageType
  · rw [handleConn_of_expected h htype, if_pos htype, ← posted_postRemoteWrite env f.data,
      ← forwardFrame]
    rcases forwardFrame env f with ⟨e | status, posted⟩
    · rfl
    · rfl
  · rw [handleConn_of_unexpected h htype, if_neg htype]

/-- **What is posted**: the data of the frame the input starts with, if it has
the configured type. -/
theorem mem_posted {cfg : ServerConfig} {p : Proc} {js : Json} {env : Env} {input : Bytes}
    {w : Sink UInt8} {body : Bytes} :
    body ∈ (handleConn cfg p js env input w).posted ↔
      ∃ f rest, (readFrame p).run input = (.ok f, rest) ∧ f.messageType = cfg.messageType ∧
        f.data = body := by
  constructor
  · intro h
    rcases hread : (readFrame p).run input with ⟨fault | f, rest⟩
    · simp only [handleConn, hread, List.not_mem_nil] at h
    · rw [posted_of_read hread] at h
      split at h
      · next htype => exact ⟨f, rest, rfl, htype, (List.mem_singleton.mp h).symm⟩
      · exact absurd h List.not_mem_nil
  · rintro ⟨f, rest, hread, htype, rfl⟩
    rw [posted_of_read hread, if_pos htype]
    exact List.mem_singleton.mpr rfl

/-! ## For whom -/

/-- `Vouched cipher key W messageType body`: some holder of the key wrote a
frame of this type with this content, encrypted. -/
def Vouched (cipher : Cipher) (key : Key) (W : Writes) (messageType : UInt8) (body : Bytes) :
    Prop :=
  ∃ f, WrittenEncrypted cipher key W f ∧ f.messageType = messageType ∧ f.data = body

/-- `PlainFrame p messageType input body`: the input starts with a complete
frame of this type whose encryption bit is clear and whose payload decompresses
to `body`. -/
def PlainFrame (p : Proc) (messageType : UInt8) (input body : Bytes) : Prop :=
  ∃ header txId payload rest, splitWire input = some (header, txId, payload, rest) ∧
    isEncrypted (header &&& flagsMask) = false ∧ header >>> 3 = messageType ∧
    decompressPayload p.flate (header &&& compressMask) payload = .ok body

/-- A plain frame is read as it stands. -/
theorem read_of_plainFrame {p : Proc} {messageType : UInt8} {input body : Bytes}
    (h : PlainFrame p messageType input body) :
    ∃ f rest, (readFrame p).run input = (.ok f, rest) ∧ f.messageType = messageType ∧
      f.data = body := by
  obtain ⟨header, txId, payload, rest, hsplit, hclear, htype, hdata⟩ := h
  obtain ⟨hle, heq⟩ := splitWire_eq_some.mp hsplit
  refine ⟨⟨header >>> 3, header &&& compressMask, isEncrypted (header &&& flagsMask), txId, body⟩,
    rest, ?_, htype, rfl⟩
  refine readFrame_ok_iff.mpr ⟨header, txId, payload, hle, heq, ?_⟩
  exact parseWireFrame_ok_iff.mpr ⟨payload, body, .clear hclear, hdata, rfl⟩

/-- What is read without encryption was a plain frame. -/
theorem plainFrame_of_read {p : Proc} {input rest : Bytes} {f : Frame}
    (h : (readFrame p).run input = (.ok f, rest)) (hplain : f.encrypted = false) :
    PlainFrame p f.messageType input f.data := by
  obtain ⟨header, txId, payload, hle, heq, hparse⟩ := readFrame_ok_iff.mp h
  obtain ⟨opened, data, ho, hd, rfl⟩ := parseWireFrame_ok_iff.mp hparse
  have hclear : isEncrypted (header &&& flagsMask) = false := hplain
  refine ⟨header, txId, payload, rest, splitWire_eq_some.mpr ⟨hle, heq⟩, hclear, rfl, ?_⟩
  cases ho with
  | clear _ => exact hd
  | sealed _ hflag _ _ _ =>
      rw [hclear] at hflag
      cases hflag

/-- An encrypted frame that was read is vouched for. -/
theorem vouched_of_read {p : Proc} {key : Key} {W : Writes} (hkey : p.keyCell = some (some key))
    (hunf : p.cipher.Unforgeable key (Sealed W))
    (hflate : ∀ x ∈ W, Flate.Decodes p.flate x.1) {input rest : Bytes} {f : Frame}
    (h : (readFrame p).run input = (.ok f, rest)) (henc : f.encrypted = true) :
    WrittenEncrypted p.cipher key W f := by
  obtain ⟨header, txId, payload, hle, _, hparse⟩ := readFrame_ok_iff.mp h
  exact written_of_parse hkey hunf hflate hle hparse henc

/-- **Who may post.**  Whatever a peer sends, every body posted is vouched for
by a holder of the key — exactly when any plain frame of the configured type it
starts with is. -/
theorem handleConn_authentic_iff (cfg : ServerConfig) (p : Proc) (js : Json) (env : Env)
    (key : Key) (hkey : p.keyCell = some (some key)) (W : Writes)
    (hunf : p.cipher.Unforgeable key (Sealed W))
    (hflate : ∀ x ∈ W, Flate.Decodes p.flate x.1) (input : Bytes) (w : Sink UInt8) :
    (∀ body ∈ (handleConn cfg p js env input w).posted,
        Vouched p.cipher key W cfg.messageType body) ↔
      ∀ body, PlainFrame p cfg.messageType input body →
        Vouched p.cipher key W cfg.messageType body := by
  constructor
  · intro h body hplain
    exact h body (mem_posted.mpr (read_of_plainFrame hplain))
  · intro h body hbody
    obtain ⟨f, rest, hread, htype, rfl⟩ := mem_posted.mp hbody
    cases henc : f.encrypted with
    | true => exact ⟨f, vouched_of_read hkey hunf hflate hread henc, htype, rfl⟩
    | false => exact h f.data (htype ▸ plainFrame_of_read hread henc)

/-! The proxy of the repository's own configuration, whose key one request was
sealed under (`oneCall`), and a peer that does not know it. -/

/-- The acknowledgement of status 200. -/
def statusBody : Bytes := utf8 "\x7b\"status\":200\x7d"

def oneJson : Json where
  ack := Codec.table [(200, statusBody)]
  errorBody := Codec.table []

def oneEnv : Env := ⟨fun _ => .response 200 none, zeroNonce⟩

/-- Type 10, no flags, transaction 7, one byte. -/
def plainInput : Bytes := [0x50, 0, 0, 0, 0, 0, 0, 0, 7, 0, 1, 0x78]

theorem handleConn_authentic_iff_one :
    (∀ body ∈ (handleConn ⟨msgRemoteWrite⟩ oneProc oneJson oneEnv plainInput ⟨[], none⟩).posted,
        Vouched oneProc.cipher testKey {(storeFlate, oneCall)} msgRemoteWrite body) ↔
      ∀ body, PlainFrame oneProc msgRemoteWrite plainInput body →
        Vouched oneProc.cipher testKey {(storeFlate, oneCall)} msgRemoteWrite body :=
  handleConn_authentic_iff ⟨msgRemoteWrite⟩ oneProc oneJson oneEnv testKey rfl _
    oneProc_unforgeable (decodes_singleton oneCall) plainInput ⟨[], none⟩

/-- The plain frame is posted though nobody who holds the key wrote it. -/
theorem handleConn_not_authentic :
    oneProc.cipher.Unforgeable testKey (Sealed {(storeFlate, oneCall)}) ∧
      ¬ ∀ body ∈ (handleConn ⟨msgRemoteWrite⟩ oneProc oneJson oneEnv plainInput ⟨[], none⟩).posted,
        Vouched oneProc.cipher testKey {(storeFlate, oneCall)} msgRemoteWrite body := by
  refine ⟨oneProc_unforgeable, ?_⟩
  intro h
  obtain ⟨f, ⟨fl, c, buf, hmem, _, _, rfl⟩, _, hdata⟩ := h [0x78] (List.mem_singleton.mpr rfl)
  obtain ⟨rfl, rfl⟩ := Prod.mk.inj (Set.mem_singleton_iff.mp hmem)
  exact absurd hdata (by decide)

end Proto4.PromProxy
