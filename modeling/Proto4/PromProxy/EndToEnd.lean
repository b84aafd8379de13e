/-
# `Proto4.PromProxy.EndToEnd` — one call, from the client's body to its result

A client writes one request, the running proxy serves it among any number of
others, and the client reads what the proxy wrote.  Three clients make the same
call — Rust's two and Go's — so the argument is made once, about anything that
writes a sealed request and decides from the frame it reads (`Caller`).

The exchange with the upstream is an oracle.  What Redis does is part of the run
of the proxy and does not show: a handler that is done has served its connection
as `handle_conn` does (`served_of_run`).
-/
import Proto4.GoTinyframe.Writers
import Proto4.PromProxy.Accounting
import Proto4.PromProxy.Client

namespace Proto4.PromProxy

open Lts Outcome
open TinyFrame (Key Nonce Cipher Flate Proc Frame readFrame writeFrame buildWireFrame
  chacha20Poly1305)
open GoTinyframe (Representable Seals WritesExactly)

/-- A process that holds `key`. -/
def holding (cipher : Cipher) (fl : Flate) (key : Key) : Proc := ⟨cipher, fl, some (some key)⟩

/-! ## Sealed frames -/

/-- A sealed uncompressed request has a frame if its type has five bits and it
leaves room for the nonce and the tag. -/
theorem representable_sealed {fl : Flate} {messageType : UInt8} {data : Bytes} :
    Representable fl messageType chacha20Poly1305 data ↔
      messageType ≤ 31 ∧ data.length + 28 ≤ 0xffff := by
  constructor
  · rintro ⟨hm, _, _, compressed, hc, hfits⟩
    obtain rfl : data = compressed := Except.ok.inj hc
    exact ⟨hm, hfits⟩
  · rintro ⟨hm, hfits⟩
    exact ⟨hm, by decide, by decide, data, rfl, hfits⟩

/-- The laws of the cipher that a sealed exchange needs. -/
structure Honest (cipher : Cipher) (key : Key) : Prop where
  correct : ∀ k, cipher.Correct k
  overhead : ∀ k, cipher.Overhead k TinyFrame.tagLen
  seals : Seals cipher key

/-- A sealed uncompressed frame is read by any holder of the key, whatever the
compressors of the two sides. -/
theorem read_of_sealed {cipher : Cipher} {fl : Flate} {key : Key} (hc : Honest cipher key)
    (fl' : Flate) {n : Nonce} {messageType : UInt8} {txId : UInt64} {data buf : Bytes}
    (h : buildWireFrame (holding cipher fl key) n messageType txId data chacha20Poly1305 = .ok buf) :
    (readFrame (holding cipher fl' key)).run buf
      = (.ok ⟨messageType, 0, true, txId, data⟩, []) := by
  have hread := TinyFrame.takes_uncompressed (r := holding cipher fl' key) (by decide) h
    (by
      intro header compressed payload hp
      exact TinyFrame.opens_of_protects (r := holding cipher fl' key) (w := holding cipher fl key)
        rfl rfl hc.correct hc.overhead hp) []
  rwa [List.append_nil] at hread

/-- A reply that fits is written. -/
theorem writeReply_fits {cipher : Cipher} {key : Key} (hc : Honest cipher key) (fl : Flate)
    (env : Env) {messageType : UInt8} (hm : messageType ≤ 31) (txId : UInt64) {body : Bytes}
    (hfits : body.length + 28 ≤ 0xffff) {w : Sink UInt8} (hfree : w.room = none) :
    ∃ buf, writeReply (holding cipher fl key) env messageType txId (some body) w
        = (.ok (), { w with written := w.written ++ buf }) ∧
      buildWireFrame (holding cipher fl key) env.nonceBytes messageType txId body chacha20Poly1305
        = .ok buf := by
  obtain ⟨buf, hbuf⟩ := (GoTinyframe.build_ok_iff_representable (p := holding cipher fl key) rfl
    hc.seals env.nonceBytes messageType txId body chacha20Poly1305).mpr
    (representable_sealed.mpr ⟨hm, hfits⟩)
  refine ⟨buf, ?_, hbuf⟩
  simp only [writeReply, writeFrame, hbuf, TinyFrame.writeAll, Sink.push, hfree]
  rfl

/-- One that does not fit leaves nothing behind. -/
theorem writeReply_refused {cipher : Cipher} {key : Key} (hc : Honest cipher key) (fl : Flate)
    (env : Env) (messageType : UInt8) (txId : UInt64) {body : Bytes}
    (hlong : 0xffff < body.length + 28) (w : Sink UInt8) :
    ∃ e, writeReply (holding cipher fl key) env messageType txId (some body) w = (.error e, w) := by
  have hrep : ¬ Representable fl messageType chacha20Poly1305 body := by
    intro h
    have := (representable_sealed.mp h).2
    omega
  obtain ⟨e, he⟩ := (GoTinyframe.writesExactly_rust (p := holding cipher fl key) rfl hc.seals
    env.nonceBytes messageType txId body chacha20Poly1305).rejects hrep w
  refine ⟨.tinyFrame e, ?_⟩
  simp only [writeReply, he]
  rfl

/-- Whatever a reply is, either nothing of it was written or its frame was. -/
theorem writeReply_cases (p : Proc) (env : Env) (messageType : UInt8) (txId : UInt64)
    (body : Option Bytes) :
    (writeReply p env messageType txId body ⟨[], none⟩).2.written = [] ∨
      ∃ data, buildWireFrame p env.nonceBytes messageType txId data chacha20Poly1305
        = .ok (writeReply p env messageType txId body ⟨[], none⟩).2.written := by
  cases body with
  | none => exact Or.inl rfl
  | some data =>
      cases hb : buildWireFrame p env.nonceBytes messageType txId data chacha20Poly1305 with
      | error e =>
          refine Or.inl ?_
          rw [writeReply, writeFrame, hb]
      | ok buf =>
          refine Or.inr ⟨data, ?_⟩
          rw [hb, writeReply, writeFrame, hb]
          rfl

/-- Whatever is read of a reply has the reply's type. -/
theorem type_of_reply {cipher : Cipher} {fl : Flate} {key : Key} (hc : Honest cipher key)
    (fl' : Flate) {env : Env} {messageType : UInt8} {txId : UInt64} {body : Option Bytes}
    {f : Frame} {rest : Bytes}
    (h : (readFrame (holding cipher fl' key)).run
      (writeReply (holding cipher fl key) env messageType txId body ⟨[], none⟩).2.written
        = (.ok f, rest)) : f.messageType = messageType := by
  rcases writeReply_cases (holding cipher fl key) env messageType txId body with
    hnone | ⟨data, hbuilt⟩
  · rw [hnone] at h
    cases h
  · rw [read_of_sealed hc fl' hbuilt] at h
    obtain ⟨hf, _⟩ := Prod.mk.inj h
    obtain rfl := Except.ok.inj hf
    rfl

/-! ## The proxy's side -/

/-- What the JSON of the two sides has to do: every status is written, briefly,
and read back. -/
structure AcksDecode (client server : Json) : Prop where
  decodes : Codec.Decodes client.ack.decode server.ack.encode
  total : ∀ status, ∃ body, server.ack.encode status = some body ∧ body.length + 28 ≤ 0xffff

/-- What a connection writes when its frame is forwarded. -/
theorem stream_of_read {cfg : ServerConfig} {p : Proc} {js : Json} {env : Env} {input rest : Bytes}
    {w : Sink UInt8} {f : Frame} (h : (readFrame p).run input = (.ok f, rest))
    (htype : f.messageType = cfg.messageType) :
    (handleConn cfg p js env input w).stream = match (forwardFrame env f).1 with
      | .ok status => (writeReply p env msgRemoteWriteAck f.txId (js.ack.encode status) w).2
      | .error e => (writeError p js env f.txId e.toString w).2 := by
  rw [handleConn_of_expected h htype]
  rcases forwardFrame env f with ⟨e | status, posted⟩
  · rfl
  · rfl

/-- **What a sealed request meets.**  It is posted, once, as it is; and the
reply holds an acknowledgement of a status exactly when the upstream gave it. -/
theorem handleConn_of_sealed (cfg : ServerConfig) {cipher : Cipher} (fl : Flate) {fl' : Flate}
    {key : Key} (hc : Honest cipher key) {client server : Json} (hjs : AcksDecode client server) (env : Env)
    {n : Nonce} {txId : UInt64} {body buf : Bytes}
    (hbuild : buildWireFrame (holding cipher fl' key) n cfg.messageType txId body chacha20Poly1305
      = .ok buf) :
    (handleConn cfg (holding cipher fl key) server env buf ⟨[], none⟩).posted = [body] ∧
    ∀ status, (∃ f rest, (readFrame (holding cipher fl' key)).run
        (handleConn cfg (holding cipher fl key) server env buf ⟨[], none⟩).stream.written
          = (.ok f, rest) ∧
        f.messageType = msgRemoteWriteAck ∧ client.ack.decode f.data = some status) ↔
      Accepts env body status := by
  have hread := read_of_sealed hc fl hbuild
  refine ⟨(posted_of_read hread).trans (if_pos rfl), fun status => ?_⟩
  rw [stream_of_read hread rfl, ← postRemoteWrite_ok_iff]
  show _ ↔ (forwardFrame env ⟨cfg.messageType, 0, true, txId, body⟩).1 = .ok status
  cases (forwardFrame env ⟨cfg.messageType, 0, true, txId, body⟩).1 with
  | ok code =>
      obtain ⟨ack, hack, hfits⟩ := hjs.total code
      obtain ⟨reply, hreply, hbuilt⟩ := writeReply_fits hc fl env
        (show msgRemoteWriteAck ≤ 31 by decide) txId hfits (w := ⟨[], none⟩) rfl
      have hback := read_of_sealed hc fl' hbuilt
      have hdecode := hjs.decodes code ack hack
      dsimp only
      rw [hack, hreply]
      dsimp only
      rw [List.nil_append, hback]
      constructor
      · rintro ⟨f, rest, heq, _, hdec⟩
        obtain ⟨hf, _⟩ := Prod.mk.inj heq
        obtain rfl := Except.ok.inj hf
        exact congrArg _ (Option.some.inj (hdecode.symm.trans hdec))
      · intro heq
        obtain rfl := Except.ok.inj heq
        exact ⟨_, _, rfl, rfl, hdecode⟩
  | error e =>
      refine iff_of_false ?_ nofun
      rintro ⟨f, rest, hreply, htype, _⟩
      have herror : f.messageType = msgError := type_of_reply hc fl' hreply
      exact absurd (herror.symm.trans htype) (by decide)

/-! ## The client's side -/

/-- A call of any of the clients, as a function of its connection: it writes one
sealed request and decides from the frame it then reads. -/
structure Caller {ε δ : Type} (cipher : Cipher) (fl : Flate) (key : Key) (js : Json) (n : Nonce)
    (messageType : UInt8) (txId : UInt64) (body : Bytes)
    (write : Sink UInt8 → Except ε Unit × Sink UInt8) (call : Conn → Except δ UInt16) : Prop where
  exact : WritesExactly fl messageType txId body chacha20Poly1305 write
  built : ∀ w, write ⟨[], none⟩ = (.ok (), w) →
    buildWireFrame (holding cipher fl key) n messageType txId body chacha20Poly1305 = .ok w.written
  fails : ∀ conn e, (write conn.request).1 = .error e → ∃ e', call conn = .error e'
  reads : ∀ conn status, (write conn.request).1 = .ok () →
    (call conn = .ok status ↔ ∃ f rest,
      (readFrame (holding cipher fl key)).run conn.reply = (.ok f, rest) ∧
        f.messageType = msgRemoteWriteAck ∧ js.ack.decode f.data = some status)

/-- A call end to end.  A request without a frame fails and leaves no trace: nothing
is written on any connection, and a connection with nothing on it posts
nothing.  Any other is written, and whatever else the proxy does meanwhile, a
handler that has served it has posted the body once, as it is, and the call
answers a status exactly when the upstream accepted with it.  And every handler
has served its connection after at most four steps of its own, whatever Redis
answers to them. -/
structure EndToEnd {ε δ : Type} (x : Proxy) (messageType : UInt8) (body : Bytes)
    (write : Sink UInt8 → Except ε Unit × Sink UInt8) (call : Conn → Except δ UInt16) : Prop where
  refused : 31 < messageType ∨ 0xffff < body.length + 28 →
    (∀ conn, (∃ e, call conn = .error e) ∧ (write conn.request).2 = conn.request) ∧
    ∀ hash s h served, Reaches (Sys.step x) (Sys.start hash) s → h ∈ s.handlers →
      h.input = (write ⟨[], none⟩).2.written → h.stage = .done served → served.posted = []
  served : messageType ≤ 31 → body.length + 28 ≤ 0xffff →
    ∀ hash s h served, Reaches (Sys.step x) (Sys.start hash) s → h ∈ s.handlers →
      h.input = (write ⟨[], none⟩).2.written → h.stream = ⟨[], none⟩ →
      h.stage = .done served →
        served.posted = [body] ∧ ∀ status,
          call ⟨⟨[], none⟩, served.stream.written⟩ = .ok status ↔ Accepts h.env body status
  completes : ∀ (s : Sys) i h (faults : List (Option String)), s.handlers[i]? = some h →
    4 ≤ faults.length →
    ∃ used s' served, used <+: faults ∧
      exec (Sys.step x) s (used.map (.handle i)) = some s' ∧
      s'.handlers[i]? = some { h with stage := .done served }

theorem endToEnd_of_caller {ε δ : Type} {x : Proxy} {cipher : Cipher} {fl fl' : Flate} {key : Key}
    (hproc : x.proc = holding cipher fl key) (hc : Honest cipher key) {js : Json}
    (hjs : AcksDecode js x.json) {n : Nonce} {messageType : UInt8}
    (htype : messageType = x.config.messageType) {txId : UInt64} {body : Bytes}
    {write : Sink UInt8 → Except ε Unit × Sink UInt8} {call : Conn → Except δ UInt16}
    (h : Caller cipher fl' key js n messageType txId body write call) :
    EndToEnd x messageType body write call where
  refused hno := by
    have hrep : ¬ Representable fl' messageType chacha20Poly1305 body := by
      intro hrep
      obtain ⟨hm, hfits⟩ := representable_sealed.mp hrep
      rcases hno with hlt | hlt
      · exact UInt8.not_lt.mpr hm hlt
      · omega
    refine ⟨?_, ?_⟩
    · intro conn
      obtain ⟨e, he⟩ := h.exact.rejects hrep conn.request
      exact ⟨h.fails conn e (by rw [he]), by rw [he]⟩
    · intro hash s hd served hs hmem hinput hdone
      obtain ⟨e, he⟩ := h.exact.rejects hrep ⟨[], none⟩
      rw [he] at hinput
      rw [served_of_run hs hmem hdone, hinput, handleConn, TinyFrame.readFrame_run]
      rfl
  served hm hfits := by
    intro hash s hd served hs hmem hinput hstream hdone
    obtain ⟨w, hw⟩ := (h.exact.succeeds_iff ⟨[], none⟩ rfl).mpr
      (representable_sealed.mpr ⟨hm, hfits⟩)
    have hbuild := h.built w hw
    rw [htype] at hbuild
    rw [hw] at hinput
    have hserved := served_of_run hs hmem hdone
    rw [hinput, hstream, hproc] at hserved
    obtain ⟨hposted, hreply⟩ :=
      handleConn_of_sealed x.config fl hc hjs hd.env hbuild
    rw [← hserved] at hposted hreply
    refine ⟨hposted, fun status => ?_⟩
    rw [h.reads ⟨⟨[], none⟩, served.stream.written⟩ status (by rw [hw])]
    exact hreply status
  completes s i hd faults hget hlen := done_of_steps hget ((left_le hd.stage).trans hlen)

/-! ### Rust -/

theorem eq_holding {p : Proc} {key : Key} (hkey : p.keyCell = some (some key)) :
    p = holding p.cipher p.flate key := by
  obtain ⟨cipher, fl, cell⟩ := p
  obtain rfl : cell = some (some key) := hkey
  rfl

/-- The write of a Rust call. -/
def Client.send (p : Proc) (n : Nonce) (body : Bytes) (c : Client) :
    Sink UInt8 → TinyFrame.Result Unit × Sink UInt8 :=
  writeFrame p n c.messageType c.nextTx body chacha20Poly1305

theorem caller_rust {p : Proc} {key : Key} (hkey : p.keyCell = some (some key))
    (hseals : Seals p.cipher key) (js : Json) (n : Nonce) (body : Bytes) (c : Client) :
    Caller p.cipher p.flate key js n c.messageType c.nextTx body (c.send p n body)
      fun conn => (c.remoteWrite p js n (some conn) body).1 where
  exact := GoTinyframe.writesExactly_rust hkey hseals n c.messageType c.nextTx body _
  built w hw := by
    rw [← eq_holding hkey]
    rw [Client.send, writeFrame] at hw
    cases hb : buildWireFrame p n c.messageType c.nextTx body chacha20Poly1305 with
    | error e =>
        rw [hb] at hw
        cases hw
    | ok buf =>
        rw [hb] at hw
        obtain ⟨_, rfl⟩ := Prod.mk.inj hw
        rfl
  fails conn e he := by
    refine ⟨.tinyFrame e, ?_⟩
    rw [Client.send] at he
    simp only [Client.remoteWrite, Client.nextTxId, he]
  reads conn status hw := by
    rw [← eq_holding hkey]
    rw [Client.send] at hw
    simp only [Client.remoteWrite, Client.nextTxId, hw]
    rcases hread : (readFrame p).run conn.reply with ⟨fault | frame, rest⟩
    · refine iff_of_false ?_ ?_
      · intro h
        cases h
      · rintro ⟨_, _, h, _⟩
        cases h
    · rw [decodeResponse_ok_iff]
      constructor
      · intro h
        exact ⟨frame, rest, rfl, h⟩
      · rintro ⟨f, rest', heq, h⟩
        obtain rfl := Except.ok.inj (Prod.mk.inj heq).1
        exact h

/-! ### Go -/

/-- The write of a Go call. -/
def GoClient.send (p : GoTinyframe.GoProc) (n : Nonce) (body : Bytes) (c : GoClient) :
    Sink UInt8 → GoTinyframe.Result Unit × Sink UInt8 :=
  GoTinyframe.writeFrameWithKey p n c.messageType c.nextTx body GoTinyframe.chaCha20Poly1305
    (some c.key)

theorem caller_go (p : GoTinyframe.GoProc) (c : GoClient) (hseals : Seals p.cipher c.key)
    (js : Json) (n : Nonce) (body : Bytes) :
    Caller p.cipher p.flate c.key js n c.messageType c.nextTx body (c.send p n body)
      fun conn => (c.remoteWrite p js n none (.ok conn) body).1 where
  exact := GoTinyframe.writesExactly_go p hseals n c.messageType c.nextTx body _
  built w hw := by
    refine ((GoTinyframe.encodeFrame_agrees p c.key n c.messageType c.nextTx body _).ok_iff _).mpr ?_
    rw [GoClient.send, GoTinyframe.writeFrameWithKey] at hw
    cases hb : GoTinyframe.encodeFrame p n c.messageType c.nextTx body
        GoTinyframe.chaCha20Poly1305 (some c.key) with
    | error e =>
        rw [hb] at hw
        cases hw
    | ok buf =>
        rw [hb] at hw
        obtain ⟨_, rfl⟩ := Prod.mk.inj hw
        rfl
  fails conn e he := by
    refine ⟨wrapErr "promproxy: write request" e, ?_⟩
    rw [GoClient.send] at he
    simp only [GoClient.remoteWrite, GoClient.nextTxID, he]
  reads conn status hw := by
    rw [GoClient.send] at hw
    simp only [GoClient.remoteWrite, GoClient.nextTxID, hw]
    constructor
    · intro h
      rcases hread : (GoTinyframe.readFrameWithKey p (some c.key)).run conn.reply with
        ⟨e | g, rest⟩
      · rw [hread] at h
        cases h
      · rw [hread] at h
        obtain ⟨f, hf, rfl⟩ := GoTinyframe.rust_of_read hread
        exact ⟨f, rest, hf,
          decodeResponse_ok_iff.mp (((decodeResponse_agrees js f).ok_iff status).mpr h)⟩
    · rintro ⟨f, rest, hf, h⟩
      rw [GoTinyframe.read_of_rust hf]
      exact ((decodeResponse_agrees js f).ok_iff status).mp (decodeResponse_ok_iff.mpr h)

/-! ## The three calls -/

/-- **`remote_write` end to end.**  For the three clients, a proxy that shares
key and message type, any cipher with its documented laws and any JSON in which
acknowledgements come through. -/
theorem remoteWrite_endToEnd (x : Proxy) (key : Key) (hkey : x.proc.keyCell = some (some key))
    (hc : Honest x.proc.cipher key) (js : Json) (hjs : AcksDecode js x.json) (n : Nonce)
    (body : Bytes) (c : Client) (p : Proc) (hpkey : p.keyCell = some (some key))
    (hpcipher : p.cipher = x.proc.cipher) (htype : c.messageType = x.config.messageType)
    (g : GoClient) (q : GoTinyframe.GoProc) (hgkey : g.key = key)
    (hqcipher : q.cipher = x.proc.cipher) (hgtype : g.messageType = x.config.messageType) :
    EndToEnd x c.messageType body (c.send p n body)
        (fun conn => (c.remoteWrite p js n (some conn) body).1) ∧
      EndToEnd x c.messageType body (c.send p n body)
        (fun conn => (c.remoteWriteBlocking p js n (some conn) body).1) ∧
      EndToEnd x g.messageType body (g.send q n body)
        (fun conn => (g.remoteWrite q js n none (.ok conn) body).1) := by
  have hproc := eq_holding hkey
  have hrust : EndToEnd x c.messageType body (c.send p n body)
      (fun conn => (c.remoteWrite p js n (some conn) body).1) := by
    have hcaller := caller_rust hpkey (by rw [hpcipher]; exact hc.seals) js n body c
    rw [hpcipher] at hcaller
    exact endToEnd_of_caller hproc hc hjs htype hcaller
  refine ⟨hrust, ?_, ?_⟩
  · simp only [remoteWrite_eq_blocking]
    exact hrust
  · subst hgkey
    have hcaller := caller_go q g (by rw [hqcipher]; exact hc.seals) js n body
    rw [hqcipher] at hcaller
    exact endToEnd_of_caller hproc hc hjs hgtype hcaller

/-! The repository's own key and type, over a cipher that pads. -/

theorem padCipher_honest : Honest TinyFrame.padCipher TinyFrame.testKey where
  correct := TinyFrame.padCipher_correct
  overhead := TinyFrame.padCipher_overhead
  seals := GoTinyframe.padCipher_seals _

/-- Two bytes for a status. -/
def wordJson : Json where
  ack := ⟨fun status => some (BigEndian.ofU16 status),
    fun b => if b.length = 2 then some (BigEndian.toU16 b) else none⟩
  errorBody := ⟨fun _ => none, fun _ => none⟩

theorem wordJson_decodes : AcksDecode wordJson wordJson where
  decodes status b h := by
    obtain rfl := Option.some.inj h
    show (if (BigEndian.ofU16 status).length = 2 then some _ else none) = some status
    rw [if_pos (BigEndian.length_ofU16 status), BigEndian.toU16_ofU16]
  total status := ⟨_, rfl, by rw [BigEndian.length_ofU16]; decide⟩

/-- A proxy of the default type with that key. -/
def wordProxy : Proxy := { testProxy with json := wordJson }

theorem remoteWrite_endToEnd_default :
    EndToEnd wordProxy msgRemoteWrite [0x78]
      (Client.new.send TinyFrame.padProc TinyFrame.zeroNonce [0x78])
      (fun conn => (Client.new.remoteWrite TinyFrame.padProc wordJson TinyFrame.zeroNonce
        (some conn) [0x78]).1) :=
  (remoteWrite_endToEnd wordProxy TinyFrame.testKey rfl padCipher_honest wordJson wordJson_decodes
    TinyFrame.zeroNonce [0x78] Client.new TinyFrame.padProc rfl rfl rfl
    ⟨"", TinyFrame.testKey, msgRemoteWrite, 1⟩ ⟨TinyFrame.padCipher, TinyFrame.storeFlate⟩ rfl rfl
    rfl).1

/-- **A type that client and proxy share may still be too large for a frame.**
Under type 32 a body of one byte fits, and yet the call fails on every connection
and a connection with its request on it posts nothing. -/
theorem remoteWrite_type_32 :
    ([0x78] : Bytes).length + 28 ≤ 0xffff ∧
    (∀ conn, ∃ e, ((Client.new.withMessageType 32).remoteWrite TinyFrame.padProc wordJson
        TinyFrame.zeroNonce (some conn) [0x78]).1 = .error e) ∧
    (handleConn ⟨32⟩ TinyFrame.padProc wordJson oneEnv
      (((Client.new.withMessageType 32).send TinyFrame.padProc TinyFrame.zeroNonce [0x78])
        ⟨[], none⟩).2.written ⟨[], none⟩).posted = [] :=
  ⟨by decide, fun _ => ⟨_, rfl⟩, rfl⟩

end Proto4.PromProxy
