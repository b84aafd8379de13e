/-
# `Proto4.PromProxy.Answers` — which requests the proxy answers

Every branch of `handle_conn` ends in writing one reply.  An acknowledgement is
short; an error carries a text, and the text of a refused post is the
upstream's.  It is quoted as JSON, sealed and framed, and if it is too long for
a frame the connection closes without a reply.

`Answered` says what a reply has to be, and `handleConn_answered_iff` for which
answers of the upstream there is one.
-/
import Proto4.PromProxy.EndToEnd
import Proto4.Text

namespace Proto4.PromProxy

open TinyFrame (Key Cipher Flate Proc Frame readFrame chacha20Poly1305)

/-! ## The two bodies -/

/-- `{"status":200}`. -/
def ackBytes (status : UInt16) : Bytes :=
  JsonText.object [(utf8 "status", JsonText.number status.toNat)]

/-- The two bodies as `serde_json` writes them. -/
structure SerdeJson (js : Json) : Prop where
  ack : ∀ status, js.ack.encode status = some (ackBytes status)
  errorBody : ∀ message, js.errorBody.encode message = some (errorBytes message)

/-- An acknowledgement always fits. -/
theorem length_ackBytes_le (status : UInt16) : (ackBytes status).length ≤ 16 := by
  have hname : JsonText.escapedLength (utf8 "status") = 6 := by decide +kernel
  have hnum : (JsonText.number status.toNat).length ≤ 5 := by
    refine @JsonText.length_number_le 4 _ ?_
    have := status.toNat_lt
    omega
  rw [ackBytes, JsonText.length_object]
  simp only [List.map_cons, List.map_nil, List.sum_cons, List.sum_nil, List.length_singleton, hname]
  omega

/-- So does the error of a frame of another type. -/
theorem length_unexpected_le (messageType : UInt8) :
    textLength s!"unexpected message_type {messageType}" ≤ 27 := by
  have hdigits : ∀ b : UInt8, textLength (toString b) ≤ 3 :=
    TinyFrame.forall_byte (by decide +kernel)
  have hprefix : textLength "unexpected message_type " = 24 := by decide +kernel
  show textLength ("unexpected message_type " ++ toString messageType) ≤ 27
  rw [textLength_append, hprefix]
  exact Nat.add_le_add_left (hdigits messageType) 24

/-! ## One reply -/

/-- One sealed frame was written, under the transaction id of `f`: an
acknowledgement with the upstream's status if `f` was to be forwarded and the
upstream accepted it, an error otherwise. -/
def Answered (cfg : ServerConfig) (p : Proc) (env : Env) (f : Frame) (w w' : Sink UInt8) : Prop :=
  ∃ messageType data buf, w'.written = w.written ++ buf ∧
    (readFrame p).run buf = (.ok ⟨messageType, 0, true, f.txId, data⟩, []) ∧
    ((f.messageType = cfg.messageType ∧ ∃ status, Accepts env f.data status ∧
        messageType = msgRemoteWriteAck ∧ data = ackBytes status) ∨
      (¬ (f.messageType = cfg.messageType ∧ ∃ status, Accepts env f.data status) ∧
        messageType = msgError))

/-- The error text that an answer of the upstream leads to fits into a frame: 14
bytes of JSON, 28 of encryption, and what the proxy puts before the text. -/
def Fits : Upstream → Prop
  | .transport message => textLength message + 48 ≤ 0xffff
  | .response status text =>
      (200 ≤ status ∧ status < 300) ∨
        textLength (toString status) + textLength (text.getD "") + 58 ≤ 0xffff

/-- A failing status with a text longer than a frame. -/
theorem not_fits_of_long {status : UInt16} {text : String} (h300 : 300 ≤ status)
    (hlong : 0xffff < textLength text) : ¬ Fits (.response status (some text)) := by
  rintro (⟨_, hlt⟩ | hle)
  · exact UInt16.not_lt.mpr h300 hlt
  · simp only [Option.getD_some] at hle
    omega

section
variable {cfg : ServerConfig} {cipher : Cipher} {fl : Flate} {key : Key} {js : Json} {env : Env}

/-- An error is answered if its text fits, and otherwise nothing is written. -/
theorem writeError_cases (hc : Honest cipher key) (hjs : SerdeJson js) (fl : Flate) (env : Env)
    (txId : UInt64) (message : String) {w : Sink UInt8} (hfree : w.room = none) :
    (textLength message + 42 ≤ 0xffff ∧
      ∃ buf, (writeError (holding cipher fl key) js env txId message w).2.written
          = w.written ++ buf ∧
        (readFrame (holding cipher fl key)).run buf
          = (.ok ⟨msgError, 0, true, txId, errorBytes message⟩, [])) ∨
      0xffff < textLength message + 42 ∧
        (writeError (holding cipher fl key) js env txId message w).2 = w := by
  rw [writeError, hjs.errorBody]
  rcases Nat.lt_or_ge 0xffff (textLength message + 42) with hlong | hfits
  · refine Or.inr ⟨hlong, ?_⟩
    obtain ⟨e, he⟩ := writeReply_refused hc fl env msgError txId (w := w)
      (show 0xffff < (errorBytes message).length + 28 by rw [length_errorBytes]; omega)
    rw [he]
  · refine Or.inl ⟨hfits, ?_⟩
    obtain ⟨buf, hbuf, hbuilt⟩ := writeReply_fits hc fl env (show msgError ≤ 31 by decide) txId
      (show (errorBytes message).length + 28 ≤ 0xffff by rw [length_errorBytes]; omega) hfree
    exact ⟨buf, by rw [hbuf], read_of_sealed hc fl hbuilt⟩

/-- Nothing was written: nothing was answered. -/
theorem not_answered_of_same {f : Frame} {w : Sink UInt8} :
    ¬ Answered cfg (holding cipher fl key) env f w w := by
  rintro ⟨messageType, data, buf, hwritten, hread, _⟩
  obtain rfl : buf = [] := List.self_eq_append_right.mp hwritten
  cases hread

/-- The text of a failed post fits exactly when the upstream's answer does. -/
theorem fits_iff {body : Bytes} {e : PostError} (h : (postRemoteWrite env body).1 = .error e) :
    Fits (env.upstream body) ↔ textLength e.toString + 42 ≤ 0xffff := by
  rw [postRemoteWrite, Env.send] at h
  cases hup : env.upstream body with
  | transport message =>
      rw [hup] at h
      obtain rfl : PostError.http message = e := Except.error.inj h
      have hhttp : textLength "http: " = 6 := by decide +kernel
      show textLength message + 48 ≤ 0xffff ↔ textLength ("http: " ++ message) + 42 ≤ 0xffff
      rw [textLength_append, hhttp]
      omega
  | response status text =>
      rw [hup] at h
      dsimp only at h
      split at h
      · cases h
      · next hsucc =>
          obtain rfl := Except.error.inj h
          have hrange : ¬ (200 ≤ status ∧ status < 300) := by
            intro hin
            exact hsucc (isSuccess_iff.mpr hin)
          have hup' : textLength "upstream HTTP " = 14 := by decide +kernel
          have hsep : textLength ": " = 2 := by decide +kernel
          show _ ∨ _ ↔ textLength ("upstream HTTP " ++ toString status ++ ": " ++ text.getD "")
            + 42 ≤ 0xffff
          rw [textLength_append, textLength_append, textLength_append, hup', hsep]
          constructor
          · rintro (hin | hle)
            · exact absurd hin hrange
            · omega
          · intro hle
            exact Or.inr (by omega)

/-- An answer that is accepted has no text to fit. -/
theorem fits_of_accepts {body : Bytes} {status : UInt16} (h : Accepts env body status) :
    Fits (env.upstream body) := by
  obtain ⟨hlow, hhigh, text, hup⟩ := h
  rw [hup]
  exact Or.inl ⟨hlow, hhigh⟩

/-- A frame of another type is answered with an error. -/
theorem answered_of_unexpected (hc : Honest cipher key) (hjs : SerdeJson js) {input rest : Bytes}
    {f : Frame} (hread : (readFrame (holding cipher fl key)).run input = (.ok f, rest))
    (htype : f.messageType ≠ cfg.messageType) {w : Sink UInt8} (hfree : w.room = none) :
    Answered cfg (holding cipher fl key) env f w
      (handleConn cfg (holding cipher fl key) js env input w).stream := by
  have hle := length_unexpected_le f.messageType
  rw [handleConn_of_unexpected hread htype]
  rcases writeError_cases hc hjs fl env f.txId
      s!"unexpected message_type {f.messageType}" hfree with ⟨_, buf, hbuf, hback⟩ | ⟨hlong, _⟩
  · exact ⟨msgError, _, buf, hbuf, hback, Or.inr ⟨fun h => htype h.1, rfl⟩⟩
  · omega

/-- A request the upstream accepted is answered with an acknowledgement. -/
theorem answered_of_accepted (hc : Honest cipher key) (hjs : SerdeJson js) {input rest : Bytes}
    {f : Frame} (hread : (readFrame (holding cipher fl key)).run input = (.ok f, rest))
    (htype : f.messageType = cfg.messageType) {status : UInt16}
    (haccepts : Accepts env f.data status) {w : Sink UInt8} (hfree : w.room = none) :
    Answered cfg (holding cipher fl key) env f w
      (handleConn cfg (holding cipher fl key) js env input w).stream := by
  have hfits : (ackBytes status).length + 28 ≤ 0xffff := by
    have := length_ackBytes_le status
    omega
  obtain ⟨buf, hbuf, hbuilt⟩ := writeReply_fits hc fl env
    (show msgRemoteWriteAck ≤ 31 by decide) f.txId hfits hfree
  have hpost : (forwardFrame env f).1 = .ok status := postRemoteWrite_ok_iff.mpr haccepts
  refine ⟨msgRemoteWriteAck, ackBytes status, buf, ?_, read_of_sealed hc fl hbuilt,
    Or.inl ⟨htype, status, haccepts, rfl, rfl⟩⟩
  rw [stream_of_read hread htype, hpost]
  dsimp only
  rw [hjs.ack, hbuf]

/-- One it did not accept is answered if the error fits. -/
theorem answered_iff_of_refused (hc : Honest cipher key) (hjs : SerdeJson js)
    {input rest : Bytes} {f : Frame}
    (hread : (readFrame (holding cipher fl key)).run input = (.ok f, rest))
    (htype : f.messageType = cfg.messageType) {e : PostError}
    (hpost : (postRemoteWrite env f.data).1 = .error e) {w : Sink UInt8} (hfree : w.room = none) :
    Answered cfg (holding cipher fl key) env f w
        (handleConn cfg (holding cipher fl key) js env input w).stream ↔
      Fits (env.upstream f.data) := by
  have hrefuses : ¬ ∃ status, Accepts env f.data status := by
    rintro ⟨status, haccepts⟩
    cases hpost.symm.trans (postRemoteWrite_ok_iff.mpr haccepts)
  have hforward : (forwardFrame env f).1 = .error e := hpost
  rw [stream_of_read hread htype, hforward, fits_iff hpost]
  dsimp only
  rcases writeError_cases hc hjs fl env f.txId e.toString hfree with
    ⟨hle, buf, hbuf, hback⟩ | ⟨hlong, hsame⟩
  · refine iff_of_true ?_ hle
    exact ⟨msgError, errorBytes e.toString, buf, hbuf, hback, Or.inr ⟨fun h => hrefuses h.2, rfl⟩⟩
  · rw [hsame]
    exact iff_of_false not_answered_of_same (Nat.not_le_of_lt hlong)

/-- **Which requests are answered.** -/
theorem answered_iff (hc : Honest cipher key) (hjs : SerdeJson js) {input rest : Bytes} {f : Frame}
    (hread : (readFrame (holding cipher fl key)).run input = (.ok f, rest)) {w : Sink UInt8}
    (hfree : w.room = none) :
    Answered cfg (holding cipher fl key) env f w
        (handleConn cfg (holding cipher fl key) js env input w).stream ↔
      (f.messageType = cfg.messageType → Fits (env.upstream f.data)) := by
  rcases eq_or_ne f.messageType cfg.messageType with htype | htype
  · rw [imp_iff_right htype]
    cases hpost : (postRemoteWrite env f.data).1 with
    | ok status =>
        have haccepts := postRemoteWrite_ok_iff.mp hpost
        exact iff_of_true (answered_of_accepted hc hjs hread htype haccepts hfree)
          (fits_of_accepts haccepts)
    | error e => exact answered_iff_of_refused hc hjs hread htype hpost hfree
  · exact iff_of_true (answered_of_unexpected hc hjs hread htype hfree) fun h => absurd h htype

end

/-- **A request is answered unless the upstream's answer is too long.**  Every
frame of another type is answered, and so is every request the upstream accepts;
an error is answered exactly if its text, escaped, fits into a sealed frame. -/
theorem handleConn_answered_iff (cfg : ServerConfig) (p : Proc) (key : Key)
    (hkey : p.keyCell = some (some key)) (hc : Honest p.cipher key) (js : Json)
    (hjs : SerdeJson js) (env : Env) (input rest : Bytes) (f : Frame)
    (hread : (readFrame p).run input = (.ok f, rest)) (w : Sink UInt8) (hfree : w.room = none) :
    Answered cfg p env f w (handleConn cfg p js env input w).stream ↔
      (f.messageType = cfg.messageType → Fits (env.upstream f.data)) := by
  rw [eq_holding hkey] at hread ⊢
  exact answered_iff hc hjs hread hfree

/-- `serde_json` at the two bodies, as a server uses it. -/
def serdeJson : Json where
  ack := ⟨fun status => some (ackBytes status), fun _ => none⟩
  errorBody := ⟨fun message => some (errorBytes message), fun _ => none⟩

theorem serdeJson_writes : SerdeJson serdeJson := ⟨fun _ => rfl, fun _ => rfl⟩

/-- The frame of `plainInput`. -/
def plainFrame : Frame := ⟨msgRemoteWrite, 0, false, 7, [0x78]⟩

theorem handleConn_answered_iff_accepted :
    Answered ⟨msgRemoteWrite⟩ TinyFrame.padProc oneEnv plainFrame ⟨[], none⟩
        (handleConn ⟨msgRemoteWrite⟩ TinyFrame.padProc serdeJson oneEnv plainInput
          ⟨[], none⟩).stream ↔
      (plainFrame.messageType = msgRemoteWrite → Fits (oneEnv.upstream plainFrame.data)) :=
  handleConn_answered_iff ⟨msgRemoteWrite⟩ TinyFrame.padProc TinyFrame.testKey rfl padCipher_honest
    serdeJson serdeJson_writes oneEnv plainInput [] plainFrame rfl ⟨[], none⟩ rfl

/-- An upstream that fails with a page of 65536 bytes. -/
def longEnv : Env := ⟨fun _ => .response 500 (some (longText 16)), TinyFrame.zeroNonce⟩

/-- **The client sees the connection close.** -/
theorem handleConn_not_answered :
    (readFrame TinyFrame.padProc).run plainInput = (.ok plainFrame, []) ∧
      ¬ Answered ⟨msgRemoteWrite⟩ TinyFrame.padProc longEnv plainFrame ⟨[], none⟩
        (handleConn ⟨msgRemoteWrite⟩ TinyFrame.padProc serdeJson longEnv plainInput
          ⟨[], none⟩).stream := by
  refine ⟨rfl, ?_⟩
  intro h
  have hfits : Fits (.response 500 (some (longText 16))) :=
    (@answered_iff ⟨msgRemoteWrite⟩ _ TinyFrame.storeFlate _ serdeJson longEnv padCipher_honest
      serdeJson_writes plainInput [] plainFrame rfl ⟨[], none⟩ rfl).mp h rfl
  refine not_fits_of_long (show 300 ≤ (500 : UInt16) by decide) ?_ hfits
  rw [textLength_longText]
  omega

end Proto4.PromProxy
