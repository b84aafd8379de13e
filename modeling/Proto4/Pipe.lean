/-
# `Proto4.Pipe` — frames between two processes that are still being configured

One process writes frames into a connection, another reads them; each is a Rust
or a Go program with its own process-wide key, which is set while frames are
already on their way.  A Rust key is set once and a second attempt panics; a Go
key can be set again and reset.  A write fails without a trace, or leaves part
of a frame when the connection breaks; a read waits for a whole frame and then
consumes it, whatever becomes of it.

`frames_inOrder` is what holds in every state of every interleaving.  The reads
so far answer the first of the writes so far, one each and in order, and the
others are still in the connection: nothing the two sides do to their keys, and
no frame that fails to open, moves a boundary.  What an answer is depends on
the keys alone (`Delivered`): a frame that is not encrypted, or whose reader has
the key it was sealed with, arrives as it was written; an encrypted frame that
meets a reader without a key is consumed by the panic.

The model lets a process go on after a panic, which a task of a Rust program
does and a Go program does not.
-/
import Proto4.GoTinyframe.Interop
import Proto4.Lib.Lts

namespace Proto4

open TinyFrame (Key KeyCell Cipher Flate Proc WriteCall Frame isEncrypted splitWire)

/-! ## The process-wide keys -/

/-- `{:?}` of a key that may be absent. -/
def TinyFrame.debugKey : Option Key → String
  | none => "None"
  | some key => s!"Some({key.val})"

/-- `set_encrypt_key`. -/
def TinyFrame.setEncryptKey (key : Option Key) : KeyCell → TinyFrame.Result Unit × KeyCell
  | none => (.ok (), some key)
  | some old => (.error (.panic
      s!"ENCRYPT_KEY_CHACHA20POLY1305 already configured: {TinyFrame.debugKey key}"), some old)

/-- `SetEncryptKey`. -/
def GoTinyframe.setEncryptKey (key : Option Key) (_ : GoTinyframe.GlobalKey) :
    GoTinyframe.GlobalKey := some key

/-- `ResetEncryptKey`. -/
def GoTinyframe.resetEncryptKey (_ : GoTinyframe.GlobalKey) : GoTinyframe.GlobalKey := none

namespace Pipe

open Lts

/-! ## The two programs -/

inductive Lang
  | rust
  | go
  deriving DecidableEq

inductive Fault
  | rust (f : TinyFrame.Fault)
  | go (f : GoTinyframe.Fault)
  deriving DecidableEq

/-- A program: its language and its libraries. -/
structure Program where
  lang : Lang
  cipher : Cipher
  flate : Flate

/-- A Go frame as the Rust structure. -/
def toRust (f : GoTinyframe.Frame) : Frame :=
  ⟨f.messageType, f.compressID, f.encrypted, f.txID, f.data⟩

namespace Program

def proc (x : Program) (cell : KeyCell) : Proc := ⟨x.cipher, x.flate, cell⟩

def goProc (x : Program) : GoTinyframe.GoProc := ⟨x.cipher, x.flate⟩

/-- Setting the process-wide key. -/
def setKey (x : Program) (key : Option Key) (cell : KeyCell) : Except Fault Unit × KeyCell :=
  match x.lang with
  | .rust => ((TinyFrame.setEncryptKey key cell).1.mapError .rust,
      (TinyFrame.setEncryptKey key cell).2)
  | .go => (.ok (), GoTinyframe.setEncryptKey key cell)

/-- Fetching it. -/
def requireKey (x : Program) (cell : KeyCell) : Except Fault Key :=
  match x.lang with
  | .rust => (TinyFrame.requireEncryptKey cell).mapError .rust
  | .go => (GoTinyframe.requireEncryptKey cell).mapError .go

/-- `write_frame` or `WriteFrame`. -/
def write (x : Program) (cell : KeyCell) (c : WriteCall) (w : Sink UInt8) :
    Except Fault Unit × Sink UInt8 :=
  match x.lang with
  | .rust =>
      let (result, w') := TinyFrame.writeFrame (x.proc cell) c.nonceBytes c.messageType c.txId
        c.data c.flags w
      (result.mapError .rust, w')
  | .go =>
      let (result, w') := GoTinyframe.writeFrame x.goProc cell c.nonceBytes c.messageType c.txId
        c.data c.flags w
      (result.mapError .go, w')

/-- `read_frame` or `ReadFrame`. -/
def read (x : Program) (cell : KeyCell) (s : Bytes) : Except Fault Frame × Bytes :=
  match x.lang with
  | .rust =>
      let (result, rest) := (TinyFrame.readFrame (x.proc cell)).run s
      (result.mapError .rust, rest)
  | .go =>
      let (result, rest) := (GoTinyframe.readFrame x.goProc cell).run s
      ((result.mapError .go).map toRust, rest)

end Program

/-! ## The two processes and the connection -/

/-- The state: the two keys, what is in the connection, the writes that
succeeded and the reads that were made, each with the key it met. -/
structure Sys where
  senderKey : KeyCell
  receiverKey : KeyCell
  wire : Sink UInt8
  sent : List (KeyCell × WriteCall)
  got : List (KeyCell × Except Fault Frame)

inductive Label
  | setSender (key : Option Key)
  | setReceiver (key : Option Key)
  | resetSender
  | resetReceiver
  | write (c : WriteCall)
  | read

section
variable (a b : Program)

def Sys.step (s : Sys) : Label → Option Sys
  | .setSender key => some { s with senderKey := (a.setKey key s.senderKey).2 }
  | .setReceiver key => some { s with receiverKey := (b.setKey key s.receiverKey).2 }
  | .resetSender =>
      if a.lang = .go then
        some { s with senderKey := GoTinyframe.resetEncryptKey s.senderKey }
      else none
  | .resetReceiver =>
      if b.lang = .go then
        some { s with receiverKey := GoTinyframe.resetEncryptKey s.receiverKey }
      else none
  | .write c =>
      match a.write s.senderKey c s.wire with
      | (.ok (), wire) => some { s with wire, sent := s.sent ++ [(s.senderKey, c)] }
      | (.error _, wire) => some { s with wire }
  | .read =>
      if (splitWire s.wire.written).isSome then
        let (result, rest) := b.read s.receiverKey s.wire.written
        some { s with
          wire := { s.wire with written := rest }
          got := s.got ++ [(s.receiverKey, result)] }
      else none

/-- Two processes that have just been connected. -/
def Sys.start (senderKey receiverKey : KeyCell) (room : Option Nat) : Sys :=
  ⟨senderKey, receiverKey, ⟨[], room⟩, [], []⟩

/-! ## Writing -/

variable {a b}

theorem push_full {w : Sink UInt8} (h : w.room = some 0) {buf : Bytes} (hbuf : buf ≠ []) :
    w.push buf = (false, w) := by
  obtain ⟨written, room⟩ := w
  obtain rfl : room = some 0 := h
  have hlen : ¬ buf.length ≤ 0 := by
    rw [Nat.le_zero, List.length_eq_zero_iff]
    exact hbuf
  simp [Sink.push, hlen]

/-- A block that is not taken whole is cut, and the sink is full from then on. -/
theorem push_false {w w' : Sink UInt8} {buf : Bytes} (h : w.push buf = (false, w')) :
    w'.room = some 0 ∧ ∃ k, k < buf.length ∧ w'.written = w.written ++ buf.take k := by
  rw [Sink.push] at h
  split at h
  · cases h
  · next k _ =>
      split at h
      · cases h
      · next hlen =>
          obtain ⟨_, rfl⟩ := Prod.mk.inj h
          exact ⟨rfl, k, by omega, rfl⟩

/-- A program builds what the Rust builder builds over its libraries and its key. -/
theorem encodeFrame_agrees (x : Program) (c : WriteCall) {cell : KeyCell} {key : Option Key}
    (h : isEncrypted c.flags = true → ∃ k, cell = some (some k) ∧ key = some k) :
    Outcome.Agrees (c.build (x.proc cell))
      (GoTinyframe.encodeFrame x.goProc c.nonceBytes c.messageType c.txId c.data c.flags key) := by
  refine (GoTinyframe.packHeaderByte_agrees c.messageType c.flags).bind fun header => ?_
  refine (GoTinyframe.compressPayload_agrees x.flate _ c.data).bind fun compressed => ?_
  refine Outcome.Agrees.bind ?_ fun payload =>
    Outcome.Agrees.ite (Outcome.agrees_error _ _) (Outcome.agrees_ok _)
  cases he : isEncrypted c.flags with
  | false =>
      have hgo : GoTinyframe.isEncrypted c.flags = false := he
      rw [hgo]
      exact Outcome.agrees_ok compressed
  | true =>
      have hgo : GoTinyframe.isEncrypted c.flags = true := he
      obtain ⟨k, rfl, rfl⟩ := h he
      rw [hgo]
      exact GoTinyframe.encryptPayload_agrees x.cipher c.nonceBytes k _ compressed

/-- `Wrote x cell c w r`: the ways a write can end. -/
inductive Wrote (x : Program) (cell : KeyCell) (c : WriteCall) (w : Sink UInt8) :
    Except Fault Unit × Sink UInt8 → Prop
  | refused (e : Fault) : Wrote x cell c w (.error e, w)
  | done {buf : Bytes} {w' : Sink UInt8} : c.build (x.proc cell) = .ok buf →
      w.push buf = (true, w') → Wrote x cell c w (.ok (), w')
  | broken {buf : Bytes} {w' : Sink UInt8} (e : Fault) : c.build (x.proc cell) = .ok buf →
      w.push buf = (false, w') → Wrote x cell c w (.error e, w')

theorem wrote_goWithKey (x : Program) (c : WriteCall) (w : Sink UInt8) {cell : KeyCell}
    {key : Option Key}
    (h : isEncrypted c.flags = true → ∃ k, cell = some (some k) ∧ key = some k) :
    Wrote x cell c w
      ((GoTinyframe.writeFrameWithKey x.goProc c.nonceBytes c.messageType c.txId c.data c.flags key
        w).1.mapError .go,
      (GoTinyframe.writeFrameWithKey x.goProc c.nonceBytes c.messageType c.txId c.data c.flags key
        w).2) := by
  rw [GoTinyframe.writeFrameWithKey]
  rcases (encodeFrame_agrees x c h).cases with ⟨buf, hbuf, hgo⟩ | ⟨e, d, _, hgo⟩
  · rw [hgo]
    dsimp only
    rw [GoTinyframe.write]
    cases hpush : w.push buf with
    | mk taken w' =>
        cases taken with
        | true => exact .done hbuf hpush
        | false => exact .broken _ hbuf hpush
  · rw [hgo]
    exact .refused _

/-- **What a write can do.** -/
theorem wrote (x : Program) (cell : KeyCell) (c : WriteCall) (w : Sink UInt8) :
    Wrote x cell c w (x.write cell c w) := by
  rw [Program.write]
  cases x.lang with
  | rust =>
      dsimp only
      rw [TinyFrame.writeFrame]
      cases hbuf : c.build (x.proc cell) with
      | error e =>
          rw [WriteCall.build] at hbuf
          rw [hbuf]
          exact .refused _
      | ok buf =>
          have hbuf' := hbuf
          rw [WriteCall.build] at hbuf'
          rw [hbuf']
          dsimp only
          rw [TinyFrame.writeAll]
          cases hpush : w.push buf with
          | mk taken w' =>
              cases taken with
              | true => exact .done hbuf hpush
              | false => exact .broken _ hbuf hpush
  | go =>
      dsimp only
      rw [GoTinyframe.writeFrame]
      cases he : isEncrypted c.flags with
      | false =>
          have hgo : GoTinyframe.isEncrypted c.flags = false := he
          rw [hgo]
          refine wrote_goWithKey x c w fun henc => ?_
          cases he.symm.trans henc
      | true =>
          have hgo : GoTinyframe.isEncrypted c.flags = true := he
          rw [hgo]
          cases cell with
          | none => exact .refused _
          | some key =>
              cases key with
              | none => exact .refused _
              | some k => exact wrote_goWithKey x c w fun _ => ⟨k, rfl, rfl⟩

/-! ## Reading -/

/-- What the two programs have in common: one cipher that keeps its laws, and
decoders on the reading side for the encoders of the writing side. -/
structure Shares (a b : Program) : Prop where
  cipher : b.cipher = a.cipher
  correct : ∀ key, a.cipher.Correct key
  overhead : ∀ key, a.cipher.Overhead key TinyFrame.tagLen
  flate : Flate.Decodes b.flate a.flate

/-- What a read answers to a write, by the keys the two met. -/
structure Delivered (b : Program) (x : KeyCell × WriteCall) (y : KeyCell × Except Fault Frame) :
    Prop where
  opened : (isEncrypted x.2.flags = true → y.1 = x.1) → y.2 = .ok x.2.frame
  keyless : isEncrypted x.2.flags = true → ∀ e, b.requireKey y.1 = .error e → y.2 = .error e

/-- The write is one the sender could make with its key, and left `buf`. -/
def Built (a : Program) (x : KeyCell × WriteCall) (buf : Bytes) : Prop :=
  x.2.build (a.proc x.1) = .ok buf

/-- An encrypted write had a key. -/
theorem key_of_built {x : KeyCell × WriteCall} {buf : Bytes} (h : Built a x buf)
    (he : isEncrypted x.2.flags = true) : ∃ key, x.1 = some (some key) := by
  obtain ⟨_, _, _, _, _, hprotects, _, _⟩ := TinyFrame.buildWireFrame_ok_iff.mp h
  cases hprotects with
  | clear hplain => cases hplain.symm.trans he
  | @sealed _ key _ hkey _ => exact ⟨key, hkey⟩

/-- A built frame in front of a stream. -/
theorem splitWire_of_build {p : Proc} {c : WriteCall} {buf : Bytes} (h : c.build p = .ok buf)
    (rest : Bytes) :
    ∃ header payload, header &&& TinyFrame.flagsMask = c.flags ∧
      splitWire (buf ++ rest) = some (header, c.txId, payload, rest) := by
  obtain ⟨header, _, payload, hpack, _, _, hle, rfl⟩ := TinyFrame.buildWireFrame_ok_iff.mp h
  exact ⟨header, payload, (TinyFrame.packHeaderByte_fields hpack).2,
    TinyFrame.splitWire_wireBytes header c.txId hle rest⟩

theorem build_ne_nil {p : Proc} {c : WriteCall} {buf : Bytes} (h : c.build p = .ok buf) :
    buf ≠ [] := by
  obtain ⟨_, _, _, _, _, _, _, rfl⟩ := TinyFrame.buildWireFrame_ok_iff.mp h
  exact List.cons_ne_nil _ _

/-- No part of a frame is a frame. -/
theorem splitWire_cut {p : Proc} {c : WriteCall} {buf : Bytes} (h : c.build p = .ok buf) {k : Nat}
    (hk : k < buf.length) : splitWire (buf.take k) = none := by
  cases hsplit : splitWire (buf.take k) with
  | none => rfl
  | some cut =>
      obtain ⟨header', txId', payload', rest'⟩ := cut
      obtain ⟨hle, hpart⟩ := TinyFrame.splitWire_eq_some.mp hsplit
      obtain ⟨header, payload, _, hwhole⟩ := splitWire_of_build h []
      -- the rest of the frame would follow the end of the frame
      have hagain : splitWire (buf ++ []) = some (header', txId', payload', rest' ++ buf.drop k) := by
        refine TinyFrame.splitWire_eq_some.mpr ⟨hle, ?_⟩
        rw [List.append_nil, ← List.append_assoc, ← hpart, List.take_append_drop]
      rw [hwhole] at hagain
      simp only [Option.some.injEq, Prod.mk.injEq] at hagain
      obtain ⟨_, _, _, hnil⟩ := hagain
      have hdrop : buf.drop k = [] := (List.append_eq_nil_iff.mp hnil.symm).2
      have hlen := List.length_drop (i := k) (l := buf)
      rw [hdrop, List.length_nil] at hlen
      omega

/-- The Rust reader over the receiver's libraries takes a frame whose key it has. -/
theorem takes_of_shares (h : Shares a b) {x : KeyCell × WriteCall} {buf : Bytes}
    (hbuf : x.2.build (a.proc x.1) = .ok buf) {cell : KeyCell}
    (hcell : isEncrypted x.2.flags = true → cell = x.1) :
    Reader.Takes (TinyFrame.readFrame (b.proc cell)) buf x.2.frame := by
  refine TinyFrame.takes_of_opens hbuf ?_ (TinyFrame.decompress_compress h.flate)
  intro header compressed payload hprotects
  cases hprotects with
  | clear he => exact .clear he
  | sealed he hk hct =>
      obtain rfl := hcell he
      exact TinyFrame.opens_of_protects (r := b.proc x.1) (w := a.proc x.1) h.cipher rfl h.correct
        h.overhead (.sealed he hk hct)

/-- Without a key an encrypted frame does not open, in Rust … -/
theorem parseWireFrame_keyless {p : Proc} {header : UInt8} (txId : UInt64) (payload : Bytes)
    (h : isEncrypted (header &&& TinyFrame.flagsMask) = true) {e : TinyFrame.Fault}
    (hkey : TinyFrame.requireEncryptKey p.keyCell = .error e) :
    TinyFrame.parseWireFrame p header txId payload = .error e := by
  simp only [TinyFrame.parseWireFrame, h, if_true, hkey]
  rfl

/-- … or in Go. -/
theorem openFrame_keyless {p : GoTinyframe.GoProc} {cell : GoTinyframe.GlobalKey} {header : UInt8}
    (txId : UInt64) (payload : Bytes) (h : isEncrypted (header &&& TinyFrame.flagsMask) = true)
    {e : GoTinyframe.Fault} (hkey : GoTinyframe.requireEncryptKey cell = .error e) :
    GoTinyframe.openFrame p none (some cell) header txId payload = .error e := by
  have hgo : GoTinyframe.isEncrypted (header &&& GoTinyframe.flagsMask) = true := h
  simp only [GoTinyframe.openFrame, hgo, if_true, hkey]
  rfl

/-- The Go parser looks at a key only for an encrypted frame. -/
theorem openFrame_plain (p : GoTinyframe.GoProc) (key key' : Option Key)
    (useGlobal useGlobal' : Option GoTinyframe.GlobalKey) {header : UInt8} (txId : UInt64)
    (payload : Bytes) (h : isEncrypted (header &&& TinyFrame.flagsMask) = false) :
    GoTinyframe.openFrame p key useGlobal header txId payload
      = GoTinyframe.openFrame p key' useGlobal' header txId payload := by
  have hgo : GoTinyframe.isEncrypted (header &&& GoTinyframe.flagsMask) = false := h
  simp only [GoTinyframe.openFrame, hgo, Bool.false_eq_true, if_false]

/-- The Go reader over the receiver's libraries answers a frame whose key it has. -/
theorem openFrame_of_shares (h : Shares a b) {x : KeyCell × WriteCall} {buf rest payload : Bytes}
    {header : UInt8} (hbuf : x.2.build (a.proc x.1) = .ok buf) {cell : KeyCell}
    (hcell : isEncrypted x.2.flags = true → cell = x.1)
    (hflags : header &&& TinyFrame.flagsMask = x.2.flags)
    (hsplit : splitWire (buf ++ rest) = some (header, x.2.txId, payload, rest)) :
    GoTinyframe.openFrame b.goProc none (some cell) header x.2.txId payload
      = .ok (GoTinyframe.Frame.ofRust x.2.frame) := by
  -- a key under which the two languages can be compared, the reader's if it matters
  obtain ⟨k, hk⟩ : ∃ k, GoTinyframe.openFrame b.goProc none (some cell) header x.2.txId payload
      = GoTinyframe.openFrame b.goProc (some k) none header x.2.txId payload ∧
      (isEncrypted x.2.flags = true → some (some k) = x.1) := by
    cases he : isEncrypted x.2.flags with
    | false =>
        refine ⟨TinyFrame.testKey, openFrame_plain _ _ _ _ _ _ _ (by rw [hflags, he]), ?_⟩
        nofun
    | true =>
        obtain ⟨key, hx⟩ := key_of_built hbuf he
        obtain rfl : cell = some (some key) := (hcell he).trans hx
        exact ⟨key, rfl, fun _ => hx.symm⟩
  have htakes := GoTinyframe.takes_of_rust (p := b.goProc) (takes_of_shares h hbuf hk.2) rest
  rw [GoTinyframe.readFrameWithKey, GoTinyframe.readFrameFrom_of_split _ _ _ hsplit] at htakes
  rw [hk.1]
  exact (Prod.mk.inj htakes).1

/-- A fault that was put into other words. -/
theorem error_of_mapError {ε δ α : Type} {x : Except ε α} {f : ε → δ} {e : δ}
    (h : x.mapError f = .error e) : ∃ e', x = .error e' ∧ f e' = e := by
  cases x with
  | ok v => cases h
  | error e' => exact ⟨e', rfl, Except.error.inj h⟩

/-- **What a read does**: it consumes one frame, and answers it if it can. -/
theorem read_of_build (h : Shares a b) {x : KeyCell × WriteCall} {buf : Bytes}
    (hbuf : x.2.build (a.proc x.1) = .ok buf) (cell : KeyCell) (rest : Bytes) :
    ∃ result, b.read cell (buf ++ rest) = (result, rest) ∧ Delivered b x (cell, result) := by
  obtain ⟨header, payload, hflags, hsplit⟩ := splitWire_of_build hbuf rest
  rw [Program.read]
  cases hlang : b.lang with
  | rust =>
      have hrun := TinyFrame.readFrame_run (b.proc cell) (buf ++ rest)
      rw [hsplit] at hrun
      refine ⟨_, by rw [hrun], ?_, ?_⟩
      · intro hcell
        have htakes := takes_of_shares h hbuf hcell rest
        rw [hrun] at htakes
        dsimp only
        rw [(Prod.mk.inj htakes).1]
        rfl
      · intro he e hkey
        rw [← hflags] at he
        rw [Program.requireKey, hlang] at hkey
        obtain ⟨f, hcell, rfl⟩ := error_of_mapError hkey
        dsimp only
        rw [parseWireFrame_keyless _ _ he hcell]
        rfl
  | go =>
      have hrun := GoTinyframe.readFrameFrom_of_split b.goProc none (some cell) hsplit
      rw [← GoTinyframe.readFrame] at hrun
      refine ⟨_, by rw [hrun], ?_, ?_⟩
      · intro hcell
        dsimp only
        rw [openFrame_of_shares h hbuf hcell hflags hsplit]
        rfl
      · intro he e hkey
        rw [← hflags] at he
        rw [Program.requireKey, hlang] at hkey
        obtain ⟨f, hcell, rfl⟩ := error_of_mapError hkey
        dsimp only
        rw [openFrame_keyless _ _ he hcell]
        rfl

/-! ## Runs -/

/-- A Rust program that has a key keeps it. -/
theorem setKey_rust {x : Program} (hrust : x.lang = .rust) {key : Option Key} {cell : KeyCell}
    (hcell : cell ≠ none) : (x.setKey key cell).2 = cell := by
  obtain ⟨old, rfl⟩ := Option.ne_none_iff_exists'.mp hcell
  rw [Program.setKey, hrust]
  rfl

/-- **Frames in order.**  The reads answer the writes one for one; the writes not
yet read are in the connection, whole; after them there is at most the piece of
a frame at which the connection broke.  And a Rust process has had one key. -/
structure InOrder (a b : Program) (s : Sys) (read pending : List (KeyCell × WriteCall)) : Prop where
  sent : s.sent = read ++ pending
  answered : List.Forall₂ (Delivered b) read s.got
  wire : ∃ bufs piece, List.Forall₂ (Built a) pending bufs ∧
    s.wire.written = bufs.flatten ++ piece ∧
    (piece = [] ∨ s.wire.room = some 0 ∧ splitWire piece = none)
  senderOnce : a.lang = .rust → ∀ x ∈ s.sent, isEncrypted x.2.flags = true →
    s.senderKey ≠ none ∧ x.1 = s.senderKey
  receiverOnce : b.lang = .rust → ∀ y ∈ s.got, y.1 ≠ none → y.1 = s.receiverKey

theorem splitWire_nil : splitWire [] = none := rfl

/-- A whole frame is waiting exactly when a write is still unread. -/
theorem InOrder.waiting_iff {s : Sys} {read pending : List (KeyCell × WriteCall)}
    (h : InOrder a b s read pending) : (splitWire s.wire.written).isSome ↔ pending ≠ [] := by
  obtain ⟨bufs, piece, hbuilt, hwire, hpiece⟩ := h.wire
  rw [hwire]
  cases hbuilt with
  | nil =>
      have hnone : splitWire piece = none := by
        rcases hpiece with rfl | ⟨_, hnone⟩
        · exact splitWire_nil
        · exact hnone
      simp [hnone]
  | @cons x buf pending bufs hx _ =>
      rw [List.flatten_cons, List.append_assoc]
      obtain ⟨_, _, _, hsplit⟩ := splitWire_of_build hx (bufs.flatten ++ piece)
      simp [hsplit]

/-- A write keeps the frames in order. -/
theorem InOrder.write {s s' : Sys} {read pending : List (KeyCell × WriteCall)} {c : WriteCall}
    (h : InOrder a b s read pending) (hstep : s.step a b (.write c) = some s') :
    ∃ pending', InOrder a b s' read pending' := by
  obtain ⟨bufs, piece, hbuilt, hwire, hpiece⟩ := h.wire
  simp only [Sys.step] at hstep
  have hwrote := wrote a s.senderKey c s.wire
  generalize a.write s.senderKey c s.wire = r at hwrote hstep
  cases hwrote with
  | refused e =>
      obtain rfl := Option.some.inj hstep
      exact ⟨pending, h.sent, h.answered, ⟨bufs, piece, hbuilt, hwire, hpiece⟩, h.senderOnce,
        h.receiverOnce⟩
  | @done buf w' hbuf hpush =>
      obtain rfl := Option.some.inj hstep
      -- a connection that still takes a frame has not broken
      have hnil : piece = [] := by
        rcases hpiece with hnil | ⟨hfull, _⟩
        · exact hnil
        · rw [push_full hfull (build_ne_nil hbuf)] at hpush
          cases hpush
      subst hnil
      refine ⟨pending ++ [(s.senderKey, c)], ?_, h.answered, ?_, ?_, h.receiverOnce⟩
      · rw [h.sent, List.append_assoc]
      · refine ⟨bufs ++ [buf], [], ?_, ?_, Or.inl rfl⟩
        · exact List.rel_append hbuilt (.cons hbuf .nil)
        · rw [Sink.push_true hpush, hwire, List.flatten_append]
          simp
      · intro hrust x hx he
        rcases List.mem_append.mp hx with hx | hx
        · exact h.senderOnce hrust x hx he
        · obtain rfl := List.mem_singleton.mp hx
          obtain ⟨key, hkey⟩ := key_of_built (a := a) (x := (s.senderKey, c)) hbuf he
          refine ⟨?_, rfl⟩
          rw [show s.senderKey = some (some key) from hkey]
          nofun
  | @broken buf w' e hbuf hpush =>
      obtain rfl := Option.some.inj hstep
      obtain ⟨hroom, k, hk, hwritten⟩ := push_false hpush
      refine ⟨pending, h.sent, h.answered, ?_, h.senderOnce, h.receiverOnce⟩
      rcases hpiece with rfl | ⟨hfull, hpiece⟩
      · refine ⟨bufs, buf.take k, hbuilt, ?_, Or.inr ⟨hroom, splitWire_cut hbuf hk⟩⟩
        show w'.written = _
        rw [hwritten, hwire, List.append_nil]
      · rw [push_full hfull (build_ne_nil hbuf)] at hpush
        obtain rfl : s.wire = w' := (Prod.mk.inj hpush).2
        exact ⟨bufs, piece, hbuilt, hwire, Or.inr ⟨hfull, hpiece⟩⟩

/-- A read answers the oldest write that is still unread. -/
theorem InOrder.read (hshares : Shares a b) {s s' : Sys}
    {read pending : List (KeyCell × WriteCall)} (h : InOrder a b s read pending)
    (hstep : s.step a b .read = some s') :
    ∃ read' pending', InOrder a b s' read' pending' := by
  simp only [Sys.step] at hstep
  by_cases hwaiting : (splitWire s.wire.written).isSome
  · rw [if_pos hwaiting] at hstep
    obtain rfl := Option.some.inj hstep
    have hne := h.waiting_iff.mp hwaiting
    obtain ⟨bufs, piece, hbuilt, hwire, hpiece⟩ := h.wire
    cases hbuilt with
    | nil => exact absurd rfl hne
    | @cons x buf pending bufs hx hbuilt =>
        rw [List.flatten_cons, List.append_assoc] at hwire
        obtain ⟨result, hread, hdelivered⟩ :=
          read_of_build hshares hx s.receiverKey (bufs.flatten ++ piece)
        rw [← hwire] at hread
        rw [hread]
        refine ⟨read ++ [x], pending, ?_, ?_, ⟨bufs, piece, hbuilt, rfl, hpiece⟩, h.senderOnce, ?_⟩
        · show s.sent = _
          rw [h.sent, List.append_assoc]
          rfl
        · exact List.rel_append h.answered (.cons hdelivered .nil)
        · intro hrust y hy hkey
          rcases List.mem_append.mp hy with hy | hy
          · exact h.receiverOnce hrust y hy hkey
          · obtain rfl := List.mem_singleton.mp hy
            rfl
  · rw [if_neg hwaiting] at hstep
    cases hstep

/-- **Every step keeps the frames in order.** -/
theorem InOrder.step (hshares : Shares a b) {s s' : Sys} {label : Label}
    (h : ∃ read pending, InOrder a b s read pending) (hstep : s.step a b label = some s') :
    ∃ read pending, InOrder a b s' read pending := by
  obtain ⟨read, pending, h⟩ := h
  cases label with
  | write c =>
      obtain ⟨pending', h'⟩ := h.write hstep
      exact ⟨read, pending', h'⟩
  | read => exact h.read hshares hstep
  | setSender key =>
      obtain rfl := Option.some.inj hstep
      refine ⟨read, pending, h.sent, h.answered, h.wire, ?_, h.receiverOnce⟩
      intro hrust x hx he
      obtain ⟨hset, hkey⟩ := h.senderOnce hrust x hx he
      show (a.setKey key s.senderKey).2 ≠ none ∧ x.1 = (a.setKey key s.senderKey).2
      rw [setKey_rust hrust hset]
      exact ⟨hset, hkey⟩
  | setReceiver key =>
      obtain rfl := Option.some.inj hstep
      refine ⟨read, pending, h.sent, h.answered, h.wire, h.senderOnce, ?_⟩
      intro hrust y hy hkey
      have hsame := h.receiverOnce hrust y hy hkey
      show y.1 = (b.setKey key s.receiverKey).2
      rw [setKey_rust hrust (hsame ▸ hkey)]
      exact hsame
  | resetSender =>
      simp only [Sys.step] at hstep
      split at hstep
      · next hgo =>
          obtain rfl := Option.some.inj hstep
          refine ⟨read, pending, h.sent, h.answered, h.wire, ?_, h.receiverOnce⟩
          intro hrust
          cases hrust.symm.trans hgo
      · cases hstep
  | resetReceiver =>
      simp only [Sys.step] at hstep
      split at hstep
      · next hgo =>
          obtain rfl := Option.some.inj hstep
          refine ⟨read, pending, h.sent, h.answered, h.wire, h.senderOnce, ?_⟩
          intro hrust
          cases hrust.symm.trans hgo
      · cases hstep

/-- **Frames arrive in order, whatever the keys do.**  In every state that two
connected processes reach the reads so far have answered the first writes, one
each, and a read is possible exactly when a write is still unread. -/
theorem frames_inOrder (a b : Program) (hshares : Shares a b) (senderKey receiverKey : KeyCell)
    (room : Option Nat) (s : Sys)
    (h : Reaches (Sys.step a b) (Sys.start senderKey receiverKey room) s) :
    ∃ read pending, InOrder a b s read pending ∧
      ((∃ s', s.step a b .read = some s') ↔ pending ≠ []) := by
  have hstart : ∃ read pending,
      InOrder a b (Sys.start senderKey receiverKey room) read pending := by
    refine ⟨[], [], rfl, .nil, ⟨[], [], .nil, rfl, Or.inl rfl⟩, ?_, ?_⟩
    · intro _ x hx
      cases hx
    · intro _ y hy
      cases hy
  obtain ⟨read, pending, horder⟩ :=
    h.invariant hstart fun s a' s' hs hstep => InOrder.step hshares hs hstep
  refine ⟨read, pending, horder, ?_⟩
  rw [← horder.waiting_iff]
  simp only [Sys.step]
  split
  · next hwaiting => exact iff_of_true ⟨_, rfl⟩ hwaiting
  · next hwaiting => exact iff_of_false (by rintro ⟨s', hs'⟩; cases hs') hwaiting

end

/-! A Rust sender and a Go receiver that has no key when the first, encrypted
frame arrives: it is lost, and the second, which is not encrypted, is read. -/

def padRust : Program := ⟨.rust, TinyFrame.padCipher, TinyFrame.storeFlate⟩

def padGo : Program := ⟨.go, TinyFrame.padCipher, TinyFrame.storeFlate⟩

theorem pad_shares : Shares padRust padGo where
  cipher := rfl
  correct := TinyFrame.padCipher_correct
  overhead := TinyFrame.padCipher_overhead
  flate := TinyFrame.storeFlate_decodes

def lateCalls : List Label :=
  [.setSender (some TinyFrame.testKey), .write ⟨TinyFrame.zeroNonce, 3, 99, [33], 4⟩,
    .write ⟨TinyFrame.zeroNonce, 21, 7, [104, 105], 0⟩, .read, .read]

theorem frames_inOrder_late :
    ∃ s, exec (Sys.step padRust padGo) (Sys.start none none none) lateCalls = some s ∧
      s.got.map Prod.snd = [.error (.go (.panic
          "ENCRYPT_KEY_CHACHA20POLY1305 not configured; call SetEncryptKey first")),
        .ok ⟨21, 0, false, 7, [104, 105]⟩] ∧
      ∃ read, InOrder padRust padGo s read [] := by
  obtain ⟨s, hs⟩ : ∃ s, exec (Sys.step padRust padGo) (Sys.start none none none) lateCalls
      = some s := ⟨_, rfl⟩
  have hgot : (exec (Sys.step padRust padGo) (Sys.start none none none) lateCalls).map
      (fun s => s.got.map Prod.snd) = some _ := rfl
  have hlast : (exec (Sys.step padRust padGo) (Sys.start none none none) lateCalls).bind
      (fun s => s.step padRust padGo .read) = none := rfl
  rw [hs] at hgot hlast
  obtain ⟨read, pending, horder, hmore⟩ :=
    frames_inOrder padRust padGo pad_shares none none none s (reaches_of_exec hs)
  have hdone : pending = [] := by
    by_contra hne
    obtain ⟨s', hstep⟩ := hmore.mpr hne
    cases hstep.symm.trans hlast
  exact ⟨s, hs, Option.some.inj hgot, read, hdone ▸ horder⟩

end Pipe

end Proto4
