/-
# `Proto4.PromProxy.Accounting` — the proxy at work: every request is counted once

The proxy runs one task a connection and one that flushes the counters.  A step
of `Sys` is what one task does between two points at which it may have to wait:
a handler reads its frame, posts it, increments a counter, writes its reply; the
flusher reads the totals and posts them.  The environment of a connection, that
is the answer of the upstream and the room for the reply, is fixed when it is
accepted, and an action carries what Redis does.

`Handler.Consistent` says that a handler is always some way through
`handle_conn`, so one that is done has done what `handleConn` does, whatever
Redis answered (`served_of_run`).  The counters are then a count over handlers:
`edges_exact`.
-/
import Proto4.Lib.Lts
import Proto4.PromProxy.Edge
import Proto4.PromProxy.Server

namespace Proto4.PromProxy

open Lts
open TinyFrame (Proc Frame readFrame)

/-- What a proxy is built from. -/
structure Proxy where
  config : ServerConfig
  proc : Proc
  json : Json
  encodeWriteRequest : List TimeSeries → Except EncodeError Bytes
  prepareRemoteWriteBody : Bytes → Bytes

/-! ## A connection, step by step -/

/-- Where a handler is in `handle_conn`. -/
inductive Stage
  | reading
  /-- the frame has another type -/
  | refusing (frame : Frame)
  | posting (frame : Frame)
  /-- the upstream answered, the counter is next -/
  | counting (frame : Frame) (post : Post)
  | replying (frame : Frame) (post : Post)
  | done (served : Served)

structure Handler where
  input : Bytes
  env : Env
  stream : Sink UInt8
  stage : Stage

/-- The counter of a post. -/
def edgeKey : Except PostError UInt16 → String
  | .ok _ => "remote_write_ok"
  | .error _ => "remote_write_err"

section
variable (x : Proxy)

def Handler.read (h : Handler) : Stage :=
  match (readFrame x.proc).run h.input with
  | (.error fault, _) => .done ⟨.error (.tinyFrame fault), [], [], h.stream⟩
  | (.ok frame, _) =>
      if frame.messageType ≠ x.config.messageType then .refusing frame else .posting frame

def Handler.refuse (h : Handler) (frame : Frame) : Served :=
  let (result, w') := writeError x.proc x.json h.env frame.txId
    s!"unexpected message_type {frame.messageType}" h.stream
  ⟨result, [], [], w'⟩

def Handler.answer (h : Handler) (frame : Frame) : Post → Served
  | (.ok status, posted) =>
      let (result, w') := writeReply x.proc h.env msgRemoteWriteAck frame.txId
        (x.json.ack.encode status) h.stream
      ⟨result, posted, ["remote_write_ok"], w'⟩
  | (.error e, posted) =>
      let (result, w') := writeError x.proc x.json h.env frame.txId e.toString h.stream
      ⟨result, posted, ["remote_write_err"], w'⟩

/-- The next step of a handler; `fault` is a Redis command that does not get through. -/
def Handler.next (fault : Option String) (hash : EdgeHash) (h : Handler) :
    Option (Handler × EdgeHash) :=
  match h.stage with
  | .reading => some ({ h with stage := h.read x }, hash)
  | .refusing frame => some ({ h with stage := .done (h.refuse x frame) }, hash)
  | .posting frame => some ({ h with stage := .counting frame (forwardFrame h.env frame) }, hash)
  | .counting frame post =>
      some ({ h with stage := .replying frame post },
        (EdgeHash.incr fault (edgeKey post.1) 1 hash).2)
  | .replying frame post => some ({ h with stage := .done (h.answer x frame post) }, hash)
  | .done _ => none

end

/-! ## The proxy -/

/-- Where the flusher is in `flush_edges`. -/
inductive Flusher
  | idle
  | collected (totals : List (String × UInt64))

/-- A report that was posted: the bodies handed to the HTTP client, and how that ended. -/
structure Report where
  now : Int64
  totals : List (String × UInt64)
  post : Post

/-- The series of a report. -/
def Report.series (r : Report) : List TimeSeries := r.totals.map (edgeSeries r.now)

structure Sys where
  hash : EdgeHash
  handlers : List Handler
  flusher : Flusher
  reports : List Report

inductive Action
  | accept (input : Bytes) (env : Env) (stream : Sink UInt8)
  | handle (i : Nat) (fault : Option String)
  | tick (fault : Option String)
  | report (now : Int64) (env : Env)

section
variable (x : Proxy)

/-- The second half of `flush_edges`: nothing is posted that cannot be encoded. -/
def postTotals (now : Int64) (env : Env) (totals : List (String × UInt64)) : List Report :=
  match x.encodeWriteRequest (totals.map (edgeSeries now)) with
  | .error _ => []
  | .ok protobuf => [⟨now, totals, postRemoteWrite env (x.prepareRemoteWriteBody protobuf)⟩]

def Sys.step (s : Sys) : Action → Option Sys
  | .accept input env stream =>
      some { s with handlers := s.handlers ++ [⟨input, env, stream, .reading⟩] }
  | .handle i fault =>
      (s.handlers[i]?).bind fun h =>
        (h.next x fault s.hash).map fun (h', hash) =>
          { s with hash, handlers := s.handlers.set i h' }
  | .tick fault =>
      match s.flusher with
      | .idle =>
          match EdgeHash.totals fault s.hash with
          | .error _ => some s
          | .ok [] => some s
          | .ok totals => some { s with flusher := .collected totals }
      | .collected _ => none
  | .report now env =>
      match s.flusher with
      | .idle => none
      | .collected totals =>
          some { s with
            flusher := .idle
            reports := s.reports ++ postTotals x now env totals }

/-- A proxy that has just been started on a hash. -/
def Sys.start (hash : EdgeHash) : Sys where
  hash
  handlers := []
  flusher := .idle
  reports := []

/-! ## What each step can do -/

/-- Every way `a` can lead from `s` to `s'`. -/
inductive Trans (s : Sys) : Action → Sys → Prop
  | accepted (input : Bytes) (env : Env) (stream : Sink UInt8) :
      Trans s (.accept input env stream)
        { s with handlers := s.handlers ++ [⟨input, env, stream, .reading⟩] }
  | handled {i : Nat} {fault : Option String} {h h' : Handler} {hash : EdgeHash} :
      s.handlers[i]? = some h → h.next x fault s.hash = some (h', hash) →
      Trans s (.handle i fault) { s with hash, handlers := s.handlers.set i h' }
  | passed (fault : Option String) : Trans s (.tick fault) s
  | collected : s.flusher = .idle →
      Trans s (.tick none) { s with flusher := .collected (EdgeHash.current s.hash) }
  | reported {now : Int64} {env : Env} {totals : List (String × UInt64)} :
      s.flusher = .collected totals →
      Trans s (.report now env)
        { s with flusher := .idle, reports := s.reports ++ postTotals x now env totals }

variable {x}

/-- **Inversion.**  A step is one of the transitions. -/
theorem trans_of_step {s s' : Sys} {a : Action} (h : s.step x a = some s') : Trans x s a s' := by
  cases a with
  | accept input env stream =>
      obtain rfl := Option.some.inj h
      exact .accepted input env stream
  | handle i fault =>
      obtain ⟨hd, hget, hmap⟩ := Option.bind_eq_some_iff.mp h
      obtain ⟨⟨hd', hash⟩, hnext, rfl⟩ := Option.map_eq_some_iff.mp hmap
      exact .handled hget hnext
  | tick fault =>
      simp only [Sys.step] at h
      split at h
      · next hidle =>
          split at h
          · obtain rfl := Option.some.inj h
            exact .passed fault
          · obtain rfl := Option.some.inj h
            exact .passed fault
          · next totals _ htotals =>
              obtain ⟨rfl, rfl⟩ := totals_ok_iff.mp htotals
              obtain rfl := Option.some.inj h
              exact .collected hidle
      · cases h
  | report now env =>
      simp only [Sys.step] at h
      split at h
      · cases h
      · next totals hcol =>
          obtain rfl := Option.some.inj h
          exact .reported hcol

end

/-! ## A handler is some way through `handle_conn` -/

section
variable (x : Proxy)

/-- The request of a connection: the data of the frame its input starts with, if
that has the configured type. -/
def Handler.request (h : Handler) : Option Bytes :=
  match ((readFrame x.proc).run h.input).1 with
  | .error _ => none
  | .ok frame => if frame.messageType = x.config.messageType then some frame.data else none

/-- The upstream took the request of a connection. -/
def Handler.succeeded (h : Handler) : Bool :=
  (h.request x).any fun body => (h.env.upstream body).took

/-- There was a request, and the upstream did not take it. -/
def Handler.failed (h : Handler) : Bool :=
  (h.request x).any fun body => !(h.env.upstream body).took

/-- What becomes of the request of a connection, if it has one. -/
def Handler.outcome (h : Handler) : Option (Except PostError UInt16) :=
  (h.request x).map fun body => (postRemoteWrite h.env body).1

/-- The frame that was read is one to forward, and this is its post. -/
def Handler.Forwards (h : Handler) (frame : Frame) (post : Post) : Prop :=
  ((readFrame x.proc).run h.input).1 = .ok frame ∧
    frame.messageType = x.config.messageType ∧ post = forwardFrame h.env frame

/-- The stage of a handler is one that `handle_conn` gets to. -/
def Handler.Consistent (h : Handler) : Prop :=
  match h.stage with
  | .reading => True
  | .refusing frame =>
      ((readFrame x.proc).run h.input).1 = .ok frame ∧ frame.messageType ≠ x.config.messageType
  | .posting frame => h.Forwards x frame (forwardFrame h.env frame)
  | .counting frame post => h.Forwards x frame post
  | .replying frame post => h.Forwards x frame post
  | .done served => served = handleConn x.config x.proc x.json h.env h.input h.stream

/-- The handler has done its increment of `key`. -/
def Handler.counted (key : String) (h : Handler) : Bool :=
  match h.stage with
  | .replying _ post => edgeKey post.1 = key
  | .done _ => (h.outcome x).map edgeKey = some key
  | _ => false

variable {x}

theorem request_of_read {h : Handler} {frame : Frame}
    (hread : ((readFrame x.proc).run h.input).1 = .ok frame) :
    h.request x = if frame.messageType = x.config.messageType then some frame.data else none := by
  rw [Handler.request, hread]

theorem outcome_of_forwards {h : Handler} {frame : Frame} {post : Post}
    (hf : h.Forwards x frame post) : h.outcome x = some post.1 := by
  obtain ⟨hread, htype, rfl⟩ := hf
  rw [Handler.outcome, request_of_read hread, if_pos htype]
  rfl

theorem outcome_of_unexpected {h : Handler} {frame : Frame}
    (hread : ((readFrame x.proc).run h.input).1 = .ok frame)
    (htype : frame.messageType ≠ x.config.messageType) : h.outcome x = none := by
  rw [Handler.outcome, request_of_read hread, if_neg htype]
  rfl

/-- Reading sorts the connections: unreadable, of another type, to forward. -/
theorem read_cases (x : Proxy) (h : Handler) :
    (h.outcome x = none ∧ h.read x
        = .done (handleConn x.config x.proc x.json h.env h.input h.stream)) ∨
    (∃ frame, h.outcome x = none ∧ h.read x = .refusing frame ∧
      ((readFrame x.proc).run h.input).1 = .ok frame ∧
      frame.messageType ≠ x.config.messageType) ∨
    ∃ frame, h.read x = .posting frame ∧ h.Forwards x frame (forwardFrame h.env frame) := by
  rcases hrun : (readFrame x.proc).run h.input with ⟨fault | frame, rest⟩
  · refine Or.inl ⟨?_, ?_⟩
    · rw [Handler.outcome, Handler.request, hrun]
      rfl
    · rw [Handler.read, handleConn, hrun]
  · have hread : ((readFrame x.proc).run h.input).1 = .ok frame := congrArg Prod.fst hrun
    rcases eq_or_ne frame.messageType x.config.messageType with htype | htype
    · refine Or.inr (Or.inr ⟨frame, ?_, hread, htype, rfl⟩)
      rw [Handler.read, hrun]
      exact if_neg (not_not.mpr htype)
    · refine Or.inr (Or.inl ⟨frame, ?_, ?_, rfl, htype⟩)
      · exact outcome_of_unexpected hread htype
      · rw [Handler.read, hrun]
        exact if_pos htype

/-- A refused frame is answered as `handle_conn` answers it. -/
theorem refuse_eq {h : Handler} {frame : Frame}
    (hread : ((readFrame x.proc).run h.input).1 = .ok frame)
    (htype : frame.messageType ≠ x.config.messageType) :
    h.refuse x frame = handleConn x.config x.proc x.json h.env h.input h.stream := by
  rw [handleConn_of_unexpected (Prod.ext hread rfl) htype]
  rfl

/-- A forwarded frame is answered as `handle_conn` answers it. -/
theorem answer_eq {h : Handler} {frame : Frame} {post : Post} (hf : h.Forwards x frame post) :
    h.answer x frame post = handleConn x.config x.proc x.json h.env h.input h.stream := by
  obtain ⟨hread, htype, rfl⟩ := hf
  rw [handleConn_of_expected (Prod.ext hread rfl) htype]
  rcases forwardFrame h.env frame with ⟨e | status, posted⟩
  · rfl
  · rfl

/-- **What a step of a handler does.**  It keeps its connection and stays some
way through `handle_conn`; and either it touches no counter, or it is the one
increment of the counter of its post. -/
theorem next_spec {h h' : Handler} {fault : Option String} {hash hash' : EdgeHash}
    (hok : h.Consistent x) (hnext : h.next x fault hash = some (h', hash')) :
    h'.Consistent x ∧ h'.outcome x = h.outcome x ∧
      ((hash' = hash ∧ ∀ key, h'.counted x key = h.counted x key) ∨
        ∃ result, h.outcome x = some result ∧
          hash' = (EdgeHash.incr fault (edgeKey result) 1 hash).2 ∧
          ∀ key, h.counted x key = false ∧ h'.counted x key = decide (edgeKey result = key)) := by
  obtain ⟨input, env, stream, stage⟩ := h
  cases stage with
  | reading =>
      obtain ⟨rfl, rfl⟩ := Prod.mk.inj (Option.some.inj hnext)
      refine ⟨?_, rfl, Or.inl ⟨rfl, ?_⟩⟩
      · rcases read_cases x ⟨input, env, stream, .reading⟩ with
          ⟨_, hr⟩ | ⟨frame, _, hr, hread, htype⟩ | ⟨frame, hr, hf⟩
        · rw [Handler.Consistent, hr]
        · rw [Handler.Consistent, hr]
          exact ⟨hread, htype⟩
        · rw [Handler.Consistent, hr]
          exact hf
      · intro key
        rcases read_cases x ⟨input, env, stream, .reading⟩ with
          ⟨hout, hr⟩ | ⟨frame, _, hr, _, _⟩ | ⟨frame, hr, _⟩
        · rw [Handler.counted, hr]
          show decide (Option.map edgeKey (Handler.outcome x ⟨input, env, stream, .reading⟩)
            = some key) = false
          rw [hout]
          rfl
        · rw [Handler.counted, hr]
          rfl
        · rw [Handler.counted, hr]
          rfl
  | refusing frame =>
      obtain ⟨rfl, rfl⟩ := Prod.mk.inj (Option.some.inj hnext)
      obtain ⟨hread, htype⟩ := hok
      refine ⟨refuse_eq hread htype, rfl, Or.inl ⟨rfl, ?_⟩⟩
      intro key
      have hout := outcome_of_unexpected (h := ⟨input, env, stream, .refusing frame⟩) hread htype
      show decide (Option.map edgeKey (Handler.outcome x ⟨input, env, stream, .refusing frame⟩)
        = some key) = false
      rw [hout]
      rfl
  | posting frame =>
      obtain ⟨rfl, rfl⟩ := Prod.mk.inj (Option.some.inj hnext)
      exact ⟨hok, rfl, Or.inl ⟨rfl, fun _ => rfl⟩⟩
  | counting frame post =>
      obtain ⟨rfl, rfl⟩ := Prod.mk.inj (Option.some.inj hnext)
      exact ⟨hok, rfl, Or.inr ⟨post.1, outcome_of_forwards hok, rfl, fun _ => ⟨rfl, rfl⟩⟩⟩
  | replying frame post =>
      obtain ⟨rfl, rfl⟩ := Prod.mk.inj (Option.some.inj hnext)
      refine ⟨answer_eq hok, rfl, Or.inl ⟨rfl, ?_⟩⟩
      intro key
      have hout := outcome_of_forwards hok
      show decide (Option.map edgeKey (Handler.outcome x ⟨input, env, stream, .replying frame post⟩)
        = some key) = decide (edgeKey post.1 = key)
      rw [hout]
      simp
  | done served => cases hnext

end

/-! ## Every run -/

/-- Replacing one element of a list, counted. -/
theorem countP_set_add {α : Type} {q : α → Bool} {a a' : α} :
    ∀ {l : List α} {i : Nat}, l[i]? = some a →
      (l.set i a').countP q + (if q a then 1 else 0) = l.countP q + (if q a' then 1 else 0) := by
  intro l
  induction l with
  | nil =>
      intro i h
      cases h
  | cons b l ih =>
      intro i h
      cases i with
      | zero =>
          obtain rfl : b = a := Option.some.inj h
          rw [List.set_cons_zero, List.countP_cons, List.countP_cons]
          omega
      | succ i =>
          have := ih (i := i) h
          rw [List.set_cons_succ, List.countP_cons, List.countP_cons]
          omega

section
variable {x : Proxy}

/-- The handlers of a running proxy are consistent. -/
def Sys.Consistent (x : Proxy) (s : Sys) : Prop := ∀ h ∈ s.handlers, h.Consistent x

theorem consistent_step {s s' : Sys} {a : Action} (hs : s.Consistent x)
    (hstep : s.step x a = some s') : s'.Consistent x := by
  cases trans_of_step hstep with
  | accepted input env stream =>
      intro h hmem
      rcases List.mem_append.mp hmem with hold | hnew
      · exact hs h hold
      · obtain rfl := List.mem_singleton.mp hnew
        trivial
  | handled hget hnext =>
      intro h hmem
      rcases List.mem_or_eq_of_mem_set hmem with hold | rfl
      · exact hs h hold
      · exact (next_spec (hs _ (List.mem_of_getElem? hget)) hnext).1
  | passed fault => exact hs
  | collected hidle => exact hs
  | reported hcol => exact hs

theorem consistent_of_reaches {hash : EdgeHash} {s : Sys}
    (hs : Reaches (Sys.step x) (Sys.start hash) s) : s.Consistent x := by
  refine hs.invariant ?_ fun _ _ _ ht hstep => consistent_step ht hstep
  intro h hnone
  cases hnone

/-- Only a request that was forwarded changes the hash. -/
theorem forwarded_of_changed {s s' : Sys} {a : Action} (hs : s.Consistent x)
    (hstep : s.step x a = some s') (hne : s'.hash ≠ s.hash) :
    ∃ i fault h, a = .handle i fault ∧ s.handlers[i]? = some h ∧ (h.request x).isSome := by
  cases trans_of_step hstep with
  | accepted input env stream => exact absurd rfl hne
  | @handled i fault h h' hash hget hnext =>
      obtain ⟨_, _, ⟨rfl, _⟩ | ⟨result, hout, _, _⟩⟩ :=
        next_spec (hs _ (List.mem_of_getElem? hget)) hnext
      · exact absurd rfl hne
      · obtain ⟨body, hbody, _⟩ := Option.map_eq_some_iff.mp hout
        exact ⟨i, fault, h, rfl, hget, by rw [hbody]; rfl⟩
  | passed fault => exact absurd rfl hne
  | collected hidle => exact absurd rfl hne
  | reported hcol => exact absurd rfl hne

/-- **A handler that is done has served its connection as `handle_conn` does,
whatever Redis answered.** -/
theorem served_of_run {hash : EdgeHash} {s : Sys} (hs : Reaches (Sys.step x) (Sys.start hash) s)
    {h : Handler} (hmem : h ∈ s.handlers) {served : Served} (hdone : h.stage = .done served) :
    served = handleConn x.config x.proc x.json h.env h.input h.stream := by
  have := consistent_of_reaches hs h hmem
  rw [Handler.Consistent, hdone] at this
  exact this

/-- Steps that a handler has left at most. -/
def Stage.left : Stage → Nat
  | .reading => 4
  | .posting _ => 3
  | .counting _ _ => 2
  | .refusing _ => 1
  | .replying _ _ => 1
  | .done _ => 0

theorem left_le (stage : Stage) : stage.left ≤ 4 := by
  cases stage <;> simp [Stage.left]

/-- A handler that is not done has a step, whatever Redis answers, and is nearer
to its end after it. -/
theorem next_of_left (x : Proxy) (h : Handler) (fault : Option String) (hash : EdgeHash) :
    (∃ served, h.stage = .done served) ∨
      ∃ stage hash', h.next x fault hash = some ({ h with stage }, hash') ∧
        stage.left < h.stage.left := by
  obtain ⟨input, env, stream, stage⟩ := h
  cases stage with
  | reading =>
      refine Or.inr ⟨_, _, rfl, ?_⟩
      rcases read_cases x ⟨input, env, stream, .reading⟩ with
        ⟨_, hr⟩ | ⟨frame, _, hr, _, _⟩ | ⟨frame, hr, _⟩
      · rw [hr]
        exact Nat.succ_pos 3
      · rw [hr]
        exact Nat.one_lt_succ_succ 2
      · rw [hr]
        exact Nat.lt_succ_self 3
  | refusing frame => exact Or.inr ⟨_, _, rfl, Nat.one_pos⟩
  | posting frame => exact Or.inr ⟨_, _, rfl, Nat.lt_succ_self 2⟩
  | counting frame post => exact Or.inr ⟨_, _, rfl, Nat.lt_succ_self 1⟩
  | replying frame post => exact Or.inr ⟨_, _, rfl, Nat.one_pos⟩
  | done served => exact Or.inl ⟨served, rfl⟩

/-- **A connection that was accepted is served.**  From every state its handler
is done after so many steps of its own, whatever Redis answers to each. -/
theorem done_of_steps {i : Nat} : ∀ {faults : List (Option String)} {s : Sys} {h : Handler},
    s.handlers[i]? = some h → h.stage.left ≤ faults.length →
    ∃ used s' served, used <+: faults ∧
      exec (Sys.step x) s (used.map (.handle i)) = some s' ∧
      s'.handlers[i]? = some { h with stage := .done served } := by
  -- on the answers of Redis: each is that to one step, and the first of them brings the
  -- handler into a state with fewer steps left
  intro faults
  induction faults with
  | nil =>
      intro s h hget hleft
      rcases next_of_left x h none s.hash with ⟨served, hdone⟩ | ⟨stage, _, _, hlt⟩
      · refine ⟨[], s, served, List.prefix_rfl, rfl, ?_⟩
        rw [hget, ← hdone]
      · exact absurd (Nat.lt_of_lt_of_le hlt hleft) (Nat.not_lt_zero _)
  | cons fault faults ih =>
      intro s h hget hleft
      rcases next_of_left x h fault s.hash with ⟨served, hdone⟩ | ⟨stage, hash, hnext, hlt⟩
      · refine ⟨[], s, served, List.nil_prefix, rfl, ?_⟩
        rw [hget, ← hdone]
      · have hstep : s.step x (.handle i fault)
            = some { s with hash, handlers := s.handlers.set i { h with stage } } := by
          simp only [Sys.step, hget, Option.bind_some, hnext, Option.map_some]
        have hin : i < s.handlers.length := (List.getElem?_eq_some_iff.mp hget).1
        have hget' : (s.handlers.set i { h with stage })[i]? = some { h with stage } :=
          List.getElem?_set_self hin
        obtain ⟨used, s', served, hused, hexec, hdone⟩ :=
          ih (s := { s with hash, handlers := s.handlers.set i { h with stage } }) hget'
            (Nat.le_of_lt_succ (Nat.lt_of_lt_of_le hlt hleft))
        refine ⟨fault :: used, s', served, List.cons_prefix_cons.mpr ⟨rfl, hused⟩, ?_, hdone⟩
        rw [List.map_cons, exec, hstep]
        exact hexec

/-- A counted request was read, forwarded and counts under this key. -/
theorem outcome_of_counted {h : Handler} (hok : h.Consistent x) {key : String}
    (hcount : h.counted x key = true) : (h.outcome x).map edgeKey = some key := by
  obtain ⟨input, env, stream, stage⟩ := h
  cases stage with
  | replying frame post =>
      have hkey : edgeKey post.1 = key := of_decide_eq_true hcount
      rw [outcome_of_forwards hok, ← hkey]
      rfl
  | done served => exact of_decide_eq_true hcount
  | reading => cases hcount
  | refusing frame => cases hcount
  | posting frame => cases hcount
  | counting frame post => cases hcount

/-! ## The counters -/

/-- The requests whose post counts under `key`. -/
def Sys.requests (x : Proxy) (key : String) (s : Sys) : Nat :=
  s.handlers.countP fun h => (h.outcome x).map edgeKey = some key

/-- The increments of `key` that were done. -/
def Sys.increments (x : Proxy) (key : String) (s : Sys) : Nat :=
  s.handlers.countP (Handler.counted x key)

/-- The counters that the requests add up to stay below the limit of `HINCRBY`. -/
structure Sys.Room (x : Proxy) (hash₀ : EdgeHash) (s : Sys) : Prop where
  ok : EdgeHash.value hash₀ "remote_write_ok" + (s.handlers.countP (Handler.succeeded x) : Int)
    < 2 ^ 63
  err : EdgeHash.value hash₀ "remote_write_err" + (s.handlers.countP (Handler.failed x) : Int)
    < 2 ^ 63

/-- The counters are the initial ones and the increments done. -/
def Sys.Counted (x : Proxy) (hash₀ : EdgeHash) (s : Sys) : Prop :=
  ∀ key, EdgeHash.value s.hash key = EdgeHash.value hash₀ key + (s.increments x key : Int)

/-- The counter of a post says what the upstream did. -/
theorem edgeKey_post (env : Env) (body : Bytes) :
    edgeKey (postRemoteWrite env body).1
      = if (env.upstream body).took then "remote_write_ok" else "remote_write_err" := by
  cases hpost : (postRemoteWrite env body).1 with
  | ok status =>
      have htook := took_iff.mpr ⟨status, postRemoteWrite_ok_iff.mp hpost⟩
      rw [if_pos htook]
      rfl
  | error e =>
      have hnot : ¬ (env.upstream body).took = true := by
        intro htook
        obtain ⟨status, haccepts⟩ := took_iff.mp htook
        cases hpost.symm.trans (postRemoteWrite_ok_iff.mpr haccepts)
      rw [if_neg hnot]
      rfl

theorem succeeded_iff (x : Proxy) (h : Handler) :
    h.succeeded x = true ↔ (h.outcome x).map edgeKey = some "remote_write_ok" := by
  rw [Handler.succeeded, Handler.outcome]
  cases h.request x with
  | none => exact iff_of_false Bool.false_ne_true nofun
  | some body =>
      rw [Option.map_some, Option.map_some, edgeKey_post, Option.any_some]
      cases (h.env.upstream body).took with
      | true => exact iff_of_true rfl rfl
      | false => exact iff_of_false Bool.false_ne_true (by decide)

theorem failed_iff (x : Proxy) (h : Handler) :
    h.failed x = true ↔ (h.outcome x).map edgeKey = some "remote_write_err" := by
  rw [Handler.failed, Handler.outcome]
  cases h.request x with
  | none => exact iff_of_false Bool.false_ne_true nofun
  | some body =>
      rw [Option.map_some, Option.map_some, edgeKey_post, Option.any_some]
      cases (h.env.upstream body).took with
      | true => exact iff_of_false Bool.false_ne_true (by decide)
      | false => exact iff_of_true rfl rfl

/-- The requests under the two keys are those the upstream took and those it did not. -/
theorem requests_ok (x : Proxy) (s : Sys) :
    s.requests x "remote_write_ok" = s.handlers.countP (Handler.succeeded x) := by
  rw [Sys.requests]
  simp only [← succeeded_iff, Bool.decide_eq_true]

theorem requests_err (x : Proxy) (s : Sys) :
    s.requests x "remote_write_err" = s.handlers.countP (Handler.failed x) := by
  rw [Sys.requests]
  simp only [← failed_iff, Bool.decide_eq_true]

/-- There is no request under another key. -/
theorem requests_other (x : Proxy) (s : Sys) {key : String} (hok : key ≠ "remote_write_ok")
    (herr : key ≠ "remote_write_err") : s.requests x key = 0 := by
  refine List.countP_eq_zero.mpr fun h _ hkey => ?_
  obtain ⟨result, _, rfl⟩ := Option.map_eq_some_iff.mp (of_decide_eq_true hkey)
  cases result with
  | ok status => exact hok rfl
  | error e => exact herr rfl

/-- So there is room for the requests under every key. -/
theorem Sys.Room.requests {hash₀ : EdgeHash} {s : Sys} (h : s.Room x hash₀) (key : String) :
    EdgeHash.value hash₀ key + (s.requests x key : Int) < 2 ^ 63 := by
  rcases eq_or_ne key "remote_write_ok" with rfl | hok
  · rw [requests_ok]
    exact h.ok
  rcases eq_or_ne key "remote_write_err" with rfl | herr
  · rw [requests_err]
    exact h.err
  · have hrange := (value_range hash₀ key).2
    rw [requests_other x s hok herr]
    omega

/-- There was room for fewer requests, too. -/
theorem Sys.Room.mono {hash₀ : EdgeHash} {s s' : Sys} (h : s'.Room x hash₀)
    (hle : ∀ key, s.requests x key ≤ s'.requests x key) : s.Room x hash₀ := by
  have hok := hle "remote_write_ok"
  have herr := hle "remote_write_err"
  rw [requests_ok, requests_ok] at hok
  rw [requests_err, requests_err] at herr
  obtain ⟨hroom, hroom'⟩ := h
  exact ⟨by omega, by omega⟩

theorem increments_le {s : Sys} (hs : s.Consistent x) (key : String) :
    s.increments x key ≤ s.requests x key := by
  refine List.countP_mono_left fun h hmem hcount => ?_
  exact decide_eq_true (outcome_of_counted (hs h hmem) hcount)

theorem requests_step {s s' : Sys} {a : Action} (hs : s.Consistent x)
    (hstep : s.step x a = some s') (key : String) : s.requests x key ≤ s'.requests x key := by
  cases trans_of_step hstep with
  | accepted input env stream =>
      rw [Sys.requests, Sys.requests, List.countP_append]
      exact Nat.le_add_right _ _
  | @handled i fault h h' hash hget hnext =>
      have hsame := (next_spec (hs _ (List.mem_of_getElem? hget)) hnext).2.1
      have hset := @countP_set_add _ (fun h => (h.outcome x).map edgeKey = some key) _ h' _ _ hget
      rw [hsame] at hset
      exact Nat.le_of_eq (Nat.add_right_cancel hset).symm
  | passed fault => exact Nat.le_refl _
  | collected hidle => exact Nat.le_refl _
  | reported hcol => exact Nat.le_refl _

/-- **One step keeps the account**, as long as Redis is there and there is room. -/
theorem counted_step {hash₀ : EdgeHash} {s s' : Sys} {a : Action} (hs : s.Consistent x)
    (havailable : ∀ i message, a ≠ .handle i (some message)) (hstep : s.step x a = some s')
    (hroom : s'.Room x hash₀) (hcounted : s.Counted x hash₀) : s'.Counted x hash₀ := by
  have hs' := consistent_step hs hstep
  cases trans_of_step hstep with
  | accepted input env stream =>
      intro key
      rw [Sys.increments, List.countP_append]
      exact hcounted key
  | @handled i fault h h' hash hget hnext =>
      obtain rfl : fault = none := by
        cases fault with
        | none => rfl
        | some message => exact absurd rfl (havailable i message)
      obtain ⟨_, _, ⟨rfl, hsame⟩ | ⟨result, _, rfl, hone⟩⟩ :=
        next_spec (hs _ (List.mem_of_getElem? hget)) hnext
      · intro key
        have hset := @countP_set_add _ (Handler.counted x key) _ h' _ _ hget
        rw [hsame key] at hset
        rw [Sys.increments, Nat.add_right_cancel hset]
        exact hcounted key
      · have hset : ∀ key, (s.handlers.set i h').countP (Handler.counted x key)
            = s.increments x key + if edgeKey result = key then 1 else 0 := by
          intro key
          have := @countP_set_add _ (Handler.counted x key) _ h' _ _ hget
          rw [(hone key).1, (hone key).2] at this
          simpa [Sys.increments] using this
        have hfits : EdgeHash.value s.hash (edgeKey result) + 1 < 2 ^ 63 := by
          have hle := increments_le hs' (edgeKey result)
          have hlt := hroom.requests (edgeKey result)
          rw [Sys.increments, hset, if_pos rfl] at hle
          rw [hcounted]
          omega
        intro key
        show EdgeHash.value (EdgeHash.incr none (edgeKey result) 1 s.hash).2 key
          = EdgeHash.value hash₀ key + ((s.handlers.set i h').countP (Handler.counted x key) : Nat)
        rw [value_incr_one hfits, hcounted key, hset]
        rcases eq_or_ne key (edgeKey result) with rfl | hne
        · rw [if_pos rfl, if_pos rfl, Int.add_assoc]
          rfl
        · rw [if_neg hne, if_neg hne.symm]
          simp
  | passed fault => exact hcounted
  | collected hidle => exact hcounted
  | reported hcol => exact hcounted

/-- The account of a whole run. -/
theorem counted_of_run {hash₀ : EdgeHash} {actions : List Action} {s : Sys}
    (havailable : ∀ i message, Action.handle i (some message) ∉ actions)
    (hrun : exec (Sys.step x) (Sys.start hash₀) actions = some s) (hroom : s.Room x hash₀) :
    s.Counted x hash₀ := by
  have hall : s.Consistent x ∧ (s.Room x hash₀ → s.Counted x hash₀) := by
    refine exec_invariant (J := fun s => s.Consistent x ∧ (s.Room x hash₀ → s.Counted x hash₀))
      ?_ hrun ?_
    · rintro t a t' hmem ⟨ht, hc⟩ hstep
      refine ⟨consistent_step ht hstep, fun hroom' => ?_⟩
      refine counted_step ht ?_ hstep hroom' (hc (hroom'.mono (requests_step ht hstep)))
      rintro i message rfl
      exact havailable i message hmem
    · refine ⟨?_, fun _ key => (Int.add_zero _).symm⟩
      intro h hnone
      cases hnone
  exact hall.2 hroom

/-! ## The reports -/

/-- What the next report would be. -/
def Flusher.pending (hash : EdgeHash) : Flusher → List (String × UInt64)
  | .idle => EdgeHash.current hash
  | .collected totals => totals

/-- No key twice. -/
def UniqueKeys (totals : List (String × UInt64)) : Prop :=
  ∀ key v v', (key, v) ∈ totals → (key, v') ∈ totals → v = v'

/-- The reports grow, up to the one that is pending and to the counters. -/
structure Reporting (hash : EdgeHash) (flusher : Flusher) (reports : List Report) : Prop where
  covered : Covers (EdgeHash.current hash) (flusher.pending hash)
  unique : UniqueKeys (flusher.pending hash)
  past : ∀ r ∈ reports, Covers (flusher.pending hash) r.totals ∧ UniqueKeys r.totals
  ordered : reports.Pairwise fun r r' => Covers r'.totals r.totals

theorem uniqueKeys_current (hash : EdgeHash) : UniqueKeys (EdgeHash.current hash) :=
  fun _ _ _ => current_unique

/-- Before a report nothing is held back from it. -/
theorem Reporting.idle {hash : EdgeHash} {reports : List Report}
    (hpast : ∀ r ∈ reports, Covers (EdgeHash.current hash) r.totals ∧ UniqueKeys r.totals)
    (hordered : reports.Pairwise fun r r' => Covers r'.totals r.totals) :
    Reporting hash .idle reports :=
  ⟨.refl _, uniqueKeys_current hash, hpast, hordered⟩

/-- The counters may grow at any time. -/
theorem Reporting.grow {hash hash' : EdgeHash} {flusher : Flusher} {reports : List Report}
    (h : Reporting hash flusher reports)
    (hcov : Covers (EdgeHash.current hash') (EdgeHash.current hash)) :
    Reporting hash' flusher reports := by
  cases flusher with
  | idle => exact .idle (fun r hr => ⟨hcov.trans (h.past r hr).1, (h.past r hr).2⟩) h.ordered
  | collected totals => exact ⟨hcov.trans h.covered, h.unique, h.past, h.ordered⟩

/-- What is posted is what was collected. -/
theorem Reporting.post {hash : EdgeHash} {totals : List (String × UInt64)} {reports : List Report}
    (h : Reporting hash (.collected totals) reports) (now : Int64) (env : Env) :
    Reporting hash .idle (reports ++ postTotals x now env totals) := by
  have hposted : postTotals x now env totals = [] ∨
      ∃ r, postTotals x now env totals = [r] ∧ r.totals = totals := by
    rw [postTotals]
    split
    · exact Or.inl rfl
    · exact Or.inr ⟨_, rfl, rfl⟩
  have hold : ∀ r ∈ reports, Covers (EdgeHash.current hash) r.totals ∧ UniqueKeys r.totals :=
    fun r hr => ⟨h.covered.trans (h.past r hr).1, (h.past r hr).2⟩
  rcases hposted with heq | ⟨r', heq, rfl⟩
  · rw [heq, List.append_nil]
    exact .idle hold h.ordered
  · rw [heq]
    refine .idle ?_ ?_
    · intro r hr
      rcases List.mem_append.mp hr with hr | hr
      · exact hold r hr
      · rw [List.mem_singleton.mp hr]
        exact ⟨h.covered, h.unique⟩
    · refine List.pairwise_append.mpr ⟨h.ordered, List.pairwise_singleton _ _, ?_⟩
      intro r hr r'' hr''
      rw [List.mem_singleton.mp hr'']
      exact (h.past r hr).1

theorem reporting_step {s s' : Sys} {a : Action} (hs : s.Consistent x)
    (hr : Reporting s.hash s.flusher s.reports) (hstep : s.step x a = some s') :
    Reporting s'.hash s'.flusher s'.reports := by
  cases trans_of_step hstep with
  | accepted input env stream => exact hr
  | handled hget hnext =>
      obtain ⟨_, _, ⟨rfl, _⟩ | ⟨result, _, rfl, _⟩⟩ :=
        next_spec (hs _ (List.mem_of_getElem? hget)) hnext
      · exact hr
      · exact hr.grow (covers_incr _ (edgeKey result) (by decide) s.hash)
  | passed fault => exact hr
  | collected hidle =>
      rw [hidle] at hr
      exact ⟨.refl _, uniqueKeys_current _, hr.past, hr.ordered⟩
  | @reported now env totals hcol =>
      rw [hcol] at hr
      exact hr.post now env

theorem reporting_of_run {hash₀ : EdgeHash} {s : Sys}
    (hs : Reaches (Sys.step x) (Sys.start hash₀) s) : Reporting s.hash s.flusher s.reports := by
  have hall : s.Consistent x ∧ Reporting s.hash s.flusher s.reports := by
    refine hs.invariant
      (J := fun s => s.Consistent x ∧ Reporting s.hash s.flusher s.reports) ⟨?_, .idle ?_ .nil⟩ ?_
    · intro h hnone
      cases hnone
    · intro r hnone
      cases hnone
    · rintro t a t' ⟨ht, hr⟩ hstep
      exact ⟨consistent_step ht hstep, reporting_step ht hr hstep⟩
  exact hall.2

/-- Two reports in order, series by series. -/
theorem value_le_of_covers {r r' : Report} (hcov : Covers r'.totals r.totals)
    (huniq : UniqueKeys r'.totals) {ts ts' : TimeSeries} (hts : ts ∈ r.series)
    (hts' : ts' ∈ r'.series) (hlabels : ts.labels = ts'.labels) {v v' : Binary64}
    (hv : ts.value = some v) (hv' : ts'.value = some v') : v ≤ v' := by
  obtain ⟨⟨key, n⟩, hn, rfl⟩ := List.mem_map.mp hts
  obtain ⟨⟨key', n'⟩, hn', rfl⟩ := List.mem_map.mp hts'
  obtain rfl : key = key' := by simpa [edgeSeries] using hlabels
  obtain rfl := Option.some.inj hv
  obtain rfl := Option.some.inj hv'
  obtain ⟨m, hm, hle⟩ := hcov key n hn
  obtain rfl := huniq key m n' hm hn'
  exact Binary64.ofUInt64_le hle

end

/-! ## What the account says -/

def Handler.isDone (h : Handler) : Bool :=
  match h.stage with
  | .done _ => true
  | _ => false

/-- Handlers that are done have counted their requests. -/
theorem increments_of_done {x : Proxy} {s : Sys} (hdone : ∀ h ∈ s.handlers, h.isDone = true)
    (key : String) : s.increments x key = s.requests x key := by
  refine List.countP_congr fun h hmem => ?_
  have hd := hdone h hmem
  rw [Handler.isDone] at hd
  rw [Handler.counted]
  split at hd
  · next hstage => rw [hstage]
  · cases hd

/-- **Nothing is lost and nothing counted twice.**  In every run in which Redis
is there and the counters have room: once all handlers are done, the two
counters have grown by the number of requests the upstream took and did not
take, and no other counter has changed; only a request of the configured type
ever changes the hash; and of two reports the later one has no smaller value under
the same labels. -/
theorem edges_exact (x : Proxy) (hash₀ : EdgeHash) (actions : List Action) (s : Sys)
    (havailable : ∀ i message, Action.handle i (some message) ∉ actions)
    (hrun : exec (Sys.step x) (Sys.start hash₀) actions = some s) (hroom : s.Room x hash₀) :
    ((∀ h ∈ s.handlers, h.isDone = true) →
      EdgeHash.value s.hash "remote_write_ok" = EdgeHash.value hash₀ "remote_write_ok"
          + (s.handlers.countP (Handler.succeeded x) : Nat) ∧
        EdgeHash.value s.hash "remote_write_err" = EdgeHash.value hash₀ "remote_write_err"
          + (s.handlers.countP (Handler.failed x) : Nat) ∧
        ∀ key, key ≠ "remote_write_ok" → key ≠ "remote_write_err" →
          EdgeHash.value s.hash key = EdgeHash.value hash₀ key) ∧
    (∀ t a t', Reaches (Sys.step x) (Sys.start hash₀) t → t.step x a = some t' →
      t'.hash ≠ t.hash →
      ∃ i fault h, a = .handle i fault ∧ t.handlers[i]? = some h ∧ (h.request x).isSome) ∧
    s.reports.Pairwise (fun r r' => ∀ ts ∈ r.series, ∀ ts' ∈ r'.series, ts.labels = ts'.labels →
      ∀ v v', ts.value = some v → ts'.value = some v' → v ≤ v') := by
  have hreach := reaches_of_exec hrun
  refine ⟨?_, ?_, ?_⟩
  · intro hdone
    have hcount : ∀ key, EdgeHash.value s.hash key
        = EdgeHash.value hash₀ key + (s.requests x key : Nat) := by
      intro key
      rw [counted_of_run havailable hrun hroom key, increments_of_done hdone]
    refine ⟨?_, ?_, ?_⟩
    · rw [hcount, requests_ok]
    · rw [hcount, requests_err]
    · intro key hok herr
      rw [hcount, requests_other x s hok herr]
      exact Int.add_zero _
  · intro t a t' ht hstep hne
    exact forwarded_of_changed (consistent_of_reaches ht) hstep hne
  · have hr := reporting_of_run hreach
    refine hr.ordered.imp_of_mem ?_
    intro r r' hmem hmem' hcov ts hts ts' hts' hlabels v v' hv hv'
    exact value_le_of_covers hcov (hr.past r' hmem').2 hts hts' hlabels hv hv'

/-! One request and a flush. -/

/-- The proxy of the tests, over compressors that store. -/
def testProxy : Proxy where
  config := ⟨msgRemoteWrite⟩
  proc := TinyFrame.padProc
  json := oneJson
  encodeWriteRequest _ := .ok []
  prepareRemoteWriteBody := id

/-- On an empty hash there is room for one connection. -/
theorem room_one (x : Proxy) {s : Sys} (h : s.handlers.length = 1) : s.Room x .empty := by
  have hroom : ∀ q key, EdgeHash.value .empty key + (s.handlers.countP q : Int) < 2 ^ 63 := by
    intro q key
    have hle := List.countP_le_length (p := q) (l := s.handlers)
    have hzero : EdgeHash.value .empty key = 0 := rfl
    omega
  exact ⟨hroom _ _, hroom _ _⟩

/-- A connection is served and the counters are flushed. -/
def oneRequest : List Action :=
  [.accept plainInput oneEnv ⟨[], none⟩, .handle 0 none, .handle 0 none, .handle 0 none,
    .tick none, .handle 0 none, .report 7 oneEnv]

theorem edges_exact_one : ∃ s, exec (Sys.step testProxy) (Sys.start .empty) oneRequest = some s ∧
    EdgeHash.value s.hash "remote_write_ok" = EdgeHash.value .empty "remote_write_ok"
      + (s.handlers.countP (Handler.succeeded testProxy) : Nat) := by
  refine ⟨_, rfl, ?_⟩
  refine ((edges_exact testProxy .empty oneRequest _ ?_ rfl ?_).1 ?_).1
  · intro i message h
    simp [oneRequest] at h
  · exact room_one testProxy rfl
  · decide

end Proto4.PromProxy
