/-
# `Proto4.Dfinder.ProbeLoop` — the running server, one lock acquisition at a time

`run_and_notify` runs one probe loop beside any number of connections.  A step
of `Sys` is what one task does between two points at which it may have to
wait:

* a handler runs up to its reply in one step: what it does before its lock
  reads nothing shared, and its reply is sent in a later step, if at all;
* `run_probe_cycle` lists the nodes, reads `now`, and then for each node waits
  for the probe, takes the write lock and applies the verdict; at the end it
  takes the write lock once more and removes the expired nodes one by one,
  holding it throughout;
* the clock moves whenever it likes, a store operation may fail whenever it is
  called, and the process may be restarted on the same database.

A label carries what the environment chose, so `Sys.step` is a function.
`Trans` says once what each step can do; every invariant is a case analysis of
it.  `registry_simulates` is the connection to the registry: forgetting where
the tasks are, a run of the server is a run of registry operations with the
same history, so the running server answers queries as the registry does.
-/
import Proto4.Dfinder.Registry

namespace Proto4.Dfinder

open Lts

/-- Where the probe task is in `run_probe_cycle`. -/
inductive Cycle (E : Type)
  /-- between two cycles -/
  | idle
  /-- the snapshot is taken, `now` is not yet read -/
  | listed (nodes : List (NodeInfo E))
  /-- waiting for the probe of the first of `nodes` -/
  | probing (now : Instant) (nodes : List (NodeInfo E)) (expired : List String)
  /-- the probe of `node` answered, the write lock is not yet taken -/
  | probed (now : Instant) (node : NodeInfo E) (ok : Bool) (nodes : List (NodeInfo E))
      (expired : List String)
  /-- holding the write lock, with `expired` still to remove -/
  | removing (expired : List String)

namespace Cycle

variable {E : Type}

/-- Only the removal loop keeps the lock from one step to the next. -/
def holdsLock : Cycle E → Bool
  | .removing _ => true
  | _ => false

/-- The captured nodes whose verdict is still to be applied. -/
def captured : Cycle E → List (NodeInfo E)
  | .listed nodes => nodes
  | .probing _ nodes _ => nodes
  | .probed _ node _ nodes _ => node :: nodes
  | _ => []

/-- The ips this cycle has decided to remove and not yet removed. -/
def expired : Cycle E → List String
  | .probing _ _ expired => expired
  | .probed _ _ _ _ expired => expired
  | .removing expired => expired
  | _ => []

/-- The `now` of a cycle that has read it and may still use it. -/
def now? : Cycle E → Option Instant
  | .probing now _ _ => some now
  | .probed now _ _ _ _ => some now
  | _ => none

end Cycle

/-- A reply on its way to a peer. -/
structure Answer where
  peer : String
  reply : Reply

structure Sys (E : Type) where
  inner : Inner
  clock : Instant
  cycle : Cycle E
  outbox : List Answer

inductive Label
  | tick (d : Duration)
  | frame (peer : String) (frame : TinyFrame.Frame) (fault : Option StoreError) (nowSecs : Int)
  | send (i : Nat)
  | snapshot (fault : Option StoreError)
  | readNow
  | probeDone (ok : Bool)
  | applyVerdict
  | endLoop
  | removeNext (fault : Option StoreError)
  | restart (fault : Option StoreError)

section
variable {E : Type} (sd : Serde E)

/-- A handler's result, as what is to be sent. -/
def outgoing (peer : String) : Except ServerError Reply → List Answer
  | .ok reply => [⟨peer, reply⟩]
  | .error _ => []

def Sys.step (s : Sys E) : Label → Option (Sys E)
  | .tick d => some { s with clock := s.clock + d }
  | .frame peer frame fault nowSecs =>
      if s.cycle.holdsLock then none
      else
        let (result, inner) := handleFrame sd peer frame fault nowSecs s.clock s.inner
        some { s with inner, outbox := s.outbox ++ outgoing peer result }
  | .send i =>
      if i < s.outbox.length then some { s with outbox := s.outbox.eraseIdx i } else none
  | .snapshot fault =>
      match s.cycle with
      | .idle =>
          match listAll sd fault s.inner.store with
          | .ok nodes => some { s with cycle := .listed nodes }
          | .error _ => some s
      | _ => none
  | .readNow =>
      match s.cycle with
      | .listed nodes => some { s with cycle := .probing s.clock nodes [] }
      | _ => none
  | .probeDone ok =>
      match s.cycle with
      | .probing now (node :: nodes) expired =>
          some { s with cycle := .probed now node ok nodes expired }
      | _ => none
  | .applyVerdict =>
      match s.cycle with
      | .probed now node ok nodes expired =>
          let (inner, isExpired) := s.inner.applyVerdict now node.ip ok
          some { s with
            inner
            cycle := .probing now nodes (if isExpired then expired ++ [node.ip] else expired) }
      | _ => none
  | .endLoop =>
      match s.cycle with
      | .probing _ [] [] => some { s with cycle := .idle }
      | .probing _ [] expired => some { s with cycle := .removing expired }
      | _ => none
  | .removeNext fault =>
      match s.cycle with
      | .removing [] => some { s with cycle := .idle }
      | .removing (ip :: expired) =>
          match s.inner.removeNode fault ip with
          | .ok inner => some { s with inner, cycle := .removing expired }
          | .error _ => some { s with cycle := .idle }
      | _ => none
  | .restart fault =>
      match Server.new sd fault s.inner.store s.inner.offlineTtl s.clock with
      | .ok inner => some { inner, clock := s.clock, cycle := .idle, outbox := [] }
      | .error _ => none

/-- The operation of the registry a step amounts to, if it touches it. -/
def Sys.op (s : Sys E) : Label → Option (Op E)
  | .frame peer frame fault nowSecs =>
      if frame.messageType = msgRegister then some (.register peer frame fault nowSecs s.clock)
      else none
  | .probeDone ok =>
      match s.cycle with
      | .probing _ (node :: _) _ => some (.probe node ok)
      | _ => none
  | .applyVerdict =>
      match s.cycle with
      | .probed now node ok _ _ => some (.verdict node now ok)
      | _ => none
  | .removeNext fault =>
      match s.cycle with
      | .removing (ip :: _) => some (.remove ip fault)
      | _ => none
  | .restart fault => some (.restart fault s.clock)
  | _ => none

/-- The events of a step are those of its operation. -/
def Sys.emit (s : Sys E) (a : Label) : List (Event E) :=
  match s.op a with
  | some op => Registry.emit sd s.inner op
  | none => []

/-- A server that has just been started. -/
def Sys.start (inner : Inner) (clock : Instant) : Sys E where
  inner
  clock
  cycle := .idle
  outbox := []

/-! ## What each step can do -/

/-- `Trans sd s a s' es`: every way `a` can lead from `s` to `s'`, leaving `es`. -/
inductive Trans (s : Sys E) : Label → Sys E → List (Event E) → Prop
  | tick (d : Duration) : Trans s (.tick d) { s with clock := s.clock + d } []
  | registered {peer : String} {frame : TinyFrame.Frame} {nowSecs : Int} {node : NodeInfo E}
      {row : NodeRow} :
      s.cycle.holdsLock = false → frame.messageType = msgRegister →
      admitRegister sd peer frame = .ok node → rowOfNode sd nowSecs node = .ok row →
      Trans s (.frame peer frame none nowSecs)
        { s with
          inner := { s.inner with
            store := s.inner.store.upsert row
            health := Function.update s.inner.health node.ip (some ⟨true, s.clock⟩) }
          outbox := s.outbox ++ [⟨peer, msgRegisterAck, frame.txId, ackBody⟩] }
        [.registered node s.clock]
  | answered {peer : String} {frame : TinyFrame.Frame} {fault : Option StoreError}
      {nowSecs : Int} {answers : List Answer} :
      s.cycle.holdsLock = false → (∀ a ∈ answers, a.reply.messageType ≠ msgRegisterAck) →
      Trans s (.frame peer frame fault nowSecs) { s with outbox := s.outbox ++ answers } []
  | sent {i : Nat} : i < s.outbox.length →
      Trans s (.send i) { s with outbox := s.outbox.eraseIdx i } []
  | listed {nodes : List (NodeInfo E)} : s.cycle = .idle →
      listAll sd none s.inner.store = .ok nodes →
      Trans s (.snapshot none) { s with cycle := .listed nodes } []
  | notListed {fault : Option StoreError} : Trans s (.snapshot fault) s []
  | began {nodes : List (NodeInfo E)} : s.cycle = .listed nodes →
      Trans s .readNow { s with cycle := .probing s.clock nodes [] } []
  | probed {now : Instant} {node : NodeInfo E} {nodes : List (NodeInfo E)}
      {expired : List String} (ok : Bool) : s.cycle = .probing now (node :: nodes) expired →
      Trans s (.probeDone ok) { s with cycle := .probed now node ok nodes expired }
        [.probed node ok]
  | verdict {now : Instant} {node : NodeInfo E} {ok : Bool} {nodes : List (NodeInfo E)}
      {expired : List String} : s.cycle = .probed now node ok nodes expired →
      Trans s .applyVerdict
        { s with
          inner := (s.inner.applyVerdict now node.ip ok).1
          cycle := .probing now nodes
            (if (s.inner.applyVerdict now node.ip ok).2 then expired ++ [node.ip] else expired) }
        [.verdict node ok]
  | ended {now : Instant} : s.cycle = .probing now [] [] →
      Trans s .endLoop { s with cycle := .idle } []
  | locked {now : Instant} {expired : List String} : s.cycle = .probing now [] expired →
      Trans s .endLoop { s with cycle := .removing expired } []
  | removed {ip : String} {expired : List String} : s.cycle = .removing (ip :: expired) →
      Trans s (.removeNext none)
        { s with
          inner := { s.inner with
            store := s.inner.store.erase ip
            health := Function.update s.inner.health ip none }
          cycle := .removing expired }
        [.removed ip]
  | unlocked {fault : Option StoreError} {expired : List String} :
      s.cycle = .removing expired → (fault = none → expired = []) →
      Trans s (.removeNext fault) { s with cycle := .idle } []
  | restarted {nodes : List (NodeInfo E)} : listAll sd none s.inner.store = .ok nodes →
      Trans s (.restart none)
        { inner := ⟨s.inner.store,
            fun ip => if ip ∈ nodes.map NodeInfo.ip then some ⟨false, s.clock⟩ else none,
            s.inner.offlineTtl⟩
          clock := s.clock
          cycle := .idle
          outbox := [] }
        [.started]

variable {sd}

theorem outgoing_ne_ack {peer : String} {result : Except ServerError Reply}
    (h : ∀ r, result = .ok r → r.messageType ≠ msgRegisterAck) :
    ∀ a ∈ outgoing peer result, a.reply.messageType ≠ msgRegisterAck := by
  intro a ha
  cases result with
  | error e => cases ha
  | ok r =>
      obtain rfl := List.mem_singleton.mp ha
      exact h r rfl

/-- A frame is an accepted registration, or it leaves the state alone. -/
theorem trans_of_frame {s s' : Sys E} {peer : String} {frame : TinyFrame.Frame}
    {fault : Option StoreError} {nowSecs : Int}
    (h : s.step sd (.frame peer frame fault nowSecs) = some s') :
    Trans sd s (.frame peer frame fault nowSecs) s'
      (s.emit sd (.frame peer frame fault nowSecs)) := by
  simp only [Sys.step] at h
  cases hlock : s.cycle.holdsLock with
  | true => simp [hlock] at h
  | false =>
      simp only [hlock, Bool.false_eq_true, if_false, Option.some.injEq] at h
      subst h
      by_cases hreg : frame.messageType = msgRegister
      · simp only [Sys.emit, Sys.op, handleFrame, if_pos hreg, Registry.emit, registeredEvents]
        rcases handleRegister_cases sd peer frame fault nowSecs s.clock s.inner with
          ⟨node, row, hadmitted, rfl, hrow, heq, hev⟩ | ⟨result, heq, hno, hev, _⟩
        · rw [heq, hev]
          exact .registered hlock hreg hadmitted hrow
        · rw [heq, hev]
          refine .answered hlock (outgoing_ne_ack ?_)
          intro r hr
          rw [hno r hr]
          decide
      · simp only [Sys.emit, Sys.op, handleFrame, if_neg hreg]
        by_cases hq : frame.messageType = msgQuery
        · simp only [if_pos hq]
          refine .answered hlock (outgoing_ne_ack ?_)
          intro r hr
          rcases handleQuery_messageType hr with h | h
          · rw [h]
            decide
          · rw [h]
            decide
        · simp only [if_neg hq]
          refine .answered hlock (outgoing_ne_ack ?_)
          intro r hr
          rw [jsonReply_messageType hr]
          decide

/-- **Inversion.**  A step is one of the transitions. -/
theorem trans_of_step {s s' : Sys E} {a : Label} (h : s.step sd a = some s') :
    Trans sd s a s' (s.emit sd a) := by
  cases a with
  | tick d =>
      obtain rfl := Option.some.inj h
      exact .tick d
  | frame peer frame fault nowSecs => exact trans_of_frame h
  | send i =>
      simp only [Sys.step] at h
      split at h
      · next hi =>
          obtain rfl := Option.some.inj h
          exact .sent hi
      · cases h
  | snapshot fault =>
      simp only [Sys.step] at h
      split at h
      · next hidle =>
          split at h
          · next nodes hlist =>
              obtain rfl := Option.some.inj h
              obtain ⟨rfl, _⟩ := listAll_ok_iff.mp hlist
              exact .listed hidle hlist
          · obtain rfl := Option.some.inj h
            exact .notListed
      · cases h
  | readNow =>
      simp only [Sys.step] at h
      split at h
      · next hcycle =>
          obtain rfl := Option.some.inj h
          exact .began hcycle
      · cases h
  | probeDone ok =>
      simp only [Sys.step] at h
      split at h
      · next hcycle =>
          obtain rfl := Option.some.inj h
          simp only [Sys.emit, Sys.op, hcycle]
          exact .probed ok hcycle
      · cases h
  | applyVerdict =>
      simp only [Sys.step] at h
      split at h
      · next hcycle =>
          obtain rfl := Option.some.inj h
          simp only [Sys.emit, Sys.op, hcycle]
          exact .verdict hcycle
      · cases h
  | endLoop =>
      simp only [Sys.step] at h
      split at h
      · next hcycle =>
          obtain rfl := Option.some.inj h
          exact .ended hcycle
      · next hcycle =>
          obtain rfl := Option.some.inj h
          exact .locked hcycle
      · cases h
  | removeNext fault =>
      simp only [Sys.step] at h
      split at h
      · next hcycle =>
          obtain rfl := Option.some.inj h
          simp only [Sys.emit, Sys.op, hcycle]
          exact .unlocked hcycle fun _ => rfl
      · next ip expired hcycle =>
          simp only [Sys.emit, Sys.op, hcycle, Registry.emit]
          cases hrem : s.inner.removeNode fault ip with
          | ok inner =>
              rw [hrem] at h
              obtain rfl := Option.some.inj h
              obtain ⟨rfl, rfl⟩ := removeNode_ok_iff.mp hrem
              exact .removed hcycle
          | error e =>
              rw [hrem] at h
              obtain rfl := Option.some.inj h
              refine .unlocked hcycle ?_
              rintro rfl
              cases hrem
      · cases h
  | restart fault =>
      simp only [Sys.step] at h
      split at h
      · next inner hnew =>
          obtain rfl := Option.some.inj h
          obtain ⟨nodes, hall, rfl⟩ := new_ok_iff.mp hnew
          obtain ⟨rfl, _⟩ := listAll_ok_iff.mp hall
          exact .restarted hall
      · cases h

/-! ## The server is a registry -/

/-- A step does to the shared state what its operation does, or nothing. -/
theorem op_of_step {s s' : Sys E} {a : Label} (h : s.step sd a = some s') :
    (s.op a = none ∧ s'.inner = s.inner) ∨
      ∃ op, s.op a = some op ∧ Registry.step sd s.inner op = some s'.inner := by
  cases a with
  | frame peer frame fault nowSecs =>
      simp only [Sys.step] at h
      split at h
      · cases h
      · obtain rfl := Option.some.inj h
        by_cases hreg : frame.messageType = msgRegister
        · refine Or.inr ⟨_, if_pos hreg, ?_⟩
          simp only [handleFrame, if_pos hreg, Registry.step]
        · refine Or.inl ⟨if_neg hreg, ?_⟩
          simp only [handleFrame, if_neg hreg]
          split
          · rfl
          · rfl
  | restart fault =>
      refine Or.inr ⟨_, rfl, ?_⟩
      simp only [Sys.step] at h
      split at h
      · next inner hnew =>
          obtain rfl := Option.some.inj h
          simp only [Registry.step, hnew]
      · cases h
  | probeDone ok =>
      simp only [Sys.step] at h
      split at h
      · next node _ _ hcycle =>
          obtain rfl := Option.some.inj h
          exact Or.inr ⟨.probe node ok, by simp only [Sys.op, hcycle], rfl⟩
      · cases h
  | applyVerdict =>
      simp only [Sys.step] at h
      split at h
      · next now node ok nodes expired hcycle =>
          obtain rfl := Option.some.inj h
          exact Or.inr ⟨.verdict node now ok, by simp only [Sys.op, hcycle], rfl⟩
      · cases h
  | removeNext fault =>
      simp only [Sys.step] at h
      split at h
      · next hcycle =>
          obtain rfl := Option.some.inj h
          exact Or.inl ⟨by simp only [Sys.op, hcycle], rfl⟩
      · next ip expired hcycle =>
          refine Or.inr ⟨.remove ip fault, by simp only [Sys.op, hcycle], ?_⟩
          cases hrem : s.inner.removeNode fault ip with
          | ok inner =>
              rw [hrem] at h
              obtain rfl := Option.some.inj h
              simp only [Registry.step, hrem]
          | error e =>
              rw [hrem] at h
              obtain rfl := Option.some.inj h
              simp only [Registry.step, hrem]
      · cases h
  | tick d =>
      obtain rfl := Option.some.inj h
      exact Or.inl ⟨rfl, rfl⟩
  | send i =>
      refine Or.inl ⟨rfl, ?_⟩
      cases trans_of_step h with
      | sent _ => rfl
  | snapshot fault =>
      refine Or.inl ⟨rfl, ?_⟩
      cases trans_of_step h with
      | listed _ _ => rfl
      | notListed => rfl
  | readNow =>
      refine Or.inl ⟨rfl, ?_⟩
      cases trans_of_step h with
      | began _ => rfl
  | endLoop =>
      refine Or.inl ⟨rfl, ?_⟩
      cases trans_of_step h with
      | ended _ => rfl
      | locked _ => rfl

/-- The server with its history. -/
abbrev Run (E : Type) := Logged (Sys E) (Event E)

variable (sd)

abbrev Run.step : Run E → Label → Option (Run E) := Logged.step (Sys.step sd) (Sys.emit sd)

variable {sd} in
/-- Inversion for runs: a transition, with its events on top of the history. -/
theorem trans_of_runStep {c c' : Run E} {a : Label} (h : Run.step sd c a = some c') :
    ∃ s' es, Trans sd c.state a s' es ∧ c' = ⟨s', es ++ c.log⟩ := by
  obtain ⟨hs, hlog⟩ := logged_step h
  exact ⟨c'.state, _, trans_of_step hs, by rw [← hlog]⟩

variable {sd} in
/-- The effect a transition has on the shared state. -/
theorem effect_of_runStep {c c' : Run E} {a : Label} (h : Run.step sd c a = some c') :
    ∃ es, Effect sd c.state.inner c'.state.inner es ∧ c'.log = es ++ c.log := by
  obtain ⟨hs, hlog⟩ := logged_step h
  rcases op_of_step hs with ⟨hop, hinner⟩ | ⟨op, hop, hreg⟩
  · refine ⟨[], ?_, ?_⟩
    · rw [hinner]
      exact .quiet
    · simpa only [Sys.emit, hop] using hlog
  · refine ⟨_, Registry.effect hreg, ?_⟩
    simpa only [Sys.emit, hop] using hlog

/-- What is left of a run when it is forgotten where the tasks are. -/
def Forgets (c : Run E) (t : Logged Inner (Event E)) : Prop :=
  t.state = c.state.inner ∧ t.log = c.log

/-- **The running server simulates the registry**, history included. -/
theorem registry_simulates : Simulates (Run.step sd) (Registry.run sd) Forgets := by
  rintro c a c' ⟨g, log⟩ ⟨rfl, rfl⟩ hstep
  obtain ⟨hs, hlog⟩ := logged_step hstep
  rcases op_of_step hs with ⟨hop, hinner⟩ | ⟨op, hop, hreg⟩
  · refine ⟨_, .refl, hinner.symm, ?_⟩
    simp only [hlog, Sys.emit, hop, List.nil_append]
  · have hone : Registry.run sd ⟨c.state.inner, c.log⟩ op = some ⟨c'.state.inner, c'.log⟩ := by
      simp only [Registry.run, Logged.step, hreg, Option.map_some, hlog, Sys.emit, hop]
    exact ⟨_, .tail .refl hone, rfl, rfl⟩

variable {sd}

/-- A run of the server from an empty database mirrors its history. -/
theorem mirrors_of_run (hsd : sd.ColumnsRoundTrip) {offlineTtl : Duration} {clock : Instant}
    {c : Run E} (h : Reaches (Run.step sd) ⟨Sys.start (Inner.empty offlineTtl) clock, []⟩ c) :
    Mirrors sd c.log c.state.inner := by
  have hstart : Forgets ⟨Sys.start (Inner.empty offlineTtl) clock, ([] : List (Event E))⟩
      ⟨Inner.empty offlineTtl, []⟩ := ⟨rfl, rfl⟩
  obtain ⟨⟨g, log⟩, ht, rfl, rfl⟩ := (registry_simulates sd).reaches hstart h
  exact mirrors_of_reaches hsd ht

/-- **The running server answers queries exactly.**  Whatever its tasks have
done, a query that gets the lock is handled at once, changes nothing shared,
and its answer lists the registrations in force that carry the labels and were
last seen healthy. -/
theorem query_of_run (hsd : sd.ColumnsRoundTrip) {offlineTtl : Duration} {clock : Instant}
    {c : Run E} (h : Reaches (Run.step sd) ⟨Sys.start (Inner.empty offlineTtl) clock, []⟩ c)
    (hlock : c.state.cycle.holdsLock = false) {frame : TinyFrame.Frame} {req : QueryRequest}
    (htype : frame.messageType = msgQuery)
    (hreq : sd.queryRequest.decode frame.data = some req) (hne : req.labels ≠ [])
    (peer : String) (nowSecs : Int) :
    ∃ nodes,
      c.state.step sd (.frame peer frame none nowSecs)
        = some { c.state with
            outbox := c.state.outbox ++ outgoing peer
              (jsonReply msgQueryResult frame.txId (sd.queryResult.encode ⟨nodes⟩)) } ∧
      (nodes.map NodeInfo.ip).Nodup ∧
      ∀ n, n ∈ nodes ↔ registration n.ip c.log = some n ∧ (∀ l ∈ req.labels, l ∈ n.labels) ∧
        lastHealthWrite n.ip c.log = some true := by
  obtain ⟨nodes, hok, hnodup, hmem⟩ := (mirrors_of_run hsd h).query req.labels
  refine ⟨nodes, ?_, hnodup, hmem⟩
  simp only [Sys.step, hlock, handleFrame_of_query htype hreq hne hok]
  rfl

end

end Proto4.Dfinder
