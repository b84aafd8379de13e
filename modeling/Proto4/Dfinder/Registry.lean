/-
# `Proto4.Dfinder.Registry` — the registry as a history of events

The server seen from a query.  A registration, the answer to a probe, the verdict
passed on it, a removal and a restart are atomic operations on `Inner`, and they
come in any order: nothing here knows about probe cycles.  Every operation leaves
the events of what it did, and the questions one asks about a registry are
registers of that history: which registration of an ip is in force
(`registration`), and what its health entry was last set to since the process
started (`lastHealthWrite`).

The event of a registration is read off the request and the peer it came from
(`registering`), not off what the handler makes of them; that the handler stores
exactly that is `handleRegister_cases`.

`Effect` is what one operation can do to the shared state together with the
event it leaves; the probe loop's steps have the same effects, so what is
proved from `Effect` holds of both.  `Mirrors` is the invariant: table and
health map say what the history says.  `handleQuery_exact` reads it off.
-/
import Proto4.Dfinder.Server
import Proto4.Lib.Lts

namespace Proto4.Dfinder

open Lts

inductive Event (E : Type)
  | started
  | registered (node : NodeInfo E) (time : Instant)
  /-- the probe of `node` answered; its verdict is yet to be passed -/
  | probed (node : NodeInfo E) (ok : Bool)
  | verdict (node : NodeInfo E) (ok : Bool)
  | removed (ip : String)

section
variable {E : Type}

/-! ## Registers of a history -/

def setsRegistration (ip : String) : Event E → Option (Option (NodeInfo E))
  | .registered node _ => if node.ip = ip then some (some node) else none
  | .removed ip' => if ip' = ip then some none else none
  | _ => none

/-- The last registration of `ip`, unless it was removed since. -/
def registration (ip : String) (log : List (Event E)) : Option (NodeInfo E) :=
  latest (setsRegistration ip) log

theorem registration_registered (ip : String) (node : NodeInfo E) (time : Instant)
    (log : List (Event E)) :
    registration ip (.registered node time :: log) =
      if node.ip = ip then some node else registration ip log := by
  rw [registration, latest_cons, setsRegistration]
  split
  · rfl
  · rfl

theorem registration_removed (ip ip' : String) (log : List (Event E)) :
    registration ip (.removed ip' :: log) = if ip' = ip then none else registration ip log := by
  rw [registration, latest_cons, setsRegistration]
  split
  · rfl
  · rfl

theorem ip_of_registration {ip : String} {node : NodeInfo E} {log : List (Event E)}
    (h : registration ip log = some node) : node.ip = ip := by
  obtain ⟨_, e, _, _, he, _⟩ := exists_of_latest h
  cases e with
  | registered node' time =>
      simp only [setsRegistration] at he
      split at he
      · next hip =>
          obtain rfl : node' = node := Option.some.inj (Option.some.inj he)
          exact hip
      · cases he
  | removed ip' =>
      simp only [setsRegistration] at he
      split at he
      · cases he
      · cases he
  | started => cases he
  | probed _ _ => cases he
  | verdict _ _ => cases he

def setsHealth (ip : String) : Event E → Option (Option Bool)
  | .started => some none
  | .registered node _ => if node.ip = ip then some (some true) else none
  | .probed _ _ => none
  | .verdict node ok => if node.ip = ip then some (some ok) else none
  | .removed ip' => if ip' = ip then some none else none

/-- What the health entry of `ip` was last set to since the process started. -/
def lastHealthWrite (ip : String) (log : List (Event E)) : Option Bool :=
  latest (setsHealth ip) log

theorem lastHealthWrite_registered (ip : String) (node : NodeInfo E) (time : Instant)
    (log : List (Event E)) :
    lastHealthWrite ip (.registered node time :: log) =
      if node.ip = ip then some true else lastHealthWrite ip log := by
  rw [lastHealthWrite, latest_cons, setsHealth]
  split
  · rfl
  · rfl

theorem lastHealthWrite_verdict (ip : String) (node : NodeInfo E) (ok : Bool)
    (log : List (Event E)) :
    lastHealthWrite ip (.verdict node ok :: log) =
      if node.ip = ip then some ok else lastHealthWrite ip log := by
  rw [lastHealthWrite, latest_cons, setsHealth]
  split
  · rfl
  · rfl

theorem lastHealthWrite_removed (ip ip' : String) (log : List (Event E)) :
    lastHealthWrite ip (.removed ip' :: log) =
      if ip' = ip then none else lastHealthWrite ip log := by
  rw [lastHealthWrite, latest_cons, setsHealth]
  split
  · rfl
  · rfl

variable (sd : Serde E)

/-! ## Effects -/

/-- What one step can do to the shared state, and the event it leaves. -/
inductive Effect (g : Inner) : Inner → List (Event E) → Prop
  | quiet : Effect g g []
  | registered {nowSecs : Int} {now : Instant} {node : NodeInfo E} {row : NodeRow} :
      rowOfNode sd nowSecs node = .ok row →
      Effect g
        { g with
          store := g.store.upsert row
          health := Function.update g.health node.ip (some ⟨true, now⟩) }
        [.registered node now]
  | probed (node : NodeInfo E) (ok : Bool) : Effect g g [.probed node ok]
  | verdict (node : NodeInfo E) (now : Instant) (ok : Bool) :
      Effect g (g.applyVerdict now node.ip ok).1 [.verdict node ok]
  | removed (ip : String) :
      Effect g
        { g with
          store := g.store.erase ip
          health := Function.update g.health ip none }
        [.removed ip]
  | started {nodes : List (NodeInfo E)} {now : Instant} :
      listAll sd none g.store = .ok nodes →
      Effect g
        ⟨g.store, fun ip => if ip ∈ nodes.map NodeInfo.ip then some ⟨false, now⟩ else none,
          g.offlineTtl⟩
        [.started]

/-- The node a register request is about, if it can be stored: what the request
says, under the ip of the peer it came from, with labels, and with columns that
JSON can write. -/
def registering (peer : String) (frame : TinyFrame.Frame) (fault : Option StoreError) :
    Option (NodeInfo E) :=
  (sd.registerRequest.decode frame.data).bind fun req =>
    if req.labels ≠ [] ∧ fault = none ∧ (sd.labels.encode req.labels).isSome ∧
        (sd.extra.encode req.extra).isSome then
      some ⟨peer, req.port, req.labels, req.extra⟩
    else none

/-- The event a register request leaves: one if it goes through, none if it is refused. -/
def registeredEvents (peer : String) (frame : TinyFrame.Frame) (fault : Option StoreError)
    (now : Instant) : List (Event E) :=
  ((registering sd peer frame fault).map fun node => .registered node now).toList

/-- What the handler admits is what the peer asked for, and it is stored exactly
if the database is there and its row can be written. -/
theorem registering_eq_some {peer : String} {frame : TinyFrame.Frame} {fault : Option StoreError}
    (nowSecs : Int) {node : NodeInfo E} :
    registering sd peer frame fault = some node ↔
      admitRegister sd peer frame = .ok node ∧ fault = none ∧
        ∃ row, rowOfNode sd nowSecs node = .ok row := by
  rw [registering, Option.bind_eq_some_iff, admitRegister_ok_iff]
  constructor
  · rintro ⟨req, hreq, hif⟩
    split at hif
    · next hwhen =>
        obtain ⟨hne, hfault, hlabels, hextra⟩ := hwhen
        obtain rfl := Option.some.inj hif
        obtain ⟨l, hl⟩ := Option.isSome_iff_exists.mp hlabels
        obtain ⟨x, hx⟩ := Option.isSome_iff_exists.mp hextra
        exact ⟨⟨req, hreq, hne, rfl⟩, hfault, _, (rowOfNode_ok_iff sd).mpr ⟨l, x, hl, hx, rfl⟩⟩
    · cases hif
  · rintro ⟨⟨req, hreq, hne, rfl⟩, hfault, row, hrow⟩
    obtain ⟨l, x, hl, hx, _⟩ := (rowOfNode_ok_iff sd).mp hrow
    refine ⟨req, hreq, if_pos ⟨hne, hfault, ?_, ?_⟩⟩
    · exact Option.isSome_iff_exists.mpr ⟨l, hl⟩
    · exact Option.isSome_iff_exists.mpr ⟨x, hx⟩

/-- **A register request** either stores the node it asked for, in the table and
in the health map, and is acknowledged, or changes nothing and is not. -/
theorem handleRegister_cases (peer : String) (frame : TinyFrame.Frame)
    (fault : Option StoreError) (nowSecs : Int) (now : Instant) (g : Inner) :
    (∃ node row, admitRegister sd peer frame = .ok node ∧ fault = none ∧
      rowOfNode sd nowSecs node = .ok row ∧
      handleRegister sd peer frame fault nowSecs now g =
        (.ok ⟨msgRegisterAck, frame.txId, ackBody⟩,
          { g with
            store := g.store.upsert row
            health := Function.update g.health node.ip (some ⟨true, now⟩) }) ∧
      registering sd peer frame fault = some node) ∨
    (∃ result, handleRegister sd peer frame fault nowSecs now g = (result, g) ∧
      (∀ r, result = .ok r → r.messageType = msgError) ∧
      (registering sd peer frame fault : Option (NodeInfo E)) = none ∧
      ((∃ done, admitRegister sd peer frame = .error done) ∨
        ∃ node e, admitRegister sd peer frame = .ok node ∧
          upsert sd fault nowSecs node g.store = .error e)) := by
  rw [handleRegister]
  cases hadmitted : admitRegister sd peer frame with
  | error done =>
      refine Or.inr ⟨done, rfl, ?_, ?_, Or.inl ⟨done, rfl⟩⟩
      · rintro r rfl
        exact admitRegister_error hadmitted
      · refine Option.eq_none_iff_forall_ne_some.mpr fun node hnode => ?_
        cases hadmitted.symm.trans ((registering_eq_some sd nowSecs).mp hnode).1
  | ok node =>
      dsimp only
      cases hreg : g.register sd fault nowSecs now node with
      | error e =>
          have hup := register_error hreg
          refine Or.inr ⟨_, rfl, nofun, ?_, Or.inr ⟨node, e, rfl, hup⟩⟩
          refine Option.eq_none_iff_forall_ne_some.mpr fun node' hnode => ?_
          obtain ⟨hadmitted', hfault, row, hrow⟩ := (registering_eq_some sd nowSecs).mp hnode
          obtain rfl := Except.ok.inj (hadmitted.symm.trans hadmitted')
          have hok : upsert sd fault nowSecs node g.store = .ok (g.store.upsert row) :=
            upsert_ok_iff.mpr ⟨hfault, row, hrow, rfl⟩
          cases hok.symm.trans hup
      | ok g' =>
          obtain ⟨hfault, row, hrow, rfl⟩ := register_ok_iff.mp hreg
          refine Or.inl ⟨node, row, rfl, hfault, hrow, rfl, ?_⟩
          exact (registering_eq_some sd nowSecs).mpr ⟨hadmitted, hfault, row, hrow⟩

/-! ## The invariant -/

/-- Table and health map say what the history says. -/
structure Mirrors (log : List (Event E)) (g : Inner) : Prop where
  held : ∀ ip, stored sd g.store ip = registration ip log
  readable : ∀ ip, (g.store.lookup ip).isSome → (stored sd g.store ip).isSome
  written : ∀ ip, (g.health ip).map HealthState.healthy = some true ↔
    lastHealthWrite ip log = some true

variable {sd}

theorem Mirrors.registered (hsd : sd.ColumnsRoundTrip) {log : List (Event E)} {g : Inner}
    (h : Mirrors sd log g) {nowSecs : Int} {node : NodeInfo E} {row : NodeRow}
    (hrow : rowOfNode sd nowSecs node = .ok row) (now : Instant) :
    Mirrors sd (.registered node now :: log)
      { g with
        store := g.store.upsert row
        health := Function.update g.health node.ip (some ⟨true, now⟩) } where
  held := by
    intro ip
    rw [stored_upsert hsd hrow, registration_registered, h.held ip]
    rcases eq_or_ne ip node.ip with rfl | hne
    · rw [if_pos rfl]
    · rw [if_neg hne, if_neg hne.symm]
  readable := by
    intro ip hsome
    rw [Keyed.Table.lookup_upsert, ip_of_rowOfNode hrow] at hsome
    rw [stored_upsert hsd hrow]
    split
    · rfl
    · next hne =>
        rw [if_neg hne] at hsome
        exact h.readable ip hsome
  written := by
    intro ip
    rw [healthy_update, lastHealthWrite_registered]
    split
    · exact Iff.rfl
    · exact h.written ip

theorem Mirrors.verdict {log : List (Event E)} {g : Inner} (h : Mirrors sd log g)
    (node : NodeInfo E) (now : Instant) (ok : Bool) :
    Mirrors sd (.verdict node ok :: log) (g.applyVerdict now node.ip ok).1 where
  held := by
    intro ip
    rw [applyVerdict_store]
    exact h.held ip
  readable := by
    rw [applyVerdict_store]
    exact h.readable
  written := by
    intro ip
    rw [applyVerdict_health, healthy_update, lastHealthWrite_verdict]
    split
    · exact Iff.rfl
    · exact h.written ip

theorem Mirrors.removed {log : List (Event E)} {g : Inner} (h : Mirrors sd log g) (ip' : String) :
    Mirrors sd (.removed ip' :: log)
      { g with
        store := g.store.erase ip'
        health := Function.update g.health ip' none } where
  held := by
    intro ip
    rw [stored_erase, registration_removed, h.held ip]
    rcases eq_or_ne ip ip' with rfl | hne
    · rw [if_pos rfl]
    · rw [if_neg hne, if_neg hne.symm]
  readable := by
    intro ip hsome
    rw [Keyed.Table.lookup_erase] at hsome
    rw [stored_erase]
    split at hsome
    · cases hsome
    · next hne =>
        rw [if_neg hne]
        exact h.readable ip hsome
  written := by
    intro ip
    rw [healthy_update, lastHealthWrite_removed]
    split
    · exact Iff.rfl
    · exact h.written ip

/-- The answer to a probe changes nothing yet. -/
theorem Mirrors.probed {log : List (Event E)} {g : Inner} (h : Mirrors sd log g)
    (node : NodeInfo E) (ok : Bool) : Mirrors sd (.probed node ok :: log) g where
  held := h.held
  readable := h.readable
  written := h.written

/-- Starting forgets who was healthy and keeps the table. -/
theorem Mirrors.started {log : List (Event E)} {g : Inner} (h : Mirrors sd log g)
    (nodes : List (NodeInfo E)) (now : Instant) :
    Mirrors sd (.started :: log)
      ⟨g.store, fun ip => if ip ∈ nodes.map NodeInfo.ip then some ⟨false, now⟩ else none,
        g.offlineTtl⟩ where
  held := h.held
  readable := h.readable
  written := by
    intro ip
    rw [lastHealthWrite, latest_cons, setsHealth]
    dsimp only
    split
    · exact iff_of_false nofun nofun
    · exact iff_of_false nofun nofun

/-- **One step keeps the mirror.** -/
theorem Mirrors.effect (hsd : sd.ColumnsRoundTrip) {log es : List (Event E)} {g g' : Inner}
    (h : Mirrors sd log g) (he : Effect sd g g' es) : Mirrors sd (es ++ log) g' := by
  cases he with
  | quiet => exact h
  | registered hrow => exact h.registered hsd hrow _
  | probed node ok => exact h.probed node ok
  | verdict node now ok => exact h.verdict node now ok
  | removed ip => exact h.removed ip
  | started _ => exact h.started _ _

/-- A mirrored state answers a query with what the history says. -/
theorem Mirrors.query {log : List (Event E)} {g : Inner} (h : Mirrors sd log g)
    (labels : List String) :
    ∃ nodes, g.healthyNodes sd none labels = .ok nodes ∧
      (nodes.map NodeInfo.ip).Nodup ∧
      ∀ n, n ∈ nodes ↔ registration n.ip log = some n ∧ (∀ l ∈ labels, l ∈ n.labels) ∧
        lastHealthWrite n.ip log = some true := by
  obtain ⟨all, hall⟩ := listAll_of_stored h.readable
  have hok : g.healthyNodes sd none labels = .ok (all.filter (g.answers labels)) :=
    healthyNodes_ok_iff.mpr ⟨all, hall, rfl⟩
  refine ⟨_, hok, nodup_healthyNodes hok, ?_⟩
  intro n
  rw [mem_healthyNodes hok, h.held, h.written]

/-- A query depends on which labels are asked for, not on how they are listed. -/
theorem healthyNodes_congr {fault : Option StoreError} {labels labels' : List String}
    (h : ∀ l, l ∈ labels' ↔ l ∈ labels) (g : Inner) :
    (g.healthyNodes sd fault labels' : Except StoreError (List (NodeInfo E)))
      = g.healthyNodes sd fault labels := by
  have hall : ∀ n : NodeInfo E, (labels'.all fun l => n.labels.contains l)
      = labels.all fun l => n.labels.contains l := by
    intro n
    rw [Bool.eq_iff_iff, List.all_eq_true, List.all_eq_true]
    exact forall_congr' fun l => imp_congr (h l) Iff.rfl
  simp only [Inner.healthyNodes, listByLabels, hall]

/-! ## The registry as a system -/

variable (sd)

/-- One atomic operation on the registry, with what the environment chose. -/
inductive Op (E : Type)
  | register (peer : String) (frame : TinyFrame.Frame) (fault : Option StoreError)
      (nowSecs : Int) (now : Instant)
  /-- the probe of a node answers, which changes nothing shared -/
  | probe (node : NodeInfo E) (ok : Bool)
  | verdict (node : NodeInfo E) (now : Instant) (ok : Bool)
  | remove (ip : String) (fault : Option StoreError)
  | restart (fault : Option StoreError) (now : Instant)

/-- The registry's step; a restart that cannot read the table is no restart. -/
def Registry.step (g : Inner) : Op E → Option Inner
  | .register peer frame fault nowSecs now =>
      some (handleRegister sd peer frame fault nowSecs now g).2
  | .probe _ _ => some g
  | .verdict node now ok => some (g.applyVerdict now node.ip ok).1
  | .remove ip fault =>
      match g.removeNode fault ip with
      | .error _ => some g
      | .ok g' => some g'
  | .restart fault now =>
      match Server.new sd fault g.store g.offlineTtl now with
      | .error _ => none
      | .ok g' => some g'

def Registry.emit (g : Inner) : Op E → List (Event E)
  | .register peer frame fault _ now => registeredEvents sd peer frame fault now
  | .probe node ok => [.probed node ok]
  | .verdict node _ ok => [.verdict node ok]
  | .remove ip fault =>
      match g.removeNode fault ip with
      | .error _ => []
      | .ok _ => [.removed ip]
  | .restart _ _ => [.started]

variable {sd}

/-- **Every operation is an effect.** -/
theorem Registry.effect {g g' : Inner} {op : Op E} (h : Registry.step sd g op = some g') :
    Effect sd g g' (Registry.emit sd g op) := by
  cases op with
  | register peer frame fault nowSecs now =>
      obtain rfl := Option.some.inj h
      rcases handleRegister_cases sd peer frame fault nowSecs now g with
        ⟨node, row, _, _, hrow, heq, hev⟩ | ⟨result, heq, _, hev, _⟩
      · rw [Registry.emit, registeredEvents, heq, hev]
        exact .registered hrow
      · rw [Registry.emit, registeredEvents, heq, hev]
        exact .quiet
  | probe node ok =>
      obtain rfl := Option.some.inj h
      exact .probed node ok
  | verdict node now ok =>
      obtain rfl := Option.some.inj h
      exact .verdict node now ok
  | remove ip fault =>
      simp only [Registry.step, Registry.emit] at h ⊢
      cases hrem : g.removeNode fault ip with
      | error e =>
          rw [hrem] at h
          obtain rfl := Option.some.inj h
          exact .quiet
      | ok g₁ =>
          rw [hrem] at h
          obtain rfl := Option.some.inj h
          obtain ⟨_, rfl⟩ := removeNode_ok_iff.mp hrem
          exact .removed ip
  | restart fault now =>
      simp only [Registry.step] at h
      cases hnew : Server.new sd fault g.store g.offlineTtl now with
      | error e =>
          rw [hnew] at h
          cases h
      | ok g₁ =>
          rw [hnew] at h
          obtain rfl := Option.some.inj h
          obtain ⟨nodes, hall, rfl⟩ := new_ok_iff.mp hnew
          obtain ⟨rfl, hlist⟩ := listAll_ok_iff.mp hall
          exact .started hall

variable (sd) in
/-- The registry with its history. -/
abbrev Registry.run : Logged Inner (Event E) → Op E → Option (Logged Inner (Event E)) :=
  Logged.step (Registry.step sd) (Registry.emit sd)

/-- A server on an empty database. -/
def Inner.empty (offlineTtl : Duration) : Inner := ⟨Keyed.Table.empty, fun _ => none, offlineTtl⟩

theorem mirrors_empty (offlineTtl : Duration) :
    Mirrors sd ([] : List (Event E)) (Inner.empty offlineTtl) where
  held _ := rfl
  readable := by
    intro ip h
    cases h
  written ip := by simp [Inner.empty, lastHealthWrite, latest]

/-- The mirror holds in every state of every run. -/
theorem mirrors_of_reaches (hsd : sd.ColumnsRoundTrip) {offlineTtl : Duration}
    {c : Logged Inner (Event E)}
    (h : Reaches (Registry.run sd) ⟨Inner.empty offlineTtl, []⟩ c) :
    Mirrors sd c.log c.state := by
  refine h.invariant (J := fun c => Mirrors sd c.log c.state) (mirrors_empty offlineTtl) ?_
  intro c op c' hc hstep
  obtain ⟨hs, hlog⟩ := logged_step hstep
  rw [hlog]
  exact hc.effect hsd (Registry.effect hs)

/-- Whoever is healthy was registered or probed with success since the last start. -/
theorem exists_of_lastHealthWrite {ip : String} {log : List (Event E)}
    (h : lastHealthWrite ip log = some true) :
    ∃ newer e older, log = newer ++ e :: older ∧ Event.started ∉ newer ∧
      ((∃ node time, e = .registered node time ∧ node.ip = ip) ∨
        (∃ node, e = .verdict node true ∧ node.ip = ip)) := by
  obtain ⟨newer, e, older, hlog, he, hnewer⟩ := exists_of_latest h
  refine ⟨newer, e, older, hlog, ?_, ?_⟩
  · intro hmem
    cases hnewer _ hmem
  · cases e with
    | started => cases he
    | registered node time =>
        simp only [setsHealth] at he
        split at he
        · next hip => exact Or.inl ⟨node, time, rfl, hip⟩
        · cases he
    | probed _ _ => cases he
    | verdict node ok =>
        simp only [setsHealth] at he
        split at he
        · next hip =>
            obtain rfl : ok = true := Option.some.inj (Option.some.inj he)
            exact Or.inr ⟨node, rfl, hip⟩
        · cases he
    | removed ip' =>
        simp only [setsHealth] at he
        split at he
        · cases he
        · cases he

/-- **Queries are exact**, over every run of registrations, verdicts, removals
and restarts: the nodes answered are the registrations in force that carry the
labels and were last seen healthy by this process. -/
theorem handleQuery_exact (sd : Serde E) (hsd : sd.ColumnsRoundTrip) (offlineTtl : Duration)
    (c : Logged Inner (Event E))
    (hrun : Reaches (Registry.run sd) ⟨Inner.empty offlineTtl, []⟩ c)
    (frame : TinyFrame.Frame) (req : QueryRequest)
    (hreq : sd.queryRequest.decode frame.data = some req) (hne : req.labels ≠ []) :
    ∃ nodes, c.state.healthyNodes sd none req.labels = .ok nodes ∧
      handleQuery sd frame none c.state
        = jsonReply msgQueryResult frame.txId (sd.queryResult.encode ⟨nodes⟩) ∧
      (nodes.map NodeInfo.ip).Nodup ∧
      (∀ n, n ∈ nodes ↔ registration n.ip c.log = some n ∧ (∀ l ∈ req.labels, l ∈ n.labels) ∧
        lastHealthWrite n.ip c.log = some true) ∧
      (∀ labels, (∀ l, l ∈ labels ↔ l ∈ req.labels) →
        c.state.healthyNodes sd none labels = .ok nodes) ∧
      (∀ n ∈ nodes, ∃ newer e older, c.log = newer ++ e :: older ∧ Event.started ∉ newer ∧
        ((∃ node time, e = .registered node time ∧ node.ip = n.ip) ∨
          (∃ node, e = .verdict node true ∧ node.ip = n.ip))) := by
  obtain ⟨nodes, hok, hnodup, hmem⟩ := (mirrors_of_reaches hsd hrun).query req.labels
  refine ⟨nodes, hok, ?_, hnodup, hmem, ?_, ?_⟩
  · exact handleQuery_of_nodes hreq hne hok
  · intro labels hlabels
    rw [healthyNodes_congr hlabels, hok]
  · intro n hn
    exact exists_of_lastHealthWrite ((hmem n).mp hn).2.2

end

/-! The documents of one small exchange, as `serde_json` writes them, and no
others: a node without extra fields, on one port and then on another. -/

def unitSerde : Serde Unit where
  labels := Codec.table [(["api"], "[\"api\"]")]
  extra := Codec.table [((), "null")]
  registerRequest := Codec.table
    [(⟨9001, ["api"], ()⟩, utf8 "\x7b\"port\":9001,\"labels\":[\"api\"],\"extra\":null\x7d"),
      (⟨9002, ["api"], ()⟩, utf8 "\x7b\"port\":9002,\"labels\":[\"api\"],\"extra\":null\x7d")]
  queryRequest := Codec.table [(⟨["api"]⟩, utf8 "\x7b\"labels\":[\"api\"]\x7d")]
  queryResult := Codec.table
    [(⟨[⟨"10.0.0.7", 9001, ["api"], ()⟩]⟩, utf8 ("\x7b\"nodes\":[\x7b\"ip\":\"10.0.0.7\"," ++
      "\"port\":9001,\"labels\":[\"api\"],\"extra\":null\x7d]\x7d"))]
  errorBody := Codec.table []

theorem unitSerde_roundTrips : unitSerde.ColumnsRoundTrip where
  labels := Codec.table_roundTrips (List.nodup_singleton _)
  extra := Codec.table_roundTrips (List.nodup_singleton _)

/-- A registration of `port` with the label `api`. -/
def registerFrame (port : UInt16) : TinyFrame.Frame where
  messageType := msgRegister
  compressId := 0
  encrypted := false
  txId := 1
  data := ((unitSerde.registerRequest.encode ⟨port, ["api"], ()⟩).getD [])

def queryFrame : TinyFrame.Frame where
  messageType := msgQuery
  compressId := 0
  encrypted := false
  txId := 2
  data := utf8 "\x7b\"labels\":[\"api\"]\x7d"

/-- Two peers register and the process is restarted; then the first answers its
probe and the second does not. -/
def twoPeers : List (Op Unit) :=
  [.register "10.0.0.7" (registerFrame 9001) none 0 3,
    .register "10.0.0.8" (registerFrame 9002) none 0 4, .restart none 5,
    .probe ⟨"10.0.0.7", 9001, ["api"], ()⟩ true, .verdict ⟨"10.0.0.7", 9001, ["api"], ()⟩ 6 true,
    .probe ⟨"10.0.0.8", 9002, ["api"], ()⟩ false,
    .verdict ⟨"10.0.0.8", 9002, ["api"], ()⟩ 6 false]

/-- A query for the label of both is answered with the first alone. -/
theorem handleQuery_exact_two :
    ∃ c nodes, exec (Registry.run unitSerde) ⟨Inner.empty 100, []⟩ twoPeers = some c ∧
      handleQuery unitSerde queryFrame none c.state
        = jsonReply msgQueryResult 2 (unitSerde.queryResult.encode ⟨nodes⟩) ∧
      ⟨"10.0.0.7", 9001, ["api"], ()⟩ ∈ nodes ∧ ∀ n ∈ nodes, n.ip ≠ "10.0.0.8" := by
  have hexec : exec (Registry.run unitSerde) ⟨Inner.empty 100, []⟩ twoPeers = some _ := rfl
  obtain ⟨nodes, _, hreply, _, hmem, _⟩ :=
    handleQuery_exact unitSerde unitSerde_roundTrips 100 _ (reaches_of_exec hexec) queryFrame
      ⟨["api"]⟩ rfl (List.cons_ne_nil _ _)
  refine ⟨_, nodes, hexec, hreply, (hmem _).mpr ⟨rfl, fun _ hl => hl, rfl⟩, ?_⟩
  intro n hn hip
  obtain ⟨_, _, hhealthy⟩ := (hmem n).mp hn
  rw [hip] at hhealthy
  exact absurd hhealthy (by decide)

end Proto4.Dfinder
