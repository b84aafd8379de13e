/-
# `Proto4.Dfinder.Server` — the server's shared state and what each lock protects

`src/dfinder/server.rs`.  `Inner` is what sits behind the `RwLock`: the table
of nodes and the health map.  The functions here are the sections the server
runs under that lock, plus what a request handler does before it takes the
lock and what it answers:

* `Server.new` rebuilds the health map from the table, everyone unhealthy;
* `Inner.register` is the locked section of `handle_register`;
* `Inner.applyVerdict` is the locked section of one round of the probe loop,
  and also says whether the node has been down for too long;
* `Inner.removeNode` is one round of the removal loop;
* `Inner.healthyNodes` is the locked section of `handle_query`.

Instants are numbers on one monotonic clock, and a difference of two instants
is cut at zero, as `Instant::duration_since` is.  How the sections interleave
is the business of `ProbeLoop`.
-/
import Proto4.Dfinder.Store
import Mathlib.Logic.Function.Basic

namespace Proto4.Dfinder

abbrev Instant := Nat

abbrev Duration := Nat

structure HealthState where
  healthy : Bool
  lastOk : Instant
  deriving DecidableEq, Repr

/-- `HashMap<String, HealthState>`. -/
abbrev Health := String → Option HealthState

/-- `Inner`: the state behind the lock. -/
structure Inner where
  store : NodeStore
  health : Health
  offlineTtl : Duration

inductive ServerError
  | store (e : StoreError)
  | json
  deriving DecidableEq, Repr

/-- A frame to answer with, plain. -/
structure Reply where
  messageType : UInt8
  txId : UInt64
  body : Bytes
  deriving DecidableEq, Repr

section
variable {E : Type} (sd : Serde E)

/-- `Server::new` on an opened database. -/
def Server.new (fault : Option StoreError) (store : NodeStore) (offlineTtl : Duration)
    (now : Instant) : Except ServerError Inner := do
  let nodes ← (listAll sd fault store).mapError ServerError.store
  let health := nodes.foldl
    (fun (health : Health) node => Function.update health node.ip (some ⟨false, now⟩))
    (fun _ => none)
  pure { store, health, offlineTtl }

/-! ## The locked sections -/

def Inner.register (fault : Option StoreError) (nowSecs : Int) (now : Instant)
    (node : NodeInfo E) (g : Inner) : Except StoreError Inner := do
  let store ← upsert sd fault nowSecs node g.store
  pure { g with store, health := Function.update g.health node.ip (some ⟨true, now⟩) }

/-- The health update after a probe of `ip`; `now` was read when the cycle
began.  The flag answered is whether `ip` joins the expired. -/
def Inner.applyVerdict (now : Instant) (ip : String) (ok : Bool) (g : Inner) : Inner × Bool :=
  let state := (g.health ip).getD ⟨false, now⟩
  if ok then
    ({ g with health := Function.update g.health ip (some ⟨true, now⟩) }, false)
  else
    ({ g with health := Function.update g.health ip (some { state with healthy := false }) },
      decide (now - state.lastOk ≥ g.offlineTtl))

/-- The row goes first; if that fails the health entry stays too. -/
def Inner.removeNode (fault : Option StoreError) (ip : String) (g : Inner) :
    Except StoreError Inner := do
  let store ← remove fault ip g.store
  pure { g with store, health := Function.update g.health ip none }

def Inner.healthyNodes (fault : Option StoreError) (labels : List String) (g : Inner) :
    Except StoreError (List (NodeInfo E)) := do
  let matched ← listByLabels sd fault labels g.store
  pure (matched.filter fun n => ((g.health n.ip).map HealthState.healthy).getD false)

/-! ## The handlers

A handler ends in a reply or in an error; an error closes the connection and
nothing is sent. -/

/-- A reply whose body is JSON, if the JSON can be written. -/
def jsonReply (messageType : UInt8) (txId : UInt64) : Option Bytes → Except ServerError Reply
  | some body => .ok ⟨messageType, txId, body⟩
  | none => .error .json

def writeError (txId : UInt64) (message : String) : Except ServerError Reply :=
  jsonReply msgError txId (sd.errorBody.encode ⟨message⟩)

/-- `handle_register` up to its lock: the node to register, or an early end. -/
def admitRegister (peer : String) (frame : TinyFrame.Frame) :
    Except (Except ServerError Reply) (NodeInfo E) :=
  match sd.registerRequest.decode frame.data with
  | none => .error (.error .json)
  | some req =>
      if req.labels.isEmpty then
        .error (writeError sd frame.txId "register requires >= 1 label")
      else .ok ⟨peer, req.port, req.labels, req.extra⟩

/-- `{}`. -/
def ackBody : Bytes := [0x7b, 0x7d]

def handleRegister (peer : String) (frame : TinyFrame.Frame) (fault : Option StoreError)
    (nowSecs : Int) (now : Instant) (g : Inner) : Except ServerError Reply × Inner :=
  match admitRegister sd peer frame with
  | .error done => (done, g)
  | .ok node =>
      match g.register sd fault nowSecs now node with
      | .error e => (.error (.store e), g)
      | .ok g' => (.ok ⟨msgRegisterAck, frame.txId, ackBody⟩, g')

def handleQuery (frame : TinyFrame.Frame) (fault : Option StoreError) (g : Inner) :
    Except ServerError Reply :=
  match sd.queryRequest.decode frame.data with
  | none => .error .json
  | some req =>
      if req.labels.isEmpty then writeError sd frame.txId "query requires >= 1 label"
      else
        match g.healthyNodes sd fault req.labels with
        | .error e => .error (.store e)
        | .ok nodes => jsonReply msgQueryResult frame.txId (sd.queryResult.encode ⟨nodes⟩)

def handleFrame (peer : String) (frame : TinyFrame.Frame) (fault : Option StoreError)
    (nowSecs : Int) (now : Instant) (g : Inner) : Except ServerError Reply × Inner :=
  if frame.messageType = msgRegister then handleRegister sd peer frame fault nowSecs now g
  else if frame.messageType = msgQuery then (handleQuery sd frame fault g, g)
  else (writeError sd frame.txId s!"unknown message_type {frame.messageType}", g)

/-! ## The health map

What an entry says after a write, for each question asked of it. -/

/-- An entry after a write is the one written or one that was there. -/
theorem update_eq_some {health : Health} {ip ip' : String} {o : Option HealthState}
    {x : HealthState} :
    Function.update health ip' o ip = some x ↔
      (ip = ip' ∧ o = some x) ∨ (ip ≠ ip' ∧ health ip = some x) := by
  rcases eq_or_ne ip ip' with rfl | hne
  · simp
  · simp [hne]

/-- Writing a health entry keeps every entry that was there. -/
theorem isSome_update {health : Health} {ip ip' : String} {state : HealthState}
    (h : (health ip).isSome) : (Function.update health ip' (some state) ip).isSome := by
  rcases eq_or_ne ip ip' with rfl | hne
  · simp
  · simpa [hne] using h

/-- The flag after a write: the one written for that ip, else the one that was there. -/
theorem healthy_update (health : Health) (ip ip' : String) (o : Option HealthState) :
    (Function.update health ip' o ip).map HealthState.healthy =
      if ip' = ip then o.map HealthState.healthy else (health ip).map HealthState.healthy := by
  rcases eq_or_ne ip' ip with rfl | hne
  · simp
  · simp [hne, hne.symm]

/-! ## What the sections do -/

variable {sd}

/-- The health map a server starts with: an entry for each row, unhealthy, as of now. -/
theorem new_ok_iff {fault : Option StoreError} {store : NodeStore} {offlineTtl : Duration}
    {now : Instant} {g : Inner} :
    Server.new sd fault store offlineTtl now = .ok g ↔
      ∃ nodes, listAll sd fault store = .ok nodes ∧
        g = ⟨store, fun ip => if ip ∈ nodes.map NodeInfo.ip then some ⟨false, now⟩ else none,
          offlineTtl⟩ := by
  have hfold : ∀ (nodes : List (NodeInfo E)) (health : Health),
      nodes.foldl
        (fun (health : Health) node => Function.update health node.ip (some ⟨false, now⟩)) health
        = fun ip => if ip ∈ nodes.map NodeInfo.ip then some ⟨false, now⟩ else health ip := by
    intro nodes
    induction nodes with
    | nil =>
        intro health
        simp
    | cons node nodes ih =>
        intro health
        rw [List.foldl_cons, ih]
        funext ip
        by_cases hmem : ip ∈ nodes.map NodeInfo.ip
        · simp [hmem]
        · simp [hmem, Function.update_apply]
  simp only [Server.new, hfold]
  cases h : listAll sd fault store with
  | error e => exact ⟨nofun, nofun⟩
  | ok nodes =>
      constructor
      · intro hg
        exact ⟨nodes, rfl, (Except.ok.inj hg).symm⟩
      · rintro ⟨nodes', hn, rfl⟩
        obtain rfl := Except.ok.inj hn
        rfl

/-- **A registration** writes the row and the health entry, or neither. -/
theorem register_ok_iff {fault : Option StoreError} {nowSecs : Int} {now : Instant}
    {node : NodeInfo E} {g g' : Inner} :
    g.register sd fault nowSecs now node = .ok g' ↔
      fault = none ∧ ∃ row, rowOfNode sd nowSecs node = .ok row ∧
        g' = { g with
          store := g.store.upsert row
          health := Function.update g.health node.ip (some ⟨true, now⟩) } := by
  simp only [Inner.register, Outcome.bind_ok_iff, upsert_ok_iff]
  constructor
  · rintro ⟨_, ⟨hf, row, hrow, rfl⟩, h⟩
    exact ⟨hf, row, hrow, (Except.ok.inj h).symm⟩
  · rintro ⟨hf, row, hrow, rfl⟩
    exact ⟨_, ⟨hf, row, hrow, rfl⟩, rfl⟩

theorem removeNode_ok_iff {fault : Option StoreError} {ip : String} {g g' : Inner} :
    g.removeNode fault ip = .ok g' ↔
      fault = none ∧
        g' = { g with
          store := g.store.erase ip
          health := Function.update g.health ip none } := by
  simp only [Inner.removeNode, remove, Outcome.bind_ok_iff, execute_ok_iff]
  constructor
  · rintro ⟨_, ⟨hf, rfl⟩, h⟩
    exact ⟨hf, (Except.ok.inj h).symm⟩
  · rintro ⟨hf, rfl⟩
    exact ⟨_, ⟨hf, rfl⟩, rfl⟩

@[simp] theorem applyVerdict_store (now : Instant) (ip : String) (ok : Bool) (g : Inner) :
    (g.applyVerdict now ip ok).1.store = g.store := by
  cases ok with
  | true => rfl
  | false => rfl

@[simp] theorem applyVerdict_offlineTtl (now : Instant) (ip : String) (ok : Bool) (g : Inner) :
    (g.applyVerdict now ip ok).1.offlineTtl = g.offlineTtl := by
  cases ok with
  | true => rfl
  | false => rfl

/-- A verdict writes one health entry: the flag is the verdict, and the clock
moves only on success. -/
theorem applyVerdict_health (now : Instant) (ip : String) (ok : Bool) (g : Inner) :
    (g.applyVerdict now ip ok).1.health = Function.update g.health ip
      (some ⟨ok, if ok then now else ((g.health ip).getD ⟨false, now⟩).lastOk⟩) := by
  cases ok with
  | true => rfl
  | false => rfl

/-- A node expires on a failing verdict once its last success is `offline_ttl`
before the start of the cycle. -/
theorem applyVerdict_expired {now : Instant} {ip : String} {ok : Bool} {g : Inner} :
    (g.applyVerdict now ip ok).2 = true ↔
      ok = false ∧ g.offlineTtl ≤ now - ((g.health ip).getD ⟨false, now⟩).lastOk := by
  cases ok with
  | true => simp [Inner.applyVerdict]
  | false => simp [Inner.applyVerdict]

/-- What `handle_query` asks of a node before it answers it. -/
def Inner.answers (labels : List String) (g : Inner) (n : NodeInfo E) : Bool :=
  (labels.all fun l => n.labels.contains l) &&
    ((g.health n.ip).map HealthState.healthy).getD false

theorem answers_iff {labels : List String} {g : Inner} {n : NodeInfo E} :
    g.answers labels n = true ↔ (∀ l ∈ labels, l ∈ n.labels) ∧
      (g.health n.ip).map HealthState.healthy = some true := by
  have hflag : ∀ o : Option Bool, o.getD false = true ↔ o = some true := by
    intro o
    cases o with
    | none => simp
    | some b => simp
  simp only [Inner.answers, Bool.and_eq_true, List.all_eq_true, List.contains_iff_mem, hflag]

/-- The two filters of a query are one. -/
theorem healthyNodes_ok_iff {fault : Option StoreError} {labels : List String} {g : Inner}
    {nodes : List (NodeInfo E)} :
    g.healthyNodes sd fault labels = .ok nodes ↔
      ∃ all, listAll sd fault g.store = .ok all ∧ nodes = all.filter (g.answers labels) := by
  simp only [Inner.healthyNodes, listByLabels, Outcome.bind_ok_iff]
  have hfilter : ∀ all : List (NodeInfo E),
      (all.filter fun n => labels.all fun l => n.labels.contains l).filter
        (fun n => ((g.health n.ip).map HealthState.healthy).getD false)
      = all.filter (g.answers labels) := by
    intro all
    rw [List.filter_filter]
    exact List.filter_congr fun n _ => Bool.and_comm _ _
  constructor
  · rintro ⟨matched, ⟨all, hall, hm⟩, h⟩
    obtain rfl : _ = matched := Except.ok.inj hm
    exact ⟨all, hall, (Except.ok.inj h).symm.trans (hfilter all)⟩
  · rintro ⟨all, hall, rfl⟩
    exact ⟨_, ⟨all, hall, rfl⟩, congrArg Except.ok (hfilter all)⟩

/-- **The nodes answered** are those the table holds that carry every requested
label and whose health entry says healthy. -/
theorem mem_healthyNodes {fault : Option StoreError} {labels : List String} {g : Inner}
    {nodes : List (NodeInfo E)} (h : g.healthyNodes sd fault labels = .ok nodes)
    {n : NodeInfo E} :
    n ∈ nodes ↔ stored sd g.store n.ip = some n ∧ (∀ l ∈ labels, l ∈ n.labels) ∧
      (g.health n.ip).map HealthState.healthy = some true := by
  obtain ⟨all, hall, rfl⟩ := healthyNodes_ok_iff.mp h
  rw [List.mem_filter, mem_listAll hall, answers_iff]

/-- A query that names a label and finds its nodes is answered with them. -/
theorem handleQuery_of_nodes {frame : TinyFrame.Frame} {req : QueryRequest}
    (hreq : sd.queryRequest.decode frame.data = some req) (hne : req.labels ≠ [])
    {fault : Option StoreError} {g : Inner} {nodes : List (NodeInfo E)}
    (hok : g.healthyNodes sd fault req.labels = .ok nodes) :
    handleQuery sd frame fault g
      = jsonReply msgQueryResult frame.txId (sd.queryResult.encode ⟨nodes⟩) := by
  have hcons : req.labels.isEmpty = false := by simpa using hne
  simp only [handleQuery, hreq, hcons, hok]
  rfl

/-- The same for a query's frame, which changes nothing. -/
theorem handleFrame_of_query {frame : TinyFrame.Frame} (htype : frame.messageType = msgQuery)
    {req : QueryRequest} (hreq : sd.queryRequest.decode frame.data = some req)
    (hne : req.labels ≠ []) {fault : Option StoreError} {g : Inner} {nodes : List (NodeInfo E)}
    (hok : g.healthyNodes sd fault req.labels = .ok nodes) {peer : String} {nowSecs : Int}
    {now : Instant} :
    handleFrame sd peer frame fault nowSecs now g
      = (jsonReply msgQueryResult frame.txId (sd.queryResult.encode ⟨nodes⟩), g) := by
  have hnot : frame.messageType ≠ msgRegister := by
    rw [htype]
    decide
  rw [handleFrame, if_neg hnot, if_pos htype, handleQuery_of_nodes hreq hne hok]

theorem nodup_healthyNodes {fault : Option StoreError} {labels : List String} {g : Inner}
    {nodes : List (NodeInfo E)} (h : g.healthyNodes sd fault labels = .ok nodes) :
    (nodes.map NodeInfo.ip).Nodup := by
  obtain ⟨all, hall, rfl⟩ := healthyNodes_ok_iff.mp h
  exact (nodup_listAll hall).sublist (List.filter_sublist.map NodeInfo.ip)

theorem jsonReply_messageType {messageType : UInt8} {txId : UInt64} {body : Option Bytes}
    {r : Reply} (h : jsonReply messageType txId body = .ok r) : r.messageType = messageType := by
  cases body with
  | none => cases h
  | some b =>
      obtain rfl := Except.ok.inj h
      rfl

/-- No query is answered with an acknowledgement. -/
theorem handleQuery_messageType {frame : TinyFrame.Frame} {fault : Option StoreError} {g : Inner}
    {r : Reply} (h : handleQuery sd frame fault g = .ok r) :
    r.messageType = msgQueryResult ∨ r.messageType = msgError := by
  rw [handleQuery] at h
  split at h
  · cases h
  · split at h
    · exact Or.inr (jsonReply_messageType h)
    · split at h
      · cases h
      · exact Or.inl (jsonReply_messageType h)

/-- A registration refused before the lock is answered with an error or not at all. -/
theorem admitRegister_error {peer : String} {frame : TinyFrame.Frame} {r : Reply}
    (h : admitRegister sd peer frame = .error (.ok r)) : r.messageType = msgError := by
  rw [admitRegister] at h
  split at h
  · cases h
  · split at h
    · exact jsonReply_messageType (Except.error.inj h)
    · cases h

/-- Why a registration is refused before the lock: malformed, or without labels. -/
theorem admitRegister_refused {peer : String} {frame : TinyFrame.Frame}
    {done : Except ServerError Reply} (h : admitRegister sd peer frame = .error done) :
    sd.registerRequest.decode frame.data = none ∨
      ∃ req, sd.registerRequest.decode frame.data = some req ∧ req.labels = [] := by
  rw [admitRegister] at h
  split at h
  · next hreq => exact Or.inl hreq
  · next req hreq =>
      split at h
      · next hempty => exact Or.inr ⟨req, hreq, List.isEmpty_iff.mp hempty⟩
      · cases h

/-- A registration fails under the lock only because its upsert does. -/
theorem register_error {fault : Option StoreError} {nowSecs : Int} {now : Instant}
    {node : NodeInfo E} {g : Inner} {e : StoreError}
    (h : g.register sd fault nowSecs now node = .error e) :
    upsert sd fault nowSecs node g.store = .error e := by
  rw [Inner.register] at h
  cases hup : upsert sd fault nowSecs node g.store with
  | error e' =>
      rw [hup] at h
      exact congrArg Except.error (Except.error.inj h)
  | ok store =>
      rw [hup] at h
      cases h

/-- The admitted node has the peer's ip, at least one label and what was asked. -/
theorem admitRegister_ok_iff {peer : String} {frame : TinyFrame.Frame} {node : NodeInfo E} :
    admitRegister sd peer frame = .ok node ↔
      ∃ req, sd.registerRequest.decode frame.data = some req ∧ req.labels ≠ [] ∧
        node = ⟨peer, req.port, req.labels, req.extra⟩ := by
  rw [admitRegister]
  cases hreq : sd.registerRequest.decode frame.data with
  | none => exact ⟨nofun, nofun⟩
  | some req =>
      cases hl : req.labels with
      | nil => simp [hl]
      | cons l ls => simp [hl, eq_comm]

theorem ip_of_admitRegister {peer : String} {frame : TinyFrame.Frame} {node : NodeInfo E}
    (h : admitRegister sd peer frame = .ok node) : node.ip = peer := by
  obtain ⟨_, _, _, rfl⟩ := admitRegister_ok_iff.mp h
  rfl

end

end Proto4.Dfinder
