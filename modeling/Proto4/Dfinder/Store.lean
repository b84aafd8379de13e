/-
# `Proto4.Dfinder.Store` — messages, and the table of nodes

`src/dfinder/protocol.rs` and `src/dfinder/store.rs`.  A node is known by the
ip it registered from.  The table keeps one row per ip; labels and the user's
extra fields are stored as JSON text, the port as a signed 64-bit integer that
is cut back to sixteen bits when it is read.

Two things come from elsewhere.  JSON is the parameter `Serde`, one codec per
type the program serialises.  SQLite is a table with a primary key whose
statements are atomic: each operation takes the `StoreError` its statement ends
in, if it ends in one, and an operation that fails writes nothing.

What the table is for is said once, by `stored`: under an ip it holds a row that
reads back as the node, or nothing.
-/
import Proto4.Lib.Codec
import Proto4.Lib.Keyed
import Proto4.Lib.Outcome
import Proto4.TinyFrame.Basic

namespace Proto4.Dfinder

/-! ## Messages -/

abbrev msgRegister : UInt8 := 1
abbrev msgRegisterAck : UInt8 := 2
abbrev msgQuery : UInt8 := 3
abbrev msgQueryResult : UInt8 := 4
abbrev msgError : UInt8 := 5

/-- `NodeInfo<E>`; `E` is the user's own extension. -/
structure NodeInfo (E : Type) where
  ip : String
  port : UInt16
  labels : List String
  extra : E
  deriving DecidableEq, Repr

structure RegisterRequest (E : Type) where
  port : UInt16
  labels : List String
  extra : E
  deriving DecidableEq, Repr

structure QueryRequest where
  labels : List String
  deriving DecidableEq, Repr

structure QueryResult (E : Type) where
  nodes : List (NodeInfo E)
  deriving DecidableEq, Repr

structure ErrorBody where
  message : String
  deriving DecidableEq, Repr

/-- `serde_json`, at the types it is used at: columns as text, messages as bytes. -/
structure Serde (E : Type) where
  labels : Codec (List String) String
  extra : Codec E String
  registerRequest : Codec (RegisterRequest E) Bytes
  queryRequest : Codec QueryRequest Bytes
  queryResult : Codec (QueryResult E) Bytes
  errorBody : Codec ErrorBody Bytes

/-- Decoding inverts encoding in the two JSON columns. -/
structure Serde.ColumnsRoundTrip {E : Type} (sd : Serde E) : Prop where
  labels : sd.labels.RoundTrips
  extra : sd.extra.RoundTrips

/-! ## The table -/

inductive StoreError
  | sqlite (message : String)
  | json
  | poisoned
  deriving DecidableEq, Repr

/-- A row of `nodes`. -/
structure NodeRow where
  ip : String
  port : Int
  labels : String
  extra : String
  updatedAt : Int
  deriving DecidableEq, Repr

/-- The table `nodes`, with `ip` as its primary key. -/
abbrev NodeStore := Keyed.Table NodeRow.ip

/-- `port as u16`, from an `i64`. -/
def portAsU16 (port : Int) : UInt16 := UInt16.ofNat (port % 65536).toNat

theorem portAsU16_ofNat (port : UInt16) : portAsU16 (port.toNat : Int) = port := by
  have hlt := port.toNat_lt
  have hmod : ((port.toNat : Int) % 65536).toNat = port.toNat := by omega
  rw [portAsU16, hmod, UInt16.ofNat_toNat]

section
variable {E : Type} (sd : Serde E)

/-- `serde_json` failing becomes a `StoreError`. -/
def ofJson {α : Type} : Option α → Except StoreError α
  | some a => .ok a
  | none => .error .json

/-- The row `upsert` writes for a node. -/
def rowOfNode (nowSecs : Int) (node : NodeInfo E) : Except StoreError NodeRow := do
  let labelsJson ← ofJson (sd.labels.encode node.labels)
  let extraJson ← ofJson (sd.extra.encode node.extra)
  pure ⟨node.ip, node.port.toNat, labelsJson, extraJson, nowSecs⟩

/-- The node `list_all` reads from a row. -/
def nodeOfRow (row : NodeRow) : Except StoreError (NodeInfo E) := do
  let labels ← ofJson (sd.labels.decode row.labels)
  let extra ← ofJson (sd.extra.decode row.extra)
  pure ⟨row.ip, portAsU16 row.port, labels, extra⟩

/-- A statement that ends in `fault`, or goes through. -/
def execute {α : Type} (fault : Option StoreError) (a : α) : Except StoreError α :=
  match fault with
  | some e => .error e
  | none => .ok a

def upsert (fault : Option StoreError) (nowSecs : Int) (node : NodeInfo E) (store : NodeStore) :
    Except StoreError NodeStore := do
  let row ← rowOfNode sd nowSecs node
  execute fault (store.upsert row)

def remove (fault : Option StoreError) (ip : String) (store : NodeStore) :
    Except StoreError NodeStore :=
  execute fault (store.erase ip)

def listAll (fault : Option StoreError) (store : NodeStore) :
    Except StoreError (List (NodeInfo E)) := do
  let rows ← execute fault store.rows
  rows.mapM (nodeOfRow sd)

/-- The nodes that carry all of `labels`. -/
def listByLabels (fault : Option StoreError) (labels : List String) (store : NodeStore) :
    Except StoreError (List (NodeInfo E)) := do
  let all ← listAll sd fault store
  pure (all.filter fun n => labels.all fun l => n.labels.contains l)

/-! ## What the operations do -/

theorem ofJson_ok_iff {α : Type} {o : Option α} {a : α} : ofJson o = .ok a ↔ o = some a := by
  cases o with
  | none => exact ⟨nofun, nofun⟩
  | some b => simp [ofJson]

theorem execute_ok_iff {α : Type} {fault : Option StoreError} {a b : α} :
    execute fault a = .ok b ↔ fault = none ∧ a = b := by
  cases fault with
  | none => simp [execute]
  | some e => simp [execute]

theorem rowOfNode_ok_iff {nowSecs : Int} {node : NodeInfo E} {row : NodeRow} :
    rowOfNode sd nowSecs node = .ok row ↔
      ∃ labelsJson extraJson, sd.labels.encode node.labels = some labelsJson ∧
        sd.extra.encode node.extra = some extraJson ∧
        row = ⟨node.ip, node.port.toNat, labelsJson, extraJson, nowSecs⟩ := by
  simp only [rowOfNode, Outcome.bind_ok_iff, ofJson_ok_iff]
  constructor
  · rintro ⟨l, hl, x, hx, h⟩
    exact ⟨l, x, hl, hx, (Except.ok.inj h).symm⟩
  · rintro ⟨l, x, hl, hx, rfl⟩
    exact ⟨l, hl, x, hx, rfl⟩

theorem nodeOfRow_ok_iff {row : NodeRow} {node : NodeInfo E} :
    nodeOfRow sd row = .ok node ↔
      ∃ labels extra, sd.labels.decode row.labels = some labels ∧
        sd.extra.decode row.extra = some extra ∧
        node = ⟨row.ip, portAsU16 row.port, labels, extra⟩ := by
  simp only [nodeOfRow, Outcome.bind_ok_iff, ofJson_ok_iff]
  constructor
  · rintro ⟨l, hl, x, hx, h⟩
    exact ⟨l, x, hl, hx, (Except.ok.inj h).symm⟩
  · rintro ⟨l, x, hl, hx, rfl⟩
    exact ⟨l, hl, x, hx, rfl⟩

variable {sd}

theorem ip_of_rowOfNode {nowSecs : Int} {node : NodeInfo E} {row : NodeRow}
    (h : rowOfNode sd nowSecs node = .ok row) : row.ip = node.ip := by
  obtain ⟨_, _, _, _, rfl⟩ := (rowOfNode_ok_iff sd).mp h
  rfl

theorem ip_of_nodeOfRow {row : NodeRow} {node : NodeInfo E} (h : nodeOfRow sd row = .ok node) :
    node.ip = row.ip := by
  obtain ⟨_, _, _, _, rfl⟩ := (nodeOfRow_ok_iff sd).mp h
  rfl

/-- The row written for a node reads back as the node. -/
theorem nodeOfRow_rowOfNode (hsd : sd.ColumnsRoundTrip) {nowSecs : Int} {node : NodeInfo E}
    {row : NodeRow} (h : rowOfNode sd nowSecs node = .ok row) : nodeOfRow sd row = .ok node := by
  obtain ⟨l, x, hl, hx, rfl⟩ := (rowOfNode_ok_iff sd).mp h
  refine (nodeOfRow_ok_iff sd).mpr ⟨_, _, hsd.labels _ _ hl, hsd.extra _ _ hx, ?_⟩
  rw [portAsU16_ofNat]

theorem upsert_ok_iff {fault : Option StoreError} {nowSecs : Int} {node : NodeInfo E}
    {store store' : NodeStore} :
    upsert sd fault nowSecs node store = .ok store' ↔
      fault = none ∧ ∃ row, rowOfNode sd nowSecs node = .ok row ∧ store' = store.upsert row := by
  simp only [upsert, Outcome.bind_ok_iff, execute_ok_iff]
  constructor
  · rintro ⟨row, hrow, hf, rfl⟩
    exact ⟨hf, row, hrow, rfl⟩
  · rintro ⟨hf, row, hrow, rfl⟩
    exact ⟨row, hrow, hf, rfl⟩

/-- A listing reads every row, in order. -/
theorem listAll_ok_iff {fault : Option StoreError} {store : NodeStore}
    {nodes : List (NodeInfo E)} :
    listAll sd fault store = .ok nodes ↔
      fault = none ∧ store.rows.mapM (nodeOfRow sd) = .ok nodes := by
  simp only [listAll, Outcome.bind_ok_iff, execute_ok_iff]
  constructor
  · rintro ⟨rows, ⟨hf, rfl⟩, h⟩
    exact ⟨hf, h⟩
  · rintro ⟨hf, h⟩
    exact ⟨_, ⟨hf, rfl⟩, h⟩

/-- The ips listed are the ips of the table. -/
theorem ips_listAll {fault : Option StoreError} {store : NodeStore} {nodes : List (NodeInfo E)}
    (h : listAll sd fault store = .ok nodes) :
    nodes.map NodeInfo.ip = store.rows.map NodeRow.ip := by
  have hread := Outcome.mapM_ok_iff.mp (listAll_ok_iff.mp h).2
  clear h
  generalize store.rows = rows at hread
  induction hread with
  | nil => rfl
  | cons hrow _ ih => rw [List.map_cons, List.map_cons, ih, ip_of_nodeOfRow hrow]

theorem nodup_listAll {fault : Option StoreError} {store : NodeStore}
    {nodes : List (NodeInfo E)} (h : listAll sd fault store = .ok nodes) :
    (nodes.map NodeInfo.ip).Nodup := by
  rw [ips_listAll h]
  exact store.nodup

theorem isSome_lookup_of_listAll {fault : Option StoreError} {store : NodeStore}
    {nodes : List (NodeInfo E)} (h : listAll sd fault store = .ok nodes) {ip : String} :
    (store.lookup ip).isSome ↔ ip ∈ nodes.map NodeInfo.ip := by
  rw [ips_listAll h, Keyed.Table.lookup_isSome]

/-! ## The content of a table -/

variable (sd)

/-- The node a table holds under an ip: what its row reads back as. -/
def stored (store : NodeStore) (ip : String) : Option (NodeInfo E) :=
  (store.lookup ip).bind fun row => (nodeOfRow sd row).toOption

variable {sd}

theorem stored_eq_some {store : NodeStore} {ip : String} {n : NodeInfo E} :
    stored sd store ip = some n ↔
      ∃ row, store.lookup ip = some row ∧ nodeOfRow sd row = .ok n := by
  have hread : ∀ row, (nodeOfRow sd row).toOption = some n ↔ nodeOfRow sd row = .ok n := by
    intro row
    cases nodeOfRow sd row with
    | error e => exact ⟨nofun, nofun⟩
    | ok m => simp [Except.toOption]
  simp only [stored, Option.bind_eq_some_iff, hread]

/-- What is stored under an ip carries that ip. -/
theorem ip_of_stored {store : NodeStore} {ip : String} {n : NodeInfo E}
    (h : stored sd store ip = some n) : n.ip = ip := by
  obtain ⟨row, hrow, hread⟩ := stored_eq_some.mp h
  exact (ip_of_nodeOfRow hread).trans (Keyed.Table.lookup_eq_some.mp hrow).2

/-- **A listing is the content of the table**, each node under its own ip. -/
theorem mem_listAll {fault : Option StoreError} {store : NodeStore} {nodes : List (NodeInfo E)}
    (h : listAll sd fault store = .ok nodes) {n : NodeInfo E} :
    n ∈ nodes ↔ stored sd store n.ip = some n := by
  rw [stored_eq_some, Outcome.mem_of_mapM_ok (listAll_ok_iff.mp h).2]
  constructor
  · rintro ⟨row, hrow, hread⟩
    exact ⟨row, Keyed.Table.lookup_eq_some.mpr ⟨hrow, (ip_of_nodeOfRow hread).symm⟩, hread⟩
  · rintro ⟨row, hrow, hread⟩
    exact ⟨row, (Keyed.Table.lookup_eq_some.mp hrow).1, hread⟩

/-- A table whose rows all read back lists. -/
theorem listAll_of_stored {store : NodeStore}
    (h : ∀ ip, (store.lookup ip).isSome → (stored sd store ip).isSome) :
    ∃ nodes, listAll sd none store = .ok nodes := by
  have hrows : ∀ row ∈ store.rows, ∃ n, nodeOfRow sd row = .ok n := by
    intro row hrow
    have hlook : store.lookup row.ip = some row := Keyed.Table.lookup_eq_some.mpr ⟨hrow, rfl⟩
    obtain ⟨n, hn⟩ := Option.isSome_iff_exists.mp (h row.ip (by rw [hlook]; rfl))
    obtain ⟨row', hrow', hread⟩ := stored_eq_some.mp hn
    obtain rfl : row = row' := Option.some.inj (hlook.symm.trans hrow')
    exact ⟨n, hread⟩
  obtain ⟨nodes, hnodes⟩ := Outcome.mapM_ok_of_forall hrows
  exact ⟨nodes, listAll_ok_iff.mpr ⟨rfl, hnodes⟩⟩

theorem stored_upsert (hsd : sd.ColumnsRoundTrip) {nowSecs : Int} {node : NodeInfo E}
    {row : NodeRow} (h : rowOfNode sd nowSecs node = .ok row) (store : NodeStore) (ip : String) :
    stored sd (store.upsert row) ip = if ip = node.ip then some node else stored sd store ip := by
  rw [stored, Keyed.Table.lookup_upsert, ip_of_rowOfNode h]
  split
  · rw [Option.bind_some, nodeOfRow_rowOfNode hsd h]
    rfl
  · rfl

theorem stored_erase (store : NodeStore) (ip ip' : String) :
    stored sd (store.erase ip') ip = if ip = ip' then none else stored sd store ip := by
  rw [stored, Keyed.Table.lookup_erase]
  split
  · rfl
  · rfl

end

end Proto4.Dfinder
