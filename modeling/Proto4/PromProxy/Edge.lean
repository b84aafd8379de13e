/-
# `Proto4.PromProxy.Edge` — the edge counters and what is reported of them

`src/prom_proxy/edge.rs` and the flush of `server.rs`.  The counters are one
Redis hash of signed 64-bit integers.  `HINCRBY` adds atomically, or fails and
changes nothing when the sum does not fit; `HGETALL` reads all fields at once.
A flush reports the totals as they are, one series a key, as floating-point
numbers; it writes nothing to the hash.

`EdgeStore` and `EdgeStoreBlocking` are the same two functions over two
connections, so they are one here.
-/
import Mathlib.Algebra.Ring.Int.Defs
import Proto4.Lib.Keyed
import Proto4.PromProxy.Encode

namespace Proto4.PromProxy

/-- One field of the hash. -/
structure EdgeField where
  key : String
  value : Int64
  deriving DecidableEq

/-- The hash under `hash_key`. -/
abbrev EdgeHash := Keyed.Table EdgeField.key

inductive EdgeError
  | redis (message : String)
  deriving DecidableEq, Repr

/-- The value of a field; an absent field counts from zero. -/
def EdgeHash.value (h : EdgeHash) (key : String) : Int :=
  match h.lookup key with
  | some field => field.value.toInt
  | none => 0

/-- `HINCRBY`. -/
def hincr (key : String) (delta : Int64) (h : EdgeHash) : Except EdgeError Int64 × EdgeHash :=
  let sum := EdgeHash.value h key + delta.toInt
  if -2 ^ 63 ≤ sum ∧ sum < 2 ^ 63 then
    (.ok (Int64.ofInt sum), h.upsert ⟨key, Int64.ofInt sum⟩)
  else (.error (.redis "increment or decrement would overflow"), h)

/-- `EdgeStore::incr`; `fault` is a command that does not get through. -/
def EdgeHash.incr (fault : Option String) (key : String) (delta : UInt64) (h : EdgeHash) :
    Except EdgeError Unit × EdgeHash :=
  if delta = 0 then (.ok (), h)
  else
    match fault with
    | some message => (.error (.redis message), h)
    | none =>
        let (result, h') := hincr key delta.toInt64 h
        (result.map fun _ => (), h')

/-- `EdgeStore::totals`. -/
def EdgeHash.totals (fault : Option String) (h : EdgeHash) :
    Except EdgeError (List (String × UInt64)) :=
  match fault with
  | some message => .error (.redis message)
  | none =>
      .ok (h.rows.filterMap fun field =>
        if 0 ≤ field.value then some (field.key, field.value.toUInt64) else none)

def edgeMetricName : String := "prom_proxy_edge_total"

/-- The series of one total, as `flush_edges` builds it. -/
def edgeSeries (now : Int64) (total : String × UInt64) : TimeSeries where
  labels := [⟨"__name__", edgeMetricName⟩, ⟨"key", total.1⟩]
  samples := [⟨.ofUInt64 total.2, now⟩]

/-! ## One increment -/

theorem value_range (h : EdgeHash) (key : String) :
    -2 ^ 63 ≤ EdgeHash.value h key ∧ EdgeHash.value h key < 2 ^ 63 := by
  rw [EdgeHash.value]
  split
  · next field _ => exact ⟨field.value.le_toInt, field.value.toInt_lt⟩
  · exact ⟨by decide, by decide⟩

theorem value_upsert (h : EdgeHash) (field : EdgeField) (k : String) :
    EdgeHash.value (h.upsert field) k
      = if k = field.key then field.value.toInt else EdgeHash.value h k := by
  rw [EdgeHash.value, Keyed.Table.lookup_upsert]
  rcases eq_or_ne k field.key with heq | hne
  · rw [if_pos heq, if_pos heq]
  · rw [if_neg hne, if_neg hne]
    rfl

/-- `HINCRBY` leaves the hash alone, or the sum fits and is stored. -/
theorem hincr_cases (key : String) (delta : Int64) (h : EdgeHash) :
    (hincr key delta h).2 = h ∨
      (-2 ^ 63 ≤ EdgeHash.value h key + delta.toInt ∧
        EdgeHash.value h key + delta.toInt < 2 ^ 63 ∧
        (hincr key delta h).2
          = h.upsert ⟨key, Int64.ofInt (EdgeHash.value h key + delta.toInt)⟩) := by
  rw [hincr]
  split
  · next hfit => exact Or.inr ⟨hfit.1, hfit.2, rfl⟩
  · exact Or.inl rfl

/-- A call of `incr` leaves the hash alone or is one `HINCRBY`. -/
theorem incr_cases (fault : Option String) (key : String) (delta : UInt64) (h : EdgeHash) :
    (EdgeHash.incr fault key delta h).2 = h ∨
      (EdgeHash.incr fault key delta h).2 = (hincr key delta.toInt64 h).2 := by
  simp only [EdgeHash.incr]
  split
  · exact Or.inl rfl
  · cases fault with
    | some message => exact Or.inl rfl
    | none => exact Or.inr rfl

/-- With Redis available and room left, an increment by one adds one, to its key only. -/
theorem value_incr_one {h : EdgeHash} {key : String} (hroom : EdgeHash.value h key + 1 < 2 ^ 63)
    (k : String) :
    EdgeHash.value (EdgeHash.incr none key 1 h).2 k
      = EdgeHash.value h k + if k = key then 1 else 0 := by
  have hlow := (value_range h key).1
  have hfit : -2 ^ 63 ≤ EdgeHash.value h key + 1 := by omega
  have hone : (1 : UInt64).toInt64.toInt = 1 := by decide
  have hstore : (EdgeHash.incr none key 1 h).2
      = h.upsert ⟨key, Int64.ofInt (EdgeHash.value h key + 1)⟩ := by
    show (hincr key (1 : UInt64).toInt64 h).2 = _
    rw [hincr, hone, if_pos ⟨hfit, hroom⟩]
  rw [hstore, value_upsert]
  rcases eq_or_ne k key with rfl | hne
  · rw [if_pos rfl, if_pos rfl, Int64.toInt_ofInt_of_le hfit hroom]
  · rw [if_neg hne, if_neg hne, Int.add_zero]

/-! ## The totals -/

/-- A report covers another when it has every key of it, at no less. -/
def Covers (later earlier : List (String × UInt64)) : Prop :=
  ∀ key v, (key, v) ∈ earlier → ∃ v', (key, v') ∈ later ∧ v ≤ v'

theorem Covers.refl (report : List (String × UInt64)) : Covers report report :=
  fun _ v h => ⟨v, h, UInt64.le_refl v⟩

theorem Covers.trans {a b c : List (String × UInt64)} (h : Covers c b) (h' : Covers b a) :
    Covers c a := by
  intro key v hv
  obtain ⟨w, hw, hle⟩ := h' key v hv
  obtain ⟨x, hx, hle'⟩ := h key w hw
  exact ⟨x, hx, UInt64.le_trans hle hle'⟩

/-- The totals a flush reads. -/
def EdgeHash.current (h : EdgeHash) : List (String × UInt64) :=
  h.rows.filterMap fun field =>
    if 0 ≤ field.value then some (field.key, field.value.toUInt64) else none

theorem totals_ok_iff {fault : Option String} {h : EdgeHash} {report : List (String × UInt64)} :
    EdgeHash.totals fault h = .ok report ↔ fault = none ∧ EdgeHash.current h = report := by
  cases fault with
  | some message => exact ⟨nofun, fun h => nomatch h.1⟩
  | none => exact ⟨fun h => ⟨rfl, Except.ok.inj h⟩, fun h => congrArg _ h.2⟩

theorem mem_current {h : EdgeHash} {key : String} {v : UInt64} :
    (key, v) ∈ EdgeHash.current h ↔
      ∃ value : Int64, h.lookup key = some ⟨key, value⟩ ∧ 0 ≤ value ∧ v = value.toUInt64 := by
  rw [EdgeHash.current, List.mem_filterMap]
  constructor
  · rintro ⟨field, hmem, hif⟩
    split at hif
    · next hpos =>
        obtain ⟨rfl, rfl⟩ := Prod.mk.inj (Option.some.inj hif)
        exact ⟨field.value, Keyed.Table.lookup_eq_some.mpr ⟨hmem, rfl⟩, hpos, rfl⟩
    · cases hif
  · rintro ⟨value, hlookup, hpos, rfl⟩
    refine ⟨⟨key, value⟩, (Keyed.Table.lookup_eq_some.mp hlookup).1, ?_⟩
    rw [if_pos hpos]

/-- A key is reported once. -/
theorem current_unique {h : EdgeHash} {key : String} {v v' : UInt64}
    (hv : (key, v) ∈ EdgeHash.current h) (hv' : (key, v') ∈ EdgeHash.current h) : v = v' := by
  obtain ⟨x, hx, _, rfl⟩ := mem_current.mp hv
  obtain ⟨y, hy, _, rfl⟩ := mem_current.mp hv'
  obtain rfl : x = y := congrArg EdgeField.value (Option.some.inj (hx.symm.trans hy))
  rfl

/-- Storing a value that is not smaller takes nothing from the totals. -/
theorem covers_upsert {h : EdgeHash} {key : String} {value : Int64}
    (hle : EdgeHash.value h key ≤ value.toInt) :
    Covers (EdgeHash.current (h.upsert ⟨key, value⟩)) (EdgeHash.current h) := by
  intro k v hv
  obtain ⟨x, hx, hpos, rfl⟩ := mem_current.mp hv
  rcases eq_or_ne k key with rfl | hne
  · have hold : EdgeHash.value h k = x.toInt := by rw [EdgeHash.value, hx]
    have hxle : x ≤ value := Int64.le_iff_toInt_le.mpr (hold ▸ hle)
    refine ⟨value.toUInt64, mem_current.mpr ⟨value, ?_, Int64.le_trans hpos hxle, rfl⟩,
      Int64.toUInt64_le hpos hxle⟩
    rw [Keyed.Table.lookup_upsert, if_pos rfl]
  · refine ⟨x.toUInt64, mem_current.mpr ⟨x, ?_, hpos, rfl⟩, UInt64.le_refl _⟩
    rw [Keyed.Table.lookup_upsert, if_neg hne, hx]

/-- No increment by a positive number takes anything from the totals. -/
theorem covers_incr (fault : Option String) (key : String) {delta : UInt64}
    (hpos : 0 ≤ delta.toInt64.toInt) (h : EdgeHash) :
    Covers (EdgeHash.current (EdgeHash.incr fault key delta h).2) (EdgeHash.current h) := by
  rcases incr_cases fault key delta h with heq | heq
  · rw [heq]
    exact .refl _
  · rcases hincr_cases key delta.toInt64 h with hsame | ⟨hlow, hhigh, hstore⟩
    · rw [heq, hsame]
      exact .refl _
    · rw [heq, hstore]
      refine covers_upsert ?_
      rw [Int64.toInt_ofInt_of_le hlow hhigh]
      omega

end Proto4.PromProxy
