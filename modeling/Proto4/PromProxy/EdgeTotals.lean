/-
# `Proto4.PromProxy.EdgeTotals` — what the edge counters add up to

`incr` takes an unsigned delta and hands it to Redis as a signed one.  Below
`2 ^ 63` the two are the same number, and then the counters do what they are
documented to do: they only grow, the totals are the exact sums, and what does
not fit is an error.  From `2 ^ 63` on the delta is negative.

`edges_grow_iff` says so of every sequence of calls on both stores, with
commands that get through and commands that do not.
-/
import Proto4.Lib.Lts
import Proto4.PromProxy.Edge

namespace Proto4.PromProxy

open Lts

/-! ## Calls -/

/-- `EdgeStoreBlocking::incr`; `fault` is a connection or a command that fails. -/
def EdgeHash.incrBlocking (fault : Option String) (key : String) (delta : UInt64) (h : EdgeHash) :
    Except EdgeError Unit × EdgeHash :=
  if delta = 0 then (.ok (), h)
  else
    match fault with
    | some message => (.error (.redis message), h)
    | none =>
        let (result, h') := hincr key delta.toInt64 h
        (result.map fun _ => (), h')

/-- `EdgeStoreBlocking::totals`. -/
def EdgeHash.totalsBlocking (fault : Option String) (h : EdgeHash) :
    Except EdgeError (List (String × UInt64)) :=
  match fault with
  | some message => .error (.redis message)
  | none =>
      .ok (h.rows.filterMap fun field =>
        if 0 ≤ field.value then some (field.key, field.value.toUInt64) else none)

theorem incrBlocking_eq : EdgeHash.incrBlocking = EdgeHash.incr := rfl

theorem totalsBlocking_eq : EdgeHash.totalsBlocking = EdgeHash.totals := rfl

/-- A call of `incr` on one of the stores. -/
structure IncrCall where
  blocking : Bool
  fault : Option String
  key : String
  delta : UInt64

def IncrCall.run (a : IncrCall) (h : EdgeHash) : Except EdgeError Unit × EdgeHash :=
  if a.blocking then h.incrBlocking a.fault a.key a.delta else h.incr a.fault a.key a.delta

theorem IncrCall.run_eq (a : IncrCall) (h : EdgeHash) : a.run h = h.incr a.fault a.key a.delta := by
  rw [IncrCall.run, incrBlocking_eq, ite_self]

/-- A successful increment by something. -/
structure Credit where
  key : String
  delta : UInt64

/-- A call always returns. -/
def EdgeHash.call (h : EdgeHash) (a : IncrCall) : Option EdgeHash := some (a.run h).2

def EdgeHash.credit (h : EdgeHash) (a : IncrCall) : List Credit :=
  match (a.run h).1 with
  | .ok () => if a.delta = 0 then [] else [⟨a.key, a.delta⟩]
  | .error _ => []

/-- The sum of the successful increments of a key. -/
def credited (key : String) (log : List Credit) : Nat :=
  ((log.filter fun e => e.key = key).map fun e => e.delta.toNat).sum

/-- The hash with its successful increments. -/
abbrev Ledger := Logged EdgeHash Credit

def Ledger.call : Ledger → IncrCall → Option Ledger := Logged.step EdgeHash.call EdgeHash.credit

/-! ## What the counters promise -/

/-- One call does right: afterwards the totals of all credited keys are their
exact sums, no total has become smaller or gone, and if the result could not be
represented the call failed and changed nothing. -/
structure Grows (c : Ledger) (a : IncrCall) (c' : Ledger) : Prop where
  exact : ∀ key ∈ c'.log.map Credit.key, ∃ total : UInt64, total.toNat = credited key c'.log ∧
    ∀ v, (key, v) ∈ EdgeHash.current c'.state ↔ v = total
  covers : Covers (EdgeHash.current c'.state) (EdgeHash.current c.state)
  representable : 2 ^ 63 ≤ EdgeHash.value c.state a.key + a.delta.toNat →
    (∃ e, (a.run c.state).1 = .error e) ∧ c'.state = c.state

/-! ## Signed and unsigned -/

theorem toInt_of_small {d : UInt64} (h : d.toNat < 2 ^ 63) : d.toInt64.toInt = d.toNat := by
  show d.toBitVec.toInt = d.toBitVec.toNat
  refine BitVec.toInt_eq_toNat_of_lt ?_
  show 2 * d.toNat < 2 ^ 64
  omega

theorem toInt_of_large {d : UInt64} (h : 2 ^ 63 ≤ d.toNat) :
    d.toInt64.toInt = (d.toNat : Int) - 2 ^ 64 := by
  have hlt : ¬ 2 * d.toBitVec.toNat < 2 ^ 64 := by
    show ¬ 2 * d.toNat < 2 ^ 64
    omega
  show d.toBitVec.toInt = (d.toBitVec.toNat : Int) - 2 ^ 64
  rw [BitVec.toInt_eq_toNat_cond, if_neg hlt]
  rfl

/-! ## One call -/

/-- The signed sum that Redis computes. -/
def IncrCall.sum (a : IncrCall) (h : EdgeHash) : Int :=
  EdgeHash.value h a.key + a.delta.toInt64.toInt

def IncrCall.Fits (a : IncrCall) (h : EdgeHash) : Prop := -2 ^ 63 ≤ a.sum h ∧ a.sum h < 2 ^ 63

/-- **What a call does**: nothing at all, fail and do nothing, or store the sum. -/
theorem run_cases (a : IncrCall) (h : EdgeHash) :
    (a.delta = 0 ∧ a.run h = (.ok (), h)) ∨
    ((a.fault ≠ none ∨ ¬ a.Fits h) ∧ ∃ e, a.run h = (.error e, h)) ∨
    (a.delta ≠ 0 ∧ a.fault = none ∧ a.Fits h ∧
      a.run h = (.ok (), h.upsert ⟨a.key, Int64.ofInt (a.sum h)⟩)) := by
  rw [IncrCall.run_eq]
  unfold EdgeHash.incr
  rcases eq_or_ne a.delta 0 with hzero | hne
  · rw [if_pos hzero]
    exact Or.inl ⟨hzero, rfl⟩
  · rw [if_neg hne]
    cases a.fault with
    | some message => exact Or.inr (Or.inl ⟨Or.inl (Option.some_ne_none message), _, rfl⟩)
    | none =>
        rcases Decidable.em (-2 ^ 63 ≤ a.sum h ∧ a.sum h < 2 ^ 63) with hfits | hfits
        · refine Or.inr (Or.inr ⟨hne, rfl, hfits, ?_⟩)
          rw [IncrCall.sum] at hfits
          simp only [hincr, if_pos hfits]
          rfl
        · refine Or.inr (Or.inl ⟨Or.inr hfits, ?_⟩)
          rw [IncrCall.sum] at hfits
          simp only [hincr, if_neg hfits]
          exact ⟨_, rfl⟩

theorem credited_cons (key : String) (e : Credit) (log : List Credit) :
    credited key (e :: log) = (if e.key = key then e.delta.toNat else 0) + credited key log := by
  rw [credited, credited]
  rcases eq_or_ne e.key key with heq | hne
  · simp [heq]
  · simp [hne]

/-- The hash holds what was credited, and nothing else. -/
structure Balanced (c : Ledger) : Prop where
  value : ∀ key, EdgeHash.value c.state key = credited key c.log
  stored : ∀ key, (c.state.lookup key).isSome ↔ key ∈ c.log.map Credit.key

theorem balanced_empty : Balanced ⟨.empty, []⟩ where
  value _ := rfl
  stored _ := iff_of_false Bool.false_ne_true List.not_mem_nil

section
variable {c c' : Ledger} {a : IncrCall}

/-- A balanced hash reports exact sums. -/
theorem Balanced.exact (h : Balanced c) {key : String} (hkey : key ∈ c.log.map Credit.key) :
    ∃ total : UInt64, total.toNat = credited key c.log ∧
      ∀ v, (key, v) ∈ EdgeHash.current c.state ↔ v = total := by
  obtain ⟨field, hfield⟩ := Option.isSome_iff_exists.mp ((h.stored key).mpr hkey)
  obtain ⟨_, rfl⟩ := Keyed.Table.lookup_eq_some.mp hfield
  have hvalue := h.value field.key
  rw [EdgeHash.value, hfield] at hvalue
  dsimp only at hvalue
  have hpos : 0 ≤ field.value := by
    rw [Int64.le_iff_toInt_le, hvalue]
    exact Int.natCast_nonneg _
  refine ⟨field.value.toUInt64, ?_, fun v => ?_⟩
  · rw [Int64.toNat_toUInt64_of_le hpos, Int64.toNatClampNeg, hvalue, Int.toNat_natCast]
  · rw [mem_current]
    constructor
    · rintro ⟨value, hlookup, _, rfl⟩
      exact congrArg (fun f : EdgeField => f.value.toUInt64)
        (Option.some.inj (hlookup.symm.trans hfield))
    · rintro rfl
      exact ⟨field.value, hfield, hpos, rfl⟩

theorem call_eq (h : Ledger.call c a = some c') :
    c' = ⟨(a.run c.state).2, EdgeHash.credit c.state a ++ c.log⟩ := by
  obtain ⟨hs, hlog⟩ := logged_step h
  obtain ⟨state, log⟩ := c'
  exact congrArg₂ _ (Option.some.inj hs).symm hlog

/-- A call that changes nothing credits nothing. -/
theorem call_eq_self (hstate : (a.run c.state).2 = c.state)
    (hcredit : (∃ e, (a.run c.state).1 = .error e) ∨ a.delta = 0)
    (h : Ledger.call c a = some c') : c' = c := by
  have hnone : EdgeHash.credit c.state a = [] := by
    rw [EdgeHash.credit]
    rcases hcredit with ⟨e, he⟩ | hzero
    · rw [he]
    · cases (a.run c.state).1 with
      | error e => rfl
      | ok u => exact if_pos hzero
  rw [call_eq h, hstate, hnone]
  rfl

theorem call_eq_stored (hne : a.delta ≠ 0)
    (hrun : a.run c.state = (.ok (), c.state.upsert ⟨a.key, Int64.ofInt (a.sum c.state)⟩))
    (h : Ledger.call c a = some c') :
    c' = ⟨c.state.upsert ⟨a.key, Int64.ofInt (a.sum c.state)⟩, ⟨a.key, a.delta⟩ :: c.log⟩ := by
  rw [call_eq h, EdgeHash.credit, hrun]
  exact congrArg (Logged.mk _) (congrArg (· ++ c.log) (if_neg hne))

/-- Storing the unsigned sum keeps the books. -/
theorem Balanced.stored_call (hc : Balanced c)
    (hsum : a.sum c.state = EdgeHash.value c.state a.key + a.delta.toNat)
    (hfits : a.Fits c.state) :
    Balanced ⟨c.state.upsert ⟨a.key, Int64.ofInt (a.sum c.state)⟩, ⟨a.key, a.delta⟩ :: c.log⟩ where
  value key := by
    rw [value_upsert, credited_cons]
    rcases eq_or_ne key a.key with rfl | hne
    · rw [if_pos rfl, if_pos rfl, Int64.toInt_ofInt_of_le hfits.1 hfits.2, hsum, hc.value,
        Int.natCast_add, Int.add_comm]
    · rw [if_neg hne, if_neg hne.symm, Nat.zero_add, hc.value]
  stored key := by
    rw [Keyed.Table.lookup_upsert, List.map_cons, List.mem_cons]
    rcases eq_or_ne key a.key with rfl | hne
    · rw [if_pos rfl]
      exact iff_of_true rfl (Or.inl rfl)
    · rw [if_neg hne, hc.stored]
      exact ⟨Or.inr, fun h => h.resolve_left hne⟩

/-- **A delta that is one number signed and unsigned** keeps every promise. -/
theorem grows_of_small (hc : Balanced c) (hsmall : a.fault = none → a.delta.toNat < 2 ^ 63)
    (h : Ledger.call c a = some c') : Grows c a c' ∧ Balanced c' := by
  have hrange := value_range c.state a.key
  rcases run_cases a c.state with ⟨hzero, hrun⟩ | ⟨hfail, e, hrun⟩ | ⟨hne, hnone, hfits, hrun⟩
  · obtain rfl := call_eq_self (by rw [hrun]) (Or.inr hzero) h
    refine ⟨⟨fun key hkey => hc.exact hkey, .refl _, fun hlarge => ?_⟩, hc⟩
    rw [hzero] at hlarge
    exact absurd hlarge (Int.not_le.mpr (by simpa using hrange.2))
  · obtain rfl := call_eq_self (by rw [hrun]) (Or.inl ⟨e, by rw [hrun]⟩) h
    exact ⟨⟨fun key hkey => hc.exact hkey, .refl _, fun _ => ⟨⟨e, by rw [hrun]⟩, rfl⟩⟩, hc⟩
  · obtain rfl := call_eq_stored hne hrun h
    have hsum : a.sum c.state = EdgeHash.value c.state a.key + a.delta.toNat := by
      rw [IncrCall.sum, toInt_of_small (hsmall hnone)]
    have hbalanced := hc.stored_call hsum hfits
    refine ⟨⟨fun key hkey => hbalanced.exact hkey, covers_upsert ?_, fun hlarge => ?_⟩, hbalanced⟩
    · rw [Int64.toInt_ofInt_of_le hfits.1 hfits.2, hsum]
      exact Int.le_add_of_nonneg_right (Int.natCast_nonneg _)
    · exact absurd hfits.2 (Int.not_lt.mpr (hsum ▸ hlarge))

/-- A large delta breaks the last promise: the call succeeds. -/
theorem small_of_grows (hc : Balanced c) (hgrows : Grows c a c') (hfault : a.fault = none) :
    a.delta.toNat < 2 ^ 63 := by
  by_contra hnot
  have hlarge : 2 ^ 63 ≤ a.delta.toNat := Nat.le_of_not_lt hnot
  have hlt := a.delta.toNat_lt
  have hrange := (value_range c.state a.key).2
  have hvalue := hc.value a.key
  have hsum : a.sum c.state = EdgeHash.value c.state a.key + ((a.delta.toNat : Int) - 2 ^ 64) := by
    rw [IncrCall.sum, toInt_of_large hlarge]
  obtain ⟨⟨e, he⟩, _⟩ := hgrows.representable (by omega)
  rcases run_cases a c.state with ⟨hzero, _⟩ | ⟨hfail, _⟩ | ⟨_, _, _, hrun⟩
  · rw [hzero] at hlarge
    exact absurd hlarge (by decide)
  · rcases hfail with hfail | hfail
    · exact hfail hfault
    · exact hfail ⟨by omega, by omega⟩
  · rw [hrun] at he
    cases he

end

theorem call_total (c : Ledger) (a : IncrCall) : ∃ c', Ledger.call c a = some c' := ⟨_, rfl⟩

/-! ## Every sequence of calls -/

/-- **The edge counters only grow and report exact sums exactly as long as no
delta that reaches Redis is `2 ^ 63` or more.** -/
theorem edges_grow_iff (calls : List IncrCall) :
    EachStep Ledger.call Grows ⟨.empty, []⟩ calls ↔
      ∀ a ∈ calls, a.fault = none → a.delta.toNat < 2 ^ 63 := by
  have hstep : ∀ c a c', Balanced c → Ledger.call c a = some c' →
      (Grows c a c' ↔ (a.fault = none → a.delta.toNat < 2 ^ 63)) := by
    intro c a c' hc h
    exact ⟨small_of_grows hc, fun hsmall => (grows_of_small hc hsmall h).1⟩
  have hkeep : ∀ c a c', Balanced c → Ledger.call c a = some c' → Grows c a c' → Balanced c' := by
    intro c a c' hc h hgrows
    exact (grows_of_small hc (small_of_grows hc hgrows) h).2
  exact (eachStep_iff hkeep hstep balanced_empty).trans (eachStep_total call_total)

/-- The largest delta takes one away: five become four. -/
theorem edges_shrink :
    ¬ EachStep Ledger.call Grows ⟨.empty, []⟩
        [⟨false, none, "a", 5⟩, ⟨false, none, "a", 18446744073709551615⟩] := by
  intro h
  obtain ⟨_, hrest⟩ := h _ rfl
  obtain ⟨hgrows, _⟩ := hrest _ rfl
  obtain ⟨v, hv, hle⟩ := hgrows.covers "a" 5 (by decide)
  obtain rfl : v = 4 := current_unique hv (by decide)
  exact absurd hle (by decide)

end Proto4.PromProxy
