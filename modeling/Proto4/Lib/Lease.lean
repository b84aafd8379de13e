/-
# `Lease` — a lease that lives as long as its checks succeed

Someone is granted a lease on a value.  From then on the value is checked now
and then; a check that succeeds renews the lease, and one that fails ends it
once the last renewal is `ttl` ago, and only then.  A restart of whoever keeps
the leases renews them too, but leaves nobody checked.

`run` keeps one lease over a sequence of timed events.  `run_eq_some_iff` says
which histories lead to a lease that is held, without mention of the states in
between: a grant, and no failed check since that came `ttl` after a success.
Many leases under keys are one `run` each.
-/
import Mathlib.Data.List.Basic

namespace Lease

variable {ν : Type}

/-- A lease that is held: on what, whether the last check succeeded, and since
when it runs. -/
structure Held (ν : Type) where
  value : ν
  live : Bool
  since : Nat

inductive Event (ν : Type)
  | grant (value : ν)
  /-- the value is checked -/
  | check (passes : ν → Bool)
  | restart

/-- One event at its time. -/
def step (ttl : Nat) : Option (Held ν) → Nat × Event ν → Option (Held ν)
  | _, (t, .grant v) => some ⟨v, true, t⟩
  | none, _ => none
  | some h, (t, .check passes) =>
      if passes h.value then some ⟨h.value, true, t⟩
      else if ttl ≤ t - h.since then none
      else some { h with live := false }
  | some h, (t, .restart) => some ⟨h.value, false, t⟩

/-- A history, from nothing. -/
def run (ttl : Nat) (events : List (Nat × Event ν)) : Option (Held ν) :=
  events.foldl (step ttl) none

theorem run_append (ttl : Nat) (events more : List (Nat × Event ν)) :
    run ttl (events ++ more) = more.foldl (step ttl) (run ttl events) := List.foldl_append

/-! ## Registers of a history -/

/-- When a lease on `v` was last renewed by an event. -/
def renewed (v : ν) (since : Nat) : Nat × Event ν → Nat
  | (t, .check passes) => if passes v then t else since
  | (t, _) => t

def lastRenewal (v : ν) (since : Nat) (events : List (Nat × Event ν)) : Nat :=
  events.foldl (renewed v) since

/-- Whether an event leaves `v` as one whose last check succeeded. -/
def leaves (v : ν) (_ : Bool) : Nat × Event ν → Bool
  | (_, .grant _) => true
  | (_, .check passes) => passes v
  | (_, .restart) => false

def lastLeaves (v : ν) (live : Bool) (events : List (Nat × Event ν)) : Bool :=
  events.foldl (leaves v) live

/-- No check of `v` failed `ttl` after the last renewal. -/
def Unlapsed (ttl : Nat) (v : ν) (since : Nat) (events : List (Nat × Event ν)) : Prop :=
  ∀ before t passes after, events = before ++ (t, .check passes) :: after → passes v = false →
    t - lastRenewal v since before < ttl

theorem unlapsed_nil (ttl : Nat) (v : ν) (since : Nat) : Unlapsed ttl v since [] := by
  intro before t passes after h
  cases before <;> cases h

theorem unlapsed_cons {ttl : Nat} {v : ν} {since : Nat} {e : Nat × Event ν}
    {events : List (Nat × Event ν)} :
    Unlapsed ttl v since (e :: events) ↔
      (∀ t passes, e = (t, .check passes) → passes v = false → t - since < ttl) ∧
        Unlapsed ttl v (renewed v since e) events := by
  constructor
  · intro h
    refine ⟨?_, ?_⟩
    · rintro t passes rfl hfail
      exact h [] t passes events rfl hfail
    · rintro before t passes after rfl hfail
      exact h (e :: before) t passes after rfl hfail
  · rintro ⟨hhead, hrest⟩ before t passes after heq hfail
    cases before with
    | nil =>
        obtain ⟨rfl, rfl⟩ := List.cons.inj heq
        exact hhead t passes rfl hfail
    | cons b before =>
        obtain ⟨rfl, rfl⟩ := List.cons.inj heq
        exact hrest before t passes after rfl hfail

/-- No new grant. -/
def NoGrant (events : List (Nat × Event ν)) : Prop := ∀ t v, (t, Event.grant v) ∉ events

theorem noGrant_cons {e : Nat × Event ν} {events : List (Nat × Event ν)}
    (h : NoGrant (e :: events)) : (∀ t v, e ≠ (t, .grant v)) ∧ NoGrant events :=
  ⟨fun t v he => h t v (he ▸ List.mem_cons_self), fun t v hmem => h t v (List.mem_cons_of_mem _ hmem)⟩

/-- Without a grant nothing comes of nothing. -/
theorem foldl_none {ttl : Nat} {events : List (Nat × Event ν)} (h : NoGrant events) :
    events.foldl (step ttl) none = none := by
  induction events with
  | nil => rfl
  | cons e events ih =>
      obtain ⟨he, hrest⟩ := noGrant_cons h
      obtain ⟨t, e⟩ := e
      cases e with
      | grant v => exact absurd rfl (he t v)
      | check passes => exact ih hrest
      | restart => exact ih hrest

/-- **What becomes of a lease** until it is granted anew. -/
theorem foldl_some {ttl : Nat} {v : ν} {events : List (Nat × Event ν)} (hno : NoGrant events)
    {live : Bool} {since : Nat} {h : Held ν} :
    events.foldl (step ttl) (some ⟨v, live, since⟩) = some h ↔
      Unlapsed ttl v since events ∧
        h = ⟨v, lastLeaves v live events, lastRenewal v since events⟩ := by
  induction events generalizing live since with
  | nil =>
      constructor
      · intro heq
        exact ⟨unlapsed_nil ttl v since, (Option.some.inj heq).symm⟩
      · rintro ⟨_, rfl⟩
        rfl
  | cons e events ih =>
      obtain ⟨he, hrest⟩ := noGrant_cons hno
      obtain ⟨t, e⟩ := e
      rw [List.foldl_cons, unlapsed_cons, lastLeaves, lastRenewal, List.foldl_cons, List.foldl_cons]
      cases e with
      | grant w => exact absurd rfl (he t w)
      | restart =>
          refine (ih hrest).trans (and_congr_left' ?_)
          refine (and_iff_right ?_).symm
          intro t' passes heq
          cases heq
      | check passes =>
          cases hpass : passes v with
          | true =>
              have hstep : step ttl (some ⟨v, live, since⟩) (t, .check passes)
                  = some ⟨v, true, t⟩ := if_pos hpass
              have hrenewed : renewed v since (t, .check passes) = t := if_pos hpass
              have hleaves : leaves v live (t, .check passes) = true := hpass
              rw [hstep, hrenewed, hleaves]
              refine (ih hrest).trans (and_congr_left' ?_)
              refine (and_iff_right ?_).symm
              intro t' passes' heq hfail
              obtain ⟨rfl, rfl⟩ : t = t' ∧ passes = passes' := by simpa using heq
              rw [hpass] at hfail
              cases hfail
          | false =>
              have hnot : ¬ passes v = true := by
                rw [hpass]
                exact Bool.false_ne_true
              have hrenewed : renewed v since (t, .check passes) = since := if_neg hnot
              have hleaves : leaves v live (t, .check passes) = false := hpass
              have hhead : (∀ t' passes', (t, Event.check passes) = (t', .check passes') →
                  passes' v = false → t' - since < ttl) ↔ t - since < ttl := by
                constructor
                · intro hall
                  exact hall t passes rfl hpass
                · rintro hlt t' passes' heq _
                  obtain ⟨rfl, _⟩ := Prod.mk.inj heq
                  exact hlt
              rw [hrenewed, hleaves, hhead]
              rcases Nat.lt_or_ge (t - since) ttl with hlt | hge
              · have hstep : step ttl (some ⟨v, live, since⟩) (t, .check passes)
                    = some ⟨v, false, since⟩ := by
                  rw [step, if_neg hnot, if_neg (Nat.not_le_of_lt hlt)]
                rw [hstep]
                exact (ih hrest).trans (and_congr_left' (and_iff_right hlt).symm)
              · have hstep : step ttl (some ⟨v, live, since⟩) (t, .check passes) = none := by
                  rw [step, if_neg hnot, if_pos hge]
                rw [hstep, foldl_none hrest]
                refine iff_of_false (fun heq => by cases heq) ?_
                rintro ⟨⟨hlt, _⟩, _⟩
                exact Nat.not_le_of_lt hlt hge

/-- A history has a last grant, or none. -/
theorem last_grant (events : List (Nat × Event ν)) :
    NoGrant events ∨ ∃ older t v newer, events = older ++ (t, .grant v) :: newer ∧
      NoGrant newer := by
  induction events with
  | nil => exact Or.inl fun _ _ h => by cases h
  | cons e events ih =>
      rcases ih with hno | ⟨older, t, v, newer, rfl, hno⟩
      · by_cases he : ∃ t v, e = (t, .grant v)
        · obtain ⟨t, v, rfl⟩ := he
          exact Or.inr ⟨[], t, v, events, rfl, hno⟩
        · refine Or.inl fun t v hmem => ?_
          rcases List.mem_cons.mp hmem with heq | hmem
          · exact he ⟨t, v, heq.symm⟩
          · exact hno t v hmem
      · exact Or.inr ⟨e :: older, t, v, newer, rfl, hno⟩

/-- **Who holds a lease**: whoever was granted it, and has not since failed a
check `ttl` after its last success. -/
theorem run_eq_some_iff {ttl : Nat} {events : List (Nat × Event ν)} {h : Held ν} :
    run ttl events = some h ↔
      ∃ older t newer, events = older ++ (t, .grant h.value) :: newer ∧ NoGrant newer ∧
        Unlapsed ttl h.value t newer ∧ h.live = lastLeaves h.value true newer ∧
        h.since = lastRenewal h.value t newer := by
  have hrun : ∀ (older : List (Nat × Event ν)) t v newer, run ttl (older ++ (t, .grant v) :: newer)
      = newer.foldl (step ttl) (some ⟨v, true, t⟩) := by
    intro older t v newer
    rw [run_append, List.foldl_cons]
    cases run ttl older with
    | none => rfl
    | some _ => rfl
  constructor
  · intro heq
    rcases last_grant events with hno | ⟨older, t, v, newer, rfl, hno⟩
    · rw [run, foldl_none hno] at heq
      cases heq
    · rw [hrun] at heq
      obtain ⟨hun, rfl⟩ := (foldl_some hno).mp heq
      exact ⟨older, t, newer, rfl, hno, hun, rfl, rfl⟩
  · rintro ⟨older, t, newer, rfl, hno, hun, hlive, hsince⟩
    rw [hrun]
    refine (foldl_some hno).mpr ⟨hun, ?_⟩
    rw [← hlive, ← hsince]

end Lease
