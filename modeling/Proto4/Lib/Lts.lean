/-
# `Lts` — runs of a guarded deterministic step function

A system is `step : σ → α → Option σ`; a label carries every choice the
environment makes, so the step itself is a function and `none` means the label
is not enabled.  A *schedule* is a list of labels.

Three kinds of statement about runs are used, and each has one rule here:

* something holds of every reachable state — `Reaches.invariant`;
* something holds of every transition a schedule makes — `EachStep`, read at
  one of them by `EachStep.after`;
* two things about transitions hold along exactly the same schedules —
  `eachStep_iff`.  The equivalence is asked of one transition only, under an
  invariant that has to survive a transition only while the first of the two
  still holds: after the first violation nothing more need be known.

`Logged` adds a history to a system: every transition prepends the events it
emits, newest first, and `latest` reads a register off a history.  `Simulates`
transports reachability along a relation.  `fair_reaches` is for what must
happen: on an infinite run, a task whose steps lower a rank that no other step
raises comes to its end.
-/
import Mathlib.Data.List.Induction
import Mathlib.Data.Nat.Count
import Mathlib.Data.Option.Basic

namespace Lts

variable {σ τ α β ε : Type}

/-- Perform the labels in order; a label that is not enabled ends in `none`. -/
def exec (step : σ → α → Option σ) : σ → List α → Option σ
  | s, [] => some s
  | s, a :: as => (step s a).bind fun s' => exec step s' as

/-- `Reaches step s₀ s`: some run leads from `s₀` to `s`. -/
inductive Reaches (step : σ → α → Option σ) (s₀ : σ) : σ → Prop
  | refl : Reaches step s₀ s₀
  | tail {s s' : σ} {a : α} : Reaches step s₀ s → step s a = some s' → Reaches step s₀ s'

/-- **The invariant rule.** -/
theorem Reaches.invariant {step : σ → α → Option σ} {J : σ → Prop} {s₀ s : σ}
    (h : Reaches step s₀ s) (hinit : J s₀)
    (hstep : ∀ s a s', J s → step s a = some s' → J s') : J s := by
  induction h with
  | refl => exact hinit
  | tail _ hs ih => exact hstep _ _ _ ih hs

theorem Reaches.trans {step : σ → α → Option σ} {s t u : σ}
    (hst : Reaches step s t) (htu : Reaches step t u) : Reaches step s u := by
  induction htu with
  | refl => exact hst
  | tail _ hs ih => exact .tail ih hs

/-- The invariant rule along one schedule, where only its own labels are asked about. -/
theorem exec_invariant {step : σ → α → Option σ} {J : σ → Prop} :
    ∀ {as : List α} {s t : σ}, (∀ s a s', a ∈ as → J s → step s a = some s' → J s') →
      exec step s as = some t → J s → J t := by
  intro as
  induction as with
  | nil =>
      intro s t _ hexec hs
      obtain rfl : s = t := Option.some.inj hexec
      exact hs
  | cons a as ih =>
      intro s t hstep hexec hs
      obtain ⟨s', hs', ht⟩ := Option.bind_eq_some_iff.mp hexec
      refine ih (fun u b u' hb => hstep u b u' (List.mem_cons_of_mem _ hb)) ht ?_
      exact hstep s a s' List.mem_cons_self hs hs'

/-- What a schedule leads to is reached. -/
theorem reaches_of_exec {step : σ → α → Option σ} {s₀ s : σ} {as : List α}
    (h : exec step s₀ as = some s) : Reaches step s₀ s :=
  exec_invariant (fun _ _ _ _ hs hstep => hs.tail hstep) h .refl

/-- A schedule in two parts. -/
theorem exec_append {step : σ → α → Option σ} {bs : List α} : ∀ {as : List α} {s : σ},
    exec step s (as ++ bs) = (exec step s as).bind fun t => exec step t bs := by
  intro as
  induction as with
  | nil =>
      intro s
      rfl
  | cons a as ih =>
      intro s
      show (step s a).bind (fun s' => exec step s' (as ++ bs))
        = ((step s a).bind fun s' => exec step s' as).bind _
      rw [Option.bind_assoc]
      exact congrArg _ (funext fun s' => ih)

/-- The invariant rule where the invariant speaks of the schedule so far. -/
theorem exec_history {step : σ → α → Option σ} {J : List α → σ → Prop} {s₀ : σ}
    (hinit : J [] s₀)
    (hstep : ∀ as s a s', exec step s₀ as = some s → J as s → step s a = some s' →
      J (as ++ [a]) s') :
    ∀ {as : List α} {t : σ}, exec step s₀ as = some t → J as t := by
  intro as
  induction as using List.reverseRecOn with
  | nil =>
      intro t h
      obtain rfl : s₀ = t := Option.some.inj h
      exact hinit
  | append_singleton as a ih =>
      intro t h
      rw [exec_append] at h
      obtain ⟨s, hs, hlast⟩ := Option.bind_eq_some_iff.mp h
      obtain ⟨t', hstep', ht⟩ := Option.bind_eq_some_iff.mp hlast
      obtain rfl : t' = t := Option.some.inj ht
      exact hstep as s a t' hs (ih hs) hstep'

/-! ## Transitions along a schedule -/

/-- `C` holds of every transition the schedule makes from `s`. -/
def EachStep (step : σ → α → Option σ) (C : σ → α → σ → Prop) : σ → List α → Prop
  | _, [] => True
  | s, a :: as => ∀ s', step s a = some s' → C s a s' ∧ EachStep step C s' as

/-- What holds of every transition of a schedule holds of the one made after
any of its prefixes. -/
theorem EachStep.after {step : σ → α → Option σ} {C : σ → α → σ → Prop} {a : α} {bs : List α}
    {t t' : σ} : ∀ {as : List α} {s : σ}, EachStep step C s (as ++ a :: bs) →
      exec step s as = some t → step t a = some t' → C t a t' := by
  intro as
  induction as with
  | nil =>
      intro s h hexec hstep
      obtain rfl : s = t := Option.some.inj hexec
      exact (h t' hstep).1
  | cons b as ih =>
      intro s h hexec hstep
      obtain ⟨s', hs, ht⟩ := Option.bind_eq_some_iff.mp hexec
      exact ih (h s' hs).2 ht hstep

/-- **Equivalence along a run.**  `A` and `C` hold of the same schedules when
they agree on one transition, under an invariant that `A` keeps. -/
theorem eachStep_iff {step : σ → α → Option σ} {J : σ → Prop}
    {A C : σ → α → σ → Prop}
    (hJ : ∀ s a s', J s → step s a = some s' → A s a s' → J s')
    (hAC : ∀ s a s', J s → step s a = some s' → (A s a s' ↔ C s a s')) :
    ∀ {as : List α} {s : σ}, J s → (EachStep step A s as ↔ EachStep step C s as) := by
  intro as
  induction as with
  | nil =>
      intro s _
      exact Iff.rfl
  | cons a as ih =>
      intro s hs
      constructor
      · intro h s' hstep
        obtain ⟨hA, hrest⟩ := h s' hstep
        have hJ' := hJ s a s' hs hstep hA
        exact ⟨(hAC s a s' hs hstep).mp hA, (ih hJ').mp hrest⟩
      · intro h s' hstep
        obtain ⟨hC, hrest⟩ := h s' hstep
        have hA := (hAC s a s' hs hstep).mpr hC
        exact ⟨hA, (ih (hJ s a s' hs hstep hA)).mpr hrest⟩

/-- Where every label is enabled, a schedule makes a transition with each of its labels. -/
theorem eachStep_total {step : σ → α → Option σ} {P : α → Prop}
    (htotal : ∀ s a, ∃ s', step s a = some s') :
    ∀ {as : List α} {s : σ}, EachStep step (fun _ a _ => P a) s as ↔ ∀ a ∈ as, P a := by
  intro as
  induction as with
  | nil =>
      intro s
      exact iff_of_true trivial fun a ha => (by cases ha)
  | cons a as ih =>
      intro s
      rw [List.forall_mem_cons]
      constructor
      · intro h
        obtain ⟨s', hs'⟩ := htotal s a
        obtain ⟨ha, hrest⟩ := h s' hs'
        exact ⟨ha, ih.mp hrest⟩
      · rintro ⟨ha, hrest⟩ s' _
        exact ⟨ha, ih.mpr hrest⟩

/-! ## Histories -/

/-- A state with the events that led to it, newest first. -/
structure Logged (σ ε : Type) where
  state : σ
  log : List ε

/-- The step of the system with a history. -/
def Logged.step (step : σ → α → Option σ) (emit : σ → α → List ε) :
    Logged σ ε → α → Option (Logged σ ε) :=
  fun c a => (step c.state a).map fun s' => ⟨s', emit c.state a ++ c.log⟩

theorem logged_step {step : σ → α → Option σ} {emit : σ → α → List ε}
    {c c' : Logged σ ε} {a : α} (h : Logged.step step emit c a = some c') :
    step c.state a = some c'.state ∧ c'.log = emit c.state a ++ c.log := by
  obtain ⟨s', hs, rfl⟩ := Option.map_eq_some_iff.mp h
  exact ⟨hs, rfl⟩

/-- The value a register has after a history: `set e = some v` when the event
`e` sets it to `v`, and `set e = none` when it leaves it alone. -/
def latest {α : Type} (set : ε → Option (Option α)) (log : List ε) : Option α :=
  (log.findSome? set).join

theorem latest_cons {α : Type} (set : ε → Option (Option α)) (e : ε) (log : List ε) :
    latest set (e :: log) = (set e).getD (latest set log) := by
  cases h : set e with
  | none => simp [latest, h]
  | some v => simp [latest, h]

/-- A register with a value got it from an event, and no later one touched it. -/
theorem exists_of_latest {α : Type} {set : ε → Option (Option α)} {log : List ε} {a : α}
    (h : latest set log = some a) :
    ∃ newer e older, log = newer ++ e :: older ∧ set e = some (some a) ∧
      ∀ e' ∈ newer, set e' = none :=
  List.findSome?_eq_some_iff.mp (Option.join_eq_some_iff.mp h)

/-! ## Simulation -/

/-- Every step of the concrete system is matched by some steps of the abstract one. -/
def Simulates (cstep : σ → α → Option σ) (astep : τ → β → Option τ)
    (R : σ → τ → Prop) : Prop :=
  ∀ s a s' t, R s t → cstep s a = some s' → ∃ t', Reaches astep t t' ∧ R s' t'

theorem Simulates.reaches {cstep : σ → α → Option σ} {astep : τ → β → Option τ}
    {R : σ → τ → Prop} (h : Simulates cstep astep R) {s₀ s : σ} {t₀ : τ}
    (h₀ : R s₀ t₀) (hs : Reaches cstep s₀ s) : ∃ t, Reaches astep t₀ t ∧ R s t := by
  induction hs with
  | refl => exact ⟨t₀, .refl, h₀⟩
  | tail _ hstep ih =>
      obtain ⟨t, ht, hR⟩ := ih
      obtain ⟨t', ht', hR'⟩ := h _ _ _ _ hR hstep
      exact ⟨t', ht.trans ht', hR'⟩

/-! ## Progress -/

/-- An infinite run, with the label of each of its steps. -/
def IsRun (step : σ → α → Option σ) (run : Nat → σ) (label : Nat → α) : Prop :=
  ∀ n, step (run n) (label n) = some (run (n + 1))

/-- How many of the `k` steps from the `n`th on are `work`. -/
def worked (work : α → Bool) (label : Nat → α) (n k : Nat) : Nat :=
  Nat.count (fun i => work (label (n + i)) = true) k

theorem worked_succ {work : α → Bool} {label : Nat → α} {n k : Nat} :
    worked work label n (k + 1)
      = worked work label n k + if work (label (n + k)) then 1 else 0 :=
  Nat.count_succ _ k

section
variable {step : σ → α → Option σ} {run : Nat → σ} {label : Nat → α} {work : α → Bool}
  {rank : σ → Nat} {done : σ → Prop}

/-- Work done before the end is rank used up. -/
theorem worked_le (hrun : IsRun step run label)
    (hrank : ∀ s a s', ¬ done s → step s a = some s' →
      rank s' + (if work a then 1 else 0) ≤ rank s) {n : Nat} :
    ∀ {k : Nat}, (∀ i, i < k → ¬ done (run (n + i))) →
      worked work label n k + rank (run (n + k)) ≤ rank (run n) := by
  intro k
  induction k with
  | zero =>
      intro _
      exact Nat.le_of_eq (Nat.zero_add _)
  | succ k ih =>
      intro h
      have hk := ih fun i hi => h i (Nat.lt_succ_of_lt hi)
      have hone := hrank _ _ _ (h k (Nat.lt_succ_self k)) (hrun (n + k))
      rw [worked_succ, ← Nat.add_assoc]
      omega

/-- Where work never stops for good, there is as much of it as one likes. -/
theorem exists_le_worked {n : Nat} (h : ∀ m, n ≤ m → ∃ m', m ≤ m' ∧ work (label m') = true) :
    ∀ r, ∃ k, r ≤ worked work label n k := by
  intro r
  induction r with
  | zero => exact ⟨0, Nat.zero_le _⟩
  | succ r ih =>
      obtain ⟨k, hk⟩ := ih
      obtain ⟨m, hm, hwork⟩ := h (n + k) (Nat.le_add_right n k)
      obtain ⟨i, rfl⟩ := Nat.exists_eq_add_of_le (Nat.le_trans (Nat.le_add_right n k) hm)
      have hmono : worked work label n k ≤ worked work label n i :=
        Nat.count_monotone _ (by omega)
      refine ⟨i + 1, ?_⟩
      rw [worked_succ, hwork, if_pos rfl]
      omega

/-- **The ranking rule.**  The task does no more work than its rank at the
start, and it need only not be forgotten for good to come to its end. -/
theorem fair_reaches (hrun : IsRun step run label)
    (hrank : ∀ s a s', ¬ done s → step s a = some s' →
      rank s' + (if work a then 1 else 0) ≤ rank s)
    (hfair : ∀ n, (∀ m, n ≤ m → ¬ done (run m)) → ∃ m, n ≤ m ∧ work (label m) = true) (n : Nat) :
    ∃ k, done (run (n + k)) ∧ worked work label n k ≤ rank (run n) := by
  classical
  by_cases hend : ∃ k, done (run (n + k))
  · refine ⟨Nat.find hend, Nat.find_spec hend, ?_⟩
    have := worked_le hrun hrank (n := n) fun i hi => Nat.find_min hend hi
    omega
  · have hnever : ∀ m, n ≤ m → ¬ done (run m) := by
      intro m hm hdone
      obtain ⟨k, rfl⟩ := Nat.exists_eq_add_of_le hm
      exact hend ⟨k, hdone⟩
    have hmore : ∀ m, n ≤ m → ∃ m', m ≤ m' ∧ work (label m') = true := fun m hm =>
      hfair m fun m' hm' => hnever m' (Nat.le_trans hm hm')
    obtain ⟨k, hk⟩ := exists_le_worked hmore (rank (run n) + 1)
    have := worked_le hrun hrank (n := n) (k := k) fun i _ => hnever _ (Nat.le_add_right n i)
    omega

end

end Lts
