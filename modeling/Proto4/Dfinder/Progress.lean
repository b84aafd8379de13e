/-
# `Proto4.Dfinder.Progress` — every probe cycle ends

The cycle works through a snapshot it took once, so registrations that arrive
meanwhile do not prolong it: `Cycle.left` counts the steps its task may still
have to make, one probe, one verdict and at most one removal for each captured
node, one step to leave the loop and one to give the lock back.  Each step of
the task lowers it, nothing else raises it, and at every point the task can go
on, whatever the probe answers and the store does.

`cycles_end` says what this means for a run that goes on for ever: the cycle
comes to its end, and with it the only stretch during which a connection has to
wait for the lock.
-/
import Proto4.Dfinder.Cycle

namespace Proto4.Dfinder

open Lts

section
variable {E : Type} {sd : Serde E}

/-- The steps a cycle may still take. -/
def Cycle.left : Cycle E → Nat
  | .idle => 0
  | .listed nodes => 3 * nodes.length + 3
  | .probing _ nodes expired => 3 * nodes.length + expired.length + 2
  | .probed _ _ _ nodes expired => 3 * nodes.length + expired.length + 4
  | .removing expired => expired.length + 1

/-- The steps by which the probe task goes through a cycle it has begun. -/
def Label.isCycle : Label → Bool
  | .readNow => true
  | .probeDone _ => true
  | .applyVerdict => true
  | .endLoop => true
  | .removeNext _ => true
  | _ => false

/-- A step of the cycle lowers what is left; no other step raises it, the one
that begins the next cycle being possible only when this one is over. -/
theorem left_of_trans {s s' : Sys E} {a : Label} {es : List (Event E)}
    (hbusy : s.cycle ≠ .idle) (h : Trans sd s a s' es) :
    s'.cycle.left + (if a.isCycle then 1 else 0) ≤ s.cycle.left := by
  cases h with
  | tick d => exact Nat.le_refl _
  | registered _ _ _ _ => exact Nat.le_refl _
  | answered _ _ => exact Nat.le_refl _
  | sent _ => exact Nat.le_refl _
  | listed hidle _ => exact absurd hidle hbusy
  | notListed => exact Nat.le_refl _
  | began hcycle =>
      rw [hcycle]
      simp only [Cycle.left, Label.isCycle, List.length_nil, if_true]
      omega
  | probed ok hcycle =>
      rw [hcycle]
      simp only [Cycle.left, Label.isCycle, List.length_cons, if_true]
      omega
  | @verdict now node ok nodes expired hcycle =>
      -- a condemned node moves from the nodes to probe to the nodes to remove
      have hlen : (if (s.inner.applyVerdict now node.ip ok).2 then expired ++ [node.ip]
          else expired).length ≤ expired.length + 1 := by
        split
        · rw [List.length_append, List.length_singleton]
        · exact Nat.le_succ _
      rw [hcycle]
      simp only [Cycle.left, Label.isCycle, if_true]
      omega
  | ended hcycle =>
      rw [hcycle]
      simp only [Cycle.left, Label.isCycle, List.length_nil, if_true]
      omega
  | locked hcycle =>
      rw [hcycle]
      simp only [Cycle.left, Label.isCycle, List.length_nil, if_true]
      omega
  | removed hcycle =>
      rw [hcycle]
      simp only [Cycle.left, Label.isCycle, List.length_cons, if_true]
      omega
  | unlocked hcycle _ =>
      rw [hcycle]
      simp only [Cycle.left, Label.isCycle, if_true]
      omega
  | restarted _ => exact Nat.zero_le _

/-- A cycle that is not over can go on, whatever the probe answers and whatever
the store does. -/
theorem cycle_goes_on (sd : Serde E) (s : Sys E) (hbusy : s.cycle ≠ .idle) (ok : Bool)
    (fault : Option StoreError) :
    ∃ a s', a ∈ [.readNow, .probeDone ok, .applyVerdict, .endLoop, .removeNext fault] ∧
      s.step sd a = some s' := by
  obtain ⟨inner, clock, cycle, outbox⟩ := s
  cases cycle with
  | idle => exact absurd rfl hbusy
  | listed nodes => exact ⟨.readNow, _, by simp, rfl⟩
  | probing now nodes expired =>
      cases nodes with
      | nil =>
          cases expired with
          | nil => exact ⟨.endLoop, _, by simp, rfl⟩
          | cons ip expired => exact ⟨.endLoop, _, by simp, rfl⟩
      | cons node nodes => exact ⟨.probeDone ok, _, by simp, rfl⟩
  | probed now node ok' nodes expired => exact ⟨.applyVerdict, _, by simp, rfl⟩
  | removing expired =>
      cases expired with
      | nil => exact ⟨.removeNext fault, _, by simp, rfl⟩
      | cons ip expired =>
          cases hrem : inner.removeNode fault ip with
          | ok inner' =>
              refine ⟨.removeNext fault, ⟨inner', clock, .removing expired, outbox⟩, by simp, ?_⟩
              simp only [Sys.step, hrem]
          | error e =>
              refine ⟨.removeNext fault, ⟨inner, clock, .idle, outbox⟩, by simp, ?_⟩
              simp only [Sys.step, hrem]

/-- Between two cycles any frame is handled at once. -/
theorem frame_of_idle (sd : Serde E) {s : Sys E} (hidle : s.cycle = .idle) (peer : String)
    (frame : TinyFrame.Frame) (fault : Option StoreError) (nowSecs : Int) :
    ∃ s', s.step sd (.frame peer frame fault nowSecs) = some s' := by
  simp only [Sys.step, hidle, Cycle.holdsLock, Bool.false_eq_true, if_false]
  exact ⟨_, rfl⟩

/-- **Every cycle ends**, and with it every wait for the lock.  The run is any
run: registrations, queries, the clock, failures of the store and restarts in
any order.  All that is asked is that a task which can go on for good does not
stand still for good. -/
theorem cycles_end (sd : Serde E) (run : Nat → Sys E) (label : Nat → Label)
    (hrun : IsRun (Sys.step sd) run label)
    (hfair : ∀ n, (∀ m, n ≤ m → (run m).cycle ≠ .idle) → ∃ m, n ≤ m ∧ (label m).isCycle = true)
    (n : Nat) :
    ((run n).cycle ≠ .idle → ∀ ok fault, ∃ a s',
      a ∈ [.readNow, .probeDone ok, .applyVerdict, .endLoop, .removeNext fault] ∧
        (run n).step sd a = some s') ∧
    ∃ k, (run (n + k)).cycle = .idle ∧
      worked Label.isCycle label n k ≤ (run n).cycle.left ∧
      ∀ peer frame fault nowSecs, ∃ s',
        (run (n + k)).step sd (.frame peer frame fault nowSecs) = some s' := by
  refine ⟨fun hbusy ok fault => cycle_goes_on sd (run n) hbusy ok fault, ?_⟩
  have hrank : ∀ (s : Sys E) (a : Label) (s' : Sys E), ¬ s.cycle = .idle →
      s.step sd a = some s' → s'.cycle.left + (if a.isCycle then 1 else 0) ≤ s.cycle.left :=
    fun s a s' hbusy hstep => left_of_trans hbusy (trans_of_step hstep)
  obtain ⟨k, hidle, hleft⟩ := fair_reaches hrun hrank hfair n
  exact ⟨k, hidle, hleft, frame_of_idle sd hidle⟩

end

/-! A cycle that has two nodes to remove and fails at the first, and then only the clock. -/

def faultyLabel : Nat → Label
  | 0 => .removeNext (some .poisoned)
  | _ => .tick 1

def faultyRun : Nat → Sys Unit
  | 0 => ⟨twoNodes, 20, .removing ["10.0.0.7", "10.0.0.8"], []⟩
  | n + 1 => ⟨twoNodes, 20 + n, .idle, []⟩

theorem faultyRun_isRun : IsRun (Sys.step unitSerde) faultyRun faultyLabel := by
  intro n
  cases n with
  | zero => rfl
  | succ n => rfl

theorem cycles_end_faulty : ∃ k, (faultyRun (0 + k)).cycle = .idle ∧
    worked Label.isCycle faultyLabel 0 k ≤ 3 := by
  obtain ⟨_, k, hidle, hleft, _⟩ := cycles_end unitSerde faultyRun faultyLabel faultyRun_isRun
    (fun n hbusy => absurd rfl (hbusy (n + 1) (Nat.le_succ n))) 0
  exact ⟨k, hidle, hleft⟩

end Proto4.Dfinder
