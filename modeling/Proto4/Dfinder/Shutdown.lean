/-
# `Proto4.Dfinder.Shutdown` — the tasks of a server, and what aborting them stops

`Server::spawn` and `Server::spawn_with_addr` start one task that runs
`run_and_notify`: it binds, spawns the probe task, and accepts connections, each
of which becomes a task of its own.  If accepting fails it aborts the probe task
on its way out.

The runtime's rules are two.  An abort reaches the aborted task only, and ends it
where it next waits; a task whose handle is dropped goes on by itself.  So a main
task that is aborted while it accepts drops the probe task's handle and never
comes to the abort after its loop.

`cancelled_stops_iff` says which cancellations stop the probing: those that find
the main task still binding.
-/
import Proto4.Dfinder.Cycle

namespace Proto4.Dfinder

open Lts

/-- Where the main task is in `run_and_notify`. -/
inductive Main
  | binding
  | accepting
  | returned
  | cancelled
  deriving DecidableEq, Repr

/-- The task of `spawn_probe`. -/
inductive ProbeTask
  | absent
  | running (aborted : Bool)
  | cancelled
  deriving DecidableEq, Repr

/-- `JoinHandle::abort`. -/
def ProbeTask.abort : ProbeTask → ProbeTask
  | .running _ => .running true
  | task => task

/-- Whether the probe task waits: for the ticker, a probe or the lock. -/
def Cycle.awaits {E : Type} : Cycle E → Bool
  | .idle => true
  | .listed _ => false
  | .probing _ [] [] => false
  | .probing _ _ _ => true
  | .probed _ _ _ _ _ => true
  | .removing _ => false

/-- A spawned server: what its tasks share, and the tasks. -/
structure Service (E : Type) where
  sys : Sys E
  main : Main
  aborted : Bool
  probe : ProbeTask
  conns : List String

inductive Act
  /-- the listener is bound, the address sent and the probe task spawned -/
  | bound
  | bindFails
  | accept (peer : String)
  | acceptFails
  /-- the handle returned by `spawn` or `spawn_with_addr` is aborted -/
  | abort
  /-- the main task ends where it waits -/
  | cancelMain
  /-- a connection's task reads its frame and handles it -/
  | serve (i : Nat) (frame : TinyFrame.Frame) (fault : Option StoreError) (nowSecs : Int)
  /-- a connection's task reads no frame -/
  | hangUp (i : Nat)
  | send (i : Nat)
  | probe (a : Label)
  | cancelProbe
  | tick (d : Duration)

section
variable {E : Type} (sd : Serde E)

/-- `Server::spawn` and `Server::spawn_with_addr` on what `Server::new` made. -/
def Service.spawn (inner : Inner) (clock : Instant) : Service E where
  sys := Sys.start inner clock
  main := .binding
  aborted := false
  probe := .absent
  conns := []

def Service.step (s : Service E) : Act → Option (Service E)
  | .bound =>
      match s.main with
      | .binding => some { s with main := .accepting, probe := .running false }
      | _ => none
  | .bindFails =>
      match s.main with
      | .binding => some { s with main := .returned }
      | _ => none
  | .accept peer =>
      match s.main with
      | .accepting => some { s with conns := s.conns ++ [peer] }
      | _ => none
  | .acceptFails =>
      match s.main with
      | .accepting => some { s with main := .returned, probe := s.probe.abort }
      | _ => none
  | .abort => some { s with aborted := true }
  | .cancelMain =>
      if s.aborted ∧ (s.main = .binding ∨ s.main = .accepting) then
        some { s with main := .cancelled }
      else none
  | .serve i frame fault nowSecs =>
      match s.conns[i]? with
      | some peer =>
          (s.sys.step sd (.frame peer frame fault nowSecs)).map fun sys =>
            { s with sys, conns := s.conns.eraseIdx i }
      | none => none
  | .hangUp i =>
      if i < s.conns.length then some { s with conns := s.conns.eraseIdx i } else none
  | .send i => (s.sys.step sd (.send i)).map fun sys => { s with sys }
  | .probe a =>
      match s.probe with
      | .running _ => (s.sys.stepAlone sd a).map fun sys => { s with sys }
      | _ => none
  | .cancelProbe =>
      if s.probe = .running true ∧ s.sys.cycle.awaits then some { s with probe := .cancelled }
      else none
  | .tick d => (s.sys.step sd (.tick d)).map fun sys => { s with sys }

/-! ## What stopping means -/

/-- From here on no cycle begins, and none that began later touches a health
entry or a row. -/
structure Stopped (s : Service E) : Prop where
  noCycle : ∀ t, Reaches (Service.step sd) s t →
    ∀ fault, t.step sd (.probe (.snapshot fault)) = none
  noEffect : ∀ t t' fault, Reaches (Service.step sd) s t →
    t.step sd (.probe (.snapshot fault)) = some t' →
    ∀ u u' a, Reaches (Service.step sd) t' u → u.step sd (.probe a) = some u' →
      u'.sys.inner = u.sys.inner

variable {sd}

/-! ## What each step can do -/

/-- What becomes of the main task and the probe task in one step. -/
inductive TaskStep : Main → ProbeTask → Main → ProbeTask → Prop
  | same (m : Main) (p : ProbeTask) : TaskStep m p m p
  | bound (p : ProbeTask) : TaskStep .binding p .accepting (.running false)
  | bindFailed (p : ProbeTask) : TaskStep .binding p .returned p
  | acceptFailed (p : ProbeTask) : TaskStep .accepting p .returned p.abort
  | cancelled {m : Main} (p : ProbeTask) : m = .binding ∨ m = .accepting → TaskStep m p .cancelled p
  | probeCancelled (m : Main) : TaskStep m (.running true) m .cancelled

/-- **Inversion.**  A step moves the tasks, and the shared state moves by a step
of the running server or not at all. -/
theorem step_cases {s s' : Service E} {a : Act} (h : s.step sd a = some s') :
    TaskStep s.main s.probe s'.main s'.probe ∧
      (s'.sys = s.sys ∨ ∃ b, s.sys.step sd b = some s'.sys) := by
  cases a with
  | bound =>
      simp only [Service.step] at h
      split at h
      · next hm =>
          obtain rfl := Option.some.inj h
          rw [hm]
          exact ⟨.bound _, Or.inl rfl⟩
      · cases h
  | bindFails =>
      simp only [Service.step] at h
      split at h
      · next hm =>
          obtain rfl := Option.some.inj h
          rw [hm]
          exact ⟨.bindFailed _, Or.inl rfl⟩
      · cases h
  | accept peer =>
      simp only [Service.step] at h
      split at h
      · obtain rfl := Option.some.inj h
        exact ⟨.same _ _, Or.inl rfl⟩
      · cases h
  | acceptFails =>
      simp only [Service.step] at h
      split at h
      · next hm =>
          obtain rfl := Option.some.inj h
          rw [hm]
          exact ⟨.acceptFailed _, Or.inl rfl⟩
      · cases h
  | abort =>
      obtain rfl := Option.some.inj h
      exact ⟨.same _ _, Or.inl rfl⟩
  | cancelMain =>
      simp only [Service.step] at h
      split at h
      · next hm =>
          obtain rfl := Option.some.inj h
          exact ⟨.cancelled _ hm.2, Or.inl rfl⟩
      · cases h
  | serve i frame fault nowSecs =>
      simp only [Service.step] at h
      split at h
      · obtain ⟨sys, hsys, rfl⟩ := Option.map_eq_some_iff.mp h
        exact ⟨.same _ _, Or.inr ⟨_, hsys⟩⟩
      · cases h
  | hangUp i =>
      simp only [Service.step] at h
      split at h
      · obtain rfl := Option.some.inj h
        exact ⟨.same _ _, Or.inl rfl⟩
      · cases h
  | send i =>
      obtain ⟨sys, hsys, rfl⟩ := Option.map_eq_some_iff.mp h
      exact ⟨.same _ _, Or.inr ⟨_, hsys⟩⟩
  | probe a =>
      simp only [Service.step] at h
      split at h
      · obtain ⟨sys, hsys, rfl⟩ := Option.map_eq_some_iff.mp h
        rw [Sys.stepAlone] at hsys
        split at hsys
        · exact ⟨.same _ _, Or.inr ⟨_, hsys⟩⟩
        · cases hsys
      · cases h
  | cancelProbe =>
      simp only [Service.step] at h
      split at h
      · next hp =>
          obtain rfl := Option.some.inj h
          rw [hp.1]
          exact ⟨.probeCancelled _, Or.inl rfl⟩
      · cases h
  | tick d =>
      simp only [Service.step] at h
      obtain ⟨sys, hsys, rfl⟩ := Option.map_eq_some_iff.mp h
      exact ⟨.same _ _, Or.inr ⟨_, hsys⟩⟩

/-- **A spawned server runs the server**: what holds of every run of `Sys` holds
of the shared state, whatever becomes of the tasks. -/
theorem service_simulates :
    Simulates (Service.step sd) (Sys.step sd) (fun s t => s.sys = t) := by
  rintro s a s' t rfl h
  rcases (step_cases h).2 with hsame | ⟨b, hb⟩
  · exact ⟨s.sys, .refl, hsame⟩
  · exact ⟨s'.sys, .tail .refl hb, rfl⟩

/-! ## The two tasks -/

/-- The probe task exists once the listener is bound, and nobody has aborted it
while connections are accepted. -/
structure Attached (m : Main) (p : ProbeTask) : Prop where
  absent : m = .binding → p = .absent
  running : m = .accepting → p = .running false

/-- No probe task, and nobody left to spawn one. -/
structure Silent (m : Main) (p : ProbeTask) : Prop where
  absent : p = .absent
  bound : m ≠ .binding

section
variable {m m' : Main} {p p' : ProbeTask}

theorem Attached.step (h : Attached m p) (hstep : TaskStep m p m' p') : Attached m' p' := by
  obtain ⟨habsent, hrunning⟩ := h
  cases hstep with
  | same => exact ⟨habsent, hrunning⟩
  | bound => exact ⟨fun h => absurd h (by decide), fun _ => rfl⟩
  | bindFailed => exact ⟨fun h => absurd h (by decide), fun h => absurd h (by decide)⟩
  | acceptFailed => exact ⟨fun h => absurd h (by decide), fun h => absurd h (by decide)⟩
  | cancelled => exact ⟨fun h => absurd h (by decide), fun h => absurd h (by decide)⟩
  | probeCancelled =>
      refine ⟨fun h => ?_, fun h => ?_⟩
      · cases habsent h
      · cases hrunning h

theorem Silent.step (h : Silent m p) (hstep : TaskStep m p m' p') : Silent m' p' := by
  obtain ⟨rfl, hmain⟩ := h
  cases hstep with
  | same => exact ⟨rfl, hmain⟩
  | bound => exact absurd rfl hmain
  | bindFailed => exact absurd rfl hmain
  | acceptFailed => exact ⟨rfl, by decide⟩
  | cancelled => exact ⟨rfl, by decide⟩

end

theorem attached_of_reaches {inner : Inner} {clock : Instant} {s : Service E}
    (h : Reaches (Service.step sd) (Service.spawn inner clock) s) : Attached s.main s.probe :=
  h.invariant (J := fun s => Attached s.main s.probe)
    ⟨fun _ => rfl, fun h => by cases h⟩
    fun _ _ _ hs hstep => hs.step (step_cases hstep).1

/-- Without a probe task no cycle ever begins. -/
theorem stopped_of_silent {s : Service E} (hs : Silent s.main s.probe) : Stopped sd s := by
  have hnone : ∀ t, Reaches (Service.step sd) s t → ∀ a, t.step sd (.probe a) = none := by
    intro t ht a
    have hsilent : Silent t.main t.probe :=
      ht.invariant (J := fun t => Silent t.main t.probe) hs
        fun _ _ _ hu hstep => hu.step (step_cases hstep).1
    simp only [Service.step, hsilent.absent]
  refine ⟨fun t ht fault => hnone t ht _, fun t t' fault ht hbegin => ?_⟩
  rw [hnone t ht _] at hbegin
  cases hbegin

/-! ## A probe task that goes on -/

/-- The probe task can always finish the cycle it is in. -/
theorem exists_idle (s : Sys E) : ∃ t, Reaches (Sys.stepAlone sd) s t ∧ t.cycle = .idle := by
  have hremoving : ∀ {s : Sys E} {expired : List String}, s.cycle = .removing expired →
      ∃ t, Reaches (Sys.stepAlone sd) s t ∧ t.cycle = .idle := fun h =>
    ⟨_, removeLoop_alone (fun _ => none) _ h, rfl⟩
  have hprobing : ∀ {s : Sys E} {now : Instant} {nodes : List (NodeInfo E)}
      {expired : List String}, s.cycle = .probing now nodes expired →
      ∃ t, Reaches (Sys.stepAlone sd) s t ∧ t.cycle = .idle := by
    intro s now nodes expired h
    have hloop : Reaches (Sys.stepAlone sd) s _ := probeLoop_alone (fun _ => true) nodes expired h
    cases hexp : (probeLoop (fun _ => true) now nodes expired s.inner).1 with
    | nil =>
        rw [hexp] at hloop
        exact ⟨_, hloop.tail (show Sys.stepAlone sd _ .endLoop = some _ from rfl), rfl⟩
    | cons ip expired' =>
        rw [hexp] at hloop
        obtain ⟨t, ht, hidle⟩ := hremoving (s := { s with
          inner := (probeLoop (fun _ => true) now nodes expired s.inner).2
          cycle := .removing (ip :: expired') }) rfl
        exact ⟨t, (hloop.tail (show Sys.stepAlone sd _ .endLoop = some _ from rfl)).trans ht, hidle⟩
  cases hcycle : s.cycle with
  | idle => exact ⟨s, .refl, hcycle⟩
  | listed nodes =>
      have hnow : s.stepAlone sd .readNow
          = some { s with cycle := .probing s.clock nodes [] } := by
        simp only [Sys.stepAlone, Label.ofCycle, if_true, Sys.step, hcycle]
      obtain ⟨t, ht, hidle⟩ := hprobing (s := { s with cycle := .probing s.clock nodes [] }) rfl
      exact ⟨t, (Reaches.tail .refl hnow).trans ht, hidle⟩
  | probing now nodes expired => exact hprobing hcycle
  | probed now node ok nodes expired =>
      have hverdict : ∃ s' expired', s.stepAlone sd .applyVerdict = some s' ∧
          s'.cycle = .probing now nodes expired' := by
        simp only [Sys.stepAlone, Label.ofCycle, if_true, Sys.step, hcycle]
        exact ⟨_, _, rfl, rfl⟩
      obtain ⟨s', expired', hstep, hs'⟩ := hverdict
      obtain ⟨t, ht, hidle⟩ := hprobing hs'
      exact ⟨t, (Reaches.tail .refl hstep).trans ht, hidle⟩
  | removing expired => exact hremoving hcycle

/-- What the probe task does alone it does in the service. -/
theorem reaches_of_alone {s : Service E} {aborted : Bool} (hprobe : s.probe = .running aborted)
    {t : Sys E} (h : Reaches (Sys.stepAlone sd) s.sys t) :
    Reaches (Service.step sd) s { s with sys := t } := by
  induction h with
  | refl => exact .refl
  | @tail t t' a _ hstep ih =>
      refine .tail (a := .probe a) ih ?_
      simp only [Service.step, hprobe, hstep, Option.map_some]

/-- While the probe task runs, another cycle begins sooner or later. -/
theorem not_stopped_of_running {s : Service E} {aborted : Bool}
    (hprobe : s.probe = .running aborted) : ¬ Stopped sd s := by
  intro h
  obtain ⟨t, ht, hidle⟩ := @exists_idle _ sd s.sys
  have hnone := h.noCycle _ (reaches_of_alone hprobe ht) none
  simp only [Service.step, hprobe, Sys.stepAlone, Label.ofCycle, if_true, Sys.step, hidle,
    Option.map_eq_none_iff] at hnone
  split at hnone
  · cases hnone
  · cases hnone

end

/-- **Aborting a server stops its probing exactly if the main task was still
binding**: in every run, and whichever of its waits the cancellation strikes. -/
theorem cancelled_stops_iff {E : Type} (sd : Serde E) (inner : Inner) (clock : Instant)
    (s s' : Service E) (hrun : Reaches (Service.step sd) (Service.spawn inner clock) s)
    (hcancel : s.step sd .cancelMain = some s') :
    Stopped sd s' ↔ s.main = .binding := by
  have hattached := attached_of_reaches hrun
  simp only [Service.step] at hcancel
  split at hcancel
  · next hm =>
      obtain rfl := Option.some.inj hcancel
      rcases hm.2 with hbinding | haccepting
      · exact iff_of_true (stopped_of_silent ⟨hattached.absent hbinding, by simp⟩) hbinding
      · refine iff_of_false (not_stopped_of_running (hattached.running haccepting)) ?_
        rw [haccepting]
        decide
  · cases hcancel

/-- A server aborted before it was polled. -/
theorem cancelled_stops_iff_unpolled :
    Stopped unitSerde { (Service.spawn (Inner.empty 10) 0 : Service Unit) with
      main := .cancelled, aborted := true } :=
  (cancelled_stops_iff unitSerde (Inner.empty 10) 0
    { Service.spawn (Inner.empty 10) 0 with aborted := true } _
    (.tail (a := .abort) .refl rfl) rfl).mpr rfl

/-- A node registers, and the server is aborted. -/
def servedThenAborted : List Act :=
  [.bound, .accept "10.0.0.7", .serve 0 (registerFrame 9001) none 0, .abort]

/-- The cycle after that finds the node silent for too long. -/
def laterCycle : List Act :=
  [.tick 20, .probe (.snapshot none), .probe .readNow, .probe (.probeDone false),
    .probe .applyVerdict, .probe .endLoop, .probe (.removeNext none)]

/-- A cancelled server goes on probing and deletes the node. -/
theorem cancelled_probes_on :
    ∃ s s' u : Service Unit,
      exec (Service.step unitSerde) (Service.spawn (Inner.empty 10) 0) servedThenAborted = some s ∧
      s.step unitSerde .cancelMain = some s' ∧ ¬ Stopped unitSerde s' ∧
      exec (Service.step unitSerde) s' laterCycle = some u ∧
      (s'.sys.inner.store.lookup "10.0.0.7").isSome ∧
      u.sys.inner.store.lookup "10.0.0.7" = none := by
  refine ⟨_, _, _, rfl, rfl, @not_stopped_of_running _ _ _ false rfl, rfl, ?_, ?_⟩
  · decide
  · decide

end Proto4.Dfinder
