/-
# `Proto4.Dfinder.Leases` — the registry as a family of leases

What the server is for, without its tasks: a node that registers is granted a
lease, every probe cycle checks it, and a restart keeps it.  `Job` is what the
server does between two moments at which it does nothing — one registration, one
whole probe cycle, one restart — and `Inner.perform` is the code that does it.

Seen at one ip, any sequence of jobs is the sequence of events of one lease, and
no job at another ip shows (`leaseAt_serve`).  So whom a query lists after any
history follows from that history (`listed_iff`).  Every history is one of the
running server (`serve_reached`); what happens when jobs overlap is not said
here but in `Races`.
-/
import Proto4.Dfinder.Cycle
import Proto4.Lib.Lease

namespace Proto4.Dfinder

open Lts

section
variable {E : Type} (sd : Serde E)

/-! ## Jobs -/

inductive Job (E : Type)
  /-- a registration is handled -/
  | register (peer : String) (frame : TinyFrame.Frame) (fault : Option StoreError) (nowSecs : Int)
  /-- a probe cycle, whose removals go through -/
  | cycle (fault : Option StoreError) (probe : NodeInfo E → Bool)
  | restart (fault : Option StoreError)

/-- What a job does to the shared state; a restart that cannot read the table
does not come about. -/
def Inner.perform (now : Instant) (g : Inner) : Job E → Inner
  | .register peer frame fault nowSecs => (handleRegister sd peer frame fault nowSecs now g).2
  | .cycle fault probe => (runProbeCycle sd fault (fun _ => none) probe now g).2
  | .restart fault =>
      match Server.new sd fault g.store g.offlineTtl now with
      | .ok g' => g'
      | .error _ => g

/-- Jobs, each after a while. -/
def serve : Instant → Inner → List (Duration × Job E) → Instant × Inner
  | now, g, [] => (now, g)
  | now, g, (wait, job) :: jobs => serve (now + wait) (g.perform sd (now + wait) job) jobs

/-- What a job is to the lease of `ip`. -/
def Job.event (ip : String) : Job E → Option (Lease.Event (NodeInfo E))
  | .register peer frame fault _ =>
      (registering sd peer frame fault).bind fun node =>
        if node.ip = ip then some (.grant node) else none
  | .cycle fault probe => if fault = none then some (.check probe) else none
  | .restart fault => if fault = none then some .restart else none

/-- The history of the lease of `ip`. -/
def leaseEvents (ip : String) : Instant → List (Duration × Job E) →
    List (Instant × Lease.Event (NodeInfo E))
  | _, [] => []
  | now, (wait, job) :: jobs =>
      ((job.event sd ip).map fun e => (now + wait, e)).toList ++ leaseEvents ip (now + wait) jobs

/-- The lease that the registry holds for `ip`. -/
def leaseAt (g : Inner) (ip : String) : Option (Lease.Held (NodeInfo E)) :=
  (stored sd g.store ip).bind fun n => (g.health ip).map fun x => ⟨n, x.healthy, x.lastOk⟩

/-- Table and health map agree, and every row reads back. -/
structure Whole (g : Inner) : Prop where
  sync : ∀ ip, (g.store.lookup ip).isSome ↔ (g.health ip).isSome
  readable : ∀ ip, (g.store.lookup ip).isSome → (stored sd g.store ip : Option (NodeInfo E)).isSome

variable {sd}

theorem whole_empty (offlineTtl : Duration) : Whole sd (Inner.empty offlineTtl) where
  sync _ := Iff.rfl
  readable _ h := by cases h

/-- An ip is empty, or it has a node and an entry. -/
theorem Whole.cases {g : Inner} (h : Whole sd g) (ip : String) :
    (g.store.lookup ip = none ∧ g.health ip = none ∧ leaseAt sd g ip = none) ∨
      ∃ n x, stored sd g.store ip = some n ∧ g.health ip = some x ∧
        leaseAt sd g ip = some ⟨n, x.healthy, x.lastOk⟩ := by
  cases hrow : g.store.lookup ip with
  | none =>
      refine Or.inl ⟨rfl, ?_, ?_⟩
      · cases hx : g.health ip with
        | none => rfl
        | some x =>
            have := (h.sync ip).mpr (by rw [hx]; rfl)
            rw [hrow] at this
            cases this
      · rw [leaseAt, stored, hrow]
        rfl
  | some row =>
      have hsome : (g.store.lookup ip).isSome := by rw [hrow]; rfl
      obtain ⟨n, hn⟩ := Option.isSome_iff_exists.mp (h.readable ip hsome)
      obtain ⟨x, hx⟩ := Option.isSome_iff_exists.mp ((h.sync ip).mp hsome)
      refine Or.inr ⟨n, x, hn, hx, ?_⟩
      rw [leaseAt, hn, hx]
      rfl

/-! ## One job, at one ip -/

/-- What a job does: the two stores stay in step, and the lease at every ip makes
the step of its event. -/
structure Performs (sd : Serde E) (now : Instant) (job : Job E) (g g' : Inner) : Prop where
  whole : Whole sd g'
  offlineTtl : g'.offlineTtl = g.offlineTtl
  lease : ∀ ip, leaseAt sd g' ip = match job.event sd ip with
    | some e => Lease.step g.offlineTtl (leaseAt sd g ip) (now, e)
    | none => leaseAt sd g ip

/-- A job that is no event to anyone. -/
theorem performs_nothing {now : Instant} {job : Job E} {g : Inner} (hg : Whole sd g)
    (hnone : ∀ ip, job.event sd ip = none) : Performs sd now job g g where
  whole := hg
  offlineTtl := rfl
  lease ip := by rw [hnone ip]

theorem performs_registered (hsd : sd.ColumnsRoundTrip) {now : Instant} {g : Inner}
    (hg : Whole sd g) {peer : String} {frame : TinyFrame.Frame} {nowSecs : Int} {node : NodeInfo E}
    (hreg : registering sd peer frame none = some node) {row : NodeRow}
    (hrow : rowOfNode sd nowSecs node = .ok row) :
    Performs sd now (.register peer frame none nowSecs) g
      { g with
        store := g.store.upsert row
        health := Function.update g.health node.ip (some ⟨true, now⟩) } where
  whole := by
    refine ⟨fun ip => ?_, fun ip hsome => ?_⟩
    · rw [Keyed.Table.lookup_upsert, ip_of_rowOfNode hrow]
      rcases eq_or_ne ip node.ip with rfl | hne
      · simp
      · simp only [hne, if_false, Function.update_of_ne hne]
        exact hg.sync ip
    · rw [Keyed.Table.lookup_upsert, ip_of_rowOfNode hrow] at hsome
      rw [stored_upsert hsd hrow]
      split
      · rfl
      · next hne =>
          rw [if_neg hne] at hsome
          exact hg.readable ip hsome
  offlineTtl := rfl
  lease ip := by
    have hevent : (Job.register peer frame none nowSecs : Job E).event sd ip
        = if node.ip = ip then some (.grant node) else none := by
      rw [Job.event, hreg, Option.bind_some]
    rw [hevent, leaseAt, stored_upsert hsd hrow]
    dsimp only
    rcases eq_or_ne node.ip ip with rfl | hne
    · rw [if_pos rfl, if_pos rfl, Function.update_self]
      cases leaseAt sd g node.ip <;> rfl
    · rw [if_neg hne.symm, if_neg hne, Function.update_of_ne hne.symm]
      rfl

/-- A cycle whose statements all go through. -/
theorem runProbeCycle_eq {probe : NodeInfo E → Bool} {now : Instant} {g : Inner}
    {nodes : List (NodeInfo E)} (hlist : listAll sd none g.store = .ok nodes) :
    (runProbeCycle sd none (fun _ => none) probe now g).2
      = (probeLoop probe now nodes [] g).2.without
          ((nodes.filter (expires probe now g)).map NodeInfo.ip) := by
  have hloop := @removeLoop_append (fun _ => none)
    ((nodes.filter (expires probe now g)).map NodeInfo.ip) (fun _ _ => rfl) []
    (probeLoop probe now nodes [] g).2
  rw [List.append_nil] at hloop
  rw [runProbeCycle, hlist]
  dsimp only
  rw [probeLoop_expired (nodup_listAll hlist), List.nil_append]
  split
  · next hempty =>
      rw [List.isEmpty_iff.mp hempty]
      rfl
  · rw [hloop]
    rfl

/-- Who is removed: a node that fails its probe when its last success is too old. -/
theorem mem_lapsed_iff {probe : NodeInfo E → Bool} {now : Instant} {g : Inner}
    {nodes : List (NodeInfo E)} (hlist : listAll sd none g.store = .ok nodes) {ip : String}
    {n : NodeInfo E} {x : HealthState} (hn : stored sd g.store ip = some n)
    (hx : g.health ip = some x) :
    ip ∈ (nodes.filter (expires probe now g)).map NodeInfo.ip ↔
      probe n = false ∧ g.offlineTtl ≤ now - x.lastOk := by
  have hexp : expires probe now g n = true ↔ probe n = false ∧ g.offlineTtl ≤ now - x.lastOk := by
    rw [expires, applyVerdict_expired, ip_of_stored hn, hx]
    rfl
  rw [← hexp]
  constructor
  · intro hmem
    obtain ⟨m, hm, hip⟩ := List.mem_map.mp hmem
    obtain ⟨hmem, hm⟩ := List.mem_filter.mp hm
    have hstored := (mem_listAll hlist).mp hmem
    rw [hip, hn] at hstored
    obtain rfl := Option.some.inj hstored
    exact hm
  · intro h
    refine List.mem_map.mpr ⟨n, List.mem_filter.mpr ⟨(mem_listAll hlist).mpr ?_, h⟩,
      ip_of_stored hn⟩
    rw [ip_of_stored hn]
    exact hn

/-- At `ip` the two stores agree and show the lease `l`. -/
structure Shows (sd : Serde E) (g : Inner) (ip : String) (l : Option (Lease.Held (NodeInfo E))) :
    Prop where
  lease : leaseAt sd g ip = l
  sync : (g.store.lookup ip).isSome ↔ (g.health ip).isSome
  readable : (g.store.lookup ip).isSome → (stored sd g.store ip : Option (NodeInfo E)).isSome

theorem shows_none {g : Inner} {ip : String} (hrow : g.store.lookup ip = none)
    (hx : g.health ip = none) : Shows sd g ip none where
  lease := by
    rw [leaseAt, stored, hrow]
    rfl
  sync := by
    rw [hrow, hx]
    exact Iff.rfl
  readable h := by
    rw [hrow] at h
    cases h

theorem shows_some {g : Inner} {ip : String} {n : NodeInfo E} {x : HealthState}
    (hn : stored sd g.store ip = some n) (hx : g.health ip = some x) :
    Shows sd g ip (some ⟨n, x.healthy, x.lastOk⟩) where
  lease := by
    rw [leaseAt, hn, hx]
    rfl
  sync := by
    obtain ⟨row, hrow, _⟩ := stored_eq_some.mp hn
    rw [hrow, hx]
    exact Iff.rfl
  readable _ := by
    rw [hn]
    rfl

/-- A node that is kept is judged, which is what a check does to its lease. -/
theorem check_of_kept {probe : NodeInfo E → Bool} {ttl : Duration} {now : Instant} {n : NodeInfo E}
    {x : HealthState} (h : ¬ (probe n = false ∧ ttl ≤ now - x.lastOk)) :
    Lease.step ttl (some ⟨n, x.healthy, x.lastOk⟩) (now, .check probe)
      = some ⟨n, probe n, if probe n then now else x.lastOk⟩ := by
  rw [Lease.step]
  cases hprobe : probe n with
  | true => rfl
  | false =>
      have hyoung : ¬ ttl ≤ now - x.lastOk := fun hold => h ⟨hprobe, hold⟩
      rw [if_neg Bool.false_ne_true, if_neg hyoung]
      rfl

/-- What a cycle leaves at an ip is what a check leaves of its lease. -/
theorem shows_of_concluded {probe : NodeInfo E → Bool} {now : Instant} {g g' : Inner}
    (hg : Whole sd g) {nodes : List (NodeInfo E)} (hlist : listAll sd none g.store = .ok nodes)
    (h : Concluded sd probe now ((nodes.filter (expires probe now g)).map NodeInfo.ip) g g')
    (ip : String) :
    Shows sd g' ip (Lease.step g.offlineTtl (leaseAt sd g ip) (now, .check probe)) := by
  -- there is nothing at the ip, or a node that is removed, or one that is judged
  rcases hg.cases ip with ⟨hrow, _, hlease⟩ | ⟨n, x, hn, hx, hlease⟩
  · rw [hlease]
    refine shows_none ?_ (h.nothing ip hrow)
    rw [h.row, hrow]
    exact ite_self none
  · have hiff := @mem_lapsed_iff E sd probe now g nodes hlist ip n x hn hx
    rw [hlease]
    by_cases hip : ip ∈ (nodes.filter (expires probe now g)).map NodeInfo.ip
    · obtain ⟨hfail, hold⟩ := hiff.mp hip
      have hlapsed : Lease.step g.offlineTtl (some ⟨n, x.healthy, x.lastOk⟩) (now, .check probe)
          = none := by
        rw [Lease.step, hfail, if_neg Bool.false_ne_true, if_pos hold]
      rw [hlapsed]
      refine shows_none ?_ (h.gone ip hip)
      rw [h.row, if_pos hip]
    · rw [check_of_kept fun hexp => hip (hiff.mpr hexp)]
      refine shows_some ?_ (h.kept ip hip n x hn hx)
      rw [stored, h.row, if_neg hip]
      exact hn

theorem performs_cycle {now : Instant} {g : Inner} (hg : Whole sd g) (probe : NodeInfo E → Bool) :
    Performs sd now (.cycle none probe) g
      (runProbeCycle sd none (fun _ => none) probe now g).2 := by
  obtain ⟨nodes, hlist⟩ := listAll_of_stored hg.readable
  have hconc : Concluded sd probe now ((nodes.filter (expires probe now g)).map NodeInfo.ip) g _ :=
    concluded_without hlist hg.sync _
  rw [← runProbeCycle_eq hlist] at hconc
  have hshows := shows_of_concluded hg hlist hconc
  exact ⟨⟨fun ip => (hshows ip).sync, fun ip => (hshows ip).readable⟩, hconc.offlineTtl,
    fun ip => (hshows ip).lease⟩

theorem performs_restart {now : Instant} {g g' : Inner} (hg : Whole sd g)
    (hnew : Server.new sd none g.store g.offlineTtl now = .ok g') :
    Performs sd now (.restart none) g g' := by
  obtain ⟨nodes, hlist, rfl⟩ := new_ok_iff.mp hnew
  have hentry : ∀ ip, (if ip ∈ nodes.map NodeInfo.ip then some (⟨false, now⟩ : HealthState) else none)
      = if (g.store.lookup ip).isSome then some ⟨false, now⟩ else none := by
    intro ip
    simp only [isSome_lookup_of_listAll hlist]
  refine ⟨⟨fun ip => ?_, hg.readable⟩, rfl, fun ip => ?_⟩
  · dsimp only
    rw [hentry]
    split
    · next h => exact iff_of_true h rfl
    · next h => exact iff_of_false h (fun hn => by cases hn)
  · show leaseAt sd _ ip = Lease.step g.offlineTtl (leaseAt sd g ip) (now, .restart)
    rw [leaseAt]
    dsimp only
    rw [hentry]
    rcases hg.cases ip with ⟨hrow, _, hlease⟩ | ⟨n, x, hn, hx, hlease⟩
    · rw [hlease, stored, hrow]
      rfl
    · have hsome : (g.store.lookup ip).isSome := (hg.sync ip).mpr (by rw [hx]; rfl)
      rw [hlease, hn, if_pos hsome]
      rfl

/-- **Every job is an event of a lease, at every ip.** -/
theorem performs (hsd : sd.ColumnsRoundTrip) {g : Inner} (hg : Whole sd g) (now : Instant)
    (job : Job E) : Performs sd now job g (g.perform sd now job) := by
  cases job with
  | register peer frame fault nowSecs =>
      rw [Inner.perform]
      rcases handleRegister_cases sd peer frame fault nowSecs now g with
        ⟨node, row, _, rfl, hrow, heq, hreg⟩ | ⟨result, heq, _, hreg, _⟩
      · rw [heq]
        exact performs_registered hsd hg hreg hrow
      · rw [heq]
        refine performs_nothing hg fun ip => ?_
        rw [Job.event, hreg]
        rfl
  | cycle fault probe =>
      cases fault with
      | none => exact performs_cycle hg probe
      | some e =>
          have hsame : g.perform sd now (.cycle (some e) probe) = g := rfl
          rw [hsame]
          exact performs_nothing hg fun _ => rfl
  | restart fault =>
      cases fault with
      | none =>
          obtain ⟨nodes, hlist⟩ := listAll_of_stored hg.readable
          have hnew : Server.new sd none g.store g.offlineTtl now = .ok _ :=
            new_ok_iff.mpr ⟨nodes, hlist, rfl⟩
          rw [Inner.perform, hnew]
          exact performs_restart hg hnew
      | some e =>
          have hsame : g.perform sd now (.restart (some e)) = g := rfl
          rw [hsame]
          exact performs_nothing hg fun _ => rfl

/-! ## Any sequence of jobs -/

/-- The run lemma: at every ip the jobs are the events of one lease. -/
theorem serve_performs (hsd : sd.ColumnsRoundTrip) {jobs : List (Duration × Job E)} {now : Instant}
    {g : Inner} (hg : Whole sd g) :
    Whole sd (serve sd now g jobs).2 ∧ (serve sd now g jobs).2.offlineTtl = g.offlineTtl ∧
      ∀ ip, leaseAt sd (serve sd now g jobs).2 ip
        = (leaseEvents sd ip now jobs).foldl (Lease.step g.offlineTtl) (leaseAt sd g ip) := by
  induction jobs generalizing now g with
  | nil => exact ⟨hg, rfl, fun _ => rfl⟩
  | cons job jobs ih =>
      obtain ⟨wait, job⟩ := job
      have hjob := performs hsd hg (now + wait) job
      obtain ⟨hwhole, httl, hlease⟩ := @ih (now + wait) _ hjob.whole
      rw [serve]
      refine ⟨hwhole, httl.trans hjob.offlineTtl, fun ip => ?_⟩
      rw [hlease ip, hjob.offlineTtl, hjob.lease ip, leaseEvents, List.foldl_append]
      cases job.event sd ip with
      | none => rfl
      | some e => rfl

/-- A run of the probe task alone is a run. -/
theorem reaches_of_reachesAlone {s t : Sys E} (h : Reaches (Sys.stepAlone sd) s t) :
    Reaches (Sys.step sd) s t := by
  induction h with
  | refl => exact .refl
  | @tail t t' a _ hstep ih =>
      rw [Sys.stepAlone] at hstep
      split at hstep
      · exact ih.tail hstep
      · cases hstep

/-- The running server can do a job, if it does nothing else. -/
theorem perform_reached (s : Sys E) (hidle : s.cycle = .idle) (job : Job E) :
    ∃ s', Reaches (Sys.step sd) s s' ∧ s'.inner = s.inner.perform sd s.clock job ∧
      s'.clock = s.clock ∧ s'.cycle = .idle := by
  cases job with
  | register peer frame fault nowSecs =>
      have hstep : s.step sd (.frame peer { frame with messageType := msgRegister } fault nowSecs)
          = some { s with
              inner := s.inner.perform sd s.clock (.register peer frame fault nowSecs)
              outbox := s.outbox ++ outgoing peer
                (handleRegister sd peer frame fault nowSecs s.clock s.inner).1 } := by
        have hlock : s.cycle.holdsLock = false := by rw [hidle]; rfl
        simp only [Sys.step, hlock, handleFrame, if_true, Bool.false_eq_true, if_false]
        rfl
      exact ⟨_, .tail .refl hstep, rfl, rfl, hidle⟩
  | cycle fault probe =>
      exact ⟨_, reaches_of_reachesAlone (runProbeCycle_alone fault (fun _ => none) probe hidle), rfl, rfl,
        hidle⟩
  | restart fault =>
      cases hnew : Server.new sd fault s.inner.store s.inner.offlineTtl s.clock with
      | ok g' =>
          have hstep : s.step sd (.restart fault)
              = some { inner := g', clock := s.clock, cycle := .idle, outbox := [] } := by
            simp only [Sys.step, hnew]
          refine ⟨_, .tail .refl hstep, ?_, rfl, rfl⟩
          rw [Inner.perform, hnew]
      | error e =>
          refine ⟨s, .refl, ?_, rfl, hidle⟩
          rw [Inner.perform, hnew]

/-- Any sequence of jobs is a run of the server. -/
theorem serve_reached {jobs : List (Duration × Job E)} {s : Sys E} (hidle : s.cycle = .idle) :
    ∃ s', Reaches (Sys.step sd) s s' ∧ (s'.clock, s'.inner) = serve sd s.clock s.inner jobs ∧
      s'.cycle = .idle := by
  induction jobs generalizing s with
  | nil => exact ⟨s, .refl, rfl, hidle⟩
  | cons job jobs ih =>
      obtain ⟨wait, job⟩ := job
      have htick : s.step sd (.tick wait) = some { s with clock := s.clock + wait } := rfl
      obtain ⟨t, ht, hinner, hclock, htidle⟩ :=
        @perform_reached E sd { s with clock := s.clock + wait } hidle job
      obtain ⟨s', hs', heq, hs'idle⟩ := ih htidle
      refine ⟨s', (Reaches.tail .refl htick).trans (ht.trans hs'), ?_, hs'idle⟩
      rw [heq, serve, hinner, hclock]

/-- **The registry is a family of leases.**  From any state that is whole, any
sequence of registrations, probe cycles whose removals go through, and restarts
does at every ip what its own events do to one lease, and the running server can
do that sequence. -/
theorem serve_refines (sd : Serde E) (hsd : sd.ColumnsRoundTrip) (now : Instant) (g : Inner)
    (hg : Whole sd g) (jobs : List (Duration × Job E)) :
    Whole sd (serve sd now g jobs).2 ∧
    (∀ ip, leaseAt sd (serve sd now g jobs).2 ip
      = (leaseEvents sd ip now jobs).foldl (Lease.step g.offlineTtl) (leaseAt sd g ip)) ∧
    ∃ s, Reaches (Sys.step sd) (Sys.start g now) s ∧
      (s.clock, s.inner) = serve sd now g jobs ∧ s.cycle = .idle := by
  obtain ⟨hwhole, _, hlease⟩ := @serve_performs E sd hsd jobs now g hg
  exact ⟨hwhole, hlease, serve_reached (s := Sys.start g now) rfl⟩

/-- What a lease says of the two stores. -/
theorem leaseAt_eq_some {g : Inner} {ip : String} {h : Lease.Held (NodeInfo E)} :
    leaseAt sd g ip = some h ↔ stored sd g.store ip = some h.value ∧
      g.health ip = some ⟨h.live, h.since⟩ := by
  rw [leaseAt, Option.bind_eq_some_iff]
  constructor
  · rintro ⟨n, hn, hmap⟩
    obtain ⟨x, hx, rfl⟩ := Option.map_eq_some_iff.mp hmap
    exact ⟨hn, hx⟩
  · rintro ⟨hn, hx⟩
    exact ⟨h.value, hn, by rw [hx]; rfl⟩

/-- `n` holds a lease after a history: it was granted, and never again, and no
check of it failed `ttl` after the last success. -/
structure Holds (ttl : Duration) (history : List (Instant × Lease.Event (NodeInfo E)))
    (n : NodeInfo E) (live : Bool) : Prop where
  granted : ∃ older t newer, history = older ++ (t, .grant n) :: newer ∧ Lease.NoGrant newer ∧
    Lease.Unlapsed ttl n t newer ∧ live = Lease.lastLeaves n true newer

theorem holds_iff {ttl : Duration} {history : List (Instant × Lease.Event (NodeInfo E))}
    {n : NodeInfo E} {live : Bool} :
    Holds ttl history n live ↔ ∃ since, Lease.run ttl history = some ⟨n, live, since⟩ := by
  constructor
  · rintro ⟨older, t, newer, heq, hno, hun, hlive⟩
    exact ⟨Lease.lastRenewal n t newer,
      Lease.run_eq_some_iff.mpr ⟨older, t, newer, heq, hno, hun, hlive, rfl⟩⟩
  · rintro ⟨since, h⟩
    obtain ⟨older, t, newer, heq, hno, hun, hlive, _⟩ := Lease.run_eq_some_iff.mp h
    exact ⟨older, t, newer, heq, hno, hun, hlive⟩

/-- **Whom a query lists**, after any history of a server that started on an empty
database: the nodes that registered under all the labels asked for, have not
since failed a probe `offline_ttl` after their last success or the last restart,
and passed the last probe since they registered and since the last restart.  The
table holds those that meet the first two. -/
theorem listed_iff (sd : Serde E) (hsd : sd.ColumnsRoundTrip) (offlineTtl : Duration)
    (now : Instant) (jobs : List (Duration × Job E)) (labels : List String) :
    (∀ n, stored sd (serve sd now (Inner.empty offlineTtl) jobs).2.store n.ip = some n ↔
      ∃ live, Holds offlineTtl (leaseEvents sd n.ip now jobs) n live) ∧
    ∃ nodes, (serve sd now (Inner.empty offlineTtl) jobs).2.healthyNodes sd none labels
        = .ok nodes ∧ (nodes.map NodeInfo.ip).Nodup ∧
      ∀ n, n ∈ nodes ↔ (∀ l ∈ labels, l ∈ n.labels) ∧
        Holds offlineTtl (leaseEvents sd n.ip now jobs) n true := by
  obtain ⟨hwhole, _, hlease⟩ := @serve_performs E sd hsd jobs now _ (whole_empty offlineTtl)
  have hrun : ∀ ip, leaseAt sd (serve sd now (Inner.empty offlineTtl) jobs).2 ip
      = Lease.run offlineTtl (leaseEvents sd ip now jobs) := fun ip => hlease ip
  have hholds : ∀ n live, Holds offlineTtl (leaseEvents sd n.ip now jobs) n live ↔
      stored sd (serve sd now (Inner.empty offlineTtl) jobs).2.store n.ip = some n ∧
        ∃ since, (serve sd now (Inner.empty offlineTtl) jobs).2.health n.ip
          = some ⟨live, since⟩ := by
    intro n live
    rw [holds_iff, ← hrun]
    constructor
    · rintro ⟨since, h⟩
      obtain ⟨hn, hx⟩ := leaseAt_eq_some.mp h
      exact ⟨hn, since, hx⟩
    · rintro ⟨hn, since, hx⟩
      exact ⟨since, leaseAt_eq_some.mpr ⟨hn, hx⟩⟩
  obtain ⟨all, hall⟩ := listAll_of_stored hwhole.readable
  have hok : (serve sd now (Inner.empty offlineTtl) jobs).2.healthyNodes sd none labels = .ok _ :=
    healthyNodes_ok_iff.mpr ⟨all, hall, rfl⟩
  refine ⟨fun n => ?_, _, hok, nodup_healthyNodes hok, fun n => ?_⟩
  · simp only [hholds]
    constructor
    · intro hn
      obtain ⟨row, hrow, _⟩ := stored_eq_some.mp hn
      obtain ⟨x, hx⟩ := Option.isSome_iff_exists.mp ((hwhole.sync n.ip).mp (by rw [hrow]; rfl))
      exact ⟨x.healthy, hn, x.lastOk, hx⟩
    · rintro ⟨_, hn, _⟩
      exact hn
  · rw [mem_healthyNodes hok, hholds]
    constructor
    · rintro ⟨hn, hlabels, hhealthy⟩
      obtain ⟨x, hx, hlive⟩ := Option.map_eq_some_iff.mp hhealthy
      exact ⟨hlabels, hn, x.lastOk, by rw [hx, ← hlive]⟩
    · rintro ⟨hlabels, hn, since, hx⟩
      exact ⟨hn, hlabels, by rw [hx]; rfl⟩

end

/-! A registration, a failed probe, and one that succeeds. -/

def oneDay : List (Duration × Job Unit) :=
  [(3, .register "10.0.0.7" (registerFrame 9001) none 0), (4, .cycle none fun _ => false),
    (4, .cycle none fun _ => true)]

/-- The same registration, and a long silence. -/
def oneNight : List (Duration × Job Unit) :=
  [(3, .register "10.0.0.7" (registerFrame 9001) none 0), (8, .cycle none fun _ => false)]

theorem whole_twoNodes : Whole unitSerde twoNodes where
  sync := twoNodes_sync
  readable ip h := by
    rw [twoNodes] at h ⊢
    rw [Keyed.Table.lookup_upsert, Keyed.Table.lookup_upsert] at h
    rw [stored, Keyed.Table.lookup_upsert, Keyed.Table.lookup_upsert]
    dsimp only at h ⊢
    split
    · rfl
    · next hne =>
        rw [if_neg hne] at h
        split
        · rfl
        · next hne' =>
            rw [if_neg hne'] at h
            cases h

/-- Of two nodes the one that registered anew is kept by a cycle that removes the other. -/
theorem serve_refines_two :
    leaseAt unitSerde (serve unitSerde 8 twoNodes oneNight).2 "10.0.0.8" = none ∧
    (leaseAt unitSerde (serve unitSerde 8 twoNodes oneNight).2 "10.0.0.7").isSome := by
  obtain ⟨_, hlease, _⟩ := serve_refines unitSerde unitSerde_roundTrips 8 twoNodes whole_twoNodes
    oneNight
  rw [hlease, hlease]
  exact ⟨rfl, rfl⟩

theorem listed_iff_one : ∃ nodes,
    (serve unitSerde 0 (Inner.empty 10) oneDay).2.healthyNodes unitSerde none ["api"] = .ok nodes ∧
    ⟨"10.0.0.7", 9001, ["api"], ()⟩ ∈ nodes := by
  obtain ⟨_, nodes, hok, _, hmem⟩ := listed_iff unitSerde unitSerde_roundTrips 10 0 oneDay ["api"]
  refine ⟨nodes, hok, (hmem _).mpr ⟨fun l hl => hl, ?_⟩⟩
  refine ⟨[], 3, [(7, .check fun _ => false), (11, .check fun _ => true)], rfl, ?_, ?_, rfl⟩
  · intro t v hmem
    simp at hmem
  · rw [Lease.unlapsed_cons, Lease.unlapsed_cons]
    refine ⟨?_, ?_, Lease.unlapsed_nil _ _ _⟩
    · intro t passes heq _
      obtain ⟨rfl, _⟩ := Prod.mk.inj heq
      decide
    · intro t passes heq hfail
      obtain ⟨rfl, rfl⟩ : 11 = t ∧ (fun _ => true) = passes := by simpa using heq
      cases hfail

end Proto4.Dfinder
