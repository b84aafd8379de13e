/-
# `Proto4.Dfinder.Races` — where a probe cycle meets a registration

A cycle decides on a snapshot and acts later, under other lock acquisitions,
while registrations keep arriving.  Three things one would like to hold of
every run depend on nothing arriving in between, and each section says exactly
on what:

* a node is removed only while it is unhealthy and stale, and never after a
  registration that followed its failing probe — unless it registered again
  after the verdict that condemned it or, where `offline_ttl` is zero, between
  probe and verdict (`removal_stale_iff`);
* the flag of a node is the outcome of the latest event about its present
  registration — unless a failing verdict on an earlier one is applied to it
  (`flag_iff`);
* the success clock of a node never goes back — unless a verdict stamps it
  with the start of a cycle that began before its last registration
  (`lastOk_iff`).

Each is an equivalence along whole schedules: a run has the property exactly
when no transition of it is of the kind named.  The schedules after each
theorem are the shortest on which it fails.
-/
import Proto4.Dfinder.Consistent

namespace Proto4.Dfinder

open Lts

section
variable {E : Type} {sd : Serde E}

/-- No time in the state is ahead of the clock. -/
structure Clocked (s : Sys E) : Prop where
  past : ∀ ip h, s.inner.health ip = some h → h.lastOk ≤ s.clock
  begun : ∀ now, s.cycle.now? = some now → now ≤ s.clock

/-- A failing verdict leaves a clock that is not ahead of the clock. -/
theorem Clocked.getD {s : Sys E} (h : Clocked s) {now : Instant} (hnow : now ≤ s.clock)
    (ip : String) : ((s.inner.health ip).getD ⟨false, now⟩).lastOk ≤ s.clock := by
  cases hx : s.inner.health ip with
  | none => exact hnow
  | some x => exact h.past ip x hx

/-- An entry that a start makes is as of the start. -/
theorem lastOk_of_start {listed : Prop} [Decidable listed] {now : Instant} {x : HealthState}
    (h : (if listed then some (⟨false, now⟩ : HealthState) else none) = some x) :
    x.lastOk ≤ now := by
  split at h
  · obtain rfl := Option.some.inj h
    exact Nat.le_refl _
  · cases h

theorem Clocked.trans {s s' : Sys E} {a : Label} {es : List (Event E)} (h : Clocked s)
    (ht : Trans sd s a s' es) : Clocked s' := by
  cases ht with
  | tick d =>
      constructor
      · intro ip x hx
        exact Nat.le_add_right_of_le (h.past ip x hx)
      · intro now hnow
        exact Nat.le_add_right_of_le (h.begun now hnow)
  | registered _ _ _ _ =>
      refine ⟨?_, h.begun⟩
      intro ip x hx
      rcases update_eq_some.mp hx with ⟨_, hx⟩ | ⟨_, hx⟩
      · obtain rfl := Option.some.inj hx
        exact Nat.le_refl _
      · exact h.past ip x hx
  | answered _ _ => exact ⟨h.past, h.begun⟩
  | sent _ => exact ⟨h.past, h.begun⟩
  | listed _ _ => exact ⟨h.past, nofun⟩
  | notListed => exact h
  | began _ =>
      refine ⟨h.past, ?_⟩
      intro now hnow
      obtain rfl := Option.some.inj hnow
      exact Nat.le_refl _
  | probed _ hcycle =>
      refine ⟨h.past, ?_⟩
      intro now hnow
      exact h.begun now (by rw [hcycle]; exact hnow)
  | @verdict now node ok nodes expired hcycle =>
      have hnow : now ≤ s.clock := h.begun now (by rw [hcycle]; rfl)
      constructor
      · intro ip x hx
        rw [applyVerdict_health] at hx
        rcases update_eq_some.mp hx with ⟨_, hx⟩ | ⟨_, hx⟩
        · obtain rfl := Option.some.inj hx
          cases ok with
          | true => exact hnow
          | false => exact h.getD hnow node.ip
        · exact h.past ip x hx
      · intro now' hnow'
        obtain rfl : now = now' := Option.some.inj hnow'
        exact hnow
  | ended _ => exact ⟨h.past, nofun⟩
  | locked _ => exact ⟨h.past, nofun⟩
  | removed _ =>
      refine ⟨?_, nofun⟩
      intro ip x hx
      rcases update_eq_some.mp hx with ⟨_, hx⟩ | ⟨_, hx⟩
      · cases hx
      · exact h.past ip x hx
  | unlocked _ _ => exact ⟨h.past, nofun⟩
  | restarted _ =>
      refine ⟨?_, nofun⟩
      intro ip x hx
      exact lastOk_of_start hx

theorem clocked_start {store : NodeStore} {offlineTtl : Duration} {clock : Instant} {g : Inner}
    (hnew : Server.new sd none store offlineTtl clock = .ok g) :
    Clocked (Sys.start g clock : Sys E) := by
  obtain ⟨nodes, _, rfl⟩ := new_ok_iff.mp hnew
  refine ⟨?_, nofun⟩
  intro ip x hx
  exact lastOk_of_start hx

/-! ## Removal -/

def setsLastProbe (ip : String) : Event E → Option (Option Bool)
  | .probed node ok => if node.ip = ip then some (some ok) else none
  | _ => none

/-- What the last probe of `ip` answered. -/
def lastProbe (ip : String) (log : List (Event E)) : Option Bool := latest (setsLastProbe ip) log

def setsSinceProbe (ip : String) : Event E → Option (Option Instant)
  | .registered node time => if node.ip = ip then some (some time) else none
  | .probed node _ => if node.ip = ip then some none else none
  | _ => none

/-- When `ip` last registered since its last probe answered, if it did. -/
def sinceProbe (ip : String) (log : List (Event E)) : Option Instant :=
  latest (setsSinceProbe ip) log

def setsReregistered (ip : String) : Event E → Option (Option Instant)
  | .registered node time => if node.ip = ip then some (some time) else none
  | .verdict node _ => if node.ip = ip then some none else none
  | _ => none

/-- When `ip` last registered since the last verdict on it, if it did. -/
def reregistered (ip : String) (log : List (Event E)) : Option Instant :=
  latest (setsReregistered ip) log

/-- Every row this transition deletes belongs to a node that is unhealthy and
has been without success for `offline_ttl`; its last probe failed, and no
registration of it was stored since. -/
def RemovesStale (c : Run E) (_ : Label) (c' : Run E) : Prop :=
  ∀ ip, (c.state.inner.store.lookup ip).isSome → c'.state.inner.store.lookup ip = none →
    (∃ h, c.state.inner.health ip = some h ∧ h.healthy = false ∧
      h.lastOk + c.state.inner.offlineTtl ≤ c.state.clock) ∧
    lastProbe ip c.log = some false ∧ sinceProbe ip c.log = none

/-- The ip this transition removes was not registered since the verdict that
condemned it nor, where `offline_ttl` is zero, since the probe before it. -/
def RemovesCondemned (c : Run E) (a : Label) (_ : Run E) : Prop :=
  a = .removeNext none → ∀ ip expired, c.state.cycle = .removing (ip :: expired) →
    reregistered ip c.log = none ∧
      (c.state.inner.offlineTtl = 0 → sinceProbe ip c.log = none)

/-- What is known of an ip the cycle has condemned. -/
structure Condemned (c : Run E) (ip : String) : Prop where
  failed : lastProbe ip c.log = some false
  stale : reregistered ip c.log = none → ∃ h, c.state.inner.health ip = some h ∧
    h.healthy = false ∧ h.lastOk + c.state.inner.offlineTtl ≤ c.state.clock
  untouched : reregistered ip c.log = none → c.state.inner.offlineTtl ≠ 0 →
    sinceProbe ip c.log = none
  renewed : ∀ t, reregistered ip c.log = some t →
    ∃ t', c.state.inner.health ip = some ⟨true, t'⟩

/-- What is known of the node whose probe has answered: a registration that came
in since is no older than the cycle. -/
structure Answered (c : Run E) (now : Instant) (node : NodeInfo E) (ok : Bool) : Prop where
  answer : lastProbe node.ip c.log = some ok
  renewed : ∀ t, sinceProbe node.ip c.log = some t →
    ∃ h, c.state.inner.health node.ip = some h ∧ now ≤ h.lastOk

/-- The invariant behind removal. -/
structure Condemning (c : Run E) : Prop where
  consistent : Consistent c.state
  clocked : Clocked c.state
  answered : ∀ now node ok nodes expired,
    c.state.cycle = .probed now node ok nodes expired → Answered c now node ok
  expired : ∀ ip ∈ c.state.cycle.expired, Condemned c ip

/-- The events that say nothing about `ip`. -/
def Elsewhere (ip : String) : Event E → Prop
  | .registered node _ => node.ip ≠ ip
  | .probed node _ => node.ip ≠ ip
  | .verdict node _ => node.ip ≠ ip
  | _ => True

/-- They leave the three registers alone. -/
theorem registers_elsewhere {ip : String} {es log : List (Event E)}
    (h : ∀ e ∈ es, Elsewhere ip e) :
    lastProbe ip (es ++ log) = lastProbe ip log ∧ sinceProbe ip (es ++ log) = sinceProbe ip log ∧
      reregistered ip (es ++ log) = reregistered ip log := by
  induction es with
  | nil => exact ⟨rfl, rfl, rfl⟩
  | cons e es ih =>
      obtain ⟨hlast, hsince, hre⟩ := ih fun e' he' => h e' (List.mem_cons_of_mem _ he')
      have he := h e List.mem_cons_self
      rw [List.cons_append, ← hlast, ← hsince, ← hre]
      cases e with
      | started => exact ⟨rfl, rfl, rfl⟩
      | removed _ => exact ⟨rfl, rfl, rfl⟩
      | registered node time =>
          have hne : node.ip ≠ ip := he
          simp [lastProbe, sinceProbe, reregistered, latest_cons, setsLastProbe, setsSinceProbe,
            setsReregistered, hne]
      | probed node ok =>
          have hne : node.ip ≠ ip := he
          simp [lastProbe, sinceProbe, reregistered, latest_cons, setsLastProbe, setsSinceProbe,
            setsReregistered, hne]
      | verdict node ok =>
          have hne : node.ip ≠ ip := he
          simp [lastProbe, sinceProbe, reregistered, latest_cons, setsLastProbe, setsSinceProbe,
            setsReregistered, hne]

theorem elsewhere_nil {ip : String} : ∀ e ∈ ([] : List (Event E)), Elsewhere ip e := nofun

theorem elsewhere_one {ip : String} {e : Event E} (h : Elsewhere ip e) :
    ∀ e' ∈ [e], Elsewhere ip e' := by
  intro e' he'
  obtain rfl := List.mem_singleton.mp he'
  exact h

/-- Nothing that is written about other ips concerns a condemned one. -/
theorem Condemned.congr {c : Run E} {ip : String} (h : Condemned c ip) {es : List (Event E)}
    (hes : ∀ e ∈ es, Elsewhere ip e) {s' : Sys E}
    (hhealth : s'.inner.health ip = c.state.inner.health ip)
    (httl : s'.inner.offlineTtl = c.state.inner.offlineTtl)
    (hclock : c.state.clock ≤ s'.clock) : Condemned ⟨s', es ++ c.log⟩ ip := by
  obtain ⟨hlast, hsince, hre⟩ := registers_elsewhere hes
  constructor
  · exact hlast.trans h.failed
  · intro hnone
    obtain ⟨x, hx, hflag, hstale⟩ := h.stale (hre.symm.trans hnone)
    refine ⟨x, hhealth.trans hx, hflag, ?_⟩
    rw [httl]
    exact Nat.le_trans hstale hclock
  · intro hnone hzero
    exact hsince.trans (h.untouched (hre.symm.trans hnone) (httl ▸ hzero))
  · intro t ht
    obtain ⟨t', ht'⟩ := h.renewed t (hre.symm.trans ht)
    exact ⟨t', hhealth.trans ht'⟩

theorem Answered.congr {c : Run E} {now : Instant} {node : NodeInfo E} {ok : Bool}
    (h : Answered c now node ok) {es : List (Event E)} (hes : ∀ e ∈ es, Elsewhere node.ip e)
    {s' : Sys E} (hhealth : s'.inner.health node.ip = c.state.inner.health node.ip) :
    Answered ⟨s', es ++ c.log⟩ now node ok := by
  obtain ⟨hlast, hsince, _⟩ := registers_elsewhere hes
  refine ⟨hlast.trans h.answer, fun t ht => ?_⟩
  rw [hhealth]
  exact h.renewed t (hsince.symm.trans ht)

/-- A registration is known to have come in since the probe of its own node. -/
theorem answered_registered {c : Run E} {now : Instant} {node : NodeInfo E} {ok : Bool}
    (h : Answered c now node ok) (hnow : now ≤ c.state.clock) {new : NodeInfo E} {s' : Sys E}
    (hhealth : s'.inner.health
      = Function.update c.state.inner.health new.ip (some ⟨true, c.state.clock⟩)) :
    Answered ⟨s', [.registered new c.state.clock] ++ c.log⟩ now node ok := by
  rcases eq_or_ne new.ip node.ip with heq | hne
  · refine ⟨h.answer, fun t _ => ⟨⟨true, c.state.clock⟩, ?_, hnow⟩⟩
    dsimp only
    rw [hhealth, heq, Function.update_self]
  · refine h.congr (elsewhere_one (e := .registered new _) hne) ?_
    rw [hhealth, Function.update_of_ne hne.symm]

/-- So is it of one that is condemned. -/
theorem condemned_registered {c : Run E} {ip : String} (h : Condemned c ip) {new : NodeInfo E}
    {s' : Sys E} (hhealth : s'.inner.health
      = Function.update c.state.inner.health new.ip (some ⟨true, c.state.clock⟩))
    (httl : s'.inner.offlineTtl = c.state.inner.offlineTtl) (hclock : s'.clock = c.state.clock) :
    Condemned ⟨s', [.registered new c.state.clock] ++ c.log⟩ ip := by
  rcases eq_or_ne new.ip ip with rfl | hne
  · have hre : reregistered new.ip ([Event.registered new c.state.clock] ++ c.log)
        = some c.state.clock := by
      simp [reregistered, latest_cons, setsReregistered]
    refine ⟨h.failed, ?_, ?_, fun t _ => ⟨c.state.clock, ?_⟩⟩
    · intro hnone
      cases hre.symm.trans hnone
    · intro hnone
      cases hre.symm.trans hnone
    · dsimp only
      rw [hhealth, Function.update_self]
  · refine h.congr (elsewhere_one (e := .registered new _) hne) ?_ httl
      (Nat.le_of_eq hclock.symm)
    rw [hhealth, Function.update_of_ne hne.symm]

/-- A difference cut at zero that reaches the limit, under a clock ahead of both ends. -/
theorem stale_of_sub {lastOk ttl now clock : Nat} (h : ttl ≤ now - lastOk) (hnow : now ≤ clock)
    (hlast : lastOk ≤ clock) : lastOk + ttl ≤ clock := by
  omega

/-- The verdict that condemns a node finds it stale, and untouched unless a
difference of zero is long enough. -/
theorem condemned_of_verdict {c : Run E} (hc : Condemning c) {now : Instant} {node : NodeInfo E}
    {ok : Bool} {nodes : List (NodeInfo E)} {expired : List String}
    (hcycle : c.state.cycle = .probed now node ok nodes expired)
    (hexp : (c.state.inner.applyVerdict now node.ip ok).2 = true) (cycle : Cycle E) :
    Condemned
      ⟨{ c.state with inner := (c.state.inner.applyVerdict now node.ip ok).1, cycle },
        [.verdict node ok] ++ c.log⟩ node.ip := by
  obtain ⟨rfl, hold⟩ := applyVerdict_expired.mp hexp
  have hanswer := hc.answered now node false nodes expired hcycle
  have hnow : now ≤ c.state.clock := hc.clocked.begun now (by rw [hcycle]; rfl)
  have hpast := hc.clocked.getD hnow node.ip
  have hre : reregistered node.ip ([Event.verdict node false] ++ c.log) = none := by
    simp [reregistered, latest_cons, setsReregistered]
  refine ⟨hanswer.answer, ?_, ?_, ?_⟩
  · intro _
    dsimp only
    rw [applyVerdict_health, applyVerdict_offlineTtl]
    exact ⟨_, Function.update_self _ _ _, rfl, stale_of_sub hold hnow hpast⟩
  · -- a registration since the probe would have stamped the entry no earlier than `now`
    intro _ hzero
    rw [applyVerdict_offlineTtl] at hzero
    refine Option.eq_none_iff_forall_ne_some.mpr fun t ht => ?_
    obtain ⟨x, hx, hle⟩ := hanswer.renewed t ht
    rw [hx, Option.getD_some, Nat.sub_eq_zero_of_le hle] at hold
    exact hzero (Nat.le_zero.mp hold)
  · intro t ht
    cases hre.symm.trans ht

/-- The ip of the node whose turn it is is not among the condemned. -/
theorem not_mem_expired {s : Sys E} (h : Consistent s) {ip : String} {ips expired : List String}
    (hpending : s.cycle.pending = ip :: (ips ++ expired)) : ip ∉ expired := by
  have hdistinct := h.distinct
  rw [hpending] at hdistinct
  obtain ⟨hout, _⟩ := List.nodup_cons.mp hdistinct
  exact fun hmem => hout (List.mem_append_right _ hmem)

/-- A verdict condemns its own node or nobody. -/
theorem condemned_verdict {c : Run E} (hc : Condemning c) {now : Instant} {node : NodeInfo E}
    {ok : Bool} {nodes : List (NodeInfo E)} {expired : List String}
    (hcycle : c.state.cycle = .probed now node ok nodes expired) (cycle : Cycle E) {ip : String}
    (hip : ip ∈ if (c.state.inner.applyVerdict now node.ip ok).2 then expired ++ [node.ip]
      else expired) :
    Condemned
      ⟨{ c.state with inner := (c.state.inner.applyVerdict now node.ip ok).1, cycle },
        [.verdict node ok] ++ c.log⟩ ip := by
  have hnot : node.ip ∉ expired := not_mem_expired hc.consistent (congrArg Cycle.pending hcycle)
  have hold : ip ∈ expired → Condemned
      ⟨{ c.state with inner := (c.state.inner.applyVerdict now node.ip ok).1, cycle },
        [.verdict node ok] ++ c.log⟩ ip := by
    intro hmem
    have hne : node.ip ≠ ip := fun e => hnot (e ▸ hmem)
    refine (hc.expired ip (by rw [hcycle]; exact hmem)).congr
      (elsewhere_one (e := .verdict node ok) hne) ?_ ?_ (Nat.le_refl _)
    · rw [applyVerdict_health, Function.update_of_ne hne.symm]
    · rw [applyVerdict_offlineTtl]
  cases hexp : (c.state.inner.applyVerdict now node.ip ok).2 with
  | false => exact hold (by simpa [hexp] using hip)
  | true =>
      rw [hexp, if_pos rfl, List.mem_append, List.mem_singleton] at hip
      rcases hip with hmem | rfl
      · exact hold hmem
      · exact condemned_of_verdict hc hcycle hexp cycle

theorem answered_step {c : Run E} (hc : Condemning c) {s' : Sys E} {a : Label}
    {es : List (Event E)} (ht : Trans sd c.state a s' es) :
    ∀ now node ok nodes expired, s'.cycle = .probed now node ok nodes expired →
      Answered ⟨s', es ++ c.log⟩ now node ok := by
  intro now node ok nodes expired h
  cases ht with
  | tick d => exact (hc.answered now node ok nodes expired h).congr elsewhere_nil rfl
  | registered _ _ _ _ =>
      refine answered_registered (hc.answered now node ok nodes expired h) ?_ rfl
      exact hc.clocked.begun now (congrArg Cycle.now? h)
  | answered _ _ => exact (hc.answered now node ok nodes expired h).congr elsewhere_nil rfl
  | sent _ => exact (hc.answered now node ok nodes expired h).congr elsewhere_nil rfl
  | notListed => exact (hc.answered now node ok nodes expired h).congr elsewhere_nil rfl
  | @probed now' node' nodes' expired' ok' hcycle =>
      obtain ⟨rfl, rfl, rfl, _, _⟩ := Cycle.probed.inj h
      refine ⟨?_, fun t ht => ?_⟩
      · simp [lastProbe, latest_cons, setsLastProbe]
      · simp [sinceProbe, latest_cons, setsSinceProbe] at ht
  | listed _ _ => cases h
  | began _ => cases h
  | verdict _ => cases h
  | ended _ => cases h
  | locked _ => cases h
  | removed _ => cases h
  | unlocked _ _ => cases h
  | restarted _ => cases h

theorem expired_step {c : Run E} (hc : Condemning c) {s' : Sys E} {a : Label}
    {es : List (Event E)} (ht : Trans sd c.state a s' es) :
    ∀ ip ∈ s'.cycle.expired, Condemned ⟨s', es ++ c.log⟩ ip := by
  intro ip hip
  cases ht with
  | tick d => exact (hc.expired ip hip).congr elsewhere_nil rfl rfl (Nat.le_add_right _ _)
  | registered _ _ _ _ => exact condemned_registered (hc.expired ip hip) rfl rfl rfl
  | answered _ _ => exact (hc.expired ip hip).congr elsewhere_nil rfl rfl (Nat.le_refl _)
  | sent _ => exact (hc.expired ip hip).congr elsewhere_nil rfl rfl (Nat.le_refl _)
  | listed _ _ => cases hip
  | notListed => exact hc.expired ip hip
  | began _ => cases hip
  | @probed now node nodes expired ok hcycle =>
      have hnot : node.ip ∉ expired := not_mem_expired hc.consistent (congrArg Cycle.pending hcycle)
      have hne : node.ip ≠ ip := fun e => hnot (e ▸ hip)
      exact (hc.expired ip (by rw [hcycle]; exact hip)).congr
        (elsewhere_one (e := .probed node ok) hne) rfl rfl (Nat.le_refl _)
  | verdict hcycle => exact condemned_verdict hc hcycle _ hip
  | ended _ => cases hip
  | locked hcycle =>
      exact (hc.expired ip (by rw [hcycle]; exact hip)).congr elsewhere_nil rfl rfl (Nat.le_refl _)
  | @removed ip' expired hcycle =>
      have hdistinct : (Cycle.removing (ip' :: expired) : Cycle E).pending.Nodup :=
        hcycle ▸ hc.consistent.distinct
      have hne : ip ≠ ip' := fun e => (List.nodup_cons.mp hdistinct).1 (e ▸ hip)
      exact (hc.expired ip (by rw [hcycle]; exact List.mem_cons_of_mem _ hip)).congr
        (elsewhere_one (e := .removed ip') trivial) (Function.update_of_ne hne _ _) rfl (Nat.le_refl _)
  | unlocked _ _ => cases hip
  | restarted _ => cases hip

theorem condemning_step {c c' : Run E} {a : Label} (hc : Condemning c)
    (hstep : Run.step sd c a = some c') : Condemning c' := by
  obtain ⟨s', es, ht, rfl⟩ := trans_of_runStep hstep
  exact ⟨hc.consistent.trans ht, hc.clocked.trans ht, answered_step hc ht, expired_step hc ht⟩

/-- A row disappears only as the next one of the removal loop. -/
theorem removed_of_lookup {s s' : Sys E} {a : Label} {es : List (Event E)}
    (ht : Trans sd s a s' es) {ip : String} (hrow : (s.inner.store.lookup ip).isSome)
    (hgone : s'.inner.store.lookup ip = none) :
    a = .removeNext none ∧ ∃ expired, s.cycle = .removing (ip :: expired) := by
  have hkept : s'.inner.store = s.inner.store →
      a = .removeNext none ∧ ∃ expired, s.cycle = .removing (ip :: expired) := by
    intro heq
    rw [heq] at hgone
    rw [hgone] at hrow
    cases hrow
  cases ht with
  | @registered _ _ _ _ row _ _ _ _ =>
      rw [Keyed.Table.lookup_upsert] at hgone
      split at hgone
      · cases hgone
      · rw [hgone] at hrow
        cases hrow
  | @removed ip' expired hcycle =>
      rw [Keyed.Table.lookup_erase] at hgone
      split at hgone
      · next heq =>
          rw [heq]
          exact ⟨rfl, expired, hcycle⟩
      · rw [hgone] at hrow
        cases hrow
  | verdict _ => exact hkept (applyVerdict_store _ _ _ _)
  | tick _ => exact hkept rfl
  | answered _ _ => exact hkept rfl
  | sent _ => exact hkept rfl
  | listed _ _ => exact hkept rfl
  | notListed => exact hkept rfl
  | began _ => exact hkept rfl
  | probed _ _ => exact hkept rfl
  | ended _ => exact hkept rfl
  | locked _ => exact hkept rfl
  | unlocked _ _ => exact hkept rfl
  | restarted _ => exact hkept rfl

/-- And the next one of the removal loop does disappear. -/
theorem lookup_of_removed {s s' : Sys E} {es : List (Event E)} (hs : Consistent s)
    (ht : Trans sd s (.removeNext none) s' es) {ip : String} {expired : List String}
    (hcycle : s.cycle = .removing (ip :: expired)) :
    (s.inner.store.lookup ip).isSome ∧ s'.inner.store.lookup ip = none := by
  refine ⟨(hs.sync ip).mpr (hs.known ip (by rw [hcycle]; exact List.mem_cons_self)), ?_⟩
  cases ht with
  | @removed ip' expired' hcycle' =>
      obtain ⟨rfl, _⟩ := List.cons.inj (Cycle.removing.inj (hcycle.symm.trans hcycle'))
      rw [Keyed.Table.lookup_erase, if_pos rfl]
  | @unlocked _ expired' hcycle' hempty =>
      rw [hempty rfl] at hcycle'
      cases Cycle.removing.inj (hcycle.symm.trans hcycle')

theorem removesStale_iff {c c' : Run E} {a : Label} (hc : Condemning c)
    (hstep : Run.step sd c a = some c') : RemovesStale c a c' ↔ RemovesCondemned c a c' := by
  obtain ⟨s', es, ht, rfl⟩ := trans_of_runStep hstep
  constructor
  · rintro hstale rfl ip expired hcycle
    obtain ⟨hrow, hgone⟩ := lookup_of_removed hc.consistent ht hcycle
    obtain ⟨⟨x, hx, hflag, _⟩, _, hsince⟩ := hstale ip hrow hgone
    have hcond := hc.expired ip (by rw [hcycle]; exact List.mem_cons_self)
    refine ⟨Option.eq_none_iff_forall_ne_some.mpr fun t hre => ?_, fun _ => hsince⟩
    obtain ⟨t', ht'⟩ := hcond.renewed t hre
    obtain rfl := Option.some.inj (hx.symm.trans ht')
    cases hflag
  · intro hcondemned ip hrow hgone
    obtain ⟨rfl, expired, hcycle⟩ := removed_of_lookup ht hrow hgone
    obtain ⟨hre, hzero⟩ := hcondemned rfl ip expired hcycle
    have hcond := hc.expired ip (by rw [hcycle]; exact List.mem_cons_self)
    refine ⟨hcond.stale hre, hcond.failed, ?_⟩
    by_cases httl : c.state.inner.offlineTtl = 0
    · exact hzero httl
    · exact hcond.untouched hre httl

/-- **Removals are of stale nodes, exactly when nobody re-registered** between the
verdict and the removal or, if a node may expire at once, between the probe and
the removal. -/
theorem removal_stale_iff (sd : Serde E) (store : NodeStore) (offlineTtl : Duration)
    (clock : Instant) (g : Inner) (hnew : Server.new sd none store offlineTtl clock = .ok g)
    (schedule : List Label) :
    EachStep (Run.step sd) RemovesStale ⟨Sys.start g clock, []⟩ schedule ↔
      EachStep (Run.step sd) RemovesCondemned ⟨Sys.start g clock, []⟩ schedule := by
  refine eachStep_iff (J := Condemning) (fun _ _ _ hc hstep _ => condemning_step hc hstep)
    (fun _ _ _ hc hstep => removesStale_iff hc hstep) ?_
  exact ⟨consistent_start hnew, clocked_start hnew, nofun, nofun⟩

end

/-- A node fails its probe and is condemned; it registers again, and is
acknowledged, before the cycle comes round to its removals. -/
def condemnedThenRegistered : List Label :=
  [.frame "10.0.0.7" (registerFrame 9001) none 0, .send 0, .snapshot none, .tick 20, .readNow,
    .probeDone false, .applyVerdict, .frame "10.0.0.7" (registerFrame 9001) none 0, .send 0,
    .endLoop]

/-- A node fails its probe; it registers again, and is acknowledged, before the
cycle has the lock to pass its verdict. -/
def probedThenRegistered : List Label :=
  [.frame "10.0.0.7" (registerFrame 9001) none 0, .send 0, .snapshot none, .tick 20, .readNow,
    .probeDone false, .tick 5, .frame "10.0.0.7" (registerFrame 9001) none 0, .send 0,
    .applyVerdict, .endLoop]

theorem removal_stale_iff_lost :
    EachStep (Run.step unitSerde) RemovesStale ⟨Sys.start (Inner.empty 10) 0, []⟩
        (condemnedThenRegistered ++ [.removeNext none]) ↔
      EachStep (Run.step unitSerde) RemovesCondemned ⟨Sys.start (Inner.empty 10) 0, []⟩
        (condemnedThenRegistered ++ [.removeNext none]) :=
  removal_stale_iff unitSerde Keyed.Table.empty 10 0 (Inner.empty 10) rfl _

/-- The acknowledged registration is deleted, healthy and just stamped; and where
a node may expire at once, also one that came before the verdict. -/
theorem removal_not_stale :
    ¬ EachStep (Run.step unitSerde) RemovesStale ⟨Sys.start (Inner.empty 10) 0, []⟩
        (condemnedThenRegistered ++ [.removeNext none]) ∧
      ¬ EachStep (Run.step unitSerde) RemovesStale ⟨Sys.start (Inner.empty 0) 0, []⟩
        (probedThenRegistered ++ [.removeNext none]) := by
  constructor
  · intro h
    obtain ⟨⟨x, hx, hflag, _⟩, _⟩ := h.after rfl rfl "10.0.0.7" rfl rfl
    obtain rfl : (⟨true, 20⟩ : HealthState) = x := Option.some.inj hx
    cases hflag
  · intro h
    obtain ⟨_, _, hsince⟩ := h.after rfl rfl "10.0.0.7" rfl rfl
    exact absurd hsince (by decide)

/-! ## The success clock -/

section
variable {E : Type} {sd : Serde E}

def setsRegistered (ip : String) : Event E → Option (Option Instant)
  | .registered node time => if node.ip = ip then some (some time) else none
  | _ => none

/-- When `ip` last registered. -/
def lastRegistered (ip : String) (log : List (Event E)) : Option Instant :=
  latest (setsRegistered ip) log

theorem lastRegistered_registered (ip : String) (node : NodeInfo E) (time : Instant)
    (log : List (Event E)) :
    lastRegistered ip (.registered node time :: log) =
      if node.ip = ip then some time else lastRegistered ip log := by
  rw [lastRegistered, latest_cons, setsRegistered]
  split
  · rfl
  · rfl

/-- The clock of every entry that is there after the transition has not gone
back, and is not before the last registration of its ip. -/
def ClockAdvances (c : Run E) (_ : Label) (c' : Run E) : Prop :=
  ∀ ip h', c'.state.inner.health ip = some h' →
    (∀ h, c.state.inner.health ip = some h → h.lastOk ≤ h'.lastOk) ∧
    ∀ t, lastRegistered ip c'.log = some t → t ≤ h'.lastOk

/-- A successful verdict that this transition applies comes from a cycle that
began no earlier than the last registration of its ip. -/
def StampsForward (c : Run E) (a : Label) (_ : Run E) : Prop :=
  a = .applyVerdict → ∀ now node nodes expired,
    c.state.cycle = .probed now node true nodes expired →
    ∀ t, lastRegistered node.ip c.log = some t → t ≤ now

/-- The invariant behind the success clock: an entry is stamped by its last
registration or from before the present cycle. -/
structure Stamped (c : Run E) : Prop where
  consistent : Consistent c.state
  clocked : Clocked c.state
  known : ∀ ip t, lastRegistered ip c.log = some t → t ≤ c.state.clock
  after : ∀ ip h, c.state.inner.health ip = some h →
    ∀ t, lastRegistered ip c.log = some t → t ≤ h.lastOk
  before : ∀ now, c.state.cycle.now? = some now → ∀ ip h, c.state.inner.health ip = some h →
    h.lastOk ≤ now ∨ lastRegistered ip c.log = some h.lastOk

theorem known_step {c : Run E} (hc : Stamped c) {s' : Sys E} {a : Label} {es : List (Event E)}
    (ht : Trans sd c.state a s' es) :
    ∀ ip t, lastRegistered ip (es ++ c.log) = some t → t ≤ s'.clock := by
  intro ip t h
  cases ht with
  | tick d => exact Nat.le_add_right_of_le (hc.known ip t h)
  | registered _ _ _ _ =>
      rw [List.singleton_append, lastRegistered_registered] at h
      split at h
      · obtain rfl := Option.some.inj h
        exact Nat.le_refl _
      · exact hc.known ip t h
  | answered _ _ => exact hc.known ip t h
  | sent _ => exact hc.known ip t h
  | listed _ _ => exact hc.known ip t h
  | notListed => exact hc.known ip t h
  | began _ => exact hc.known ip t h
  | probed _ _ => exact hc.known ip t h
  | verdict _ => exact hc.known ip t h
  | ended _ => exact hc.known ip t h
  | locked _ => exact hc.known ip t h
  | removed _ => exact hc.known ip t h
  | unlocked _ _ => exact hc.known ip t h
  | restarted _ => exact hc.known ip t h

theorem before_step {c : Run E} (hc : Stamped c) {s' : Sys E} {a : Label} {es : List (Event E)}
    (ht : Trans sd c.state a s' es) :
    ∀ now, s'.cycle.now? = some now → ∀ ip h, s'.inner.health ip = some h →
      h.lastOk ≤ now ∨ lastRegistered ip (es ++ c.log) = some h.lastOk := by
  intro now hnow ip x hx
  cases ht with
  | tick d => exact hc.before now hnow ip x hx
  | @registered _ _ _ node _ _ _ _ _ =>
      rw [List.singleton_append, lastRegistered_registered]
      rcases update_eq_some.mp hx with ⟨rfl, hset⟩ | ⟨hne, hold⟩
      · obtain rfl := Option.some.inj hset
        exact Or.inr (if_pos rfl)
      · rw [if_neg hne.symm]
        exact hc.before now hnow ip x hold
  | answered _ _ => exact hc.before now hnow ip x hx
  | sent _ => exact hc.before now hnow ip x hx
  | listed _ _ => cases hnow
  | notListed => exact hc.before now hnow ip x hx
  | began _ =>
      obtain rfl := Option.some.inj hnow
      exact Or.inl (hc.clocked.past ip x hx)
  | probed _ hcycle => exact hc.before now (by rw [hcycle]; exact hnow) ip x hx
  | @verdict now' node ok nodes expired hcycle =>
      have hbefore := hc.before now (by rw [hcycle]; exact hnow)
      obtain rfl : now' = now := Option.some.inj hnow
      rw [applyVerdict_health] at hx
      rcases update_eq_some.mp hx with ⟨rfl, hset⟩ | ⟨_, hold⟩
      · obtain rfl := Option.some.inj hset
        cases ok with
        | true => exact Or.inl (Nat.le_refl _)
        | false =>
            cases hy : c.state.inner.health node.ip with
            | none => exact Or.inl (Nat.le_refl _)
            | some y => exact hbefore node.ip y hy
      · exact hbefore ip x hold
  | ended _ => cases hnow
  | locked _ => cases hnow
  | removed _ => cases hnow
  | unlocked _ _ => cases hnow
  | restarted _ => cases hnow

theorem stamped_step {c c' : Run E} {a : Label} (hc : Stamped c)
    (hstep : Run.step sd c a = some c') (hadv : ClockAdvances c a c') : Stamped c' := by
  obtain ⟨s', es, ht, rfl⟩ := trans_of_runStep hstep
  exact ⟨hc.consistent.trans ht, hc.clocked.trans ht, known_step hc ht,
    fun ip h hh => (hadv ip h hh).2, before_step hc ht⟩

/-- A transition that leaves the health map and the registrations alone. -/
theorem clockAdvances_quiet {c c' : Run E} {a : Label} (hc : Stamped c)
    (hhealth : c'.state.inner.health = c.state.inner.health)
    (hlog : ∀ ip, lastRegistered ip c'.log = lastRegistered ip c.log) : ClockAdvances c a c' := by
  intro ip x hx
  rw [hhealth] at hx
  refine ⟨?_, ?_⟩
  · intro y hy
    obtain rfl := Option.some.inj (hx.symm.trans hy)
    exact Nat.le_refl _
  · intro t ht
    exact hc.after ip x hx t (hlog ip ▸ ht)

/-- A verdict advances the clocks exactly when, if it is a success, its cycle
began no earlier than the last registration of its ip. -/
theorem clockAdvances_verdict {c : Run E} (hc : Stamped c) {now : Instant} {node : NodeInfo E}
    {ok : Bool} {nodes : List (NodeInfo E)} {expired : List String}
    (hcycle : c.state.cycle = .probed now node ok nodes expired) (cycle : Cycle E) (a : Label) :
    ClockAdvances c a
        ⟨{ c.state with inner := (c.state.inner.applyVerdict now node.ip ok).1, cycle },
          .verdict node ok :: c.log⟩ ↔
      (ok = true → ∀ t, lastRegistered node.ip c.log = some t → t ≤ now) := by
  obtain ⟨y, hy⟩ := Option.isSome_iff_exists.mp
    (hc.consistent.known node.ip (by rw [hcycle]; exact List.mem_cons_self))
  constructor
  · rintro hadv rfl t ht
    exact (hadv node.ip ⟨true, now⟩ (by rw [applyVerdict_health]; exact Function.update_self _ _ _)).2
      t ht
  · intro hfwd ip x hx
    rw [applyVerdict_health] at hx
    rcases update_eq_some.mp hx with ⟨rfl, hset⟩ | ⟨_, hold⟩
    · obtain rfl := Option.some.inj hset
      cases ok with
      | true =>
          refine ⟨?_, hfwd rfl⟩
          intro h hh
          rcases hc.before now (by rw [hcycle]; rfl) node.ip h hh with hle | hreg
          · exact hle
          · exact hfwd rfl h.lastOk hreg
      | false =>
          rw [hy]
          refine ⟨?_, hc.after node.ip y hy⟩
          intro h hh
          obtain rfl := Option.some.inj hh
          exact Nat.le_refl _
    · refine ⟨?_, hc.after ip x hold⟩
      intro h hh
      obtain rfl := Option.some.inj (hold.symm.trans hh)
      exact Nat.le_refl _

/-- A registration stamps its entry with the present. -/
theorem clockAdvances_registered {c : Run E} (hc : Stamped c) (node : NodeInfo E)
    (store : NodeStore) (outbox : List Answer) (a : Label) :
    ClockAdvances c a
      ⟨{ c.state with
          inner := { c.state.inner with
            store
            health := Function.update c.state.inner.health node.ip (some ⟨true, c.state.clock⟩) }
          outbox },
        .registered node c.state.clock :: c.log⟩ := by
  intro ip x hx
  rw [lastRegistered_registered]
  rcases update_eq_some.mp hx with ⟨rfl, hset⟩ | ⟨hne, hold⟩
  · obtain rfl := Option.some.inj hset
    refine ⟨fun h hh => hc.clocked.past _ h hh, ?_⟩
    intro t ht
    rw [if_pos rfl] at ht
    obtain rfl := Option.some.inj ht
    exact Nat.le_refl _
  · rw [if_neg hne.symm]
    refine ⟨?_, hc.after ip x hold⟩
    intro h hh
    obtain rfl := Option.some.inj (hold.symm.trans hh)
    exact Nat.le_refl _

/-- What is asked of the verdicts `b` is asked of the one probe that is done. -/
theorem forall_verdict_iff {cycle : Cycle E} {now : Instant} {node : NodeInfo E} {ok b : Bool}
    {nodes : List (NodeInfo E)} {expired : List String}
    (hcycle : cycle = .probed now node ok nodes expired) {P : Instant → NodeInfo E → Prop} :
    (Label.applyVerdict = Label.applyVerdict → ∀ now' node' nodes' expired',
        cycle = .probed now' node' b nodes' expired' → P now' node') ↔
      (ok = b → P now node) := by
  constructor
  · rintro h rfl
    exact h rfl now node nodes expired hcycle
  · intro h _ now' node' nodes' expired' hcycle'
    obtain ⟨rfl, rfl, rfl, _, _⟩ := Cycle.probed.inj (hcycle.symm.trans hcycle')
    exact h rfl

theorem clockAdvances_iff {c c' : Run E} {a : Label} (hc : Stamped c)
    (hstep : Run.step sd c a = some c') : ClockAdvances c a c' ↔ StampsForward c a c' := by
  obtain ⟨s', es, ht, rfl⟩ := trans_of_runStep hstep
  cases ht with
  | @verdict now node ok nodes expired hcycle =>
      refine (clockAdvances_verdict hc hcycle _ _).trans ?_
      exact (forall_verdict_iff hcycle
        (P := fun now node => ∀ t, lastRegistered node.ip c.log = some t → t ≤ now)).symm
  | registered _ _ _ _ => exact iff_of_true (clockAdvances_registered hc _ _ _ _) nofun
  | removed _ =>
      refine iff_of_true ?_ nofun
      intro ip x hx
      rcases update_eq_some.mp hx with ⟨_, hx⟩ | ⟨_, hx⟩
      · cases hx
      · refine ⟨?_, hc.after ip x hx⟩
        intro h hh
        obtain rfl := Option.some.inj (hx.symm.trans hh)
        exact Nat.le_refl _
  | restarted _ =>
      refine iff_of_true ?_ nofun
      intro ip x hx
      dsimp only at hx
      split at hx
      · obtain rfl := Option.some.inj hx
        exact ⟨fun h hh => hc.clocked.past ip h hh, hc.known ip⟩
      · cases hx
  | tick _ => exact iff_of_true (clockAdvances_quiet hc rfl fun _ => rfl) nofun
  | answered _ _ => exact iff_of_true (clockAdvances_quiet hc rfl fun _ => rfl) nofun
  | sent _ => exact iff_of_true (clockAdvances_quiet hc rfl fun _ => rfl) nofun
  | listed _ _ => exact iff_of_true (clockAdvances_quiet hc rfl fun _ => rfl) nofun
  | notListed => exact iff_of_true (clockAdvances_quiet hc rfl fun _ => rfl) nofun
  | began _ => exact iff_of_true (clockAdvances_quiet hc rfl fun _ => rfl) nofun
  | probed _ _ => exact iff_of_true (clockAdvances_quiet hc rfl fun _ => rfl) nofun
  | ended _ => exact iff_of_true (clockAdvances_quiet hc rfl fun _ => rfl) nofun
  | locked _ => exact iff_of_true (clockAdvances_quiet hc rfl fun _ => rfl) nofun
  | unlocked _ _ => exact iff_of_true (clockAdvances_quiet hc rfl fun _ => rfl) nofun

/-- **The success clock advances, exactly when no verdict is stamped with the
start of a cycle older than the registration it meets.** -/
theorem lastOk_iff (sd : Serde E) (store : NodeStore) (offlineTtl : Duration) (clock : Instant)
    (g : Inner) (hnew : Server.new sd none store offlineTtl clock = .ok g)
    (schedule : List Label) :
    EachStep (Run.step sd) ClockAdvances ⟨Sys.start g clock, []⟩ schedule ↔
      EachStep (Run.step sd) StampsForward ⟨Sys.start g clock, []⟩ schedule := by
  refine eachStep_iff (J := Stamped) (fun _ _ _ hc hstep hadv => stamped_step hc hstep hadv)
    (fun _ _ _ hc hstep => clockAdvances_iff hc hstep) ?_
  exact ⟨consistent_start hnew, clocked_start hnew, nofun, nofun, nofun⟩

end

/-- A node registers while a cycle that began earlier is waiting for its probe. -/
def registeredDuringCycle : List Label :=
  [.frame "10.0.0.7" (registerFrame 9001) none 0, .snapshot none, .readNow, .tick 30,
    .frame "10.0.0.7" (registerFrame 9001) none 0, .probeDone true]

theorem lastOk_iff_back :
    EachStep (Run.step unitSerde) ClockAdvances ⟨Sys.start (Inner.empty 10) 0, []⟩
        (registeredDuringCycle ++ [.applyVerdict]) ↔
      EachStep (Run.step unitSerde) StampsForward ⟨Sys.start (Inner.empty 10) 0, []⟩
        (registeredDuringCycle ++ [.applyVerdict]) :=
  lastOk_iff unitSerde Keyed.Table.empty 10 0 (Inner.empty 10) rfl _

/-- The successful probe sets the clock back from 30 to 0. -/
theorem lastOk_goes_back :
    ¬ EachStep (Run.step unitSerde) ClockAdvances ⟨Sys.start (Inner.empty 10) 0, []⟩
      (registeredDuringCycle ++ [.applyVerdict]) := by
  intro h
  have hback := (h.after rfl rfl "10.0.0.7" ⟨true, 0⟩ rfl).1 ⟨true, 30⟩ rfl
  exact absurd hback (by decide)

/-! ## The healthy flag -/

section
variable {E : Type} [DecidableEq E] {sd : Serde E}

def setsOutcome (ip : String) (current : NodeInfo E) : Event E → Option (Option Bool)
  | .started => some none
  | .registered node _ => if node.ip = ip then some (some true) else none
  | .probed _ _ => none
  | .verdict node ok => if node = current then some (some ok) else none
  | .removed ip' => if ip' = ip then some none else none

/-- The outcome of the latest event about the present registration of `ip`: its
own registration, or a verdict on exactly that node; none if the process has
seen neither.  The answer to a probe counts when its verdict is passed. -/
def outcome (ip : String) (log : List (Event E)) : Option Bool :=
  (registration ip log).bind fun current => latest (setsOutcome ip current) log

theorem outcome_registered (ip : String) (node : NodeInfo E) (time : Instant)
    (log : List (Event E)) :
    outcome ip (.registered node time :: log) =
      if node.ip = ip then some true else outcome ip log := by
  rw [outcome, registration_registered]
  by_cases hip : node.ip = ip
  · simp [hip, latest_cons, setsOutcome]
  · simp [hip, latest_cons, setsOutcome, outcome]

theorem outcome_removed (ip ip' : String) (log : List (Event E)) :
    outcome ip (.removed ip' :: log) = if ip' = ip then none else outcome ip log := by
  rw [outcome, registration_removed]
  by_cases hip : ip' = ip
  · simp [hip]
  · simp [hip, latest_cons, setsOutcome, outcome]

/-- A verdict counts when it is about the registration in force. -/
theorem outcome_verdict (ip : String) (node : NodeInfo E) (ok : Bool) (log : List (Event E)) :
    outcome ip (.verdict node ok :: log) =
      if registration ip log = some node then some ok else outcome ip log := by
  have hreg : registration ip (.verdict node ok :: log) = registration ip log := rfl
  rw [outcome, hreg, outcome]
  cases hr : registration ip log with
  | none => simp
  | some current =>
      by_cases hn : node = current
      · simp [hn, latest_cons, setsOutcome]
      · simp [hn, Ne.symm hn, latest_cons, setsOutcome]

theorem outcome_started (ip : String) (log : List (Event E)) :
    outcome ip (.started :: log) = none := by
  have hreg : registration ip (.started :: log) = registration ip log := rfl
  rw [outcome, hreg]
  cases registration ip log with
  | none => rfl
  | some current => simp [latest_cons, setsOutcome]

/-- The flag of every node is the outcome of the latest event about its present
registration. -/
def FlagsMatch (c : Run E) : Prop :=
  ∀ ip b, outcome ip c.log = some b →
    (c.state.inner.health ip).map HealthState.healthy = some b

/-- The state this transition leads to has the flags it should have. -/
def LeadsToMatch (_ : Run E) (_ : Label) (c' : Run E) : Prop := FlagsMatch c'

/-- A failing verdict that this transition applies is about the registration in force. -/
def FailsCurrent (c : Run E) (a : Label) (_ : Run E) : Prop :=
  a = .applyVerdict → ∀ now node nodes expired,
    c.state.cycle = .probed now node false nodes expired →
    registration node.ip c.log = some node

/-- The invariant behind the flags: a node the cycle has captured is the
registration in force, or was registered anew since. -/
structure Following (sd : Serde E) (c : Run E) : Prop where
  mirrors : Mirrors sd c.log c.state.inner
  consistent : Consistent c.state
  flags : FlagsMatch c
  captured : ∀ n ∈ c.state.cycle.captured,
    registration n.ip c.log = some n ∨ outcome n.ip c.log = some true

theorem captured_step {c : Run E} (hc : Following sd c) {s' : Sys E} {a : Label}
    {es : List (Event E)} (ht : Trans sd c.state a s' es) :
    ∀ n ∈ s'.cycle.captured,
      registration n.ip (es ++ c.log) = some n ∨ outcome n.ip (es ++ c.log) = some true := by
  intro n hn
  cases ht with
  | tick _ => exact hc.captured n hn
  | @registered _ _ _ node _ _ _ _ _ =>
      rw [List.singleton_append, registration_registered, outcome_registered]
      by_cases hip : node.ip = n.ip
      · exact Or.inr (if_pos hip)
      · rw [if_neg hip, if_neg hip]
        exact hc.captured n hn
  | answered _ _ => exact hc.captured n hn
  | sent _ => exact hc.captured n hn
  | listed _ hlist =>
      refine Or.inl ?_
      rw [List.nil_append, ← hc.mirrors.held]
      exact (mem_listAll hlist).mp hn
  | notListed => exact hc.captured n hn
  | began hcycle => exact hc.captured n (by rw [hcycle]; exact hn)
  | probed _ hcycle => exact hc.captured n (by rw [hcycle]; exact hn)
  | @verdict now node ok nodes expired hcycle =>
      have hdistinct : (Cycle.probed now node ok nodes expired).pending.Nodup :=
        hcycle ▸ hc.consistent.distinct
      have hmem : n.ip ∈ nodes.map NodeInfo.ip := List.mem_map_of_mem hn
      have hne : node.ip ≠ n.ip := fun e =>
        (List.nodup_cons.mp hdistinct).1 (List.mem_append_left _ (e ▸ hmem))
      have hreg : registration n.ip c.log ≠ some node := fun h => hne (ip_of_registration h)
      rw [List.singleton_append, outcome_verdict, if_neg hreg]
      exact hc.captured n (by rw [hcycle]; exact List.mem_cons_of_mem _ hn)
  | ended _ => cases hn
  | locked _ => cases hn
  | removed _ => cases hn
  | unlocked _ _ => cases hn
  | restarted _ => cases hn

theorem following_step (hsd : sd.ColumnsRoundTrip) {c c' : Run E} {a : Label}
    (hc : Following sd c) (hstep : Run.step sd c a = some c') (hflags : FlagsMatch c') :
    Following sd c' := by
  obtain ⟨es, heffect, hlog⟩ := effect_of_runStep hstep
  have hmirrors : Mirrors sd c'.log c'.state.inner := hlog ▸ hc.mirrors.effect hsd heffect
  obtain ⟨s', es', ht, rfl⟩ := trans_of_runStep hstep
  exact ⟨hmirrors, hc.consistent.trans ht, hflags, captured_step hc ht⟩

/-- After a verdict the flags match exactly when it succeeded or was about the
registration in force. -/
theorem flagsMatch_verdict {c : Run E} (hc : Following sd c) {now : Instant} {node : NodeInfo E}
    {ok : Bool} {nodes : List (NodeInfo E)} {expired : List String}
    (hcycle : c.state.cycle = .probed now node ok nodes expired) (cycle : Cycle E) :
    FlagsMatch
        ⟨{ c.state with inner := (c.state.inner.applyVerdict now node.ip ok).1, cycle },
          .verdict node ok :: c.log⟩ ↔
      (ok = false → registration node.ip c.log = some node) := by
  have hcap := hc.captured node (by rw [hcycle]; exact List.mem_cons_self)
  have hflag : ((c.state.inner.applyVerdict now node.ip ok).1.health node.ip).map
      HealthState.healthy = some ok := by
    rw [applyVerdict_health, Function.update_self]
    rfl
  constructor
  · rintro hmatch rfl
    rcases hcap with hreg | hout
    · exact hreg
    · by_contra hne
      have hout' : outcome node.ip (Event.verdict node false :: c.log) = some true := by
        rw [outcome_verdict, if_neg hne, hout]
      have htrue := hmatch node.ip true hout'
      rw [hflag] at htrue
      cases htrue
  · intro hcur ip b hb
    rw [outcome_verdict] at hb
    by_cases hip : ip = node.ip
    · subst hip
      rw [hflag]
      split at hb
      · exact hb
      · next hne =>
          rcases hcap with hreg | hout
          · exact absurd hreg hne
          · cases ok with
            | true => exact hout.symm.trans hb
            | false => exact absurd (hcur rfl) hne
    · have hne : registration ip c.log ≠ some node := fun h => hip (ip_of_registration h).symm
      rw [if_neg hne] at hb
      rw [applyVerdict_health, Function.update_of_ne hip]
      exact hc.flags ip b hb

theorem flagsMatch_iff {c c' : Run E} {a : Label} (hc : Following sd c)
    (hstep : Run.step sd c a = some c') : LeadsToMatch c a c' ↔ FailsCurrent c a c' := by
  obtain ⟨s', es, ht, rfl⟩ := trans_of_runStep hstep
  cases ht with
  | @verdict now node ok nodes expired hcycle =>
      refine (flagsMatch_verdict hc hcycle _).trans ?_
      exact (forall_verdict_iff hcycle
        (P := fun _ node => registration node.ip c.log = some node)).symm
  | @registered _ _ _ node _ _ _ _ _ =>
      refine iff_of_true ?_ nofun
      intro ip b hb
      rw [List.singleton_append, outcome_registered] at hb
      by_cases hip : node.ip = ip
      · rw [if_pos hip] at hb
        simpa [hip] using hb
      · rw [if_neg hip] at hb
        simpa [Ne.symm hip] using hc.flags ip b hb
  | @removed ip' _ _ =>
      refine iff_of_true ?_ nofun
      intro ip b hb
      rw [List.singleton_append, outcome_removed] at hb
      by_cases hip : ip' = ip
      · rw [if_pos hip] at hb
        cases hb
      · rw [if_neg hip] at hb
        simpa [Ne.symm hip] using hc.flags ip b hb
  | restarted _ =>
      refine iff_of_true ?_ nofun
      intro ip b hb
      rw [List.singleton_append, outcome_started] at hb
      cases hb
  | tick _ => exact iff_of_true hc.flags nofun
  | answered _ _ => exact iff_of_true hc.flags nofun
  | sent _ => exact iff_of_true hc.flags nofun
  | listed _ _ => exact iff_of_true hc.flags nofun
  | notListed => exact iff_of_true hc.flags nofun
  | began _ => exact iff_of_true hc.flags nofun
  | probed _ _ => exact iff_of_true hc.flags nofun
  | ended _ => exact iff_of_true hc.flags nofun
  | locked _ => exact iff_of_true hc.flags nofun
  | unlocked _ _ => exact iff_of_true hc.flags nofun

/-- **Flags are about the present registration, exactly when no failing verdict
on an earlier one is applied.** -/
theorem flag_iff (sd : Serde E) (hsd : sd.ColumnsRoundTrip) (offlineTtl : Duration)
    (clock : Instant) (schedule : List Label) :
    EachStep (Run.step sd) LeadsToMatch ⟨Sys.start (Inner.empty offlineTtl) clock, []⟩ schedule ↔
      EachStep (Run.step sd) FailsCurrent ⟨Sys.start (Inner.empty offlineTtl) clock, []⟩
        schedule := by
  refine eachStep_iff (J := Following sd)
    (fun _ _ _ hc hstep hflags => following_step hsd hc hstep hflags)
    (fun _ _ _ hc hstep => flagsMatch_iff hc hstep) ?_
  exact ⟨mirrors_empty offlineTtl, .of_sync (fun _ => Iff.rfl) rfl, nofun, nofun⟩

end

/-- A node moves to another port while a cycle is waiting for the probe of the
old one, which then fails. -/
def movedDuringProbe : List Label :=
  [.frame "10.0.0.7" (registerFrame 9001) none 0, .snapshot none, .readNow,
    .frame "10.0.0.7" (registerFrame 9002) none 0, .probeDone false]

theorem flag_iff_moved :
    EachStep (Run.step unitSerde) LeadsToMatch ⟨Sys.start (Inner.empty 10) 0, []⟩
        (movedDuringProbe ++ [.applyVerdict]) ↔
      EachStep (Run.step unitSerde) FailsCurrent ⟨Sys.start (Inner.empty 10) 0, []⟩
        (movedDuringProbe ++ [.applyVerdict]) :=
  flag_iff unitSerde unitSerde_roundTrips 10 0 _

/-- The node on its new port is hidden by the failure of the old one. -/
theorem flag_not_current :
    ¬ EachStep (Run.step unitSerde) LeadsToMatch ⟨Sys.start (Inner.empty 10) 0, []⟩
      (movedDuringProbe ++ [.applyVerdict]) := by
  intro h
  have hmatch := h.after rfl rfl "10.0.0.7" true rfl
  exact absurd hmatch (by decide)

end Proto4.Dfinder
