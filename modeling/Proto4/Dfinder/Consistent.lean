/-
# `Proto4.Dfinder.Consistent` — table and health map stay in step

Two stores hold one set of ips.  A registration writes both under one lock, a
removal deletes from both, a start rebuilds the second from the first; the one
writer that could spoil it is the probe loop, whose `entry().or_insert` would
create a health entry for a node that has been removed meanwhile.  It cannot:
only the loop itself removes, after its last verdict, so every node it has
captured and every ip it has marked as expired is still there — and they are
pairwise different, because a listing names each ip once.  That is the
invariant `Consistent`, carried through every step, failure and restart.
-/
import Proto4.Dfinder.ProbeLoop

namespace Proto4.Dfinder

open Lts

section
variable {E : Type}

/-- The ips a cycle still refers to. -/
def Cycle.pending (c : Cycle E) : List String := c.captured.map NodeInfo.ip ++ c.expired

/-- Both stores hold the same ips, and the cycle refers to ips they hold. -/
structure Consistent (s : Sys E) : Prop where
  sync : ∀ ip, (s.inner.store.lookup ip).isSome ↔ (s.inner.health ip).isSome
  known : ∀ ip ∈ s.cycle.pending, (s.inner.health ip).isSome
  distinct : s.cycle.pending.Nodup

variable {sd : Serde E}

theorem Consistent.registered {s : Sys E} (h : Consistent s) {nowSecs : Int} {node : NodeInfo E}
    {row : NodeRow} (hrow : rowOfNode sd nowSecs node = .ok row) (outbox : List Answer) :
    Consistent
      { s with
        inner := { s.inner with
          store := s.inner.store.upsert row
          health := Function.update s.inner.health node.ip (some ⟨true, s.clock⟩) }
        outbox } where
  sync := by
    intro ip
    rw [Keyed.Table.lookup_upsert, ip_of_rowOfNode hrow]
    by_cases hip : ip = node.ip
    · simp [hip]
    · simpa [hip] using h.sync ip
  known := by
    intro ip hip
    exact isSome_update (h.known ip hip)
  distinct := h.distinct

/-- The verdict on a captured node moves its ip from the captured to the
expired, or drops it. -/
theorem pending_verdict {now : Instant} {node : NodeInfo E} {ok isExpired : Bool}
    {nodes : List (NodeInfo E)} {expired : List String} :
    ∃ l, l.Sublist (Cycle.probed now node ok nodes expired).pending ∧
      (Cycle.probing now nodes
        (if isExpired then expired ++ [node.ip] else expired) : Cycle E).pending.Perm l := by
  cases isExpired with
  | false => exact ⟨_, List.sublist_cons_self _ _, .refl _⟩
  | true =>
      refine ⟨_, .refl _, ?_⟩
      have hperm := (List.perm_append_singleton node.ip (nodes.map NodeInfo.ip ++ expired))
      simpa [Cycle.pending, Cycle.captured, Cycle.expired, List.append_assoc] using hperm

theorem Consistent.verdict {s : Sys E} (h : Consistent s) {now : Instant} {node : NodeInfo E}
    {ok : Bool} {nodes : List (NodeInfo E)} {expired : List String}
    (hcycle : s.cycle = .probed now node ok nodes expired) :
    Consistent
      { s with
        inner := (s.inner.applyVerdict now node.ip ok).1
        cycle := .probing now nodes
          (if (s.inner.applyVerdict now node.ip ok).2 then expired ++ [node.ip] else expired) } := by
  obtain ⟨l, hsub, hperm⟩ := @pending_verdict _ now node ok
    (s.inner.applyVerdict now node.ip ok).2 nodes expired
  rw [← hcycle] at hsub
  have hnode : (s.inner.health node.ip).isSome :=
    h.known _ (by rw [hcycle]; exact List.mem_cons_self)
  constructor
  · intro ip
    rw [applyVerdict_store, applyVerdict_health, h.sync]
    by_cases hip : ip = node.ip
    · simpa [hip] using hnode
    · simp [hip]
  · intro ip hip
    rw [applyVerdict_health]
    exact isSome_update (h.known ip (hsub.subset (hperm.mem_iff.mp hip)))
  · exact hperm.nodup_iff.mpr (h.distinct.sublist hsub)

theorem Consistent.removed {s : Sys E} (h : Consistent s) {ip : String} {expired : List String}
    (hcycle : s.cycle = .removing (ip :: expired)) :
    Consistent
      { s with
        inner := { s.inner with
          store := s.inner.store.erase ip
          health := Function.update s.inner.health ip none }
        cycle := .removing expired : Sys E } := by
  have hdistinct : (Cycle.removing (ip :: expired) : Cycle E).pending.Nodup := hcycle ▸ h.distinct
  obtain ⟨hout, hrest⟩ := List.nodup_cons.mp hdistinct
  constructor
  · intro ip'
    rw [Keyed.Table.lookup_erase]
    by_cases hip : ip' = ip
    · simp [hip]
    · simpa [hip] using h.sync ip'
  · intro ip' hip'
    have hne : ip' ≠ ip := fun e => hout (e ▸ hip')
    have hmem : ip' ∈ s.cycle.pending := by
      rw [hcycle]
      exact List.mem_cons_of_mem _ hip'
    simpa [hne] using h.known ip' hmem
  · exact hrest

/-- Steps that write neither store and refer to the same ips. -/
theorem Consistent.quiet {s s' : Sys E} (h : Consistent s) (hinner : s'.inner = s.inner)
    (hpending : s'.cycle.pending = s.cycle.pending) : Consistent s' where
  sync := by
    rw [hinner]
    exact h.sync
  known := by
    rw [hinner, hpending]
    exact h.known
  distinct := by
    rw [hpending]
    exact h.distinct

/-- A cycle that refers to nothing asks nothing of the stores. -/
theorem Consistent.of_sync {s : Sys E}
    (h : ∀ ip, (s.inner.store.lookup ip).isSome ↔ (s.inner.health ip).isSome)
    (hpending : s.cycle.pending = []) : Consistent s where
  sync := h
  known := by
    rw [hpending]
    nofun
  distinct := by
    rw [hpending]
    exact List.nodup_nil

/-- A health map rebuilt from a listing has the keys of the table. -/
theorem sync_of_listAll {store : NodeStore} {nodes : List (NodeInfo E)} {fault : Option StoreError}
    (hlist : listAll sd fault store = .ok nodes) (now : Instant) (ip : String) :
    (store.lookup ip).isSome ↔
      (if ip ∈ nodes.map NodeInfo.ip then some (⟨false, now⟩ : HealthState) else none).isSome := by
  rw [isSome_lookup_of_listAll hlist]
  by_cases hip : ip ∈ nodes.map NodeInfo.ip
  · simp [hip]
  · simp [hip]

/-- **One step keeps table and health map consistent.** -/
theorem Consistent.trans {s s' : Sys E} {a : Label} {es : List (Event E)} (h : Consistent s)
    (ht : Trans sd s a s' es) : Consistent s' := by
  cases ht with
  | tick d => exact h.quiet rfl rfl
  | registered _ _ _ hrow => exact h.registered hrow _
  | answered _ _ => exact h.quiet rfl rfl
  | sent _ => exact h.quiet rfl rfl
  | @listed nodes _ hlist =>
      have hpending : (Cycle.listed nodes).pending = nodes.map NodeInfo.ip := List.append_nil _
      refine ⟨h.sync, ?_, ?_⟩
      · intro ip hip
        rw [← h.sync, isSome_lookup_of_listAll hlist]
        rwa [hpending] at hip
      · rw [hpending]
        exact nodup_listAll hlist
  | notListed => exact h
  | began hcycle =>
      refine h.quiet rfl ?_
      rw [hcycle]
      rfl
  | probed ok hcycle =>
      refine h.quiet rfl ?_
      rw [hcycle]
      rfl
  | verdict hcycle => exact h.verdict hcycle
  | ended _ => exact .of_sync h.sync rfl
  | locked hcycle =>
      refine h.quiet rfl ?_
      rw [hcycle]
      rfl
  | removed hcycle => exact h.removed hcycle
  | unlocked _ _ => exact .of_sync h.sync rfl
  | restarted hlist => exact .of_sync (sync_of_listAll hlist s.clock) rfl

/-- A server starts consistent. -/
theorem consistent_start {store : NodeStore} {offlineTtl : Duration} {clock : Instant} {g : Inner}
    (hnew : Server.new sd none store offlineTtl clock = .ok g) :
    Consistent (Sys.start g clock : Sys E) := by
  obtain ⟨nodes, hlist, rfl⟩ := new_ok_iff.mp hnew
  exact .of_sync (sync_of_listAll hlist clock) rfl

theorem consistent_of_reaches {store : NodeStore} {offlineTtl : Duration} {clock : Instant}
    {g : Inner} (hnew : Server.new sd none store offlineTtl clock = .ok g) {s : Sys E}
    (h : Reaches (Sys.step sd) (Sys.start g clock) s) : Consistent s := by
  refine h.invariant (J := Consistent) (consistent_start hnew) ?_
  intro s a s' hs hstep
  exact hs.trans (trans_of_step hstep)

/-! ## Acknowledgements -/

/-- An acknowledgement enters the outbox in the step that writes both entries. -/
theorem ack_of_trans {s s' : Sys E} {a : Label} {es : List (Event E)} (ht : Trans sd s a s' es)
    {x : Answer} (hx : x ∈ s'.outbox) (hack : x.reply.messageType = msgRegisterAck) :
    x ∈ s.outbox ∨ ∃ node row, es = [.registered node s.clock] ∧ node.ip = x.peer ∧
      s'.inner.store.lookup x.peer = some row ∧
      s'.inner.health x.peer = some ⟨true, s.clock⟩ := by
  cases ht with
  | @registered peer frame nowSecs node row _ _ hadmitted hrow =>
      rcases List.mem_append.mp hx with hx | hx
      · exact Or.inl hx
      · obtain rfl := List.mem_singleton.mp hx
        have hip := ip_of_admitRegister hadmitted
        refine Or.inr ⟨node, row, rfl, hip, ?_, ?_⟩
        · rw [Keyed.Table.lookup_upsert, ip_of_rowOfNode hrow, if_pos hip.symm]
        · simp [hip]
  | answered _ hno =>
      rcases List.mem_append.mp hx with hx | hx
      · exact Or.inl hx
      · exact absurd hack (hno x hx)
  | sent _ => exact Or.inl (List.mem_of_mem_eraseIdx hx)
  | restarted _ => exact absurd hx List.not_mem_nil
  | tick _ => exact Or.inl hx
  | listed _ _ => exact Or.inl hx
  | notListed => exact Or.inl hx
  | began _ => exact Or.inl hx
  | probed _ _ => exact Or.inl hx
  | verdict _ => exact Or.inl hx
  | ended _ => exact Or.inl hx
  | locked _ => exact Or.inl hx
  | removed _ => exact Or.inl hx
  | unlocked _ _ => exact Or.inl hx

/-- Every acknowledgement waiting to be sent answers a registration on record. -/
def AcksRegistered (c : Run E) : Prop :=
  ∀ x ∈ c.state.outbox, x.reply.messageType = msgRegisterAck →
    ∃ node time, .registered node time ∈ c.log ∧ node.ip = x.peer

theorem acksRegistered_step {c c' : Run E} {a : Label} (h : AcksRegistered c)
    (hstep : Run.step sd c a = some c') : AcksRegistered c' := by
  obtain ⟨s', es, ht, rfl⟩ := trans_of_runStep hstep
  intro x hx hack
  rcases ack_of_trans ht hx hack with hx | ⟨node, row, rfl, hip, _⟩
  · obtain ⟨node, time, hmem, hip⟩ := h x hx hack
    exact ⟨node, time, List.mem_append_right _ hmem, hip⟩
  · exact ⟨node, _, List.mem_cons_self, hip⟩

theorem acksRegistered_of_reaches {g : Inner} {clock : Instant} {c : Run E}
    (h : Reaches (Run.step sd) ⟨Sys.start g clock, []⟩ c) : AcksRegistered c := by
  refine h.invariant (J := AcksRegistered) (fun _ hx => absurd hx List.not_mem_nil) ?_
  intro c a c' hc hstep
  exact acksRegistered_step hc hstep

/-! ## One register request, one failing removal -/

/-- `RegisterAtomic sd peer frame fault nowSecs now g`: the request writes both
entries of its peer and is acknowledged, or writes nothing and is not; no other
entry changes. -/
def RegisterAtomic (sd : Serde E) (peer : String) (frame : TinyFrame.Frame)
    (fault : Option StoreError) (nowSecs : Int) (now : Instant) (g : Inner) : Prop :=
  let (result, g') := handleRegister sd peer frame fault nowSecs now g
  ((∃ node row, admitRegister sd peer frame = .ok node ∧
      upsert sd fault nowSecs node g.store = .ok g'.store ∧ rowOfNode sd nowSecs node = .ok row ∧
      result = .ok ⟨msgRegisterAck, frame.txId, ackBody⟩ ∧
      g'.store.lookup peer = some row ∧ g'.health peer = some ⟨true, now⟩) ∨
    ((sd.registerRequest.decode frame.data = none ∨
        (∃ req, sd.registerRequest.decode frame.data = some req ∧ req.labels = []) ∨
        ∃ node e, admitRegister sd peer frame = .ok node ∧
          upsert sd fault nowSecs node g.store = .error e) ∧
      g' = g ∧ ∀ r, result = .ok r → r.messageType ≠ msgRegisterAck)) ∧
  ∀ ip, ip ≠ peer → g'.store.lookup ip = g.store.lookup ip ∧ g'.health ip = g.health ip

theorem registerAtomic (peer : String) (frame : TinyFrame.Frame) (fault : Option StoreError)
    (nowSecs : Int) (now : Instant) (g : Inner) :
    RegisterAtomic sd peer frame fault nowSecs now g := by
  rw [RegisterAtomic]
  rcases handleRegister_cases sd peer frame fault nowSecs now g with
    ⟨node, row, hadmitted, hfault, hrow, heq, _⟩ | ⟨result, heq, hno, _, hwhy⟩
  · rw [heq]
    have hip := ip_of_admitRegister hadmitted
    have hrowip := (ip_of_rowOfNode hrow).trans hip
    refine ⟨Or.inl ⟨node, row, hadmitted, upsert_ok_iff.mpr ⟨hfault, row, hrow, rfl⟩, hrow, rfl, ?_, ?_⟩,
      ?_⟩
    · rw [Keyed.Table.lookup_upsert, if_pos hrowip.symm]
    · simp [hip]
    · intro ip hne
      rw [Keyed.Table.lookup_upsert, hrowip, if_neg hne, hip]
      exact ⟨rfl, Function.update_of_ne hne _ _⟩
  · rw [heq]
    refine ⟨Or.inr ⟨?_, rfl, ?_⟩, fun _ _ => ⟨rfl, rfl⟩⟩
    · rcases hwhy with ⟨done, hdone⟩ | hup
      · rcases admitRegister_refused hdone with h | h
        · exact Or.inl h
        · exact Or.inr (Or.inl h)
      · exact Or.inr (Or.inr hup)
    · intro r hr
      rw [hno r hr]
      decide

/-- A removal that fails changes neither store, and every ip not yet removed is in both. -/
theorem removal_fails {s s' : Sys E} (h : Consistent s) {ip : String} {expired : List String}
    (hcycle : s.cycle = .removing (ip :: expired)) {e : StoreError}
    (hstep : s.step sd (.removeNext (some e)) = some s') :
    s'.inner = s.inner ∧ ∀ ip' ∈ ip :: expired,
      (s'.inner.store.lookup ip').isSome ∧ (s'.inner.health ip').isSome := by
  have hinner : s'.inner = s.inner := by
    simp only [Sys.step, hcycle] at hstep
    obtain rfl := Option.some.inj hstep
    rfl
  refine ⟨hinner, ?_⟩
  intro ip' hip'
  have hknown := h.known ip' (by rw [hcycle]; exact hip')
  rw [hinner, h.sync]
  exact ⟨hknown, hknown⟩

/-- **The registry is consistent and its requests are atomic**, from any
database the server can start on, whatever fails and however the tasks
interleave. -/
theorem registry_consistent (sd : Serde E) (store : NodeStore) (offlineTtl : Duration)
    (clock : Instant) (g : Inner) (hnew : Server.new sd none store offlineTtl clock = .ok g) :
    (∀ s, Reaches (Sys.step sd) (Sys.start g clock) s → s.cycle.holdsLock = false →
      ∀ ip, (s.inner.store.lookup ip).isSome ↔ (s.inner.health ip).isSome) ∧
    (∀ peer frame fault nowSecs now g₁, RegisterAtomic sd peer frame fault nowSecs now g₁) ∧
    (∀ (s s' : Sys E) a, s.step sd a = some s' →
      ∀ x ∈ s'.outbox, x.reply.messageType = msgRegisterAck →
        x ∈ s.outbox ∨ ∃ row, s'.inner.store.lookup x.peer = some row ∧
          s'.inner.health x.peer = some ⟨true, s.clock⟩) ∧
    (∀ c : Run E, Reaches (Run.step sd) ⟨Sys.start g clock, []⟩ c →
      ∀ x ∈ c.state.outbox, x.reply.messageType = msgRegisterAck →
        ∃ node time, .registered node time ∈ c.log ∧ node.ip = x.peer) ∧
    (∀ s, Reaches (Sys.step sd) (Sys.start g clock) s →
      ∀ ip expired, s.cycle = .removing (ip :: expired) →
      ∀ e s', s.step sd (.removeNext (some e)) = some s' →
        s'.inner = s.inner ∧ ∀ ip' ∈ ip :: expired,
          (s'.inner.store.lookup ip').isSome ∧ (s'.inner.health ip').isSome) := by
  refine ⟨?_, registerAtomic, ?_, ?_, ?_⟩
  · intro s hs _
    exact (consistent_of_reaches hnew hs).sync
  · intro s s' a hstep x hx hack
    rcases ack_of_trans (trans_of_step hstep) hx hack with hold | ⟨_, row, _, _, hrow, hhealth⟩
    · exact Or.inl hold
    · exact Or.inr ⟨row, hrow, hhealth⟩
  · intro c hc
    exact acksRegistered_of_reaches hc
  · intro s hs ip expired hcycle e s' hstep
    exact removal_fails (consistent_of_reaches hnew hs) hcycle hstep

end

/-- A database with one node, from an earlier process. -/
def oneNodeStore : NodeStore :=
  Keyed.Table.empty.upsert ⟨"10.0.0.7", 9001, "[\"api\"]", "null", 0⟩

/-- A second node registers; neither answers its probe, and both have been silent
for long enough when the cycle comes round to its removals. -/
def twoSilent : List Label :=
  [.frame "10.0.0.8" (registerFrame 9002) none 0, .send 0, .snapshot none, .tick 20, .readNow,
    .probeDone false, .applyVerdict, .probeDone false, .applyVerdict, .endLoop]

theorem twoSilent_runs : ∃ g s, Server.new unitSerde none oneNodeStore 10 5 = .ok g ∧
    exec (Sys.step unitSerde) (Sys.start g 5) (twoSilent ++ [.removeNext none]) = some s ∧
    s.cycle = .removing ["10.0.0.8"] :=
  ⟨_, _, rfl, rfl, rfl⟩

/-- The removal of the first node has gone through.  That of the second fails: it
is still in both stores, and they agree. -/
theorem registry_consistent_two :
    ∃ g s s', Server.new unitSerde none oneNodeStore 10 5 = .ok g ∧
      exec (Sys.step unitSerde) (Sys.start g 5) (twoSilent ++ [.removeNext none]) = some s ∧
      s.step unitSerde (.removeNext (some .poisoned)) = some s' ∧ s'.inner = s.inner ∧
      (s'.inner.store.lookup "10.0.0.8").isSome ∧ (s'.inner.health "10.0.0.8").isSome ∧
      ∀ ip, (s'.inner.store.lookup ip).isSome ↔ (s'.inner.health ip).isSome := by
  obtain ⟨g, s, hnew, hexec, hcycle⟩ := twoSilent_runs
  have hstep : s.step unitSerde (.removeNext (some .poisoned)) = some { s with cycle := .idle } := by
    simp only [Sys.step, hcycle]
    rfl
  have hreach := reaches_of_exec hexec
  obtain ⟨hsync, _, _, _, hfails⟩ := registry_consistent unitSerde oneNodeStore 10 5 g hnew
  obtain ⟨hinner, hthere⟩ := hfails s hreach "10.0.0.8" [] hcycle .poisoned _ hstep
  obtain ⟨hrow, hhealth⟩ := hthere "10.0.0.8" List.mem_cons_self
  exact ⟨g, s, _, hnew, hexec, hstep, hinner, hrow, hhealth, hsync _ (hreach.tail hstep) rfl⟩

end Proto4.Dfinder
