/-
# `Proto4.Dfinder.Cycle` — a probe cycle that nothing interrupts

`run_probe_cycle` as one function: a listing, a loop over what was listed that
writes verdicts and collects the expired, and a loop over the expired that stops
at the first removal that fails.  A listing names every ip once, so a verdict is
passed on what the cycle found: neither loop can see its own writes.

`runProbeCycle_exact` says what is left afterwards, for either way the cycle can
end early.  `runProbeCycle_alone` is the connection to the running server: with
no other task between its steps, the probe task does what the function does.
-/
import Proto4.Dfinder.ProbeLoop

namespace Proto4.Dfinder

open Lts

section
variable {E : Type}

/-! ## The two loops -/

/-- The loop over the listed nodes: who is expired, and the state after the
verdicts. -/
def probeLoop (probe : NodeInfo E → Bool) (now : Instant) :
    List (NodeInfo E) → List String → Inner → List String × Inner
  | [], expired, g => (expired, g)
  | node :: nodes, expired, g =>
      let (g', isExpired) := g.applyVerdict now node.ip (probe node)
      probeLoop probe now nodes (if isExpired then expired ++ [node.ip] else expired) g'

/-- The loop over the expired. -/
def removeLoop (removeFault : String → Option StoreError) :
    List String → Inner → Except ServerError Unit × Inner
  | [], g => (.ok (), g)
  | ip :: expired, g =>
      match g.removeNode (removeFault ip) ip with
      | .error e => (.error (.store e), g)
      | .ok g' => removeLoop removeFault expired g'

/-- `run_probe_cycle`, between the instants at which others get the lock. -/
def runProbeCycle (sd : Serde E) (listFault : Option StoreError)
    (removeFault : String → Option StoreError) (probe : NodeInfo E → Bool) (now : Instant)
    (g : Inner) : Except ServerError Unit × Inner :=
  match listAll sd listFault g.store with
  | .error e => (.error (.store e), g)
  | .ok nodes =>
      let (expired, g') := probeLoop probe now nodes [] g
      if expired.isEmpty then (.ok (), g') else removeLoop removeFault expired g'

/-! ## Verdicts -/

variable {probe : NodeInfo E → Bool} {now : Instant}

/-- The entry a node gets: its last success is kept unless the probe is one. -/
def judged (probe : NodeInfo E → Bool) (now : Instant) (g : Inner) (n : NodeInfo E) :
    HealthState :=
  ⟨probe n, if probe n then now else ((g.health n.ip).getD ⟨false, now⟩).lastOk⟩

/-- Whether a node expires. -/
def expires (probe : NodeInfo E → Bool) (now : Instant) (g : Inner) (n : NodeInfo E) : Bool :=
  (g.applyVerdict now n.ip (probe n)).2

theorem judged_congr {g g' : Inner} {n : NodeInfo E} (h : g'.health n.ip = g.health n.ip) :
    judged probe now g' n = judged probe now g n := by
  rw [judged, judged, h]

theorem expires_congr {g g' : Inner} {n : NodeInfo E} (h : g'.health n.ip = g.health n.ip)
    (httl : g'.offlineTtl = g.offlineTtl) :
    expires probe now g' n = expires probe now g n := by
  rw [expires, expires, Bool.eq_iff_iff, applyVerdict_expired, applyVerdict_expired, h, httl]

/-- A verdict leaves the entries of other ips alone. -/
theorem applyVerdict_other {ip ip' : String} (hne : ip ≠ ip') (ok : Bool) (g : Inner) :
    (g.applyVerdict now ip' ok).1.health ip = g.health ip := by
  rw [applyVerdict_health, Function.update_of_ne hne]

theorem probeLoop_store (nodes : List (NodeInfo E)) (expired : List String) (g : Inner) :
    (probeLoop probe now nodes expired g).2.store = g.store := by
  induction nodes generalizing expired g with
  | nil => rfl
  | cons node nodes ih => rw [probeLoop, ih, applyVerdict_store]

theorem probeLoop_offlineTtl (nodes : List (NodeInfo E)) (expired : List String) (g : Inner) :
    (probeLoop probe now nodes expired g).2.offlineTtl = g.offlineTtl := by
  induction nodes generalizing expired g with
  | nil => rfl
  | cons node nodes ih => rw [probeLoop, ih, applyVerdict_offlineTtl]

/-- What was not listed keeps its entry. -/
theorem probeLoop_other {ip : String} {nodes : List (NodeInfo E)}
    (h : ip ∉ nodes.map NodeInfo.ip) (expired : List String) (g : Inner) :
    (probeLoop probe now nodes expired g).2.health ip = g.health ip := by
  induction nodes generalizing expired g with
  | nil => rfl
  | cons node nodes ih =>
      rw [List.map_cons, List.mem_cons, not_or] at h
      rw [probeLoop, ih h.2, applyVerdict_other h.1]

/-- What was listed is judged by what the loop started from. -/
theorem probeLoop_health {nodes : List (NodeInfo E)} (hnodup : (nodes.map NodeInfo.ip).Nodup)
    (expired : List String) (g : Inner) {n : NodeInfo E} (hn : n ∈ nodes) :
    (probeLoop probe now nodes expired g).2.health n.ip = some (judged probe now g n) := by
  induction nodes generalizing expired g with
  | nil => cases hn
  | cons node nodes ih =>
      rw [List.map_cons, List.nodup_cons] at hnodup
      rw [probeLoop]
      rcases List.mem_cons.mp hn with rfl | hn
      · rw [probeLoop_other hnodup.1, applyVerdict_health, Function.update_self]
        rfl
      · have hne : n.ip ≠ node.ip := fun h => hnodup.1 (h ▸ List.mem_map_of_mem hn)
        rw [ih hnodup.2 _ _ hn, judged_congr (applyVerdict_other hne _ g)]

/-- And so is who expires, in the order of the listing. -/
theorem probeLoop_expired {nodes : List (NodeInfo E)} (hnodup : (nodes.map NodeInfo.ip).Nodup)
    (expired : List String) (g : Inner) :
    (probeLoop probe now nodes expired g).1
      = expired ++ (nodes.filter (expires probe now g)).map NodeInfo.ip := by
  induction nodes generalizing expired g with
  | nil => exact (List.append_nil _).symm
  | cons node nodes ih =>
      rw [List.map_cons, List.nodup_cons] at hnodup
      have hrest : ∀ m ∈ nodes, expires probe now (g.applyVerdict now node.ip (probe node)).1 m
          = expires probe now g m := by
        intro m hm
        have hne : m.ip ≠ node.ip := fun h => hnodup.1 (h ▸ List.mem_map_of_mem hm)
        exact expires_congr (applyVerdict_other hne _ g) (applyVerdict_offlineTtl _ _ _ g)
      rw [probeLoop, ih hnodup.2, List.filter_congr hrest]
      show (if expires probe now g node = true then _ else _) ++ _ = _
      cases hexp : expires probe now g node with
      | true =>
          rw [if_pos rfl, List.filter_cons_of_pos hexp, List.map_cons, List.append_assoc,
            List.singleton_append]
      | false =>
          have hnot : ¬ expires probe now g node = true := by
            rw [hexp]
            exact Bool.false_ne_true
          rw [if_neg Bool.false_ne_true, List.filter_cons_of_neg hnot]

/-! ## Removals -/

/-- The state without some ips. -/
def Inner.without (ips : List String) (g : Inner) : Inner :=
  ips.foldl (fun g ip => { g with
    store := g.store.erase ip
    health := Function.update g.health ip none }) g

/-- Removals that succeed leave the rest of the loop to do. -/
theorem removeLoop_append {removeFault : String → Option StoreError} {removed : List String}
    (h : ∀ ip ∈ removed, removeFault ip = none) (rest : List String) (g : Inner) :
    removeLoop removeFault (removed ++ rest) g
      = removeLoop removeFault rest (g.without removed) := by
  induction removed generalizing g with
  | nil => rfl
  | cons ip removed ih =>
      have hok : g.removeNode (removeFault ip) ip = .ok _ :=
        removeNode_ok_iff.mpr ⟨h ip List.mem_cons_self, rfl⟩
      rw [List.cons_append, removeLoop, hok]
      exact ih (fun ip' hip' => h ip' (List.mem_cons_of_mem ip hip')) _

/-- One that fails ends the loop. -/
theorem removeLoop_fails {removeFault : String → Option StoreError} {ip : String} {e : StoreError}
    (h : removeFault ip = some e) (rest : List String) (g : Inner) :
    removeLoop removeFault (ip :: rest) g = (.error (.store e), g) := by
  rw [removeLoop, h]
  rfl

theorem lookup_without (ips : List String) (g : Inner) (ip : String) :
    (g.without ips).store.lookup ip = if ip ∈ ips then none else g.store.lookup ip := by
  induction ips generalizing g with
  | nil => rfl
  | cons ip' ips ih =>
      rw [Inner.without, List.foldl_cons]
      refine (ih _).trans ?_
      rw [Keyed.Table.lookup_erase]
      by_cases hip : ip = ip'
      · simp [hip]
      · simp [hip]

theorem health_without (ips : List String) (g : Inner) (ip : String) :
    (g.without ips).health ip = if ip ∈ ips then none else g.health ip := by
  induction ips generalizing g with
  | nil => rfl
  | cons ip' ips ih =>
      rw [Inner.without, List.foldl_cons]
      refine (ih _).trans ?_
      by_cases hip : ip = ip'
      · simp [hip]
      · simp [hip]

/-! ## The cycle alone -/

variable {sd : Serde E}

/-- `g'` is `g` after a cycle that removed `removed`: those are gone from both
stores, every other node keeps its row and is judged, and nothing else has an
entry. -/
structure Concluded (sd : Serde E) (probe : NodeInfo E → Bool) (now : Instant)
    (removed : List String) (g g' : Inner) : Prop where
  row : ∀ ip, g'.store.lookup ip = if ip ∈ removed then none else g.store.lookup ip
  gone : ∀ ip ∈ removed, g'.health ip = none
  kept : ∀ ip ∉ removed, ∀ n x, stored sd g.store ip = some n → g.health ip = some x →
    g'.health ip = some ⟨probe n, if probe n then now else x.lastOk⟩
  nothing : ∀ ip, g.store.lookup ip = none → g'.health ip = none
  offlineTtl : g'.offlineTtl = g.offlineTtl

/-- Whoever is expired: the probe failed, and the last success is `offline_ttl`
or more before the start of the cycle. -/
def Expired (sd : Serde E) (probe : NodeInfo E → Bool) (now : Instant) (g : Inner)
    (ip : String) : Prop :=
  ∃ n x, stored sd g.store ip = some n ∧ g.health ip = some x ∧ probe n = false ∧
    x.lastOk ≤ now ∧ g.offlineTtl ≤ now - x.lastOk

theorem offlineTtl_without (ips : List String) (g : Inner) :
    (g.without ips).offlineTtl = g.offlineTtl := by
  induction ips generalizing g with
  | nil => rfl
  | cons ip ips ih => exact ih _

/-- A node of a listing is what is stored under its ip, and has an entry. -/
theorem entry_of_listAll {g : Inner} {fault : Option StoreError} {nodes : List (NodeInfo E)}
    (hlist : listAll sd fault g.store = .ok nodes)
    (hsync : ∀ ip, (g.store.lookup ip).isSome ↔ (g.health ip).isSome) {n : NodeInfo E}
    (hn : n ∈ nodes) : stored sd g.store n.ip = some n ∧ ∃ x, g.health n.ip = some x := by
  have hstored := (mem_listAll hlist).mp hn
  obtain ⟨row, hrow, _⟩ := stored_eq_some.mp hstored
  refine ⟨hstored, Option.isSome_iff_exists.mp ((hsync n.ip).mp ?_)⟩
  rw [hrow]
  rfl

/-- Who the cycle collects. -/
theorem mem_expired_iff {g : Inner} {fault : Option StoreError} {nodes : List (NodeInfo E)}
    (hlist : listAll sd fault g.store = .ok nodes)
    (hsync : ∀ ip, (g.store.lookup ip).isSome ↔ (g.health ip).isSome)
    (hpast : ∀ ip x, g.health ip = some x → x.lastOk ≤ now) {ip : String} :
    ip ∈ (nodes.filter (expires probe now g)).map NodeInfo.ip ↔ Expired sd probe now g ip := by
  constructor
  · intro h
    obtain ⟨n, hn, rfl⟩ := List.mem_map.mp h
    obtain ⟨hmem, hexp⟩ := List.mem_filter.mp hn
    obtain ⟨hstored, x, hx⟩ := entry_of_listAll hlist hsync hmem
    obtain ⟨hfail, hold⟩ := applyVerdict_expired.mp hexp
    rw [hx] at hold
    exact ⟨n, x, hstored, hx, hfail, hpast _ _ hx, hold⟩
  · rintro ⟨n, x, hstored, hx, hfail, _, hold⟩
    obtain rfl := ip_of_stored hstored
    refine List.mem_map_of_mem (List.mem_filter.mpr ⟨(mem_listAll hlist).mpr hstored, ?_⟩)
    refine applyVerdict_expired.mpr ⟨hfail, ?_⟩
    rw [hx]
    exact hold

/-- The state after the verdicts, without those that were removed. -/
theorem concluded_without {g : Inner} {fault : Option StoreError} {nodes : List (NodeInfo E)}
    (hlist : listAll sd fault g.store = .ok nodes)
    (hsync : ∀ ip, (g.store.lookup ip).isSome ↔ (g.health ip).isSome) (removed : List String) :
    Concluded sd probe now removed g ((probeLoop probe now nodes [] g).2.without removed) where
  row ip := by rw [lookup_without, probeLoop_store]
  gone ip hip := by rw [health_without, if_pos hip]
  kept ip hip n x hstored hx := by
    obtain rfl := ip_of_stored hstored
    rw [health_without, if_neg hip,
      probeLoop_health (nodup_listAll hlist) [] g ((mem_listAll hlist).mpr hstored), judged, hx]
    rfl
  nothing ip hnone := by
    have hnot : ip ∉ nodes.map NodeInfo.ip := by
      intro hip
      have hsome := (isSome_lookup_of_listAll hlist).mpr hip
      rw [hnone] at hsome
      cases hsome
    rw [health_without, probeLoop_other hnot]
    split
    · rfl
    · cases hx : g.health ip with
      | none => rfl
      | some x =>
          have hsome := (hsync ip).mpr (by rw [hx]; rfl)
          rw [hnone] at hsome
          cases hsome
  offlineTtl := by rw [offlineTtl_without, probeLoop_offlineTtl]

/-- **What a probe cycle does**, alone, to any registry whose two stores agree: it
judges every node and removes the expired, one after the other in the order of
the listing, up to the first removal that fails; and a listing that fails leaves
everything as it was. -/
theorem runProbeCycle_exact (sd : Serde E) (g : Inner)
    (hsync : ∀ ip, (g.store.lookup ip).isSome ↔ (g.health ip).isSome) (now : Instant)
    (hpast : ∀ ip x, g.health ip = some x → x.lastOk ≤ now) (probe : NodeInfo E → Bool)
    (listFault : Option StoreError) (removeFault : String → Option StoreError) :
    (∀ e, (listAll sd listFault g.store : Except StoreError (List (NodeInfo E))) = .error e →
      runProbeCycle sd listFault removeFault probe now g = (.error (.store e), g)) ∧
    ∀ nodes : List (NodeInfo E), listAll sd listFault g.store = .ok nodes →
      ∃ expired : List String,
        (∀ ip, ip ∈ expired ↔ Expired sd probe now g ip) ∧
        expired.Sublist (nodes.map NodeInfo.ip) ∧ expired.Nodup ∧
        ((∀ ip ∈ expired, removeFault ip = none) →
          ∃ g', runProbeCycle sd listFault removeFault probe now g = (.ok (), g') ∧
            Concluded sd probe now expired g g') ∧
        ∀ removed ip rest e, expired = removed ++ ip :: rest →
          (∀ ip' ∈ removed, removeFault ip' = none) → removeFault ip = some e →
          ∃ g', runProbeCycle sd listFault removeFault probe now g = (.error (.store e), g') ∧
            Concluded sd probe now removed g g' := by
  refine ⟨?_, ?_⟩
  · intro e he
    rw [runProbeCycle, he]
  · intro nodes hlist
    have hnodup := nodup_listAll hlist
    have hloop : runProbeCycle sd listFault removeFault probe now g
        = removeLoop removeFault ((nodes.filter (expires probe now g)).map NodeInfo.ip)
            (probeLoop probe now nodes [] g).2 := by
      rw [runProbeCycle, hlist]
      dsimp only
      rw [probeLoop_expired hnodup, List.nil_append]
      cases (nodes.filter (expires probe now g)).map NodeInfo.ip with
      | nil => rfl
      | cons ip expired => rfl
    have hsub : ((nodes.filter (expires probe now g)).map NodeInfo.ip).Sublist
        (nodes.map NodeInfo.ip) := List.filter_sublist.map NodeInfo.ip
    refine ⟨_, fun ip => mem_expired_iff hlist hsync hpast, hsub, hnodup.sublist hsub, ?_, ?_⟩
    · intro hok
      refine ⟨_, ?_, concluded_without hlist hsync _⟩
      rw [hloop]
      have hall := removeLoop_append hok [] (probeLoop probe now nodes [] g).2
      rwa [List.append_nil] at hall
    · intro removed ip rest e heq hok hfail
      refine ⟨_, ?_, concluded_without hlist hsync removed⟩
      rw [hloop, heq, removeLoop_append hok, removeLoop_fails hfail]

/-! ## The running server with nothing else to do -/

/-- The steps of the probe task. -/
def Label.ofCycle : Label → Bool
  | .snapshot _ | .readNow | .probeDone _ | .applyVerdict | .endLoop | .removeNext _ => true
  | _ => false

variable (sd) in
/-- The running server while only its probe task moves. -/
def Sys.stepAlone (s : Sys E) (a : Label) : Option (Sys E) :=
  if a.ofCycle then s.step sd a else none

/-- The loop over the listed nodes, step by step. -/
theorem probeLoop_alone (probe : NodeInfo E → Bool) (nodes : List (NodeInfo E))
    (expired : List String) {s : Sys E}
    (h : s.cycle = .probing now nodes expired) :
    Reaches (Sys.stepAlone sd) s { s with
      inner := (probeLoop probe now nodes expired s.inner).2
      cycle := .probing now [] (probeLoop probe now nodes expired s.inner).1 } := by
  induction nodes generalizing expired s with
  | nil =>
      obtain ⟨inner, clock, cycle, outbox⟩ := s
      obtain rfl : cycle = _ := h
      exact .refl
  | cons node nodes ih =>
      have hprobe : s.stepAlone sd (.probeDone (probe node))
          = some { s with cycle := .probed now node (probe node) nodes expired } := by
        simp only [Sys.stepAlone, Label.ofCycle, if_true, Sys.step, h]
      have hverdict := (rfl : Sys.stepAlone sd
        { s with cycle := .probed now node (probe node) nodes expired } .applyVerdict = some _)
      exact (Reaches.tail (.tail .refl hprobe) hverdict).trans (ih _ rfl)

/-- The loop over the expired, step by step. -/
theorem removeLoop_alone (removeFault : String → Option StoreError) (expired : List String)
    {s : Sys E} (h : s.cycle = .removing expired) :
    Reaches (Sys.stepAlone sd) s { s with
      inner := (removeLoop removeFault expired s.inner).2
      cycle := .idle } := by
  induction expired generalizing s with
  | nil =>
      have hend : s.stepAlone sd (.removeNext none) = some { s with cycle := .idle } := by
        simp only [Sys.stepAlone, Label.ofCycle, if_true, Sys.step, h]
      exact .tail .refl hend
  | cons ip expired ih =>
      rw [removeLoop]
      cases hrem : s.inner.removeNode (removeFault ip) ip with
      | error e =>
          have hfail : s.stepAlone sd (.removeNext (removeFault ip))
              = some { s with cycle := .idle } := by
            simp only [Sys.stepAlone, Label.ofCycle, if_true, Sys.step, h, hrem]
          exact .tail .refl hfail
      | ok inner =>
          have hremove : s.stepAlone sd (.removeNext (removeFault ip))
              = some { s with inner, cycle := .removing expired } := by
            simp only [Sys.stepAlone, Label.ofCycle, if_true, Sys.step, h, hrem]
          exact (Reaches.tail .refl hremove).trans (ih rfl)

/-- **The probe task alone runs the cycle.**  From one idle state to the next it
does to the shared state what `runProbeCycle` does, with its `now` the clock. -/
theorem runProbeCycle_alone (listFault : Option StoreError)
    (removeFault : String → Option StoreError) (probe : NodeInfo E → Bool) {s : Sys E}
    (hidle : s.cycle = .idle) :
    Reaches (Sys.stepAlone sd) s { s with
      inner := (runProbeCycle sd listFault removeFault probe s.clock s.inner).2 } := by
  rw [runProbeCycle]
  cases hlist : (listAll sd listFault s.inner.store : Except StoreError (List (NodeInfo E))) with
  | error e => exact .refl
  | ok nodes =>
      have hsnap : s.stepAlone sd (.snapshot listFault)
          = some { s with cycle := .listed nodes } := by
        simp only [Sys.stepAlone, Label.ofCycle, if_true, Sys.step, hidle, hlist]
      have hnow := (rfl : Sys.stepAlone sd { s with cycle := .listed nodes } .readNow = some _)
      have hprobed := (Reaches.tail (.tail .refl hsnap) hnow).trans
        (probeLoop_alone probe nodes [] rfl)
      dsimp only at hprobed ⊢
      cases hexp : (probeLoop probe s.clock nodes [] s.inner).1 with
      | nil =>
          rw [hexp] at hprobed
          obtain ⟨inner, clock, cycle, outbox⟩ := s
          obtain rfl : cycle = .idle := hidle
          exact hprobed.tail (show Sys.stepAlone sd _ .endLoop = some _ from rfl)
      | cons ip expired =>
          rw [hexp] at hprobed
          obtain ⟨inner, clock, cycle, outbox⟩ := s
          obtain rfl : cycle = .idle := hidle
          exact (hprobed.tail (show Sys.stepAlone sd _ .endLoop = some _ from rfl)).trans
            (removeLoop_alone removeFault (ip :: expired) rfl)

end

/-! Two nodes that do not answer, of which one has been silent for long enough. -/

def twoNodes : Inner where
  store := (Keyed.Table.empty.upsert ⟨"10.0.0.7", 9001, "[\"api\"]", "null", 0⟩).upsert
    ⟨"10.0.0.8", 9002, "[\"api\"]", "null", 0⟩
  health := Function.update
    (Function.update (fun _ => none) "10.0.0.7" (some ⟨true, 1⟩)) "10.0.0.8" (some ⟨true, 8⟩)
  offlineTtl := 10

theorem twoNodes_sync (ip : String) :
    (twoNodes.store.lookup ip).isSome ↔ (twoNodes.health ip).isSome := by
  rw [twoNodes, Keyed.Table.lookup_upsert, Keyed.Table.lookup_upsert]
  dsimp only
  rw [Function.update_apply, Function.update_apply]
  split
  · exact Iff.rfl
  · split
    · exact Iff.rfl
    · exact Iff.rfl

theorem twoNodes_past (ip : String) (x : HealthState) (h : twoNodes.health ip = some x) :
    x.lastOk ≤ 12 := by
  rw [twoNodes] at h
  rcases update_eq_some.mp h with ⟨_, hx⟩ | ⟨_, h⟩
  · obtain rfl := Option.some.inj hx
    decide
  · rcases update_eq_some.mp h with ⟨_, hx⟩ | ⟨_, h⟩
    · obtain rfl := Option.some.inj hx
      decide
    · cases h

theorem runProbeCycle_exact_two :
    ∃ expired g', (∀ ip, ip ∈ expired ↔ Expired unitSerde (fun _ => false) 12 twoNodes ip) ∧
      runProbeCycle unitSerde none (fun _ => none) (fun _ => false) 12 twoNodes = (.ok (), g') ∧
      Concluded unitSerde (fun _ => false) 12 expired twoNodes g' := by
  obtain ⟨expired, hmem, _, _, hdone, _⟩ :=
    (runProbeCycle_exact unitSerde twoNodes twoNodes_sync 12 twoNodes_past (fun _ => false) none
      (fun _ => none)).2 [⟨"10.0.0.7", 9001, ["api"], ()⟩, ⟨"10.0.0.8", 9002, ["api"], ()⟩] rfl
  obtain ⟨g', hrun, hg'⟩ := hdone fun _ _ => rfl
  exact ⟨expired, g', hmem, hrun, hg'⟩

end Proto4.Dfinder
