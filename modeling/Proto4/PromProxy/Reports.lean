/-
# `Proto4.PromProxy.Reports` — what the upstream reads of the counters

A flush reads the totals in one step and posts them in another, and the handlers
go on counting in between.  What is posted is none the less the counters at one
moment of the run (`Taken`), the same one for all keys.

`Snapshot` says what the upstream then has: one series a key, and under each the
requests that had been counted at that moment, as a float that below `2 ^ 53`
no other count has.
-/
import Proto4.PromProxy.Accounting
import Proto4.PromProxy.Metrics

namespace Proto4.PromProxy

open Lts

/-! ## Totals -/

/-- Totals have no key twice. -/
theorem keys_current (hash : EdgeHash) :
    (EdgeHash.current hash).Pairwise fun total total' => total.1 ≠ total'.1 := by
  rw [EdgeHash.current, List.pairwise_filterMap]
  refine (List.pairwise_map.mp hash.nodup).imp ?_
  intro field field' hne total htotal total' htotal'
  split at htotal
  · obtain rfl := Option.some.inj htotal
    split at htotal'
    · obtain rfl := Option.some.inj htotal'
      exact hne
    · cases htotal'
  · cases htotal

/-- A total is the value of its counter. -/
theorem value_of_mem_current {hash : EdgeHash} {key : String} {v : UInt64}
    (h : (key, v) ∈ EdgeHash.current hash) : (v.toNat : Int) = EdgeHash.value hash key := by
  obtain ⟨value, hlookup, hpos, rfl⟩ := mem_current.mp h
  have hle : 0 ≤ value.toInt := Int64.le_iff_toInt_le.mp hpos
  rw [EdgeHash.value, hlookup, Int64.toNat_toUInt64_of_le hpos, Int64.toNatClampNeg,
    Int.toNat_of_nonneg hle]

/-- A counter above zero is among the totals. -/
theorem mem_current_of_pos {hash : EdgeHash} {key : String} (h : 0 < EdgeHash.value hash key) :
    ∃ v, (key, v) ∈ EdgeHash.current hash := by
  rw [EdgeHash.value] at h
  split at h
  · next field hlookup =>
      obtain rfl : field.key = key := (Keyed.Table.lookup_eq_some.mp hlookup).2
      exact ⟨_, mem_current.mpr ⟨field.value, hlookup,
        Int64.le_iff_toInt_le.mpr (Int.le_of_lt h), rfl⟩⟩
  · exact absurd h (Int.lt_irrefl 0)

/-! ## The moment of a report -/

section
variable (x : Proxy) (hash₀ : EdgeHash)

/-- Totals that were read at one moment of a schedule. -/
def Taken (actions : List Action) (totals : List (String × UInt64)) : Prop :=
  ∃ before t, before <+: actions ∧ exec (Sys.step x) (Sys.start hash₀) before = some t ∧
    totals = EdgeHash.current t.hash

/-- The body of a report, and the answer to it. -/
def Report.Posted (r : Report) (protobuf : Bytes) : Prop :=
  x.encodeWriteRequest r.series = .ok protobuf ∧
    ∃ env, r.post = postRemoteWrite env (x.prepareRemoteWriteBody protobuf)

/-- All totals are from the schedule: those that wait and those that were posted. -/
structure Recorded (actions : List Action) (s : Sys) : Prop where
  pending : ∀ totals, s.flusher = .collected totals → Taken x hash₀ actions totals
  past : ∀ r ∈ s.reports, Taken x hash₀ actions r.totals ∧ ∃ protobuf, r.Posted x protobuf

variable {x hash₀}

theorem Taken.extend {actions more : List Action} {totals : List (String × UInt64)}
    (h : Taken x hash₀ actions totals) : Taken x hash₀ (actions ++ more) totals := by
  obtain ⟨before, t, hpre, hexec, heq⟩ := h
  exact ⟨before, t, hpre.trans (List.prefix_append _ _), hexec, heq⟩

theorem Recorded.extend {actions more : List Action} {s s' : Sys} (h : Recorded x hash₀ actions s)
    (hflusher : s'.flusher = s.flusher) (hreports : s'.reports = s.reports) :
    Recorded x hash₀ (actions ++ more) s' where
  pending totals hcol := (h.pending totals (hflusher ▸ hcol)).extend
  past r hr := by
    rw [hreports] at hr
    exact ⟨(h.past r hr).1.extend, (h.past r hr).2⟩

theorem posted_of_mem {now : Int64} {env : Env} {totals : List (String × UInt64)} {r : Report}
    (h : r ∈ postTotals x now env totals) :
    r.totals = totals ∧ ∃ protobuf, r.Posted x protobuf := by
  rw [postTotals] at h
  split at h
  · cases h
  · next protobuf hproto =>
      obtain rfl := List.mem_singleton.mp h
      exact ⟨rfl, protobuf, hproto, env, rfl⟩

theorem recorded_step {actions : List Action} {s s' : Sys} {a : Action}
    (hexec : exec (Sys.step x) (Sys.start hash₀) actions = some s)
    (hs : Recorded x hash₀ actions s) (hstep : s.step x a = some s') :
    Recorded x hash₀ (actions ++ [a]) s' := by
  cases trans_of_step hstep with
  | accepted input env stream => exact hs.extend rfl rfl
  | handled hget hnext => exact hs.extend rfl rfl
  | passed fault => exact hs.extend rfl rfl
  | collected hidle =>
      refine ⟨?_, fun r hr => ⟨(hs.past r hr).1.extend, (hs.past r hr).2⟩⟩
      intro totals hcol
      obtain rfl := Flusher.collected.inj hcol
      exact ⟨actions, s, List.prefix_append _ _, hexec, rfl⟩
  | @reported now env totals hcol =>
      refine ⟨?_, ?_⟩
      · intro totals' hnone
        cases hnone
      intro r hr
      rcases List.mem_append.mp hr with hold | hnew
      · exact ⟨(hs.past r hold).1.extend, (hs.past r hold).2⟩
      · obtain ⟨htotals, hposted⟩ := posted_of_mem hnew
        exact ⟨htotals ▸ (hs.pending totals hcol).extend, hposted⟩

theorem recorded_of_run {actions : List Action} {s : Sys}
    (hrun : exec (Sys.step x) (Sys.start hash₀) actions = some s) : Recorded x hash₀ actions s := by
  refine exec_history (J := Recorded x hash₀) ⟨?_, ?_⟩ ?_ hrun
  · intro totals hnone
    cases hnone
  · intro r hnone
    cases hnone
  · intro as s a s' hexec hs hstep
    exact recorded_step hexec hs hstep

/-- Requests do not go away. -/
theorem requests_of_reaches {s t : Sys} (hs : s.Consistent x) (h : Reaches (Sys.step x) s t)
    (key : String) : s.requests x key ≤ t.requests x key := by
  have hall : t.Consistent x ∧ s.requests x key ≤ t.requests x key := by
    refine h.invariant (J := fun t => t.Consistent x ∧ s.requests x key ≤ t.requests x key)
      ⟨hs, Nat.le_refl _⟩ ?_
    rintro t a t' ⟨ht, hle⟩ hstep
    exact ⟨consistent_step ht hstep, Nat.le_trans hle (requests_step ht hstep key)⟩
  exact hall.2

/-- The account holds at every moment of a run. -/
theorem counted_of_prefix {actions before : List Action} {s t : Sys}
    (havailable : ∀ i message, Action.handle i (some message) ∉ actions)
    (hrun : exec (Sys.step x) (Sys.start hash₀) actions = some s) (hroom : s.Room x hash₀)
    (hpre : before <+: actions) (hexec : exec (Sys.step x) (Sys.start hash₀) before = some t) :
    t.Counted x hash₀ := by
  obtain ⟨after, rfl⟩ := hpre
  rw [exec_append, hexec] at hrun
  have hreach := reaches_of_exec hrun
  refine counted_of_run (fun i message hmem => ?_) hexec (hroom.mono fun key => ?_)
  · exact havailable i message (List.mem_append_left _ hmem)
  · exact requests_of_reaches (consistent_of_reaches (reaches_of_exec hexec)) hreach key

end

/-! ## What the upstream reads -/

/-- The request shows the counters of a proxy as they are at `t`. -/
structure Snapshot (x : Proxy) (hash₀ : EdgeHash) (t : Sys) (now : Int64) (req : PbWriteRequest) :
    Prop where
  distinct : (req.timeseries.map PbTimeSeries.labels).Nodup
  counts : ∀ ts ∈ req.timeseries, ∃ key n v,
    ts.labels = [⟨"__name__", edgeMetricName⟩, ⟨"key", key⟩] ∧ ts.samples = [⟨v, now⟩] ∧
    (n.toNat : Int) = EdgeHash.value hash₀ key + (t.increments x key : Int) ∧
    (Binary64.ofUInt64 n).Same v ∧
    ∀ m : UInt64, n.toNat < 2 ^ 53 → m.toNat < 2 ^ 53 → (Binary64.ofUInt64 m).Same v → m = n
  complete : ∀ key, 0 < EdgeHash.value hash₀ key + (t.increments x key : Int) →
    ∃ ts ∈ req.timeseries, ⟨"key", key⟩ ∈ ts.labels

/-- What is said of all series of the totals is said of the series that were read. -/
theorem exists_of_mem_right {α β : Type} {R : α → β → Prop} {as : List α} {bs : List β}
    (h : List.Forall₂ R as bs) {b : β} (hb : b ∈ bs) : ∃ a ∈ as, R a b := by
  induction h with
  | nil => cases hb
  | cons hR _ ih =>
      rcases List.mem_cons.mp hb with rfl | hb
      · exact ⟨_, List.mem_cons_self, hR⟩
      · obtain ⟨a, ha, hab⟩ := ih hb
        exact ⟨a, List.mem_cons_of_mem _ ha, hab⟩

theorem exists_of_mem_left {α β : Type} {R : α → β → Prop} {as : List α} {bs : List β}
    (h : List.Forall₂ R as bs) {a : α} (ha : a ∈ as) : ∃ b ∈ bs, R a b :=
  exists_of_mem_right h.flip ha

/-- The labels of a total. -/
def edgeLabels (total : String × UInt64) : List PbLabel :=
  [⟨"__name__", edgeMetricName⟩, ⟨"key", total.1⟩]

theorem labels_of_same {now : Int64} {totals : List (String × UInt64)} {tss : List PbTimeSeries}
    (h : List.Forall₂ SameSeries ((totals.map (edgeSeries now)).map PbTimeSeries.ofSeries) tss) :
    tss.map PbTimeSeries.labels = totals.map edgeLabels := by
  rw [List.map_map] at h
  induction totals generalizing tss with
  | nil =>
      cases h
      rfl
  | cons total totals ih =>
      cases h with
      | cons hsame hrest =>
          rw [List.map_cons, List.map_cons, ih hrest, ← hsame.labels]
          rfl

/-- One series of a report, as it was read. -/
theorem sample_of_same {now : Int64} {total : String × UInt64} {ts : PbTimeSeries}
    (h : SameSeries (PbTimeSeries.ofSeries (edgeSeries now total)) ts) :
    ts.labels = edgeLabels total ∧
      ∃ v, ts.samples = [⟨v, now⟩] ∧ (Binary64.ofUInt64 total.2).Same v := by
  refine ⟨h.labels.symm, ?_⟩
  obtain ⟨labels, samples⟩ := ts
  cases h.samples with
  | @cons _ sample _ _ hsample hrest =>
      cases hrest
      obtain ⟨v, timestamp⟩ := sample
      obtain ⟨hv, rfl⟩ := hsample
      exact ⟨v, rfl, hv⟩

/-- The totals of one moment, sent and read. -/
theorem snapshot_of_taken {x : Proxy} {hash₀ : EdgeHash} {t : Sys} (hcounted : t.Counted x hash₀)
    {now : Int64} {req : PbWriteRequest}
    (hsame : List.Forall₂ SameSeries
      (((EdgeHash.current t.hash).map (edgeSeries now)).map PbTimeSeries.ofSeries)
      req.timeseries) : Snapshot x hash₀ t now req where
  distinct := by
    rw [labels_of_same hsame, List.nodup_iff_pairwise_ne, List.pairwise_map]
    refine (keys_current t.hash).imp ?_
    intro total total' hne heq
    simp only [edgeLabels, List.cons.injEq, PbLabel.mk.injEq, true_and, and_true] at heq
    exact hne heq
  counts ts hts := by
    obtain ⟨a, ha, hR⟩ := exists_of_mem_right hsame hts
    obtain ⟨b, hb, rfl⟩ := List.mem_map.mp ha
    obtain ⟨⟨key, n⟩, hmem, rfl⟩ := List.mem_map.mp hb
    obtain ⟨hlabels, v, hsamples, hv⟩ := sample_of_same hR
    refine ⟨key, n, v, hlabels, hsamples, ?_, hv, ?_⟩
    · rw [value_of_mem_current hmem, hcounted key]
    · intro m hn hm hmv
      have hcode : ∀ {y z : Binary64}, y.Same z → y.code = z.code := by
        rintro y z (rfl | ⟨hy, hz⟩)
        · rfl
        · rw [hy, hz]
      exact Binary64.ofUInt64_inj hm hn ((hcode hmv).trans (hcode hv).symm)
  complete key hpos := by
    rw [← hcounted key] at hpos
    obtain ⟨v, hmem⟩ := mem_current_of_pos hpos
    obtain ⟨ts, hts, hR⟩ := exists_of_mem_left hsame
      (List.mem_map_of_mem (List.mem_map_of_mem hmem))
    refine ⟨ts, hts, ?_⟩
    rw [(sample_of_same hR).1]
    exact List.mem_cons_of_mem _ List.mem_cons_self

/-- **Every report is a snapshot.**  In every run in which Redis is there and
the counters have room, what the upstream reads of a report that was posted is
the counters of one earlier moment of the run. -/
theorem reports_snapshot (x : Proxy) (prost : PbWriteRequest → Except EncodeError Bytes)
    (snappy : Codec Bytes Bytes) (hf : Formats prost snappy)
    (henc : x.encodeWriteRequest = encodeWriteRequest prost)
    (hprep : ∀ b body, snappy.encode b = some body → x.prepareRemoteWriteBody b = body)
    (hash₀ : EdgeHash) (actions : List Action) (s : Sys)
    (havailable : ∀ i message, Action.handle i (some message) ∉ actions)
    (hrun : exec (Sys.step x) (Sys.start hash₀) actions = some s) (hroom : s.Room x hash₀) :
    ∀ r ∈ s.reports, ∃ before t protobuf env,
      before <+: actions ∧ exec (Sys.step x) (Sys.start hash₀) before = some t ∧
      x.encodeWriteRequest r.series = .ok protobuf ∧
      r.post = postRemoteWrite env (x.prepareRemoteWriteBody protobuf) ∧
      ∀ body, snappy.encode protobuf = some body →
        x.prepareRemoteWriteBody protobuf = body ∧ r.post.2 = [body] ∧
        ∃ req, receive snappy body = some req ∧ Snapshot x hash₀ t r.now req := by
  intro r hr
  obtain ⟨⟨before, t, hpre, hexec, htotals⟩, protobuf, hproto, env, hpost⟩ :=
    (recorded_of_run hrun).past r hr
  refine ⟨before, t, protobuf, env, hpre, hexec, hproto, hpost, ?_⟩
  intro body hbody
  have hbody' := hprep protobuf body hbody
  refine ⟨hbody', ?_, ?_⟩
  · rw [hpost, posted_postRemoteWrite, hbody']
  · rw [henc] at hproto
    obtain ⟨req, hreq, hsame⟩ := conveys_of_encoded hf hproto hbody
    refine ⟨req, hreq, snapshot_of_taken ?_ ?_⟩
    · exact counted_of_prefix havailable hrun hroom hpre hexec
    · rw [← htotals]
      exact hsame

/-! One request and a flush, over the formats of the metrics above. -/

def literalProxy : Proxy where
  config := ⟨msgRemoteWrite⟩
  proc := TinyFrame.padProc
  json := wordJson
  encodeWriteRequest := encodeWriteRequest fun req => .ok (requestBytes req)
  prepareRemoteWriteBody b := (literalSnappy.encode b).getD []

theorem reports_snapshot_one : ∃ s,
    exec (Sys.step literalProxy) (Sys.start .empty) oneRequest = some s ∧ s.reports.length = 1 ∧
    ∀ r ∈ s.reports, ∃ before t protobuf env,
      before <+: oneRequest ∧ exec (Sys.step literalProxy) (Sys.start .empty) before = some t ∧
      literalProxy.encodeWriteRequest r.series = .ok protobuf ∧
      r.post = postRemoteWrite env (literalProxy.prepareRemoteWriteBody protobuf) ∧
      ∀ body, literalSnappy.encode protobuf = some body →
        literalProxy.prepareRemoteWriteBody protobuf = body ∧ r.post.2 = [body] ∧
        ∃ req, receive literalSnappy body = some req ∧ Snapshot literalProxy .empty t r.now req := by
  refine ⟨_, rfl, rfl, ?_⟩
  refine reports_snapshot literalProxy (fun req => .ok (requestBytes req)) literalSnappy
    literal_formats rfl ?_ .empty oneRequest _ ?_ rfl ?_
  · intro b body hbody
    show (literalSnappy.encode b).getD [] = body
    rw [hbody]
    rfl
  · intro i message h
    simp [oneRequest] at h
  · exact room_one literalProxy rfl

end Proto4.PromProxy
