/-
# `Proto4.PromProxy.LabelOrder` — in which order the labels of a series stand

A receiver of `remote_write` wants the labels of a series sorted by name.  The
encoders put the name first, then the metric's labels as they were gathered,
and `le` or `quantile` last.  That is sorted as long as the metric's own labels
lie between: after `__name__`, and before the label that is put last
(`encoders_canonical_iff`).  Upper case comes before `__name__`, and most words
come after `le`.
-/
import Proto4.PromProxy.Expansion

namespace Proto4.PromProxy

/-- The order of texts by their bytes. -/
def ByteLt (s t : String) : Prop := utf8 s < utf8 t

instance (s t : String) : Decidable (ByteLt s t) :=
  inferInstanceAs (Decidable (utf8 s < utf8 t))

/-- The labels strictly increase by name. -/
def TimeSeries.Canonical (ts : TimeSeries) : Prop := (ts.labels.map Label.name).Pairwise ByteLt

instance (ts : TimeSeries) : Decidable ts.Canonical :=
  inferInstanceAs (Decidable (List.Pairwise _ _))

/-- Labels as a registry gathers them. -/
def Metric.Sorted (m : Metric) : Prop := (m.label.map LabelPair.name).Pairwise ByteLt

/-- The metric's labels lie between those the encoder adds. -/
structure Metric.InPlace (mtype : MetricType) (m : Metric) : Prop where
  name : ∀ lp ∈ m.label, ByteLt "__name__" lp.name
  le : mtype = .histogram → ∀ lp ∈ m.label, ByteLt lp.name "le"
  quantile : mtype = .summary → m.summary.quantile ≠ [] → ∀ lp ∈ m.label, ByteLt lp.name "quantile"

/-! ## One series -/

theorem canonical_series_iff {m : Metric} (hsorted : m.Sorted) (name : String) (ts : Int64)
    (c : Cell) :
    (c.series name m.label ts).Canonical ↔
      (∀ lp ∈ m.label, ByteLt "__name__" lp.name) ∧
        ∀ e, c.extra = some e → ByteLt "__name__" e.name ∧ ∀ lp ∈ m.label, ByteLt lp.name e.name := by
  have hnames : (c.series name m.label ts).labels.map Label.name
      = "__name__" :: (m.label.map LabelPair.name ++ c.extra.toList.map Label.name) := by
    simp [Cell.series, tsOne, baseLabels]
  rw [TimeSeries.Canonical, hnames, List.pairwise_cons, List.pairwise_append]
  cases c.extra with
  | none =>
      constructor
      · rintro ⟨hname, _⟩
        refine ⟨fun lp hlp => hname lp.name ?_, ?_⟩
        · exact List.mem_append_left _ (List.mem_map_of_mem hlp)
        · intro e he
          cases he
      · rintro ⟨hname, _⟩
        refine ⟨?_, hsorted, .nil, ?_⟩
        · intro x hx
          rw [Option.toList_none, List.map_nil, List.append_nil] at hx
          obtain ⟨lp, hlp, rfl⟩ := List.mem_map.mp hx
          exact hname lp hlp
        · intro x _ y hy
          cases hy
  | some e =>
      constructor
      · rintro ⟨hname, _, _, hlast⟩
        refine ⟨fun lp hlp => hname lp.name ?_, ?_⟩
        · exact List.mem_append_left _ (List.mem_map_of_mem hlp)
        · rintro e' ⟨⟩
          refine ⟨hname e.name ?_, fun lp hlp => hlast lp.name (List.mem_map_of_mem hlp) e.name ?_⟩
          · exact List.mem_append_right _ List.mem_cons_self
          · exact List.mem_cons_self
      · rintro ⟨hname, hlast⟩
        obtain ⟨hfirst, hbefore⟩ := hlast e rfl
        refine ⟨?_, hsorted, List.pairwise_singleton _ _, ?_⟩
        · intro x hx
          rcases List.mem_append.mp hx with hx | hx
          · obtain ⟨lp, hlp, rfl⟩ := List.mem_map.mp hx
            exact hname lp hlp
          · obtain rfl := List.mem_singleton.mp hx
            exact hfirst
        · intro x hx y hy
          obtain ⟨lp, hlp, rfl⟩ := List.mem_map.mp hx
          obtain rfl := List.mem_singleton.mp hy
          exact hbefore lp hlp

/-! ## One metric -/

/-- A histogram has a cell with `le`, a summary with quantiles one with `quantile`. -/
theorem exists_extra (text : Binary64 → String) {mtype : MetricType} {m : Metric} {key : String}
    (h : (mtype = .histogram ∧ key = "le") ∨
      (mtype = .summary ∧ m.summary.quantile ≠ [] ∧ key = "quantile")) :
    ∃ c ∈ cells text mtype m, ∃ e, c.extra = some e ∧ e.name = key := by
  rcases h with ⟨rfl, rfl⟩ | ⟨rfl, hne, rfl⟩
  · exact ⟨_, List.mem_append_right _ List.mem_cons_self, _, rfl, rfl⟩
  · obtain ⟨q, qs, hqs⟩ := List.exists_cons_of_ne_nil hne
    refine ⟨_, List.mem_append_right _ (List.mem_map_of_mem (a := q) ?_), _, rfl, rfl⟩
    rw [hqs]
    exact List.mem_cons_self

/-- The series of a metric are sorted exactly when its labels are in place. -/
theorem canonical_metricCells_iff {mtype : MetricType} (htype : mtype ≠ .gaugeHistogram)
    {m : Metric} (hsorted : m.Sorted) (text : Binary64 → String) (time : Metric → Int64)
    (name : String) :
    (∀ ts ∈ metricCells text time name mtype m, ts.Canonical) ↔ m.InPlace mtype := by
  rw [metricCells, List.forall_mem_map]
  simp only [canonical_series_iff hsorted]
  constructor
  · intro h
    have hlast : ∀ key, (mtype = .histogram ∧ key = "le") ∨
        (mtype = .summary ∧ m.summary.quantile ≠ [] ∧ key = "quantile") →
        ∀ lp ∈ m.label, ByteLt lp.name key := by
      intro key hkey
      obtain ⟨c, hc, e, he, rfl⟩ := exists_extra text hkey
      exact ((h c hc).2 e he).2
    obtain ⟨c, hc⟩ := List.exists_mem_of_ne_nil _ (cells_ne_nil text htype m)
    refine ⟨(h c hc).1, ?_, ?_⟩
    · intro hhist
      exact hlast "le" (Or.inl ⟨hhist, rfl⟩)
    · intro hsum hne
      exact hlast "quantile" (Or.inr ⟨hsum, hne, rfl⟩)
  · rintro ⟨hname, hle, hquantile⟩ c hc
    refine ⟨hname, fun e he => ?_⟩
    rcases (mem_cells hc).2 e he with ⟨hhist, heq⟩ | ⟨hsum, heq⟩
    · rw [heq]
      exact ⟨by decide +kernel, hle hhist⟩
    · rw [heq]
      refine ⟨by decide +kernel, hquantile hsum ?_⟩
      -- without quantiles a summary has its sum and its count, and neither has a last label
      intro hnil
      rw [hsum, cells, hnil] at hc
      rcases List.mem_pair.mp hc with rfl | rfl
      · cases he
      · cases he

/-! ## All metrics -/

/-- **Labels in order.**  For every list of families whose metrics bring their
labels sorted: Rust's series are sorted exactly if the labels of every metric
that it writes are in place, and Go's, where it does not refuse the list,
exactly if those of every metric are. -/
theorem encoders_canonical_iff (decimal : Binary64 → String) (now : Int64)
    (mfs : List (Option MetricFamily))
    (hsorted : ∀ mf ∈ mfs.reduceOption, ∀ m ∈ mf.metric, m.Sorted) :
    ((∀ ts ∈ familiesSeries decimal now mfs.reduceOption, ts.Canonical) ↔
      ∀ mf ∈ mfs.reduceOption, mf.fieldType ≠ .untyped → mf.fieldType ≠ .gaugeHistogram →
        ∀ m ∈ mf.metric, m.InPlace mf.fieldType) ∧
    ∀ tss, GoPromproxy.familiesSeries decimal now mfs = .ok tss →
      ((∀ ts ∈ tss, ts.Canonical) ↔
        ∀ mf ∈ mfs.reduceOption, ∀ m ∈ mf.metric, m.InPlace mf.fieldType) := by
  refine ⟨?_, ?_⟩
  · rw [familiesSeries]
    simp only [List.forall_mem_flatMap]
    refine forall₂_congr fun mf hmf => ?_
    rcases eq_or_ne mf.fieldType .untyped with huntyped | huntyped
    · rw [huntyped]
      exact iff_of_true (fun m _ ts hts => (by cases hts)) fun h => absurd rfl h
    rcases eq_or_ne mf.fieldType .gaugeHistogram with hgauge | hgauge
    · rw [hgauge]
      exact iff_of_true (fun m _ ts hts => (by cases hts)) fun _ h => absurd rfl h
    · rw [forall_prop_of_true huntyped, forall_prop_of_true hgauge]
      refine forall₂_congr fun m hm => ?_
      rw [metricSeries_eq_cells decimal now huntyped]
      exact canonical_metricCells_iff hgauge (hsorted mf hmf m hm) _ _ _
  · intro tss htss
    obtain ⟨hgauge, rfl⟩ := (goFamiliesSeries_ok_iff decimal now).mp htss
    rw [familiesCells]
    simp only [List.forall_mem_flatMap]
    refine forall₂_congr fun mf hmf => forall₂_congr fun m hm => ?_
    exact canonical_metricCells_iff (hgauge mf hmf m hm) (hsorted mf hmf m hm) _ _ _

/-! A histogram under a label that lies in place, and under one that does not. -/

def labelledHistogram (label : String) : MetricFamily :=
  ⟨"h", .histogram, [{ testMetric 3 [⟨1, half⟩] with label := [⟨label, "a"⟩] }]⟩

theorem labelledHistogram_sorted (label : String) :
    ∀ mf ∈ [some (labelledHistogram label)].reduceOption, ∀ m ∈ mf.metric, m.Sorted := by
  intro mf hmf m hm
  obtain rfl := List.mem_singleton.mp hmf
  obtain rfl := List.mem_singleton.mp hm
  exact List.pairwise_singleton _ _

theorem encoders_canonical_iff_job :
    (familiesSeries testDecimal 7 [labelledHistogram "job"]).length = 4 ∧
      ∀ ts ∈ familiesSeries testDecimal 7 [labelledHistogram "job"], ts.Canonical := by
  refine ⟨rfl, (encoders_canonical_iff testDecimal 7 [some (labelledHistogram "job")]
    (labelledHistogram_sorted "job")).1.mpr ?_⟩
  intro mf hmf _ _ m hm
  obtain rfl := List.mem_singleton.mp hmf
  obtain rfl := List.mem_singleton.mp hm
  exact ⟨by decide +kernel, fun _ => by decide +kernel, nofun⟩

/-- **Labels out of order.**  Under the label `zone` the buckets of a histogram
have `le` after `zone`, in Rust and in Go. -/
theorem encoders_not_canonical :
    (∀ mf ∈ [some (labelledHistogram "zone")].reduceOption, ∀ m ∈ mf.metric,
      m.Sorted ∧ ∀ lp ∈ m.label, lp.name ∉ ["__name__", "le", "quantile"]) ∧
    (¬ ∀ ts ∈ familiesSeries testDecimal 7 [labelledHistogram "zone"], ts.Canonical) ∧
    ∃ tss, GoPromproxy.familiesSeries testDecimal 7 [some (labelledHistogram "zone")] = .ok tss ∧
      ¬ ∀ ts ∈ tss, ts.Canonical := by
  refine ⟨?_, by decide +kernel, _, rfl, by decide +kernel⟩
  intro mf hmf m hm
  refine ⟨labelledHistogram_sorted "zone" mf hmf m hm, ?_⟩
  obtain rfl := List.mem_singleton.mp hmf
  obtain rfl := List.mem_singleton.mp hm
  decide

end Proto4.PromProxy
