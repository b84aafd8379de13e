/-
# `Proto4.PromProxy.Expansion` — what both encoders write

A metric becomes a few series.  They share the metric's labels and its time and
differ in a suffix of the name, a label put last and a value: a `Cell`.  Both
encoders write the same cells, up to three things: the text of a number, the
time of a metric that brings its own, and the types they know
(`metricSeries_eq_cells`, `goMetricSeries_eq_cells`).

So the two sequences of series are equal exactly when texts and times are
(`encoders_sameSeries_iff`).  They are not always: Rust calls an infinite bound
`inf` where Go calls it `+Inf`, and takes an explicit time of zero for none.
-/
import Proto4.Lib.Outcome
import Proto4.PromProxy.Histogram

namespace Proto4.PromProxy

open Outcome

/-! ## Cells -/

/-- A series of a metric, but for the metric's name, labels and time. -/
structure Cell where
  suffix : String
  extra : Option Label
  value : Binary64
  deriving DecidableEq

def Cell.series (name : String) (label : List LabelPair) (ts : Int64) (c : Cell) : TimeSeries :=
  tsOne (baseLabels name label c.suffix ++ c.extra.toList) c.value ts

/-- The cells of a metric, with the numbers written by `text`. -/
def cells (text : Binary64 → String) (mtype : MetricType) (m : Metric) : List Cell :=
  match mtype with
  | .counter => [⟨"", none, m.counter⟩]
  | .gauge => [⟨"", none, m.gauge⟩]
  | .untyped => [⟨"", none, m.untyped⟩]
  | .histogram =>
      let h := m.histogram
      [⟨"_sum", none, h.sampleSum⟩, ⟨"_count", none, .ofUInt64 h.sampleCount⟩] ++
      (h.bucket.map fun b =>
        ⟨"_bucket", some ⟨"le", text b.upperBound⟩, .ofUInt64 b.cumulativeCount⟩) ++
      [⟨"_bucket", some ⟨"le", "+Inf"⟩, .ofUInt64 h.sampleCount⟩]
  | .summary =>
      let s := m.summary
      [⟨"_sum", none, s.sampleSum⟩, ⟨"_count", none, .ofUInt64 s.sampleCount⟩] ++
      s.quantile.map fun q => ⟨"", some ⟨"quantile", text q.quantile⟩, q.value⟩
  | .gaugeHistogram => []

def nameSuffixes : List String := ["_sum", "_count", "_bucket"]

/-- What a cell adds: a suffix or none, and a label only where there are buckets or quantiles. -/
theorem mem_cells {text : Binary64 → String} {mtype : MetricType} {m : Metric} {c : Cell}
    (hc : c ∈ cells text mtype m) :
    c.suffix ∈ "" :: nameSuffixes ∧ ∀ e, c.extra = some e →
      (mtype = .histogram ∧ e.name = "le") ∨ (mtype = .summary ∧ e.name = "quantile") := by
  cases mtype with
  | counter | gauge | untyped | gaugeHistogram => simp_all [cells]
  | histogram =>
      simp only [cells, List.mem_append, List.mem_map, List.mem_cons, List.not_mem_nil,
        or_false] at hc
      rcases hc with ((rfl | rfl) | ⟨b, _, rfl⟩) | rfl
      · simp [nameSuffixes]
      · simp [nameSuffixes]
      · simp [nameSuffixes]
      · simp [nameSuffixes]
  | summary =>
      simp only [cells, List.mem_append, List.mem_map, List.mem_cons, List.not_mem_nil,
        or_false] at hc
      rcases hc with (rfl | rfl) | ⟨q, _, rfl⟩
      · simp [nameSuffixes]
      · simp [nameSuffixes]
      · simp [nameSuffixes]

theorem length_cells (text text' : Binary64 → String) (mtype : MetricType) (m : Metric) :
    (cells text mtype m).length = (cells text' mtype m).length := by
  cases mtype <;> simp [cells]

/-- The time of a metric: Rust takes zero for absent. -/
def Metric.rustTime (now : Int64) (m : Metric) : Int64 :=
  if m.getTimestampMs ≠ 0 then m.getTimestampMs else now

def Metric.goTime (now : Int64) (m : Metric) : Int64 := m.timestampMs.getD now

/-- The series of a metric, for texts and times as given. -/
def metricCells (text : Binary64 → String) (time : Metric → Int64) (name : String)
    (mtype : MetricType) (m : Metric) : List TimeSeries :=
  (cells text mtype m).map (Cell.series name m.label (time m))

/-- The series of the families, in order. -/
def familiesCells (text : Binary64 → String) (time : Metric → Int64) (mfs : List MetricFamily) :
    List TimeSeries :=
  mfs.flatMap fun mf => mf.metric.flatMap (metricCells text time mf.name mf.fieldType)

theorem baseLabels_empty (name : String) (label : List LabelPair) :
    baseLabels name label "" = ⟨"__name__", name⟩ :: label.map fun lp => ⟨lp.name, lp.value⟩ := by
  rw [baseLabels, String.append_empty]

section
variable (text : Binary64 → String) (time : Metric → Int64) (name : String) (m : Metric)

theorem metricCells_plain {mtype : MetricType} {value : Binary64}
    (h : cells text mtype m = [⟨"", none, value⟩]) :
    metricCells text time name mtype m = [tsOne (labelsFromMetric name m) value (time m)] := by
  rw [metricCells, h, List.map_singleton, Cell.series, baseLabels_empty]
  show [tsOne (_ ++ []) value (time m)] = _
  rw [List.append_nil]
  rfl

theorem metricCells_histogram :
    metricCells text time name .histogram m = expansion text name m.label m.histogram (time m) := by
  simp only [expansion, metricCells, cells, List.map_append, List.map_map, List.map_cons,
    List.map_nil, Cell.series, Option.toList_none, Option.toList_some, List.append_nil]
  rfl

theorem metricCells_summary :
    metricCells text time name .summary m
      = [tsOne (withName (labelsFromMetric name m) (name ++ "_sum")) m.summary.sampleSum (time m),
          tsOne (withName (labelsFromMetric name m) (name ++ "_count"))
            (.ofUInt64 m.summary.sampleCount) (time m)] ++
        m.summary.quantile.map fun q =>
          tsOne (withName (labelsFromMetric name m) name ++ [⟨"quantile", text q.quantile⟩])
            q.value (time m) := by
  simp only [metricCells, cells, List.map_append, List.map_map, List.map_cons, List.map_nil]
  refine congrArg₂ _ ?_ (List.map_congr_left fun q _ => ?_)
  · simp only [Cell.series, Option.toList_none, List.append_nil]
    rfl
  · rw [Function.comp_apply, Cell.series, baseLabels_empty]
    rfl

end

section
variable (decimal : Binary64 → String) (now : Int64)

/-- **Rust writes the cells** of every type but the untyped, which it passes over. -/
theorem metricSeries_eq_cells {mtype : MetricType} (h : mtype ≠ .untyped) (name : String)
    (m : Metric) :
    metricSeries decimal now name mtype m
      = metricCells (floatLabel decimal) (Metric.rustTime now) name mtype m := by
  cases mtype with
  | untyped => exact absurd rfl h
  | counter =>
      rw [metricCells_plain _ _ name m rfl]
      rfl
  | gauge =>
      rw [metricCells_plain _ _ name m rfl]
      rfl
  | histogram =>
      rw [metricCells_histogram]
      rfl
  | summary =>
      rw [metricCells_summary]
      rfl
  | gaugeHistogram => rfl

/-- **Go writes the cells** of every type but the last, which is an error. -/
theorem goMetricSeries_eq_cells {mtype : MetricType} (h : mtype ≠ .gaugeHistogram) (name : String)
    (m : Metric) :
    GoPromproxy.metricSeries decimal now name mtype m
      = .ok (metricCells (GoPromproxy.formatFloat decimal) (Metric.goTime now) name mtype m) := by
  cases mtype with
  | gaugeHistogram => exact absurd rfl h
  | counter =>
      rw [metricCells_plain _ _ name m rfl, GoPromproxy.metricSeries, Metric.goTime]
      cases m.timestampMs <;> rfl
  | gauge =>
      rw [metricCells_plain _ _ name m rfl, GoPromproxy.metricSeries, Metric.goTime]
      cases m.timestampMs <;> rfl
  | untyped =>
      rw [metricCells_plain _ _ name m rfl, GoPromproxy.metricSeries, Metric.goTime]
      cases m.timestampMs <;> rfl
  | histogram =>
      rw [goMetricSeries_histogram, metricCells_histogram]
      rfl
  | summary =>
      rw [metricCells_summary, GoPromproxy.metricSeries, Metric.goTime]
      cases m.timestampMs <;> rfl

/-- Rust's series of all families. -/
theorem familiesSeries_eq_cells {mfs : List MetricFamily}
    (h : ∀ mf ∈ mfs, ∀ m ∈ mf.metric, mf.fieldType ≠ .untyped) :
    familiesSeries decimal now mfs
      = familiesCells (floatLabel decimal) (Metric.rustTime now) mfs := by
  refine List.flatMap_congr fun mf hmf => List.flatMap_congr fun m hm => ?_
  exact metricSeries_eq_cells decimal now (h mf hmf m hm) mf.name m

/-- Go's: an error if there is a metric of the last type. -/
theorem goFamiliesSeries_ok_iff {mfs : List (Option MetricFamily)} {tss : List TimeSeries} :
    GoPromproxy.familiesSeries decimal now mfs = .ok tss ↔
      (∀ mf ∈ mfs.reduceOption, ∀ m ∈ mf.metric, mf.fieldType ≠ .gaugeHistogram) ∧
        tss = familiesCells (GoPromproxy.formatFloat decimal) (Metric.goTime now)
          mfs.reduceOption := by
  have hmetric : ∀ (mf : MetricFamily) (m : Metric) block,
      GoPromproxy.metricSeries decimal now mf.name mf.fieldType m = .ok block ↔
        mf.fieldType ≠ .gaugeHistogram ∧
          block = metricCells (GoPromproxy.formatFloat decimal) (Metric.goTime now) mf.name
            mf.fieldType m := by
    intro mf m block
    rcases eq_or_ne mf.fieldType .gaugeHistogram with htype | htype
    · rw [htype]
      exact ⟨fun h => (by cases h), fun h => absurd rfl h.1⟩
    · rw [goMetricSeries_eq_cells decimal now htype, Except.ok.injEq]
      exact ⟨fun h => ⟨htype, h.symm⟩, fun h => h.2.symm⟩
  have hfamily : ∀ (mf : MetricFamily) block,
      (do let tss ← mf.metric.mapM (GoPromproxy.metricSeries decimal now mf.name mf.fieldType)
          pure tss.flatten) = Except.ok block ↔
        (∀ m ∈ mf.metric, mf.fieldType ≠ .gaugeHistogram) ∧
          block = mf.metric.flatMap (metricCells (GoPromproxy.formatFloat decimal)
            (Metric.goTime now) mf.name mf.fieldType) := by
    intro mf block
    rw [bind_ok_iff]
    simp only [mapM_ok_iff_map (hmetric mf)]
    constructor
    · rintro ⟨tss, ⟨hP, rfl⟩, h⟩
      exact ⟨hP, (Except.ok.inj h).symm.trans List.flatMap_def.symm⟩
    · rintro ⟨hP, rfl⟩
      exact ⟨_, ⟨hP, rfl⟩, congrArg _ List.flatMap_def.symm⟩
  rw [GoPromproxy.familiesSeries, bind_ok_iff]
  simp only [mapM_ok_iff_map hfamily]
  constructor
  · rintro ⟨blocks, ⟨hP, rfl⟩, h⟩
    exact ⟨hP, (Except.ok.inj h).symm.trans List.flatMap_def.symm⟩
  · rintro ⟨hP, rfl⟩
    exact ⟨_, ⟨hP, rfl⟩, congrArg _ List.flatMap_def.symm⟩

end

/-! ## The same series -/

/-- Blocks of equal lengths are equal when their concatenation is. -/
theorem flatMap_eq_flatMap_iff {α β : Type} {f g : α → List β} {l : List α}
    (hlen : ∀ a ∈ l, (f a).length = (g a).length) :
    l.flatMap f = l.flatMap g ↔ ∀ a ∈ l, f a = g a := by
  induction l with
  | nil => simp
  | cons a l ih =>
      have hrest := ih fun b hb => hlen b (List.mem_cons_of_mem a hb)
      rw [List.flatMap_cons, List.flatMap_cons, List.forall_mem_cons, ← hrest]
      constructor
      · intro h
        exact List.append_inj h (hlen a List.mem_cons_self)
      · rintro ⟨hhead, htail⟩
        rw [hhead, htail]

/-- A series says which cell it is of, and when. -/
theorem series_inj {name : String} {label : List LabelPair} {ts ts' : Int64} {c c' : Cell} :
    c.series name label ts = c'.series name label ts' ↔ ts = ts' ∧ c = c' := by
  constructor
  · intro h
    obtain ⟨hlabels, hsamples⟩ := TimeSeries.mk.inj h
    obtain ⟨hname, htail⟩ := List.cons.inj hlabels
    have hsuffix := (String.append_right_inj name).mp (Label.mk.inj hname).2
    have hextra : c.extra = c'.extra := by
      have hlist := List.append_cancel_left htail
      revert hlist
      cases c.extra <;> cases c'.extra <;> simp
    obtain ⟨hvalue, hts⟩ := Sample.mk.inj (List.cons.inj hsamples).1
    obtain ⟨suffix, extra, value⟩ := c
    exact ⟨hts, by rw [Cell.mk.injEq]; exact ⟨hsuffix, hextra, hvalue⟩⟩
  · rintro ⟨rfl, rfl⟩
    rfl

theorem cells_ne_nil (text : Binary64 → String) {mtype : MetricType} (h : mtype ≠ .gaugeHistogram)
    (m : Metric) : cells text mtype m ≠ [] := by
  cases mtype <;> simp_all [cells]

/-- Two ways of writing a metric differ in its time, or in the text of one of its numbers. -/
theorem metricCells_eq_iff {text text' : Binary64 → String} {time time' : Metric → Int64}
    {mtype : MetricType} (h : mtype ≠ .gaugeHistogram) (name : String) (m : Metric) :
    metricCells text time name mtype m = metricCells text' time' name mtype m ↔
      time m = time' m ∧ cells text mtype m = cells text' mtype m := by
  rw [metricCells, metricCells]
  constructor
  · intro heq
    obtain ⟨c, cs, hcs⟩ := List.exists_cons_of_ne_nil (cells_ne_nil text h m)
    obtain ⟨c', cs', hcs'⟩ := List.exists_cons_of_ne_nil (cells_ne_nil text' h m)
    have hhead := heq
    rw [hcs, hcs', List.map_cons, List.map_cons] at hhead
    have htime := (series_inj.mp (List.cons.inj hhead).1).1
    rw [htime] at heq
    refine ⟨htime, List.map_injective_iff.mpr ?_ heq⟩
    intro a b hab
    exact (series_inj.mp hab).2
  · rintro ⟨htime, hcells⟩
    rw [htime, hcells]

/-- The numbers that become labels are the bounds of a histogram and the
quantiles of a summary. -/
theorem cells_eq_iff {text text' : Binary64 → String} {mtype : MetricType} {m : Metric} :
    cells text mtype m = cells text' mtype m ↔
      (mtype = .histogram → ∀ b ∈ m.histogram.bucket, text b.upperBound = text' b.upperBound) ∧
      (mtype = .summary → ∀ q ∈ m.summary.quantile, text q.quantile = text' q.quantile) := by
  cases mtype <;> simp [cells]

/-- A shortest decimal with a point ends in a digit, and not in zero. -/
def Shortest (decimal : Binary64 → String) : Prop :=
  ∀ x : Binary64, x.IsFinite → '.' ∈ (decimal x).toList →
    ∀ c, (decimal x).toList.getLast? = some c → c ≠ '0' ∧ c ≠ '.'

/-- The two languages name the infinities differently, and agree otherwise. -/
theorem floatLabel_eq_formatFloat_iff {decimal : Binary64 → String} (h : Shortest decimal)
    (x : Binary64) :
    floatLabel decimal x = GoPromproxy.formatFloat decimal x ↔ x ≠ .inf ∧ x ≠ .negInf := by
  rw [floatLabel_of_trimmed (h x), display, GoPromproxy.formatFloat]
  split
  · next hnan =>
      refine iff_of_true rfl ⟨?_, ?_⟩
      · rintro rfl
        exact Binary64.not_nan_inf hnan
      · rintro rfl
        exact absurd hnan (by decide)
  · split
    · next hinf => exact iff_of_false (by decide) fun hne => hne.1 hinf
    · next hinf =>
        split
        · next hneg => exact iff_of_false (by decide) fun hne => hne.2 hneg
        · next hneg => exact iff_of_true rfl ⟨hinf, hneg⟩

/-- Zero is a time only if it is the time. -/
theorem rustTime_eq_goTime_iff (now : Int64) (m : Metric) :
    m.rustTime now = m.goTime now ↔ (m.timestampMs = some 0 → now = 0) := by
  rw [Metric.rustTime, Metric.goTime, Metric.getTimestampMs]
  cases m.timestampMs with
  | none => simp
  | some t =>
      rcases eq_or_ne t 0 with rfl | hne
      · simp
      · simp [hne]

/-- Nothing in the metric is written differently in the two languages: it does
not bring the time zero, and no number that becomes a label is infinite. -/
structure Metric.Portable (now : Int64) (mtype : MetricType) (m : Metric) : Prop where
  time : m.timestampMs = some 0 → now = 0
  bounds : mtype = .histogram →
    ∀ b ∈ m.histogram.bucket, b.upperBound ≠ .inf ∧ b.upperBound ≠ .negInf
  quantiles : mtype = .summary →
    ∀ q ∈ m.summary.quantile, q.quantile ≠ .inf ∧ q.quantile ≠ .negInf

/-- The types that both encoders know. -/
def MetricType.Shared (mtype : MetricType) : Prop :=
  mtype = .counter ∨ mtype = .gauge ∨ mtype = .histogram ∨ mtype = .summary

theorem metricCells_portable_iff {decimal : Binary64 → String} (hshort : Shortest decimal)
    (now : Int64) {mtype : MetricType} (h : mtype ≠ .gaugeHistogram) (name : String) (m : Metric) :
    metricCells (GoPromproxy.formatFloat decimal) (Metric.goTime now) name mtype m
        = metricCells (floatLabel decimal) (Metric.rustTime now) name mtype m ↔
      m.Portable now mtype := by
  rw [eq_comm, metricCells_eq_iff h, rustTime_eq_goTime_iff, cells_eq_iff]
  simp only [floatLabel_eq_formatFloat_iff hshort]
  constructor
  · rintro ⟨htime, hbounds, hquantiles⟩
    exact ⟨htime, hbounds, hquantiles⟩
  · rintro ⟨htime, hbounds, hquantiles⟩
    exact ⟨htime, hbounds, hquantiles⟩

/-- **The same series.**  For every list of families of the shared types, nil
pointers among them or not: Go's series are Rust's if and only if nothing in
them is written differently in the two languages. -/
theorem encoders_sameSeries_iff (decimal : Binary64 → String) (hshort : Shortest decimal)
    (now : Int64) (mfs : List (Option MetricFamily))
    (htypes : ∀ mf ∈ mfs.reduceOption, mf.fieldType.Shared) :
    GoPromproxy.familiesSeries decimal now mfs
        = .ok (familiesSeries decimal now mfs.reduceOption) ↔
      ∀ mf ∈ mfs.reduceOption, ∀ m ∈ mf.metric, m.Portable now mf.fieldType := by
  have hgauge : ∀ mf ∈ mfs.reduceOption, mf.fieldType ≠ .gaugeHistogram := by
    intro mf hmf heq
    have := htypes mf hmf
    rw [heq] at this
    revert this
    simp [MetricType.Shared]
  have huntyped : ∀ mf ∈ mfs.reduceOption, mf.fieldType ≠ .untyped := by
    intro mf hmf heq
    have := htypes mf hmf
    rw [heq] at this
    revert this
    simp [MetricType.Shared]
  have hlen : ∀ (name : String) (mtype : MetricType) (m : Metric),
      (metricCells (GoPromproxy.formatFloat decimal) (Metric.goTime now) name mtype m).length
        = (metricCells (floatLabel decimal) (Metric.rustTime now) name mtype m).length := by
    intro name mtype m
    rw [metricCells, metricCells, List.length_map, List.length_map]
    exact length_cells _ _ mtype m
  rw [goFamiliesSeries_ok_iff,
    familiesSeries_eq_cells decimal now fun mf hmf _ _ => huntyped mf hmf,
    and_iff_right fun mf hmf _ _ => hgauge mf hmf, eq_comm, familiesCells, familiesCells,
    flatMap_eq_flatMap_iff]
  · refine forall₂_congr fun mf hmf => ?_
    rw [flatMap_eq_flatMap_iff fun m _ => hlen mf.name mf.fieldType m]
    exact forall₂_congr fun m _ => metricCells_portable_iff hshort now (hgauge mf hmf) mf.name m
  · intro mf _
    rw [List.length_flatMap, List.length_flatMap]
    exact congrArg List.sum (List.map_congr_left fun m _ => hlen mf.name mf.fieldType m)

/-! The histogram with the bounds 0.5 and 1, one with an infinite bound, and a
counter with the time zero. -/

theorem testDecimal_shortest : Shortest testDecimal := by
  intro x _ hdot c hc
  rw [testDecimal] at hdot hc
  split at hdot
  · next heq =>
      rw [if_pos heq] at hc
      obtain rfl : '5' = c := Option.some.inj (Eq.trans (by decide) hc)
      decide
  · exact absurd hdot (by decide)

theorem encoders_sameSeries_iff_two :
    GoPromproxy.familiesSeries testDecimal 7
        [none, some ⟨"h", .histogram, [testMetric 3 [⟨1, half⟩, ⟨2, one⟩]]⟩]
      = .ok (familiesSeries testDecimal 7
        [⟨"h", .histogram, [testMetric 3 [⟨1, half⟩, ⟨2, one⟩]]⟩]) := by
  refine (encoders_sameSeries_iff testDecimal testDecimal_shortest 7
    [none, some ⟨"h", .histogram, [testMetric 3 [⟨1, half⟩, ⟨2, one⟩]]⟩] ?_).mpr ?_
  · intro mf hmf
    obtain rfl := List.mem_singleton.mp hmf
    exact Or.inr (Or.inr (Or.inl rfl))
  · intro mf hmf m hm
    obtain rfl := List.mem_singleton.mp hmf
    obtain rfl := List.mem_singleton.mp hm
    exact ⟨nofun, fun _ => by decide, nofun⟩

/-- **Different series.**  An infinite bound is `inf` in Rust and `+Inf` in Go,
and a counter with the time zero is reported for now in Rust and for zero in Go. -/
theorem encoders_differ :
    GoPromproxy.familiesSeries testDecimal 7
        [some ⟨"h", .histogram, [testMetric 1 [⟨1, .inf⟩]]⟩]
      ≠ .ok (familiesSeries testDecimal 7 [⟨"h", .histogram, [testMetric 1 [⟨1, .inf⟩]]⟩]) ∧
    GoPromproxy.familiesSeries testDecimal 7
        [some ⟨"c", .counter, [{ testMetric 0 [] with timestampMs := some 0 }]⟩]
      ≠ .ok (familiesSeries testDecimal 7
        [⟨"c", .counter, [{ testMetric 0 [] with timestampMs := some 0 }]⟩]) := by
  refine ⟨?_, ?_⟩
  · intro h
    exact absurd (Except.ok.inj h) (by decide)
  · intro h
    exact absurd (Except.ok.inj h) (by decide)

end Proto4.PromProxy
