/-
# `Proto4.PromProxy.Complete` — no metric is lost and none merged

What the documentation of the encoder promises is a series for every number of
every metric of its five types, and no two series under one label set.  The
second follows from how the series are named: a label set gives back the name
with its suffix, the metric's labels and the last label (`labels_determine`),
and no two names with suffixes meet (`names_apart`).

The first fails for one of the five types: the encoder has no arm for untyped
metrics.  `encoder_complete_iff` says that this is all that is missing.
-/
import Mathlib.Algebra.Order.BigOperators.Group.List
import Mathlib.Algebra.Order.Ring.Nat
import Proto4.PromProxy.Expansion

namespace Proto4.PromProxy

/-! ## The promise -/

/-- The metrics of the families, in order, each with its family. -/
def metricsOf (mfs : List MetricFamily) : List (MetricFamily × Metric) :=
  mfs.flatMap fun mf => mf.metric.map fun m => (mf, m)

/-- The names of the series of a metric: one for a plain number, three and one a
bucket for a histogram, two and one a quantile for a summary. -/
def properNames (name : String) (mtype : MetricType) (m : Metric) : List String :=
  match mtype with
  | .counter => [name]
  | .gauge => [name]
  | .untyped => [name]
  | .histogram =>
      [name ++ "_sum", name ++ "_count"] ++
        List.replicate (m.histogram.bucket.length + 1) (name ++ "_bucket")
  | .summary =>
      [name ++ "_sum", name ++ "_count"] ++ List.replicate m.summary.quantile.length name
  | .gaugeHistogram => []

/-- A series of this name with all labels of the metric. -/
structure Carries (m : Metric) (name : String) (ts : TimeSeries) : Prop where
  name : ts.name = some name
  labels : (m.label.map fun lp => (⟨lp.name, lp.value⟩ : Label)).Sublist ts.labels

/-- The series of one metric, in order. -/
def Accounts (p : MetricFamily × Metric) (block : List TimeSeries) : Prop :=
  List.Forall₂ (Carries p.2) (properNames p.1.name p.1.fieldType p.2) block

/-- The same elements, in any order and number. -/
def SameSet {α : Type} (l l' : List α) : Prop := ∀ x, x ∈ l ↔ x ∈ l'

/-- Every metric has its series, in input order, and no two series have the same
label set. -/
structure Complete (mfs : List MetricFamily) (series : List TimeSeries) : Prop where
  accounted : ∃ blocks, List.Forall₂ Accounts (metricsOf mfs) blocks ∧ series = blocks.flatten
  distinct : series.Pairwise fun ts ts' => ¬ SameSet ts.labels ts'.labels

/-- The numbers of a metric that become labels. -/
def Metric.numbers (mtype : MetricType) (m : Metric) : List Binary64 :=
  match mtype with
  | .histogram => m.histogram.bucket.map Bucket.upperBound
  | .summary => m.summary.quantile.map Quantile.quantile
  | _ => []

/-- Label names that the encoder uses itself. -/
def reservedNames : List String := ["__name__", "le", "quantile"]

/-- Families that can be told apart: by name, within a family by label set, within
a metric by bound or quantile. -/
structure Distinguishable (mfs : List MetricFamily) : Prop where
  types : ∀ mf ∈ mfs, mf.fieldType ≠ .gaugeHistogram
  names : (mfs.map MetricFamily.name).Nodup
  suffixes : ∀ mf ∈ mfs, ∀ mf' ∈ mfs, ∀ suffix ∈ nameSuffixes, mf.name ≠ mf'.name ++ suffix
  labelSets : ∀ mf ∈ mfs, mf.metric.Pairwise fun m m' => ¬ SameSet m.label m'.label
  labelNames : ∀ mf ∈ mfs, ∀ m ∈ mf.metric, ∀ lp ∈ m.label, lp.name ∉ reservedNames
  numbers : ∀ mf ∈ mfs, ∀ m ∈ mf.metric, (m.numbers mf.fieldType).Nodup ∧
    ∀ x ∈ m.numbers mf.fieldType, x.IsFinite

/-! ## What a label set gives back -/

/-- Two names with suffixes meet only if the names are equal or one is the other with a
suffix. -/
theorem names_apart {n n' s s' : String} (hs : s ∈ "" :: nameSuffixes)
    (hs' : s' ∈ "" :: nameSuffixes) (h : n ++ s = n' ++ s') :
    (n = n' ∧ s = s') ∨ ∃ suffix ∈ nameSuffixes, n = n' ++ suffix ∨ n' = n ++ suffix := by
  -- two suffixes differ in their last two characters
  have hend : ∀ s ∈ nameSuffixes, ∀ s' ∈ nameSuffixes,
      s.toList.reverse.take 2 = s'.toList.reverse.take 2 → s = s' := by decide
  have hlen : ∀ s ∈ nameSuffixes, 2 ≤ s.toList.reverse.length := by decide
  rcases List.mem_cons.mp hs with rfl | hs
  · rw [String.append_empty] at h
    rcases List.mem_cons.mp hs' with rfl | hs'
    · rw [String.append_empty] at h
      exact Or.inl ⟨h, rfl⟩
    · exact Or.inr ⟨s', hs', Or.inl h⟩
  · rcases List.mem_cons.mp hs' with rfl | hs'
    · rw [String.append_empty] at h
      exact Or.inr ⟨s, hs, Or.inr h.symm⟩
    · have hrev := congrArg (fun x : String => x.toList.reverse.take 2) h
      simp only [String.toList_append, List.reverse_append] at hrev
      rw [List.take_append_of_le_length (hlen s hs),
        List.take_append_of_le_length (hlen s' hs')] at hrev
      obtain rfl := hend s hs s' hs' hrev
      exact Or.inl ⟨(String.append_left_inj s).mp h, rfl⟩

/-- What the encoder puts last is a label of its own. -/
theorem reserved_of_extra {text : Binary64 → String} {mtype : MetricType} {m : Metric} {c : Cell}
    (hc : c ∈ cells text mtype m) {e : Label} (he : c.extra = some e) :
    e.name ∈ reservedNames ∧ e.name ≠ "__name__" := by
  rcases (mem_cells hc).2 e he with ⟨_, h⟩ | ⟨_, h⟩
  · rw [h]
    decide
  · rw [h]
    decide

section
variable {name name' : String} {label label' : List LabelPair} {c c' : Cell}

/-- The labels of a series: its name, the metric's labels, and what is put last. -/
theorem mem_labels_iff {ts : Int64} {x : Label} :
    x ∈ (c.series name label ts).labels ↔
      x = ⟨"__name__", name ++ c.suffix⟩ ∨ (∃ lp ∈ label, x = ⟨lp.name, lp.value⟩) ∨
        c.extra = some x := by
  rw [Cell.series, tsOne, baseLabels]
  simp only [List.cons_append, List.mem_cons, List.mem_append, List.mem_map, Option.mem_toList]
  simp only [eq_comm]

/-- The three kinds of labels do not mix: each is found among its own kind. -/
theorem labels_included {ts ts' : Int64} (hl : ∀ lp ∈ label, lp.name ∉ reservedNames)
    (hl' : ∀ lp ∈ label', lp.name ∉ reservedNames)
    (hc : ∀ e, c.extra = some e → e.name ∈ reservedNames ∧ e.name ≠ "__name__")
    (hc' : ∀ e, c'.extra = some e → e.name ∈ reservedNames ∧ e.name ≠ "__name__")
    (h : ∀ x, x ∈ (c.series name label ts).labels → x ∈ (c'.series name' label' ts').labels) :
    name ++ c.suffix = name' ++ c'.suffix ∧ (∀ lp ∈ label, lp ∈ label') ∧
      ∀ e, c.extra = some e → c'.extra = some e := by
  have hname : "__name__" ∈ reservedNames := by decide
  refine ⟨?_, ?_, ?_⟩
  · rcases mem_labels_iff.mp (h _ (mem_labels_iff.mpr (Or.inl rfl))) with heq | ⟨lp, hlp, heq⟩ | he
    · exact (Label.mk.inj heq).2
    · exact absurd ((Label.mk.inj heq).1 ▸ hname) (hl' lp hlp)
    · exact absurd rfl (hc' _ he).2
  · intro lp hlp
    rcases mem_labels_iff.mp (h _ (mem_labels_iff.mpr (Or.inr (Or.inl ⟨lp, hlp, rfl⟩)))) with
      heq | ⟨lp', hlp', heq⟩ | he
    · exact absurd ((Label.mk.inj heq).1 ▸ hname) (hl lp hlp)
    · obtain ⟨hn, hv⟩ := Label.mk.inj heq
      rwa [show lp = lp' from LabelPair.mk.injEq .. ▸ ⟨hn, hv⟩]
    · exact absurd (hc' _ he).1 (hl lp hlp)
  · intro e he
    rcases mem_labels_iff.mp (h _ (mem_labels_iff.mpr (Or.inr (Or.inr he)))) with
      heq | ⟨lp, hlp, heq⟩ | he'
    · exact absurd (congrArg Label.name heq) (hc e he).2
    · refine absurd ?_ (hl' lp hlp)
      rw [show lp.name = e.name from (congrArg Label.name heq).symm]
      exact (hc e he).1
    · exact he'

/-- **A label set determines** the name with its suffix, the metric's labels and
what is put last. -/
theorem labels_determine {ts ts' : Int64} (hl : ∀ lp ∈ label, lp.name ∉ reservedNames)
    (hl' : ∀ lp ∈ label', lp.name ∉ reservedNames)
    (hc : ∀ e, c.extra = some e → e.name ∈ reservedNames ∧ e.name ≠ "__name__")
    (hc' : ∀ e, c'.extra = some e → e.name ∈ reservedNames ∧ e.name ≠ "__name__")
    (h : SameSet (c.series name label ts).labels (c'.series name' label' ts').labels) :
    name ++ c.suffix = name' ++ c'.suffix ∧ SameSet label label' ∧ c.extra = c'.extra := by
  obtain ⟨hname, hlabel, hextra⟩ := labels_included hl hl' hc hc' fun x => (h x).mp
  obtain ⟨_, hlabel', hextra'⟩ := labels_included hl' hl hc' hc fun x => (h x).mpr
  exact ⟨hname, fun lp => ⟨hlabel lp, hlabel' lp⟩, Option.ext fun e => ⟨hextra e, hextra' e⟩⟩

end

/-! ## One metric -/

/-- The names of the cells are the proper ones. -/
theorem properNames_eq (text : Binary64 → String) (name : String) (mtype : MetricType)
    (m : Metric) :
    properNames name mtype m = (cells text mtype m).map fun c => name ++ c.suffix := by
  cases mtype with
  | counter | gauge | untyped | gaugeHistogram => simp [properNames, cells]
  | histogram =>
      simp [properNames, cells, List.map_const', List.replicate_succ', Function.comp_def]
  | summary => simp [properNames, cells, List.map_const', Function.comp_def]

/-- Every series of a metric carries its proper name and the metric's labels. -/
theorem accounts_metricCells (text : Binary64 → String) (time : Metric → Int64)
    (p : MetricFamily × Metric) :
    Accounts p (metricCells text time p.1.name p.1.fieldType p.2) := by
  rw [Accounts, properNames_eq text, metricCells, List.forall₂_map_left_iff,
    List.forall₂_map_right_iff, List.forall₂_same]
  intro c _
  refine ⟨name_tsOne c.suffix _ _ _, ?_⟩
  rw [Cell.series, tsOne, baseLabels]
  exact ((List.sublist_append_left _ _).trans (List.sublist_cons_self _ _))

section
variable {text : Binary64 → String} {parse : String → Option Binary64} {xs : List Binary64}

theorem not_nan_of_finite {x : Binary64} (h : x.IsFinite) : ¬ x.IsNaN :=
  Nat.not_lt.mpr (Nat.le_of_lt h)

/-- Texts of different numbers differ. -/
theorem ReadsBack.text_injective (hread : ReadsBack text parse xs) {x y : Binary64} (hx : x ∈ xs)
    (hy : y ∈ xs) (hfin : y.IsFinite) (h : text x = text y) : x = y := by
  have hnum := hread.number y hy (not_nan_of_finite hfin)
  rw [← h] at hnum
  exact hread.eq_of_parse hx (not_nan_of_finite hfin) hnum

/-- The text of a finite number is not that of infinity. -/
theorem ReadsBack.text_ne_inf (hread : ReadsBack text parse xs) (hinf : parse "+Inf" = some .inf)
    {x : Binary64} (hx : x ∈ xs) (hfin : x.IsFinite) : text x ≠ "+Inf" := by
  intro h
  have hnum := hread.number x hx (not_nan_of_finite hfin)
  rw [h, hinf] at hnum
  obtain rfl := Option.some.inj hnum
  exact Nat.lt_irrefl _ hfin

/-- Cells under one suffix, one for each of several different numbers. -/
theorem pairwise_numbered {α : Type} {number : α → Binary64} {cell : α → Cell} {key : String}
    {l : List α} (hread : ReadsBack text parse (l.map number)) (hnodup : (l.map number).Nodup)
    (hfin : ∀ x ∈ l.map number, x.IsFinite)
    (hcell : ∀ a, (cell a).extra = some ⟨key, text (number a)⟩) :
    (l.map cell).Pairwise fun c c' => ¬ (c.suffix = c'.suffix ∧ c.extra = c'.extra) := by
  refine List.pairwise_map.mpr ((List.pairwise_map.mp hnodup).imp_of_mem ?_)
  rintro a b ha hb hne ⟨_, hextra⟩
  rw [hcell, hcell] at hextra
  have htext := (Label.mk.inj (Option.some.inj hextra)).2
  have hmem := List.mem_map_of_mem (f := number) hb
  exact hne (hread.text_injective (List.mem_map_of_mem ha) hmem (hfin _ hmem) htext)

/-- The cells of a metric with different numbers differ in suffix or last label. -/
theorem nodup_cells {mtype : MetricType} {m : Metric}
    (hread : ReadsBack text parse (m.numbers mtype)) (hinf : parse "+Inf" = some .inf)
    (hnodup : (m.numbers mtype).Nodup) (hfin : ∀ x ∈ m.numbers mtype, x.IsFinite) :
    (cells text mtype m).Pairwise fun c c' => ¬ (c.suffix = c'.suffix ∧ c.extra = c'.extra) := by
  cases mtype with
  | counter | gauge | untyped | gaugeHistogram => simp [cells]
  | histogram =>
      simp only [cells, List.cons_append, List.nil_append]
      refine List.pairwise_cons.mpr ⟨?_, List.pairwise_cons.mpr ⟨?_, List.pairwise_append.mpr
        ⟨pairwise_numbered hread hnodup hfin fun _ => rfl, List.pairwise_singleton _ _, ?_⟩⟩⟩
      · intro c hc
        simp only [List.mem_cons, List.mem_append, List.mem_map, List.not_mem_nil, or_false] at hc
        rcases hc with rfl | ⟨b, _, rfl⟩ | rfl
        · simp
        · simp
        · simp
      · intro c hc
        simp only [List.mem_append, List.mem_map, List.mem_cons, List.not_mem_nil, or_false] at hc
        rcases hc with ⟨b, _, rfl⟩ | rfl
        · simp
        · simp
      · rintro c hc c' hc' ⟨_, hextra⟩
        obtain ⟨b, hb, rfl⟩ := List.mem_map.mp hc
        obtain rfl := List.mem_singleton.mp hc'
        have hmem : b.upperBound ∈ m.histogram.bucket.map Bucket.upperBound :=
          List.mem_map_of_mem hb
        exact hread.text_ne_inf hinf hmem (hfin _ hmem)
          (Label.mk.inj (Option.some.inj hextra)).2
  | summary =>
      simp only [cells, List.cons_append, List.nil_append]
      refine List.pairwise_cons.mpr ⟨?_, List.pairwise_cons.mpr ⟨?_,
        pairwise_numbered hread hnodup hfin fun _ => rfl⟩⟩
      · simp
      · simp

end

/-! ## All metrics -/

/-- Two metrics whose series cannot meet. -/
def Apart (p q : MetricFamily × Metric) : Prop :=
  (p.1.name ≠ q.1.name ∧
      ∀ suffix ∈ nameSuffixes, p.1.name ≠ q.1.name ++ suffix ∧ q.1.name ≠ p.1.name ++ suffix) ∨
    (p.1 = q.1 ∧ ¬ SameSet p.2.label q.2.label)

theorem mem_metricsOf {mfs : List MetricFamily} {p : MetricFamily × Metric} :
    p ∈ metricsOf mfs ↔ p.1 ∈ mfs ∧ p.2 ∈ p.1.metric := by
  rw [metricsOf, List.mem_flatMap]
  constructor
  · rintro ⟨mf, hmf, hp⟩
    obtain ⟨m, hm, rfl⟩ := List.mem_map.mp hp
    exact ⟨hmf, hm⟩
  · rintro ⟨hmf, hm⟩
    exact ⟨p.1, hmf, List.mem_map.mpr ⟨p.2, hm, rfl⟩⟩

theorem Distinguishable.apart {mfs : List MetricFamily} (h : Distinguishable mfs) :
    (metricsOf mfs).Pairwise Apart := by
  refine List.pairwise_flatMap.mpr ⟨?_, ?_⟩
  · intro mf hmf
    refine List.pairwise_map.mpr ((h.labelSets mf hmf).imp ?_)
    intro m m' hne
    exact Or.inr ⟨rfl, hne⟩
  · refine (List.pairwise_map.mp h.names).imp_of_mem ?_
    intro mf mf' hmf hmf' hne p hp q hq
    obtain ⟨m, _, rfl⟩ := List.mem_map.mp hp
    obtain ⟨m', _, rfl⟩ := List.mem_map.mp hq
    refine Or.inl ⟨hne, fun suffix hs => ?_⟩
    exact ⟨h.suffixes mf hmf mf' hmf' suffix hs, h.suffixes mf' hmf' mf hmf suffix hs⟩

/-- Series of metrics apart, or of different cells of one metric, have different label sets. -/
theorem distinct_of_apart {mfs : List MetricFamily} (h : Distinguishable mfs)
    {text : Binary64 → String} {parse : String → Option Binary64} (time : Metric → Int64)
    (hread : ReadsBack text parse
      ((metricsOf mfs).flatMap fun p => p.2.numbers p.1.fieldType))
    (hinf : parse "+Inf" = some .inf) :
    ((metricsOf mfs).flatMap fun p => metricCells text time p.1.name p.1.fieldType p.2).Pairwise
      fun ts ts' => ¬ SameSet ts.labels ts'.labels := by
  have hreserved : ∀ p ∈ metricsOf mfs, ∀ lp ∈ p.2.label, lp.name ∉ reservedNames := by
    intro p hp
    obtain ⟨hmf, hm⟩ := mem_metricsOf.mp hp
    exact h.labelNames p.1 hmf p.2 hm
  refine List.pairwise_flatMap.mpr ⟨?_, ?_⟩
  · intro p hp
    obtain ⟨hmf, hm⟩ := mem_metricsOf.mp hp
    obtain ⟨hnodup, hfin⟩ := h.numbers p.1 hmf p.2 hm
    have hown := hread.mono fun x hx => List.mem_flatMap.mpr ⟨p, hp, hx⟩
    refine List.pairwise_map.mpr ((nodup_cells hown hinf hnodup hfin).imp_of_mem ?_)
    intro c c' hc hc' hne hsame
    obtain ⟨hname, _, hextra⟩ := labels_determine (hreserved p hp) (hreserved p hp)
      (fun _ => reserved_of_extra hc) (fun _ => reserved_of_extra hc') hsame
    exact hne ⟨(String.append_right_inj p.1.name).mp hname, hextra⟩
  · refine h.apart.imp_of_mem ?_
    intro p q hp hq hapart ts hts ts' hts' hsame
    obtain ⟨c, hc, rfl⟩ := List.mem_map.mp hts
    obtain ⟨c', hc', rfl⟩ := List.mem_map.mp hts'
    obtain ⟨hname, hlabels, _⟩ := labels_determine (hreserved p hp) (hreserved q hq)
      (fun _ => reserved_of_extra hc) (fun _ => reserved_of_extra hc') hsame
    rcases hapart with ⟨hne, hsuffixes⟩ | ⟨_, hne⟩
    · rcases names_apart (mem_cells hc).1 (mem_cells hc').1 hname with
        ⟨heq, _⟩ | ⟨suffix, hs, heq | heq⟩
      · exact hne heq
      · exact (hsuffixes suffix hs).1 heq
      · exact (hsuffixes suffix hs).2 heq
    · exact hne hlabels

theorem familiesSeries_eq_flatMap (decimal : Binary64 → String) (now : Int64)
    (mfs : List MetricFamily) :
    familiesSeries decimal now mfs
      = (metricsOf mfs).flatMap fun p => metricSeries decimal now p.1.name p.1.fieldType p.2 := by
  rw [familiesSeries, metricsOf, List.flatMap_assoc]
  simp only [List.flatMap_map]

/-- Series that account for all metrics are as many as there are proper names. -/
theorem length_of_accounts {ps : List (MetricFamily × Metric)} {blocks : List (List TimeSeries)}
    (h : List.Forall₂ Accounts ps blocks) :
    blocks.flatten.length
      = (ps.map fun p => (properNames p.1.name p.1.fieldType p.2).length).sum := by
  induction h with
  | nil => rfl
  | cons hp _ ih =>
      rw [List.flatten_cons, List.length_append, ih, List.map_cons, List.sum_cons, hp.length_eq]

/-- The encoder writes no more than the proper series of a metric, and for an
untyped one none. -/
theorem length_metricSeries_le (decimal : Binary64 → String) (now : Int64) (name : String)
    (mtype : MetricType) (m : Metric) :
    (metricSeries decimal now name mtype m).length ≤ (properNames name mtype m).length := by
  rcases eq_or_ne mtype .untyped with rfl | htype
  · exact Nat.zero_le _
  · rw [metricSeries_eq_cells decimal now htype, metricCells, List.length_map,
      properNames_eq (floatLabel decimal), List.length_map]

/-- **No metric is lost and none merged.**  For every list of families of the
documented types that can be told apart: the encoder writes every metric's
series, with its labels and under proper names, and no two under one label set,
if and only if there is no untyped metric. -/
theorem encoder_complete_iff (decimal : Binary64 → String) (parse : String → Option Binary64)
    (now : Int64) (mfs : List MetricFamily) (h : Distinguishable mfs)
    (hreads : Reads decimal parse
      ((metricsOf mfs).flatMap fun p => p.2.numbers p.1.fieldType)) :
    Complete mfs (familiesSeries decimal now mfs) ↔
      ∀ mf ∈ mfs, mf.fieldType = .untyped → mf.metric = [] := by
  rw [familiesSeries_eq_flatMap]
  constructor
  · rintro ⟨⟨blocks, hacc, heq⟩, _⟩ mf hmf huntyped
    by_contra hne
    obtain ⟨m, ms, hms⟩ := List.exists_cons_of_ne_nil hne
    have hlost : (mf, m) ∈ metricsOf mfs :=
      mem_metricsOf.mpr ⟨hmf, by rw [hms]; exact List.mem_cons_self⟩
    have hlen := congrArg List.length heq
    rw [List.length_flatMap, length_of_accounts hacc] at hlen
    refine Nat.ne_of_lt (List.sum_lt_sum _ _
      (fun p _ => length_metricSeries_le decimal now p.1.name p.1.fieldType p.2)
      ⟨(mf, m), hlost, ?_⟩) hlen
    dsimp only
    rw [huntyped]
    exact Nat.one_pos
  · intro hnone
    have htyped : ∀ p ∈ metricsOf mfs, p.1.fieldType ≠ .untyped := by
      intro p hp heq
      obtain ⟨hmf, hm⟩ := mem_metricsOf.mp hp
      rw [hnone p.1 hmf heq] at hm
      cases hm
    rw [List.flatMap_congr fun p hp => metricSeries_eq_cells decimal now (htyped p hp) p.1.name p.2]
    refine ⟨⟨_, ?_, List.flatMap_def⟩,
      distinct_of_apart h _ (readsBack_floatLabel hreads) hreads.goInf⟩
    rw [List.forall₂_map_right_iff, List.forall₂_same]
    exact fun p _ => accounts_metricCells _ _ p

/-! A counter and a histogram, and an untyped metric. -/

/-- A metric that is a number under one label. -/
def labelled (value : String) : Metric :=
  { testMetric 0 [] with label := [⟨"job", value⟩], counter := one, untyped := one }

def twoFamilies : List MetricFamily :=
  [⟨"c", .counter, [labelled "a", labelled "b"]⟩,
    ⟨"h", .histogram, [testMetric 3 [⟨1, half⟩, ⟨2, one⟩]]⟩]

theorem labelled_apart : ¬ SameSet (labelled "a").label (labelled "b").label := by
  intro h
  exact absurd ((h ⟨"job", "a"⟩).mp (by decide)) (by decide)

theorem twoFamilies_distinguishable : Distinguishable twoFamilies where
  types := by decide
  names := by decide
  suffixes := by decide
  labelSets := by
    intro mf hmf
    rcases List.mem_pair.mp hmf with rfl | rfl
    · exact List.pairwise_pair.mpr labelled_apart
    · exact List.pairwise_singleton _ _
  labelNames := by decide
  numbers := by
    intro mf hmf m hm
    rcases List.mem_pair.mp hmf with rfl | rfl
    · rcases List.mem_pair.mp hm with rfl | rfl
      · exact ⟨List.nodup_nil, nofun⟩
      · exact ⟨List.nodup_nil, nofun⟩
    · obtain rfl := List.mem_singleton.mp hm
      exact ⟨by decide, by decide⟩

theorem encoder_complete_iff_two :
    Complete twoFamilies (familiesSeries testDecimal 7 twoFamilies) :=
  (encoder_complete_iff testDecimal testParse 7 twoFamilies twoFamilies_distinguishable
    testDecimal_reads).mpr (by decide)

/-- **An untyped metric is lost.** -/
theorem encoder_loses_untyped :
    Distinguishable [⟨"u", .untyped, [labelled "a"]⟩] ∧
      familiesSeries testDecimal 7 [⟨"u", .untyped, [labelled "a"]⟩] = [] ∧
      ¬ Complete [⟨"u", .untyped, [labelled "a"]⟩]
        (familiesSeries testDecimal 7 [⟨"u", .untyped, [labelled "a"]⟩]) := by
  refine ⟨⟨by decide, by decide, by decide, ?_, by decide, ?_⟩, rfl, ?_⟩
  · intro mf hmf
    obtain rfl := List.mem_singleton.mp hmf
    exact List.pairwise_singleton _ _
  · intro mf hmf m hm
    obtain rfl := List.mem_singleton.mp hmf
    exact ⟨List.nodup_nil, nofun⟩
  · rintro ⟨⟨blocks, hacc, heq⟩, _⟩
    have hlen := length_of_accounts hacc
    rw [← heq] at hlen
    exact absurd hlen (by decide)

end Proto4.PromProxy
