/-
# `Proto4.PromProxy.Histogram` — one series per bound

A histogram is written as a series per bucket and one more for `+Inf`, which
the encoder adds itself.  Both encoders write the same expansion up to the text
of a bound (`expansion`), so what is said of it is said of both.

The data model allows the last bucket to be the `+Inf` bucket already.  The
encoders do not look, and then there are two series for one bound:
`encoders_oneSeriesPerBound_iff` says that this is the only way to get there.
-/
import Mathlib.Data.List.Nodup
import Mathlib.Data.List.Pairwise
import Proto4.GoPromproxy.Encode

namespace Proto4.PromProxy

/-! ## Reading a series back -/

/-- The name of a series. -/
def TimeSeries.name (ts : TimeSeries) : Option String :=
  (ts.labels.find? fun l => l.name = "__name__").map Label.value

/-- The bound a bucket series carries: its last `le` label, as a number. -/
def TimeSeries.bound (parse : String → Option Binary64) (ts : TimeSeries) : Option Binary64 :=
  ((ts.labels.filter fun l => l.name = "le").getLast?.map Label.value).bind parse

/-- The series of one name. -/
def named (name : String) (series : List TimeSeries) : List TimeSeries :=
  series.filter fun ts => ts.name = some name

/-- What the two languages document of their texts, at the numbers `xs`: a finite
number reads back, its decimal has no zeros to trim, and the infinities and NaN
read as such. -/
structure Reads (decimal : Binary64 → String) (parse : String → Option Binary64)
    (xs : List Binary64) : Prop where
  finite : ∀ x ∈ xs, x.IsFinite → parse (decimal x) = some x
  trimmed : ∀ x ∈ xs, x.IsFinite → '.' ∈ (decimal x).toList →
    ∀ c, (decimal x).toList.getLast? = some c → c ≠ '0' ∧ c ≠ '.'
  rustInf : parse "inf" = some .inf
  goInf : parse "+Inf" = some .inf
  rustNegInf : parse "-inf" = some .negInf
  goNegInf : parse "-Inf" = some .negInf
  nan : ∃ n, parse "NaN" = some n ∧ n.IsNaN

/-- The histogram as the data model has it: bounds strictly increase, counts do
not decrease, and no bucket counts more than there are samples. -/
structure Histogram.WellFormed (h : Histogram) : Prop where
  bounds : (h.bucket.map Bucket.upperBound).Pairwise (· < ·)
  counts : (h.bucket.map Bucket.cumulativeCount).Pairwise (· ≤ ·)
  total : ∀ b ∈ h.bucket, b.cumulativeCount ≤ h.sampleCount

/-- One series per bound: the `_bucket` series of a histogram carry different
bounds, one of them is infinite, that one counts all samples as the `_count`
series does, and the counts do not decrease with the bound. -/
structure OneSeriesPerBound (parse : String → Option Binary64) (name : String) (h : Histogram)
    (series : List TimeSeries) : Prop where
  distinct : ((named (name ++ "_bucket") series).map (TimeSeries.bound parse)).Nodup
  oneInf : ((named (name ++ "_bucket") series).filter
    fun ts => ts.bound parse = some .inf).length = 1
  infValue : ∀ ts ∈ named (name ++ "_bucket") series, ts.bound parse = some .inf →
    ts.value = some (.ofUInt64 h.sampleCount) ∧
      ∀ c ∈ named (name ++ "_count") series, c.value = ts.value
  increasing : ∀ ts ∈ named (name ++ "_bucket") series, ∀ ts' ∈ named (name ++ "_bucket") series,
    ∀ b b' v v', ts.bound parse = some b → ts'.bound parse = some b' → b ≤ b' →
      ts.value = some v → ts'.value = some v' → v ≤ v'

/-! ## The expansion both encoders write -/

section
variable (text : Binary64 → String) (name : String) (label : List LabelPair)

/-- The labels of a series of this name. -/
def baseLabels (suffix : String) : List Label :=
  ⟨"__name__", name ++ suffix⟩ :: label.map fun lp => ⟨lp.name, lp.value⟩

/-- The series of one bound, under the text of it. -/
def boundSeries (le : String) (count : UInt64) (ts : Int64) : TimeSeries :=
  tsOne (baseLabels name label "_bucket" ++ [⟨"le", le⟩]) (.ofUInt64 count) ts

def expansion (h : Histogram) (ts : Int64) : List TimeSeries :=
  [tsOne (baseLabels name label "_sum") h.sampleSum ts,
    tsOne (baseLabels name label "_count") (.ofUInt64 h.sampleCount) ts] ++
  (h.bucket.map fun b => boundSeries name label (text b.upperBound) b.cumulativeCount ts) ++
  [boundSeries name label "+Inf" h.sampleCount ts]

end

theorem metricSeries_histogram (decimal : Binary64 → String) (now : Int64) (name : String)
    (m : Metric) :
    metricSeries decimal now name .histogram m
      = expansion (floatLabel decimal) name m.label m.histogram
          (if m.getTimestampMs ≠ 0 then m.getTimestampMs else now) := rfl

theorem goMetricSeries_histogram (decimal : Binary64 → String) (now : Int64) (name : String)
    (m : Metric) :
    GoPromproxy.metricSeries decimal now name .histogram m
      = .ok (expansion (GoPromproxy.formatFloat decimal) name m.label m.histogram
          (m.timestampMs.getD now)) := by
  cases m with
  | mk label counter gauge summary untyped histogram timestampMs =>
      cases timestampMs with
      | none => rfl
      | some t => rfl

section
variable {name : String} {label : List LabelPair}

theorem name_tsOne (suffix : String) (tail : List Label) (v : Binary64) (ts : Int64) :
    (tsOne (baseLabels name label suffix ++ tail) v ts).name = some (name ++ suffix) := by
  rw [TimeSeries.name, tsOne, baseLabels]
  simp

theorem bound_boundSeries (parse : String → Option Binary64) (le : String) (count : UInt64)
    (ts : Int64) : (boundSeries name label le count ts).bound parse = parse le := by
  rw [TimeSeries.bound, boundSeries, tsOne]
  simp

theorem name_boundSeries (le : String) (count : UInt64) (ts : Int64) :
    (boundSeries name label le count ts).name = some (name ++ "_bucket") :=
  name_tsOne _ _ _ _

theorem name_ne {a b : String} (h : a ≠ b) : some (name ++ a) ≠ some (name ++ b) := by
  intro e
  exact h ((String.append_right_inj name).mp (Option.some.inj e))

theorem named_append (n : String) (series series' : List TimeSeries) :
    named n (series ++ series') = named n series ++ named n series' := List.filter_append ..

theorem named_all {n : String} {series : List TimeSeries}
    (h : ∀ ts ∈ series, ts.name = some n) : named n series = series := by
  refine List.filter_eq_self.mpr fun ts hts => ?_
  simpa using h ts hts

theorem named_none {n : String} {series : List TimeSeries}
    (h : ∀ ts ∈ series, ts.name ≠ some n) : named n series = [] := by
  refine List.filter_eq_nil_iff.mpr fun ts hts => ?_
  simpa using h ts hts

/-- All series of bounds carry the bucket name. -/
theorem name_bounds {text : Binary64 → String} {h : Histogram} {now : Int64} :
    ∀ ts ∈ (h.bucket.map fun b =>
        boundSeries name label (text b.upperBound) b.cumulativeCount now) ++
      [boundSeries name label "+Inf" h.sampleCount now], ts.name = some (name ++ "_bucket") := by
  intro ts hts
  rcases List.mem_append.mp hts with hmap | hlast
  · obtain ⟨b, _, rfl⟩ := List.mem_map.mp hmap
    exact name_boundSeries _ _ _
  · obtain rfl := List.mem_singleton.mp hlast
    exact name_boundSeries _ _ _

/-- The `_bucket` series of the expansion. -/
theorem named_bucket (text : Binary64 → String) (h : Histogram) (now : Int64) :
    named (name ++ "_bucket") (expansion text name label h now)
      = (h.bucket.map fun b =>
          boundSeries name label (text b.upperBound) b.cumulativeCount now) ++
        [boundSeries name label "+Inf" h.sampleCount now] := by
  rw [expansion, List.append_assoc, named_append, named_all name_bounds, named_none]
  · rfl
  · intro ts hts
    rcases List.mem_pair.mp hts with rfl | rfl
    · rw [← List.append_nil (baseLabels name label "_sum"), name_tsOne]
      exact name_ne (by decide)
    · rw [← List.append_nil (baseLabels name label "_count"), name_tsOne]
      exact name_ne (by decide)

/-- The `_count` series of the expansion. -/
theorem value_of_named_count {text : Binary64 → String} {h : Histogram} {now : Int64}
    {c : TimeSeries} (hc : c ∈ named (name ++ "_count") (expansion text name label h now)) :
    c.value = some (.ofUInt64 h.sampleCount) := by
  rw [expansion, List.append_assoc, named_append, List.mem_append] at hc
  rcases hc with hc | hc
  · obtain ⟨hmem, hname⟩ := List.mem_filter.mp hc
    rcases List.mem_pair.mp hmem with rfl | rfl
    · rw [← List.append_nil (baseLabels name label "_sum"), name_tsOne] at hname
      exact absurd (of_decide_eq_true hname) (name_ne (by decide))
    · rfl
  · obtain ⟨hmem, hname⟩ := List.mem_filter.mp hc
    rw [name_bounds c hmem] at hname
    exact absurd (of_decide_eq_true hname) (name_ne (by decide))

end

/-! ## The texts -/

/-- At the numbers `xs`, a language's text of a number reads back as that number,
and of a NaN as a NaN. -/
structure ReadsBack (text : Binary64 → String) (parse : String → Option Binary64)
    (xs : List Binary64) : Prop where
  number : ∀ x ∈ xs, ¬ x.IsNaN → parse (text x) = some x
  nan : ∀ x ∈ xs, x.IsNaN → ∃ n, parse (text x) = some n ∧ n.IsNaN

section
variable {decimal text : Binary64 → String} {parse : String → Option Binary64}
  {xs : List Binary64}

theorem ReadsBack.mono (h : ReadsBack text parse xs) {ys : List Binary64}
    (hsub : ∀ y ∈ ys, y ∈ xs) : ReadsBack text parse ys where
  number y hy := h.number y (hsub y hy)
  nan y hy := h.nan y (hsub y hy)

theorem ReadsBack.eq_of_parse (h : ReadsBack text parse xs) {x y : Binary64} (hmem : x ∈ xs)
    (hy : ¬ y.IsNaN) (hparse : parse (text x) = some y) : x = y := by
  rcases Decidable.em x.IsNaN with hx | hx
  · obtain ⟨n, hn, hnan⟩ := h.nan x hmem hx
    obtain rfl : n = y := Option.some.inj (hn.symm.trans hparse)
    exact absurd hnan hy
  · exact Option.some.inj ((h.number x hmem hx).symm.trans hparse)

theorem trimEndMatches_of_getLast {c : Char} {s : String}
    (h : ∀ d, s.toList.getLast? = some d → d ≠ c) : trimEndMatches c s = s := by
  have hdrop : s.toList.reverse.dropWhile (· = c) = s.toList.reverse := by
    cases hrev : s.toList.reverse with
    | nil => rfl
    | cons d ds =>
        have hlast : s.toList.getLast? = some d := by
          rw [← List.head?_reverse, hrev]
          rfl
        rw [List.dropWhile_cons_of_neg (by simpa using h d hlast)]
  rw [trimEndMatches, hdrop, List.reverse_reverse, String.ofList_toList]

/-- The names of the infinities and of NaN have no point; a text with one is a decimal. -/
theorem finite_of_point {x : Binary64} (h : '.' ∈ (display decimal x).toList) :
    x.IsFinite ∧ display decimal x = decimal x := by
  rw [display] at h ⊢
  rcases x.cases with hfin | rfl | rfl | hnan
  · have hnum : ¬ x.IsNaN := Nat.not_lt.mpr (Nat.le_of_lt hfin)
    have hinf : x ≠ .inf := by
      rintro rfl
      exact Nat.lt_irrefl _ hfin
    have hneg : x ≠ .negInf := by
      rintro rfl
      exact Nat.lt_irrefl _ hfin
    rw [if_neg hnum, if_neg hinf, if_neg hneg]
    exact ⟨hfin, rfl⟩
  · exact absurd h (show '.' ∉ "inf".toList by decide)
  · exact absurd h (show '.' ∉ "-inf".toList by decide)
  · rw [if_pos hnan] at h
    exact absurd h (by decide)

/-- Trimming takes nothing off a shortest decimal, and there is nothing to trim elsewhere. -/
theorem floatLabel_of_trimmed {x : Binary64}
    (htrim : x.IsFinite → '.' ∈ (decimal x).toList →
      ∀ c, (decimal x).toList.getLast? = some c → c ≠ '0' ∧ c ≠ '.') :
    floatLabel decimal x = display decimal x := by
  rw [floatLabel]
  split
  · next hdot =>
      obtain ⟨hfin, heq⟩ := finite_of_point hdot
      rw [heq] at hdot ⊢
      rw [trimEndMatches_of_getLast fun c hc => (htrim hfin hdot c hc).1,
        trimEndMatches_of_getLast fun c hc => (htrim hfin hdot c hc).2]
  · rfl

theorem floatLabel_eq_display (h : Reads decimal parse xs) {x : Binary64} (hmem : x ∈ xs) :
    floatLabel decimal x = display decimal x :=
  floatLabel_of_trimmed (h.trimmed x hmem)

/-- A text that prints the finite numbers in decimal and the others by name. -/
theorem readsBack_of_names (h : Reads decimal parse xs) {inf negInf : String}
    (hinf : parse inf = some .inf) (hneg : parse negInf = some .negInf)
    (htext : ∀ x ∈ xs, text x = if x.IsNaN then "NaN" else if x = .inf then inf
      else if x = .negInf then negInf else decimal x) : ReadsBack text parse xs where
  number x hmem hx := by
    rw [htext x hmem, if_neg hx]
    split
    · next heq => rw [heq, hinf]
    · next h1 =>
        split
        · next heq => rw [heq, hneg]
        · next h2 =>
            rcases x.cases with hfin | heq | heq | hnan
            · exact h.finite x hmem hfin
            · exact absurd heq h1
            · exact absurd heq h2
            · exact absurd hnan hx
  nan x hmem hx := by
    rw [htext x hmem, if_pos hx]
    exact h.nan

theorem readsBack_floatLabel (h : Reads decimal parse xs) :
    ReadsBack (floatLabel decimal) parse xs :=
  readsBack_of_names h h.rustInf h.rustNegInf fun _ hmem => floatLabel_eq_display h hmem

theorem readsBack_formatFloat (h : Reads decimal parse xs) :
    ReadsBack (GoPromproxy.formatFloat decimal) parse xs :=
  readsBack_of_names h h.goInf h.goNegInf fun _ _ => rfl

end

/-! ## One series per bound -/

/-- In a well-formed histogram the counts go with the bounds. -/
theorem Histogram.WellFormed.count_le {h : Histogram} (hwf : h.WellFormed) {a b : Bucket}
    (ha : a ∈ h.bucket) (hb : b ∈ h.bucket) (hle : a.upperBound ≤ b.upperBound) :
    a.cumulativeCount ≤ b.cumulativeCount := by
  let R : Bucket → Bucket → Prop := fun a b =>
    a.upperBound ≤ b.upperBound → a.cumulativeCount ≤ b.cumulativeCount
  have hforward : h.bucket.Pairwise R := by
    refine (List.pairwise_map.mp hwf.counts).imp ?_
    intro a b hcount _
    exact hcount
  have hback : h.bucket.Pairwise (flip R) := by
    refine (List.pairwise_map.mp hwf.bounds).imp ?_
    intro a b hlt hge
    exact absurd hge (Binary64.not_le_of_lt hlt)
  have hrefl : ∀ x ∈ h.bucket, R x x := fun _ _ _ => UInt64.le_refl _
  exact hforward.forall_of_forall_of_flip hrefl hback ha hb hle

section
variable {text : Binary64 → String} {parse : String → Option Binary64}

theorem bounds_nodup {h : Histogram} (hread : ReadsBack text parse (h.bucket.map Bucket.upperBound))
    (hwf : h.WellFormed)
    (hno : ∀ b ∈ h.bucket, b.upperBound ≠ .inf) :
    ((h.bucket.map fun b => parse (text b.upperBound)) ++ [some Binary64.inf]).Nodup := by
  refine List.nodup_append.mpr ⟨?_, List.nodup_singleton _, ?_⟩
  · refine List.pairwise_map.mpr ((List.pairwise_map.mp hwf.bounds).imp_of_mem ?_)
    intro a b ha hb hlt heq
    rw [hread.number _ (List.mem_map_of_mem ha) hlt.1,
      hread.number _ (List.mem_map_of_mem hb) hlt.2.1] at heq
    exact Binary64.ne_of_lt hlt (Option.some.inj heq)
  · intro x hx y hy heq
    obtain ⟨b, hb, rfl⟩ := List.mem_map.mp hx
    rw [List.mem_singleton.mp hy] at heq
    exact hno b hb (hread.eq_of_parse (List.mem_map_of_mem hb) Binary64.not_nan_inf heq)

theorem mem_bounds {name : String} {label : List LabelPair} {h : Histogram} {now : Int64}
    {ts : TimeSeries}
    (hts : ts ∈ named (name ++ "_bucket") (expansion text name label h now)) :
    (∃ b ∈ h.bucket, ts.bound parse = parse (text b.upperBound) ∧
        ts.value = some (.ofUInt64 b.cumulativeCount)) ∨
      ts.bound parse = parse "+Inf" ∧ ts.value = some (.ofUInt64 h.sampleCount) := by
  rw [named_bucket, List.mem_append] at hts
  rcases hts with hts | hts
  · obtain ⟨b, hb, rfl⟩ := List.mem_map.mp hts
    exact Or.inl ⟨b, hb, bound_boundSeries _ _ _ _, rfl⟩
  · obtain rfl := List.mem_singleton.mp hts
    exact Or.inr ⟨bound_boundSeries _ _ _ _, rfl⟩

theorem map_bound {name : String} {label : List LabelPair} {h : Histogram} {now : Int64}
    (hinf : parse "+Inf" = some .inf) :
    (named (name ++ "_bucket") (expansion text name label h now)).map (TimeSeries.bound parse)
      = (h.bucket.map fun b => parse (text b.upperBound)) ++ [some Binary64.inf] := by
  rw [named_bucket, List.map_append, List.map_map]
  refine congrArg₂ _ (List.map_congr_left fun b _ => bound_boundSeries _ _ _ _) ?_
  rw [List.map_singleton, bound_boundSeries, hinf]

/-- **The expansion has one series per bound exactly when no bucket is the
`+Inf` bucket.** -/
theorem expansion_oneSeriesPerBound_iff {h : Histogram}
    (hread : ReadsBack text parse (h.bucket.map Bucket.upperBound))
    (hinf : parse "+Inf" = some .inf) (name : String) (label : List LabelPair)
    (hwf : h.WellFormed) (now : Int64) :
    OneSeriesPerBound parse name h (expansion text name label h now) ↔
      ∀ b ∈ h.bucket, b.upperBound ≠ .inf := by
  constructor
  · intro hone b hb heq
    have hnodup := hone.distinct
    rw [map_bound hinf, List.nodup_append] at hnodup
    refine hnodup.2.2 _ (List.mem_map.mpr ⟨b, hb, rfl⟩) _ (List.mem_singleton.mpr rfl) ?_
    have hmem : Binary64.inf ∈ h.bucket.map Bucket.upperBound :=
      List.mem_map.mpr ⟨b, hb, heq⟩
    rw [heq]
    exact hread.number _ hmem Binary64.not_nan_inf
  · intro hno
    have hlast : ∀ b ∈ h.bucket, parse (text b.upperBound) ≠ some .inf := by
      intro b hb heq
      exact hno b hb (hread.eq_of_parse (List.mem_map_of_mem hb) Binary64.not_nan_inf heq)
    refine ⟨?_, ?_, ?_, ?_⟩
    · rw [map_bound hinf]
      exact bounds_nodup hread hwf hno
    · rw [named_bucket, List.filter_append, List.filter_eq_nil_iff.mpr]
      · rw [List.nil_append, List.filter_cons_of_pos]
        · rfl
        · rw [bound_boundSeries, hinf]
          exact decide_eq_true rfl
      · intro ts hts
        obtain ⟨b, hb, rfl⟩ := List.mem_map.mp hts
        rw [bound_boundSeries]
        simpa using hlast b hb
    · intro ts hts hbound
      have hvalue : ts.value = some (.ofUInt64 h.sampleCount) := by
        rcases mem_bounds hts with ⟨b, hb, hbb, _⟩ | ⟨_, hv⟩
        · exact absurd (hbb.symm.trans hbound) (hlast b hb)
        · exact hv
      refine ⟨hvalue, fun c hc => ?_⟩
      rw [value_of_named_count hc, hvalue]
    · intro ts hts ts' hts' x x' v v' hx hx' hle hv hv'
      rcases mem_bounds hts with ⟨b, hb, hbb, hbv⟩ | ⟨hbb, hbv⟩
      · obtain rfl := Option.some.inj (hbv.symm.trans hv)
        obtain rfl := hread.eq_of_parse (List.mem_map_of_mem hb) hle.1 (hbb.symm.trans hx)
        rcases mem_bounds hts' with ⟨b', hb', hbb', hbv'⟩ | ⟨_, hbv'⟩
        · obtain rfl := Option.some.inj (hbv'.symm.trans hv')
          obtain rfl := hread.eq_of_parse (List.mem_map_of_mem hb') hle.2.1 (hbb'.symm.trans hx')
          exact Binary64.ofUInt64_le (hwf.count_le hb hb' hle)
        · obtain rfl := Option.some.inj (hbv'.symm.trans hv')
          exact Binary64.ofUInt64_le (hwf.total b hb)
      · obtain rfl := Option.some.inj (hbv.symm.trans hv)
        obtain rfl : Binary64.inf = x := Option.some.inj (hinf.symm.trans (hbb.symm.trans hx))
        rcases mem_bounds hts' with ⟨b', hb', hbb', _⟩ | ⟨_, hbv'⟩
        · obtain rfl := Binary64.eq_inf_of_le hle
          exact absurd (hbb'.symm.trans hx') (hlast b' hb')
        · obtain rfl := Option.some.inj (hbv'.symm.trans hv')
          exact Binary64.ofUInt64_le (UInt64.le_refl _)

end

/-- **One series per bound, in both languages.**  Whatever the metric, its
labels and the time: the Rust and the Go series of a well-formed histogram have
one series per bound if and only if no bucket is the `+Inf` bucket already. -/
theorem encoders_oneSeriesPerBound_iff (decimal : Binary64 → String)
    (parse : String → Option Binary64) (now : Int64) (name : String) (m : Metric)
    (hreads : Reads decimal parse (m.histogram.bucket.map Bucket.upperBound))
    (hwf : m.histogram.WellFormed) :
    (OneSeriesPerBound parse name m.histogram (metricSeries decimal now name .histogram m) ↔
      ∀ b ∈ m.histogram.bucket, b.upperBound ≠ .inf) ∧
    (∃ tss, GoPromproxy.metricSeries decimal now name .histogram m = .ok tss ∧
      (OneSeriesPerBound parse name m.histogram tss ↔
        ∀ b ∈ m.histogram.bucket, b.upperBound ≠ .inf)) := by
  refine ⟨?_, _, goMetricSeries_histogram decimal now name m, ?_⟩
  · rw [metricSeries_histogram]
    exact expansion_oneSeriesPerBound_iff (readsBack_floatLabel hreads) hreads.goInf name _ hwf _
  · exact expansion_oneSeriesPerBound_iff (readsBack_formatFloat hreads) hreads.goInf name _ hwf _

/-! The histogram of the repository's test, bounds 0.5 and 1, and one whose only
bucket is the `+Inf` bucket. -/

def half : Binary64 := ⟨false, 0x3fe0000000000000, by decide⟩

def one : Binary64 := ⟨false, 0x3ff0000000000000, by decide⟩

/-- The shortest decimals of the two bounds. -/
def testDecimal (x : Binary64) : String := if x = half then "0.5" else "1"

/-- What the two languages read, at the texts at hand. -/
def testParse (s : String) : Option Binary64 :=
  ([("0.5", half), ("1", one), ("inf", .inf), ("+Inf", .inf), ("-inf", .negInf), ("-Inf", .negInf),
    ("NaN", ⟨false, 0x7ff8000000000000, by decide⟩)].find? fun e => e.1 = s).map Prod.snd

theorem testDecimal_reads : Reads testDecimal testParse [half, one] where
  finite := by decide
  trimmed := by
    intro x hx _ hdot c hc
    rcases List.mem_cons.mp hx with rfl | hx
    · have hlast : (testDecimal half).toList.getLast? = some '5' := by decide
      obtain rfl := Option.some.inj (hlast.symm.trans hc)
      decide
    · obtain rfl := List.mem_singleton.mp hx
      exact absurd hdot (by decide)
  rustInf := by decide
  goInf := by decide
  rustNegInf := by decide
  goNegInf := by decide
  nan := ⟨⟨false, 0x7ff8000000000000, by decide⟩, by decide, by decide⟩

/-- A metric that is a histogram of these buckets. -/
def testMetric (sampleCount : UInt64) (bucket : List Bucket) : Metric where
  label := []
  counter := ⟨false, 0, by decide⟩
  gauge := ⟨false, 0, by decide⟩
  summary := ⟨0, ⟨false, 0, by decide⟩, []⟩
  untyped := ⟨false, 0, by decide⟩
  histogram := ⟨sampleCount, one, bucket⟩
  timestampMs := none

theorem encoders_oneSeriesPerBound_iff_two :
    (OneSeriesPerBound testParse "h" ⟨3, one, [⟨1, half⟩, ⟨2, one⟩]⟩
        (metricSeries testDecimal 7 "h" .histogram (testMetric 3 [⟨1, half⟩, ⟨2, one⟩])) ↔
      ∀ b ∈ ([⟨1, half⟩, ⟨2, one⟩] : List Bucket), b.upperBound ≠ .inf) ∧
    (∃ tss, GoPromproxy.metricSeries testDecimal 7 "h" .histogram
        (testMetric 3 [⟨1, half⟩, ⟨2, one⟩]) = .ok tss ∧
      (OneSeriesPerBound testParse "h" ⟨3, one, [⟨1, half⟩, ⟨2, one⟩]⟩ tss ↔
        ∀ b ∈ ([⟨1, half⟩, ⟨2, one⟩] : List Bucket), b.upperBound ≠ .inf)) :=
  encoders_oneSeriesPerBound_iff testDecimal testParse 7 "h"
    (testMetric 3 [⟨1, half⟩, ⟨2, one⟩]) testDecimal_reads
    ⟨by decide, by decide, by decide⟩

/-- **Two series for one bound.**  A histogram whose last bucket is the `+Inf`
bucket, as the data model allows: Rust writes `inf` and `+Inf`, Go `+Inf` twice. -/
theorem encoders_repeat_inf :
    (⟨1, one, [⟨1, .inf⟩]⟩ : Histogram).WellFormed ∧
    (¬ OneSeriesPerBound testParse "h" ⟨1, one, [⟨1, .inf⟩]⟩
        (metricSeries testDecimal 7 "h" .histogram (testMetric 1 [⟨1, .inf⟩]))) ∧
    ∃ tss, GoPromproxy.metricSeries testDecimal 7 "h" .histogram (testMetric 1 [⟨1, .inf⟩])
        = .ok tss ∧
      ¬ OneSeriesPerBound testParse "h" ⟨1, one, [⟨1, .inf⟩]⟩ tss := by
  refine ⟨⟨by decide, by decide, by decide⟩, ?_, _, rfl, ?_⟩
  · intro h
    exact absurd h.distinct (by decide)
  · intro h
    exact absurd h.distinct (by decide)

end Proto4.PromProxy
