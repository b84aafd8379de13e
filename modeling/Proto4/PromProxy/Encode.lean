/-
# `Proto4.PromProxy.Encode` — metric families as time series

`src/prom_proxy/encode.rs`.  A gathered family is a name, a type and metrics;
the encoder turns every metric into one or more series, each with its labels
and one sample.  The data is that of the two client libraries, whose getters
answer the default of an absent field; only an absent timestamp is kept apart,
since the two encoders treat it differently.

The text of a finite number is a parameter: `decimal` is the shortest decimal
without an exponent that reads back, the documented behaviour of `{}` in Rust
and of `strconv.FormatFloat` with `'f'` and `-1` in Go.  Infinities and NaN are
printed here, since there the two languages differ.
-/
import Proto4.Lib.Binary64
import Proto4.TinyFrame.Basic

namespace Proto4.PromProxy

/-! ## Gathered metrics -/

/-- The types of both client libraries; only Go's has the last. -/
inductive MetricType
  | counter
  | gauge
  | summary
  | untyped
  | histogram
  | gaugeHistogram
  deriving DecidableEq, Repr

structure LabelPair where
  name : String
  value : String
  deriving DecidableEq, Repr

structure Bucket where
  cumulativeCount : UInt64
  upperBound : Binary64

structure Histogram where
  sampleCount : UInt64
  sampleSum : Binary64
  bucket : List Bucket

structure Quantile where
  quantile : Binary64
  value : Binary64

structure Summary where
  sampleCount : UInt64
  sampleSum : Binary64
  quantile : List Quantile

structure Metric where
  label : List LabelPair
  counter : Binary64
  gauge : Binary64
  summary : Summary
  untyped : Binary64
  histogram : Histogram
  timestampMs : Option Int64

structure MetricFamily where
  name : String
  fieldType : MetricType
  metric : List Metric

/-- `get_timestamp_ms`: zero when there is none. -/
def Metric.getTimestampMs (m : Metric) : Int64 := m.timestampMs.getD 0

/-! ## Series -/

structure Label where
  name : String
  value : String
  deriving DecidableEq, Repr

structure Sample where
  value : Binary64
  timestampMs : Int64
  deriving DecidableEq

structure TimeSeries where
  labels : List Label
  samples : List Sample
  deriving DecidableEq

/-- The value of a series' only sample. -/
def TimeSeries.value (ts : TimeSeries) : Option Binary64 := ts.samples.head?.map Sample.value

inductive EncodeError
  | prost (message : String)
  | msg (message : String)
  deriving DecidableEq, Repr

def labelsFromMetric (name : String) (m : Metric) : List Label :=
  ⟨"__name__", name⟩ :: m.label.map fun lp => ⟨lp.name, lp.value⟩

/-- Overwrite the first label called `__name__`, if there is one. -/
def setName (name : String) : List Label → Option (List Label)
  | [] => none
  | l :: ls =>
      if l.name = "__name__" then some ({ l with value := name } :: ls)
      else (setName name ls).map (l :: ·)

def withName (labels : List Label) (name : String) : List Label :=
  (setName name labels).getD (⟨"__name__", name⟩ :: labels)

def tsOne (labels : List Label) (value : Binary64) (timestampMs : Int64) : TimeSeries where
  labels := labels
  samples := [⟨value, timestampMs⟩]

/-! ## Numbers as label values -/

/-- `trim_end_matches` of one character. -/
def trimEndMatches (c : Char) (s : String) : String :=
  String.ofList (s.toList.reverse.dropWhile (· = c)).reverse

section
variable (decimal : Binary64 → String)

/-- `format!("{v}")`. -/
def display (v : Binary64) : String :=
  if v.IsNaN then "NaN"
  else if v = .inf then "inf"
  else if v = .negInf then "-inf"
  else decimal v

def floatLabel (v : Binary64) : String :=
  let s := display decimal v
  if '.' ∈ s.toList then trimEndMatches '.' (trimEndMatches '0' s) else s

/-! ## The encoder -/

/-- The series one metric adds. -/
def metricSeries (now : Int64) (name : String) (mtype : MetricType) (m : Metric) :
    List TimeSeries :=
  let base := labelsFromMetric name m
  let ts := if m.getTimestampMs ≠ 0 then m.getTimestampMs else now
  match mtype with
  | .counter => [tsOne base m.counter ts]
  | .gauge => [tsOne base m.gauge ts]
  | .histogram =>
      let h := m.histogram
      [tsOne (withName base s!"{name}_sum") h.sampleSum ts,
        tsOne (withName base s!"{name}_count") (.ofUInt64 h.sampleCount) ts] ++
      (h.bucket.map fun b =>
        tsOne (withName base s!"{name}_bucket" ++ [⟨"le", floatLabel decimal b.upperBound⟩])
          (.ofUInt64 b.cumulativeCount) ts) ++
      [tsOne (withName base s!"{name}_bucket" ++ [⟨"le", "+Inf"⟩]) (.ofUInt64 h.sampleCount) ts]
  | .summary =>
      let s := m.summary
      [tsOne (withName base s!"{name}_sum") s.sampleSum ts,
        tsOne (withName base s!"{name}_count") (.ofUInt64 s.sampleCount) ts] ++
      s.quantile.map fun q =>
        tsOne (withName base name ++ [⟨"quantile", floatLabel decimal q.quantile⟩]) q.value ts
  | _ => []

/-- The series of the families, in order. -/
def familiesSeries (now : Int64) (mfs : List MetricFamily) : List TimeSeries :=
  mfs.flatMap fun mf => mf.metric.flatMap (metricSeries decimal now mf.name mf.fieldType)

/-- `encode_metric_families`; `encodeWriteRequest` is the protobuf encoding. -/
def encodeMetricFamilies (encodeWriteRequest : List TimeSeries → Except EncodeError Bytes)
    (now : Int64) (mfs : List MetricFamily) : Except EncodeError Bytes :=
  encodeWriteRequest (familiesSeries decimal now mfs)

end

end Proto4.PromProxy
