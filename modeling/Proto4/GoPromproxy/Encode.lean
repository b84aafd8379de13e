/-
# `Proto4.GoPromproxy.Encode` — the encoder of the Go package `promproxy`

`promproxy/encode.go`, function by function.  `prompb`'s labels, samples and
series have the fields of the Rust ones.  A family may be a nil pointer, and a
type the encoder does not know is an error.
-/
import Proto4.PromProxy.Encode

namespace Proto4.GoPromproxy

open PromProxy (Metric MetricType MetricFamily Label Sample TimeSeries)

def labelsFromMetric (name : String) (m : Metric) : List Label :=
  ⟨"__name__", name⟩ :: m.label.map fun lp => ⟨lp.name, lp.value⟩

/-- The loop of `withName`: the labels with the first `__name__` overwritten. -/
def overwriteName (name : String) : List Label → Option (List Label)
  | [] => none
  | l :: ls =>
      if l.name = "__name__" then some ({ l with value := name } :: ls)
      else (overwriteName name ls).map (l :: ·)

def withName (labels : List Label) (name : String) : List Label :=
  match overwriteName name labels with
  | some out => out
  | none => [⟨"__name__", name⟩] ++ labels

def appendLabel (labels : List Label) (name value : String) : List Label :=
  labels ++ [⟨name, value⟩]

def timeSeries (labels : List Label) (value : Binary64) (ts : Int64) : TimeSeries where
  labels := labels
  samples := [⟨value, ts⟩]

section
variable (decimal : Binary64 → String)

/-- `strconv.FormatFloat(v, 'f', -1, 64)`. -/
def formatFloat (v : Binary64) : String :=
  if v.IsNaN then "NaN"
  else if v = .inf then "+Inf"
  else if v = .negInf then "-Inf"
  else decimal v

/-- The series one metric adds; a type the `switch` does not list is an error. -/
def metricSeries (now : Int64) (name : String) (mtype : MetricType) (m : Metric) :
    Except String (List TimeSeries) :=
  let base := labelsFromMetric name m
  let ts := match m.timestampMs with
    | some t => t
    | none => now
  match mtype with
  | .counter => .ok [timeSeries base m.counter ts]
  | .gauge => .ok [timeSeries base m.gauge ts]
  | .untyped => .ok [timeSeries base m.untyped ts]
  | .histogram =>
      let h := m.histogram
      .ok ([timeSeries (withName base (name ++ "_sum")) h.sampleSum ts,
          timeSeries (withName base (name ++ "_count")) (.ofUInt64 h.sampleCount) ts] ++
        (h.bucket.map fun b =>
          let bound := formatFloat decimal b.upperBound
          timeSeries (appendLabel (withName base (name ++ "_bucket")) "le" bound)
            (.ofUInt64 b.cumulativeCount) ts) ++
        [timeSeries (appendLabel (withName base (name ++ "_bucket")) "le" "+Inf")
          (.ofUInt64 h.sampleCount) ts])
  | .summary =>
      let s := m.summary
      .ok ([timeSeries (withName base (name ++ "_sum")) s.sampleSum ts,
          timeSeries (withName base (name ++ "_count")) (.ofUInt64 s.sampleCount) ts] ++
        s.quantile.map fun q =>
          let qv := formatFloat decimal q.quantile
          timeSeries (appendLabel (withName base name) "quantile" qv) q.value ts)
  | .gaugeHistogram =>
      .error s!"promproxy: unsupported metric type GAUGE_HISTOGRAM for {name.quote}"

/-- The series of the families, in order; nil families are passed over. -/
def familiesSeries (now : Int64) (mfs : List (Option MetricFamily)) :
    Except String (List TimeSeries) := do
  let series ← mfs.reduceOption.mapM fun mf => do
    let tss ← mf.metric.mapM (metricSeries decimal now mf.name mf.fieldType)
    pure tss.flatten
  pure series.flatten

/-- `EncodeMetricFamilies`; `marshal` is the protobuf encoding. -/
def encodeMetricFamilies (marshal : List TimeSeries → Except String Bytes) (now : Int64)
    (mfs : List (Option MetricFamily)) : Except String Bytes := do
  let tss ← familiesSeries decimal now mfs
  marshal tss

end

end Proto4.GoPromproxy
