/-
# `Proto4.PromProxy.WriteRequest` — the body of a remote write, as bytes

The `WriteRequest` of `src/prom_proxy/encode.rs` and what a receiver reads of
it.  The messages and their field numbers are the source's; the encoding itself
is `prost`'s, or on the other side `prompb`'s, and is a parameter of which only
the format is known: the fields of a message in order, each a record unless it
holds its default (`EncodesRequest`).

`readWriteRequest` is the receiver.  Whatever an encoder of this format writes,
it reads the same series, label by label and sample by sample, up to the sign of
a zero, which a writer may leave out (`decodes_of_encodes`).
-/
import Mathlib.Data.List.Forall2
import Proto4.Lib.BigEndian
import Proto4.Lib.Protobuf
import Proto4.PromProxy.Encode

namespace Proto4.PromProxy

open Protobuf (Record Wire Written occurrences last repeated readRecords readRepeated)

/-! ## The messages -/

structure PbLabel where
  name : String
  value : String
  deriving DecidableEq

structure PbSample where
  value : Binary64
  timestamp : Int64
  deriving DecidableEq

structure PbTimeSeries where
  labels : List PbLabel
  samples : List PbSample
  deriving DecidableEq

structure PbWriteRequest where
  timeseries : List PbTimeSeries
  deriving DecidableEq

def PbLabel.ofLabel (l : Label) : PbLabel := ⟨l.name, l.value⟩

def PbSample.ofSample (s : Sample) : PbSample := ⟨s.value, s.timestampMs⟩

def PbTimeSeries.ofSeries (ts : TimeSeries) : PbTimeSeries where
  labels := ts.labels.map PbLabel.ofLabel
  samples := ts.samples.map PbSample.ofSample

/-- `encode_write_request`; `prost` is `Message::encode`. -/
def encodeWriteRequest (prost : PbWriteRequest → Except EncodeError Bytes)
    (series : List TimeSeries) : Except EncodeError Bytes :=
  prost ⟨series.map PbTimeSeries.ofSeries⟩

/-! ## The format -/

/-- A double is eight bytes, the lowest first. -/
def doubleBytes (x : Binary64) : { bs : Bytes // bs.length = 8 } :=
  ⟨(BigEndian.ofU64 x.toBits).reverse, by rw [List.length_reverse, BigEndian.length_ofU64]⟩

/-- An `int64` is the varint of its 64-bit word. -/
def int64Varint (x : Int64) : Nat := x.toUInt64.toNat

def EncodesLabel (l : PbLabel) (bs : Bytes) : Prop :=
  ∃ name value, Written (l.name = "") 1 (.bytes (utf8 l.name)) name ∧
    Written (l.value = "") 2 (.bytes (utf8 l.value)) value ∧ bs = Protobuf.encode (name ++ value)

def EncodesSample (s : PbSample) (bs : Bytes) : Prop :=
  ∃ value timestamp, Written (s.value.code = 0) 1 (.fixed64 (doubleBytes s.value)) value ∧
    Written (s.timestamp = 0) 2 (.varint (int64Varint s.timestamp)) timestamp ∧
    bs = Protobuf.encode (value ++ timestamp)

def EncodesSeries (ts : PbTimeSeries) (bs : Bytes) : Prop :=
  ∃ labels samples, List.Forall₂ EncodesLabel ts.labels labels ∧
    List.Forall₂ EncodesSample ts.samples samples ∧
    bs = Protobuf.encode (repeated 1 labels ++ repeated 2 samples)

/-- The bytes are an encoding of the request. -/
def EncodesRequest (req : PbWriteRequest) (bs : Bytes) : Prop :=
  ∃ series, List.Forall₂ EncodesSeries req.timeseries series ∧
    bs = Protobuf.encode (repeated 1 series)

/-! The shortest encoding leaves out every default. -/

def labelBytes (l : PbLabel) : Bytes :=
  Protobuf.encode (Protobuf.field (l.name = "") 1 (.bytes (utf8 l.name)) ++
    Protobuf.field (l.value = "") 2 (.bytes (utf8 l.value)))

def sampleBytes (s : PbSample) : Bytes :=
  Protobuf.encode (Protobuf.field (s.value.code = 0) 1 (.fixed64 (doubleBytes s.value)) ++
    Protobuf.field (s.timestamp = 0) 2 (.varint (int64Varint s.timestamp)))

def seriesBytes (ts : PbTimeSeries) : Bytes :=
  Protobuf.encode (repeated 1 (ts.labels.map labelBytes) ++ repeated 2 (ts.samples.map sampleBytes))

def requestBytes (req : PbWriteRequest) : Bytes :=
  Protobuf.encode (repeated 1 (req.timeseries.map seriesBytes))

theorem encodes_requestBytes (req : PbWriteRequest) : EncodesRequest req (requestBytes req) := by
  have hlabel : ∀ l, EncodesLabel l (labelBytes l) := fun l =>
    ⟨_, _, Protobuf.written_field _ _ _, Protobuf.written_field _ _ _, rfl⟩
  have hsample : ∀ s, EncodesSample s (sampleBytes s) := fun s =>
    ⟨_, _, Protobuf.written_field _ _ _, Protobuf.written_field _ _ _, rfl⟩
  have hseries : ∀ ts, EncodesSeries ts (seriesBytes ts) := fun ts =>
    ⟨_, _, List.forall₂_map_right_iff.mpr (List.forall₂_same.mpr fun l _ => hlabel l),
      List.forall₂_map_right_iff.mpr (List.forall₂_same.mpr fun s _ => hsample s), rfl⟩
  exact ⟨_, List.forall₂_map_right_iff.mpr (List.forall₂_same.mpr fun ts _ => hseries ts), rfl⟩

/-! ## The receiver -/

/-- A `string` field; absent, it is empty. -/
def readText (number : Nat) (rs : List Record) : Option String :=
  match last number rs with
  | none => some ""
  | some (.bytes bs) => String.fromUTF8? ⟨bs.toArray⟩
  | some _ => none

/-- A `double` field; absent, it is zero. -/
def readDouble (number : Nat) (rs : List Record) : Option Binary64 :=
  match last number rs with
  | none => some (.ofBits 0)
  | some (.fixed64 bs) => some (.ofBits (BigEndian.toU64 bs.val.reverse))
  | some _ => none

/-- An `int64` field; absent, it is zero. -/
def readInt64 (number : Nat) (rs : List Record) : Option Int64 :=
  match last number rs with
  | none => some 0
  | some (.varint n) => some (UInt64.ofNat n).toInt64
  | some _ => none

def readLabel (bs : Bytes) : Option PbLabel := do
  let rs ← readRecords bs
  let name ← readText 1 rs
  let value ← readText 2 rs
  pure ⟨name, value⟩

def readSample (bs : Bytes) : Option PbSample := do
  let rs ← readRecords bs
  let value ← readDouble 1 rs
  let timestamp ← readInt64 2 rs
  pure ⟨value, timestamp⟩

def readSeries (bs : Bytes) : Option PbTimeSeries := do
  let rs ← readRecords bs
  let labels ← readRepeated readLabel 1 rs
  let samples ← readRepeated readSample 2 rs
  pure ⟨labels, samples⟩

def readWriteRequest (bs : Bytes) : Option PbWriteRequest := do
  let rs ← readRecords bs
  let timeseries ← readRepeated readSeries 1 rs
  pure ⟨timeseries⟩

def SameSample (s s' : PbSample) : Prop := s.value.Same s'.value ∧ s.timestamp = s'.timestamp

/-- The same labels, and the same samples up to the sign of a zero. -/
structure SameSeries (ts ts' : PbTimeSeries) : Prop where
  labels : ts.labels = ts'.labels
  samples : List.Forall₂ SameSample ts.samples ts'.samples

/-- What is the same as a third is the same. -/
theorem forall₂_euclidean {α : Type} {R : α → α → Prop} (hR : ∀ a b c, R a c → R b c → R a b) :
    ∀ {as bs cs : List α}, List.Forall₂ R as cs → List.Forall₂ R bs cs → List.Forall₂ R as bs := by
  intro as bs cs h
  induction h generalizing bs with
  | nil =>
      intro h'
      cases h'
      exact .nil
  | cons hac _ ih =>
      intro h'
      cases h' with
      | cons hbc hrest => exact .cons (hR _ _ _ hac hbc) (ih hrest)

theorem SameSeries.of_same {ts ts' ts'' : PbTimeSeries} (h : SameSeries ts ts'')
    (h' : SameSeries ts' ts'') : SameSeries ts ts' where
  labels := h.labels.trans h'.labels.symm
  samples := forall₂_euclidean
    (fun _ _ _ hac hbc => ⟨hac.1.of_same hbc.1, hac.2.trans hbc.2.symm⟩) h.samples h'.samples

/-! ## What the receiver reads -/

theorem fromUTF8_utf8 (s : String) : String.fromUTF8? ⟨(utf8 s).toArray⟩ = some s := by
  have hbytes : (⟨(utf8 s).toArray⟩ : ByteArray) = s.toByteArray := by
    rw [utf8, Array.toArray_toList]
    rfl
  rw [hbytes, String.fromUTF8?, dif_pos s.isValidUTF8]
  rfl

section
variable {number : Nat} {rs : List Record}

theorem readText_of_last {s : String}
    (h : last number rs = some (.bytes (utf8 s)) ∨ (last number rs = none ∧ s = "")) :
    readText number rs = some s := by
  rw [readText]
  rcases h with h | ⟨h, rfl⟩
  · rw [h]
    exact fromUTF8_utf8 s
  · rw [h]

theorem readDouble_of_last {x : Binary64}
    (h : last number rs = some (.fixed64 (doubleBytes x)) ∨ (last number rs = none ∧ x.code = 0)) :
    ∃ y, readDouble number rs = some y ∧ x.Same y := by
  rw [readDouble]
  rcases h with h | ⟨h, hzero⟩
  · rw [h]
    refine ⟨x, ?_, Or.inl rfl⟩
    dsimp only [doubleBytes]
    rw [List.reverse_reverse, BigEndian.toU64_ofU64, Binary64.ofBits_toBits]
  · rw [h]
    exact ⟨_, rfl, Or.inr ⟨hzero, rfl⟩⟩

theorem readInt64_of_last {x : Int64}
    (h : last number rs = some (.varint (int64Varint x)) ∨ (last number rs = none ∧ x = 0)) :
    readInt64 number rs = some x := by
  rw [readInt64]
  rcases h with h | ⟨h, rfl⟩
  · rw [h]
    dsimp only [int64Varint]
    rw [UInt64.ofNat_toNat, Int64.toInt64_toUInt64]
  · rw [h]

end

/-- Two fields of one value do not hide each other. -/
theorem last_of_two {P Q : Prop} {v w : Wire} {rs rs' : List Record} (h : Written P 1 v rs)
    (h' : Written Q 2 w rs') :
    (last 1 (rs ++ rs') = some v ∨ (last 1 (rs ++ rs') = none ∧ P)) ∧
      (last 2 (rs ++ rs') = some w ∨ (last 2 (rs ++ rs') = none ∧ Q)) := by
  have hfirst : last 1 (rs ++ rs') = last 1 rs := by
    rw [last, Protobuf.occurrences_append, h'.occurrences_other (by decide), List.append_nil]
    rfl
  have hsecond : last 2 (rs ++ rs') = last 2 rs' := by
    rw [last, Protobuf.occurrences_append, h.occurrences_other (by decide), List.nil_append]
    rfl
  rw [hfirst, hsecond]
  exact ⟨h.last, h'.last⟩

theorem readLabel_of_encodes {l : PbLabel} {bs : Bytes} (h : EncodesLabel l bs) :
    ∃ l', readLabel bs = some l' ∧ l = l' := by
  obtain ⟨name, value, hname, hvalue, rfl⟩ := h
  obtain ⟨hfirst, hsecond⟩ := last_of_two hname hvalue
  refine ⟨l, ?_, rfl⟩
  rw [readLabel, Protobuf.readRecords_encode]
  show (readText 1 _).bind _ = _
  rw [readText_of_last hfirst, Option.bind_some, readText_of_last hsecond]
  rfl

theorem readSample_of_encodes {s : PbSample} {bs : Bytes} (h : EncodesSample s bs) :
    ∃ s', readSample bs = some s' ∧ SameSample s s' := by
  obtain ⟨value, timestamp, hvalue, htime, rfl⟩ := h
  obtain ⟨hfirst, hsecond⟩ := last_of_two hvalue htime
  obtain ⟨y, hread, hsame⟩ := readDouble_of_last hfirst
  refine ⟨⟨y, s.timestamp⟩, ?_, ⟨hsame, rfl⟩⟩
  rw [readSample, Protobuf.readRecords_encode]
  show (readDouble 1 _).bind _ = _
  rw [hread, Option.bind_some, readInt64_of_last hsecond]
  rfl

theorem readSeries_of_encodes {ts : PbTimeSeries} {bs : Bytes} (h : EncodesSeries ts bs) :
    ∃ ts', readSeries bs = some ts' ∧ SameSeries ts ts' := by
  obtain ⟨labels, samples, hlabels, hsamples, rfl⟩ := h
  have hfirst : occurrences 1 (repeated 1 labels ++ repeated 2 samples) = labels.map Wire.bytes := by
    rw [Protobuf.occurrences_append, Protobuf.occurrences_repeated,
      Protobuf.occurrences_repeated_other (by decide), List.append_nil]
  have hsecond : occurrences 2 (repeated 1 labels ++ repeated 2 samples)
      = samples.map Wire.bytes := by
    rw [Protobuf.occurrences_append, Protobuf.occurrences_repeated,
      Protobuf.occurrences_repeated_other (by decide), List.nil_append]
  obtain ⟨ls, hls, hsame⟩ := Protobuf.readRepeated_of_forall₂ hfirst
    (hlabels.imp fun _ _ h => readLabel_of_encodes h)
  obtain ⟨ss, hss, hsames⟩ := Protobuf.readRepeated_of_forall₂ hsecond
    (hsamples.imp fun _ _ h => readSample_of_encodes h)
  refine ⟨⟨ls, ss⟩, ?_, List.forall₂_eq_eq_eq ▸ hsame, hsames⟩
  rw [readSeries, Protobuf.readRecords_encode]
  show (readRepeated readLabel 1 _).bind _ = _
  rw [hls, Option.bind_some, hss]
  rfl

/-- What was encoded is what is received. -/
theorem decodes_of_encodes {req : PbWriteRequest} {bs : Bytes} (h : EncodesRequest req bs) :
    ∃ req', readWriteRequest bs = some req' ∧
      List.Forall₂ SameSeries req.timeseries req'.timeseries := by
  obtain ⟨blocks, hall, rfl⟩ := h
  obtain ⟨tss, htss, hsame⟩ := Protobuf.readRepeated_of_forall₂
    (Protobuf.occurrences_repeated 1 blocks) (hall.imp fun _ _ h => readSeries_of_encodes h)
  refine ⟨⟨tss⟩, ?_, hsame⟩
  rw [readWriteRequest, Protobuf.readRecords_encode]
  show (readRepeated readSeries 1 _).bind _ = _
  rw [htss]
  rfl

/-- **`encode_write_request` loses nothing but the sign of a zero.**  Whoever
reads the bytes reads the series, and other series have other bytes. -/
theorem encodeWriteRequest_decodes (prost : PbWriteRequest → Except EncodeError Bytes)
    (hprost : ∀ req bs, prost req = .ok bs → EncodesRequest req bs) {series : List TimeSeries}
    {bs : Bytes} (h : encodeWriteRequest prost series = .ok bs) :
    (∃ req, readWriteRequest bs = some req ∧
      List.Forall₂ SameSeries (series.map PbTimeSeries.ofSeries) req.timeseries) ∧
    ∀ series', encodeWriteRequest prost series' = .ok bs →
      List.Forall₂ SameSeries (series.map PbTimeSeries.ofSeries)
        (series'.map PbTimeSeries.ofSeries) := by
  obtain ⟨req, hread, hsame⟩ := decodes_of_encodes (hprost _ _ h)
  refine ⟨⟨req, hread, hsame⟩, ?_⟩
  intro series' h'
  obtain ⟨req', hread', hsame'⟩ := decodes_of_encodes (hprost _ _ h')
  obtain rfl := Option.some.inj (hread.symm.trans hread')
  exact forall₂_euclidean (fun _ _ _ hac hbc => hac.of_same hbc) hsame hsame'

/-- A counter of one key, at a zero that is left out. -/
def oneSeries : TimeSeries := ⟨[⟨"__name__", "x"⟩], [⟨.ofUInt64 0, 7⟩]⟩

theorem encodeWriteRequest_decodes_one :
    (∃ req, readWriteRequest (requestBytes ⟨[PbTimeSeries.ofSeries oneSeries]⟩) = some req ∧
      List.Forall₂ SameSeries ([oneSeries].map PbTimeSeries.ofSeries) req.timeseries) ∧
    ∀ series', encodeWriteRequest (fun req => .ok (requestBytes req)) series'
        = .ok (requestBytes ⟨[PbTimeSeries.ofSeries oneSeries]⟩) →
      List.Forall₂ SameSeries ([oneSeries].map PbTimeSeries.ofSeries)
        (series'.map PbTimeSeries.ofSeries) :=
  encodeWriteRequest_decodes (fun req => .ok (requestBytes req))
    (fun req _ h => Except.ok.inj h ▸ encodes_requestBytes req) rfl

end Proto4.PromProxy
