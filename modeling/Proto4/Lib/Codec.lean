/-
# `Codec` — partial encoders and decoders

A format whose two halves may both fail: text, compressed bytes, a document.
`Decodes d e` says the decoder `d` undoes the encoder `e`.  It is a relation
between two functions, not a property of one codec, because two programs may
each bring their own encoder for one format.  `table` is a codec given by its
graph, for running a development on the documents at hand.
-/
import Proto4.Lib.Keyed

/-- An encoder and a decoder, each of which may refuse. -/
structure Codec (α β : Type) where
  encode : α → Option β
  decode : β → Option α

namespace Codec

variable {α β : Type}

/-- `d` reads back whatever `e` wrote. -/
def Decodes (d : β → Option α) (e : α → Option β) : Prop :=
  ∀ a b, e a = some b → d b = some a

/-- A codec whose own decoder undoes its own encoder. -/
def RoundTrips (c : Codec α β) : Prop := Decodes c.decode c.encode

/-- The codec that knows the documents of a list and no others. -/
def table [DecidableEq α] [DecidableEq β] (entries : List (α × β)) : Codec α β where
  encode a := (entries.find? fun e => e.1 = a).map Prod.snd
  decode b := (entries.find? fun e => e.2 = b).map Prod.fst

theorem table_encode_singleton [DecidableEq α] [DecidableEq β] (a : α) (b : β) :
    (table [(a, b)]).encode a = some b := by simp [table]

theorem table_decode_singleton [DecidableEq α] [DecidableEq β] (a : α) (b : β) :
    (table [(a, b)]).decode b = some a := by simp [table]

/-- A table that writes every document once reads it back. -/
theorem table_roundTrips [DecidableEq α] [DecidableEq β] {entries : List (α × β)}
    (h : (entries.map Prod.snd).Nodup) : (table entries).RoundTrips := by
  intro a b hab
  obtain ⟨⟨a', b'⟩, hfind, rfl⟩ := Option.map_eq_some_iff.mp hab
  have hmem := List.mem_of_find?_eq_some hfind
  obtain rfl : a' = a := by simpa using List.find?_some hfind
  exact Option.map_eq_some_iff.mpr ⟨_, Keyed.find_of_mem h hmem, rfl⟩

end Codec
