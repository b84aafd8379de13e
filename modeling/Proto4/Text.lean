/-
# `Proto4.Text` — texts and error bodies as JSON

Both servers answer an error as `{"message":"..."}`, written by `serde_json`.
What matters of a text here is how many bytes it takes inside a JSON string.
-/
import Proto4.Lib.JsonText
import Proto4.TinyFrame.Basic

namespace Proto4

theorem utf8_append (s t : String) : utf8 (s ++ t) = utf8 s ++ utf8 t := by
  show (s ++ t).toByteArray.data.toList = _
  rw [String.toByteArray_append]
  exact ByteArray.toList_data_append

/-- The bytes of a text inside a JSON string. -/
def textLength (s : String) : Nat := JsonText.escapedLength (utf8 s)

theorem textLength_append (s t : String) : textLength (s ++ t) = textLength s + textLength t := by
  rw [textLength, utf8_append, JsonText.escapedLength_append]
  rfl

theorem length_quote_utf8 (s : String) :
    (JsonText.quote (utf8 s)).length = textLength s + 2 := JsonText.length_quote _

/-- `{"message":"..."}`. -/
def errorBytes (message : String) : Bytes :=
  JsonText.object [(utf8 "message", JsonText.quote (utf8 message))]

theorem length_errorBytes (message : String) :
    (errorBytes message).length = textLength message + 14 := by
  have hname : JsonText.escapedLength (utf8 "message") = 7 := by decide +kernel
  rw [errorBytes, JsonText.length_object]
  simp only [List.map_cons, List.map_nil, List.sum_cons, List.sum_nil, List.length_singleton,
    hname, length_quote_utf8]
  omega

/-- A text of two to the power `k` bytes. -/
def longText : Nat → String
  | 0 => "x"
  | k + 1 => longText k ++ longText k

theorem textLength_longText (k : Nat) : textLength (longText k) = 2 ^ k := by
  induction k with
  | zero => decide +kernel
  | succ k ih =>
      rw [longText, textLength_append, ih, Nat.pow_succ]
      omega

end Proto4
