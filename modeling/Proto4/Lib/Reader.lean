/-
# `Reader` and `Sink` — consuming an input list, filling an output list

A `Reader β ε α` takes what is still unread and answers a result *and* what is
then unread, on failure too.  The remainder is part of the answer also when the result is an
error, so "how much did the failed read consume" can be asked; an exception
monad over a state monad in the other order would forget it.

`readExact n` is the primitive of stream readers: the next `n` items, or an
error with everything consumed when there are fewer; the error may depend on
what was there.  `inOrder` runs a list of
readers one after the other; `inOrder_append` is the framing law, that readers
which each consume exactly their own block consume a concatenation of blocks
and nothing more.

A `Sink` takes items until its other end goes away: `room` is how many more it
will take, `none` when it never fails.
-/
import Mathlib.Data.List.Forall2

/-- A reader of `β`s: the result, and the input left unread. -/
structure Reader (β ε α : Type) where
  run : List β → Except ε α × List β

namespace Reader

variable {β ε α γ : Type}

def ret (a : α) : Reader β ε α := ⟨fun s => (.ok a, s)⟩

def andThen (x : Reader β ε α) (f : α → Reader β ε γ) : Reader β ε γ :=
  ⟨fun s => match x.run s with
    | (.ok a, rest) => (f a).run rest
    | (.error e, rest) => (.error e, rest)⟩

instance : Monad (Reader β ε) where
  pure := ret
  bind := andThen

theorem bind_run (x : Reader β ε α) (f : α → Reader β ε γ) (s : List β) :
    (x >>= f).run s = match x.run s with
      | (.ok a, rest) => (f a).run rest
      | (.error e, rest) => (.error e, rest) := rfl

theorem andThen_ret (x : Reader β ε α) : andThen x ret = x := by
  obtain ⟨x⟩ := x
  simp only [andThen, ret, mk.injEq]
  funext s
  cases x s with
  | mk r rest => cases r <;> rfl

theorem andThen_assoc {δ : Type} (x : Reader β ε α) (f : α → Reader β ε γ)
    (g : γ → Reader β ε δ) :
    andThen (andThen x f) g = andThen x fun a => andThen (f a) g := by
  simp only [andThen, mk.injEq]
  funext s
  cases x.run s with
  | mk r rest => cases r <;> rfl

instance : LawfulMonad (Reader β ε) :=
  LawfulMonad.mk' _ andThen_ret (fun _ _ => rfl) andThen_assoc

/-- A computation that touches no input. -/
def ofExcept (x : Except ε α) : Reader β ε α := ⟨fun s => (x, s)⟩

/-- The next `n` items, or an error with the input exhausted. -/
def readExact (n : Nat) (eof : List β → ε) : Reader β ε (List β) :=
  ⟨fun s => if n ≤ s.length then (.ok (s.take n), s.drop n) else (.error (eof s), [])⟩

theorem bind_ok {x : Reader β ε α} {f : α → Reader β ε γ} {s rest : List β} {a : α}
    (h : x.run s = (.ok a, rest)) : (x >>= f).run s = (f a).run rest := by
  rw [bind_run, h]

theorem bind_error {x : Reader β ε α} {f : α → Reader β ε γ} {s rest : List β} {e : ε}
    (h : x.run s = (.error e, rest)) : (x >>= f).run s = (.error e, rest) := by
  rw [bind_run, h]

theorem readExact_of_le {n : Nat} {s : List β} (eof : List β → ε) (h : n ≤ s.length) :
    (readExact n eof).run s = (.ok (s.take n), s.drop n) := if_pos h

theorem readExact_short {n : Nat} {s : List β} (eof : List β → ε) (h : s.length < n) :
    (readExact n eof).run s = (.error (eof s), []) := if_neg (Nat.not_le.mpr h)

theorem readExact_append {n : Nat} {bs : List β} (eof : List β → ε) (rest : List β)
    (h : bs.length = n) : (readExact n eof).run (bs ++ rest) = (.ok bs, rest) := by
  subst h
  rw [readExact_of_le eof (by simp), List.take_left, List.drop_left]

/-! ## In order -/

/-- The readers one after the other, results in order; the first error stops. -/
def inOrder : List (Reader β ε α) → Reader β ε (List α)
  | [] => pure []
  | r :: rs => do
      let a ← r
      let as ← inOrder rs
      pure (a :: as)

/-- `r` answers `a` to the block `b` and consumes exactly that block, whatever follows. -/
def Takes (r : Reader β ε α) (b : List β) (a : α) : Prop :=
  ∀ rest, r.run (b ++ rest) = (.ok a, rest)

/-- **Framing.**  One reader a block: the concatenation is read block by block
and the tail is left alone.  Induction on the blocks. -/
theorem inOrder_append {r : Reader β ε α} {bs : List (List β)} {as : List α}
    (h : List.Forall₂ (Takes r) bs as) (tail : List β) :
    (inOrder (List.replicate as.length r)).run (bs.flatten ++ tail) = (.ok as, tail) := by
  induction h with
  | nil => rfl
  | @cons b a bs as hb _ ih =>
      have hhead : r.run ((b :: bs).flatten ++ tail) = (.ok a, bs.flatten ++ tail) := by
        rw [List.flatten_cons, List.append_assoc]
        exact hb _
      rw [List.length_cons, List.replicate_succ, inOrder, bind_ok hhead, bind_ok ih]
      rfl

end Reader

/-- An output that takes items until `room` runs out. -/
structure Sink (β : Type) where
  written : List β
  room : Option Nat
  deriving DecidableEq

/-- Write a block: whether all of it was taken, and the output then. -/
def Sink.push {β : Type} (w : Sink β) (b : List β) : Bool × Sink β :=
  match w.room with
  | none => (true, { w with written := w.written ++ b })
  | some k =>
      if b.length ≤ k then (true, { written := w.written ++ b, room := some (k - b.length) })
      else (false, { written := w.written ++ b.take k, room := some 0 })

theorem Sink.push_true {β : Type} {w w' : Sink β} {b : List β} (h : w.push b = (true, w')) :
    w'.written = w.written ++ b := by
  rw [Sink.push] at h
  split at h
  · rw [← (Prod.mk.inj h).2]
  · split at h
    · rw [← (Prod.mk.inj h).2]
    · cases h
