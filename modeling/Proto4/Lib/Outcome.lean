/-
# `Outcome` — results that may be errors

`bind_ok_iff` opens a sequence of fallible steps that succeeded.  `Agrees`
compares two results up to the error: two functions that fail in different
words, or in different error types, may still be the same function, and
agreement respects sequencing and branching, so two programs written to one
plan are compared statement by statement.
-/
import Mathlib.Data.List.Forall2

namespace Outcome

variable {ε δ α γ : Type}

/-- Both halves of a sequence succeeded. -/
theorem bind_ok_iff {x : Except ε α} {f : α → Except ε γ} {c : γ} :
    (x >>= f) = .ok c ↔ ∃ a, x = .ok a ∧ f a = .ok c := by
  cases x with
  | error e =>
      constructor
      · intro h
        cases h
      · rintro ⟨_, h, _⟩
        cases h
  | ok a =>
      constructor
      · intro h
        exact ⟨a, rfl, h⟩
      · rintro ⟨b, hb, h⟩
        obtain rfl : a = b := Except.ok.inj hb
        exact h

/-- A sequence failed in its first half or in its second. -/
theorem bind_error_iff {x : Except ε α} {f : α → Except ε γ} {e : ε} :
    (x >>= f) = .error e ↔ x = .error e ∨ ∃ a, x = .ok a ∧ f a = .error e := by
  cases x with
  | error e' =>
      constructor
      · intro h
        obtain rfl : e' = e := Except.error.inj h
        exact Or.inl rfl
      · rintro (h | ⟨_, h, _⟩)
        · obtain rfl : e' = e := Except.error.inj h
          rfl
        · cases h
  | ok a =>
      constructor
      · intro h
        exact Or.inr ⟨a, rfl, h⟩
      · rintro (h | ⟨b, hb, h⟩)
        · cases h
        · obtain rfl : a = b := Except.ok.inj hb
          exact h

/-- A list of fallible steps succeeded: each did, in order. -/
theorem mapM_ok_iff {f : α → Except ε γ} {as : List α} {cs : List γ} :
    as.mapM f = .ok cs ↔ List.Forall₂ (fun a c => f a = .ok c) as cs := by
  induction as generalizing cs with
  | nil =>
      constructor
      · intro h
        obtain rfl : [] = cs := Except.ok.inj h
        exact .nil
      · intro h
        cases h
        rfl
  | cons a as ih =>
      rw [List.mapM_cons]
      simp only [bind_ok_iff, ih]
      constructor
      · rintro ⟨c, hc, cs', hcs, h⟩
        obtain rfl : c :: cs' = cs := Except.ok.inj h
        exact .cons hc hcs
      · intro h
        cases h with
        | cons hc hcs => exact ⟨_, hc, _, hcs, rfl⟩

/-- What a list of fallible steps answered is what each of them answered. -/
theorem mem_of_mapM_ok {f : α → Except ε γ} {as : List α} {cs : List γ}
    (h : as.mapM f = .ok cs) {c : γ} : c ∈ cs ↔ ∃ a ∈ as, f a = .ok c := by
  have hall := mapM_ok_iff.mp h
  clear h
  induction hall with
  | nil => simp
  | @cons a c' as cs hc _ ih =>
      constructor
      · intro hmem
        rcases List.mem_cons.mp hmem with rfl | hmem
        · exact ⟨a, List.mem_cons_self, hc⟩
        · obtain ⟨b, hb, hbc⟩ := ih.mp hmem
          exact ⟨b, List.mem_cons_of_mem _ hb, hbc⟩
      · rintro ⟨b, hb, hbc⟩
        rcases List.mem_cons.mp hb with rfl | hb
        · obtain rfl : c' = c := Except.ok.inj (hc.symm.trans hbc)
          exact List.mem_cons_self
        · exact List.mem_cons_of_mem _ (ih.mpr ⟨b, hb, hbc⟩)

/-- Steps that succeed one by one succeed as a list. -/
theorem mapM_ok_of_forall {f : α → Except ε γ} {as : List α}
    (h : ∀ a ∈ as, ∃ c, f a = .ok c) : ∃ cs, as.mapM f = .ok cs := by
  induction as with
  | nil => exact ⟨[], rfl⟩
  | cons a as ih =>
      obtain ⟨c, hc⟩ := h a List.mem_cons_self
      obtain ⟨cs, hcs⟩ := ih fun b hb => h b (List.mem_cons_of_mem _ hb)
      exact ⟨c :: cs, mapM_ok_iff.mpr (.cons hc (mapM_ok_iff.mp hcs))⟩

/-- Steps that each either fail or answer what `g` says. -/
theorem mapM_ok_iff_map {f : α → Except ε γ} {g : α → γ} {P : α → Prop}
    (h : ∀ a c, f a = .ok c ↔ P a ∧ c = g a) {as : List α} {cs : List γ} :
    as.mapM f = .ok cs ↔ (∀ a ∈ as, P a) ∧ cs = as.map g := by
  rw [mapM_ok_iff]
  constructor
  · intro hall
    induction hall with
    | nil => exact ⟨fun a ha => (by cases ha), rfl⟩
    | cons hc _ ih =>
        obtain ⟨hP, rfl⟩ := (h _ _).mp hc
        exact ⟨List.forall_mem_cons.mpr ⟨hP, ih.1⟩, congrArg _ ih.2⟩
  · rintro ⟨hP, rfl⟩
    refine List.forall₂_map_right_iff.mpr (List.forall₂_same.mpr fun a ha => ?_)
    exact (h a _).mpr ⟨hP a ha, rfl⟩

theorem toOption_eq_some {x : Except ε α} {a : α} : x.toOption = some a ↔ x = .ok a := by
  cases x with
  | error e => exact iff_of_false (fun h => by cases h) fun h => by cases h
  | ok b =>
      exact Iff.intro (fun h => congrArg _ (Option.some.inj h)) fun h =>
        congrArg _ (Except.ok.inj h)

/-- The same value, or both an error. -/
def Agrees (x : Except ε α) (y : Except δ α) : Prop := x.toOption = y.toOption

theorem agrees_ok (a : α) : Agrees (.ok a : Except ε α) (.ok a : Except δ α) := rfl

theorem agrees_error (e : ε) (d : δ) :
    Agrees (.error e : Except ε α) (.error d : Except δ α) := rfl

/-- Agreement, by the two ways it can come about. -/
theorem Agrees.cases {x : Except ε α} {y : Except δ α} (h : Agrees x y) :
    (∃ a, x = .ok a ∧ y = .ok a) ∨ (∃ e d, x = .error e ∧ y = .error d) := by
  cases x with
  | ok a =>
      cases y with
      | ok b =>
          obtain rfl : a = b := Option.some.inj h
          exact Or.inl ⟨a, rfl, rfl⟩
      | error d => cases h
  | error e =>
      cases y with
      | ok b => cases h
      | error d => exact Or.inr ⟨e, d, rfl, rfl⟩

/-- Agreement, value by value. -/
theorem agrees_iff {x : Except ε α} {y : Except δ α} :
    Agrees x y ↔ ∀ a, x = .ok a ↔ y = .ok a := by
  cases x with
  | ok a =>
      constructor
      · rintro h b
        rcases h.cases with ⟨c, hc, rfl⟩ | ⟨e, d, hc, _⟩
        · rw [hc]
          simp
        · cases hc
      · intro h
        rw [(h a).mp rfl]
        exact agrees_ok a
  | error e =>
      cases y with
      | ok b =>
          refine iff_of_false (fun h => by cases h) ?_
          intro h
          cases (h b).mpr rfl
      | error d => exact iff_of_true (agrees_error e d) fun a => ⟨nofun, nofun⟩

theorem Agrees.ok_iff {x : Except ε α} {y : Except δ α} (h : Agrees x y) (a : α) :
    x = .ok a ↔ y = .ok a := by
  rcases h.cases with ⟨b, rfl, rfl⟩ | ⟨e, d, rfl, rfl⟩
  · simp
  · simp

theorem Agrees.bind {x : Except ε α} {y : Except δ α} {f : α → Except ε γ} {g : α → Except δ γ}
    (h : Agrees x y) (hfg : ∀ a, Agrees (f a) (g a)) : Agrees (x >>= f) (y >>= g) := by
  rcases h.cases with ⟨a, rfl, rfl⟩ | ⟨e, d, rfl, rfl⟩
  · exact hfg a
  · exact agrees_error e d

theorem Agrees.ite {c : Prop} [Decidable c] {x x' : Except ε α} {y y' : Except δ α}
    (h : Agrees x y) (h' : Agrees x' y') :
    Agrees (if c then x else x') (if c then y else y') := by
  split
  · exact h
  · exact h'

end Outcome
