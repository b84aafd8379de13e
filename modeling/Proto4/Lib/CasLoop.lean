/-
# `CasLoop` — a shared cell updated by compare-and-swap

Any number of callers apply `next` to one cell, each in a loop: load the cell,
compute, and swap if the cell still holds the value loaded; otherwise start
over.  Loads and swaps of different callers interleave as they like.

A swap succeeds only at the value it expects, so what it replaces is what the
cell holds at that moment — however stale the load, and whether or not the cell
has changed and come back since.  So the values replaced, in the order of the
successful swaps, are the iterates of `next` (`obtained_of_reaches`).
-/
import Mathlib.Logic.Function.Basic
import Mathlib.Logic.Function.Iterate
import Proto4.Lib.Lts

namespace CasLoop

open Lts

variable {σ ι : Type} [DecidableEq σ] [DecidableEq ι]

/-- The cell, and what each caller has loaded and not yet tried to swap. -/
structure State (σ ι : Type) where
  cell : σ
  loaded : ι → Option σ

inductive Act (ι : Type)
  | load (i : ι)
  | swap (i : ι)

/-- A successful swap: who made it, and the value it replaced. -/
structure Swapped (σ ι : Type) where
  caller : ι
  value : σ

def step (next : σ → σ) (s : State σ ι) : Act ι → Option (State σ ι)
  | .load i =>
      match s.loaded i with
      | some _ => none
      | none => some { s with loaded := Function.update s.loaded i (some s.cell) }
  | .swap i =>
      match s.loaded i with
      | none => none
      | some v => some {
          cell := if s.cell = v then next v else s.cell
          loaded := Function.update s.loaded i none }

def emit (s : State σ ι) : Act ι → List (Swapped σ ι)
  | .load _ => []
  | .swap i =>
      match s.loaded i with
      | none => []
      | some v => if s.cell = v then [⟨i, v⟩] else []

/-- The cell with the successful swaps so far. -/
abbrev History (σ ι : Type) := Logged (State σ ι) (Swapped σ ι)

abbrev run (next : σ → σ) : History σ ι → Act ι → Option (History σ ι) :=
  Logged.step (step next) emit

/-- Nobody is in the loop. -/
def init (x : σ) : History σ ι := ⟨⟨x, fun _ => none⟩, []⟩

/-- The values obtained, in the order of the swaps. -/
def obtained (c : History σ ι) : List σ := (c.log.map Swapped.value).reverse

/-- **A step** leaves the cell alone, or replaces what is in it. -/
theorem run_cases {next : σ → σ} {c c' : History σ ι} {a : Act ι} (h : run next c a = some c') :
    (c'.log = c.log ∧ c'.state.cell = c.state.cell) ∨
      ∃ i, c'.log = ⟨i, c.state.cell⟩ :: c.log ∧ c'.state.cell = next c.state.cell := by
  obtain ⟨hstep, hlog⟩ := logged_step h
  cases a with
  | load i =>
      rw [step] at hstep
      split at hstep
      · cases hstep
      · rw [← Option.some.inj hstep]
        exact Or.inl ⟨hlog, rfl⟩
  | swap i =>
      rw [step] at hstep
      rw [emit] at hlog
      split at hstep
      · cases hstep
      · next v hv =>
          rw [hv] at hlog
          rw [← Option.some.inj hstep]
          dsimp only at hlog ⊢
          split at hlog
          · next heq =>
              rw [if_pos heq]
              exact Or.inr ⟨i, heq ▸ hlog, heq ▸ rfl⟩
          · next hne =>
              rw [if_neg hne]
              exact Or.inl ⟨hlog, rfl⟩

/-- **The values obtained are the iterates**, whatever the interleaving. -/
theorem obtained_of_reaches {next : σ → σ} {x : σ} {c : History σ ι}
    (h : Reaches (run next) (init x) c) :
    obtained c = (List.range c.log.length).map fun k => next^[k] x := by
  have hinv : c.state.cell = next^[c.log.length] x ∧
      obtained c = (List.range c.log.length).map fun k => next^[k] x := by
    refine h.invariant (J := fun c => c.state.cell = next^[c.log.length] x ∧
      obtained c = (List.range c.log.length).map fun k => next^[k] x) ⟨rfl, rfl⟩ ?_
    rintro c a c' ⟨hcell, hobtained⟩ hstep
    rcases run_cases hstep with ⟨hlog, hsame⟩ | ⟨i, hlog, hnext⟩
    · rw [obtained, hlog, hsame]
      exact ⟨hcell, hobtained⟩
    · rw [obtained, hlog, hnext, hcell, List.length_cons, List.map_cons, List.reverse_cons,
        List.range_succ, List.map_append]
      exact ⟨(Function.iterate_succ_apply' next _ x).symm, congrArg (· ++ _) hobtained⟩
  exact hinv.2

end CasLoop
