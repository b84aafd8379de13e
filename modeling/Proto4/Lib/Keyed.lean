/-
# `Keyed` — a table of rows with a primary key

`Table key` is a list of rows no two of which have the same key.  The key
constraint is a field, so every table built is a legal one and `lookup` is the
whole content of a table up to order.  Order is kept all the same: `upsert`
overwrites a row where it stands and appends a new one at the end, which is
the order a scan of a row-numbered table answers.
-/
import Mathlib.Data.List.Nodup

namespace Keyed

variable {ρ κ : Type} [DecidableEq κ]

/-- Rows with pairwise different keys. -/
structure Table (key : ρ → κ) where
  rows : List ρ
  nodup : (rows.map key).Nodup

variable {key : ρ → κ}

/-- The first row under a key, in a list. -/
def find (key : ρ → κ) (k : κ) (l : List ρ) : Option ρ := l.find? fun r => key r = k

/-- Overwrite the row with `r`'s key where it stands, or append `r`. -/
def put (key : ρ → κ) (r : ρ) : List ρ → List ρ
  | [] => [r]
  | x :: xs => if key x = key r then r :: xs else x :: put key r xs

theorem mem_of_find {k : κ} {l : List ρ} {r : ρ} (h : find key k l = some r) :
    r ∈ l ∧ key r = k :=
  ⟨List.mem_of_find?_eq_some h, by simpa [find] using List.find?_some h⟩

theorem find_of_mem {l : List ρ} (hn : (l.map key).Nodup) {r : ρ} (h : r ∈ l) :
    find key (key r) l = some r := by
  induction l with
  | nil => exact absurd h List.not_mem_nil
  | cons x xs ih =>
      obtain ⟨hx, hxs⟩ := List.nodup_cons.mp (show (key x :: xs.map key).Nodup from hn)
      rcases List.mem_cons.mp h with rfl | hmem
      · simp [find]
      · have hne : key x ≠ key r := fun he => hx (he ▸ List.mem_map_of_mem hmem)
        have := ih hxs hmem
        simpa [find, hne] using this

theorem find_eq_none {k : κ} {l : List ρ} : find key k l = none ↔ k ∉ l.map key := by
  simp [find, List.find?_eq_none]

theorem map_key_put (r : ρ) (l : List ρ) :
    (put key r l).map key = if key r ∈ l.map key then l.map key else l.map key ++ [key r] := by
  induction l with
  | nil => simp [put]
  | cons x xs ih =>
      rcases eq_or_ne (key x) (key r) with h | h
      · simp [put, h]
      · have hne : ¬ key r = key x := fun e => h e.symm
        simp only [put, if_neg h, List.map_cons, ih, List.mem_cons, hne, false_or]
        split <;> rfl

theorem nodup_put (r : ρ) {l : List ρ} (hn : (l.map key).Nodup) :
    ((put key r l).map key).Nodup := by
  rw [map_key_put]
  split
  · exact hn
  · next h => exact List.nodup_append_comm.mp (by simpa using ⟨by simpa using h, hn⟩)

theorem find_put (r : ρ) (k : κ) (l : List ρ) :
    find key k (put key r l) = if k = key r then some r else find key k l := by
  induction l with
  | nil =>
      rcases eq_or_ne k (key r) with h | h
      · simp [put, find, h]
      · simp [put, find, h, h.symm]
  | cons x xs ih =>
      rcases eq_or_ne (key x) (key r) with hx | hx
      · rcases eq_or_ne k (key r) with hk | hk
        · simp [put, find, hx, hk]
        · simp [put, find, hx, hk, hk.symm]
      · rcases eq_or_ne (key x) k with hxk | hxk
        · have hk : ¬ k = key r := fun e => hx (hxk.trans e)
          simp [put, find, hxk, hk]
        · simpa [put, hx, find, hxk] using ih

namespace Table

/-- No rows. -/
def empty : Table key := ⟨[], List.nodup_nil⟩

def lookup (t : Table key) (k : κ) : Option ρ := find key k t.rows

/-- Insert the row, or overwrite the one that has its key. -/
def upsert (r : ρ) (t : Table key) : Table key := ⟨put key r t.rows, nodup_put r t.nodup⟩

/-- Drop the row under a key, if there is one. -/
def erase (k : κ) (t : Table key) : Table key :=
  ⟨t.rows.filter fun r => key r ≠ k, t.nodup.sublist (List.filter_sublist.map key)⟩

theorem lookup_eq_some {t : Table key} {k : κ} {r : ρ} :
    t.lookup k = some r ↔ r ∈ t.rows ∧ key r = k := by
  constructor
  · exact mem_of_find
  · rintro ⟨h, rfl⟩
    exact find_of_mem t.nodup h

theorem lookup_isSome {t : Table key} {k : κ} : (t.lookup k).isSome ↔ k ∈ t.rows.map key := by
  rw [Option.isSome_iff_ne_none, ne_eq, lookup, find_eq_none, not_not]

theorem lookup_upsert (r : ρ) (t : Table key) (k : κ) :
    (t.upsert r).lookup k = if k = key r then some r else t.lookup k :=
  find_put r k t.rows

theorem lookup_erase (t : Table key) (k k' : κ) :
    (t.erase k').lookup k = if k = k' then none else t.lookup k := by
  have hmem : ∀ r, r ∈ (t.erase k').rows ↔ r ∈ t.rows ∧ key r ≠ k' := by
    intro r
    simp [erase]
  split
  · next h =>
      subst h
      cases hl : (t.erase k).lookup k with
      | none => rfl
      | some r =>
          obtain ⟨hr, hk⟩ := lookup_eq_some.mp hl
          exact absurd hk ((hmem r).mp hr).2
  · next h =>
      apply Option.ext
      intro r
      rw [lookup_eq_some, lookup_eq_some, hmem]
      constructor
      · rintro ⟨⟨hr, _⟩, hk⟩
        exact ⟨hr, hk⟩
      · rintro ⟨hr, hk⟩
        exact ⟨⟨hr, fun e => h (hk.symm.trans e)⟩, hk⟩

end Table

end Keyed
