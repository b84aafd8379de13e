/-
# `Aead` — authenticated encryption with associated data, symbolically

`encrypt` and `decrypt` are parameters.  Three things may be asked of them and
each is a predicate, so that a development says which it uses:

* `Correct` — under the same key, nonce and associated data, decrypting returns
  what was encrypted;
* `Overhead` — a ciphertext over bytes is longer than its message by a constant;
* `Unforgeable` — under key `k`, decrypting succeeds only on the nonce,
  associated data and ciphertext of an encryption that was really made, and
  then answers the message of that encryption.  The encryptions that were made
  are a relation `made`, supplied by whoever knows who holds the key.

`ideal` is the functionality these predicates describe: it decrypts exactly
what a log says was encrypted.  It is what makes the predicates jointly
satisfiable.
-/
import Mathlib.Data.List.Basic

/-- Encryption and decryption under a key `K`, a nonce `N` and associated data `A`. -/
structure Aead (K N A M C : Type) where
  encrypt : K → N → A → M → Option C
  decrypt : K → N → A → C → Option M

namespace Aead

variable {K N A M C : Type}

/-- Decrypting undoes encrypting. -/
def Correct (ae : Aead K N A M C) (k : K) : Prop :=
  ∀ n a m c, ae.encrypt k n a m = some c → ae.decrypt k n a c = some m

/-- Every ciphertext is `t` items longer than its message. -/
def Overhead {β : Type} (ae : Aead K N A (List β) (List β)) (k : K) (t : Nat) : Prop :=
  ∀ n a m c, ae.encrypt k n a m = some c → c.length = m.length + t

/-- Unforgeability relative to the encryptions `made` under `k`. -/
def Unforgeable (ae : Aead K N A M C) (k : K) (made : N → A → M → Prop) : Prop :=
  ∀ n a c m, ae.decrypt k n a c = some m → made n a m ∧ ae.encrypt k n a m = some c

section Ideal
variable [DecidableEq N] [DecidableEq A] [DecidableEq C]

/-- The ideal functionality over an encryption function: decrypting looks the
ciphertext up among the encryptions of a log. -/
def ideal (enc : N → A → M → C) (log : List (N × A × M)) : Aead K N A M C where
  encrypt _ n a m := some (enc n a m)
  decrypt _ n a c :=
    (log.find? fun e => e.1 = n ∧ e.2.1 = a ∧ enc n a e.2.2 = c).map (·.2.2)

theorem ideal_unforgeable (enc : N → A → M → C) (log : List (N × A × M)) (k : K) :
    (ideal enc log : Aead K N A M C).Unforgeable k (fun n a m => (n, a, m) ∈ log) := by
  intro n a c m h
  obtain ⟨⟨n', a', m'⟩, hfind, hm⟩ := Option.map_eq_some_iff.mp h
  have hin := List.mem_of_find?_eq_some hfind
  have hkey := List.find?_some hfind
  simp only [decide_eq_true_eq] at hkey
  obtain ⟨rfl, rfl, hc⟩ := hkey
  obtain rfl : m' = m := hm
  exact ⟨hin, congrArg some hc⟩

end Ideal

end Aead
