/-
# `Proto4.TxIds` — transaction ids

Three clients number their requests: `prom_proxy` and `dfinder` in Rust, which
count in a field of their own, and `promproxy` in Go, which counts in an atomic
that any number of goroutines share.  All three start at one and step over zero,
the Rust ones with `max` and the Go one with a test.

`txSeq` is the sequence they follow, `TxIds` what it means for the ids obtained
so far, and `txIds_unique` says it of all three, for every number of calls and
every interleaving.
-/
import Proto4.Dfinder.Client
import Proto4.Lib.CasLoop
import Proto4.PromProxy.SecretKey

namespace Proto4

open Lts

namespace PromProxy

/-- The fields of `promproxy.Config` the ids and the key come from. -/
structure Config where
  addr : String
  secretKey : TinyFrame.Key
  messageType : UInt8

def Config.msgType (cfg : Config) : UInt8 :=
  if cfg.messageType = 0 then msgRemoteWrite else cfg.messageType

/-- `New`. -/
def GoClient.new (cfg : Config) : GoTinyframe.Result GoClient :=
  if goTrimSpace cfg.addr = "" then GoTinyframe.err "promproxy: Addr is required"
  else if cfg.msgType > 31 then
    GoTinyframe.err s!"promproxy: MessageType {cfg.msgType} out of range (0-31)"
  else .ok ⟨cfg.addr, cfg.secretKey, cfg.msgType, 1⟩

/-- The id after `id`, between the load and the swap of `nextTxID`. -/
def goAdvance (id : UInt64) : UInt64 :=
  let next := id + 1
  if next = 0 then 1 else next

/-- A new client counts from one. -/
theorem nextTx_of_new {cfg : Config} {c : GoClient} (h : GoClient.new cfg = .ok c) :
    c.nextTx = 1 := by
  rw [GoClient.new] at h
  split at h
  · cases h
  · split at h
    · cases h
    · rw [← Except.ok.inj h]

/-- Alone, a load and a swap are `nextTxID`. -/
theorem nextTxID_uncontended {ι : Type} [DecidableEq ι] (c : GoClient) (i : ι)
    (log : List (CasLoop.Swapped UInt64 ι)) :
    exec (CasLoop.run goAdvance) ⟨⟨c.nextTx, fun _ => none⟩, log⟩ [.load i, .swap i]
      = some ⟨⟨c.nextTxID.2.nextTx, fun _ => none⟩, ⟨i, c.nextTxID.1⟩ :: log⟩ := by
  have hback : Function.update (Function.update (fun _ : ι => none) i (some c.nextTx)) i none
      = fun _ => none := by
    rw [Function.update_idem, Function.update_eq_self]
  simp [exec, CasLoop.run, Logged.step, CasLoop.step, CasLoop.emit, GoClient.nextTxID, goAdvance,
    hback]

end PromProxy

/-! ## The sequence -/

/-- `1, 2, ..., 2 ^ 64 - 1, 1, ...`. -/
def txSeq (n : Nat) : UInt64 := UInt64.ofNat (n % (2 ^ 64 - 1) + 1)

theorem toNat_txSeq (n : Nat) : (txSeq n).toNat = n % (2 ^ 64 - 1) + 1 :=
  UInt64.toNat_ofNat_of_lt' (show n % (2 ^ 64 - 1) + 1 < 2 ^ 64 by omega)

theorem txSeq_ne_zero (n : Nat) : txSeq n ≠ 0 := by
  intro h
  have htoNat := toNat_txSeq n
  rw [h] at htoNat
  exact absurd htoNat (by simp)

/-- Within a period every id is new. -/
theorem txSeq_ne {i j : Nat} (hlt : i < j) (hnear : j < i + (2 ^ 64 - 1)) :
    txSeq i ≠ txSeq j := by
  intro h
  have hi := toNat_txSeq i
  have hj := toNat_txSeq j
  rw [h] at hi
  omega

theorem goAdvance_txSeq (n : Nat) : PromProxy.goAdvance (txSeq n) = txSeq (n + 1) := by
  have hn := toNat_txSeq n
  have hnext := toNat_txSeq (n + 1)
  have hadd : (txSeq n + 1).toNat = (n % (2 ^ 64 - 1) + 1 + 1) % 2 ^ 64 := by
    rw [UInt64.toNat_add, hn]
    rfl
  rw [PromProxy.goAdvance]
  split
  · next hzero =>
      rw [hzero] at hadd
      have hwrap : 0 = (n % (2 ^ 64 - 1) + 1 + 1) % 2 ^ 64 := hadd
      refine UInt64.toNat.inj ?_
      rw [hnext]
      show 1 = (n + 1) % (2 ^ 64 - 1) + 1
      omega
  · next hne =>
      have hpos : (txSeq n + 1).toNat ≠ 0 := fun h => hne (UInt64.toNat.inj h)
      refine UInt64.toNat.inj ?_
      rw [hadd, hnext]
      omega

/-- Go's test and Rust's `max` are the same step. -/
theorem goAdvance_eq_max (id : UInt64) : PromProxy.goAdvance id = max (id + 1) 1 := by
  rw [PromProxy.goAdvance]
  split
  · next hzero =>
      rw [hzero]
      rfl
  · next hne =>
      have hpos : (id + 1).toNat ≠ 0 := fun h => hne (UInt64.toNat.inj h)
      show id + 1 = if id + 1 ≤ 1 then 1 else id + 1
      split
      · next hle =>
          refine UInt64.toNat.inj (Nat.le_antisymm (UInt64.le_iff_toNat_le.mp hle) ?_)
          exact Nat.pos_of_ne_zero hpos
      · rfl

theorem iterate_goAdvance (n : Nat) : PromProxy.goAdvance^[n] 1 = txSeq n := by
  induction n with
  | zero => rfl
  | succ n ih => rw [Function.iterate_succ_apply', ih, goAdvance_txSeq]

/-! ## What the clients obtain -/

/-- The ids of `n` calls. -/
def txIds {C : Type} (nextTxId : C → UInt64 × C) : Nat → C → List UInt64
  | 0, _ => []
  | n + 1, c => (nextTxId c).1 :: txIds nextTxId n (nextTxId c).2

/-- A client that counts in a field of its own follows the sequence from where
the field stands. -/
theorem txIds_eq {C : Type} {nextTxId : C → UInt64 × C} {nextTx : C → UInt64}
    (hid : ∀ c, (nextTxId c).1 = nextTx c)
    (hnext : ∀ c, nextTx (nextTxId c).2 = PromProxy.goAdvance (nextTx c)) (n : Nat) :
    ∀ {k : Nat} {c : C}, nextTx c = txSeq k →
      txIds nextTxId n c = (List.range n).map fun i => txSeq (k + i) := by
  induction n with
  | zero =>
      intro k c _
      rfl
  | succ n ih =>
      intro k c hc
      have hc' : nextTx (nextTxId c).2 = txSeq (k + 1) := by
        rw [hnext, hc, goAdvance_txSeq]
      rw [txIds, hid, hc, ih hc', List.range_succ_eq_map, List.map_cons, List.map_map]
      refine congrArg _ (List.map_congr_left fun i _ => congrArg txSeq ?_)
      rw [Nat.add_assoc, Nat.add_comm 1 i]

/-- Ids in the order they were obtained: they follow the sequence, none is zero,
and none comes back before all others were used. -/
structure TxIds (ids : List UInt64) : Prop where
  sequence : ids = (List.range ids.length).map txSeq
  nonzero : ∀ id ∈ ids, id ≠ 0
  unique : ∀ i j, i < j → j < i + (2 ^ 64 - 1) → j < ids.length → ids[i]? ≠ ids[j]?

theorem TxIds.of_sequence {ids : List UInt64} {n : Nat} (h : ids = (List.range n).map txSeq) :
    TxIds ids := by
  have hlen : ids.length = n := by
    rw [h, List.length_map, List.length_range]
  have hget : ∀ i, i < n → ids[i]? = some (txSeq i) := by
    intro i hi
    rw [h, List.getElem?_map, List.getElem?_range hi]
    rfl
  refine ⟨hlen ▸ h, ?_, ?_⟩
  · intro id hid
    rw [h] at hid
    obtain ⟨i, _, rfl⟩ := List.mem_map.mp hid
    exact txSeq_ne_zero i
  · intro i j hlt hnear hj heq
    rw [hlen] at hj
    rw [hget i (Nat.lt_trans hlt hj), hget j hj] at heq
    exact txSeq_ne hlt hnear (Option.some.inj heq)

/-- A Rust client that starts at one. -/
theorem txIds_of_new {C : Type} {nextTxId : C → UInt64 × C} {nextTx : C → UInt64}
    (hid : ∀ c, (nextTxId c).1 = nextTx c)
    (hnext : ∀ c, nextTx (nextTxId c).2 = max (nextTx c + 1) 1) (n : Nat) {c : C}
    (hc : nextTx c = 1) : TxIds (txIds nextTxId n c) := by
  have hseq := txIds_eq hid (fun c => (hnext c).trans (goAdvance_eq_max _).symm) n
    (show nextTx c = txSeq 0 from hc)
  simp only [Nat.zero_add] at hseq
  exact .of_sequence hseq

/-- **Transaction ids are never zero and never reused within a period**: of the
Rust clients for every number of calls, of a Go client for every interleaving of
its callers. -/
theorem txIds_unique {E : Type} (healthCheck : Dfinder.NodeInfo E → Bool) (messageType : UInt8)
    (n : Nat) (cfg : PromProxy.Config) (c : PromProxy.GoClient)
    (hnew : PromProxy.GoClient.new cfg = .ok c) {ι : Type} [DecidableEq ι]
    (s : CasLoop.History UInt64 ι)
    (hrun : Reaches (CasLoop.run PromProxy.goAdvance) (CasLoop.init c.nextTx) s) :
    TxIds (txIds PromProxy.Client.nextTxId n .new) ∧
      TxIds (txIds PromProxy.Client.nextTxId n (PromProxy.Client.new.withMessageType messageType)) ∧
      TxIds (txIds Dfinder.Client.nextTxId n (Dfinder.Client.new healthCheck)) ∧
      TxIds (CasLoop.obtained s) := by
  have hprom : ∀ c : PromProxy.Client, c.nextTx = 1 →
      TxIds (txIds PromProxy.Client.nextTxId n c) := fun c hc =>
    @txIds_of_new _ _ PromProxy.Client.nextTx (fun _ => rfl) (fun _ => rfl) n c hc
  have hdfinder : ∀ c : Dfinder.Client E, c.nextTx = 1 →
      TxIds (txIds Dfinder.Client.nextTxId n c) := fun c hc =>
    @txIds_of_new _ _ Dfinder.Client.nextTx (fun _ => rfl) (fun _ => rfl) n c hc
  refine ⟨hprom _ rfl, hprom _ rfl, hdfinder _ rfl, ?_⟩
  have hobtained := CasLoop.obtained_of_reaches hrun
  rw [PromProxy.nextTx_of_new hnew] at hobtained
  simp only [iterate_goAdvance] at hobtained
  exact .of_sequence hobtained

/-- Two goroutines load the same id; the second has to load again. -/
theorem txIds_unique_race :
    ∃ s : CasLoop.History UInt64 Bool, CasLoop.obtained s = [1, 2] ∧
      TxIds (txIds PromProxy.Client.nextTxId 3 .new) ∧
      TxIds (txIds PromProxy.Client.nextTxId 3 (PromProxy.Client.new.withMessageType 10)) ∧
      TxIds (txIds Dfinder.Client.nextTxId 3 (Dfinder.Client.new fun _ : Dfinder.NodeInfo Unit =>
        true)) ∧
      TxIds (CasLoop.obtained s) := by
  have hnew : PromProxy.GoClient.new ⟨"127.0.0.1:9100", TinyFrame.testKey, 0⟩
      = .ok ⟨"127.0.0.1:9100", TinyFrame.testKey, 10, 1⟩ := by
    rw [PromProxy.GoClient.new, if_neg (by decide +kernel), if_neg (by decide)]
    rfl
  have h₁ : Reaches (CasLoop.run PromProxy.goAdvance) (CasLoop.init (1 : UInt64)) _ :=
    .tail (a := CasLoop.Act.load false) .refl rfl
  have h₂ := Reaches.tail (a := CasLoop.Act.load true) h₁ rfl
  have h₃ := Reaches.tail (a := CasLoop.Act.swap false) h₂ rfl
  have h₄ := Reaches.tail (a := CasLoop.Act.swap true) h₃ rfl
  have h₅ := Reaches.tail (a := CasLoop.Act.load true) h₄ rfl
  have h₆ := Reaches.tail (a := CasLoop.Act.swap true) h₅ rfl
  exact ⟨_, rfl, txIds_unique (fun _ => true) 10 3 _ _ hnew _ h₆⟩

end Proto4
