import OrePool.LedgerReplay
import OrePool.Lemmas.Split

/-!
# When the balance falls

The reward of a round is the difference of two balances of the proof account, and the pool's
authority may claim from it in between.  `Faithful` says that working the reward out and splitting
it loses nothing, and that no miner gets less than nothing or more than the proof has gained.

The difference is taken in `u64` and its sign goes into a `u128`, so a balance that falls makes
miners lose what nobody has claimed from them (`not_faithful`).  The split is right exactly when the
balance does not fall, the gain fits an `i64` and the hashpowers add up in a `u64`
(`faithful_iff`).
-/

namespace OrePool

open Traversal

/-! ## The property -/

/-- **No reward out of nothing.**  What attender `a` sends for payment is computed without overflow,
and the amounts booked for it lie between nothing and what the proof has gained. -/
structure Faithful (a : Attender) (id : Int64) (latestProof : Proof)
    (contributions : Contributions) (poolId : Int32) : Prop where
  difference : ((latestProof.balance - a.oldProof.balance).toNat : ℤ) =
    latestProof.balance.toNat - a.oldProof.balance.toNat
  signed : (a.mineSuccess id latestProof contributions).rewards.toInt =
    (latestProof.balance - a.oldProof.balance).toNat
  total : (a.mineSuccess id latestProof contributions).totalHashpower.toNat =
    (hashpowers contributions).sum
  exact : ∀ entry ∈ contributions.entries, Exact entry.2.hashpower
    (a.mineSuccess id latestProof contributions).totalHashpower
    (a.mineSuccess id latestProof contributions).rewards
  between : ∀ rows, (a.mineSuccess id latestProof contributions).rows poolId = some rows →
    ∀ r ∈ rows, ∀ amount ∈ [r.earning.amount.toInt, r.reward.balance.toInt],
      0 ≤ amount ∧
        amount ≤ max 0 ((latestProof.balance.toNat : ℤ) - a.oldProof.balance.toNat)

/-- The balance has not fallen, and the sums involved fit their types. -/
structure Gains (a : Attender) (latestProof : Proof) (contributions : Contributions) : Prop where
  risen : a.oldProof.balance ≤ latestProof.balance
  gain : latestProof.balance.toNat - a.oldProof.balance.toNat < 2 ^ 63
  sum : (hashpowers contributions).sum < 2 ^ 64

/-! ## The reward -/

/-- The amounts of a message that is worked out without loss. -/
lemma MessageInternalMineSuccess.amount_le {msg : MessageInternalMineSuccess} {poolId : Int32}
    {rows : List MinerRows} (hrows : msg.rows poolId = some rows)
    (hexact : ∀ entry ∈ msg.contributions.entries,
      Exact entry.2.hashpower msg.totalHashpower msg.rewards)
    (hle : ∀ entry ∈ msg.contributions.entries,
      entry.2.hashpower.toNat ≤ msg.totalHashpower.toNat)
    {r : MinerRows} (hr : r ∈ rows) {amount : ℤ}
    (hamount : amount ∈ [r.earning.amount.toInt, r.reward.balance.toInt]) :
    0 ≤ amount ∧ amount ≤ msg.rewards.toInt := by
  obtain ⟨entry, hentry, hrow⟩ := exists_of_forall₂_right (forall₂_of_mapM hrows) hr
  obtain ⟨r', hr', hearns⟩ := msg.minerRows_of_exact poolId (hexact entry hentry)
  obtain rfl : r = r' := Option.some.inj (hrow.symm.trans hr')
  have hshare : amount = Shares.share 1000000 msg.totalHashpower.toNat (asU128 msg.rewards)
      entry.2.hashpower.toNat := by
    rcases List.mem_pair.mp hamount with rfl | rfl
    · exact hearns.1
    · exact hearns.2
  rw [hshare, ← (hexact entry hentry).widened]
  exact ⟨Int.natCast_nonneg _, Int.ofNat_le.mpr (Shares.share_le (hle entry hentry))⟩

section Split

variable {a : Attender} {id : Int64} {latestProof : Proof} {contributions : Contributions}
  {poolId : Int32}

/-- Without overflow the balance has not fallen. -/
lemma Faithful.gains (h : Faithful a id latestProof contributions poolId) :
    Gains a latestProof contributions := by
  have hlatest := latestProof.balance.toNat_lt
  have hold := a.oldProof.balance.toNat_lt
  have hdiff := h.difference
  have hsigned := h.signed ▸ (a.mineSuccess id latestProof contributions).rewards.toInt_lt
  refine ⟨?_, ?_, ?_⟩
  · rw [UInt64.le_iff_toNat_le]
    omega
  · omega
  · rw [← h.total]
    exact UInt64.toNat_lt _

/-- The reward is what the proof has gained. -/
lemma Gains.rewards (h : Gains a latestProof contributions) (id : Int64) :
    (latestProof.balance - a.oldProof.balance).toNat =
        latestProof.balance.toNat - a.oldProof.balance.toNat ∧
      (a.mineSuccess id latestProof contributions).rewards.toInt =
        (latestProof.balance - a.oldProof.balance).toNat := by
  have hdiff : (latestProof.balance - a.oldProof.balance).toNat =
      latestProof.balance.toNat - a.oldProof.balance.toNat :=
    UInt64.toNat_sub_of_le _ _ h.risen
  refine ⟨hdiff, toInt_toInt64_of_lt ?_⟩
  rw [hdiff]
  exact h.gain

/-- A gain is split as it should be. -/
lemma Gains.faithful (htotal : 0 < totalHashpower contributions)
    (h : Gains a latestProof contributions) (id : Int64) (poolId : Int32) :
    Faithful a id latestProof contributions poolId := by
  obtain ⟨hdiff, hsigned⟩ := h.rewards id
  have hrisen := UInt64.le_iff_toNat_le.mp h.risen
  have hsum : (a.mineSuccess id latestProof contributions).totalHashpower.toNat =
      (hashpowers contributions).sum := totalHashpower_eq_sum h.sum
  have hpos : (a.mineSuccess id latestProof contributions).totalHashpower.toNat ≠ 0 :=
    (UInt64.lt_iff_toNat_lt.mp htotal).ne'
  have hexact := MessageInternalMineSuccess.exact hsum hpos
    (hsigned ▸ Int.natCast_nonneg _)
  refine ⟨by omega, hsigned, hsum, hexact, ?_⟩
  intro rows hrows r hr amount hamount
  have hle : ∀ entry ∈ contributions.entries, entry.2.hashpower.toNat ≤
      (a.mineSuccess id latestProof contributions).totalHashpower.toNat := by
    intro entry hentry
    exact hsum ▸ hashpower_le_sum hentry
  obtain ⟨h0, hR⟩ := MessageInternalMineSuccess.amount_le hrows hexact hle hr hamount
  refine ⟨h0, hR.trans ?_⟩
  rw [hsigned, hdiff]
  omega

/-- **No reward out of nothing.**  For a positive `total_hashpower`, exactly when the balance has
not fallen and the sums fit. -/
theorem faithful_iff (htotal : 0 < totalHashpower contributions) :
    Faithful a id latestProof contributions poolId ↔ Gains a latestProof contributions := by
  refine ⟨?_, ?_⟩
  · intro h
    exact h.gains
  · intro h
    exact h.faithful htotal id poolId

end Split

/-! ## Examples -/

/-- The attender of a round for a proof with a balance. -/
def Replay.attenderOf (balance : UInt64) : Attender :=
  .spawn ⟨⟨0, { proofAt 1 0 with balance }, some (solution 1 10), 1⟩, solution 1 10, 10, none⟩

/-- The reward is what the balance has risen by. -/
theorem faithful_risen :
    Faithful (Replay.attenderOf 100) 1 { Replay.proofAt 2 60 with balance := 200 }
        Replay.twoShares.contributions 1 ↔
      Gains (Replay.attenderOf 100) { Replay.proofAt 2 60 with balance := 200 }
        Replay.twoShares.contributions :=
  faithful_iff (by decide +kernel)

/-- A balance that falls by one takes more than `8 * 10 ^ 18` from the only miner. -/
theorem not_faithful :
    ¬ ∀ (a : Attender) id latestProof contributions poolId,
      0 < totalHashpower contributions → Faithful a id latestProof contributions poolId := by
  intro h
  have hpaid : (((Replay.attenderOf 1).mineSuccess 1 { Replay.proofAt 2 60 with balance := 0 }
      (Replay.mineSuccess 1 0).contributions).rows 1).any fun rows =>
        rows.any fun r => decide (r.reward.balance.toInt = -8271224894746183592) := by
    decide +kernel
  obtain ⟨rows, hrows, hany⟩ := Option.any_eq_true _ _ |>.mp hpaid
  obtain ⟨r, hr, hbalance⟩ := List.any_eq_true.mp hany
  obtain ⟨h0, -⟩ := (h _ _ _ _ _ (by decide +kernel)).between rows hrows r hr
    r.reward.balance.toInt (by simp)
  rw [of_decide_eq_true hbalance] at h0
  exact absurd h0 (by decide)

end OrePool
