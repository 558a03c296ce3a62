import Mathlib.Data.Rat.Cast.Order
import OrePool.LedgerReplay
import OrePool.Lemmas.Split

/-!
# The reward is conserved

The reward of a round is split by hashpower, each miner's part rounded down twice.  `Conserved` says
what may be expected of that: the amounts are what the formula says over the integers, they add up
to no more than the reward, little of it is left over, and more hashpower does not earn less.

It holds of every message whose total is the sum of its hashpowers and whose reward is not negative
(`rewardSplit`).
-/

namespace OrePool

open Shares

/-! ## The property -/

/-- **Conservation.**  `rows` split the reward of the message. -/
structure Conserved (msg : MessageInternalMineSuccess) (rows : List MinerRows) : Prop where
  exact : ∀ entry ∈ msg.contributions.entries,
    Exact entry.2.hashpower msg.totalHashpower msg.rewards
  booked : ∀ r ∈ rows, r.earning.amount = r.reward.balance
  within : 0 ≤ (splitAmounts rows).sum ∧ (splitAmounts rows).sum ≤ msg.rewards.toInt
  dust : (msg.rewards.toInt : ℚ) - (splitAmounts rows).sum <
    msg.contributions.entries.length * ((msg.rewards.toInt : ℚ) / 1000000 + 1)
  mono : ∀ (i j : ℕ) entry entry' r r', msg.contributions.entries[i]? = some entry →
    msg.contributions.entries[j]? = some entry' → rows[i]? = some r → rows[j]? = some r' →
    entry.2.hashpower ≤ entry'.2.hashpower → r.reward.balance ≤ r'.reward.balance

/-! ## The split -/

/-- The amounts add up to the shares. -/
lemma sum_amounts {rows : List MinerRows} {total amount : ℕ} {contributions : Contributions}
    (h : splitAmounts rows = (hashpowers contributions).map fun hashpower =>
      (share 1000000 total amount hashpower : ℤ)) :
    (splitAmounts rows).sum =
      (((hashpowers contributions).map (share 1000000 total amount)).sum : ℕ) := by
  rw [h, Nat.cast_list_sum, List.map_map]
  rfl

/-- The amount in a row is the share of the contribution in the same place. -/
lemma balance_of_amounts {rows : List MinerRows} {total amount : ℕ} {contributions : Contributions}
    (h : splitAmounts rows = (hashpowers contributions).map fun hashpower =>
      (share 1000000 total amount hashpower : ℤ))
    {i : ℕ} {entry : Sigma fun _ : Pubkey => InternalMessageContribution} {r : MinerRows}
    (hentry : contributions.entries[i]? = some entry) (hr : rows[i]? = some r) :
    r.reward.balance.toInt = share 1000000 total amount entry.2.hashpower.toNat := by
  have hi := congrArg (·[i]?) h
  simpa [splitAmounts, hashpowers, hentry, hr] using hi

/-- **Conservation.**  A message that lists some contributions, each with a hashpower the server
assigns, with their sum for its total and a reward that is not negative, splits the reward. -/
theorem rewardSplit {msg : MessageInternalMineSuccess} (poolId : Int32)
    (hne : msg.contributions.entries ≠ [])
    (hhash : ∀ entry ∈ msg.contributions.entries,
      1 ≤ entry.2.hashpower ∧ entry.2.hashpower ≤ 655360)
    (htotal : msg.totalHashpower = totalHashpower msg.contributions)
    (hsum : (totalHashpower msg.contributions).toNat = (hashpowers msg.contributions).sum)
    (hrewards : 0 ≤ msg.rewards) :
    ∃ rows, msg.rows poolId = some rows ∧ Conserved msg rows := by
  have hT : (hashpowers msg.contributions).sum = msg.totalHashpower.toNat := by rw [htotal, hsum]
  have hR : 0 ≤ msg.rewards.toInt := Int64.le_iff_toInt_le.mp hrewards
  have hpos : 0 < msg.totalHashpower.toNat :=
    hT ▸ sum_hashpowers_pos hne fun entry hentry => (hhash entry hentry).1
  have hexact : ∀ entry ∈ msg.contributions.entries,
      Exact entry.2.hashpower msg.totalHashpower msg.rewards := msg.exact hT.symm hpos.ne' hR
  obtain ⟨rows, hrows, hbooked, hamounts⟩ :=
    MessageInternalMineSuccess.rows_of_exact poolId hexact
  have hwide : ((asU128 msg.rewards : ℕ) : ℤ) = msg.rewards.toInt := by
    rw [asU128_of_nonneg hR, Int.toNat_of_nonneg hR]
  have hwide' : ((asU128 msg.rewards : ℕ) : ℚ) = msg.rewards.toInt := by
    rw [← hwide, Int.cast_natCast]
  refine ⟨rows, hrows, hexact, hbooked, ?_, ?_, ?_⟩
  · rw [sum_amounts hamounts, ← hwide]
    exact ⟨Int.natCast_nonneg _, Int.ofNat_le.mpr (sum_share_le hT.le)⟩
  · rw [sum_amounts hamounts, ← hwide', Int.cast_natCast]
    have hlen : (hashpowers msg.contributions).length = msg.contributions.entries.length :=
      List.length_map ..
    have hne' : hashpowers msg.contributions ≠ [] := List.map_eq_nil_iff.not.mpr hne
    rw [← hlen]
    exact lt_sum_share (by decide) hne' hT hpos
  · intro i j entry entry' r r' hentry hentry' hr hr' hle
    rw [Int64.le_iff_toInt_le, balance_of_amounts hamounts hentry hr,
      balance_of_amounts hamounts hentry' hr']
    exact Int.ofNat_le.mpr (share_mono (UInt64.le_iff_toNat_le.mp hle))

/-! ## Examples -/

/-- The reward of two contributions is conserved. -/
theorem rewardSplit_twoShares :
    ∃ rows, Replay.twoShares.rows 1 = some rows ∧ Conserved Replay.twoShares rows :=
  rewardSplit 1 (by decide +kernel) (by decide +kernel) (by decide +kernel) (by decide +kernel)
    (by decide +kernel)

/-- Its amounts. -/
example : (Replay.twoShares.rows 1).map splitAmounts = some [33, 66] := by decide +kernel

end OrePool
