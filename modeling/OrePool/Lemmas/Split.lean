import OrePool.Core.Shares
import OrePool.Core.Traversal
import OrePool.Processors.Attender
import OrePool.Processors.PoolMineSuccess

/-!
# The split of a reward

`earned_rewards` is a share in the sense of `OrePool.Core.Shares`, in millionths of
`total_hashpower`, as long as no machine operation on the way to it loses anything (`Exact`).  That
is the case whenever the hashpower does not exceed the total and the reward is not negative
(`exact_of_le`).
-/

namespace OrePool

open Shares Traversal

/-! ## The total -/

/-- The hashpowers of the contributions, in the order of the map. -/
def hashpowers (contributions : Contributions) : List ℕ :=
  contributions.entries.map fun entry => entry.2.hashpower.toNat

/-- `total_hashpower` is the sum of the hashpowers modulo `2 ^ 64`. -/
lemma totalHashpower_toNat (contributions : Contributions) :
    (totalHashpower contributions).toNat = (hashpowers contributions).sum % 2 ^ 64 := by
  have hfold : ∀ (entries : List (Sigma fun _ : Pubkey => InternalMessageContribution))
      (total : UInt64),
      (entries.foldl (fun total entry => total + entry.2.hashpower) total).toNat =
        (total.toNat + (entries.map fun entry => entry.2.hashpower.toNat).sum) % 2 ^ 64 := by
    intro entries
    induction entries with
    | nil =>
        intro total
        have := total.toNat_lt
        simp only [List.foldl_nil, List.map_nil, List.sum_nil]
        omega
    | cons entry entries ih =>
        intro total
        rw [List.foldl_cons, ih, UInt64.toNat_add, List.map_cons, List.sum_cons]
        omega
  have h := hfold contributions.entries 0
  rwa [UInt64.toNat_zero, Nat.zero_add] at h

lemma totalHashpower_eq_sum {contributions : Contributions}
    (h : (hashpowers contributions).sum < 2 ^ 64) :
    (totalHashpower contributions).toNat = (hashpowers contributions).sum := by
  rw [totalHashpower_toNat, Nat.mod_eq_of_lt h]

lemma hashpower_le_sum {contributions : Contributions}
    {entry : Sigma fun _ : Pubkey => InternalMessageContribution}
    (h : entry ∈ contributions.entries) :
    entry.2.hashpower.toNat ≤ (hashpowers contributions).sum :=
  List.single_le_sum (fun _ _ => Nat.zero_le _) _ (List.mem_map_of_mem h)

/-- The hashpowers, key by key. -/
lemma hashpowers_eq_map_keys (contributions : Contributions) :
    hashpowers contributions = contributions.keys.map fun pubkey =>
      (((contributions.lookup pubkey).map InternalMessageContribution.hashpower).getD 0).toNat := by
  rw [hashpowers, AList.keys, List.keys, List.map_map]
  refine List.map_congr_left fun entry hentry => ?_
  have hlookup : contributions.lookup entry.1 = some entry.2 :=
    AList.mem_lookup_iff.mpr hentry
  simp [hlookup]

/-- Maps with the same hashpower for every key have the same total. -/
lemma totalHashpower_congr {contributions contributions' : Contributions}
    (h : ∀ pubkey, (contributions.lookup pubkey).map InternalMessageContribution.hashpower =
      (contributions'.lookup pubkey).map InternalMessageContribution.hashpower) :
    totalHashpower contributions = totalHashpower contributions' := by
  have hkeys : contributions.keys.Perm contributions'.keys := by
    rw [List.perm_ext_iff_of_nodup (AList.keys_nodup _) (AList.keys_nodup _)]
    intro pubkey
    rw [← AList.mem_keys, ← AList.mem_keys, ← AList.lookup_isSome, ← AList.lookup_isSome,
      ← Option.isSome_map, h pubkey, Option.isSome_map]
  have hsums : (hashpowers contributions).sum = (hashpowers contributions').sum := by
    rw [hashpowers_eq_map_keys, hashpowers_eq_map_keys]
    simp only [h]
    exact (hkeys.map _).sum_eq
  rw [← UInt64.toNat_inj, totalHashpower_toNat, totalHashpower_toNat, hsums]

/-- Contributions with some hashpower each have some together. -/
lemma sum_hashpowers_pos {contributions : Contributions} (hne : contributions.entries ≠ [])
    (h : ∀ entry ∈ contributions.entries, 1 ≤ entry.2.hashpower) :
    0 < (hashpowers contributions).sum := by
  obtain ⟨entry, hentry⟩ := List.exists_mem_of_ne_nil _ hne
  have h1 : 1 ≤ entry.2.hashpower.toNat := UInt64.le_iff_toNat_le.mp (h entry hentry)
  exact h1.trans (hashpower_le_sum hentry)

/-! ## One contribution -/

/-- The reward of one contribution is worked out without loss: neither product saturates, the
divisor is not zero, and both casts keep the value. -/
structure Exact (hashpower totalHashpower : UInt64) (rewards : Int64) : Prop where
  scaled : saturatingMul hashpower.toNat 1000000 = hashpower.toNat * 1000000
  divides : totalHashpower.toNat ≠ 0
  widened : (asU128 rewards : ℤ) = rewards.toInt
  multiplied :
    saturatingMul (portion 1000000 totalHashpower.toNat hashpower.toNat) (asU128 rewards) =
      portion 1000000 totalHashpower.toNat hashpower.toNat * asU128 rewards
  narrowed :
    (Int64.ofNat (share 1000000 totalHashpower.toNat (asU128 rewards) hashpower.toNat)).toInt =
      share 1000000 totalHashpower.toNat (asU128 rewards) hashpower.toNat

/-- A small `u64` keeps its value as an `i64`. -/
lemma toInt_toInt64_of_lt {x : UInt64} (h : x.toNat < 2 ^ 63) : x.toInt64.toInt = x.toNat := by
  rw [← Int64.toInt_ofNat_of_lt h, ← UInt64.toInt64_ofNat', UInt64.ofNat_toNat]

lemma saturatingMul_eq {a b : ℕ} (h : a * b ≤ U128_MAX) : saturatingMul a b = a * b :=
  min_eq_left h

/-- A reward that is not negative keeps its value as a `u128`. -/
lemma asU128_of_nonneg {rewards : Int64} (h : 0 ≤ rewards.toInt) :
    asU128 rewards = rewards.toInt.toNat := by
  have := rewards.toInt_lt
  rw [asU128, Int.emod_eq_of_lt h (by simp only [U128_MAX]; omega)]

theorem exact_of_le {hashpower totalHashpower : UInt64} {rewards : Int64}
    (hle : hashpower.toNat ≤ totalHashpower.toNat) (htotal : totalHashpower.toNat ≠ 0)
    (hrewards : 0 ≤ rewards.toInt) : Exact hashpower totalHashpower rewards := by
  have hrange := rewards.toInt_lt
  have hwide : (asU128 rewards : ℤ) = rewards.toInt := by
    rw [asU128_of_nonneg hrewards, Int.toNat_of_nonneg hrewards]
  have hamount : asU128 rewards < 2 ^ 63 := by omega
  have hportion : portion 1000000 totalHashpower.toNat hashpower.toNat ≤ 1000000 := portion_le hle
  have hshare : share 1000000 totalHashpower.toNat (asU128 rewards) hashpower.toNat < 2 ^ 63 :=
    (share_le hle).trans_lt hamount
  refine ⟨saturatingMul_eq ?_, htotal, hwide, saturatingMul_eq ?_, ?_⟩
  · have := hashpower.toNat_lt
    simp only [U128_MAX]
    omega
  · calc portion 1000000 totalHashpower.toNat hashpower.toNat * asU128 rewards
        ≤ 1000000 * 2 ^ 63 := Nat.mul_le_mul hportion hamount.le
      _ ≤ U128_MAX := by decide
  · exact Int64.toInt_ofNat_of_lt hshare

/-- Without loss the reward of a contribution is its share. -/
lemma Exact.earnedRewards {hashpower totalHashpower : UInt64} {rewards : Int64}
    (h : Exact hashpower totalHashpower rewards) :
    earnedRewards hashpower totalHashpower rewards =
      some (share 1000000 totalHashpower.toNat (asU128 rewards) hashpower.toNat) := by
  have hpercent : hashpowerPercent hashpower totalHashpower =
      some (portion 1000000 totalHashpower.toNat hashpower.toNat) := by
    rw [hashpowerPercent, h.scaled, saturatingDiv, if_neg h.divides, portion]
  rw [OrePool.earnedRewards, hpercent, Option.bind_some, h.multiplied, saturatingDiv,
    if_neg (by decide), share]

/-! ## All of them -/

/-- Both rows of a miner say that it has earned `amount`. -/
def MinerRows.Earns (r : MinerRows) (amount : ℤ) : Prop :=
  r.earning.amount.toInt = amount ∧ r.reward.balance.toInt = amount

/-- The amounts in the rows. -/
def splitAmounts (rows : List MinerRows) : List ℤ := rows.map fun r => r.reward.balance.toInt

lemma MessageInternalMineSuccess.minerRows_of_exact {msg : MessageInternalMineSuccess}
    (poolId : Int32) {contribution : InternalMessageContribution}
    (h : Exact contribution.hashpower msg.totalHashpower msg.rewards) :
    ∃ r, msg.minerRows poolId contribution = some r ∧
      r.Earns (share 1000000 msg.totalHashpower.toNat (asU128 msg.rewards)
        contribution.hashpower.toNat) := by
  rw [MessageInternalMineSuccess.minerRows, h.earnedRewards, Option.map_some]
  exact ⟨_, rfl, h.narrowed, h.narrowed⟩

/-- A message whose total is that of its contributions, and whose reward is not negative, is split
without loss. -/
lemma MessageInternalMineSuccess.exact {msg : MessageInternalMineSuccess}
    (hsum : msg.totalHashpower.toNat = (hashpowers msg.contributions).sum)
    (htotal : msg.totalHashpower.toNat ≠ 0) (hrewards : 0 ≤ msg.rewards.toInt) :
    ∀ entry ∈ msg.contributions.entries,
      Exact entry.2.hashpower msg.totalHashpower msg.rewards := by
  intro entry hentry
  exact exact_of_le (hsum ▸ hashpower_le_sum hentry) htotal hrewards

/-- A total that is not zero can be divided by. -/
lemma MessageInternalMineSuccess.isSome_rows {msg : MessageInternalMineSuccess}
    (h : msg.contributions.entries ≠ [] → msg.totalHashpower.toNat ≠ 0) (poolId : Int32) :
    (msg.rows poolId).isSome := by
  refine isSome_mapM ?_
  intro entry hentry
  have htotal : msg.totalHashpower.toNat ≠ 0 := h (List.ne_nil_of_mem hentry)
  rw [MessageInternalMineSuccess.minerRows, Option.isSome_map, OrePool.earnedRewards,
    hashpowerPercent, saturatingDiv, if_neg htotal]
  rfl

/-- Without loss there are rows for every contribution, with its share in both. -/
theorem MessageInternalMineSuccess.rows_of_exact {msg : MessageInternalMineSuccess}
    (poolId : Int32)
    (h : ∀ entry ∈ msg.contributions.entries,
      Exact entry.2.hashpower msg.totalHashpower msg.rewards) :
    ∃ rows, msg.rows poolId = some rows ∧ (∀ r ∈ rows, r.earning.amount = r.reward.balance) ∧
      splitAmounts rows = (hashpowers msg.contributions).map fun hashpower =>
        (share 1000000 msg.totalHashpower.toNat (asU128 msg.rewards) hashpower : ℤ) := by
  rw [MessageInternalMineSuccess.rows, hashpowers]
  revert h
  induction msg.contributions.entries with
  | nil => exact fun _ => ⟨[], rfl, nofun, rfl⟩
  | cons entry entries ih =>
      intro h
      obtain ⟨r, hr, hearns⟩ := msg.minerRows_of_exact poolId
        (h entry List.mem_cons_self)
      obtain ⟨rows, hrows, hsame, hamounts⟩ := ih fun e he => h e (List.mem_cons_of_mem _ he)
      refine ⟨r :: rows, by simp [hr, hrows], ?_, ?_⟩
      · rintro r' (_ | ⟨_, hr'⟩)
        · exact Int64.toInt_inj.mp (hearns.1.trans hearns.2.symm)
        · exact hsame r' hr'
      · rw [splitAmounts, List.map_cons, hearns.2, List.map_cons, List.map_cons, ← hamounts,
          splitAmounts]

end OrePool
