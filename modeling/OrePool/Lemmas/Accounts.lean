import OrePool.Lemmas.Balances
import OrePool.Lemmas.Split

/-!
# The accounts together

What all miners have earned and been credited with, and how the writes of the payment processor
change it.  A message whose total is that of its contributions and whose reward is not negative is
`Sound`: its rows add up to no more than the reward.
-/

namespace OrePool

open Interleaving Shares Tables Traversal

/-! ## Sums -/

/-- The sum of all earnings. -/
def Database.earned (db : Database) : ℤ := (db.earnings.map fun e => e.amount.toInt).sum

/-- The sum of the balances in some rows. -/
def balances (rows : List RewardRow) : ℤ := (rows.map fun row => row.balance.toInt).sum

/-- Every balance is an integer and not negative. -/
def Plain (rows : List RewardRow) : Prop := ∀ row ∈ rows, row.balance.IsInt ∧ 0 ≤ row.balance.toInt

lemma Plain.nonneg {rows : List RewardRow} (h : Plain rows) : 0 ≤ balances rows :=
  List.sum_nonneg (List.forall_mem_map.mpr fun row hrow => (h row hrow).2)

/-! ## Credits -/

section Credits

variable (sql : Sqlite) {rows : List RewardRow} (updates : List UpdateReward)

/-- A credit raises one balance at most. -/
lemma update_credit (hplain : Plain rows) (hunique : Unique RewardRow.minerId rows)
    (minerId : Int64) {amount : Int64} (hamount : 0 ≤ amount.toInt)
    (hfits : balances rows + amount.toInt ≤ Int64.maxValue.toInt) :
    Plain (update RewardRow.minerId minerId (RewardRow.credit sql amount) rows) ∧
      balances (update RewardRow.minerId minerId (RewardRow.credit sql amount) rows) ≤
        balances rows + amount.toInt := by
  have hle := hunique.select_le_one minerId
  cases hsel : select RewardRow.minerId minerId rows with
  | nil =>
      rw [update_of_select_eq_nil hsel]
      exact ⟨hplain, by omega⟩
  | cons row rest =>
      obtain rfl : rest = [] := by
        rw [hsel, List.length_cons] at hle
        exact List.length_eq_zero_iff.mp (by omega)
      obtain ⟨l₁, l₂, rfl, hupdate, -⟩ :=
        update_of_select_eq_singleton (f := RewardRow.credit sql amount) hsel
      have hsum : ∀ row' : RewardRow, balances (l₁ ++ row' :: l₂) =
          balances l₁ + (row'.balance.toInt + balances l₂) := by
        intro row'
        simp [balances]
      obtain ⟨hplain₁, hplain₂⟩ := List.forall_mem_append.mp hplain
      obtain ⟨⟨⟨n, hn⟩, hpos⟩, hplain₂⟩ := List.forall_mem_cons.mp hplain₂
      have h₁ := Plain.nonneg hplain₁
      have h₂ := Plain.nonneg hplain₂
      have hmin : Int64.minValue.toInt ≤ 0 := by decide
      rw [hsum] at hfits
      rw [hn] at hfits hpos
      obtain ⟨hadd, hvalue⟩ := SqlNumber.add_int sql (n := n) (m := amount)
        ⟨by simp only [SqlNumber.toInt] at hpos; omega,
          by simp only [SqlNumber.toInt] at hfits; omega⟩
      have hcredit : (row.credit sql amount).balance = .int (n + amount) := by
        rw [RewardRow.credit, hn, hadd]
      rw [hupdate, hsum, hsum, hcredit, hn]
      simp only [SqlNumber.toInt] at hpos ⊢
      refine ⟨?_, by omega⟩
      refine List.forall_mem_append.mpr
        ⟨hplain₁, List.forall_mem_cons.mpr ⟨⟨⟨_, hcredit⟩, ?_⟩, hplain₂⟩⟩
      rw [hcredit]
      simp only [SqlNumber.toInt]
      omega

/-- The updates of a batch raise the balances by no more than they say. -/
lemma creditAll_le (hplain : Plain rows) (hunique : Unique RewardRow.minerId rows)
    (hamounts : ∀ u ∈ updates, 0 ≤ u.balance.toInt)
    (hfits : balances rows + (updates.map fun u => u.balance.toInt).sum ≤
      Int64.maxValue.toInt) :
    Plain (creditAll sql updates rows).1 ∧
      balances (creditAll sql updates rows).1 ≤
        balances rows + (updates.map fun u => u.balance.toInt).sum := by
  induction updates generalizing rows with
  | nil => exact ⟨hplain, (Int.add_zero _).ge⟩
  | cons u updates ih =>
      obtain ⟨hu, hamounts⟩ := List.forall_mem_cons.mp hamounts
      have hrest : 0 ≤ (updates.map fun u => u.balance.toInt).sum :=
        List.sum_nonneg (List.forall_mem_map.mpr hamounts)
      rw [List.map_cons, List.sum_cons] at hfits ⊢
      obtain ⟨hplain', hle⟩ := update_credit sql hplain hunique u.minerId hu (by omega)
      obtain ⟨hplain'', hle'⟩ := ih hplain' (hunique.update fun _ => rfl) hamounts (by omega)
      refine ⟨hplain'', ?_⟩
      show balances (creditAll sql updates _).1 ≤ _
      omega

end Credits

/-! ## Sound messages -/

/-- The total is that of the contributions, and the reward is not negative. -/
structure MessageInternalMineSuccess.Sound (msg : MessageInternalMineSuccess) : Prop where
  total : msg.totalHashpower.toNat = (hashpowers msg.contributions).sum
  rewards : 0 ≤ msg.rewards.toInt

/-- The rows of a sound message give away no more than the reward. -/
theorem MessageInternalMineSuccess.Sound.rows_le {msg : MessageInternalMineSuccess}
    (h : msg.Sound) {poolId : Int32} {rows : List MinerRows} (hrows : msg.rows poolId = some rows) :
    (∀ r ∈ rows, r.earning.amount = r.reward.balance ∧ 0 ≤ r.reward.balance.toInt) ∧
      (splitAmounts rows).sum ≤ msg.rewards.toInt := by
  by_cases htotal : msg.totalHashpower.toNat = 0
  · -- there is nothing to divide among, or the processor has panicked
    obtain rfl : rows = [] := by
      by_contra hne
      obtain ⟨r, hr⟩ := List.exists_mem_of_ne_nil _ hne
      obtain ⟨entry, -, hrow⟩ := exists_of_forall₂_right (forall₂_of_mapM hrows) hr
      rw [minerRows, earnedRewards, hashpowerPercent, saturatingDiv, if_pos htotal] at hrow
      cases hrow
    exact ⟨List.forall_mem_nil _, h.rewards⟩
  · obtain ⟨rows', hrows', hsame, hamounts⟩ :=
      rows_of_exact poolId (msg.exact h.total htotal h.rewards)
    obtain rfl : rows = rows' := Option.some.inj (hrows.symm.trans hrows')
    have hwide : (asU128 msg.rewards : ℤ) = msg.rewards.toInt := by
      rw [asU128_of_nonneg h.rewards, Int.toNat_of_nonneg h.rewards]
    refine ⟨fun r hr => ⟨hsame r hr, ?_⟩, ?_⟩
    · have hmem : r.reward.balance.toInt ∈ splitAmounts rows := List.mem_map_of_mem hr
      rw [hamounts] at hmem
      obtain ⟨hashpower, -, heq⟩ := List.mem_map.mp hmem
      rw [← heq]
      exact Int.natCast_nonneg _
    · have hcast : (splitAmounts rows).sum = (((hashpowers msg.contributions).map
          (share 1000000 msg.totalHashpower.toNat (asU128 msg.rewards))).sum : ℕ) := by
        rw [hamounts, Nat.cast_list_sum, List.map_map]
        rfl
      rw [hcast, ← hwide]
      exact Int.ofNat_le.mpr (sum_share_le h.total.ge)

/-! ## The ledger -/

/-- The rows the processor has still to write earnings for, and those it has still to credit. -/
def PaymentPc.toEarn : PaymentPc → List MinerRows
  | .addEarnings _ rows => rows
  | _ => []

def PaymentPc.toCredit : PaymentPc → List MinerRows
  | .addEarnings _ rows => rows
  | .updateRewards _ rows => rows
  | _ => []

/-- The rewards of some messages together. -/
def rewardsOf (msgs : List MessageInternalMineSuccess) : ℤ :=
  (msgs.map fun msg => msg.rewards.toInt).sum

/-- The earnings a message is to be booked with. -/
def MessageInternalMineSuccess.earnings (poolId : Int32) (msg : MessageInternalMineSuccess) :
    List InsertEarning := ((msg.rows poolId).getD []).map MinerRows.earning

/-- What is booked and what is still to be booked is that of the messages received, in their
order. -/
structure Books (host : Host) (s : Ledger) (msgs : List MessageInternalMineSuccess) : Prop where
  sound : ∀ msg ∈ msgs, msg.Sound
  booked : (s.db.earnings ++ s.payment.toEarn.map MinerRows.earning).Sublist
    (msgs.flatMap fun msg => msg.earnings host.poolId)
  credited : balances s.db.rewards + (splitAmounts s.payment.toCredit).sum ≤ rewardsOf msgs
  plain : Plain s.db.rewards
  rows : ∀ r ∈ s.payment.toEarn ++ s.payment.toCredit,
    r.earning.amount = r.reward.balance ∧ 0 ≤ r.reward.balance.toInt

/-- Messages received are sound; whenever the processor writes, no miner has two rows in `rewards`
and the rewards received so far fit an `i64`. -/
def Accountable (x : Ledger × List MessageInternalMineSuccess) : LedgerAction → Prop
  | .mineSuccess msg => msg.Sound
  | .payment _ => Unique RewardRow.minerId x.1.db.rewards ∧
      rewardsOf x.2 ≤ Int64.maxValue.toInt
  | _ => True

/-- The message an action receives. -/
def LedgerAction.received : LedgerAction → Option MessageInternalMineSuccess
  | .mineSuccess msg => some msg
  | _ => none

/-- The same earnings and balances, new ones being nothing. -/
structure SameBooks (db db' : Database) : Prop where
  earnings : db'.earnings = db.earnings
  credited : balances db'.rewards = balances db.rewards
  plain : Plain db.rewards → Plain db'.rewards

/-- The calls that pay somebody. -/
def Write.pays : Write → Bool
  | .addNewEarningsBatch _ => true
  | .updateRewards _ => true
  | _ => false

lemma Database.write_sameBooks (sql : Sqlite) (db : Database) (fault : Option Fault) (w : Write)
    (hpays : w.pays = false) : SameBooks db (db.write sql fault w).1 := by
  refine db.write_induction sql fault w ⟨rfl, rfl, id⟩ fun db' hmove => ?_
  cases hmove with
  | addNewEarningsBatch _ => cases hpays
  | updateRewards _ => cases hpays
  | addNewReward reward =>
      refine ⟨rfl, ?_, ?_⟩
      · simp [balances, SqlNumber.toInt]
      · intro hplain
        refine List.forall_mem_append.mpr ⟨hplain, List.forall_mem_singleton.mpr ⟨⟨0, rfl⟩, ?_⟩⟩
        exact le_rfl
  | _ => exact ⟨rfl, rfl, id⟩

/-- Everybody but the processor leaves the books alone. -/
lemma Books.other {host : Host} {s s' : Ledger} {msgs : List MessageInternalMineSuccess}
    (hi : Books host s msgs) (hdb : SameBooks s.db s'.db) (hpc : s'.payment = s.payment) :
    Books host s' msgs := by
  refine ⟨hi.sound, ?_, ?_, hdb.plain hi.plain, ?_⟩
  · rw [hpc, hdb.earnings]
    exact hi.booked
  · rw [hpc, hdb.credited]
    exact hi.credited
  · rw [hpc]
    exact hi.rows

lemma splitAmounts_nonneg {rows : List MinerRows}
    (h : ∀ r ∈ rows, r.earning.amount = r.reward.balance ∧ 0 ≤ r.reward.balance.toInt) :
    0 ≤ (splitAmounts rows).sum :=
  List.sum_nonneg (List.forall_mem_map.mpr fun r hr => (h r hr).2)

lemma Books.append_nil {host : Host} {s : Ledger} {msgs : List MessageInternalMineSuccess}
    (hi : Books host s msgs) : Books host s (msgs ++ []) := by
  rw [List.append_nil]
  exact hi

/-- A message is received with its rows still to be written. -/
lemma Books.receive {host : Host} {s : Ledger} {msgs : List MessageInternalMineSuccess}
    (hi : Books host s msgs) {msg : MessageInternalMineSuccess} (hpc : s.payment = .receive)
    (hsound : msg.Sound) :
    Books host { s with payment := .open host msg } (msgs ++ [msg]) := by
  have hbooked := hi.booked
  have hcredited := hi.credited
  have hrewards : rewardsOf (msgs ++ [msg]) = rewardsOf msgs + msg.rewards.toInt := by
    simp [rewardsOf]
  have hmsg := hsound.rewards
  rw [hpc] at hbooked hcredited
  simp only [PaymentPc.toEarn, PaymentPc.toCredit, splitAmounts, List.map_nil, List.sum_nil,
    List.append_nil, add_zero] at hbooked hcredited
  -- nothing to write, or the rows of the message
  have hopen : (PaymentPc.open host msg).toEarn = (PaymentPc.open host msg).toCredit ∧
      ((PaymentPc.open host msg).toEarn = [] ∨
        msg.rows host.poolId = some (PaymentPc.open host msg).toEarn) := by
    rw [PaymentPc.open]
    split
    · split
      · exact ⟨rfl, .inl rfl⟩
      · exact ⟨rfl, .inl rfl⟩
      · rename_i row rows hrows
        exact ⟨rfl, .inr hrows⟩
    · exact ⟨rfl, .inl rfl⟩
  obtain ⟨hsame, hfrom⟩ := hopen
  have hrows : (∀ r ∈ (PaymentPc.open host msg).toEarn,
      r.earning.amount = r.reward.balance ∧ 0 ≤ r.reward.balance.toInt) ∧
        (splitAmounts (PaymentPc.open host msg).toEarn).sum ≤ msg.rewards.toInt := by
    rcases hfrom with hnil | hrows
    · rw [hnil]
      exact ⟨List.forall_mem_nil _, hmsg⟩
    · exact hsound.rows_le hrows
  refine ⟨?_, ?_, ?_, hi.plain, ?_⟩
  · exact List.forall_mem_append.mpr ⟨hi.sound, List.forall_mem_singleton.mpr hsound⟩
  · rw [List.flatMap_append, List.flatMap_singleton]
    refine hbooked.append ?_
    rcases hfrom with hnil | hrows
    · show ((PaymentPc.open host msg).toEarn.map MinerRows.earning).Sublist _
      rw [hnil]
      exact List.nil_sublist _
    · rw [MessageInternalMineSuccess.earnings, hrows]
      exact List.Sublist.refl _
  · rw [hrewards]
    show balances s.db.rewards + (splitAmounts (PaymentPc.open host msg).toCredit).sum ≤ _
    rw [← hsame]
    omega
  · show ∀ r ∈ (PaymentPc.open host msg).toEarn ++ (PaymentPc.open host msg).toCredit, _
    rw [← hsame]
    exact List.forall_mem_append.mpr ⟨hrows.1, hrows.1⟩

/-- A call of the processor writes what is still to be booked, or drops it. -/
lemma Books.payment {host : Host} {s : Ledger} {msgs : List MessageInternalMineSuccess}
    {fault : Option Fault} {pc : PaymentPc} {db' : Database} (hi : Books host s msgs)
    (hunique : Unique RewardRow.minerId s.db.rewards)
    (hfits : rewardsOf msgs ≤ Int64.maxValue.toInt)
    (hs : s.payment.step host s.db fault = some (pc, db')) :
    Books host { s with db := db', payment := pc } msgs := by
  obtain ⟨hsound, hbooked, hcredited, hplain, hrows⟩ := hi
  have hbefore := (List.sublist_append_left _ _).trans hbooked
  -- a call that leaves the books alone, with nothing left to book after it
  have hquiet : pc.toEarn = [] → pc.toCredit = [] → SameBooks s.db db' →
      Books host { s with db := db', payment := pc } msgs := by
    intro hearn hcredit hsame
    have hpos := splitAmounts_nonneg fun r hr => hrows r (List.mem_append_right _ hr)
    have hnil : (splitAmounts []).sum = 0 := rfl
    refine ⟨hsound, ?_, ?_, hsame.plain hplain, ?_⟩
    · show (db'.earnings ++ pc.toEarn.map MinerRows.earning).Sublist _
      rw [hearn, hsame.earnings, List.map_nil, List.append_nil]
      exact hbefore
    · show balances db'.rewards + (splitAmounts pc.toCredit).sum ≤ _
      rw [hcredit, hsame.credited, hnil]
      omega
    · show ∀ r ∈ pc.toEarn ++ pc.toCredit, _
      rw [hearn, hcredit]
      exact List.forall_mem_nil _
  cases hpc : s.payment with
  | receive | panicked =>
      rw [hpc] at hs
      cases hs
  | addEarnings msg rows =>
      rw [hpc] at hs hbooked hcredited hrows
      simp only [PaymentPc.step, Option.some.injEq, Prod.mk.injEq] at hs
      obtain ⟨rfl, rfl⟩ := hs
      have hrows : ∀ r ∈ rows, r.earning.amount = r.reward.balance ∧ 0 ≤ r.reward.balance.toInt :=
        fun r hr => hrows r (List.mem_append_left _ hr)
      -- the earnings are written or not
      refine s.db.write_induction host.sql fault (.addNewEarningsBatch (rows.map MinerRows.earning))
        (motive := fun db' =>
          Books host { s with db := db', payment := .updateRewards msg rows } msgs)
        ⟨hsound, ?_, hcredited, hplain, hrows⟩ ?_
      · show (s.db.earnings ++ []).Sublist _
        rw [List.append_nil]
        exact hbefore
      · intro db' hmove
        cases hmove
        refine ⟨hsound, ?_, hcredited, hplain, hrows⟩
        show (s.db.earnings ++ rows.map MinerRows.earning ++ []).Sublist _
        rw [List.append_nil]
        exact hbooked
  | updateRewards msg rows =>
      rw [hpc] at hs hbooked hcredited hrows
      simp only [PaymentPc.step, Option.some.injEq, Prod.mk.injEq] at hs
      obtain ⟨rfl, rfl⟩ := hs
      have hrows : ∀ r ∈ rows, r.earning.amount = r.reward.balance ∧ 0 ≤ r.reward.balance.toInt :=
        fun r hr => hrows r (List.mem_append_right _ hr)
      have hsum := splitAmounts_nonneg hrows
      have hnil : (splitAmounts []).sum = 0 := rfl
      have hupdates : ((rows.map MinerRows.reward).map fun u => u.balance.toInt) =
          splitAmounts rows := by
        rw [List.map_map]
        rfl
      simp only [PaymentPc.toCredit] at hcredited
      refine s.db.write_induction host.sql fault (.updateRewards (rows.map MinerRows.reward))
        (motive := fun db' =>
          Books host { s with db := db', payment := .addContributions msg rows } msgs)
        ⟨hsound, hbooked, ?_, hplain, List.forall_mem_nil _⟩ ?_
      · simp only [PaymentPc.toCredit]
        omega
      · intro db' hmove
        cases hmove
        obtain ⟨hplain', hle⟩ := creditAll_le host.sql (rows.map MinerRows.reward)
          hplain hunique (List.forall_mem_map.mpr fun r hr => (hrows r hr).2)
          (by rw [hupdates]; omega)
        rw [hupdates] at hle
        refine ⟨hsound, hbooked, ?_, hplain', List.forall_mem_nil _⟩
        simp only [PaymentPc.toCredit]
        omega
  | addContributions msg rows =>
      rw [hpc] at hs
      simp only [PaymentPc.step, Option.some.injEq, Prod.mk.injEq] at hs
      obtain ⟨rfl, rfl⟩ := hs
      exact hquiet rfl rfl (s.db.write_sameBooks host.sql fault
        (.addNewContributionsBatch _) rfl)
  | updatePool msg =>
      rw [hpc] at hs
      simp only [PaymentPc.step, Option.some.injEq, Prod.mk.injEq] at hs
      obtain ⟨rfl, rfl⟩ := hs
      refine hquiet ?_ ?_ (s.db.write_sameBooks host.sql fault (.updatePoolRewards _ _) rfl)
      · split <;> rfl
      · split <;> rfl
  | getContributionId msg =>
      rw [hpc] at hs
      simp only [PaymentPc.step] at hs
      split at hs <;> obtain ⟨rfl, rfl⟩ := Prod.mk.inj (Option.some.inj hs)
      · exact hquiet rfl rfl ⟨rfl, rfl, id⟩
      · exact hquiet rfl rfl ⟨rfl, rfl, id⟩
  | updateChallenge msg contributionId =>
      rw [hpc] at hs
      simp only [PaymentPc.step, Option.some.injEq, Prod.mk.injEq] at hs
      obtain ⟨rfl, rfl⟩ := hs
      exact hquiet rfl rfl (s.db.write_sameBooks host.sql fault
        (.updateChallengeRewards _ _ _) rfl)

theorem Books.step {host : Host} {s s' : Ledger} {msgs : List MessageInternalMineSuccess}
    {act : LedgerAction} (hi : Books host s msgs) (hc : Accountable (s, msgs) act)
    (h : s.step host act = some s') : Books host s' (msgs ++ act.received.toList) := by
  cases Ledger.step_move h with
  | mineSuccess msg hpc => exact hi.receive hpc hc
  | payment hs =>
      refine Books.append_nil ?_
      exact hi.payment hc.1 hc.2 hs
  | request _ _ _ =>
      refine Books.append_nil ?_
      exact hi.other ⟨rfl, rfl, id⟩ rfl
  | handshake _ hs =>
      refine Books.append_nil ?_
      refine hi.other ?_ rfl
      rcases HandshakePc.step_writes hs with rfl | ⟨w, hw, rfl⟩
      · exact ⟨rfl, rfl, id⟩
      · refine Database.write_sameBooks _ _ _ _ ?_
        cases hw <;> rfl
  | addPool fault =>
      refine Books.append_nil ?_
      exact hi.other (s.db.write_sameBooks host.sql fault (.addNewPool _ _) rfl) rfl
  | addChallenge challenge fault =>
      refine Books.append_nil ?_
      exact hi.other (s.db.write_sameBooks host.sql fault (.addNewChallenge _) rfl) rfl

end OrePool
