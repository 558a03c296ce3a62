import OrePool.Lemmas.Balances
import OrePool.Model.Batches

/-!
# Batches are all or nothing

A batch is a loop of statements in one transaction, so a batch that fails leaves nothing behind,
wherever it fails.  `AllOrNothing` also asks for the converse: a batch that reports success has
worked for every one of its entries.

An insertion does (`batchWrites`).  An update changes the rows it finds, none or several, and all
that is looked at is whether the whole batch has changed any: an entry whose miner has no row goes
by unnoticed as long as another has one (`not_batchWrites`), and so does a sum that does not fit an
`i64`, for which SQLite puts a float into the row.
-/

namespace OrePool

open Tables

/-! ## The property -/

/-- **All or nothing.**  A call that reports success has done what it is for, and one that reports
an error nothing. -/
def AllOrNothing (db : Database) (Applied : Database → Prop)
    (result : Database × Except DatabaseError Unit) : Prop :=
  (result.2.isOk = true → Applied result.1) ∧ (result.2.isOk = false → result.1 = db)

/-- Each of the earnings is in one new row. -/
def EarningsInserted (db : Database) (earnings : List InsertEarning) (db' : Database) : Prop :=
  db' = { db with earnings := db.earnings ++ earnings }

/-- Each of the contributions is in one new row, with an id of its own. -/
structure ContributionsInserted (db : Database) (contributions : List InsertContribution)
    (db' : Database) : Prop where
  rows : ∃ new, List.Forall₂ ContributionRow.Records contributions new ∧
    db' = { db with contributions := db.contributions ++ new }
  unique : Unique ContributionRow.id db.contributions → Unique ContributionRow.id db'.contributions

/-- The row with another balance. -/
def RewardRow.withBalance (n : Int64) (row : RewardRow) : RewardRow :=
  { row with balance := .int n }

/-- An entry takes effect: the only row of its miner holds an integer, and the sum of that and the
balance afterwards. -/
def Increased (u : UpdateReward) (rows rows' : List RewardRow) : Prop :=
  ∃ row n n', select RewardRow.minerId u.minerId rows = [row] ∧ row.balance = .int n ∧
    n'.toInt = n.toInt + u.balance.toInt ∧
    rows' = update RewardRow.minerId u.minerId (RewardRow.withBalance n') rows

/-- The entries take effect one after the other. -/
inductive IncreasedInTurn : List UpdateReward → List RewardRow → List RewardRow → Prop
  | nil (rows : List RewardRow) : IncreasedInTurn [] rows rows
  | cons {u : UpdateReward} {rewards : List UpdateReward} {rows rows₁ rows' : List RewardRow}
      (hu : Increased u rows rows₁) (h : IncreasedInTurn rewards rows₁ rows') :
      IncreasedInTurn (u :: rewards) rows rows'

/-- Each of the rewards has been added to the only row of its miner. -/
structure RewardsUpdated (db : Database) (rewards : List UpdateReward) (db' : Database) : Prop where
  inTurn : ∃ rows, IncreasedInTurn rewards db.rewards rows ∧ db' = { db with rewards := rows }
  balances : ∀ minerId,
    db'.balanceOf minerId = db.balanceOf minerId + (amounts rewards minerId).sum

/-- Every entry's miner has one row, it holds an integer, and every sum on the way fits an
`i64`. -/
def Creditable (rewards : List UpdateReward) (rows : List RewardRow) : Prop :=
  ∀ u ∈ rewards, ∃ row n, select RewardRow.minerId u.minerId rows = [row] ∧ row.balance = .int n ∧
    Accrues n.toInt (amounts rewards u.minerId)

/-- A batch of `n` entries is hit by its fault. -/
def Disturbed (fault : Option BatchFault) (n : ℕ) : Prop :=
  (fault.bind (BatchFault.outside n)).isSome = true

/-! ## Counting rows -/

section Counting

variable {sql : Sqlite} {rewards : List UpdateReward} {rows : List RewardRow}

/-- The rows reported are those of the miners of the entries. -/
lemma creditAll_changed : (creditAll sql rewards rows).2 =
    (rewards.map fun u => (select RewardRow.minerId u.minerId rows).length).sum := by
  induction rewards generalizing rows with
  | nil => rfl
  | cons u us ih =>
      have hkeep : ∀ row : RewardRow, (if row.minerId = u.minerId then row.credit sql u.balance
          else row).minerId = row.minerId := by
        intro row
        split
        · rfl
        · rfl
      rw [creditAll, ih, List.map_cons, List.sum_cons, update]
      simp only [select_map hkeep, List.length_map]

/-- Where no miner has a row nothing changes. -/
lemma creditAll_of_none
    (h : ∀ u ∈ rewards, (select RewardRow.minerId u.minerId rows).length = 0) :
    (creditAll sql rewards rows).1 = rows := by
  induction rewards with
  | nil => rfl
  | cons u us ih =>
      have hu : select RewardRow.minerId u.minerId rows = [] :=
        List.length_eq_zero_iff.mp (h u List.mem_cons_self)
      rw [creditAll, update_of_select_eq_nil hu]
      exact ih fun v hv => h v (List.mem_cons_of_mem _ hv)

/-- Nothing is reported when no miner has a row, and only then. -/
lemma creditAll_changed_eq_zero : (creditAll sql rewards rows).2 = 0 ↔
    ∀ u ∈ rewards, (select RewardRow.minerId u.minerId rows).length = 0 := by
  rw [creditAll_changed, List.sum_eq_zero_iff_forall_eq_nat]
  exact List.forall_mem_map

end Counting

/-! ## Entries in turn -/

section InTurn

variable {sql : Sqlite} {u : UpdateReward} {rewards : List UpdateReward}
  {rows rows₁ rows' : List RewardRow}

lemma amounts_cons_self : amounts (u :: rewards) u.minerId =
    u.balance.toInt :: amounts rewards u.minerId := by
  simp [amounts, select]

lemma amounts_cons_ne {minerId : Int64} (h : u.minerId ≠ minerId) :
    amounts (u :: rewards) minerId = amounts rewards minerId := by
  simp [amounts, select, h]

lemma amounts_eq_nil {minerId : Int64} (h : ∀ v ∈ rewards, v.minerId ≠ minerId) :
    amounts rewards minerId = [] := by
  simp only [amounts, select, List.map_eq_nil_iff, List.filter_eq_nil_iff, decide_eq_true_eq]
  exact h

/-- An entry changes what is paid to its miner and leaves the other rows alone. -/
lemma Increased.select_eq (h : Increased u rows rows') :
    ∃ row n n', select RewardRow.minerId u.minerId rows = [row] ∧ row.balance = .int n ∧
      n'.toInt = n.toInt + u.balance.toInt ∧
      select RewardRow.minerId u.minerId rows' = [row.withBalance n'] ∧
      ∀ minerId, minerId ≠ u.minerId →
        select RewardRow.minerId minerId rows' = select RewardRow.minerId minerId rows := by
  obtain ⟨row, n, n', hrow, hn, hsum, rfl⟩ := h
  have hkeep : ∀ r : RewardRow, (r.withBalance n').minerId = r.minerId := fun _ => rfl
  refine ⟨row, n, n', hrow, hn, hsum, ?_, ?_⟩
  · rw [select_update hkeep, hrow, List.map_singleton]
  · exact fun minerId hne => select_update_ne hkeep hne

/-- What the entries pay shows in the sums. -/
lemma IncreasedInTurn.total_eq (h : IncreasedInTurn rewards rows rows') (minerId : Int64) :
    total RewardRow.minerId (fun row => row.balance.toInt) minerId rows' =
      total RewardRow.minerId (fun row => row.balance.toInt) minerId rows +
        (amounts rewards minerId).sum := by
  induction h with
  | nil => simp [amounts, select]
  | @cons u rewards _ _ _ hu _ ih =>
      obtain ⟨row, n, n', hrow, hn, hsum, hrow', hother⟩ := hu.select_eq
      rw [ih, total, total]
      by_cases hk : minerId = u.minerId
      · rw [hk, amounts_cons_self, hrow, hrow', List.sum_cons, List.map_singleton,
          List.sum_singleton, List.map_singleton, List.sum_singleton, hn]
        show n'.toInt + _ = n.toInt + _
        rw [hsum, add_assoc]
      · rw [amounts_cons_ne (Ne.symm hk), hother minerId hk]

/-- Where the entries take effect one after the other, there are the rows for it. -/
lemma IncreasedInTurn.creditable (h : IncreasedInTurn rewards rows rows') :
    Creditable rewards rows := by
  induction h with
  | nil => exact List.forall_mem_nil _
  | @cons u rewards _ _ _ hu _ ih =>
      obtain ⟨row, n, n', hrow, hn, hsum, hrow', hother⟩ := hu.select_eq
      have hfits : Fits (n.toInt + u.balance.toInt) := hsum ▸ ⟨n'.minValue_le_toInt, n'.toInt_le⟩
      -- what comes after the entry for its own miner
      have hrest : Accrues n'.toInt (amounts rewards u.minerId) := by
        by_cases hmore : ∃ v ∈ rewards, v.minerId = u.minerId
        · obtain ⟨v, hv, hvu⟩ := hmore
          obtain ⟨row₂, n₂, hrow₂, hn₂, hacc⟩ := ih v hv
          rw [hvu, hrow'] at hrow₂
          cases hrow₂
          cases hn₂
          exact hvu ▸ hacc
        · rw [amounts_eq_nil fun v hv hvu => hmore ⟨v, hv, hvu⟩]
          trivial
      intro v hv
      by_cases hvu : v.minerId = u.minerId
      · rw [hvu, amounts_cons_self]
        exact ⟨row, n, hrow, hn, hfits, hsum ▸ hrest⟩
      · obtain ⟨row₂, n₂, hrow₂, hn₂, hacc⟩ :=
          ih v ((List.mem_cons.mp hv).resolve_left fun h => hvu (h ▸ rfl))
        rw [amounts_cons_ne (Ne.symm hvu)]
        exact ⟨row₂, n₂, hother _ hvu ▸ hrow₂, hn₂, hacc⟩

/-- Where there are the rows for it, the statements make the entries take effect. -/
lemma increasedInTurn_of_creditable (h : Creditable rewards rows) :
    IncreasedInTurn rewards rows (creditAll sql rewards rows).1 := by
  induction rewards generalizing rows with
  | nil => exact .nil rows
  | cons u rewards ih =>
      obtain ⟨row, n, hrow, hn, hacc⟩ := h u List.mem_cons_self
      rw [amounts_cons_self] at hacc
      obtain ⟨hfits, hacc⟩ := hacc
      obtain ⟨hadd, hsum⟩ := SqlNumber.add_int sql hfits
      have hcredit : ∀ r ∈ rows, r.minerId = u.minerId →
          r.credit sql u.balance = r.withBalance (n + u.balance) := by
        intro r hr hru
        have hmem : r ∈ select RewardRow.minerId u.minerId rows := mem_select.mpr ⟨hr, hru⟩
        rw [hrow, List.mem_singleton] at hmem
        rw [hmem, RewardRow.credit, hn, hadd, RewardRow.withBalance]
      have hu : Increased u rows
          (update RewardRow.minerId u.minerId (RewardRow.credit sql u.balance) rows) :=
        ⟨row, n, n + u.balance, hrow, hn, hsum, update_congr hcredit⟩
      refine .cons hu (ih fun v hv => ?_)
      obtain ⟨row₁, n₁, n₁', hrow₁, hn₁, hsum₁, hrow', hother⟩ := hu.select_eq
      cases hrow.symm.trans hrow₁
      cases hn.symm.trans hn₁
      by_cases hvu : v.minerId = u.minerId
      · rw [hvu]
        exact ⟨_, n₁', hrow', rfl, hsum₁ ▸ hacc⟩
      · obtain ⟨row₂, n₂, hrow₂, hn₂, hacc₂⟩ := h v (List.mem_cons_of_mem _ hv)
        rw [amounts_cons_ne (Ne.symm hvu)] at hacc₂
        exact ⟨row₂, n₂, (hother _ hvu).trans hrow₂, hn₂, hacc₂⟩

end InTurn

/-! ## The calls -/

lemma AllOrNothing.of_failed {db : Database} {Applied : Database → Prop}
    {result : Database × Except DatabaseError Unit} (hdb : result.1 = db)
    (hfail : result.2.isOk = false) : AllOrNothing db Applied result := by
  refine ⟨?_, fun _ => hdb⟩
  intro hok
  rw [hfail] at hok
  cases hok

/-- A batch that has run through reports an error if it has changed no row. -/
lemma AllOrNothing.of_run {db db' : Database} {Applied : Database → Prop} {n : ℕ}
    {e : DatabaseError} (happlied : n ≠ 0 → Applied db') (hzero : n = 0 → db' = db) :
    AllOrNothing db Applied (db', if n = 0 then .error e else .ok ()) := by
  by_cases hn : n = 0
  · rw [if_pos hn]
    exact ⟨nofun, fun _ => hzero hn⟩
  · rw [if_neg hn]
    exact ⟨fun _ => happlied hn, nofun⟩

lemma addNewEarningsBatch_allOrNothing (db : Database) (fault : Option Fault)
    (earnings : List InsertEarning) :
    AllOrNothing db (EarningsInserted db earnings) (db.addNewEarningsBatch fault earnings) := by
  rw [Database.addNewEarningsBatch]
  rcases db.executeBatch_cases fault .failedToInsertRow
      (some ({ db with earnings := db.earnings ++ earnings }, earnings.length)) with
    ⟨hdb, hfail⟩ | ⟨db', n, -, hresult, heq⟩
  · exact .of_failed hdb hfail
  · obtain ⟨rfl, rfl⟩ := Prod.mk.inj (Option.some.inj hresult)
    rw [heq]
    refine .of_run (fun _ => rfl) ?_
    intro hlen
    rw [List.length_eq_zero_iff.mp hlen, List.append_nil]

lemma addNewContributionsBatch_allOrNothing (db : Database) (fault : Option Fault)
    (contributions : List InsertContribution) :
    AllOrNothing db (ContributionsInserted db contributions)
      (db.addNewContributionsBatch fault contributions) := by
  have hunique : Unique ContributionRow.id db.contributions → Unique ContributionRow.id
      (db.addNewContributionsBatch fault contributions).1.contributions :=
    Database.addNewContributionsBatch_unique db fault
  rcases db.addNewContributionsBatch_cases fault contributions with
    ⟨hdb, hfail⟩ | ⟨new, hnew, heq⟩
  · exact .of_failed hdb hfail
  · rw [heq] at hunique ⊢
    refine .of_run (fun _ => ⟨⟨new, hnew, rfl⟩, hunique⟩) ?_
    intro hlen
    rw [hnew.length_eq, List.length_eq_zero_iff] at hlen
    rw [hlen, List.append_nil]

/-- What `update_rewards` comes to when nothing disturbs it. -/
lemma updateRewards_none (sql : Sqlite) (db : Database) (rewards : List UpdateReward) :
    db.updateRewards sql none rewards =
      ({ db with rewards := (creditAll sql rewards db.rewards).1 },
        if (creditAll sql rewards db.rewards).2 = 0 then .error .failedToUpdateRow else .ok ()) :=
  rfl

lemma rewardsUpdated_of_creditable {sql : Sqlite} {db : Database} {rewards : List UpdateReward}
    (h : Creditable rewards db.rewards) :
    RewardsUpdated db rewards { db with rewards := (creditAll sql rewards db.rewards).1 } where
  inTurn := ⟨_, increasedInTurn_of_creditable h, rfl⟩
  balances := (increasedInTurn_of_creditable h).total_eq

theorem updateRewards_allOrNothing_iff (sql : Sqlite) (db : Database) (fault : Option Fault)
    (rewards : List UpdateReward) :
    AllOrNothing db (RewardsUpdated db rewards) (db.updateRewards sql fault rewards) ↔
      fault.isSome = true ∨
        (∀ u ∈ rewards, (select RewardRow.minerId u.minerId db.rewards).length = 0) ∨
        Creditable rewards db.rewards := by
  cases fault with
  | some f =>
      refine iff_of_true ?_ (.inl rfl)
      cases f with
      | connection | interaction | query => exact ⟨nofun, fun _ => rfl⟩
  | none =>
      rw [updateRewards_none, or_iff_right (by simp : ¬ (none : Option Fault).isSome = true)]
      have hnothing : (creditAll sql rewards db.rewards).2 = 0 →
          { db with rewards := (creditAll sql rewards db.rewards).1 } = db := by
        intro hzero
        rw [creditAll_of_none (creditAll_changed_eq_zero.mp hzero)]
      refine ⟨?_, ?_⟩
      · intro h
        by_cases hzero : (creditAll sql rewards db.rewards).2 = 0
        · exact .inl (creditAll_changed_eq_zero.mp hzero)
        · rw [if_neg hzero] at h
          obtain ⟨rows, hinTurn, -⟩ := (h.1 rfl).inTurn
          exact .inr hinTurn.creditable
      · rintro (hnone | hcreditable)
        · exact .of_run (fun hne => absurd (creditAll_changed_eq_zero.mpr hnone) hne) hnothing
        · exact .of_run (fun _ => rewardsUpdated_of_creditable hcreditable) hnothing

/-- **All or nothing.**  The insertions always are; an update exactly when it is hit by a fault, no
entry's miner has a row, or every entry's miner has exactly one, an integer whose sums all fit. -/
theorem batchWrites (sql : Sqlite) (db : Database) (fault : Option BatchFault) :
    (∀ earnings, AllOrNothing db (EarningsInserted db earnings)
        (db.earningsBatch fault earnings)) ∧
      (∀ contributions, AllOrNothing db (ContributionsInserted db contributions)
        (db.contributionsBatch fault contributions)) ∧
      ∀ rewards, AllOrNothing db (RewardsUpdated db rewards) (db.rewardsBatch sql fault rewards) ↔
        Disturbed fault rewards.length ∨
          (∀ u ∈ rewards, (select RewardRow.minerId u.minerId db.rewards).length = 0) ∨
          Creditable rewards db.rewards := by
  refine ⟨?_, ?_, ?_⟩
  · intro earnings
    rw [Database.earningsBatch_eq]
    exact addNewEarningsBatch_allOrNothing db _ earnings
  · intro contributions
    rw [Database.contributionsBatch_eq]
    exact addNewContributionsBatch_allOrNothing db _ contributions
  · intro rewards
    rw [Database.rewardsBatch_eq]
    exact updateRewards_allOrNothing_iff sql db _ rewards

/-- Of two entries, one for a miner without a row, one takes effect, and the call reports
success. -/
theorem not_batchWrites :
    ¬ ∀ sql db fault rewards, AllOrNothing db (RewardsUpdated db rewards)
      (db.rewardsBatch sql fault rewards) := by
  intro h
  let db : Database := { Database.init with rewards := [⟨1, 1, .int 0⟩] }
  obtain ⟨hok, -⟩ := h ⟨fun x _ => x⟩ db none [⟨1, 10⟩, ⟨2, 20⟩]
  obtain ⟨rows, hinTurn, -⟩ := (hok (by decide)).inTurn
  obtain ⟨row, -, hrow, -⟩ := hinTurn.creditable ⟨2, 20⟩ (by decide)
  cases hrow

end OrePool
