import Mathlib.Tactic.Ring
import OrePool.Lemmas.Writes

/-!
# Balances

What `update_rewards` does to the sum of a miner's balances.  Balances are added up as integers,
which they are as long as every sum on the way has fitted (`Accrues`).
-/

namespace OrePool

open Interleaving Tables

/-! ## Sums -/

/-- The number in a cell that holds an integer. -/
def SqlNumber.toInt : SqlNumber → ℤ
  | .int n => n.toInt
  | .real _ => 0

/-- The cell holds an integer. -/
def SqlNumber.IsInt (x : SqlNumber) : Prop := ∃ n, x = .int n

/-- The sum of a miner's balances. -/
def Database.balanceOf (db : Database) (minerId : Int64) : ℤ :=
  total RewardRow.minerId (fun row => row.balance.toInt) minerId db.rewards

/-- The sum of a miner's earnings. -/
def earnedBy (minerId : Int64) (earnings : List InsertEarning) : ℤ :=
  total InsertEarning.minerId (fun e => e.amount.toInt) minerId earnings

/-- What is paid to a miner by a list of updates. -/
def amounts (updates : List UpdateReward) (minerId : Int64) : List ℤ :=
  (select UpdateReward.minerId minerId updates).map fun u => u.balance.toInt

/-- Every sum on the way fits. -/
def Accrues : ℤ → List ℤ → Prop
  | _, [] => True
  | balance, amount :: amounts => Fits (balance + amount) ∧ Accrues (balance + amount) amounts

instance Accrues.decidable : ∀ balance amounts, Decidable (Accrues balance amounts)
  | _, [] => isTrue trivial
  | balance, amount :: amounts =>
      have := Accrues.decidable (balance + amount) amounts
      inferInstanceAs (Decidable (_ ∧ _))

lemma SqlNumber.add_int (sql : Sqlite) {n m : Int64} (h : Fits (n.toInt + m.toInt)) :
    SqlNumber.add sql (.int n) m = .int (n + m) ∧ (n + m).toInt = n.toInt + m.toInt := by
  refine ⟨if_pos h, ?_⟩
  rw [Int64.toInt_add]
  exact bmod_of_fits h.1 h.2

/-! ## Credits -/

section Credits

variable {sql : Sqlite} {updates : List UpdateReward} {rows : List RewardRow} {minerId : Int64}

/-- What a list of updates does to one row. -/
def creditRow (sql : Sqlite) : List UpdateReward → RewardRow → RewardRow
  | [], row => row
  | u :: updates, row =>
      creditRow sql updates (if row.minerId = u.minerId then row.credit sql u.balance else row)

lemma creditAll_eq_map : (creditAll sql updates rows).1 = rows.map (creditRow sql updates) := by
  induction updates generalizing rows with
  | nil =>
      show rows = rows.map id
      rw [List.map_id]
  | cons u updates ih =>
      rw [creditAll, ih, update, List.map_map]
      rfl

lemma creditRow_minerId (row : RewardRow) : (creditRow sql updates row).minerId = row.minerId := by
  induction updates generalizing row with
  | nil => rfl
  | cons u updates ih =>
      rw [creditRow, ih]
      split
      · rfl
      · rfl

/-- A row whose sums all fit gets what is paid to its miner. -/
lemma creditRow_balance (sql : Sqlite) {row : RewardRow} {n : Int64} (hn : row.balance = .int n)
    (h : Accrues n.toInt (amounts updates row.minerId)) :
    ∃ n', (creditRow sql updates row).balance = .int n' ∧
      n'.toInt = n.toInt + (amounts updates row.minerId).sum := by
  induction updates generalizing row n with
  | nil => exact ⟨n, hn, by simp [amounts, select]⟩
  | cons u updates ih =>
      rw [creditRow]
      by_cases hu : row.minerId = u.minerId
      · have hcons : amounts (u :: updates) row.minerId =
            u.balance.toInt :: amounts updates row.minerId := by
          simp [amounts, select, hu]
        rw [hcons] at h ⊢
        obtain ⟨hfits, hrest⟩ := h
        obtain ⟨hadd, hsum⟩ := SqlNumber.add_int sql hfits
        rw [if_pos hu]
        have hbalance : (row.credit sql u.balance).balance = .int (n + u.balance) := by
          rw [RewardRow.credit, hn, hadd]
        obtain ⟨n', hn', hvalue⟩ := ih hbalance (by rw [hsum]; exact hrest)
        refine ⟨n', hn', ?_⟩
        rw [hvalue, hsum, List.sum_cons]
        show n.toInt + u.balance.toInt + (amounts updates row.minerId).sum = _
        omega
      · have hcons : amounts (u :: updates) row.minerId = amounts updates row.minerId := by
          simp [amounts, select, Ne.symm hu]
        rw [hcons] at h ⊢
        rw [if_neg hu]
        exact ih hn h

/-- Every row's sums fit. -/
def AllAccrue (updates : List UpdateReward) (rows : List RewardRow) : Prop :=
  ∀ row ∈ rows, Accrues row.balance.toInt (amounts updates row.minerId)

lemma creditAll_isInt (hint : ∀ row ∈ rows, row.balance.IsInt) (h : AllAccrue updates rows) :
    ∀ row ∈ (creditAll sql updates rows).1, row.balance.IsInt := by
  rw [creditAll_eq_map]
  intro row hrow
  obtain ⟨row', hrow', rfl⟩ := List.mem_map.mp hrow
  obtain ⟨n, hn⟩ := hint row' hrow'
  have hacc := h row' hrow'
  rw [hn] at hacc
  obtain ⟨n', hn', -⟩ := creditRow_balance sql hn hacc
  exact ⟨n', hn'⟩

/-- Each of a miner's rows gets what is paid to the miner. -/
lemma total_creditAll (hint : ∀ row ∈ rows, row.balance.IsInt) (h : AllAccrue updates rows) :
    total RewardRow.minerId (fun row => row.balance.toInt) minerId (creditAll sql updates rows).1 =
      total RewardRow.minerId (fun row => row.balance.toInt) minerId rows +
        (select RewardRow.minerId minerId rows).length * (amounts updates minerId).sum := by
  rw [creditAll_eq_map, total, total, select_map fun _ => creditRow_minerId _, List.map_map]
  have hrow : ∀ row ∈ select RewardRow.minerId minerId rows,
      (creditRow sql updates row).balance.toInt =
        row.balance.toInt + (amounts updates minerId).sum := by
    intro row hrow
    obtain ⟨hmem, rfl⟩ := mem_select.mp hrow
    obtain ⟨n, hn⟩ := hint row hmem
    have hacc := h row hmem
    rw [hn] at hacc
    obtain ⟨n', hn', hvalue⟩ := creditRow_balance sql hn hacc
    rw [hn', hn]
    exact hvalue
  rw [List.map_congr_left (g := fun row => row.balance.toInt + (amounts updates minerId).sum) hrow]
  generalize select RewardRow.minerId minerId rows = l
  induction l with
  | nil => simp
  | cons row l ih =>
      simp only [List.map_cons, List.sum_cons, List.length_cons, ih]
      push_cast
      ring

end Credits

end OrePool
