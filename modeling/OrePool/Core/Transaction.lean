import Mathlib.Data.List.Basic
import Mathlib.Tactic.Common

/-!
# Transactions

A statement changes a store and reports how many rows it has changed, or fails.  A transaction runs
statements one after the other and adds the numbers up.  When one of them fails, or the commit at
the end does, the store is rolled back to what it was.

* `transaction_of_hits` — what is interrupted leaves nothing behind.
* `transaction_of_not_hits` — otherwise the transaction is its statements, all or none of them.
-/

namespace Transactions

variable {σ : Type} {statements : List (σ → Option (σ × ℕ))} {s : σ}

/-- Where a transaction is interrupted from outside. -/
inductive Interruption
  | statement (k : ℕ)
  | commit
  deriving DecidableEq

/-- The interruption comes before a transaction of `n` statements is through. -/
def Interruption.Hits (n : ℕ) : Interruption → Prop
  | .statement k => k < n
  | .commit => True

instance (n : ℕ) : DecidablePred (Interruption.Hits n) := fun i =>
  match i with
  | .statement k => inferInstanceAs (Decidable (k < n))
  | .commit => isTrue trivial

/-- Statements one after the other, with the number of rows changed. -/
def runAll : List (σ → Option (σ × ℕ)) → σ → Option (σ × ℕ)
  | [], s => some (s, 0)
  | statement :: statements, s =>
      (statement s).bind fun r => (runAll statements r.1).map fun r' => (r'.1, r.2 + r'.2)

/-- The statements as they run with an interruption: the one that is hit fails. -/
def interrupted (statements : List (σ → Option (σ × ℕ))) :
    Option Interruption → List (σ → Option (σ × ℕ))
  | some (.statement k) => statements.set k fun _ => none
  | some .commit | none => statements

/-- A transaction, with the number of rows changed if it is committed. -/
def transaction (interruption : Option Interruption) (statements : List (σ → Option (σ × ℕ)))
    (s : σ) : σ × Option ℕ :=
  match runAll (interrupted statements interruption) s with
  | some (s', n) => if interruption = some .commit then (s, none) else (s', some n)
  | none => (s, none)

lemma runAll_set {k : ℕ} (hk : k < statements.length) :
    runAll (statements.set k fun _ => none) s = none := by
  induction statements generalizing k s with
  | nil => cases hk
  | cons statement statements ih =>
      cases k with
      | zero => rfl
      | succ k =>
          rw [List.set_cons_succ, runAll]
          cases statement s with
          | none => rfl
          | some r =>
              rw [Option.bind_some, ih (Nat.lt_of_succ_lt_succ hk)]
              rfl

/-- What is interrupted leaves nothing behind. -/
theorem transaction_of_hits {interruption : Interruption}
    (h : interruption.Hits statements.length) :
    transaction (some interruption) statements s = (s, none) := by
  cases interruption with
  | statement k =>
      rw [transaction, interrupted, runAll_set h]
  | commit =>
      rw [transaction]
      split
      · rw [if_pos rfl]
      · rfl

/-- What is not interrupted is its statements, all or none of them. -/
theorem transaction_of_not_hits {interruption : Option Interruption}
    (h : ∀ i ∈ interruption, ¬ i.Hits statements.length) :
    transaction interruption statements s =
      match runAll statements s with
      | some (s', n) => (s', some n)
      | none => (s, none) := by
  have hsame : interrupted statements interruption = statements ∧
      interruption ≠ some .commit := by
    match interruption with
    | none => exact ⟨rfl, nofun⟩
    | some .commit => exact absurd trivial (h _ rfl)
    | some (.statement k) =>
        have hk : ¬ k < statements.length := h _ rfl
        exact ⟨List.set_eq_of_length_le (Nat.not_lt.mp hk), nofun⟩
  rw [transaction, hsame.1]
  split
  · rw [if_neg hsame.2]
  · rfl

end Transactions
