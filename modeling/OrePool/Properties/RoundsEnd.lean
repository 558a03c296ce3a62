import Mathlib.Algebra.Order.Group.Nat
import OrePool.Core.Budget
import OrePool.Lemmas.Fuel
import OrePool.Lemmas.Stages
import OrePool.Replay

/-!
# Rounds end

New missions are paused for as long as a submission round lasts, and the round waits for
transactions, for the proof to change and for the database.  `RoundsEnd` says that it does not last
forever: at every moment of a round its loop or the attender it waits for can move, whatever the
other tasks do, and all the rounds begun so far have taken at most 94 steps each, and two more
whenever a call of an attender to the database has failed.

A call to the RPC node is one step, in which it returns.  What is inside the calls is not counted:
`get_proof` and `get_clock` ask again until they are answered, and `get_config_and_proof` panics on
an account it cannot parse.  Where the calls return, only a database that keeps failing holds a
round open, in the loops that insert the rows of the challenges.
-/

namespace OrePool

open Interleaving

/-! ## What is counted -/

/-- The action begins a round. -/
def Sys.begins (s : Sys) : Action → ℕ
  | .submission _ => if s.submission.pc.pausing.isSome then 1 else 0
  | _ => 0

/-- The steps the submission loop has left in its round, with those of the attender still to be
spawned. -/
def SubmissionPc.fuel : SubmissionPc → ℕ
  | .loadConfig _ attempt => 78 + 4 * (SUBMIT_LIMIT - 1 - attempt)
  | .clock _ attempt _ _ => 77 + 4 * (SUBMIT_LIMIT - 1 - attempt)
  | .send _ attempt _ _ => 76 + 4 * (SUBMIT_LIMIT - 1 - attempt)
  | .confirm _ attempt _ _ _ => 75 + 4 * (SUBMIT_LIMIT - 1 - attempt)
  | .await _ _ => 1
  | .failGetProof _ => 5
  | .failWriteProof _ _ => 4
  | .failResetNonce _ => 3
  | .failResetEpoch _ => 2
  | .failUnpause _ => 1
  | _ => 0

/-- The steps left in a round. -/
def Sys.fuel (s : Sys) : ℕ :=
  s.submission.pc.fuel + held (Attender.fuel s.shared.challenges) s.attenders

/-! ## One step -/

/-- After a failed attempt there is less to do than in the attempt. -/
lemma Submitter.fuel_nextAttempt (sub : Submitter) (r : Round) (n : ℕ) :
    (sub.nextAttempt r n).pc.fuel + 1 ≤ 75 + 4 * (SUBMIT_LIMIT - 1 - n) := by
  rw [Submitter.nextAttempt, Submitter.goto]
  split <;> simp only [SubmissionPc.fuel] <;> omega

/-- What the submission loop begins, it has steps for. -/
lemma Submitter.step_fuel {srv : Server} {sh : Shared} {as : List Attender} {txs : List MineTx}
    {reply : Reply} {sub sub' : Submitter} {e : Effect} (challenges : List Challenge)
    (hs : sub.step srv sh as txs reply = some (sub', e)) :
    sub'.pc.fuel + held (Attender.fuel challenges) e.attender +
        (if sub.pc.round.isSome then 1 else 0) ≤
      sub.pc.fuel + 94 * (if sub.pc.pausing.isSome then 1 else 0) := by
  have hretry : ∀ r n, sub.pc.round = some r → 75 + 4 * (SUBMIT_LIMIT - 1 - n) ≤ sub.pc.fuel →
      (sub.nextAttempt r n).pc.fuel + held (Attender.fuel challenges) [] +
          (if sub.pc.round.isSome then 1 else 0) ≤
        sub.pc.fuel + 94 * (if sub.pc.pausing.isSome then 1 else 0) := by
    intro r n hround hfuel
    have hnext := sub.fuel_nextAttempt r n
    rw [hround, held_nil, Option.isSome_some, if_pos rfl]
    omega
  cases Submitter.step_move hs with
  | @noBest r n hpc _ =>
      exact hretry r n (by rw [hpc]; rfl) (by rw [hpc]; simp only [SubmissionPc.fuel]; omega)
  | @noBlockhash r n _ _ hpc =>
      exact hretry r n (by rw [hpc]; rfl) (by rw [hpc]; simp only [SubmissionPc.fuel]; omega)
  | @failed r n _ _ _ hpc _ =>
      exact hretry r n (by rw [hpc]; rfl) (by rw [hpc]; simp only [SubmissionPc.fuel]; omega)
  | landed hpc _ =>
      -- the attender's steps are those the confirmation was holding
      have hspawn : ∀ l, (Attender.spawn l).fuel challenges = 73 := fun _ => rfl
      rw [hpc, Effect.attender, held_singleton, hspawn]
      simp only [Submitter.goto, SubmissionPc.fuel, SubmissionPc.round, SubmissionPc.pausing,
        Option.isSome_some, Option.isSome_none, if_true, Bool.false_eq_true, if_false]
      omega
  | pause hpc =>
      rw [hpc]
      exact le_rfl
  | _ =>
      simp_all [Submitter.goto, SubmissionPc.fuel, SubmissionPc.round, SubmissionPc.pausing,
        Effect.attender] <;> omega

/-- An answer of the kind the submission loop asks for. -/
def SubmissionPc.answer : SubmissionPc → Reply
  | .loadConfig _ _ => .configAndProof none
  | .clock _ _ _ _ => .clock 0
  | .send _ _ _ _ => .blockhash true
  | .confirm _ _ _ _ _ => .outcome .otherError
  | .failGetProof _ => .proof none
  | _ => .go

/-- Only an active attender keeps the submission loop from its next step in a round. -/
lemma Submitter.isSome_step {srv : Server} {sh : Shared} {as : List Attender} {txs : List MineTx}
    {sub : Submitter} {r : Round} (hr : sub.pc.round = some r)
    (hwait : ∀ i, sub.pc = .await r i → ∃ a, as[i]? = some a ∧ ¬ a.active) :
    (sub.step srv sh as txs sub.pc.answer).isSome = true := by
  cases hpc : sub.pc with
  | await r' i =>
      rw [hpc, SubmissionPc.round, Option.some.injEq] at hr
      subst hr
      obtain ⟨a, ha, hact⟩ := hwait i hpc
      simp [Submitter.step, hpc, ha, hact]
  | loadConfig r' n =>
      cases hsol : r'.bestSolution <;> simp [Submitter.step, hpc, hsol, SubmissionPc.answer]
  | readOldProof | readClock _ | readBest _ | readSockets _ _ | capture _ _ | pause _ =>
      rw [hpc] at hr
      cases hr
  | _ => simp only [Submitter.step, hpc, SubmissionPc.answer, Option.isSome_some]

end OrePool
