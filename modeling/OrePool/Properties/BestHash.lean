import OrePool.Lemmas.Submissions
import OrePool.Replay

/-!
# The best hash of an epoch

`epoch_hashes` keeps a map of contributions and a best hash side by side.  Entries of the map can
be overwritten downwards by a task that decided on a stale copy; the best hash only grows until
the next reset.  `BestHashKept` is what the two have to do with each other and with the inserts
since the reset, and it holds in every run (`bestHashKept`).
-/

namespace OrePool

open Interleaving

/-- **The best hash.**  It bounds every contribution; it is empty exactly at difficulty zero and
else a solution of its difficulty; and it is the maximum over the inserts since the last reset,
held by the first of them to reach it. -/
structure BestHashKept (srv : Server) (s : Sys) : Prop where
  bound : ∀ pubkey c, s.shared.epochHashes.contributions.lookup pubkey = some c →
    c.suppliedDiff ≤ s.shared.epochHashes.bestHash.difficulty
  none_iff : s.shared.epochHashes.bestHash.solution = none ↔
    s.shared.epochHashes.bestHash.difficulty = 0
  measured : ∀ solution, s.shared.epochHashes.bestHash.solution = some solution →
    srv.drillx.difficulty solution = s.shared.epochHashes.bestHash.difficulty
  maximum : s.shared.epochHashes.bestHash.difficulty =
    (s.recorded.map Submission.diff).foldr max 0
  first : ∀ solution, s.shared.epochHashes.bestHash.solution = some solution →
    ∃ newer sub older, s.recorded = newer ++ sub :: older ∧ sub.solution = solution ∧
      sub.diff = s.shared.epochHashes.bestHash.difficulty ∧ ∀ x ∈ older, x.diff < sub.diff

/-- The difficulty of a submission is that of its solution. -/
def Server.Measured (srv : Server) (sub : Submission) : Prop :=
  sub.diff = srv.drillx.difficulty sub.solution

/-- What tasks carry and what has been recorded is measured. -/
structure MeasuredFlow (srv : Server) (s : Sys) : Prop where
  carried : ∀ t ∈ s.bestTasks, ∀ sub ∈ t.pc.carrying, srv.Measured sub
  recorded : ∀ sub ∈ s.recorded, srv.Measured sub

lemma BestTask.Move.measured {srv : Server} {sh : Shared} {t t' : BestTask} {e : Effect}
    (h : BestTask.Move srv sh t t' e) (ht : ∀ sub ∈ t.pc.carrying, srv.Measured sub) :
    (∀ sub ∈ t'.pc.carrying, srv.Measured sub) ∧ ∀ sub ∈ e.inserted, srv.Measured sub := by
  cases h with
  | accept _ _ _ hsub => simp [BestPc.carrying, Effect.inserted, hsub, Server.Measured]
  | decide hpc _ _ =>
      rw [hpc] at ht
      exact ⟨ht, by simp [Effect.inserted]⟩
  | write hpc =>
      rw [hpc] at ht
      exact ⟨by simp [BestPc.carrying], ht⟩
  | refuse _ _ _ | inRange _ _ _ | socket _ _ | drop _ | discard _ _ _ =>
      simp [BestPc.carrying, Effect.inserted]

theorem MeasuredFlow.step {srv : Server} {s s' : Sys} {act : Action} (hi : MeasuredFlow srv s)
    (hs : s.step srv act = some s') : MeasuredFlow srv s' := by
  -- whatever the step, the record grows by what it inserts or starts over
  have hrec : ∀ {who e}, s'.journal = (who, e) :: s.journal →
      (∀ sub ∈ e.inserted, srv.Measured sub) → ∀ sub ∈ s'.recorded, srv.Measured sub := by
    intro who e hj hins sub hsub
    cases ho : e.opens with
    | true => simp [Sys.recorded_opens hj ho] at hsub
    | false =>
        rw [Sys.recorded_cons hj ho, List.mem_append, Option.mem_toList] at hsub
        exact hsub.elim (hins sub) (hi.recorded sub)
  cases Sys.step_taskMove hs with
  | other who e hj _ _ hins htasks =>
      refine ⟨?_, hrec hj (by simp [hins])⟩
      intro u hu sub hsub
      rcases htasks with h | ⟨addr, solution, pubkey, h, -⟩
      · exact hi.carried u (h ▸ hu) sub hsub
      · rcases List.mem_append.mp (h ▸ hu) with hu | hu
        · exact hi.carried u hu sub hsub
        · obtain rfl := List.mem_singleton.mp hu
          cases hsub
  | task i t t' e _ ht hmove hs' =>
      obtain ⟨hcar, hins⟩ := hmove.measured (hi.carried t (List.mem_of_getElem? ht))
      subst hs'
      refine ⟨?_, hrec rfl hins⟩
      intro u hu
      rcases List.mem_or_eq_of_mem_set hu with hu | rfl
      · exact hi.carried u hu
      · exact hcar

theorem measuredFlow {srv : Server} {C : Sys → Action → Prop} {s : Sys}
    (h : Reach (machine srv) C s) : MeasuredFlow srv s := by
  refine h.invariant ?_ fun s act s' _ hi _ hs => hi.step hs
  rintro _ ⟨p, rfl⟩
  exact ⟨by simp [Sys.start], by simp [Sys.start, Sys.recorded, Sys.epochJournal]⟩

/-- **The best hash is kept.**  In every run, whichever tasks insert and whoever resets. -/
theorem bestHashKept {srv : Server} {s : Sys} (h : Reach (machine srv) Any s) :
    BestHashKept srv s := by
  have heq := epochHashes_eq h
  have hfirst : ∀ solution, s.shared.epochHashes.bestHash.solution = some solution →
      ∃ newer sub older, s.recorded = newer ++ sub :: older ∧ sub.solution = solution ∧
        sub.diff = s.shared.epochHashes.bestHash.difficulty ∧ ∀ x ∈ older, x.diff < sub.diff := by
    intro solution hsol
    rw [heq] at hsol ⊢
    exact EpochHashes.best_record_first hsol
  refine ⟨?_, ?_, ?_, ?_, hfirst⟩
  · intro pubkey c hc
    obtain ⟨sub, hsub, -, rfl⟩ := recorded_of_lookup h hc
    rw [heq]
    exact EpochHashes.le_best_record hsub
  · rw [heq]
    exact EpochHashes.best_record_eq_none
  · intro solution hsol
    obtain ⟨newer, sub, older, hrec, rfl, hd, -⟩ := hfirst solution hsol
    rw [← hd, (measuredFlow h).recorded sub (by rw [hrec]; simp)]
  · rw [heq]
    exact EpochHashes.best_record_max

/-- `bestHashKept` where two solutions of one miner were inserted, the better one first. -/
theorem bestHashKept_downgraded :
    ∃ s, Reach (machine (Replay.server .unavailable)) Any s ∧
      s.shared.epochHashes.bestHash = ⟨some (Replay.solution 1 20), 20⟩ ∧
      BestHashKept (Replay.server .unavailable) s := by
  obtain ⟨s, hr, hs⟩ := exists_of_replay (Replay.server .unavailable) Any (Replay.proofAt 1 0)
    ([.connect 1 (Replay.key 1) .V1] ++ Replay.mission 0 1 ++
      Replay.solve 0 4 1 1 (Replay.solution 1 20) ++ Replay.solve 1 4 1 1 (Replay.solution 1 10) ++
      [.best 0, .best 1])
    (fun s => decide (s.shared.epochHashes.bestHash = ⟨some (Replay.solution 1 20), 20⟩ ∧
      (s.shared.epochHashes.contributions.lookup (Replay.key 1)).map
        InternalMessageContribution.suppliedDiff = some 10))
    (by decide +kernel)
  simp only [decide_eq_true_eq] at hs
  exact ⟨s, hr, hs.1, bestHashKept hr⟩

end OrePool
