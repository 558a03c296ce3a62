import OrePool.Lemmas.Epoch
import OrePool.Lemmas.Missions
import OrePool.Replay

/-!
# One nonce, one owner

No nonce is to earn hashpower under two keys, since a key may only contribute nonces of its own
range.  `NoncesDistinct` says so of the contributions in every state.

The range table that the check reads is never cleared while `app_nonce` starts over with every
epoch: a range of an earlier epoch admits nonces that are somebody else's now
(`not_noncesDistinct`).  When each inserted nonce is from a range its key was assigned in the
running epoch, nonces are distinct (`noncesDistinct`).
-/

namespace OrePool

open Interleaving

/-- **One owner.**  No two keys have the same nonce among the contributions. -/
def NoncesDistinct (s : Sys) : Prop :=
  ∀ (pubkey pubkey' : Pubkey) (c c' : InternalMessageContribution),
    s.shared.epochHashes.contributions.lookup pubkey = some c →
    s.shared.epochHashes.contributions.lookup pubkey' = some c' →
    pubkey ≠ pubkey' → c.suppliedNonce ≠ c'.suppliedNonce

/-- Mission `m` gives `pubkey` the nonce for the running epoch. -/
def Sys.Grants (s : Sys) (m : Mission) (pubkey : Pubkey) (nonce : UInt64) : Prop :=
  m.pubkey = pubkey ∧ m.gen = s.shared.ghost.epochGen ∧ m.nonceRange.contains nonce = true

instance (s : Sys) (m : Mission) (pubkey : Pubkey) (nonce : UInt64) :
    Decidable (s.Grants m pubkey nonce) :=
  inferInstanceAs (Decidable (_ ∧ _ ∧ _))

/-- The nonce about to be inserted is from a range assigned to its key in the running epoch. -/
def InsertsOwn (s : Sys) (act : Action) : Prop :=
  ∀ sub ∈ s.inserting act, ∃ m ∈ s.assigned, s.Grants m sub.pubkey sub.solution.nonce

instance : DecidableRel InsertsOwn := fun s act =>
  inferInstanceAs (Decidable (∀ sub ∈ s.inserting act, ∃ m ∈ s.assigned,
    s.Grants m sub.pubkey sub.solution.nonce))

/-- The runs in which keys contribute from their own ranges. -/
def OwnershipCondition (s : Sys) (act : Action) : Prop := NoOverflow s act ∧ InsertsOwn s act

instance : DecidableRel OwnershipCondition := fun s act =>
  inferInstanceAs (Decidable (NoOverflow s act ∧ InsertsOwn s act))

/-- Every submission recorded in the running epoch is from a range assigned in it. -/
def AllGranted (s : Sys) : Prop :=
  ∀ sub ∈ s.recorded, ∃ m ∈ s.assigned, s.Grants m sub.pubkey sub.solution.nonce

/-- Missions are never taken back. -/
lemma Sys.assigned_subset {srv : Server} {s s' : Sys} {act : Action}
    (hs : s.step srv act = some s') : s.assigned ⊆ s'.assigned := by
  cases Sys.step_handedMove hs with
  | take _ _ _ _ _ h _ _ _ => exact h ▸ List.Subset.refl _
  | keep h _ _ _ => exact h.subset
  | reset h _ _ _ => exact h ▸ List.Subset.refl _

theorem AllGranted.step {srv : Server} {s s' : Sys} {act : Action} (hi : AllGranted s)
    (hc : InsertsOwn s act) (hs : s.step srv act = some s') : AllGranted s' := by
  have hsub := Sys.assigned_subset hs
  -- as long as the epoch goes on, what was granted stays granted
  have hkeep : ∀ {sub : Submission}, s'.shared.ghost.epochGen = s.shared.ghost.epochGen →
      (∃ m ∈ s.assigned, s.Grants m sub.pubkey sub.solution.nonce) →
      ∃ m ∈ s'.assigned, s'.Grants m sub.pubkey sub.solution.nonce :=
    fun hg ⟨m, hm, hpk, hgen, hn⟩ => ⟨m, hsub hm, hpk, hgen.trans hg.symm, hn⟩
  intro x hx
  cases Sys.step_epochMove hs with
  | keep who e hj hno _ _ _ hgen =>
      rw [Sys.recorded_cons hj (Effect.not_opens hno), Effect.not_inserted hno] at hx
      exact hkeep hgen (hi x hx)
  | insert who sub hins hj _ hg =>
      rw [Sys.recorded_cons hj rfl] at hx
      rcases List.mem_cons.mp hx with rfl | hx
      · exact hkeep (congrArg Ghost.epochGen hg) (hc x hins)
      · exact hkeep (congrArg Ghost.epochGen hg) (hi x hx)
  | reset who opened stored _ hj _ _ _ =>
      rw [Sys.recorded_opens hj rfl] at hx
      cases hx

/-- **One owner.**  In every run in which keys contribute from the ranges assigned to them in the
running epoch, no nonce is contributed under two keys. -/
theorem noncesDistinct {srv : Server} {s : Sys} (h : Reach (machine srv) OwnershipCondition s) :
    NoncesDistinct s := by
  have hhanded : Handed s := handed (fun _ _ hc => hc.1) h
  have hall : AllGranted s := by
    refine h.invariant ?_ fun s act s' _ hi hc hs => hi.step hc.2 hs
    rintro _ ⟨p, rfl⟩ x hx
    cases hx
  intro pubkey pubkey' c c' hl hl' hne hnonce
  obtain ⟨sub, hsub, rfl, rfl⟩ := recorded_of_lookup h hl
  obtain ⟨sub', hsub', rfl, rfl⟩ := recorded_of_lookup h hl'
  obtain ⟨m, hm, hpk, hg, hin⟩ := hall sub hsub
  obtain ⟨m', hm', hpk', hg', hin'⟩ := hall sub' hsub'
  obtain ⟨i, hi⟩ := List.getElem?_of_mem hm
  obtain ⟨j, hj⟩ := List.getElem?_of_mem hm'
  have hij : i ≠ j := by
    rintro rfl
    rw [hi, Option.some.injEq] at hj
    exact hne (hpk ▸ hpk' ▸ congrArg Mission.pubkey hj)
  -- the two missions are of one generation, so their ranges have no nonce in common
  change sub.solution.nonce = sub'.solution.nonce at hnonce
  exact hhanded.disjoint hij hi hj (hg.trans hg'.symm) _ ⟨hin, hnonce ▸ hin'⟩

/-- Two clients contributing from their own ranges meet the condition of `noncesDistinct`. -/
theorem noncesDistinct_twoClients :
    ∃ s, Reach (machine (Replay.server .unavailable)) OwnershipCondition s ∧
      s.shared.epochHashes.contributions.entries.length = 2 ∧ NoncesDistinct s := by
  obtain ⟨s, hr, hs⟩ := exists_of_replay (Replay.server .unavailable) OwnershipCondition
    (Replay.proofAt 1 0)
    ([.connect 1 (Replay.key 1) .V1, .connect 2 (Replay.key 2) .V1] ++ Replay.mission 0 1 ++
      Replay.mission 1 2 ++ Replay.solve 0 5 1 1 (Replay.solution 1 10) ++
      Replay.solve 1 5 2 2 ⟨Vector.replicate 16 1, #v[10, 9, 61, 0, 0, 0, 0, 0]⟩)
    (fun s => decide (s.shared.epochHashes.contributions.entries.length = 2)) (by decide +kernel)
  exact ⟨s, hr, by simpa using hs, noncesDistinct hr⟩

/-- Without the condition a nonce can be contributed under two keys: the first client still has
its range of the epoch before, which is the second client's now. -/
theorem not_noncesDistinct : ¬ ∀ srv s, Reach (machine srv) Honest s → NoncesDistinct s := by
  refine not_forall_of_replay (P := fun _ => NoncesDistinct) (Replay.server .unavailable)
    (Replay.proofAt 1 0)
    (Replay.settledRound ++ [.connect 2 (Replay.key 2) .V1] ++ Replay.mission 1 2 ++
      Replay.solve 1 5 2 2 (Replay.solution 2 10) ++
      Replay.solve 2 5 1 1 (Replay.solution 2 10))
    (fun s => decide (((s.shared.epochHashes.contributions.lookup (Replay.key 1)).bind fun c =>
      (s.shared.epochHashes.contributions.lookup (Replay.key 2)).map fun c' =>
        decide (c.suppliedNonce = c'.suppliedNonce)) = some true))
    ?_ (by decide +kernel)
  intro s hs hc
  simp only [decide_eq_true_eq, Option.bind_eq_some_iff, Option.map_eq_some_iff] at hs
  obtain ⟨c, hc₁, c', hc₂, hn⟩ := hs
  exact hc _ _ c c' hc₁ hc₂ (by decide) hn

end OrePool
