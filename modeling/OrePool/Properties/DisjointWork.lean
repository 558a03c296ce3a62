import OrePool.Lemmas.Missions
import OrePool.Replay

/-!
# Disjoint work

Miners on the same challenge are to search different nonces.  `DisjointWork` says so of the
missions sent: full width, and for one challenge pairwise disjoint.

The counter the ranges are cut from is set back by every round, also by one that failed and leaves
the challenge as it was; then the first ranges are handed out again (`not_disjointWork`).  If no
range is taken for a challenge that already has ranges from before the counter's last reset, and
the counter stays off its end, the work is disjoint (`disjointWork`).
-/

namespace OrePool

open Interleaving

/-- **Disjoint work.**  Of the missions sent, each has `4_000_000` nonces, and those of two with
the same challenge have no nonce in common. -/
structure DisjointWork (s : Sys) : Prop where
  full : ∀ t ∈ s.missions, t.sent →
    t.mission.msg.nonceRangeStart < t.mission.msg.nonceRangeEnd ∧
      t.mission.msg.nonceRangeEnd.toNat = t.mission.msg.nonceRangeStart.toNat + 4000000
  disjoint : ∀ (i j : ℕ) (t u : MissionTask), i ≠ j → s.missions[i]? = some t →
    s.missions[j]? = some u → t.sent → u.sent →
    t.mission.msg.challenge = u.mission.msg.challenge →
    ∀ nonce, ¬ (t.mission.nonceRange.contains nonce ∧ u.mission.nonceRange.contains nonce)

/-- A range is taken for a challenge only if the counter has not been set back since the
challenge's first. -/
def SameGeneration (s : Sys) : Action → Prop
  | .missions _ => ∀ challenge ∈ s.missionLoop.taking, ∀ m ∈ s.assigned,
      m.msg.challenge = challenge → m.gen = s.shared.ghost.nonceGen
  | _ => True

instance : DecidableRel SameGeneration := fun s act =>
  match act with
  | .missions _ =>
      inferInstanceAs (Decidable (∀ challenge ∈ s.missionLoop.taking, ∀ m ∈ s.assigned,
        m.msg.challenge = challenge → m.gen = s.shared.ghost.nonceGen))
  | .notify .. | .connect .. | .disconnect .. | .receive .. | .ready .. | .best .. | .attender ..
  | .mission .. | .submission .. | .land .. | .account .. => isTrue trivial

/-- The runs in which the counter keeps up with the challenge. -/
def CounterCondition (s : Sys) (act : Action) : Prop := NoOverflow s act ∧ SameGeneration s act

instance : DecidableRel CounterCondition := fun s act =>
  inferInstanceAs (Decidable (NoOverflow s act ∧ SameGeneration s act))

/-- Ranges taken for one challenge are of one generation of the counter. -/
def OneGeneration (s : Sys) : Prop :=
  ∀ x ∈ s.handed, ∀ y ∈ s.handed, x.1.challenge = y.1.challenge → x.2 = y.2

lemma ReadyPc.pending_of_taking {pc : ReadyPc} {challenge : Challenge}
    (h : pc.taking = some challenge) : pc.pending = [] := by
  cases pc <;> first | rfl | cases h

theorem OneGeneration.step {srv : Server} {s s' : Sys} {act : Action} (hi : OneGeneration s)
    (hc : SameGeneration s act) (hs : s.step srv act = some s') : OneGeneration s' := by
  cases Sys.step_handedMove hs with
  | take reply challenge cutoff hact htaking _ hhanded _ _ =>
      -- the new range is of the running generation, and so are all others for its challenge
      have hold : ∀ x ∈ s.handed, x.1.challenge = challenge → x.2 = s.shared.ghost.nonceGen := by
        rw [Sys.handed, ReadyPc.pending_of_taking htaking, List.append_nil]
        intro x hx hch
        obtain ⟨m, hm, rfl⟩ := List.mem_map.mp hx
        rw [hact] at hc
        exact hc challenge htaking m hm hch
      intro x hx y hy hxy
      rcases List.mem_append.mp (hhanded ▸ hx) with hx | hx <;>
        rcases List.mem_append.mp (hhanded ▸ hy) with hy | hy
      · exact hi x hx y hy hxy
      · obtain rfl := List.mem_singleton.mp hy
        exact hold x hx hxy
      · obtain rfl := List.mem_singleton.mp hx
        exact (hold y hy hxy.symm).symm
      · obtain rfl := List.mem_singleton.mp hx
        obtain rfl := List.mem_singleton.mp hy
        rfl
  | keep _ hhanded _ _ => exact fun x hx y hy => hi x (hhanded.subset hx) y (hhanded.subset hy)
  | reset _ hhanded _ _ => exact fun x hx y hy => hi x (hhanded ▸ hx) y (hhanded ▸ hy)

/-- **Disjoint work.**  In every run in which the counter keeps up with the challenge, the
missions sent for one challenge are disjoint. -/
theorem disjointWork {srv : Server} {s : Sys} (h : Reach (machine srv) CounterCondition s) :
    DisjointWork s := by
  have hhanded : Handed s := handed (fun _ _ hc => hc.1) h
  have hone : OneGeneration s := by
    refine h.invariant ?_ fun s act s' _ hi hc hs => hi.step hc.2 hs
    rintro _ ⟨p, rfl⟩ x hx
    simp [Sys.start, Sys.handed, Sys.assigned, ReadyPc.pending] at hx
  have hin : ∀ {t : MissionTask}, t ∈ s.missions → (t.mission.msg, t.mission.gen) ∈ s.handed :=
    fun {t} ht => List.mem_append_left _
      (List.mem_map.mpr ⟨t.mission, List.mem_map_of_mem ht, rfl⟩)
  refine ⟨?_, ?_⟩
  · intro t ht _
    have hfull := hhanded.full _ (hin ht)
    have hwidth : MISSION_NONCES.toNat = 4000000 := rfl
    dsimp only at hfull
    rw [UInt64.lt_iff_toNat_lt]
    omega
  · intro i j t u hij ht hu _ _ hch
    have hg := hone _ (hin (List.mem_of_getElem? ht)) _ (hin (List.mem_of_getElem? hu)) hch
    exact hhanded.disjoint hij (by simp [Sys.assigned, ht]) (by simp [Sys.assigned, hu]) hg

/-- A mission in one epoch and two in the next meet the condition of `disjointWork`. -/
theorem disjointWork_settledRound :
    ∃ s, Reach (machine (Replay.server .unavailable)) CounterCondition s ∧
      s.missions.length = 3 ∧ DisjointWork s := by
  obtain ⟨s, hr, hs⟩ := exists_of_replay (Replay.server .unavailable) CounterCondition
    (Replay.proofAt 1 0)
    (Replay.settledRound ++ [.connect 2 (Replay.key 2) .V1] ++ Replay.mission 1 2 ++
      Replay.mission 2 1)
    (fun s => decide (s.missions.length = 3)) (by decide +kernel)
  exact ⟨s, hr, by simpa using hs, disjointWork hr⟩

/-- Without the condition two missions for one challenge can have the same range: the second
after a failed round. -/
theorem not_disjointWork : ¬ ∀ srv s, Reach (machine srv) Honest s → DisjointWork s := by
  refine not_forall_of_replay (P := fun _ => DisjointWork) (Replay.server .unavailable)
    (Replay.proofAt 1 0)
    (Replay.failedRound ++ [.connect 2 (Replay.key 2) .V1] ++ Replay.mission 1 2)
    (fun s => decide (((s.missions[0]?).bind fun t => (s.missions[1]?).map fun u =>
      decide (t.sent ∧ u.sent ∧ t.mission.msg.challenge = u.mission.msg.challenge) &&
        t.mission.nonceRange.contains 0 && u.mission.nonceRange.contains 0) = some true))
    ?_ (by decide +kernel)
  intro s hs hc
  simp only [decide_eq_true_eq, Option.bind_eq_some_iff, Option.map_eq_some_iff,
    Bool.and_eq_true] at hs
  obtain ⟨t, ht, u, hu, ⟨⟨hts, hus, hch⟩, h0⟩, h0'⟩ := hs
  exact hc.disjoint 0 1 t u (by simp) ht hu hts hus hch 0 ⟨h0, h0'⟩

end OrePool
