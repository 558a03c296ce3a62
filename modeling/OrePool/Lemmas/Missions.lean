import OrePool.Core.Allocator
import OrePool.Lemmas.Rounds

/-!
# Missions and the nonce counter

`app_nonce` is a counter in the sense of `Core/Allocator.lean`: the mission loop cuts ranges from
it, a round sets it back.  `Sys.MissionMove` lists what steps do to the loop and to the missions,
`Handed` is the allocator's invariant for the running server.
-/

namespace OrePool

open Interleaving Allocator

/-! ## Steps, as the missions see them -/

/-- Effects only the mission loop and the mission tasks have. -/
def Effect.ofMissions : Effect → Bool
  | .takeNonce => true
  | .spawnMission _ => true
  | .sendMission _ => true
  | .insertRange _ _ => true
  | _ => false

/-- The mission an effect sends. -/
def Effect.sentMission : Effect → Option Mission
  | .sendMission m => some m
  | _ => Option.none

lemma BestTask.step_ofMissions {srv : Server} {sh : Shared} {t t' : BestTask} {e : Effect}
    (h : t.step srv sh = some (t', e)) : e.ofMissions = false := by
  cases BestTask.step_move h <;> rfl

lemma Effect.not_ofMissions {e : Effect} (h : e.inRound = true) : e.ofMissions = false := by
  cases e <;> first | rfl | cases h

lemma Effect.mission_of_not_ofMissions {e : Effect} (h : e.ofMissions = false) :
    e.mission = [] := by
  cases e <;> first | rfl | cases h

/-- A step is one of the mission loop, one of a mission task, or one that leaves both alone. -/
inductive Sys.MissionMove (srv : Server) (s : Sys) (act : Action) (s' : Sys) : Prop
  | other (who : Actor) (e : Effect) (he : e.ofMissions = false)
      (hshared : s'.shared = s.shared.apply e) (hjournal : s'.journal = (who, e) :: s.journal)
      (hloop : s'.missionLoop = s.missionLoop) (hmissions : s'.missions = s.missions)
  | loop (reply : Reply) (pc : ReadyPc) (e : Effect) (hact : act = .missions reply)
      (hs : s.missionLoop.step srv s.shared reply = some (pc, e))
      (hs' : s' = { s with missionLoop := pc }.perform .missions e)
  | task (i : ℕ) (t t' : MissionTask) (e : Effect) (hact : act = .mission i)
      (ht : s.missions[i]? = some t) (hs : t.step = some (t', e))
      (hs' : s' = { s with missions := s.missions.set i t' }.perform (.mission i) e)

theorem Sys.step_missionMove {srv : Server} {s s' : Sys} {act : Action}
    (h : s.step srv act = some s') : Sys.MissionMove srv s act s' := by
  cases Sys.step_move h with
  | notify k p => exact .other _ _ rfl rfl rfl rfl (by simp [Effect.mission])
  | connect _ _ => exact .other _ _ rfl rfl rfl rfl (by simp [Effect.mission])
  | disconnect _ => exact .other _ _ rfl rfl rfl rfl (by simp [Effect.mission])
  | receive who m =>
      obtain ⟨hsh, hloop, hm, -, -, -, hj⟩ := s.spawnFor_fields (received srv.signatures who m)
      exact .other .clients .none rfl (by simp [hsh]) (by simp [hj]) (by simp [hloop])
        (by simp [hm, Effect.mission])
  | ready _ => exact .other _ _ rfl rfl rfl rfl (by simp [Effect.mission])
  | best ht hs =>
      have he := BestTask.step_ofMissions hs
      exact .other _ _ he rfl rfl rfl (by simp [Effect.mission_of_not_ofMissions he])
  | missions hs => exact .loop _ _ _ rfl hs rfl
  | mission ht hs => exact .task _ _ _ _ rfl ht hs rfl
  | submission hs =>
      have he := Effect.not_ofMissions (Submitter.step_inRound hs)
      exact .other _ _ he rfl rfl rfl (by simp [Effect.mission_of_not_ofMissions he])
  | attender ha hs =>
      have he := Effect.not_ofMissions (Attender.step_inRound hs)
      exact .other _ _ he rfl rfl rfl (by simp [Effect.mission_of_not_ofMissions he])
  | land _ _ _ _ _ => exact .other _ _ rfl rfl rfl rfl (by simp [Effect.mission])
  | account _ => exact .other _ _ rfl rfl rfl rfl (by simp [Effect.mission])

/-- A range that has been taken and not been given to a task yet. -/
def ReadyPc.pending : ReadyPc → List (ServerMessageStartMining × ℕ)
  | .readSockets msg gen _ _ => [(msg, gen)]
  | _ => []

/-- The challenge the mission loop is about to take a range for. -/
def ReadyPc.taking : ReadyPc → Option Challenge
  | .takeNonce challenge _ (_ :: _) => some challenge
  | _ => none

/-- The mission loop takes a range, gives it away or drops it, or does neither. -/
lemma ReadyPc.step_pending {srv : Server} {sh : Shared} {reply : Reply} {pc pc' : ReadyPc}
    {e : Effect} (h : pc.step srv sh reply = some (pc', e)) :
    (∃ challenge cutoff, pc.taking = some challenge ∧ pc.pending = [] ∧ e = .takeNonce ∧
      pc'.pending = [(⟨challenge, cutoff, sh.appNonce, missionEnd sh.appNonce⟩,
        sh.ghost.nonceGen)]) ∨
    (∃ m : Mission, pc.pending = [(m.msg, m.gen)] ∧ e = .spawnMission m ∧ pc'.pending = []) ∨
    (pc'.pending = [] ∧ e.mission = [] ∧ (sh.apply e).appNonce = sh.appNonce ∧
      (sh.apply e).ghost = sh.ghost) := by
  cases ReadyPc.step_move h with
  | take => exact .inl ⟨_, _, rfl, rfl, rfl, rfl⟩
  | spawn _ => exact .inr (.inl ⟨_, rfl, rfl, rfl⟩)
  | _ => exact .inr (.inr ⟨rfl, rfl, rfl, rfl⟩)

lemma Shared.apply_nonce {e : Effect} (h : e.ofMissions = false) (sh : Shared) :
    ((sh.apply e).appNonce = sh.appNonce ∧ (sh.apply e).ghost.nonceGen = sh.ghost.nonceGen) ∨
      ((sh.apply e).appNonce = 0 ∧ (sh.apply e).ghost.nonceGen = sh.ghost.nonceGen + 1) := by
  cases e <;> simp only [Effect.ofMissions, reduceCtorEq] at h <;> simp [Shared.apply]

/-! ## What has been handed out -/

/-- The missions given to tasks, oldest first. -/
def Sys.assigned (s : Sys) : List Mission := s.missions.map MissionTask.mission

/-- The messages ranges have been taken for, with the generation of the counter. -/
def Sys.handed (s : Sys) : List (ServerMessageStartMining × ℕ) :=
  s.assigned.map (fun m => (m.msg, m.gen)) ++ s.missionLoop.pending

/-- A step takes a range, sets the counter back, or does neither. -/
inductive Sys.HandedMove (s : Sys) (act : Action) (s' : Sys) : Prop
  | take (reply : Reply) (challenge : Challenge) (cutoff : Int64) (hact : act = .missions reply)
      (htaking : s.missionLoop.taking = some challenge) (hassigned : s'.assigned = s.assigned)
      (hhanded : s'.handed = s.handed ++ [(⟨challenge, cutoff, s.shared.appNonce,
        missionEnd s.shared.appNonce⟩, s.shared.ghost.nonceGen)])
      (hnonce : s'.shared.appNonce = missionEnd s.shared.appNonce)
      (hgen : s'.shared.ghost.nonceGen = s.shared.ghost.nonceGen)
  | keep (hassigned : s.assigned <+: s'.assigned) (hhanded : s'.handed.Sublist s.handed)
      (hnonce : s'.shared.appNonce = s.shared.appNonce)
      (hgen : s'.shared.ghost.nonceGen = s.shared.ghost.nonceGen)
  | reset (hassigned : s'.assigned = s.assigned) (hhanded : s'.handed = s.handed)
      (hnonce : s'.shared.appNonce = 0)
      (hgen : s'.shared.ghost.nonceGen = s.shared.ghost.nonceGen + 1)

theorem Sys.step_handedMove {srv : Server} {s s' : Sys} {act : Action}
    (h : s.step srv act = some s') : Sys.HandedMove s act s' := by
  cases Sys.step_missionMove h with
  | other who e he hsh hj hloop hm =>
      have ha : s'.assigned = s.assigned := by rw [Sys.assigned, hm, ← Sys.assigned]
      have hh : s'.handed = s.handed := by rw [Sys.handed, ha, hloop, ← Sys.handed]
      rcases Shared.apply_nonce he s.shared with ⟨hn, hg⟩ | ⟨hn, hg⟩
      · exact .keep (ha ▸ List.prefix_rfl) (hh ▸ .refl _) (hsh ▸ hn) (hsh ▸ hg)
      · exact .reset ha hh (hsh ▸ hn) (hsh ▸ hg)
  | loop reply pc e hact hs hs' =>
      subst hs'
      have hh : ∀ l, e.mission = l → ({ s with missionLoop := pc }.perform .missions e).handed =
          (s.assigned ++ l.map MissionTask.mission).map (fun m => (m.msg, m.gen)) ++
            pc.pending := by
        rintro _ rfl
        simp [Sys.handed, Sys.assigned]
      rcases ReadyPc.step_pending hs with ⟨challenge, cutoff, htak, hnil, rfl, hpend⟩ |
        ⟨m, hpend, rfl, hnil⟩ | ⟨hnil, hmis, hn, hg⟩
      · refine .take reply challenge cutoff hact htak (by simp [Sys.assigned, Effect.mission]) ?_
          rfl rfl
        rw [hh [] rfl, hpend]
        simp [Sys.handed, hnil]
      · refine .keep (by simp [Sys.assigned]) ?_ rfl rfl
        rw [hh _ rfl, hnil]
        simp [Sys.handed, hpend, Effect.mission]
      · refine .keep (by simp [Sys.assigned]) ?_ hn (congrArg Ghost.nonceGen hg)
        rw [hh [] hmis, hnil]
        simp [Sys.handed]
  | task i t t' e hact ht hs hs' =>
      subst hs'
      -- a task keeps its mission, so nothing is handed out
      obtain ⟨hm, hmis, hn, hg⟩ : t'.mission = t.mission ∧ e.mission = [] ∧
          (s.shared.apply e).appNonce = s.shared.appNonce ∧
          (s.shared.apply e).ghost = s.shared.ghost := by
        rcases MissionTask.step_effect hs with ⟨-, rfl, rfl⟩ | ⟨-, rfl, rfl⟩ <;>
          exact ⟨rfl, rfl, rfl, rfl⟩
      have ha : ({ s with missions := s.missions.set i t' }.perform (.mission i) e).assigned =
          s.assigned := by
        simp [Sys.assigned, hmis, map_set_of_eq ht hm]
      refine .keep (ha ▸ List.prefix_rfl) ?_ hn (congrArg Ghost.nonceGen hg)
      rw [Sys.handed, ha]
      exact .refl _

/-- A mission keeps its slot. -/
lemma Sys.missions_grow {srv : Server} {s s' : Sys} {act : Action}
    (h : s.step srv act = some s') {j : ℕ} {u : MissionTask} (hu : s.missions[j]? = some u) :
    ∃ u', s'.missions[j]? = some u' ∧ u'.mission = u.mission := by
  cases Sys.step_missionMove h with
  | other _ _ _ _ _ _ hm => exact ⟨u, hm ▸ hu, rfl⟩
  | loop reply pc e _ _ hs' =>
      subst hs'
      exact ⟨u, by simp [List.getElem?_append_left (List.getElem?_eq_some_iff.mp hu).1, hu], rfl⟩
  | task i t t' e _ ht hs hs' =>
      subst hs'
      rcases MissionTask.step_effect hs with ⟨-, rfl, rfl⟩ | ⟨-, rfl, rfl⟩ <;>
        simp only [Sys.perform_missions, Effect.mission, List.append_nil, slot_set ht] <;>
        split
      all_goals first
        | exact ⟨u, hu, rfl⟩
        | (rename_i hij; subst hij; rw [ht, Option.some.injEq] at hu; exact ⟨_, rfl, hu ▸ rfl⟩)

/-! ## The counter as an allocator -/

/-- The range of a message, as the allocator sees it. -/
def cutOf (x : ServerMessageStartMining × ℕ) : Cut := ⟨x.2, x.1.nonceRangeStart.toNat⟩

/-- A range taken from the counter has all its nonces below `UInt64.size`. -/
def NoOverflow (s : Sys) : Action → Prop
  | .missions _ => s.missionLoop.taking.isSome →
      s.shared.appNonce.toNat + MISSION_NONCES.toNat < UInt64.size
  | _ => True

instance : DecidableRel NoOverflow := fun s act =>
  match act with
  | .missions _ =>
      inferInstanceAs (Decidable (s.missionLoop.taking.isSome →
        s.shared.appNonce.toNat + MISSION_NONCES.toNat < UInt64.size))
  | .notify .. | .connect .. | .disconnect .. | .receive .. | .ready .. | .best .. | .attender ..
  | .mission .. | .submission .. | .land .. | .account .. => isTrue trivial

lemma missionEnd_toNat {n : UInt64} (h : n.toNat + MISSION_NONCES.toNat < UInt64.size) :
    (missionEnd n).toNat = n.toNat + MISSION_NONCES.toNat := by
  have hsize : UInt64.size = 2 ^ 64 := rfl
  rw [missionEnd, UInt64.toNat_add, Nat.mod_eq_of_lt (by omega), Nat.add_comm]

/-- The ranges handed out are laid out as an allocator lays them out, each of full width. -/
structure Handed (s : Sys) : Prop where
  laid : Laid MISSION_NONCES.toNat s.shared.appNonce.toNat s.shared.ghost.nonceGen
    (s.handed.map cutOf)
  full : ∀ x ∈ s.handed,
    x.1.nonceRangeEnd.toNat = x.1.nonceRangeStart.toNat + MISSION_NONCES.toNat

theorem Handed.step {srv : Server} {s s' : Sys} {act : Action} (hi : Handed s)
    (hc : NoOverflow s act) (hs : s.step srv act = some s') : Handed s' := by
  cases Sys.step_handedMove hs with
  | take reply challenge cutoff hact htaking _ hhanded hnonce hgen =>
      have hlt : s.shared.appNonce.toNat + MISSION_NONCES.toNat < UInt64.size := by
        rw [hact] at hc
        exact hc (by simp [htaking])
      refine ⟨?_, ?_⟩
      · rw [hhanded, hnonce, hgen, missionEnd_toNat hlt, List.map_append]
        exact hi.laid.take
      · intro x hx
        rcases List.mem_append.mp (hhanded ▸ hx) with hx | hx
        · exact hi.full x hx
        · obtain rfl := List.mem_singleton.mp hx
          exact missionEnd_toNat hlt
  | keep _ hhanded hnonce hgen =>
      refine ⟨?_, fun x hx => hi.full x (hhanded.subset hx)⟩
      rw [hnonce, hgen]
      exact hi.laid.sublist (hhanded.map _)
  | reset _ hhanded hnonce hgen =>
      refine ⟨?_, hhanded ▸ hi.full⟩
      rw [hhanded, hnonce, hgen]
      exact hi.laid.reset

theorem handed {srv : Server} {C : Sys → Action → Prop} (hC : ∀ s act, C s act → NoOverflow s act)
    {s : Sys} (h : Reach (machine srv) C s) : Handed s := by
  refine h.invariant ?_ fun s act s' _ hi hc hs => hi.step (hC s act hc) hs
  rintro _ ⟨p, rfl⟩
  exact ⟨.nil, by simp [Sys.start, Sys.handed, Sys.assigned, ReadyPc.pending]⟩

/-- Two missions of one generation of the counter have disjoint ranges. -/
theorem Handed.disjoint {s : Sys} (hi : Handed s) {i j : ℕ} {m m' : Mission} (hij : i ≠ j)
    (hm : s.assigned[i]? = some m) (hm' : s.assigned[j]? = some m') (hg : m.gen = m'.gen)
    (nonce : UInt64) : ¬ (m.nonceRange.contains nonce ∧ m'.nonceRange.contains nonce) := by
  have hin : ∀ {k : ℕ} {x : Mission}, s.assigned[k]? = some x →
      s.handed[k]? = some (x.msg, x.gen) := fun {k x} hx => by
    rw [Sys.handed, List.getElem?_append_left (by simpa using (List.getElem?_eq_some_iff.mp hx).1)]
    simp [hx]
  have hfull := hi.full _ (List.mem_of_getElem? (hin hm))
  have hfull' := hi.full _ (List.mem_of_getElem? (hin hm'))
  have := hi.laid.disjoint (c := cutOf (m.msg, m.gen)) (d := cutOf (m'.msg, m'.gen))
    (by simp [hin hm]) (by simp [hin hm']) hij hg
  simp only [cutOf] at this
  simp only [NonceRange.contains, Mission.nonceRange, Bool.and_eq_true, decide_eq_true_eq,
    UInt64.le_iff_toNat_le, UInt64.lt_iff_toNat_lt]
  dsimp only at hfull hfull'
  omega

end OrePool
