import Mathlib.Data.Finset.Card
import Mathlib.Data.Finset.Lattice.Lemmas
import Mathlib.Data.Finset.SDiff
import Mathlib.Data.Multiset.OrderedMonoid
import OrePool.Core.Budget
import OrePool.Lemmas.Missions
import OrePool.Replay

/-!
# Missions are asked for

A client is sent a mission because it has said that it is ready.  The ready list is a set, copied
once a round of the mission loop, and cleared client by client while other tasks add to it: a
`Ready` can come to nothing that way, but none is answered twice.  `Requested` says so: the
`StartMining` messages sent, each under the address it went to, are among the `Ready` messages
received.

The same goes for the ranges cut from `app_nonce`.  So the counter cannot run over before clients
have said 2^64 / 4,000,000 times that they are ready, and until then no range wraps around.
-/

namespace OrePool

open Interleaving

/-! ## What is counted -/

/-- The client a message says is ready. -/
def ClientMessage.readyFrom : ClientMessage → Multiset SocketAddr
  | .ready addr => {addr}
  | _ => 0

/-- The client whose `Ready` an action receives. -/
def Action.readyFrom (srv : Server) : Action → Multiset SocketAddr
  | .receive who m => (received srv.signatures who m).elim 0 ClientMessage.readyFrom
  | _ => 0

/-- The client a range is about to be taken for. -/
def ReadyPc.takingFor : ReadyPc → Multiset SocketAddr
  | .takeNonce _ _ (client :: _) => {client}
  | _ => 0

/-- The client an action takes a range for. -/
def Sys.takesFor (s : Sys) : Action → Multiset SocketAddr
  | .missions _ => s.missionLoop.takingFor
  | _ => 0

/-- The client of a mission that has not been sent yet. -/
def MissionTask.unsent (t : MissionTask) : Multiset SocketAddr :=
  if t.sent then 0 else {t.mission.addr}

/-- The client an action sends a mission to. -/
def Sys.sendsTo (s : Sys) : Action → Multiset SocketAddr
  | .mission i => (s.missions[i]?).elim 0 MissionTask.unsent
  | _ => 0

/-- The `Ready` messages received, the ranges taken and the missions sent, by client. -/
structure Requests where
  readies : Multiset SocketAddr
  taken : Multiset SocketAddr
  sent : Multiset SocketAddr

def requestObserver (srv : Server) : Observer Sys Action Requests where
  start _ := ⟨0, 0, 0⟩
  note s act n := ⟨n.readies + act.readyFrom srv, n.taken + s.takesFor act, n.sent + s.sendsTo act⟩

/-! ## The property -/

/-- **Missions are asked for.**  No client is sent more missions than it has asked for, the
counter has not been moved more often than that, and as long as there have not been too many
requests the next range does not wrap around. -/
structure Requested (s : Sys) (n : Requests) : Prop where
  sent : n.sent ≤ n.readies
  nonces : s.shared.appNonce.toNat ≤ MISSION_NONCES.toNat * n.readies.card
  ample : MISSION_NONCES.toNat * n.readies.card < UInt64.size → ∀ act, NoOverflow s act

/-! ## The mission loop -/

/-- The clients of the snapshot no range has been taken for. -/
def ReadyPc.clients : ReadyPc → List SocketAddr
  | .snapshot => []
  | .checkPaused clients => clients
  | .readProof clients => clients
  | .readClock clients _ => clients
  | .readBest clients => clients
  | .readChallenge clients _ => clients
  | .takeNonce _ _ clients => clients
  | .readSockets _ _ _ clients => clients
  | .removeReady _ _ _ clients => clients

/-- The client a range has been taken for and that is still to be taken off the ready list. -/
def ReadyPc.servicing : ReadyPc → Finset SocketAddr
  | .readSockets _ _ client _ => {client}
  | .removeReady _ _ client _ => {client}
  | _ => ∅

/-- The snapshot names nobody twice, and nobody who is being served. -/
structure ReadyPc.Distinct (pc : ReadyPc) : Prop where
  nodup : pc.clients.Nodup
  served : ∀ addr ∈ pc.servicing, addr ∉ pc.clients

lemma ReadyPc.Distinct.step {srv : Server} {sh : Shared} {reply : Reply} {pc pc' : ReadyPc}
    {e : Effect} (hi : pc.Distinct) (h : pc.step srv sh reply = some (pc', e)) : pc'.Distinct := by
  have hplain : ∀ {pc : ReadyPc}, pc.clients.Nodup → pc.servicing = ∅ → pc.Distinct := by
    intro pc hnodup hserving
    refine ⟨hnodup, ?_⟩
    rw [hserving]
    simp
  revert h
  fun_cases ReadyPc.step srv sh reply pc <;> intro h <;>
    simp only [Option.some.injEq, Prod.mk.injEq, reduceCtorEq] at h <;> obtain ⟨rfl, rfl⟩ := h
  case case1 hclients => exact hplain hclients.1 rfl
  case case5 | case10 | case13 => exact hplain List.nodup_nil rfl
  case case14 =>
    obtain ⟨hnot, hnodup⟩ := List.nodup_cons.mp hi.nodup
    refine ⟨hnodup, ?_⟩
    intro addr haddr
    rw [Finset.mem_singleton.mp haddr]
    exact hnot
  case case15 | case16 => exact ⟨hi.nodup, hi.served⟩
  all_goals exact hplain hi.nodup rfl

theorem distinct {srv : Server} {C : Sys → Action → Prop} {s : Sys}
    (h : Reach (machine srv) C s) : s.missionLoop.Distinct := by
  refine h.invariant (I := fun s => s.missionLoop.Distinct) ?_ ?_
  · rintro _ ⟨p, rfl⟩
    exact ⟨List.nodup_nil, by simp [Sys.start, ReadyPc.servicing]⟩
  · intro s act s' _ hi _ hs
    cases Sys.step_missionMove hs with
    | other _ _ _ _ _ hloop _ => exact hloop ▸ hi
    | loop reply pc e _ hstep hs' => exact hs' ▸ hi.step hstep
    | task _ _ _ _ _ _ _ hs' => exact hs' ▸ hi

/-! ## Steps, as the ready list sees them -/

/-- Effects on the ready list. -/
def Effect.ofReady : Effect → Bool
  | .insertReady _ => true
  | .removeReady _ => true
  | _ => false

lemma Shared.apply_readyClients {e : Effect} (h : e.ofReady = false) (sh : Shared) :
    (sh.apply e).readyClients = sh.readyClients := by
  cases e <;> first | rfl | cases h

lemma Effect.not_ofReady {e : Effect} (h : e.inRound = true) : e.ofReady = false := by
  cases e <;> first | rfl | cases h

/-- A `Ready` comes in, its task enters the client, the mission loop moves, or none of this. -/
inductive Sys.RequestMove (srv : Server) (s : Sys) (act : Action) (s' : Sys) : Prop
  | other (hfrom : act.readyFrom srv = 0) (hfor : s.takesFor act = 0)
      (htasks : s'.readyTasks = s.readyTasks)
      (hready : s'.shared.readyClients = s.shared.readyClients)
      (hloop : s'.missionLoop = s.missionLoop)
  | came (addr : SocketAddr) (hfrom : act.readyFrom srv = {addr}) (hfor : s.takesFor act = 0)
      (htasks : s'.readyTasks = s.readyTasks ++ [some addr])
      (hready : s'.shared.readyClients = s.shared.readyClients)
      (hloop : s'.missionLoop = s.missionLoop)
  | entered (i : ℕ) (addr : SocketAddr) (hfrom : act.readyFrom srv = 0) (hfor : s.takesFor act = 0)
      (ht : s.readyTasks[i]? = some (some addr)) (htasks : s'.readyTasks = s.readyTasks.set i none)
      (hready : s'.shared.readyClients = insert addr s.shared.readyClients)
      (hloop : s'.missionLoop = s.missionLoop)
  | loop (reply : Reply) (pc : ReadyPc) (e : Effect) (hact : act = .missions reply)
      (hmove : ReadyPc.Move srv s.shared reply s.missionLoop pc e)
      (htasks : s'.readyTasks = s.readyTasks)
      (hready : s'.shared.readyClients = (s.shared.apply e).readyClients)
      (hloop : s'.missionLoop = pc)

theorem Sys.step_requestMove {srv : Server} {s s' : Sys} {act : Action}
    (h : s.step srv act = some s') : Sys.RequestMove srv s act s' := by
  cases Sys.step_move h with
  | receive who m =>
      rcases hm : received srv.signatures who m with _ | msg
      · exact .other (by simp [Action.readyFrom, hm]) rfl rfl rfl rfl
      · cases msg with
        | ready addr =>
            refine .came addr ?_ rfl rfl rfl rfl
            simp [Action.readyFrom, ClientMessage.readyFrom, hm]
        | mining _ | pong _ | bestSolution _ _ _ =>
            exact .other (by simp [Action.readyFrom, ClientMessage.readyFrom, hm]) rfl rfl rfl rfl
  | ready ht => exact .entered _ _ rfl rfl ht rfl rfl rfl
  | missions hs => exact .loop _ _ _ rfl (ReadyPc.step_move hs) rfl rfl rfl
  | best ht hs =>
      refine .other rfl rfl rfl (Shared.apply_readyClients ?_ _) rfl
      cases BestTask.step_move hs <;> rfl
  | mission ht hs =>
      refine .other rfl rfl rfl (Shared.apply_readyClients ?_ _) rfl
      rcases MissionTask.step_effect hs with ⟨-, -, rfl⟩ | ⟨-, -, rfl⟩ <;> rfl
  | submission hs =>
      exact .other rfl rfl rfl
        (Shared.apply_readyClients (Effect.not_ofReady (Submitter.step_inRound hs)) _) rfl
  | attender ha hs =>
      exact .other rfl rfl rfl
        (Shared.apply_readyClients (Effect.not_ofReady (Attender.step_inRound hs)) _) rfl
  | notify _ _ | connect _ _ | disconnect _ | land _ _ _ _ _ | account _ =>
      exact .other rfl rfl rfl rfl rfl

/-! ## From requests to ranges -/

/-- The clients a range may still be taken for. -/
def Sys.owed (s : Sys) : Finset SocketAddr :=
  (s.shared.readyClients ∪ s.missionLoop.clients.toFinset) \ s.missionLoop.servicing

/-- The client of a `Ready` task that has not entered it yet. -/
def entering : Option SocketAddr → Multiset SocketAddr
  | some addr => {addr}
  | none => 0

/-- One more element is one more to count. -/
lemma val_le_add_of_subset_insert {α : Type} [DecidableEq α] {A B : Finset α} {a : α}
    (h : A ⊆ insert a B) : A.val ≤ B.val + {a} := by
  rw [Multiset.add_comm, Multiset.singleton_add]
  refine (Finset.val_le_iff.mpr h).trans ?_
  rw [Finset.insert_val]
  exact Multiset.ndinsert_le.mpr ⟨Multiset.le_cons_self _ _, Multiset.mem_cons_self _ _⟩

/-- One element less is one less to count. -/
lemma val_add_le_of_subset_erase {α : Type} [DecidableEq α] {A B : Finset α} {a : α} (ha : a ∈ A)
    (h : B ⊆ A.erase a) : B.val + {a} ≤ A.val := by
  rw [Multiset.add_comm, Multiset.singleton_add]
  have hle : B.val ≤ A.val.erase a := by simpa using Finset.val_le_iff.mpr h
  exact (Multiset.cons_le_cons a hle).trans_eq (Multiset.cons_erase ha)

/-- The mission loop keeps within the ready list and its snapshot. -/
lemma ReadyPc.Move.owed {srv : Server} {reply : Reply} {s s' : Sys} {e : Effect}
    (hi : s.missionLoop.Distinct)
    (hmove : ReadyPc.Move srv s.shared reply s.missionLoop s'.missionLoop e)
    (hready : s'.shared.readyClients = (s.shared.apply e).readyClients) :
    s'.owed.val + s.missionLoop.takingFor ≤ s.owed.val := by
  have hshrink : s.missionLoop.takingFor = 0 → s'.owed ⊆ s.owed →
      s'.owed.val + s.missionLoop.takingFor ≤ s.owed.val := by
    intro hnone hsub
    rw [hnone, add_zero]
    exact Finset.val_le_iff.mpr hsub
  unfold Sys.owed at hshrink ⊢
  rw [hready] at hshrink ⊢
  generalize hpc : s.missionLoop = pc at hi hmove hshrink ⊢
  generalize hpc' : s'.missionLoop = pc' at hmove hshrink ⊢
  cases hmove with
  | snapshot _ hclients =>
      refine hshrink rfl ?_
      simp [ReadyPc.clients, ReadyPc.servicing, hclients, Shared.apply]
  | take =>
      rename_i challenge cutoff client clients
      refine val_add_le_of_subset_erase (by simp [ReadyPc.clients, ReadyPc.servicing]) ?_
      intro addr haddr
      simp only [ReadyPc.clients, ReadyPc.servicing, Shared.apply, Finset.mem_sdiff,
        Finset.mem_union, List.mem_toFinset, Finset.mem_singleton, Finset.mem_erase,
        List.mem_cons, Finset.notMem_empty, not_false_eq_true, and_true] at haddr ⊢
      exact ⟨haddr.2, haddr.1.imp id .inr⟩
  | remove =>
      rename_i challenge cutoff client clients
      refine hshrink rfl ?_
      have hnot := hi.served client (Finset.mem_singleton_self client)
      intro addr haddr
      simp only [ReadyPc.clients, ReadyPc.servicing, Shared.apply, Finset.mem_sdiff,
        Finset.mem_union, List.mem_toFinset, Finset.mem_singleton, Finset.mem_erase,
        Finset.notMem_empty, not_false_eq_true, and_true] at haddr hnot ⊢
      rcases haddr with ⟨hne, hmem⟩ | hmem
      · exact ⟨.inl hmem, hne⟩
      · exact ⟨.inr hmem, fun h => hnot (h ▸ hmem)⟩
  | spawn _ | gone _ =>
      exact hshrink rfl (by simp [ReadyPc.clients, ReadyPc.servicing, Shared.apply])
  | go _ _ | rest _ | proof | late _ _ | early _ _ | solved _ | unsolved _ | challenge | done =>
      refine hshrink rfl ?_
      simp [ReadyPc.clients, ReadyPc.servicing, Shared.apply]

/-- Every range is for a `Ready`. -/
def readyBudget (srv : Server) : Budget (machine srv) Any (Multiset SocketAddr) where
  holds s := held entering s.readyTasks + s.owed.val
  gain _ act := act.readyFrom srv
  spend := Sys.takesFor
  init := by
    rintro _ ⟨p, rfl⟩
    exact le_rfl
  step s act s' hr _ hs := by
    cases Sys.step_requestMove hs with
    | other hfrom hfor htasks hready hloop =>
        rw [hfrom, hfor, htasks, Sys.owed, hready, hloop]
        exact le_rfl
    | came addr hfrom hfor htasks hready hloop =>
        rw [hfrom, hfor, htasks, Sys.owed, hready, hloop, held_append, held_singleton, add_zero,
          add_right_comm]
        exact le_rfl
    | entered i addr hfrom hfor ht htasks hready hloop =>
        have hentering : held entering s'.readyTasks + {addr} = held entering s.readyTasks := by
          rw [htasks]
          exact (held_set ht).trans (add_zero _)
        have howed : s'.owed.val ≤ s.owed.val + {addr} := by
          refine val_le_add_of_subset_insert ?_
          intro x hx
          simp only [Sys.owed, hready, hloop, Finset.mem_sdiff, Finset.mem_union,
            Finset.mem_insert] at hx ⊢
          tauto
        rw [hfrom, hfor, add_zero, add_zero, ← hentering, add_assoc,
          add_comm ({addr} : Multiset SocketAddr)]
        gcongr
    | loop reply pc e hact hmove htasks hready hloop =>
        subst hact
        rw [← hloop] at hmove
        have howed := hmove.owed (distinct hr) hready
        show held entering s'.readyTasks + s'.owed.val + s.missionLoop.takingFor ≤
          held entering s.readyTasks + s.owed.val + 0
        rw [htasks, add_zero, add_assoc]
        gcongr

/-! ## From ranges to messages -/

/-- The client a range has been taken for and that no mission has been given to a task for. -/
def ReadyPc.spawning : ReadyPc → Multiset SocketAddr
  | .readSockets _ _ client _ => {client}
  | _ => 0

/-- The mission loop spawns at most one mission for a range. -/
lemma ReadyPc.Move.spawning {srv : Server} {sh : Shared} {reply : Reply} {pc pc' : ReadyPc}
    {e : Effect} (h : ReadyPc.Move srv sh reply pc pc' e) :
    pc'.spawning + held MissionTask.unsent e.mission ≤ pc.spawning + pc.takingFor := by
  cases h with
  | spawn _ => simp [ReadyPc.spawning, ReadyPc.takingFor, Effect.mission, held, MissionTask.unsent,
      MissionTask.sent]
  | _ => simp [ReadyPc.spawning, ReadyPc.takingFor, Effect.mission]

/-- A mission task sends its message once. -/
lemma MissionTask.step_unsent {t t' : MissionTask} {e : Effect} (h : t.step = some (t', e)) :
    t'.unsent = 0 ∧ e.mission = [] := by
  rcases MissionTask.step_effect h with ⟨-, rfl, rfl⟩ | ⟨-, rfl, rfl⟩ <;>
    exact ⟨by simp [MissionTask.unsent, MissionTask.sent], rfl⟩

/-- Every message is for a range. -/
def sendBudget (srv : Server) : Budget (machine srv) Any (Multiset SocketAddr) where
  holds s := s.missionLoop.spawning + held MissionTask.unsent s.missions
  gain := Sys.takesFor
  spend := Sys.sendsTo
  init := by
    rintro _ ⟨p, rfl⟩
    exact le_rfl
  step s act s' _ _ hs := by
    -- a step that neither the mission loop nor a mission task takes
    have hquiet : s.sendsTo act = 0 → s'.missionLoop = s.missionLoop → s'.missions = s.missions →
        s'.missionLoop.spawning + held MissionTask.unsent s'.missions + s.sendsTo act ≤
          s.missionLoop.spawning + held MissionTask.unsent s.missions + s.takesFor act := by
      intro hno hloop hmissions
      rw [hno, hloop, hmissions, add_zero]
      exact Multiset.le_add_right _ _
    cases Sys.step_move hs with
    | @missions reply pc e hstep =>
        have hspawning := (ReadyPc.step_move hstep).spawning
        show pc.spawning + held MissionTask.unsent (s.missions ++ e.mission) + 0 ≤
          s.missionLoop.spawning + held MissionTask.unsent s.missions + s.missionLoop.takingFor
        rw [add_zero, held_append, add_left_comm, add_right_comm, add_comm]
        gcongr
    | @mission i t t' e ht hstep =>
        obtain ⟨hsent, hmission⟩ := MissionTask.step_unsent hstep
        have hheld : held MissionTask.unsent (s.missions.set i t') + t.unsent =
            held MissionTask.unsent s.missions := by
          rw [held_set ht, hsent, add_zero]
        have hsends : s.sendsTo (.mission i) = t.unsent := by rw [Sys.sendsTo, ht]; rfl
        rw [Sys.perform_missionLoop, Sys.perform_missions, hmission, List.append_nil, hsends,
          add_assoc, hheld]
        exact Multiset.le_add_right _ _
    | receive who m =>
        obtain ⟨-, hloop, hmissions, -⟩ := s.spawnFor_fields (received srv.signatures who m)
        exact hquiet rfl hloop ((List.append_nil _).trans hmissions)
    | best ht hstep =>
        exact hquiet rfl rfl
          (by simp [Effect.mission_of_not_ofMissions (BestTask.step_ofMissions hstep)])
    | submission hstep =>
        exact hquiet rfl rfl (by simp [Effect.mission_of_not_ofMissions
          (Effect.not_ofMissions (Submitter.step_inRound hstep))])
    | attender ha hstep =>
        exact hquiet rfl rfl (by simp [Effect.mission_of_not_ofMissions
          (Effect.not_ofMissions (Attender.step_inRound hstep))])
    | notify _ _ | connect _ _ | disconnect _ | ready _ | land _ _ _ _ _ | account _ =>
        exact hquiet rfl rfl (List.append_nil _)

/-! ## The counter -/

/-- The counter is moved by one range at a time. -/
lemma Sys.step_appNonce {srv : Server} {s s' : Sys} {act : Action}
    (hs : s.step srv act = some s') :
    s'.shared.appNonce.toNat ≤
      s.shared.appNonce.toNat + MISSION_NONCES.toNat * (s.takesFor act).card := by
  cases Sys.step_handedMove hs with
  | take reply challenge cutoff hact htaking _ _ hnonce _ =>
      have hone : (s.takesFor act).card = 1 := by
        rw [hact]
        show s.missionLoop.takingFor.card = 1
        cases hpc : s.missionLoop with
        | takeNonce challenge cutoff clients =>
            cases clients with
            | nil => simp [hpc, ReadyPc.taking] at htaking
            | cons client clients => rfl
        | _ => simp [hpc, ReadyPc.taking] at htaking
      rw [hnonce, hone, mul_one, missionEnd, UInt64.toNat_add, Nat.add_comm]
      exact Nat.mod_le _ _
  | keep _ _ hnonce _ =>
      rw [hnonce]
      exact Nat.le_add_right _ _
  | reset _ _ hnonce _ =>
      rw [hnonce]
      exact Nat.zero_le _

/-- A client a range is about to be taken for is still owed it. -/
lemma Sys.owed_of_taking {s : Sys} (h : s.missionLoop.taking.isSome) : 1 ≤ s.owed.card := by
  cases hpc : s.missionLoop with
  | takeNonce challenge cutoff clients =>
      cases clients with
      | nil => simp [hpc, ReadyPc.taking] at h
      | cons client clients =>
          have hmem : client ∈ s.owed := by
            simp [Sys.owed, hpc, ReadyPc.clients, ReadyPc.servicing]
          exact Finset.card_pos.mpr ⟨client, hmem⟩
  | _ => simp [hpc, ReadyPc.taking] at h

/-! ## Runs -/

section Runs

variable {srv : Server} {C : Sys × Requests → Action → Prop} {x : Sys × Requests}

lemma sums_readies : (requestObserver srv).Sums (readyBudget srv).gain Requests.readies :=
  ⟨fun _ => rfl, fun _ _ _ => rfl⟩

lemma sums_taken : (requestObserver srv).Sums Sys.takesFor Requests.taken :=
  ⟨fun _ => rfl, fun _ _ _ => rfl⟩

lemma sums_sent : (requestObserver srv).Sums Sys.sendsTo Requests.sent :=
  ⟨fun _ => rfl, fun _ _ _ => rfl⟩

theorem appNonce_le (h : Reach ((machine srv).observe (requestObserver srv)) C x) :
    x.1.shared.appNonce.toNat ≤ MISSION_NONCES.toNat * x.2.taken.card := by
  refine h.observed_invariant
    (I := fun s n => s.shared.appNonce.toNat ≤ MISSION_NONCES.toNat * n.taken.card) ?_ ?_
  · rintro _ ⟨p, rfl⟩
    exact Nat.zero_le _
  · intro s n act s' _ hi _ hs
    have hstep := Sys.step_appNonce hs
    show _ ≤ MISSION_NONCES.toNat * (n.taken + s.takesFor act).card
    rw [Multiset.card_add, Nat.mul_add]
    omega

/-- **Missions are asked for.**  In every run no client is sent more missions than it has asked
for, and the nonce counter cannot run over before a great many requests. -/
theorem requested (h : Reach ((machine srv).observe (requestObserver srv)) C x) :
    Requested x.1 x.2 := by
  have htaken := (readyBudget srv).covered (O := requestObserver srv) sums_taken sums_readies
    (fun _ _ _ => trivial) h
  have hsent := ((readyBudget srv).trans (sendBudget srv) rfl).covered (O := requestObserver srv)
    sums_sent sums_readies (fun _ _ _ => trivial) h
  have hcard := Multiset.card_le_card htaken
  have hnonce := appNonce_le h
  rw [Multiset.card_add] at hcard
  refine ⟨(Multiset.le_add_left _ _).trans hsent, ?_, ?_⟩
  · exact hnonce.trans (Nat.mul_le_mul_left _ (by omega))
  · intro hfew act
    cases act with
    | missions reply =>
        intro htaking
        have howed := x.1.owed_of_taking htaking
        have hholds : ((readyBudget srv).holds x.1).card =
            (held entering x.1.readyTasks).card + x.1.owed.card := Multiset.card_add _ _
        have := Nat.mul_le_mul_left MISSION_NONCES.toNat
          (show x.2.taken.card + 1 ≤ x.2.readies.card by omega)
        rw [Nat.mul_add, Nat.mul_one] at this
        omega
    | _ => trivial

end Runs

/-- A client asks twice before it is served and gets one mission. -/
theorem requested_askedTwice :
    ∃ x, Reach ((machine (Replay.server .unavailable)).observe
        (requestObserver (Replay.server .unavailable))) Any x ∧
      (x.2.readies = {1, 1} ∧ x.2.sent = {1}) ∧ Requested x.1 x.2 := by
  obtain ⟨x, hr, hx⟩ := exists_of_replayObserved (Replay.server .unavailable)
    (requestObserver (Replay.server .unavailable)) Any (Replay.proofAt 1 0)
    ([.connect 1 (Replay.key 1) .V1, .receive 1 (.binary [0]), .ready 0] ++
      [.receive 1 (.binary [0]), .ready 1, .missions (.order [1]), .missions .go, .missions .go,
        .missions (.clock 0), .missions .go, .missions .go, .missions .go, .missions .go,
        .missions .go, .mission 0, .mission 0])
    (fun x => decide (x.2.readies = {1, 1} ∧ x.2.sent = {1})) (by decide +kernel)
  exact ⟨x, hr, by simpa only [decide_eq_true_eq] using hx, requested hr⟩

end OrePool
