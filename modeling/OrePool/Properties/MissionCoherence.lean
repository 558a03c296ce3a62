import OrePool.Lemmas.Missions
import OrePool.Replay

/-!
# One proof per mission

A mission carries a challenge and a cutoff.  `MissionsCoherent` says that both come from one
proof: the cutoff is what is left, at the clock read for the mission, of the time for the proof
whose challenge is sent.

The mission loop reads the tracked proof twice, for the cutoff before it waits for the clock and
for the challenge after it, and whoever writes the proof in between makes the mission a mixture
(`not_missionsCoherent`).  When the two readings agree on the challenge, or come to the same
cutoff, there is none (`missionsCoherent`).
-/

namespace OrePool

open Interleaving

/-! ## What is observed -/

/-- What the mission loop has read for a mission: the proof for the cutoff, the clock, and the
proof for the challenge. -/
structure Reading where
  cutoffProof : Proof
  clock : Int64
  challengeProof : Proof
  deriving DecidableEq

/-- The readings of the iteration under way, and those of the missions scheduled, oldest
first. -/
structure Readings where
  current : Reading
  scheduled : List Reading

/-- Notes what the mission loop reads. -/
def missionObserver : Observer Sys Action Readings where
  start s := ⟨⟨s.shared.appProof, 0, s.shared.appProof⟩, []⟩
  note
    | s, .missions reply, n =>
        match s.missionLoop, reply with
        | .readClock _ proof, .clock unixTimestamp =>
            { n with current := ⟨proof, unixTimestamp, n.current.challengeProof⟩ }
        | .readChallenge _ _, _ =>
            { n with current := { n.current with challengeProof := s.shared.appProof } }
        | .readSockets _ _ client _, _ =>
            if (s.shared.sockets.lookup client).isSome then
              { n with scheduled := n.scheduled ++ [n.current] }
            else
              n
        | _, _ => n
    | _, _, n => n

/-! ## The property -/

/-- `max(0, last_hash_at + 60 + risk_time - buffer_time - clock)`. -/
def Args.missionCutoff (args : Args) (proof : Proof) (clock : Int64) : Int64 :=
  max 0 (proof.lastHashAt + 60 + args.riskTime.toInt64 - args.bufferTime.toInt64 - clock)

/-- Challenge and cutoff come from one of the proofs read. -/
def Reading.Fits (args : Args) (r : Reading) (challenge : Challenge) (cutoff : Int64) : Prop :=
  ∃ p, (p = r.cutoffProof ∨ p = r.challengeProof) ∧ challenge = p.challenge ∧
    cutoff = args.missionCutoff p r.clock

/-- **Coherence.**  Every mission sent has its challenge and its cutoff from one proof. -/
def MissionsCoherent (srv : Server) (s : Sys) (n : Readings) : Prop :=
  ∀ i m, (Actor.mission i, Effect.sendMission m) ∈ s.journal →
    ∃ r, n.scheduled[i]? = some r ∧ r.Fits srv.args m.msg.challenge m.msg.cutoff

/-- The mission loop is about to read the proof for the challenge. -/
def ReadyPc.atChallenge : ReadyPc → Bool
  | .readChallenge _ _ => true
  | _ => false

/-- The proof read for the challenge has the challenge of the one read for the cutoff, or would
have come to the same cutoff. -/
def ReadingsAgree (srv : Server) (x : Sys × Readings) : Action → Prop
  | .missions _ => x.1.missionLoop.atChallenge = true →
      x.1.shared.appProof.challenge = x.2.current.cutoffProof.challenge ∨
        srv.args.missionCutoff x.1.shared.appProof x.2.current.clock =
          srv.args.missionCutoff x.2.current.cutoffProof x.2.current.clock
  | _ => True

instance (srv : Server) : DecidableRel (ReadingsAgree srv) := fun x act =>
  match act with
  | .missions _ =>
      inferInstanceAs (Decidable (x.1.missionLoop.atChallenge = true → _ ∨ _))
  | .notify .. | .connect .. | .disconnect .. | .receive .. | .ready .. | .best .. | .mission ..
  | .submission .. | .attender .. | .land .. | .account .. => isTrue trivial

/-! ## The cutoff -/

/-- The cutoff sent is the one computed, or zero where that is negative. -/
lemma Args.missionCutoff_eq (args : Args) (proof : Proof) (clock : Int64) :
    args.missionCutoff proof clock =
      if args.cutoff proof clock ≤ 0 then 0 else args.cutoff proof clock := by
  have hmax : ∀ a : Int64, max 0 a = if 0 ≤ a then a else 0 := fun _ => rfl
  have hcut : args.cutoff proof clock =
      proof.lastHashAt + 60 + args.riskTime.toInt64 - args.bufferTime.toInt64 - clock := by
    rw [Args.cutoff]
    split
    · rfl
    · rename_i hrisk
      have hzero : args.riskTime = 0 := by grind
      rw [hzero, show (0 : UInt64).toInt64 = 0 from rfl, Int64.add_zero]
      rfl
  rw [Args.missionCutoff, ← hcut, hmax]
  split <;> split
  · rename_i h₁ h₂
    exact Int64.le_antisymm h₂ h₁
  · rfl
  · rfl
  · rename_i h₁ h₂
    exact absurd (Std.le_of_not_ge h₂) h₁

/-! ## The invariant -/

/-- The challenge and the cutoff fixed for the clients still to be served. -/
def ReadyPc.message : ReadyPc → Option (Challenge × Int64)
  | .takeNonce challenge cutoff _ => some (challenge, cutoff)
  | .readSockets msg _ _ _ => some (msg.challenge, msg.cutoff)
  | .removeReady challenge cutoff _ _ => some (challenge, cutoff)
  | _ => none

/-- The cutoff fixed before the challenge is read. -/
def ReadyPc.cutoff : ReadyPc → Option Int64
  | .readBest _ => some 0
  | .readChallenge _ cutoff => some cutoff
  | _ => none

/-- What the mission loop and the missions have goes back to the readings noted. -/
structure Noted (srv : Server) (s : Sys) (n : Readings) : Prop where
  cutoff : ∀ cutoff ∈ s.missionLoop.cutoff,
    cutoff = srv.args.missionCutoff n.current.cutoffProof n.current.clock
  message : ∀ msg ∈ s.missionLoop.message, n.current.Fits srv.args msg.1 msg.2
  length : n.scheduled.length = s.assigned.length
  missions : ∀ (i : ℕ) (m : Mission), s.assigned[i]? = some m →
    ∃ r, n.scheduled[i]? = some r ∧ r.Fits srv.args m.msg.challenge m.msg.cutoff
  sent : ∀ i m, (Actor.mission i, Effect.sendMission m) ∈ s.journal → s.assigned[i]? = some m

lemma missionObserver_note {s : Sys} {act : Action} (h : ∀ reply, act ≠ .missions reply)
    (n : Readings) : missionObserver.note s act n = n := by
  cases act with
  | missions reply => exact absurd rfl (h reply)
  | _ => rfl

/-- What the mission loop fixes goes back to its readings. -/
lemma Noted.loop {srv : Server} {s : Sys} {n : Readings} {reply : Reply} {pc : ReadyPc}
    {e : Effect} (hi : Noted srv s n) (hc : ReadingsAgree srv (s, n) (.missions reply))
    (h : ReadyPc.Move srv s.shared reply s.missionLoop pc e) :
    (∀ cutoff ∈ pc.cutoff, cutoff =
      srv.args.missionCutoff (missionObserver.note s (.missions reply) n).current.cutoffProof
        (missionObserver.note s (.missions reply) n).current.clock) ∧
    ∀ msg ∈ pc.message,
      (missionObserver.note s (.missions reply) n).current.Fits srv.args msg.1 msg.2 := by
  have hmsg := hi.message
  have hcut := hi.cutoff
  cases hpc : s.missionLoop <;> rw [hpc] at h hmsg hcut <;> cases h
  case readClock.late hreply hlate =>
    refine ⟨?_, nofun⟩
    rintro _ ⟨⟩
    simp [missionObserver, hpc, hreply, Args.missionCutoff_eq, hlate]
  case readClock.early hreply hearly =>
    refine ⟨?_, nofun⟩
    rintro _ ⟨⟩
    simp [missionObserver, hpc, hreply, Args.missionCutoff_eq, hearly]
  case readBest.unsolved =>
    refine ⟨?_, nofun⟩
    rintro _ ⟨⟩
    simpa [missionObserver, hpc] using hcut 0 rfl
  case readChallenge.challenge clients cutoff =>
    refine ⟨nofun, ?_⟩
    rintro _ ⟨⟩
    -- the second reading: the message takes its challenge and keeps the cutoff of the first
    rcases hc (by rw [hpc]; rfl) with hchal | hsame
    · exact ⟨_, .inl rfl, by simpa [missionObserver, hpc] using hchal,
        by simpa [missionObserver, hpc] using hcut cutoff rfl⟩
    · exact ⟨_, .inr rfl, by simp [missionObserver, hpc],
        by simpa [missionObserver, hpc, hsame] using hcut cutoff rfl⟩
  case takeNonce.take | removeReady.remove =>
    refine ⟨nofun, ?_⟩
    rintro _ ⟨⟩
    simpa [missionObserver, hpc] using hmsg _ rfl
  case readSockets.spawn hsender | readSockets.gone hsender =>
    refine ⟨nofun, ?_⟩
    rintro _ ⟨⟩
    simpa [missionObserver, hpc, hsender] using hmsg _ rfl
  all_goals exact ⟨nofun, nofun⟩

/-- A mission is scheduled with the message fixed, and its readings are noted. -/
lemma ReadyPc.Move.noted {srv : Server} {s : Sys} {reply : Reply} {pc : ReadyPc} {e : Effect}
    (h : ReadyPc.Move srv s.shared reply s.missionLoop pc e) (n : Readings) :
    (∃ m, e.mission = [⟨m, .send⟩] ∧ (m.msg.challenge, m.msg.cutoff) ∈ s.missionLoop.message ∧
      (missionObserver.note s (.missions reply) n).scheduled = n.scheduled ++ [n.current]) ∨
    e.mission = [] ∧ (missionObserver.note s (.missions reply) n).scheduled = n.scheduled := by
  cases hpc : s.missionLoop <;> rw [hpc] at h <;> cases h
  case readSockets.spawn hsender =>
    exact .inl ⟨_, rfl, rfl, by simp [missionObserver, hpc, hsender]⟩
  case readSockets.gone hsender => exact .inr ⟨rfl, by simp [missionObserver, hpc, hsender]⟩
  case readClock.late hreply _ | readClock.early hreply _ =>
    exact .inr ⟨rfl, by simp [missionObserver, hpc, hreply]⟩
  all_goals exact .inr ⟨rfl, by simp [missionObserver, hpc]⟩

theorem Noted.step {srv : Server} {s s' : Sys} {n : Readings} {act : Action} (hi : Noted srv s n)
    (hc : ReadingsAgree srv (s, n) act) (hs : s.step srv act = some s') :
    Noted srv s' (missionObserver.note s act n) := by
  by_cases hact : ∃ reply, act = .missions reply
  · obtain ⟨reply, rfl⟩ := hact
    obtain ⟨⟨pc, e⟩, hstep, rfl⟩ := Option.map_eq_some_iff.mp hs
    have hmove := ReadyPc.step_move hstep
    obtain ⟨hcut, hmsg⟩ := hi.loop hc hmove
    have hassigned : ({ s with missionLoop := pc }.perform .missions e).assigned =
        s.assigned ++ e.mission.map MissionTask.mission := by
      simp [Sys.assigned]
    have hsent : ∀ i m, (Actor.mission i, Effect.sendMission m) ∈
        ({ s with missionLoop := pc }.perform .missions e).journal → s.assigned[i]? = some m :=
      fun i m hm => hi.sent i m (by simpa using hm)
    rcases hmove.noted n with ⟨m, hmis, hm, hsched⟩ | ⟨hmis, hsched⟩
    · rw [hmis] at hassigned
      refine ⟨hcut, hmsg, ?_, ?_, ?_⟩
      · rw [hsched, hassigned]
        simp [hi.length]
      · intro i u hu
        rw [hsched]
        rcases slot_append.mp (hassigned ▸ hu) with hu | ⟨rfl, rfl⟩
        · obtain ⟨r, hr, hfit⟩ := hi.missions i u hu
          exact ⟨r, slot_append.mpr (.inl hr), hfit⟩
        · exact ⟨_, slot_append.mpr (.inr ⟨hi.length.symm, rfl⟩), hi.message _ hm⟩
      · intro i u hu
        rw [hassigned]
        exact slot_append.mpr (.inl (hsent i u hu))
    · rw [hmis, List.map_nil, List.append_nil] at hassigned
      exact ⟨hcut, hmsg, by rw [hsched, hassigned, hi.length],
        by rw [hsched, hassigned]; exact hi.missions, by rw [hassigned]; exact hsent⟩
  · have hact : ∀ reply, act ≠ .missions reply := fun reply h => hact ⟨reply, h⟩
    rw [missionObserver_note hact]
    cases Sys.step_missionMove hs with
    | loop reply pc e h _ _ => exact absurd h (hact reply)
    | other who e he _ hj hloop hm =>
        have ha : s'.assigned = s.assigned := by rw [Sys.assigned, hm, ← Sys.assigned]
        refine ⟨hloop ▸ hi.cutoff, hloop ▸ hi.message, ha ▸ hi.length, ha ▸ hi.missions, ?_⟩
        intro i m hmem
        rw [ha]
        rw [hj, List.mem_cons, Prod.mk.injEq] at hmem
        rcases hmem with ⟨-, rfl⟩ | hmem
        · cases he
        · exact hi.sent i m hmem
    | task i t t' e _ ht hstep hs' =>
        subst hs'
        obtain ⟨hmis, hm⟩ : e.mission = [] ∧ t'.mission = t.mission := by
          rcases MissionTask.step_effect hstep with ⟨-, rfl, rfl⟩ | ⟨-, rfl, rfl⟩ <;>
            exact ⟨rfl, rfl⟩
        have ha : ({ s with missions := s.missions.set i t' }.perform (.mission i) e).assigned =
            s.assigned := by
          simp [Sys.assigned, hmis, map_set_of_eq ht hm]
        refine ⟨hi.cutoff, hi.message, ha ▸ hi.length, ha ▸ hi.missions, ?_⟩
        intro j m hmem
        rw [ha]
        rw [Sys.perform_journal, List.mem_cons, Prod.mk.injEq] at hmem
        rcases hmem with ⟨hj, rfl⟩ | hmem
        · -- the task sends the mission it has
          obtain rfl := Actor.mission.inj hj
          rcases MissionTask.step_effect hstep with ⟨-, -, he⟩ | ⟨-, -, he⟩
          · obtain rfl := Effect.sendMission.inj he
            simp [Sys.assigned, ht]
          · cases he
        · exact hi.sent j m hmem

/-- **One proof per mission**, in every run in which the two readings for a mission agree. -/
theorem missionsCoherent {srv : Server} {x : Sys × Readings}
    (h : Reach ((machine srv).observe missionObserver) (ReadingsAgree srv) x) :
    MissionsCoherent srv x.1 x.2 := by
  have hi : Noted srv x.1 x.2 := by
    refine h.observed_invariant ?_ fun s n act s' _ hi hc hs => hi.step hc hs
    rintro _ ⟨p, rfl⟩
    exact ⟨nofun, nofun, rfl, by simp [Sys.start, Sys.assigned], by simp [Sys.start]⟩
  exact fun i m hm => hi.missions i m (hi.sent i m hm)

/-- `missionsCoherent` where the tracked proof changes between two missions. -/
theorem missionsCoherent_settledRound :
    ∃ x, Reach ((machine (Replay.server .unavailable)).observe missionObserver)
        (ReadingsAgree (Replay.server .unavailable)) x ∧
      x.2.scheduled.map (fun r => r.challengeProof.challenge) =
        [(Replay.proofAt 1 0).challenge, (Replay.proofAt 2 60).challenge] ∧
      MissionsCoherent (Replay.server .unavailable) x.1 x.2 := by
  obtain ⟨x, hr, hx⟩ := exists_of_replayObserved (Replay.server .unavailable) missionObserver
    (ReadingsAgree (Replay.server .unavailable)) (Replay.proofAt 1 0)
    (Replay.settledRound ++ Replay.mission 1 1)
    (fun x => decide (x.2.scheduled.map (fun r => r.challengeProof.challenge) =
      [(Replay.proofAt 1 0).challenge, (Replay.proofAt 2 60).challenge])) (by decide +kernel)
  exact ⟨x, hr, by simpa only [decide_eq_true_eq] using hx, missionsCoherent hr⟩

/-- After a round given up for lost its transaction lands while the mission loop waits for the
clock: the mission asks for the new challenge and allows no time for it. -/
theorem not_missionsCoherent :
    ¬ ∀ srv x, Reach ((machine srv).observe missionObserver) (fun x => Honest x.1) x →
      MissionsCoherent srv x.1 x.2 := by
  refine not_forall_of_replayObserved (O := fun _ => missionObserver)
    (C := fun _ x => Honest x.1)
    (P := fun srv x => MissionsCoherent srv x.1 x.2) (Replay.server .unavailable)
    (Replay.proofAt 1 0)
    (Replay.failedRound ++ [.receive 1 (.binary [0]), .ready 1, .missions (.order [1]),
      .missions .go, .missions .go, .land 4 (Replay.proofAt 2 70), .notify 1 (Replay.proofAt 2 70),
      .missions (.clock 71), .missions .go, .missions .go, .missions .go, .missions .go,
      .mission 1])
    (fun x => decide (x.2.scheduled[1]? = some ⟨Replay.proofAt 1 0, 71, Replay.proofAt 2 70⟩ ∧
      (Actor.mission 1, Effect.sendMission ⟨1, Replay.key 1,
        ⟨(Replay.proofAt 2 70).challenge, 0, 0, 4000000⟩, 1⟩) ∈ x.1.journal))
    ?_ (by decide +kernel)
  intro x hx hcoh
  simp only [decide_eq_true_eq] at hx
  obtain ⟨r, hr, p, hp, hchal, hcut⟩ := hcoh 1 _ hx.2
  obtain rfl := Option.some.inj (hx.1.symm.trans hr)
  rcases hp with rfl | rfl
  · exact absurd hchal (by decide)
  · exact absurd hcut (by decide)

end OrePool
