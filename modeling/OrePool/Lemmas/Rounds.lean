import OrePool.Lemmas.RoundMoves

/-!
# Who touches a round

The submission loop and the attenders run the rounds; every other task leaves `PAUSED`, the
nonce reset, the epoch reset, payment and the attenders alone.  `Sys.RoundMove` says so once,
`Sys.EpochMove` says who changes `epoch_hashes`.

`Serial` is the fact that makes the rest local to one round: an attender whose channel is still
pending is the one the submission loop waits for.
-/

namespace OrePool

open Interleaving

/-! ## Effects of a round -/

/-- Effects only the submission loop and the attenders have. -/
def Effect.ofRound : Effect → Bool
  | .setPaused _ => true
  | .sendTx _ => true
  | .spawnAttender _ => true
  | .sendMineSuccess _ => true
  | .resetNonce => true
  | .resetEpoch _ _ _ => true
  | .addChallenge _ => true
  | _ => false

/-- The actors behind them. -/
def Actor.ofRound : Actor → Bool
  | .submission => true
  | .attender _ => true
  | _ => false

/-- The submission a `BestSolution` task is about to insert. -/
def BestPc.writing : BestPc → Option Submission
  | .writeContribution sub _ => some sub
  | _ => none

/-- The submission an effect inserts. -/
def Effect.inserted : Effect → Option Submission
  | .insertContribution sub => some sub
  | _ => Option.none

/-- The submission an action is about to insert. -/
def Sys.inserting (s : Sys) : Action → Option Submission
  | .best i => (s.bestTasks[i]?).bind fun t => t.pc.writing
  | _ => none

lemma Effect.attender_of_not_ofRound {e : Effect} (h : e.ofRound = false) : e.attender = [] := by
  cases e <;> simp_all [Effect.ofRound, Effect.attender]

lemma Effect.tx_of_not_ofRound {e : Effect} (h : e.ofRound = false) : e.tx = [] := by
  cases e <;> simp_all [Effect.ofRound, Effect.tx]

lemma BestTask.step_ofRound {srv : Server} {sh : Shared} {t t' : BestTask} {e : Effect}
    (h : t.step srv sh = some (t', e)) : e.ofRound = false := by
  cases BestTask.step_move h <;> rfl

lemma BestTask.step_inserts {srv : Server} {sh : Shared} {t t' : BestTask} {e : Effect}
    (h : t.step srv sh = some (t', e)) : t.pc.writing = e.inserted := by
  cases BestTask.step_move h with
  | drop hpc => rcases hpc with ⟨_, hpc⟩ | ⟨_, _, hpc⟩ <;> rw [hpc] <;> rfl
  | refuse _ hpc | inRange hpc | socket hpc | accept hpc | decide hpc | discard hpc | write hpc =>
      rw [hpc]; rfl

/-- The mission loop takes ranges, spawns missions and shortens the ready list. -/
lemma ReadyPc.step_effect {srv : Server} {sh : Shared} {reply : Reply} {pc pc' : ReadyPc}
    {e : Effect} (h : pc.step srv sh reply = some (pc', e)) :
    e = .none ∨ e = .takeNonce ∨ (∃ m, e = .spawnMission m) ∨ ∃ addr, e = .removeReady addr := by
  cases ReadyPc.step_move h <;> simp

lemma ReadyPc.step_ofRound {srv : Server} {sh : Shared} {reply : Reply} {pc pc' : ReadyPc}
    {e : Effect} (h : pc.step srv sh reply = some (pc', e)) : e.ofRound = false := by
  rcases ReadyPc.step_effect h with rfl | rfl | ⟨_, rfl⟩ | ⟨_, rfl⟩ <;> rfl

/-- A mission task sends, then records its range. -/
lemma MissionTask.step_effect {t t' : MissionTask} {e : Effect} (h : t.step = some (t', e)) :
    (t.pc = .send ∧ t' = { t with pc := .insertRange } ∧ e = .sendMission t.mission) ∨
      (t.pc = .insertRange ∧ t' = { t with pc := .done } ∧
        e = .insertRange t.mission.pubkey t.mission.nonceRange) := by
  revert h
  fun_cases MissionTask.step t <;> intro h <;>
    simp only [Option.some.injEq, Prod.mk.injEq, reduceCtorEq] at h <;> obtain ⟨rfl, rfl⟩ := h <;>
    simp_all

lemma MissionTask.step_ofRound {t t' : MissionTask} {e : Effect} (h : t.step = some (t', e)) :
    e.ofRound = false := by
  rcases MissionTask.step_effect h with ⟨-, -, rfl⟩ | ⟨-, -, rfl⟩ <;> rfl

/-- An attender never spawns one or sends a transaction. -/
lemma Attender.step_spawns {srv : Server} {sh : Shared} {reply : Reply} {a a' : Attender}
    {e : Effect} (h : a.step srv sh reply = some (a', e)) : e.attender = [] ∧ e.tx = [] := by
  cases Attender.step_move h <;> exact ⟨rfl, rfl⟩

/-- An attender stays with its landing. -/
lemma Attender.step_landing {srv : Server} {sh : Shared} {reply : Reply} {a a' : Attender}
    {e : Effect} (h : a.step srv sh reply = some (a', e)) : a'.landing = a.landing := by
  cases Attender.step_move h <;> rfl

/-- An attender that has let go of its round does not take hold of it again. -/
lemma Attender.step_active {srv : Server} {sh : Shared} {reply : Reply} {a a' : Attender}
    {e : Effect} (h : a.step srv sh reply = some (a', e)) (hact : a'.active) : a.active := by
  cases Attender.step_move h <;>
    simp_all only [Attender.active, Attender.goto, AttenderPc.oneshot, reduceCtorEq]

/-- Effects the submission loop and the attenders have at all. -/
def Effect.inRound : Effect → Bool
  | .none => true
  | .writeProof _ => true
  | e => e.ofRound

lemma Submitter.step_inRound {srv : Server} {sh : Shared} {as : List Attender}
    {txs : List MineTx} {reply : Reply} {sub sub' : Submitter} {e : Effect}
    (h : sub.step srv sh as txs reply = some (sub', e)) : e.inRound = true := by
  cases Submitter.step_move h <;> rfl

lemma Attender.step_inRound {srv : Server} {sh : Shared} {reply : Reply} {a a' : Attender}
    {e : Effect} (h : a.step srv sh reply = some (a', e)) : e.inRound = true := by
  cases Attender.step_move h <;> rfl

/-! ## Steps, as a round sees them -/

/-- A step is one of the submission loop, one of an attender, or one that leaves both alone and
has no effect of a round. -/
inductive Sys.RoundMove (srv : Server) (s : Sys) (act : Action) (s' : Sys) : Prop
  | other (who : Actor) (e : Effect) (hact : ∀ i reply, act ≠ .attender i reply)
      (hwho : who.ofRound = false) (he : e.ofRound = false)
      (hins : s.inserting act = e.inserted)
      (hshared : s'.shared = s.shared.apply e) (hjournal : s'.journal = (who, e) :: s.journal)
      (hsub : s'.submission = s.submission) (hatt : s'.attenders = s.attenders)
  | submission (reply : Reply) (sub : Submitter) (e : Effect) (hact : act = .submission reply)
      (hs : s.submission.step srv s.shared s.attenders s.chain.txs reply = some (sub, e))
      (hs' : s' = { s with submission := sub }.perform .submission e)
  | attender (i : ℕ) (reply : Reply) (a a' : Attender) (e : Effect)
      (hact : act = .attender i reply) (ha : s.attenders[i]? = some a)
      (hs : a.step srv s.shared reply = some (a', e))
      (hs' : s' = { s with attenders := s.attenders.set i a' }.perform (.attender i) e)

theorem Sys.step_roundMove {srv : Server} {s s' : Sys} {act : Action}
    (h : s.step srv act = some s') : Sys.RoundMove srv s act s' := by
  cases Sys.step_move h with
  | notify k p => exact .other _ _ nofun rfl rfl rfl rfl rfl rfl (by simp [Effect.attender])
  | connect _ _ => exact .other _ _ nofun rfl rfl rfl rfl rfl rfl (by simp [Effect.attender])
  | disconnect _ => exact .other _ _ nofun rfl rfl rfl rfl rfl rfl (by simp [Effect.attender])
  | receive who m =>
      obtain ⟨hsh, -, -, hsub, hatt, -, hj⟩ := s.spawnFor_fields (received srv.signatures who m)
      exact .other .clients .none nofun rfl rfl rfl (by simp [hsh]) (by simp [hj]) (by simp [hsub])
        (by simp [hatt, Effect.attender])
  | ready _ => exact .other _ _ nofun rfl rfl rfl rfl rfl rfl (by simp [Effect.attender])
  | best ht hs =>
      have he := BestTask.step_ofRound hs
      refine .other _ _ nofun rfl he ?_ rfl rfl rfl (by simp [Effect.attender_of_not_ofRound he])
      simp [Sys.inserting, ht, BestTask.step_inserts hs]
  | missions hs =>
      have he := ReadyPc.step_ofRound hs
      refine .other _ _ nofun rfl he ?_ rfl rfl rfl (by simp [Effect.attender_of_not_ofRound he])
      rcases ReadyPc.step_effect hs with rfl | rfl | ⟨_, rfl⟩ | ⟨_, rfl⟩ <;> rfl
  | mission ht hs =>
      have he := MissionTask.step_ofRound hs
      refine .other _ _ nofun rfl he ?_ rfl rfl rfl (by simp [Effect.attender_of_not_ofRound he])
      rcases MissionTask.step_effect hs with ⟨-, -, rfl⟩ | ⟨-, -, rfl⟩ <;> rfl
  | submission hs => exact .submission _ _ _ rfl hs rfl
  | attender ha hs => exact .attender _ _ _ _ _ rfl ha hs rfl
  | land _ _ _ _ _ => exact .other _ _ nofun rfl rfl rfl rfl rfl rfl (by simp [Effect.attender])
  | account _ => exact .other _ _ nofun rfl rfl rfl rfl rfl rfl (by simp [Effect.attender])

/-! ## Rounds are serial -/

/-- While a round's transaction is prepared, sent and confirmed, its solution is the captured
one. -/
def SubmissionPc.Coherent : SubmissionPc → Prop
  | .clock r _ solution _ => r.bestSolution = some solution
  | .send r _ solution _ => r.bestSolution = some solution
  | .confirm r _ solution _ _ => r.bestSolution = some solution
  | _ => True

/-- Only the awaited attender is active, and it attends to the round it is awaited in. -/
structure Serial (s : Sys) : Prop where
  coherent : s.submission.pc.Coherent
  active : ∀ i a, s.attenders[i]? = some a → a.active → ∃ r, s.submission.pc = .await r i
  awaited : ∀ r i, s.submission.pc = .await r i →
    ∃ a, s.attenders[i]? = some a ∧ a.landing.round = r ∧ r.bestSolution = some a.landing.solution

/-- The next attempt starts the loop body again or ends the loop. -/
lemma Submitter.nextAttempt_pc (sub : Submitter) (r : Round) (n : ℕ) :
    (∃ m, (sub.nextAttempt r n).pc = .loadConfig r m) ∨
      (sub.nextAttempt r n).pc = .failGetProof r := by
  simp only [Submitter.nextAttempt, Submitter.goto]
  split
  · exact .inl ⟨_, rfl⟩
  · exact .inr rfl

lemma Submitter.nextAttempt_coherent (sub : Submitter) (r : Round) (n : ℕ) :
    (sub.nextAttempt r n).pc.Coherent := by
  rcases sub.nextAttempt_pc r n with ⟨m, h⟩ | h <;> rw [h] <;> trivial

@[simp] lemma Submitter.nextAttempt_ne_await (sub : Submitter) (r r' : Round) (n i : ℕ) :
    (sub.nextAttempt r n).pc ≠ .await r' i := by
  rcases sub.nextAttempt_pc r n with ⟨m, h⟩ | h <;> rw [h] <;> simp

lemma Submitter.step_coherent {srv : Server} {sh : Shared} {as : List Attender}
    {txs : List MineTx} {reply : Reply} {sub sub' : Submitter} {e : Effect}
    (hc : sub.pc.Coherent) (h : sub.step srv sh as txs reply = some (sub', e)) :
    sub'.pc.Coherent := by
  cases Submitter.step_move h with
  | noBest hpc hsol | noBlockhash hpc | failed hpc _ => exact Submitter.nextAttempt_coherent ..
  | _ => simp_all [Submitter.goto, SubmissionPc.Coherent]

/-- The submission loop comes to wait only by spawning, and spawns only to wait. -/
lemma Submitter.step_spawns {srv : Server} {sh : Shared} {as : List Attender}
    {txs : List MineTx} {reply : Reply} {sub sub' : Submitter} {e : Effect}
    (h : sub.step srv sh as txs reply = some (sub', e)) :
    (e.attender = [] ∧ ∀ r i, sub'.pc ≠ .await r i) ∨
      ∃ r n solution cfg tx l, sub.pc = .confirm r n solution cfg tx ∧ e = .spawnAttender l ∧
        l.round = r ∧ l.solution = solution ∧ sub'.pc = .await r as.length := by
  cases Submitter.step_move h with
  | landed hpc _ => exact .inr ⟨_, _, _, _, _, _, hpc, rfl, rfl, rfl, rfl⟩
  | busy hpc => exact .inl ⟨rfl, by simp [hpc]⟩
  | _ => exact .inl ⟨rfl, by simp [Submitter.goto]⟩

/-- The submission loop stops waiting only when the channel is not pending. -/
lemma Submitter.step_await {srv : Server} {sh : Shared} {as : List Attender}
    {txs : List MineTx} {reply : Reply} {sub sub' : Submitter} {e : Effect} {r : Round} {i : ℕ}
    (hpc : sub.pc = .await r i) (h : sub.step srv sh as txs reply = some (sub', e)) :
    (∃ a, as[i]? = some a ∧ ¬ a.active) ∧ sub' = sub.goto .readOldProof ∧ e = .none := by
  cases Submitter.step_move h <;> simp_all

theorem Serial.start (srv : Server) (p : Proof) : Serial (Sys.start srv p) where
  coherent := trivial
  active := by simp [Sys.start]
  awaited := by simp [Sys.start]

theorem Serial.step {srv : Server} {s s' : Sys} {act : Action} (hi : Serial s)
    (h : s.step srv act = some s') : Serial s' := by
  rcases Sys.step_roundMove h with ⟨_, _, _, _, _, _, _, _, hsub, hatt⟩ |
    ⟨reply, sub, e, -, hs, rfl⟩ | ⟨i, reply, a, a', e, -, ha, hs, rfl⟩
  · exact ⟨hsub ▸ hi.coherent, hsub ▸ hatt ▸ hi.active, hsub ▸ hatt ▸ hi.awaited⟩
  · have hcoh := Submitter.step_coherent hi.coherent hs
    rcases Submitter.step_spawns hs with ⟨he, hpc⟩ |
      ⟨r, n, solution, cfg, tx, l, hpc, rfl, hr, hsol, hpc'⟩
    · refine ⟨hcoh, ?_, fun r i hr => absurd hr (hpc r i)⟩
      intro i a ha hact
      -- nobody is awaited any more, so the attender awaited before must have let go
      simp only [Sys.perform_attenders, he, List.append_nil] at ha
      obtain ⟨r, hr⟩ := hi.active i a ha hact
      obtain ⟨⟨b, hb, hnot⟩, -⟩ := Submitter.step_await hr hs
      rw [ha, Option.some.injEq] at hb
      exact absurd (hb ▸ hact) hnot
    · refine ⟨hcoh, ?_, ?_⟩
      · intro i a ha hact
        rcases slot_append.mp ha with ha | ⟨rfl, -⟩
        · obtain ⟨r', hr'⟩ := hi.active i a ha hact
          simp [hpc] at hr'
        · exact ⟨r, hpc'⟩
      · intro r' i hr'
        simp only [Sys.perform_submission, hpc', SubmissionPc.await.injEq] at hr'
        obtain ⟨rfl, rfl⟩ := hr'
        refine ⟨Attender.spawn l, slot_append.mpr (.inr ⟨rfl, rfl⟩), hr, ?_⟩
        have := hi.coherent
        simp only [hpc, SubmissionPc.Coherent] at this
        simpa [Attender.spawn, hsol] using this
  · obtain ⟨hspawn, -⟩ := Attender.step_spawns hs
    have hland := Attender.step_landing hs
    refine ⟨hi.coherent, ?_, ?_⟩
    · intro j b hb hact
      simp only [Sys.perform_attenders, hspawn, List.append_nil, slot_set ha] at hb
      split at hb
      · rename_i hij
        simp only [Option.some.injEq] at hb
        subst hij hb
        exact hi.active i a ha (Attender.step_active hs hact)
      · exact hi.active j b hb hact
    · intro r j hr
      obtain ⟨b, hb, hround, hsol⟩ := hi.awaited r j hr
      simp only [Sys.perform_attenders, hspawn, List.append_nil, slot_set ha]
      split
      · rename_i hij
        subst hij
        rw [ha, Option.some.injEq] at hb
        subst hb
        exact ⟨a', rfl, hland ▸ hround, hland ▸ hsol⟩
      · exact ⟨b, hb, hround, hsol⟩

/-- Rounds are serial in every run. -/
theorem serial {srv : Server} {C : Sys → Action → Prop} {s : Sys}
    (h : Reach (machine srv) C s) : Serial s :=
  h.invariant (fun _ ⟨p, hp⟩ => hp ▸ Serial.start srv p) fun _ _ _ _ hi _ hs => hi.step hs

/-- The active attender is unique. -/
lemma Serial.unique {s : Sys} (hi : Serial s) {i j : ℕ} {a b : Attender}
    (ha : s.attenders[i]? = some a) (hb : s.attenders[j]? = some b) (hact : a.active)
    (hbct : b.active) : i = j := by
  obtain ⟨r, hr⟩ := hi.active i a ha hact
  obtain ⟨r', hr'⟩ := hi.active j b hb hbct
  rw [hr, SubmissionPc.await.injEq] at hr'
  exact hr'.2

/-- Only attenders that have been spawned appear in the journal. -/
theorem attender_acted {srv : Server} {C : Sys → Action → Prop} {s : Sys}
    (h : Reach (machine srv) C s) :
    ∀ i e, (Actor.attender i, e) ∈ s.journal → i < s.attenders.length := by
  refine h.invariant (I := fun s => ∀ i e, (Actor.attender i, e) ∈ s.journal →
    i < s.attenders.length) ?_ ?_
  · rintro _ ⟨p, rfl⟩ i e hm
    simp [Sys.start] at hm
  · intro s act s' _ hi _ hs i e hm
    rcases Sys.step_roundMove hs with ⟨who, e', -, hwho, -, -, -, hj, -, hatt⟩ |
      ⟨reply, sub, e', -, hs, rfl⟩ | ⟨k, reply, a, a', e', -, ha, hs, rfl⟩
    · rw [hj, List.mem_cons, Prod.mk.injEq] at hm
      rw [hatt]
      rcases hm with ⟨rfl, -⟩ | hm
      · cases hwho
      · exact hi i e hm
    · have : i < s.attenders.length := hi i e (by simpa using hm)
      simp only [Sys.perform_attenders, List.length_append]
      omega
    · simp only [Sys.perform_attenders, List.length_append, List.length_set]
      rw [Sys.perform_journal, List.mem_cons, Prod.mk.injEq, Actor.attender.injEq] at hm
      rcases hm with ⟨rfl, -⟩ | hm
      · exact Nat.lt_add_right _ (List.getElem?_eq_some_iff.mp ha).1
      · exact Nat.lt_add_right _ (hi i e hm)

/-! ## Steps, as `epoch_hashes` sees them -/

/-- Effects that write `epoch_hashes`. -/
def Effect.ofEpoch : Effect → Bool
  | .insertContribution _ => true
  | .resetEpoch _ _ _ => true
  | _ => false

/-- The challenge whose epoch an attender is about to open. -/
def AttenderPc.resetting : AttenderPc → Option Challenge
  | .rpcResetEpoch p _ => some p.challenge
  | .resetEpoch latestProof => some latestProof.challenge
  | _ => none

lemma Shared.apply_epoch_of_not_ofEpoch {e : Effect} (h : e.ofEpoch = false) (sh : Shared) :
    (sh.apply e).epochHashes = sh.epochHashes ∧ (sh.apply e).ghost.epoch = sh.ghost.epoch ∧
      (sh.apply e).ghost.epochGen = sh.ghost.epochGen := by
  cases e <;> simp only [Effect.ofEpoch, reduceCtorEq] at h <;>
    simp only [Shared.apply, and_self]

lemma Effect.ofEpoch_cases {e : Effect} (h : e.ofEpoch = true) :
    (∃ sub, e = .insertContribution sub) ∨ ∃ opened stored cleared,
      e = .resetEpoch opened stored cleared := by
  cases e <;> first | exact .inl ⟨_, rfl⟩ | exact .inr ⟨_, _, _, rfl⟩ | cases h

lemma Submitter.step_reset {srv : Server} {sh : Shared} {as : List Attender} {txs : List MineTx}
    {reply : Reply} {sub sub' : Submitter} {opened : Challenge} {stored : Bool}
    {cleared : Contributions}
    (h : sub.step srv sh as txs reply = some (sub', .resetEpoch opened stored cleared)) :
    (∃ r, sub.pc = .failResetEpoch r) ∧ opened = sh.appProof.challenge ∧ stored = false ∧
      cleared = sh.epochHashes.contributions := by
  cases Submitter.step_move h with
  | resetEpoch hpc => exact ⟨⟨_, hpc⟩, rfl, rfl, rfl⟩

lemma Attender.step_reset {srv : Server} {sh : Shared} {reply : Reply} {a a' : Attender}
    {opened : Challenge} {stored : Bool} {cleared : Contributions}
    (h : a.step srv sh reply = some (a', .resetEpoch opened stored cleared)) :
    a.pc.resetting = some opened ∧ stored = true ∧ cleared = sh.epochHashes.contributions := by
  cases Attender.step_move h with
  | rpcResetEpoch hpc | resetEpoch hpc => exact ⟨by rw [hpc]; rfl, rfl, rfl⟩

lemma Attender.active_of_resetting {a : Attender} {c : Challenge}
    (h : a.pc.resetting = some c) : a.active := by
  rw [Attender.active]
  cases hpc : a.pc <;> rw [hpc] at h <;> first | rfl | cases h

/-- The failed round whose epoch is about to be reset. -/
def SubmissionPc.clearing : SubmissionPc → Option Round
  | .failResetEpoch r => some r
  | _ => none

/-- Who resets the epoch, and to which challenge: the submission loop after a failed round, an
attender after a landed one. -/
def Sys.Resetting (s : Sys) (act : Action) (who : Actor) (opened : Challenge) : Prop :=
  (∃ reply r, act = .submission reply ∧ who = .submission ∧
      s.submission.pc = .failResetEpoch r ∧ opened = s.shared.appProof.challenge) ∨
    ∃ i reply a, act = .attender i reply ∧ who = .attender i ∧ s.attenders[i]? = some a ∧
      a.pc.resetting = some opened

/-- While an attender is active nobody else resets the epoch. -/
lemma Serial.resetting {s : Sys} (hi : Serial s) {i : ℕ} {a : Attender}
    (ha : s.attenders[i]? = some a) (hact : a.active) {act : Action} {who : Actor}
    {opened : Challenge} (hr : s.Resetting act who opened) :
    ∃ reply, act = .attender i reply := by
  rcases hr with ⟨reply, r, -, -, hpc, -⟩ | ⟨j, reply, b, rfl, -, hb, hc⟩
  · obtain ⟨r', hr'⟩ := hi.active i a ha hact
    simp [hpc] at hr'
  · exact ⟨reply, by rw [hi.unique hb ha (Attender.active_of_resetting hc) hact]⟩

/-- A step leaves `epoch_hashes` alone, inserts one submission, or resets. -/
inductive Sys.EpochMove (s : Sys) (act : Action) (s' : Sys) : Prop
  | keep (who : Actor) (e : Effect) (hj : s'.journal = (who, e) :: s.journal)
      (hno : e.ofEpoch = false) (hins : s.inserting act = none)
      (he : s'.shared.epochHashes = s.shared.epochHashes)
      (hg : s'.shared.ghost.epoch = s.shared.ghost.epoch)
      (hgen : s'.shared.ghost.epochGen = s.shared.ghost.epochGen)
  | insert (who : Actor) (sub : Submission) (hins : s.inserting act = some sub)
      (hj : s'.journal = (who, .insertContribution sub) :: s.journal)
      (he : s'.shared.epochHashes = s.shared.epochHashes.insertContribution sub)
      (hg : s'.shared.ghost = s.shared.ghost)
  | reset (who : Actor) (opened : Challenge) (stored : Bool) (hwho : s.Resetting act who opened)
      (hj : s'.journal =
        (who, .resetEpoch opened stored s.shared.epochHashes.contributions) :: s.journal)
      (he : s'.shared.epochHashes = s.shared.epochHashes.reset opened stored)
      (hg : s'.shared.ghost.epoch = opened)
      (hgen : s'.shared.ghost.epochGen = s.shared.ghost.nonceGen)

theorem Sys.step_epochMove {srv : Server} {s s' : Sys} {act : Action}
    (h : s.step srv act = some s') : Sys.EpochMove s act s' := by
  rcases Sys.step_roundMove h with ⟨who, e, -, -, he, hins, hsh, hj, -, -⟩ |
    ⟨reply, sub, e, rfl, hs, rfl⟩ | ⟨i, reply, a, a', e, rfl, ha, hs, rfl⟩
  · cases hep : e.ofEpoch with
    | false =>
        obtain ⟨h₁, h₂, h₃⟩ := Shared.apply_epoch_of_not_ofEpoch hep s.shared
        refine .keep who e hj hep (hins.trans ?_) (hsh ▸ h₁) (hsh ▸ h₂) (hsh ▸ h₃)
        cases e <;> first | rfl | cases hep
    | true =>
        rcases Effect.ofEpoch_cases hep with ⟨sub, rfl⟩ | ⟨_, _, _, rfl⟩
        · exact .insert who sub hins hj (hsh ▸ rfl) (hsh ▸ rfl)
        · cases he
  · cases hep : e.ofEpoch with
    | false =>
        obtain ⟨h₁, h₂, h₃⟩ := Shared.apply_epoch_of_not_ofEpoch hep s.shared
        exact .keep _ e rfl hep rfl h₁ h₂ h₃
    | true =>
        rcases Effect.ofEpoch_cases hep with ⟨sub, rfl⟩ | ⟨_, _, _, rfl⟩
        · cases Submitter.step_inRound hs
        · obtain ⟨⟨r, hr⟩, rfl, -, rfl⟩ := Submitter.step_reset hs
          exact .reset _ _ _ (.inl ⟨_, r, rfl, rfl, hr, rfl⟩) rfl rfl rfl rfl
  · cases hep : e.ofEpoch with
    | false =>
        obtain ⟨h₁, h₂, h₃⟩ := Shared.apply_epoch_of_not_ofEpoch hep s.shared
        exact .keep _ e rfl hep rfl h₁ h₂ h₃
    | true =>
        rcases Effect.ofEpoch_cases hep with ⟨sub, rfl⟩ | ⟨_, _, _, rfl⟩
        · cases Attender.step_inRound hs
        · obtain ⟨hpc, -, rfl⟩ := Attender.step_reset hs
          exact .reset _ _ _ (.inr ⟨i, reply, a, rfl, rfl, ha, hpc⟩) rfl rfl rfl rfl

end OrePool
