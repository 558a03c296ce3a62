import OrePool.Lemmas.Stages
import OrePool.Replay

/-!
# After a round

A round pauses the missions and ends on one of three ways, each with its own copy of the
restoration: reset the nonce, reset the epoch, unpause.  `PoolReady` says that the submission
loop, back at the start of its iteration, finds all of it done.

The way without a copy is an attender that gives up after `CHECK_LIMIT` looks: the loop goes on
with the pool still paused (`not_poolReady`).  As long as no attender gives up the pool is ready
after every round (`poolReady`).
-/

namespace OrePool

open Interleaving

/-! ## The property -/

/-- The effect begins a round. -/
def Effect.pauses : Effect → Bool
  | .setPaused true => true
  | _ => false

/-- What happened since the last round began, newest first. -/
def Sys.roundJournal (s : Sys) : List Event := since (fun ev => ev.2.pauses) s.journal

/-- `app_nonce` was reset. -/
def NonceReset (j : List Event) : Prop := ∃ ev ∈ j, ev.2 = .resetNonce

/-- Best hash and contributions were cleared. -/
def EpochReset (j : List Event) : Prop := ∃ ev ∈ j, ev.2.opens = true

/-- The pool after a round: resumed, with the nonce and the epoch reset since the round began,
and nothing in `epoch_hashes` but what was inserted after that reset. -/
structure Restored (s : Sys) : Prop where
  unpaused : s.shared.paused = false
  nonce : NonceReset s.roundJournal
  epoch : EpochReset s.roundJournal
  contributions : ∀ pubkey c, s.shared.epochHashes.contributions.lookup pubkey = some c →
    ∃ sub ∈ s.recorded, sub.pubkey = pubkey ∧ sub.contribution = c
  bestHash : ∀ solution, s.shared.epochHashes.bestHash.solution = some solution →
    ∃ sub ∈ s.recorded, sub.solution = solution

/-- A round has begun at some time. -/
def Sys.hasPaused (s : Sys) : Prop := ∃ who, (who, Effect.setPaused true) ∈ s.journal

/-- **Ready for the next round.**  Whenever the submission loop starts an iteration, once there
has been a round, the pool is restored. -/
def PoolReady (s : Sys) : Prop :=
  s.submission.pc = .readOldProof → s.hasPaused → Restored s

/-- The attender about to look at `app_proof` will not give up: there is a new challenge, or it
has looks left. -/
def Patient (s : Sys) : Action → Prop
  | .attender i _ => ∀ a ∈ s.attenders[i]?, a.pc = .check →
      a.oldProof.challenge = s.shared.appProof.challenge → a.numChecking + 1 < CHECK_LIMIT
  | _ => True

instance : DecidableRel Patient := fun s act =>
  match act with
  | .attender i _ =>
      inferInstanceAs (Decidable (∀ a ∈ s.attenders[i]?, a.pc = .check →
        a.oldProof.challenge = s.shared.appProof.challenge → a.numChecking + 1 < CHECK_LIMIT))
  | .notify .. | .connect .. | .disconnect .. | .receive .. | .ready .. | .best .. | .missions ..
  | .mission .. | .submission .. | .land .. | .account .. => isTrue trivial

/-! ## How much is restored -/

/-- What a stage stands for. -/
def Stage.Held (j : List Event) (paused : Bool) : Stage → Prop
  | .nothing => True
  | .nonce => NonceReset j
  | .epoch => NonceReset j ∧ EpochReset j
  | .all => NonceReset j ∧ EpochReset j ∧ paused = false

@[simp] lemma nonceReset_cons {ev : Event} {j : List Event} :
    NonceReset (ev :: j) ↔ ev.2 = .resetNonce ∨ NonceReset j := by
  simp [NonceReset]

@[simp] lemma epochReset_cons {ev : Event} {j : List Event} :
    EpochReset (ev :: j) ↔ ev.2.opens = true ∨ EpochReset j := by
  simp [EpochReset]

/-- What is restored stays so, unless somebody pauses. -/
lemma Stage.Held.cons {j : List Event} {paused paused' : Bool} {stage : Stage}
    (h : stage.Held j paused) (ev : Event) (hp : paused' = paused ∨ paused' = false) :
    stage.Held (ev :: j) paused' := by
  cases stage with
  | nothing => trivial
  | nonce => simpa [Stage.Held] using .inr h
  | epoch => exact ⟨by simp [h.1], by simp [h.2]⟩
  | all => exact ⟨by simp [h.1], by simp [h.2.1], hp.elim (·.trans h.2.2) id⟩

/-- An attender restores in the order of the stages. -/
lemma Attender.step_stage {srv : Server} {sh : Shared} {reply : Reply} {a a' : Attender}
    {e : Effect} {j : List Event} (who : Actor) (h : a.step srv sh reply = some (a', e))
    (hheld : a.pc.stage.Held j sh.paused) :
    a'.pc.stage.Held ((who, e) :: j) (sh.apply e).paused := by
  cases Attender.step_move h <;>
    simp_all [AttenderPc.stage, Stage.Held, Attender.goto, Shared.apply, Effect.opens]

/-- An attender never pauses. -/
lemma Attender.step_pauses {srv : Server} {sh : Shared} {reply : Reply} {a a' : Attender}
    {e : Effect} (h : a.step srv sh reply = some (a', e)) :
    e.pauses = false ∧ ((sh.apply e).paused = sh.paused ∨ (sh.apply e).paused = false) := by
  cases Attender.step_move h <;> simp [Effect.pauses, Shared.apply]

/-- An attender gives up only at its last look. -/
lemma Attender.step_gaveUp {srv : Server} {sh : Shared} {reply : Reply} {a a' : Attender}
    {e : Effect} (h : a.step srv sh reply = some (a', e)) (hpc : a'.pc = .ended .gaveUp) :
    a.pc = .check ∧ a.oldProof.challenge = sh.appProof.challenge ∧
      CHECK_LIMIT ≤ a.numChecking + 1 := by
  cases Attender.step_move h with
  | gaveUp hcheck hold hlim => exact ⟨hcheck, hold, hlim⟩
  | _ => simp [Attender.goto] at hpc

/-- With the pause everything is to be restored again. -/
lemma Submitter.step_pauses {srv : Server} {sh : Shared} {as : List Attender} {txs : List MineTx}
    {reply : Reply} {sub sub' : Submitter} {e : Effect}
    (h : sub.step srv sh as txs reply = some (sub', e)) (hp : e.pauses = true)
    (as' : List Attender) : sub'.stage as' = .nothing := by
  cases Submitter.step_move h with
  | pause _ => rfl
  | _ => cases hp

/-- Otherwise the submission loop restores in the order of the stages. -/
lemma Submitter.step_stage {srv : Server} {sh : Shared} {as : List Attender} {txs : List MineTx}
    {reply : Reply} {sub sub' : Submitter} {e : Effect} {j : List Event} (who : Actor)
    (h : sub.step srv sh as txs reply = some (sub', e)) (hp : e.pauses = false)
    (hkeen : ∀ a ∈ as, a.pc ≠ .ended .gaveUp) (hheld : (sub.stage as).Held j sh.paused) :
    (sub'.stage (as ++ e.attender)).Held ((who, e) :: j) (sh.apply e).paused := by
  by_cases hw : ∃ r i, sub.pc = .await r i
  · -- released by the attender, which has restored everything
    obtain ⟨r, i, hpc⟩ := hw
    obtain ⟨⟨a, ha, hnot⟩, rfl, rfl⟩ := Submitter.step_await hpc h
    have hall := Attender.stage_of_not_active hnot (hkeen a (List.mem_of_getElem? ha))
    rw [Submitter.stage, hpc] at hheld
    simp only [ha, Option.elim_some, hall] at hheld
    exact hheld.cons _ (.inl rfl)
  · cases Submitter.step_move h with
    | noBest | noBlockhash | failed => exact Submitter.nextAttempt_stage .. ▸ trivial
    | released hpc => exact absurd ⟨_, _, hpc⟩ hw
    | _ =>
        simp_all [Submitter.stage, Submitter.goto, Stage.Held, Effect.pauses, Effect.attender,
          Effect.opens, Shared.apply, AttenderPc.stage, Attender.spawn]

/-! ## All of it together -/

/-- What is restored matches the stage, once there has been a round, and nobody has given up. -/
structure Restoring (s : Sys) : Prop where
  held : s.hasPaused → (s.submission.stage s.attenders).Held s.roundJournal s.shared.paused
  keen : ∀ a ∈ s.attenders, a.pc ≠ .ended .gaveUp

lemma Sys.roundJournal_cons {s s' : Sys} {who : Actor} {e : Effect}
    (hj : s'.journal = (who, e) :: s.journal) (h : e.pauses = false) :
    s'.roundJournal = (who, e) :: s.roundJournal := by
  rw [Sys.roundJournal, hj, since_cons h, ← Sys.roundJournal]

lemma Sys.hasPaused_cons {s s' : Sys} {who : Actor} {e : Effect}
    (hj : s'.journal = (who, e) :: s.journal) (h : e.pauses = false) (hp : s'.hasPaused) :
    s.hasPaused := by
  obtain ⟨w, hw⟩ := hp
  rw [hj, List.mem_cons, Prod.mk.injEq] at hw
  rcases hw with ⟨-, rfl⟩ | hw
  · cases h
  · exact ⟨w, hw⟩

lemma Effect.not_pauses {e : Effect} (h : e.ofRound = false) (sh : Shared) :
    e.pauses = false ∧ (sh.apply e).paused = sh.paused := by
  cases e <;> simp_all [Effect.ofRound, Effect.pauses, Shared.apply]

theorem Restoring.step {srv : Server} {s s' : Sys} {act : Action} (hi : Restoring s)
    (hc : Patient s act) (hs : s.step srv act = some s') : Restoring s' := by
  rcases Sys.step_roundMove hs with ⟨who, e, -, -, he, -, hsh, hj, hsub, hatt⟩ |
    ⟨reply, sub, e, rfl, hsub, rfl⟩ | ⟨i, reply, a, a', e, rfl, ha, hsa, rfl⟩
  · obtain ⟨hpz, hpaused⟩ := Effect.not_pauses he s.shared
    refine ⟨?_, hatt ▸ hi.keen⟩
    intro hp
    rw [hsub, hatt, hsh, hpaused, Sys.roundJournal_cons hj hpz]
    exact (hi.held (Sys.hasPaused_cons hj hpz hp)).cons _ (.inl rfl)
  · refine ⟨?_, ?_⟩
    · intro hp
      simp only [Sys.perform_submission, Sys.perform_attenders, Sys.perform_shared]
      cases hpz : e.pauses with
      | true => rw [Submitter.step_pauses hsub hpz]; trivial
      | false =>
          rw [Sys.roundJournal_cons rfl hpz]
          exact Submitter.step_stage .submission hsub hpz hi.keen
            (hi.held (Sys.hasPaused_cons rfl hpz hp))
    · intro a ha
      rcases List.mem_append.mp ha with ha | ha
      · exact hi.keen a ha
      · cases e <;> simp only [Effect.attender, List.not_mem_nil, List.mem_singleton] at ha
        simp [ha, Attender.spawn]
  · obtain ⟨hspawn, -⟩ := Attender.step_spawns hsa
    obtain ⟨hpz, hpaused⟩ := Attender.step_pauses hsa
    refine ⟨?_, ?_⟩
    · intro hp
      have hheld := hi.held (Sys.hasPaused_cons rfl hpz hp)
      rw [Sys.roundJournal_cons rfl hpz]
      simp only [Sys.perform_submission, Sys.perform_attenders, Sys.perform_shared, hspawn,
        List.append_nil]
      by_cases hw : ∃ r, s.submission.pc = .await r i
      · obtain ⟨r, hw⟩ := hw
        rw [Submitter.stage_await hw ha] at hheld
        rw [Submitter.stage_await hw (a := a') (by simp [slot_set ha])]
        exact Attender.step_stage _ hsa hheld
      · rw [Submitter.stage_set ha fun r hr => hw ⟨r, hr⟩]
        exact hheld.cons _ hpaused
    · intro b hb
      simp only [Sys.perform_attenders, hspawn, List.append_nil] at hb
      rcases List.mem_or_eq_of_mem_set hb with hb | rfl
      · exact hi.keen b hb
      · intro hpc
        obtain ⟨hcheck, heq, hlim⟩ := Attender.step_gaveUp hsa hpc
        exact Nat.not_le_of_lt (hc a ha hcheck heq) hlim

theorem restoring {srv : Server} {s : Sys} (h : Reach (machine srv) Patient s) : Restoring s := by
  refine h.invariant ?_ fun s act s' _ hi hc hs => hi.step hc hs
  rintro _ ⟨p, rfl⟩
  exact ⟨fun ⟨_, hp⟩ => by simp [Sys.start] at hp, by simp [Sys.start]⟩

/-- **Ready for the next round.**  In every run in which no attender gives up, the pool is
restored whenever the submission loop starts an iteration. -/
theorem poolReady {srv : Server} {s : Sys} (h : Reach (machine srv) Patient s) :
    PoolReady s := by
  intro hpc hp
  have hheld := (restoring h).held hp
  rw [Submitter.stage, hpc] at hheld
  exact ⟨hheld.2.2, hheld.1, hheld.2.1, fun _ _ => recorded_of_lookup h,
    fun _ => recorded_of_best h⟩

/-- A failed round meets the condition of `poolReady`. -/
theorem poolReady_failedRound :
    ∃ s, Reach (machine (Replay.server .unavailable)) Patient s ∧
      (s.submission.pc = .readOldProof ∧ s.submission.rounds = 1) ∧ PoolReady s := by
  obtain ⟨s, hr, hs⟩ := exists_of_replay (Replay.server .unavailable) Patient
    (Replay.proofAt 1 0) Replay.failedRound
    (fun s => decide (s.submission.pc = .readOldProof ∧ s.submission.rounds = 1))
    (by decide +kernel)
  exact ⟨s, hr, by simpa using hs, poolReady hr⟩

/-- A landed round whose attender sees nothing new: neither the websocket nor the RPC node tells
it in `CHECK_LIMIT` looks. -/
def Replay.abandonedRound : List Action :=
  landedRound ++ (List.replicate 29 [.attender 0 .go, .attender 0 (.proof none)]).flatten ++
    [.attender 0 .go, .submission .go]

/-- Without the condition a round can leave the pool paused: the attender gives up, and the
submission loop starts over. -/
theorem not_poolReady : ¬ ∀ srv s, Reach (machine srv) Honest s → PoolReady s := by
  refine not_forall_of_replay (P := fun _ => PoolReady) (Replay.server .unavailable)
    (Replay.proofAt 1 0) Replay.abandonedRound
    (fun s => decide (s.submission.pc = .readOldProof) && s.shared.paused &&
      s.journal.any fun ev => decide (ev.2 = .setPaused true)) ?_
    (by decide +kernel)
  intro s hs hc
  simp only [Bool.and_eq_true, decide_eq_true_eq, List.any_eq_true] at hs
  obtain ⟨⟨hpc, hpaused⟩, ⟨who, e⟩, hm, rfl⟩ := hs
  simp [(hc hpc ⟨who, hm⟩).unpaused] at hpaused

end OrePool
