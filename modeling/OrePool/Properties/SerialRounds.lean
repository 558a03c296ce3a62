import OrePool.Core.Journal
import OrePool.Lemmas.Rounds
import OrePool.Replay

/-!
# Rounds come one after the other

An attender outlives the signal it gives the submission loop, and the loop goes on as well when the
channel is merely dropped.  What an attender does to `app_proof`, `app_nonce`, `epoch_hashes` and
`PAUSED` must not reach into the round after its own.  `RoundsSerialised` says that it does not, and
that a round sees at most one transaction reported successful.

It holds in every run (`roundsSerialised`): all these writes come before the signal, and an attender
that gives up has not made any.
-/

namespace OrePool

open Interleaving

/-! ## The property -/

/-- `PAUSED` is set, which begins a round. -/
def Event.begins (ev : Event) : Bool := decide (ev = (.submission, .setPaused true))

/-- A transaction has been reported successful. -/
def Effect.reported : Effect → Option Landing
  | .spawnAttender l => some l
  | _ => Option.none

/-- The landings reported so far, the latest first.  The `i`-th attender is spawned for the `i`-th,
counted from the other end. -/
def reports (j : List Event) : List Landing := j.filterMap fun ev => ev.2.reported

/-- The events of the running round. -/
def theRound (j : List Event) : List Event := since Event.begins j

/-- The writes that restore the server after a round. -/
def Effect.restores : Effect → Bool
  | .writeProof _ | .resetNonce | .resetEpoch _ _ _ | .setPaused _ => true
  | _ => false

/-- The landing attender `i` was spawned for is the latest, and the only one of the running
round. -/
def InOwnRound (i : ℕ) (j : List Event) : Prop :=
  ∃ l rest, reports j = l :: rest ∧ rest.length = i ∧ reports (theRound j) = [l]

/-- **Serial rounds.**  An attender restores only in the round it was spawned in, and no round has
two transactions reported successful. -/
structure RoundsSerialised (s : Sys) : Prop where
  restores : Each (fun ev older => ∀ i, ev.1 = .attender i → ev.2.restores = true →
    InOwnRound i older) s.journal
  once : Each (fun ev older => ev.2.reported.isSome → reports (theRound older) = []) s.journal

/-! ## Events -/

lemma Event.begins_of_ne {who : Actor} {e : Effect} (h : who ≠ .submission ∨ e ≠ .setPaused true) :
    Event.begins (who, e) = false := by
  rw [Event.begins, decide_eq_false_iff_not, Prod.mk.injEq]
  rintro ⟨rfl, rfl⟩
  exact h.elim (fun h => h rfl) fun h => h rfl

lemma reports_cons_none {who : Actor} {e : Effect} {j : List Event} (h : e.reported = Option.none) :
    reports ((who, e) :: j) = reports j := by
  simp [reports, h]

lemma Effect.reported_of_attender {e : Effect} (h : e.attender = []) :
    e.reported = Option.none := by
  cases e <;> first | rfl | cases h

/-- An event that neither begins a round nor reports leaves both readings as they are. -/
lemma reports_round_cons {who : Actor} {e : Effect} {j : List Event}
    (hb : Event.begins (who, e) = false) (h : e.reported = Option.none) :
    reports (theRound ((who, e) :: j)) = reports (theRound j) := by
  rw [theRound, since_cons hb, reports_cons_none h, theRound]

/-! ## Tasks -/

/-- The submission loop is at its attempts. -/
def SubmissionPc.unreported : SubmissionPc → Bool
  | .loadConfig _ _ | .clock _ _ _ _ | .send _ _ _ _ | .confirm _ _ _ _ _ => true
  | _ => false

/-- The submission loop comes to its attempts by setting `PAUSED`, and stays at them without a
report. -/
lemma Submitter.step_unreported {srv : Server} {sh : Shared} {as : List Attender}
    {txs : List MineTx} {reply : Reply} {sub sub' : Submitter} {e : Effect}
    (h : sub.step srv sh as txs reply = some (sub', e)) (ha : sub'.pc.unreported = true) :
    e = .setPaused true ∨
      (sub.pc.unreported = true ∧ e.reported = Option.none ∧ e ≠ .setPaused true) := by
  cases Submitter.step_move h with
  | pause _ => exact .inl rfl
  | noBest hpc _ | noBlockhash hpc | failed hpc _ =>
      exact .inr ⟨by rw [hpc]; rfl, rfl, nofun⟩
  | config hpc _ _ _ | noConfig hpc _ _ | clock hpc | send hpc =>
      exact .inr ⟨by rw [hpc]; rfl, rfl, nofun⟩
  | busy hpc => simp [hpc, SubmissionPc.unreported] at ha
  | _ => simp [Submitter.goto, SubmissionPc.unreported] at ha

/-- An attender restores before it gives its signal. -/
lemma Attender.active_of_restores {srv : Server} {sh : Shared} {reply : Reply} {a a' : Attender}
    {e : Effect} (h : a.step srv sh reply = some (a', e)) (he : e.restores = true) : a.active := by
  rw [Attender.active]
  cases Attender.step_move h with
  | rpcWriteProof hpc | rpcResetNonce hpc | rpcResetEpoch hpc | rpcUnpause hpc | writeProof hpc
  | resetNonce hpc | resetEpoch hpc | unpause hpc =>
      rw [hpc]
      rfl
  | _ => cases he

/-! ## Runs -/

/-- What has been reported when the submission loop is where it is. -/
structure Reported (s : Sys) : Prop where
  counted : (reports s.journal).length = s.attenders.length
  unreported : s.submission.pc.unreported = true → reports (theRound s.journal) = []
  awaited : ∀ r i, s.submission.pc = .await r i → InOwnRound i s.journal

theorem Reported.step {srv : Server} {s s' : Sys} {act : Action} (hi : Reported s)
    (h : s.step srv act = some s') : Reported s' := by
  rcases Sys.step_roundMove h with ⟨who, e, -, hwho, he, -, -, hj, hsub, hatt⟩ |
    ⟨reply, sub, e, -, hs, rfl⟩ | ⟨i, reply, a, a', e, -, ha, hs, rfl⟩
  · have hb : Event.begins (who, e) = false := Event.begins_of_ne (.inl (by rintro rfl; cases hwho))
    have hr : e.reported = Option.none :=
      Effect.reported_of_attender (Effect.attender_of_not_ofRound he)
    refine ⟨?_, ?_, ?_⟩
    · rw [hj, hatt, reports_cons_none hr, hi.counted]
    · rw [hj, hsub, reports_round_cons hb hr]
      exact hi.unreported
    · rw [hj, hsub]
      intro r i hpc
      rw [InOwnRound, reports_cons_none hr, reports_round_cons hb hr]
      exact hi.awaited r i hpc
  · rcases Submitter.step_spawns hs with ⟨he, hpc⟩ |
      ⟨r, n, solution, cfg, tx, l, hpc, rfl, -, -, hpc'⟩
    · have hr : e.reported = Option.none := Effect.reported_of_attender he
      refine ⟨?_, ?_, fun r i hr => absurd hr (hpc r i)⟩
      · simp [reports_cons_none hr, hi.counted, he]
      · intro hatt
        rcases Submitter.step_unreported hs hatt with rfl | ⟨hatt, -, hne⟩
        · exact congrArg reports (since_cons_cut (by simp [Event.begins]))
        · exact (reports_round_cons (Event.begins_of_ne (.inr hne)) hr).trans (hi.unreported hatt)
    · -- the report of this round
      have hnone : reports (theRound s.journal) = [] := hi.unreported (by rw [hpc]; rfl)
      have hb : Event.begins (.submission, .spawnAttender l) = false :=
        Event.begins_of_ne (.inr (by intro h; cases h))
      refine ⟨?_, ?_, ?_⟩
      · simp [reports, Effect.reported, Effect.attender, ← hi.counted]
      · intro hatt
        simp [hpc', SubmissionPc.unreported] at hatt
      · intro r' i hr'
        simp only [Sys.perform_submission, hpc', SubmissionPc.await.injEq] at hr'
        obtain ⟨rfl, rfl⟩ := hr'
        refine ⟨l, reports s.journal, rfl, hi.counted, ?_⟩
        show reports (theRound ((.submission, .spawnAttender l) :: s.journal)) = [l]
        rw [theRound, since_cons hb]
        exact congrArg (l :: ·) hnone
  · have hr : e.reported = Option.none := Effect.reported_of_attender (Attender.step_spawns hs).1
    have hb : Event.begins (.attender i, e) = false :=
      Event.begins_of_ne (.inl (by intro h; cases h))
    refine ⟨?_, ?_, ?_⟩
    · simp [reports_cons_none hr, hi.counted, (Attender.step_spawns hs).1]
    · intro hatt
      exact (reports_round_cons hb hr).trans (hi.unreported hatt)
    · intro r j hpc
      rw [InOwnRound, Sys.perform_journal, reports_cons_none hr, reports_round_cons hb hr]
      exact hi.awaited r j hpc

theorem reported {srv : Server} {C : Sys → Action → Prop} {s : Sys}
    (h : Reach (machine srv) C s) : Reported s := by
  refine h.invariant ?_ fun _ _ _ _ hi _ hs => hi.step hs
  rintro _ ⟨p, rfl⟩
  exact ⟨rfl, nofun, nofun⟩

theorem RoundsSerialised.step {srv : Server} {s s' : Sys} {act : Action}
    (hi : RoundsSerialised s) (hserial : Serial s) (hrep : Reported s)
    (h : s.step srv act = some s') : RoundsSerialised s' := by
  rcases Sys.step_roundMove h with ⟨who, e, -, hwho, he, -, -, hj, -, -⟩ |
    ⟨reply, sub, e, -, hs, rfl⟩ | ⟨i, reply, a, a', e, -, ha, hs, rfl⟩
  · have hr : e.reported = Option.none :=
      Effect.reported_of_attender (Effect.attender_of_not_ofRound he)
    refine ⟨hj ▸ .cons ?_ hi.restores, hj ▸ .cons ?_ hi.once⟩
    · rintro i rfl
      cases hwho
    · intro hsome
      rw [hr] at hsome
      cases hsome
  · refine ⟨.cons nofun hi.restores, .cons ?_ hi.once⟩
    intro hsome
    rcases Submitter.step_spawns hs with ⟨he, -⟩ | ⟨r, n, solution, cfg, tx, l, hpc, -, -, -, -⟩
    · rw [Effect.reported_of_attender he] at hsome
      cases hsome
    · exact hrep.unreported (by rw [hpc]; rfl)
  · refine ⟨.cons ?_ hi.restores, .cons ?_ hi.once⟩
    · intro j hj hrestores
      obtain rfl := Actor.attender.inj hj
      -- the submission loop still waits for this attender
      obtain ⟨r, hpc⟩ := hserial.active i a ha (Attender.active_of_restores hs hrestores)
      exact hrep.awaited r i hpc
    · intro hsome
      rw [Effect.reported_of_attender (Attender.step_spawns hs).1] at hsome
      cases hsome

/-- **Serial rounds.**  In every run an attender restores `app_proof`, `app_nonce`, `epoch_hashes`
and `PAUSED` only in its own round, and no round has two transactions reported successful. -/
theorem roundsSerialised {srv : Server} {C : Sys → Action → Prop} {s : Sys}
    (h : Reach (machine srv) C s) : RoundsSerialised s := by
  refine h.invariant ?_ fun _ _ _ hr hi _ hs => hi.step (serial hr) (reported hr) hs
  rintro _ ⟨p, rfl⟩
  exact ⟨Each.nil, Each.nil⟩

/-- Two rounds, the first settled by its attender, the second with its attender at work. -/
theorem roundsSerialised_twoRounds :
    ∃ s, Reach (machine (Replay.server .unavailable)) Honest s ∧
      (reports s.journal).length = 2 ∧ RoundsSerialised s := by
  obtain ⟨s, hr, hs⟩ := exists_of_replay (Replay.server .unavailable) Honest (Replay.proofAt 1 0)
    (Replay.settledRound ++ Replay.mission 1 1 ++ Replay.solve 1 5 1 1 (Replay.solution 2 20) ++
      Replay.pause 120 ++ Replay.attempt (Replay.proofAt 2 60) ++
      [.land 1 (Replay.proofAt 3 120), .submission (.outcome .ok),
        .notify 2 (Replay.proofAt 3 120)] ++
      List.replicate 4 (.attender 1 .go))
    (fun s => decide ((reports s.journal).length = 2)) (by decide +kernel)
  exact ⟨s, hr, of_decide_eq_true hs, roundsSerialised hr⟩

end OrePool
