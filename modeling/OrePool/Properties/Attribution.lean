import OrePool.Lemmas.Connections
import OrePool.Lemmas.Stages
import OrePool.Processors.PoolMineSuccess
import OrePool.Replay

/-!
# Work is attributed to its miner

A contribution is stored under the key that signed it and carries a miner id, under which the
earnings, the rewards and the contribution itself are booked when the round is paid.  `Attributed`
says that the id is the one registered for the key.

The key is taken from the frame, the id from the connection the frame came in on, and nothing
compares the two: a frame signed by one client and sent over the connection of another is booked
for the other (`not_attributed`).  In runs in which no such frame gets as far as the insert, all is
attributed (`attributed`).
-/

namespace OrePool

open Interleaving

/-! ## The property -/

/-- **Attribution.**  With a SQLite database every contribution inserted is signed by its key and
carries the id of that key in the `miners` table, and every row written for a payment is for such
a contribution and under its id. -/
structure Attributed (srv : Server) (s : Sys) : Prop where
  inserted : ∀ who sub, (who, Effect.insertContribution sub) ∈ s.journal →
    srv.Signed sub.pubkey sub.solution ∧
      srv.minersId sub.pubkey = some sub.contribution.minerId
  rows : ∀ who msg poolId rows, (who, Effect.sendMineSuccess msg) ∈ s.journal →
    msg.rows poolId = some rows → ∀ r ∈ rows,
      ∃ who sub, (who, Effect.insertContribution sub) ∈ s.journal ∧
        r.contribution.nonce = sub.solution.nonce ∧
        ∀ id ∈ r.minerIds, srv.minersId sub.pubkey = some id

/-- What is inserted came in on a connection of the key that signed it. -/
def OwnFrames (s : Sys) (act : Action) : Prop :=
  ∀ sub ∈ s.inserting act, sub.conn.pubkey = sub.pubkey

instance : DecidableRel OwnFrames := fun s act =>
  inferInstanceAs (Decidable (∀ sub ∈ s.inserting act, sub.conn.pubkey = sub.pubkey))

/-! ## Inserts -/

/-- Every contribution inserted is signed by its key and carries the id a handshake gets for
it. -/
def AllOwned (srv : Server) (s : Sys) : Prop :=
  ∀ who sub, (who, Effect.insertContribution sub) ∈ s.journal →
    srv.Signed sub.pubkey sub.solution ∧ srv.minerIdFor sub.pubkey = some sub.contribution.minerId

theorem AllOwned.step {srv : Server} {s s' : Sys} {act : Action} (hi : AllOwned srv s)
    (hk : Known srv s) (hc : OwnFrames s act) (hs : s.step srv act = some s') :
    AllOwned srv s' := by
  intro w x hx
  cases Sys.step_epochMove hs with
  | keep who e hj hno _ _ _ _ =>
      rw [hj, List.mem_cons, Prod.mk.injEq] at hx
      rcases hx with ⟨-, rfl⟩ | hx
      · cases hno
      · exact hi w x hx
  | insert who sub hins hj _ _ =>
      rw [hj, List.mem_cons, Prod.mk.injEq, Effect.insertContribution.injEq] at hx
      rcases hx with ⟨-, rfl⟩ | hx
      · -- the connection's key is the frame's
        obtain ⟨hsig, hreg⟩ := hk.inserting hins
        have hown : x.conn.pubkey = x.pubkey := hc x hins
        exact ⟨hsig, hown ▸ hreg⟩
      · exact hi w x hx
  | reset who opened stored _ hj _ _ _ =>
      rw [hj, List.mem_cons, Prod.mk.injEq] at hx
      rcases hx with ⟨-, hx⟩ | hx
      · cases hx
      · exact hi w x hx

theorem allOwned {srv : Server} {s : Sys} (h : Reach (machine srv) OwnFrames s) :
    AllOwned srv s := by
  refine h.invariant ?_ fun s act s' hr hi hc hs => hi.step (known hr) hc hs
  rintro _ ⟨p, rfl⟩ w x hx
  simp [Sys.start] at hx

/-! ## Payments -/

/-- Every entry of the contributions was inserted. -/
def FromInserts (j : List Event) (_ : Landing) (contributions : Contributions) : Prop :=
  ∀ pubkey c, contributions.lookup pubkey = some c →
    ∃ who sub, (who, Effect.insertContribution sub) ∈ j ∧ sub.pubkey = pubkey ∧
      sub.contribution = c

/-- What is paid for was inserted. -/
theorem payments_fromInserts {srv : Server} {C : Sys → Action → Prop} {s : Sys}
    (h : Reach (machine srv) C s) : Payments FromInserts s := by
  refine h.invariant ?_ fun s act s' hr hp _ hs => hp.step ?_ ?_ hs
  · rintro _ ⟨p, rfl⟩
    exact .start srv p
  · intro ev j l c hj pubkey x hx
    obtain ⟨who, sub, hm, hsub⟩ := hj pubkey x hx
    exact ⟨who, sub, List.mem_cons_of_mem _ hm, hsub⟩
  · intro i a _ _ _ pubkey c hc
    obtain ⟨sub, hsub, hpk, hcon⟩ := recorded_of_lookup hr hc
    obtain ⟨who, hm⟩ := Sys.mem_recorded hsub
    exact ⟨who, sub, mem_of_mem_since hm, hpk, hcon⟩

/-- **Attribution.**  With a SQLite database, in every run in which only frames from connections
of their own key are inserted, all work is attributed to its miner. -/
theorem attributed {srv : Server} (hsql : srv.poweredByDbms = .sqlite) {s : Sys}
    (h : Reach (machine srv) OwnFrames s) : Attributed srv s := by
  have howned : ∀ who sub, (who, Effect.insertContribution sub) ∈ s.journal →
      srv.Signed sub.pubkey sub.solution ∧
        srv.minersId sub.pubkey = some sub.contribution.minerId := by
    simpa [AllOwned, Server.minerIdFor, hsql] using allOwned h
  refine ⟨howned, ?_⟩
  intro w msg poolId rows hm hrows r hr
  obtain ⟨l, -, -, hfrom⟩ := (payments_fromInserts h).sent w msg hm
  obtain ⟨pubkey, c, hc, hrow⟩ := msg.entry_of_rows hrows hr
  obtain ⟨who, sub, hsub, -, rfl⟩ := hfrom pubkey c hc
  obtain ⟨hids, hnonce⟩ := msg.minerRows_ids hrow
  exact ⟨who, sub, hsub, hnonce, fun id hid => hids id hid ▸ (howned who sub hsub).2⟩

/-- A round that is paid for meets the condition of `attributed`. -/
theorem attributed_paidRound :
    ∃ s, Reach (machine (Replay.server .sqlite)) OwnFrames s ∧
      (s.journal.any fun ev => (ev.2.mineSuccess).any fun msg =>
        (msg.rows 1).any fun rows => rows.length = 1) = true ∧
      Attributed (Replay.server .sqlite) s := by
  obtain ⟨s, hr, hs⟩ := exists_of_replay (Replay.server .sqlite) OwnFrames (Replay.proofAt 1 0)
    (Replay.landedRound ++ [.notify 1 (Replay.proofAt 2 60), .attender 0 .go,
      .attender 0 (.db true), .attender 0 (.db true)] ++ List.replicate 3 (.attender 0 .go))
    (fun s => s.journal.any fun ev => (ev.2.mineSuccess).any fun msg =>
      (msg.rows 1).any fun rows => rows.length = 1) (by decide +kernel)
  exact ⟨s, hr, hs, attributed rfl hr⟩

/-- Without the condition work can be booked for another miner: a frame signed by the second
client comes in on the connection of the first. -/
theorem not_attributed :
    ¬ ∀ srv s, Reach (machine srv) Honest s → srv.poweredByDbms = .sqlite → Attributed srv s := by
  refine not_forall_of_replay (P := fun srv s => srv.poweredByDbms = .sqlite → Attributed srv s)
    (Replay.server .sqlite) (Replay.proofAt 1 0)
    ([.connect 1 (Replay.key 1) .V1, .connect 2 (Replay.key 2) .V1] ++ Replay.mission 0 2 ++
      Replay.solve 0 5 1 2 (Replay.solution 1 10))
    (fun s => s.journal.any fun ev => (ev.2.inserted).any fun sub =>
      decide (sub.pubkey = Replay.key 2 ∧ sub.contribution.minerId = 1))
    ?_ (by decide +kernel)
  intro s hs hc
  simp only [List.any_eq_true, Option.any_eq_true, decide_eq_true_eq] at hs
  obtain ⟨⟨who, e⟩, hm, sub, he, hpk, hid⟩ := hs
  cases e <;> simp only [Effect.inserted, reduceCtorEq, Option.some.injEq] at he
  subst he
  have hreg := ((hc rfl).inserted who _ hm).2
  rw [hpk, hid] at hreg
  exact absurd hreg (by decide)

end OrePool
