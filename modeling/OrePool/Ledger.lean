import OrePool.Core.Observer
import OrePool.Processors.Handshake
import OrePool.Processors.PoolMineSuccess

/-!
# The server around its database

Two machines over the tables.

* `ledger` has the tasks that use them: the handshakes under way, `pool_mine_success_processor`,
  and the insertions `main` and the submission processor make.  A step is one call, so that every
  interleaving of the calls is a run.  The messages paid out are any messages.
* `tables` has the calls alone, whoever makes them.  What the tasks of `ledger` write is `Legit`,
  so `ledger` refines it (`Ledger.refines`).
-/

namespace OrePool

open Interleaving

/-! ## The tasks -/

/-- The tables and the tasks at work on them.  A handshake keeps its number. -/
structure Ledger where
  db : Database
  handshakes : List (Request × HandshakePc)
  payment : PaymentPc
  deriving DecidableEq

/-- Which task moves, with what goes wrong around its call. -/
inductive LedgerAction
  /-- A request comes in, `now` on the server's clock. -/
  | request (req : Request) (now : UInt64) (connected : List Pubkey)
  | handshake (i : ℕ) (fault : Option Fault)
  /-- The payment processor receives a message. -/
  | mineSuccess (msg : MessageInternalMineSuccess)
  | payment (fault : Option Fault)
  /-- `main` inserts the pool it has not found. -/
  | addPool (fault : Option Fault)
  /-- `main` or the submission processor inserts a challenge. -/
  | addChallenge (challenge : InsertChallenge) (fault : Option Fault)
  deriving DecidableEq

def Ledger.step (host : Host) (s : Ledger) : LedgerAction → Option Ledger
  | .request req now connected =>
      some { s with handshakes := s.handshakes ++ [(req, req.open host now connected)] }
  | .handshake i fault =>
      (s.handshakes[i]?).bind fun (req, pc) => (pc.step host req s.db fault).map fun (pc', db') =>
        { s with db := db', handshakes := s.handshakes.set i (req, pc') }
  | .mineSuccess msg =>
      if s.payment = .receive then some { s with payment := .open host msg } else none
  | .payment fault =>
      (s.payment.step host s.db fault).map fun (pc, db') => { s with db := db', payment := pc }
  | .addPool fault =>
      some { s with db := (s.db.addNewPool fault host.wallet host.walletProof).1 }
  | .addChallenge challenge fault => some { s with db := (s.db.addNewChallenge fault challenge).1 }

/-- The tables as `init.sql` leaves them, and nothing under way. -/
def Ledger.start : Ledger := ⟨.init, [], .receive⟩

def ledger (host : Host) : Machine Ledger LedgerAction where
  init s := s = .start
  step := Ledger.step host

/-- What `Ledger.step` can do. -/
inductive Ledger.Move (host : Host) (s : Ledger) : LedgerAction → Ledger → Prop
  | request (req : Request) (now : UInt64) (connected : List Pubkey) :
      Move host s (.request req now connected)
        { s with handshakes := s.handshakes ++ [(req, req.open host now connected)] }
  | handshake {i : ℕ} {fault : Option Fault} {req : Request} {pc pc' : HandshakePc} {db' : Database}
      (hi : s.handshakes[i]? = some (req, pc))
      (hs : pc.step host req s.db fault = some (pc', db')) :
      Move host s (.handshake i fault)
        { s with db := db', handshakes := s.handshakes.set i (req, pc') }
  | mineSuccess (msg : MessageInternalMineSuccess) (hpc : s.payment = .receive) :
      Move host s (.mineSuccess msg) { s with payment := .open host msg }
  | payment {fault : Option Fault} {pc : PaymentPc} {db' : Database}
      (hs : s.payment.step host s.db fault = some (pc, db')) :
      Move host s (.payment fault) { s with db := db', payment := pc }
  | addPool (fault : Option Fault) :
      Move host s (.addPool fault)
        { s with db := (s.db.addNewPool fault host.wallet host.walletProof).1 }
  | addChallenge (challenge : InsertChallenge) (fault : Option Fault) :
      Move host s (.addChallenge challenge fault)
        { s with db := (s.db.addNewChallenge fault challenge).1 }

theorem Ledger.step_move {host : Host} {s s' : Ledger} {act : LedgerAction}
    (h : s.step host act = some s') : Ledger.Move host s act s' := by
  cases act with
  | request req now connected =>
      obtain rfl := Option.some.inj h
      exact .request req now connected
  | handshake i fault =>
      obtain ⟨⟨req, pc⟩, hi, h⟩ := Option.bind_eq_some_iff.mp h
      obtain ⟨⟨pc', db'⟩, hs, rfl⟩ := Option.map_eq_some_iff.mp h
      exact .handshake hi hs
  | mineSuccess msg =>
      simp only [Ledger.step] at h
      split at h
      · obtain rfl := Option.some.inj h
        exact .mineSuccess msg ‹_›
      · cases h
  | payment fault =>
      obtain ⟨⟨pc, db'⟩, hs, rfl⟩ := Option.map_eq_some_iff.mp h
      exact .payment hs
  | addPool fault =>
      obtain rfl := Option.some.inj h
      exact .addPool fault
  | addChallenge challenge fault =>
      obtain rfl := Option.some.inj h
      exact .addChallenge challenge fault

/-! ## The calls -/

/-- The tables under calls from anywhere. -/
def tables (sql : Sqlite) : Machine Database (Write × Option Fault) where
  init db := db = .init
  step db a := some (db.write sql a.2 a.1).1

/-- A pool is inserted only with the proof account of its authority. -/
def Host.Legit (host : Host) : Write → Prop
  | .addNewPool authorityPubkey proofPubkey =>
      ∃ key, authorityPubkey = host.keys.toString key ∧
        proofPubkey = host.keys.toString (host.proofPubkey key)
  | _ => True

/-- What a handshake writes. -/
inductive HandshakePc.Writes (host : Host) : Write → Prop
  | addMiner (pubkey : String) : Writes host (.addNewMiner pubkey true "Enrolled")
  | addPool : Writes host (.addNewPool host.wallet host.walletProof)
  | addReward (reward : InsertReward) : Writes host (.addNewReward reward)

lemma HandshakePc.step_writes {host : Host} {req : Request} {db db' : Database}
    {fault : Option Fault} {pc pc' : HandshakePc}
    (h : pc.step host req db fault = some (pc', db')) :
    db' = db ∨ ∃ w, HandshakePc.Writes host w ∧ db' = (db.write host.sql fault w).1 := by
  cases pc with
  | addMiner userPubkey =>
      simp only [HandshakePc.step, Option.some.injEq, Prod.mk.injEq] at h
      exact .inr ⟨_, .addMiner _, h.2.symm⟩
  | addPool userPubkey miner minerAdded =>
      simp only [HandshakePc.step, Option.some.injEq, Prod.mk.injEq] at h
      exact .inr ⟨_, .addPool, h.2.symm⟩
  | addReward userPubkey miner pool =>
      simp only [HandshakePc.step, Option.some.injEq, Prod.mk.injEq] at h
      exact .inr ⟨_, .addReward _, h.2.symm⟩
  | getMiner _ | getNewMiner _ _ | getPool _ _ _ | getNewPool _ _ _ _ =>
      simp only [HandshakePc.step] at h
      split at h <;> simp_all
  | accepted _ | rejected _ | panicked => cases h

/-- What the payment processor writes at each of its calls. -/
inductive PaymentPc.Writes (host : Host) : PaymentPc → Write → Prop
  | addEarnings (msg : MessageInternalMineSuccess) (rows : List MinerRows) :
      Writes host (.addEarnings msg rows) (.addNewEarningsBatch (rows.map MinerRows.earning))
  | updateRewards (msg : MessageInternalMineSuccess) (rows : List MinerRows) :
      Writes host (.updateRewards msg rows) (.updateRewards (rows.map MinerRows.reward))
  | addContributions (msg : MessageInternalMineSuccess) (rows : List MinerRows) :
      Writes host (.addContributions msg rows)
        (.addNewContributionsBatch (rows.map MinerRows.contribution))
  | updatePool (msg : MessageInternalMineSuccess) :
      Writes host (.updatePool msg) (.updatePoolRewards host.wallet msg.rewards)
  | updateChallenge (msg : MessageInternalMineSuccess) (contributionId : Int64) :
      Writes host (.updateChallenge msg contributionId)
        (.updateChallengeRewards msg.challenge.toList contributionId msg.rewards)

lemma PaymentPc.step_writes {host : Host} {db db' : Database} {fault : Option Fault}
    {pc pc' : PaymentPc} (h : pc.step host db fault = some (pc', db')) :
    db' = db ∨ ∃ w, PaymentPc.Writes host pc w ∧ db' = (db.write host.sql fault w).1 := by
  cases pc with
  | addEarnings msg rows =>
      simp only [PaymentPc.step, Option.some.injEq, Prod.mk.injEq] at h
      exact .inr ⟨_, .addEarnings msg rows, h.2.symm⟩
  | updateRewards msg rows =>
      simp only [PaymentPc.step, Option.some.injEq, Prod.mk.injEq] at h
      exact .inr ⟨_, .updateRewards msg rows, h.2.symm⟩
  | addContributions msg rows =>
      simp only [PaymentPc.step, Option.some.injEq, Prod.mk.injEq] at h
      exact .inr ⟨_, .addContributions msg rows, h.2.symm⟩
  | updatePool msg =>
      simp only [PaymentPc.step, Option.some.injEq, Prod.mk.injEq] at h
      exact .inr ⟨_, .updatePool msg, h.2.symm⟩
  | updateChallenge msg contributionId =>
      simp only [PaymentPc.step, Option.some.injEq, Prod.mk.injEq] at h
      exact .inr ⟨_, .updateChallenge msg contributionId, h.2.symm⟩
  | getContributionId msg =>
      simp only [PaymentPc.step] at h
      split at h <;> simp_all
  | receive | panicked => cases h

lemma Host.legit_addPool (host : Host) :
    host.Legit (.addNewPool host.wallet host.walletProof) := ⟨host.walletPubkey, rfl, rfl⟩

lemma HandshakePc.Writes.legit {host : Host} {w : Write} (h : HandshakePc.Writes host w) :
    host.Legit w := by
  cases h with
  | addPool => exact host.legit_addPool
  | addMiner _ | addReward _ => trivial

lemma PaymentPc.Writes.legit {host : Host} {pc : PaymentPc} {w : Write}
    (h : PaymentPc.Writes host pc w) : host.Legit w := by
  cases h <;> trivial

/-- A step of a task is at most one legitimate call. -/
lemma Ledger.step_write {host : Host} {s s' : Ledger} {act : LedgerAction}
    (h : s.step host act = some s') :
    s'.db = s.db ∨ ∃ w fault, host.Legit w ∧ s'.db = (s.db.write host.sql fault w).1 := by
  cases Ledger.step_move h with
  | request _ _ _ | mineSuccess _ _ => exact .inl rfl
  | handshake _ hs =>
      exact (HandshakePc.step_writes hs).imp id fun ⟨w, hw, hdb⟩ => ⟨w, _, hw.legit, hdb⟩
  | payment hs =>
      exact (PaymentPc.step_writes hs).imp id fun ⟨w, hw, hdb⟩ => ⟨w, _, hw.legit, hdb⟩
  | addPool fault => exact .inr ⟨_, fault, host.legit_addPool, rfl⟩
  | addChallenge challenge fault => exact .inr ⟨.addNewChallenge challenge, fault, trivial, rfl⟩

/-- **Refinement.**  The tables of a run are those of a run of legitimate calls. -/
theorem Ledger.refines {host : Host} {C : Ledger → LedgerAction → Prop} {s : Ledger}
    (h : Reach (ledger host) C s) :
    Reach (tables host.sql) (fun _ a => host.Legit a.1) s.db := by
  refine h.invariant (I := fun s => Reach (tables host.sql) (fun _ a => host.Legit a.1) s.db) ?_ ?_
  · intro s h0
    obtain rfl : s = .start := h0
    exact .init rfl
  · intro s act s' _ hr _ hs
    rcases Ledger.step_write hs with h | ⟨w, fault, hw, h⟩
    · rw [h]
      exact hr
    · rw [h]
      exact .step (a := (w, fault)) hr hw rfl

end OrePool
