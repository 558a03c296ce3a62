import OrePool.LedgerReplay
import OrePool.PoolServer
import OrePool.Properties.Admission
import OrePool.Properties.Provenance

/-!
# Whoever earns has been let in

From a signature to a row of `earnings` it is a long way: a handshake finds or inserts the miner, a
connection is registered with the miner's id, a frame comes in and is checked, the solution becomes
a contribution, a round with it lands, an attender sends the message, the payment processor writes
the rows.  `EarnersEntitled` says where a row comes from, whatever the tasks do in between.  A row
of `earnings` or of `contributions` written since the start goes back to a frame that its key has
signed and that passed every check.  The miner it names is that of a connection that was registered
at some time under the address the frame came in by; the handshake of that connection was signed
with the key under which the miner stands in `miners`, and the miner is enabled.

It need not be the connection the frame came in by: the task of the frame looks its address up, and
by then the address can be that of another.

`handle_socket` is called by an accepted handshake with the connection it ends in, so that in
`wiredServer` a connection waits for its handshake.
-/

namespace OrePool

open Interleaving Traversal

/-! ## The server -/

/-- The handshake has ended in this connection, with the id the mining side knows the key by. -/
def HandshakePc.opens (srv : Server) (pubkey : Pubkey) (version : ClientVersion) :
    HandshakePc → Bool
  | .accepted conn => conn.pubkey = pubkey && conn.clientVersion = version &&
      srv.minerIdFor pubkey = some conn.minerId
  | _ => false

/-- A connection is registered by its handshake. -/
def wired {η : Type} (srv : Server) (x : PoolServer η) : LinkedAction Action LedgerAction → Bool
  | .sender (.connect _ pubkey version) =>
      x.receiver.handshakes.any fun h => h.2.opens srv pubkey version
  | _ => true

/-- The server with its database, started over the tables `db`. -/
def wiredServer (srv : Server) (host : Host) (db : Database) :
    Machine (PoolServer Intake) (LinkedAction Action LedgerAction) :=
  (poolServer intakeObserver srv host db).restrict (wired srv)

/-! ## The property -/

/-- The connection is that of a handshake that was signed with its key, and the miner has a row for
that key and is enabled. -/
structure Entitled (host : Host) (l : Ledger) (conn : ClientConnection) : Prop where
  handshake : ∃ req, (req, .accepted conn) ∈ l.handshakes ∧
    host.keys.fromStr req.username = some conn.pubkey ∧ req.Signed host conn.pubkey
  miner : ∃ miner ∈ l.db.miners, miner.id = conn.minerId ∧ miner.enabled = true ∧
    host.keys.fromStr miner.pubkey = some conn.pubkey

/-- The rows are those of a contribution that was vetted, for the miner of a connection that was
registered at some time under the address of its frame, and that is entitled. -/
structure MinerRows.Due (srv : Server) (host : Host) (x : PoolServer Intake) (r : MinerRows)
    (sub : Submission) : Prop where
  paid : ∃ msg ∈ x.sender.1.sentMessages,
    msg.contributions.lookup sub.pubkey = some sub.contribution ∧
      msg.minerRows host.poolId sub.contribution = some r
  ids : ∀ id ∈ r.minerIds, id = sub.conn.minerId
  vetted : Vetted srv x.sender.1 x.sender.2 sub
  entitled : Entitled host x.receiver sub.conn

/-- **Entitlement.**  What has been written since the start is due. -/
structure EarnersEntitled (srv : Server) (host : Host) (db : Database) (x : PoolServer Intake) :
    Prop where
  earnings : ∃ new, x.receiver.db.earnings = db.earnings ++ new ∧
    ∀ e ∈ new, ∃ r sub, MinerRows.Due srv host x r sub ∧ r.earning = e
  contributions : ∃ new, x.receiver.db.contributions = db.contributions ++ new ∧
    ∀ row ∈ new, ∃ r sub, MinerRows.Due srv host x r sub ∧
      ContributionRow.Records r.contribution row

/-! ## Handshakes -/

section Handshakes

variable {host : Host} {s s' : Ledger} {act : LedgerAction}

lemma HandshakePc.Backed.mono {req : Request} {calls calls' : List Call} {userPubkey : Pubkey}
    {pc : HandshakePc} (hsub : calls ⊆ calls') (h : pc.Backed host req calls userPubkey) :
    pc.Backed host req calls' userPubkey := by
  have hvouched : ∀ miner, Vouched host calls userPubkey miner →
      Vouched host calls' userPubkey miner :=
    fun miner ⟨call, hcall, hminer⟩ => ⟨call, hsub hcall, hminer⟩
  cases pc with
  | getMiner _ | addMiner _ | getNewMiner _ _ => exact h
  | getPool _ miner _ | addPool _ miner _ | getNewPool _ miner _ _ | addReward _ miner _ =>
      exact ⟨h.1, hvouched miner h.2⟩
  | accepted _ =>
      obtain ⟨miner, hminer, hrest⟩ := h
      exact ⟨miner, hvouched miner hminer, hrest⟩
  | rejected _ | panicked => trivial

/-- A handshake under way has made sure of what it says by calls that saw no other miners than those
there are. -/
def Grounded (host : Host) (db : Database) (h : Request × HandshakePc) : Prop :=
  (∃ why, h.2 = .rejected why) ∨ ∃ userPubkey calls,
    host.keys.fromStr h.1.username = some userPubkey ∧ h.2.Backed host h.1 calls userPubkey ∧
      ∀ call ∈ calls, call.1.miners ⊆ db.miners

lemma Grounded.mono {db db' : Database} {h : Request × HandshakePc} (hsub : db.miners ⊆ db'.miners)
    (hi : Grounded host db h) : Grounded host db' h := by
  refine hi.imp_right ?_
  rintro ⟨userPubkey, calls, hkey, hbacked, hcalls⟩
  refine ⟨userPubkey, calls, hkey, hbacked, fun call hcall => ?_⟩
  exact List.Subset.trans (hcalls call hcall) hsub

lemma Grounded.step {req : Request} {db db' : Database} {fault : Option Fault}
    {pc pc' : HandshakePc} (hi : Grounded host db (req, pc)) (hsub : db.miners ⊆ db'.miners)
    (hs : pc.step host req db fault = some (pc', db')) : Grounded host db' (req, pc') := by
  rcases hi with ⟨why, rfl⟩ | ⟨userPubkey, calls, hkey, hbacked, hcalls⟩
  · cases hs
  · refine .inr ⟨userPubkey, (db, fault) :: calls, hkey, ?_, ?_⟩
    · exact (hbacked.mono (List.subset_cons_self _ _)).step hkey List.mem_cons_self hs
    · refine List.forall_mem_cons.mpr ⟨hsub, ?_⟩
      exact fun call hcall => List.Subset.trans (hcalls call hcall) hsub

/-- Miners are never deleted. -/
lemma Database.write_miners_subset (sql : Sqlite) (db : Database) (fault : Option Fault)
    (w : Write) : db.miners ⊆ (db.write sql fault w).1.miners := by
  refine db.write_induction sql fault w (List.Subset.refl _) fun db' hmove => ?_
  cases hmove with
  | addNewMiner _ _ => exact List.subset_append_left _ _
  | _ => exact List.Subset.refl _

lemma Ledger.step_miners (h : s.step host act = some s') : s.db.miners ⊆ s'.db.miners := by
  rcases Ledger.step_write h with hdb | ⟨w, fault, -, hdb⟩
  · rw [hdb]
    exact List.Subset.refl _
  · rw [hdb]
    exact Database.write_miners_subset host.sql s.db fault w

/-- A handshake that has been accepted stays so. -/
lemma Ledger.step_accepted {req : Request} {conn : ClientConnection}
    (hmem : (req, HandshakePc.accepted conn) ∈ s.handshakes) (h : s.step host act = some s') :
    (req, .accepted conn) ∈ s'.handshakes := by
  cases Ledger.step_move h with
  | request _ _ _ => exact List.mem_append_left _ hmem
  | @handshake i fault req' pc pc' db' hi hs =>
      obtain ⟨j, hj⟩ := List.mem_iff_getElem?.mp hmem
      by_cases hij : i = j
      · subst hij
        obtain ⟨rfl, rfl⟩ := Prod.mk.inj (Option.some.inj (hi.symm.trans hj))
        cases hs
      · refine List.mem_iff_getElem?.mpr ⟨j, ?_⟩
        rw [List.getElem?_set_ne hij]
        exact hj
  | mineSuccess _ _ | payment _ | addPool _ | addChallenge _ _ => exact hmem

theorem grounded {db : Database} {C : Ledger → LedgerAction → Prop}
    (hdbms : host.poweredByDbms = .sqlite) (h : Reach (ledgerOn host db) C s) :
    ∀ hs ∈ s.handshakes, Grounded host s.db hs := by
  refine h.invariant (I := fun s => ∀ hs ∈ s.handshakes, Grounded host s.db hs) ?_ ?_
  · rintro s rfl h hh
    cases hh
  · intro s act s' _ hi _ hs
    have hsub := Ledger.step_miners hs
    cases Ledger.step_move hs with
    | request req now connected =>
        refine List.forall_mem_append.mpr ⟨hi, List.forall_mem_singleton.mpr ?_⟩
        rcases req.open_sqlite hdbms now connected with ⟨userPubkey, hopen⟩ | hopen | hopen
        · exact .inr ⟨userPubkey, [], (Request.open_eq_getMiner hopen).2, hopen ▸ rfl,
            List.forall_mem_nil _⟩
        · exact .inl ⟨_, hopen⟩
        · exact .inl ⟨_, hopen⟩
    | handshake hmem hstep =>
        intro h hh
        rcases List.mem_or_eq_of_mem_set hh with hh | rfl
        · exact (hi h hh).mono hsub
        · exact (hi _ (List.mem_of_getElem? hmem)).step hsub hstep
    | mineSuccess _ _ => exact hi
    | payment _ | addPool _ | addChallenge _ _ => exact fun h hh => (hi h hh).mono hsub

/-- Whoever has been accepted is entitled. -/
theorem entitled {db : Database} {C : Ledger → LedgerAction → Prop} {conn : ClientConnection}
    (hdbms : host.poweredByDbms = .sqlite) (h : Reach (ledgerOn host db) C s)
    (hmem : ∃ req, (req, .accepted conn) ∈ s.handshakes) : Entitled host s conn := by
  obtain ⟨req, hmem⟩ := hmem
  rcases grounded hdbms h _ hmem with ⟨why, hpc⟩ | ⟨userPubkey, calls, hkey, hbacked, hcalls⟩
  · cases hpc
  · obtain ⟨miner, ⟨call, hcall, hminer, hpubkey⟩, henabled, hsigned, hconn⟩ := hbacked
    obtain ⟨hpk, hid⟩ : conn.pubkey = userPubkey ∧ conn.minerId = miner.id := by
      rw [hconn]
      exact ⟨rfl, rfl⟩
    rw [← hpk] at hkey hsigned hpubkey
    exact ⟨⟨req, hmem, hkey, hsigned⟩, miner, hcalls call hcall hminer, hid.symm, henabled,
      hpubkey⟩

end Handshakes

/-! ## Connections -/

/-- A connection is registered in its own step. -/
lemma Sys.step_insertSocket {srv : Server} {s s' : Sys} {act : Action}
    (h : s.step srv act = some s') {addr : SocketAddr} {conn : ClientConnection}
    (hmem : (Actor.connections, Effect.insertSocket addr conn) ∈ s'.journal) :
    (Actor.connections, Effect.insertSocket addr conn) ∈ s.journal ∨
      act = .connect addr conn.pubkey conn.clientVersion ∧ srv.Registered conn := by
  cases Sys.step_move h with
  | connect hfree hid =>
      rcases List.mem_cons.mp hmem with heq | hmem
      · simp only [Prod.mk.injEq, Effect.insertSocket.injEq, true_and] at heq
        obtain ⟨rfl, rfl⟩ := heq
        exact .inr ⟨rfl, hid⟩
      · exact .inl hmem
  | receive who m =>
      obtain ⟨-, -, -, -, -, -, hj⟩ := s.spawnFor_fields (received srv.signatures who m)
      rw [Sys.perform_journal, hj] at hmem
      exact .inl (List.mem_of_ne_of_mem (by simp) hmem)
  | _ => exact .inl (List.mem_of_ne_of_mem (by simp) hmem)

/-! ## Rows -/

/-- The rows the payment processor has at hand. -/
def PaymentPc.rows : PaymentPc → List MinerRows
  | .addEarnings _ rows | .updateRewards _ rows | .addContributions _ rows => rows
  | _ => []

/-- The rows are some of those of a message received. -/
def FromMessages (host : Host) (msgs : List MessageInternalMineSuccess) (r : MinerRows) : Prop :=
  host.poweredByDbms = .sqlite ∧ ∃ msg ∈ msgs, ∃ rows, msg.rows host.poolId = some rows ∧ r ∈ rows

/-- What has been written since the tables were `db`, and what is still to be written, is from
messages received. -/
structure Written (host : Host) (db : Database) (s : Ledger)
    (msgs : List MessageInternalMineSuccess) : Prop where
  pending : ∀ r ∈ s.payment.rows, FromMessages host msgs r
  earnings : ∃ new, s.db.earnings = db.earnings ++ new ∧
    ∀ e ∈ new, ∃ r, FromMessages host msgs r ∧ r.earning = e
  contributions : ∃ new, s.db.contributions = db.contributions ++ new ∧
    ∀ row ∈ new, ∃ r, FromMessages host msgs r ∧ ContributionRow.Records r.contribution row

section Rows

variable {host : Host} {db db' : Database} {s s' : Ledger} {act : LedgerAction}
  {msgs : List MessageInternalMineSuccess}

lemma FromMessages.append {r : MinerRows} (h : FromMessages host msgs r)
    (new : List MessageInternalMineSuccess) : FromMessages host (msgs ++ new) r := by
  obtain ⟨hdbms, msg, hmsg, hrows⟩ := h
  exact ⟨hdbms, msg, List.mem_append_left _ hmsg, hrows⟩

/-- Tables with the same earnings and contributions. -/
lemma Written.congr (hi : Written host db s msgs) (hpc : s'.payment.rows ⊆ s.payment.rows)
    (hearnings : s'.db.earnings = s.db.earnings)
    (hcontributions : s'.db.contributions = s.db.contributions) : Written host db s' msgs := by
  refine ⟨fun r hr => hi.pending r (hpc hr), ?_, ?_⟩
  · rw [hearnings]
    exact hi.earnings
  · rw [hcontributions]
    exact hi.contributions

/-- A call that inserts neither. -/
lemma Written.write (hi : Written host db s msgs) {pc : PaymentPc} (hpc : pc.rows ⊆ s.payment.rows)
    {hs : List (Request × HandshakePc)} {fault : Option Fault} {w : Write}
    (hearnings : ∀ earnings, w ≠ .addNewEarningsBatch earnings)
    (hcontributions : ∀ contributions, w ≠ .addNewContributionsBatch contributions) :
    Written host db ⟨(s.db.write host.sql fault w).1, hs, pc⟩ msgs :=
  hi.congr hpc (s.db.write_earnings host.sql fault hearnings)
    (s.db.write_contributions host.sql fault hcontributions)

/-- The rows of a message are at hand when it has been received. -/
lemma Written.receive (hi : Written host db s msgs) (msg : MessageInternalMineSuccess) :
    Written host db { s with payment := .open host msg } (msgs ++ [msg]) := by
  refine ⟨?_, ?_, ?_⟩
  · show ∀ r ∈ (PaymentPc.open host msg).rows, _
    rw [PaymentPc.open]
    split
    · rename_i hdbms
      split
      · exact List.forall_mem_nil _
      · exact List.forall_mem_nil _
      · rename_i hrows
        exact fun r hr => ⟨hdbms, msg, List.mem_append_right _ List.mem_cons_self, _, hrows, hr⟩
    · exact List.forall_mem_nil _
  · obtain ⟨new, hnew, hfrom⟩ := hi.earnings
    refine ⟨new, hnew, fun e he => ?_⟩
    obtain ⟨r, hr, heq⟩ := hfrom e he
    exact ⟨r, hr.append _, heq⟩
  · obtain ⟨new, hnew, hfrom⟩ := hi.contributions
    refine ⟨new, hnew, fun row hrow => ?_⟩
    obtain ⟨r, hr, heq⟩ := hfrom row hrow
    exact ⟨r, hr.append _, heq⟩

/-- The processor writes what it has at hand. -/
lemma Written.payment (hi : Written host db s msgs) {fault : Option Fault} {pc : PaymentPc}
    (h : s.payment.step host s.db fault = some (pc, db')) :
    Written host db { s with db := db', payment := pc } msgs := by
  have hpending := hi.pending
  cases hpc : s.payment with
  | receive | panicked =>
      rw [hpc] at h
      cases h
  | addEarnings msg rows =>
      rw [hpc] at h hpending
      obtain ⟨rfl, rfl⟩ := Prod.mk.inj (Option.some.inj h)
      refine s.db.write_induction host.sql fault (.addNewEarningsBatch (rows.map MinerRows.earning))
        (motive := fun db' =>
          Written host db { s with db := db', payment := .updateRewards msg rows } msgs)
        ⟨hpending, hi.earnings, hi.contributions⟩ ?_
      intro db' hmove
      cases hmove
      obtain ⟨new, hnew, hfrom⟩ := hi.earnings
      refine ⟨hpending, ⟨new ++ rows.map MinerRows.earning, ?_, ?_⟩, hi.contributions⟩
      · rw [← List.append_assoc, ← hnew]
      · refine List.forall_mem_append.mpr ⟨hfrom, List.forall_mem_map.mpr ?_⟩
        exact fun r hr => ⟨r, hpending r hr, rfl⟩
  | updateRewards msg rows =>
      rw [hpc] at h hpending
      obtain ⟨rfl, rfl⟩ := Prod.mk.inj (Option.some.inj h)
      refine hi.write (w := .updateRewards (rows.map MinerRows.reward)) ?_ ?_ ?_
      · rw [hpc]
        exact List.Subset.refl _
      · rintro _ ⟨⟩
      · rintro _ ⟨⟩
  | addContributions msg rows =>
      rw [hpc] at h hpending
      obtain ⟨rfl, rfl⟩ := Prod.mk.inj (Option.some.inj h)
      rcases s.db.addNewContributionsBatch_cases fault (rows.map MinerRows.contribution) with
        ⟨hdb, -⟩ | ⟨inserted, hinserted, hdb⟩
      · exact hi.congr (List.nil_subset _) (congrArg _ hdb) (congrArg _ hdb)
      · obtain ⟨new, hnew, hfrom⟩ := hi.contributions
        rw [hdb]
        refine ⟨List.forall_mem_nil _, hi.earnings, new ++ inserted, ?_, ?_⟩
        · rw [← List.append_assoc, ← hnew]
        · refine List.forall_mem_append.mpr ⟨hfrom, fun row hrow => ?_⟩
          obtain ⟨c, hc, hrecords⟩ := exists_of_forall₂_right hinserted hrow
          obtain ⟨r, hr, rfl⟩ := List.mem_map.mp hc
          exact ⟨r, hpending r hr, hrecords⟩
  | updatePool msg =>
      rw [hpc] at h
      obtain ⟨rfl, rfl⟩ := Prod.mk.inj (Option.some.inj h)
      refine hi.write (w := .updatePoolRewards host.wallet msg.rewards) ?_ ?_ ?_
      · split <;> exact List.nil_subset _
      · rintro _ ⟨⟩
      · rintro _ ⟨⟩
  | getContributionId msg =>
      rw [hpc, PaymentPc.step] at h
      split at h <;> obtain ⟨rfl, rfl⟩ := Prod.mk.inj (Option.some.inj h)
      · exact hi.congr (List.nil_subset _) rfl rfl
      · exact hi.congr (List.nil_subset _) rfl rfl
  | updateChallenge msg contributionId =>
      rw [hpc] at h
      obtain ⟨rfl, rfl⟩ := Prod.mk.inj (Option.some.inj h)
      refine hi.write
        (w := .updateChallengeRewards msg.challenge.toList contributionId msg.rewards) ?_ ?_ ?_
      · exact List.nil_subset _
      · rintro _ ⟨⟩
      · rintro _ ⟨⟩

theorem Written.step (hi : Written host db s msgs) (h : s.step host act = some s') :
    Written host db s' (msgs ++ act.received.toList) := by
  have hquiet : Written host db s' msgs → Written host db s' (msgs ++ []) := by
    rw [List.append_nil]
    exact id
  have hsame := List.Subset.refl s.payment.rows
  cases Ledger.step_move h with
  | mineSuccess msg _ => exact hi.receive msg
  | payment hs => exact hquiet (hi.payment hs)
  | request _ _ _ => exact hquiet (hi.congr hsame rfl rfl)
  | handshake _ hs =>
      refine hquiet ?_
      rcases HandshakePc.step_writes hs with rfl | ⟨w, hw, rfl⟩
      · exact hi.congr hsame rfl rfl
      · refine hi.write hsame ?_ ?_
        · rintro _ rfl
          cases hw
        · rintro _ rfl
          cases hw
  | addPool fault =>
      refine hquiet (hi.write (w := .addNewPool host.wallet host.walletProof) hsame ?_ ?_)
      · rintro _ ⟨⟩
      · rintro _ ⟨⟩
  | addChallenge challenge fault =>
      refine hquiet (hi.write (w := .addNewChallenge challenge) hsame ?_ ?_)
      · rintro _ ⟨⟩
      · rintro _ ⟨⟩

end Rows

/-! ## Runs -/

section Runs

variable {srv : Server} {host : Host} {db : Database}
  {C : PoolServer Intake → LinkedAction Action LedgerAction → Prop} {x : PoolServer Intake}

/-- A handshake opens the connection it has ended in. -/
lemma HandshakePc.eq_of_opens {pc : HandshakePc} {conn : ClientConnection}
    (hreg : srv.Registered conn) (h : pc.opens srv conn.pubkey conn.clientVersion = true) :
    pc = .accepted conn := by
  obtain ⟨pubkey, minerId, version⟩ := conn
  cases pc with
  | accepted conn' =>
      obtain ⟨pubkey', minerId', version'⟩ := conn'
      simp only [HandshakePc.opens, Bool.and_eq_true, decide_eq_true_eq] at h
      obtain ⟨⟨rfl, rfl⟩, hid⟩ := h
      obtain rfl : minerId = minerId' := Option.some.inj (hreg.symm.trans hid)
      rfl
  | _ => cases h

/-- Every connection that has been registered is one of a handshake. -/
lemma accepted_of_connected (h : Reach (wiredServer srv host db) C x) :
    ∀ addr conn, (Actor.connections, Effect.insertSocket addr conn) ∈ x.sender.1.journal →
      ∃ req, (req, .accepted conn) ∈ x.receiver.handshakes := by
  refine h.invariant (I := fun x => ∀ addr conn,
    (Actor.connections, Effect.insertSocket addr conn) ∈ x.sender.1.journal →
      ∃ req, (req, .accepted conn) ∈ x.receiver.handshakes) ?_ ?_
  · rintro ⟨⟨s, n⟩, k, l⟩ ⟨⟨⟨p, rfl⟩, -⟩, -⟩ addr conn hmem
    cases hmem
  · intro x act y _ hi _ hxy addr conn hmem
    obtain ⟨hwired, hxy⟩ := Machine.restrict_step hxy
    cases Channel.step_move hxy with
    | sender hs =>
        obtain ⟨s', hs', rfl⟩ := Option.map_eq_some_iff.mp hs
        rcases Sys.step_insertSocket hs' hmem with hmem | ⟨rfl, hreg⟩
        · exact hi addr conn hmem
        · obtain ⟨⟨req, pc⟩, hh, hopens⟩ := List.any_eq_true.mp hwired
          exact ⟨req, HandshakePc.eq_of_opens hreg hopens ▸ hh⟩
    | @take m t _ hs =>
        have hs : Ledger.step host x.receiver (.mineSuccess m) = some t := hs
        obtain ⟨req, hreq⟩ := hi addr conn hmem
        exact ⟨req, Ledger.step_accepted hreq hs⟩
    | @receiver b t _ hs =>
        have hs : Ledger.step host x.receiver b = some t := hs
        obtain ⟨req, hreq⟩ := hi addr conn hmem
        exact ⟨req, Ledger.step_accepted hreq hs⟩

/-- **Entitlement.**  In every run, started over whatever tables, each row of `earnings` and of
`contributions` written since is due: the frame it goes back to was signed and checked, and the
miner it names has been let in, at some time and to the frame's address, with the key it is
registered under. -/
theorem earnersEntitled (h : Reach (wiredServer srv host db) C x) :
    EarnersEntitled srv host db x := by
  have hpool : Reach (poolServer intakeObserver srv host db) Any x :=
    h.of_restrict.mono fun _ _ _ => trivial
  have hsender : Reach ((machine srv).observe intakeObserver) Any x.sender :=
    Channel.sender_reach (fun _ _ _ => trivial) hpool
  have hreceiver : Reach ((ledgerOn host db).observe
      (mineSuccessChannel intakeObserver srv host db).inbox) Any (x.receiver, receivedMessages x) :=
    Channel.receiver_reach (fun _ _ _ _ _ => trivial) (fun _ _ _ _ _ => trivial) hpool
  have hwritten : Written host db x.receiver (receivedMessages x) := by
    refine hreceiver.observed_invariant (I := Written host db) ?_ ?_
    · rintro s rfl
      exact ⟨List.forall_mem_nil _, ⟨[], (List.append_nil _).symm, List.forall_mem_nil _⟩,
        [], (List.append_nil _).symm, List.forall_mem_nil _⟩
    · intro s msgs act s' _ hi _ hs
      exact hi.step hs
  have hledger : Reach (ledgerOn host db) Any x.receiver := hreceiver.forget fun _ _ _ => trivial
  have hdue : ∀ r, FromMessages host (receivedMessages x) r →
      ∃ sub, MinerRows.Due srv host x r sub := by
    rintro r ⟨hdbms, msg, hmsg, rows, hrows, hr⟩
    have hsent : msg ∈ x.sender.1.sentMessages := List.mem_of_mem_take hmsg
    obtain ⟨pubkey, c, hc, hrow⟩ := msg.entry_of_rows hrows hr
    obtain ⟨who, hwho⟩ := Sys.mem_sentMessages hsent
    obtain ⟨l, -, -, hfrom⟩ :=
      (payments_fromInserts (hsender.forget (D := Any) fun _ _ _ => trivial)).sent who msg hwho
    obtain ⟨w, sub, hsub, rfl, rfl⟩ := hfrom pubkey c hc
    have hvetted := vetted hsender sub (.inr ⟨w, hsub⟩)
    obtain ⟨addr, -, hconnected, -⟩ := hvetted.brought
    exact ⟨sub, ⟨msg, hsent, hc, hrow⟩, (msg.minerRows_ids hrow).1, hvetted,
      entitled hdbms hledger (accepted_of_connected h addr sub.conn hconnected)⟩
  refine ⟨?_, ?_⟩
  · obtain ⟨new, hnew, hfrom⟩ := hwritten.earnings
    refine ⟨new, hnew, fun e he => ?_⟩
    obtain ⟨r, hr, heq⟩ := hfrom e he
    obtain ⟨sub, hsub⟩ := hdue r hr
    exact ⟨r, sub, hsub, heq⟩
  · obtain ⟨new, hnew, hfrom⟩ := hwritten.contributions
    refine ⟨new, hnew, fun row hrow => ?_⟩
    obtain ⟨r, hr, hrecords⟩ := hfrom row hrow
    obtain ⟨sub, hsub⟩ := hdue r hr
    exact ⟨r, sub, hsub, hrecords⟩

end Runs

/-! ## An example -/

namespace Replay

/-- The first miner makes its handshake. -/
def firstRequest : Request where
  version := .V1
  username := rawText (key 1)
  password := String.ofList ((sign 1 (toLeBytes 100)).map fun b => Char.ofNat b.toNat)
  timestamp := 100

/-- The pool's row, and the handshake of a miner that is not in the tables yet. -/
def enrollment : List LedgerAction :=
  [.addPool none, .request firstRequest 110 []] ++ List.replicate 5 (.handshake 0 none)

/-- A start over the tables `db`. -/
def intakeOver (db : Database) : PoolServer Intake where
  sender := (Sys.start (server .sqlite) (proofAt 1 0),
    intakeObserver.start (Sys.start (server .sqlite) (proofAt 1 0)))
  taken := 0
  receiver := ⟨db, [], .receive⟩

end Replay

/-- The miner is let in, works and is paid. -/
theorem earnersEntitled_paid :
    ∃ x, Reach (wiredServer (Replay.server .sqlite) Replay.host .init) Any x ∧
      (x.receiver.db.earnings.length = 1 ∧ x.receiver.db.contributions.length = 1) ∧
      EarnersEntitled (Replay.server .sqlite) Replay.host .init x := by
  have hstart : (wiredServer (Replay.server .sqlite) Replay.host .init).init
      (Replay.intakeOver .init) := ⟨⟨⟨_, rfl⟩, rfl⟩, rfl, rfl⟩
  have hrun : (exec (wiredServer (Replay.server .sqlite) Replay.host .init) Any
      (Replay.intakeOver .init)
      (Replay.enrollment.map .receiver ++ Replay.payingRound.map .sender ++
        [.take] ++ List.replicate 3 (.receiver (.payment none)))).any (fun x =>
        decide (x.receiver.db.earnings.length = 1 ∧ x.receiver.db.contributions.length = 1)) =
      true := by
    decide +kernel
  obtain ⟨x, hr, hx⟩ := exists_of_exec hstart hrun
  exact ⟨x, hr, of_decide_eq_true hx, earnersEntitled hr⟩

end OrePool
