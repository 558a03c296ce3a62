import OrePool.LedgerReplay
import OrePool.Lemmas.Writes

/-!
# The pool's total

`update_pool_rewards` picks the rows of an authority, a column without a unique index, and
reports an error when it has changed more than one.  The payment processor tries again after an
error, so a second row for the wallet would be paid again and again.

There is none.  The index is on the proof account, which an authority determines, so no authority
has two rows (`PoolsKept`).  Hence an attempt that fails has changed nothing, one that goes through
has changed one row, and the loop adds the rewards of its message once, whatever the other tasks
do between the attempts (`poolTotal`).  In the ledger, the payment processor gets past the pool's
total by that loop alone (`Ledger.retryPool_of_exec`).
-/

namespace OrePool

open Interleaving Tables

/-! ## Rows of an authority -/

/-- The proof accounts are unique, and each is that of its row's authority. -/
structure PoolsKept (host : Host) (db : Database) : Prop where
  unique : Unique PoolRow.proofPubkey db.pools
  legit : ∀ row ∈ db.pools, ∃ key, row.authorityPubkey = host.keys.toString key ∧
    row.proofPubkey = host.keys.toString (host.proofPubkey key)

/-- The proof account of an authority, both as texts. -/
def Host.proofOf (host : Host) (authorityPubkey : String) : String :=
  ((host.keys.fromStr authorityPubkey).map fun key =>
    host.keys.toString (host.proofPubkey key)).getD ""

lemma PoolsKept.unique_authority {host : Host} {db : Database} (h : PoolsKept host db) :
    Unique PoolRow.authorityPubkey db.pools := by
  refine h.unique.of_determined (g := host.proofOf) ?_
  intro row hrow
  obtain ⟨key, hauthority, hproof⟩ := h.legit row hrow
  rw [hauthority, hproof, Host.proofOf, host.keys.fromStr_toString]
  rfl

lemma PoolsKept.write {host : Host} {db : Database} {w : Write} (hi : PoolsKept host db)
    (hw : host.Legit w) (fault : Option Fault) :
    PoolsKept host (db.write host.sql fault w).1 := by
  refine db.write_induction host.sql fault w hi fun db' hmove => ?_
  cases hmove with
  | addNewPool id hfree =>
      refine ⟨hi.unique.append hfree, ?_⟩
      intro row hrow
      rcases List.mem_append.mp hrow with hrow | hrow
      · exact hi.legit row hrow
      · obtain rfl := List.mem_singleton.mp hrow
        exact hw
  | updatePoolRewards authority earned =>
      refine ⟨hi.unique.update fun _ => rfl, ?_⟩
      intro row hrow
      obtain ⟨row', hrow', rfl⟩ := List.mem_map.mp hrow
      obtain ⟨key, hkey⟩ := hi.legit row' hrow'
      refine ⟨key, ?_⟩
      split
      · exact hkey
      · exact hkey
  | _ => exact ⟨hi.unique, hi.legit⟩

theorem poolsKept {host : Host} {db : Database}
    (h : Reach (tables host.sql) (fun _ a => host.Legit a.1) db) : PoolsKept host db := by
  refine h.invariant ?_ ?_
  · intro db h0
    obtain rfl : db = .init := h0
    exact ⟨List.nodup_nil, fun row hrow => by cases hrow⟩
  · intro db a db' _ hi hc hs
    obtain rfl := Option.some.inj hs
    exact hi.write hc a.2

/-! ## The loop -/

/-- The totals of an authority's rows. -/
def Database.totals (db : Database) (authority : String) : List SqlNumber :=
  (select PoolRow.authorityPubkey authority db.pools).map PoolRow.totalRewards

/-- What an attempt to add to the total does: nothing if it fails, and else one row is changed. -/
structure Attempted (host : Host) (db : Database) (fault : Option Fault) (authority : String)
    (earned : Int64) : Prop where
  failed : (db.updatePoolRewards host.sql fault authority earned).2.isOk = false →
    (db.updatePoolRewards host.sql fault authority earned).1 = db
  done : (db.updatePoolRewards host.sql fault authority earned).2.isOk = true →
    ∃ before row after, db.pools = before ++ row :: after ∧ row.authorityPubkey = authority ∧
      (∀ r ∈ before ++ after, r.authorityPubkey ≠ authority) ∧
      (db.updatePoolRewards host.sql fault authority earned).1 =
        { db with pools := before ++ row.earn host.sql earned :: after }

/-- Calls one after the other. -/
def Host.writeAll (host : Host) (calls : List (Write × Option Fault)) (db : Database) : Database :=
  calls.foldl (fun db a => (db.write host.sql a.2 a.1).1) db

/-- The loop around `update_pool_rewards`: before each attempt other tasks make calls, and what
goes wrong around the attempt is given.  `none` if it has not ended. -/
def Host.retryPool (host : Host) (msg : MessageInternalMineSuccess) :
    List (List (Write × Option Fault) × Option Fault) → Database → Option Database
  | [], _ => none
  | (others, fault) :: attempts, db =>
      match (PaymentPc.updatePool msg).step host (host.writeAll others db) fault with
      | some (.updatePool _, db') => host.retryPool msg attempts db'
      | some (_, db') => some db'
      | none => none

/-- A call of another task: totals are added to by the payment processor alone. -/
def Host.Elsewhere (host : Host) (w : Write) : Prop :=
  host.Legit w ∧ ∀ authority earned, w ≠ .updatePoolRewards authority earned

section Loop

variable {host : Host} {db db' : Database}

lemma PoolsKept.attempted (hi : PoolsKept host db) (fault : Option Fault) (authority : String)
    (earned : Int64) : Attempted host db fault authority earned := by
  rcases db.updatePoolRewards_cases host.sql fault authority earned with ⟨hdb, hok⟩ | ⟨hdb, hok⟩
  · exact ⟨fun _ => hdb, fun h => by simp [hok] at h⟩
  · refine ⟨?_, ?_⟩
    · -- more than one row is ruled out, so that none was picked
      intro h
      have hne : (select PoolRow.authorityPubkey authority db.pools).length ≠ 1 := fun h1 => by
        rw [hok.mpr h1] at h
        cases h
      have hle := hi.unique_authority.select_le_one authority
      have hnil := List.length_eq_zero_iff.mp (by omega :
        (select PoolRow.authorityPubkey authority db.pools).length = 0)
      rw [hdb, update_of_select_eq_nil hnil]
    · intro h
      obtain ⟨row, hrow⟩ := List.length_eq_one_iff.mp (hok.mp h)
      obtain ⟨before, after, hpools, hupdate, hauthority, hothers⟩ :=
        update_of_select_eq_singleton (f := PoolRow.earn host.sql earned) hrow
      exact ⟨before, row, after, hpools, hauthority, hothers, by rw [hdb, hupdate]⟩

lemma Database.totals_write {w : Write} (hw : host.Elsewhere w) (fault : Option Fault)
    (authority : String) :
    (db.write host.sql fault w).1.totals authority = db.totals authority ∨
      (db.write host.sql fault w).1.totals authority = db.totals authority ++ [.int 0] := by
  refine db.write_induction host.sql fault w (.inl rfl) fun db' hmove => ?_
  cases hmove with
  | addNewPool id hfree =>
      simp only [Database.totals, select_append, select_singleton, List.map_append]
      split
      · exact .inr rfl
      · exact .inl (List.append_nil _)
  | updatePoolRewards authority earned => exact absurd rfl (hw.2 _ _)
  | _ => exact .inl rfl

/-- The total of an authority, nothing where it has no row. -/
def Database.total (db : Database) (authority : String) : SqlNumber :=
  (db.totals authority).headD (.int 0)

lemma Database.total_write {w : Write} (hw : host.Elsewhere w) (fault : Option Fault)
    (authority : String) :
    (db.write host.sql fault w).1.total authority = db.total authority := by
  rcases db.totals_write hw fault authority with h | h
  · rw [Database.total, h]
    rfl
  · rw [Database.total, Database.total, h]
    cases db.totals authority <;> rfl

lemma PoolsKept.writeAll {calls : List (Write × Option Fault)} (hi : PoolsKept host db)
    (hcalls : ∀ a ∈ calls, host.Elsewhere a.1) :
    PoolsKept host (host.writeAll calls db) ∧
      ∀ authority, (host.writeAll calls db).total authority = db.total authority := by
  induction calls generalizing db with
  | nil => exact ⟨hi, fun _ => rfl⟩
  | cons a calls ih =>
      have ha := hcalls a List.mem_cons_self
      obtain ⟨hkept, htotal⟩ := ih (hi.write ha.1 a.2) fun b hb =>
        hcalls b (List.mem_cons_of_mem _ hb)
      refine ⟨hkept, ?_⟩
      intro authority
      exact (htotal authority).trans (Database.total_write ha a.2 authority)

/-- An attempt that goes through adds to the total once. -/
lemma Attempted.totals {fault : Option Fault} {authority : String} {earned : Int64}
    (h : Attempted host db fault authority earned)
    (hok : (db.updatePoolRewards host.sql fault authority earned).2.isOk = true) :
    (db.updatePoolRewards host.sql fault authority earned).1.totals authority =
      [(db.total authority).add host.sql earned] := by
  obtain ⟨before, row, after, hpools, hauthority, hothers, hdb⟩ := h.done hok
  have hnil : ∀ l : List PoolRow, (∀ r ∈ l, r.authorityPubkey ≠ authority) →
      select PoolRow.authorityPubkey authority l = [] := fun l hl => by simpa [select] using hl
  have hbefore := hnil before fun r hr => hothers r (List.mem_append_left _ hr)
  have hafter := hnil after fun r hr => hothers r (List.mem_append_right _ hr)
  have hselect : ∀ r : PoolRow, r.authorityPubkey = authority →
      select PoolRow.authorityPubkey authority (before ++ r :: after) = [r] := fun r hr => by
    rw [List.append_cons, select_append, select_append, select_singleton, hbefore, hafter,
      if_pos hr]
    rfl
  rw [Database.total, hdb, Database.totals, Database.totals, hpools, hselect row hauthority,
    hselect (row.earn host.sql earned) hauthority]
  rfl

lemma PoolsKept.retryPool {msg : MessageInternalMineSuccess}
    {attempts : List (List (Write × Option Fault) × Option Fault)} (hi : PoolsKept host db)
    (hothers : ∀ a ∈ attempts, ∀ call ∈ a.1, host.Elsewhere call.1)
    (h : host.retryPool msg attempts db = some db') :
    db'.totals host.wallet = [(db.total host.wallet).add host.sql msg.rewards] := by
  induction attempts generalizing db with
  | nil => cases h
  | cons a attempts ih =>
      obtain ⟨others, fault⟩ := a
      obtain ⟨hkept, htotal⟩ := hi.writeAll (hothers _ List.mem_cons_self)
      have hattempt := hkept.attempted fault host.wallet msg.rewards
      simp only [Host.retryPool, PaymentPc.step] at h
      rw [← htotal]
      cases hok : ((host.writeAll others db).updatePoolRewards host.sql fault host.wallet
          msg.rewards).2.isOk with
      | true =>
          simp only [hok, if_true] at h
          rw [← Option.some.inj h]
          exact hattempt.totals hok
      | false =>
          -- nothing has changed, so the next attempt starts where this one did
          simp only [hok, Bool.false_eq_true, if_false, hattempt.failed hok] at h
          exact ih hkept (fun b hb => hothers b (List.mem_cons_of_mem _ hb)) h

end Loop

/-- **The pool's total.**  However the tables have come about by calls that insert a pool only with
its authority's proof account: an authority has at most one row, an attempt that fails changes
nothing and one that goes through changes one row, and the loop, once it ends, has added the
rewards of its message to the wallet's total once. -/
theorem poolTotal {host : Host} {db : Database}
    (h : Reach (tables host.sql) (fun _ a => host.Legit a.1) db) :
    (∀ authority, (select PoolRow.authorityPubkey authority db.pools).length ≤ 1) ∧
      (∀ fault authority earned, Attempted host db fault authority earned) ∧
      ∀ msg attempts db', (∀ a ∈ attempts, ∀ call ∈ a.1, host.Elsewhere call.1) →
        host.retryPool msg attempts db = some db' →
        db'.totals host.wallet = [(db.total host.wallet).add host.sql msg.rewards] := by
  have hi := poolsKept h
  refine ⟨hi.unique_authority.select_le_one, hi.attempted, ?_⟩
  intro msg attempts db' hothers hretry
  exact hi.retryPool hothers hretry

/-- Two failed attempts, a miner registered between them, and one that goes through. -/
theorem poolTotal_retried :
    ∃ db', Replay.host.retryPool (Replay.mineSuccess 1 1000)
        [([], some .connection),
          ([(.addNewMiner Replay.minerText true "Enrolled", none)], some .query), ([], none)]
        Replay.pooled = some db' ∧ db'.totals Replay.host.wallet = [.int 1000] := by
  obtain ⟨db', hdb'⟩ := Option.isSome_iff_exists.mp (by decide +kernel :
    (Replay.host.retryPool (Replay.mineSuccess 1 1000) [([], some .connection),
      ([(.addNewMiner Replay.minerText true "Enrolled", none)], some .query), ([], none)]
      Replay.pooled).isSome = true)
  refine ⟨db', hdb', ?_⟩
  have htotal := (poolTotal Replay.pooled_reach).2.2 _ _ db' ?_ hdb'
  · rw [htotal]
    decide +kernel
  · intro a ha call hcall
    simp only [List.mem_cons, List.not_mem_nil, or_false] at ha
    rcases ha with rfl | rfl | rfl
    · cases hcall
    · obtain rfl := List.mem_singleton.mp hcall
      exact ⟨trivial, by simp⟩
    · cases hcall

/-! ## In the ledger -/

section Runs

variable {host : Host} {msg : MessageInternalMineSuccess} {s s' : Ledger}

lemma Host.writeAll_append (calls : List (Write × Option Fault)) (w : Write)
    (fault : Option Fault) (db : Database) :
    host.writeAll (calls ++ [(w, fault)]) db =
      ((host.writeAll calls db).write host.sql fault w).1 :=
  List.foldl_append

/-- What the other tasks do while the payment processor waits is such calls. -/
lemma Ledger.step_elsewhere {act : LedgerAction}
    (h : s.step host act = some s') (hact : ∀ fault, act ≠ .payment fault) :
    s'.db = s.db ∨ ∃ w fault, host.Elsewhere w ∧ s'.db = (s.db.write host.sql fault w).1 := by
  cases Ledger.step_move h with
  | request _ _ _ | mineSuccess _ _ => exact .inl rfl
  | handshake _ hs =>
      refine (HandshakePc.step_writes hs).imp id fun ⟨w, hw, hdb⟩ => ⟨w, _, ⟨hw.legit, ?_⟩, hdb⟩
      cases hw <;> simp
  | payment hs => exact absurd rfl (hact _)
  | addPool fault => exact .inr ⟨_, fault, ⟨host.legit_addPool, by simp⟩, rfl⟩
  | addChallenge challenge fault =>
      exact .inr ⟨.addNewChallenge challenge, fault, ⟨trivial, by simp⟩, rfl⟩

/-- The others leave the payment processor where it is. -/
lemma Ledger.step_payment {act : LedgerAction} (hpc : s.payment = .updatePool msg)
    (h : s.step host act = some s') (hact : ∀ fault, act ≠ .payment fault) :
    s'.payment = .updatePool msg := by
  cases Ledger.step_move h with
  | payment _ => exact absurd rfl (hact _)
  | mineSuccess _ hreceive => cases hpc.symm.trans hreceive
  | request _ _ _ | handshake _ _ | addPool _ | addChallenge _ _ => exact hpc

/-- A step of the others adds at most one call to those they have made. -/
lemma Ledger.step_writeAll {act : LedgerAction} {others : List (Write × Option Fault)}
    {db : Database} (hdb : s.db = host.writeAll others db)
    (hothers : ∀ call ∈ others, host.Elsewhere call.1) (h : s.step host act = some s')
    (hact : ∀ fault, act ≠ .payment fault) :
    ∃ others', (∀ call ∈ others', host.Elsewhere call.1) ∧ s'.db = host.writeAll others' db := by
  rcases Ledger.step_elsewhere h hact with hsame | ⟨w, fault, hw, hwrite⟩
  · exact ⟨others, hothers, hsame.trans hdb⟩
  · refine ⟨others ++ [(w, fault)],
      List.forall_mem_append.mpr ⟨hothers, List.forall_mem_singleton.mpr hw⟩, ?_⟩
    rw [hwrite, hdb, Host.writeAll_append]

/-- A run that takes the payment processor past the pool's total has gone through the loop:
`others` is what has been called since the last attempt. -/
lemma Ledger.retryPool_of_exec {db : Database} {others : List (Write × Option Fault)}
    {acts : List LedgerAction} (hpc : s.payment = .updatePool msg)
    (hdb : s.db = host.writeAll others db) (hothers : ∀ call ∈ others, host.Elsewhere call.1)
    (h : exec (ledger host) Any s acts = some s') (hpc' : s'.payment ≠ .updatePool msg) :
    ∃ before after s₁ attempts, acts = before ++ after ∧
      exec (ledger host) Any s before = some s₁ ∧ s₁.payment = .getContributionId msg ∧
      (∀ a ∈ attempts, ∀ call ∈ a.1, host.Elsewhere call.1) ∧
      host.retryPool msg attempts db = some s₁.db := by
  induction acts generalizing s db others with
  | nil =>
      obtain rfl := Option.some.inj h
      exact absurd hpc hpc'
  | cons act acts ih =>
      obtain ⟨s₂, hs, hrest⟩ := exec_cons_eq_some.mp h
      by_cases hact : ∃ fault, act = .payment fault
      · obtain ⟨fault, rfl⟩ := hact
        obtain ⟨⟨pc, db'⟩, hstep, rfl⟩ := Option.map_eq_some_iff.mp hs
        rw [hpc, hdb] at hstep
        obtain ⟨hpc₂, hdb₂⟩ := Prod.mk.inj (Option.some.inj hstep)
        cases hok : ((host.writeAll others db).updatePoolRewards host.sql fault host.wallet
            msg.rewards).2.isOk with
        | true =>
            rw [hok, if_pos rfl] at hpc₂
            refine ⟨[.payment fault], acts, { s with db := db', payment := pc }, [(others, fault)],
              rfl, exec_cons_eq_some.mpr ⟨_, hs, rfl⟩, hpc₂.symm,
              List.forall_mem_singleton.mpr hothers, ?_⟩
            rw [Host.retryPool, hstep]
            subst hpc₂
            rfl
        | false =>
            rw [hok, if_neg Bool.false_ne_true] at hpc₂
            have hnone : ({ s with db := db', payment := pc } : Ledger).db =
                host.writeAll [] db' := rfl
            obtain ⟨before, after, s₁, attempts, rfl, hexec, hend, hattempts, hretry⟩ :=
              ih hpc₂.symm hnone (List.forall_mem_nil _) hrest
            refine ⟨.payment fault :: before, after, s₁, (others, fault) :: attempts, rfl,
              exec_cons_eq_some.mpr ⟨_, hs, hexec⟩, hend,
              List.forall_mem_cons.mpr ⟨hothers, hattempts⟩, ?_⟩
            rw [Host.retryPool, hstep]
            subst hpc₂
            exact hretry
      · have hact : ∀ fault, act ≠ .payment fault := fun fault heq => hact ⟨fault, heq⟩
        obtain ⟨others', hothers', hdb'⟩ := Ledger.step_writeAll hdb hothers hs hact
        obtain ⟨before, after, s₁, attempts, rfl, hexec, hend, hattempts, hretry⟩ :=
          ih (Ledger.step_payment hpc hs hact) hdb' hothers' hrest
        exact ⟨act :: before, after, s₁, attempts, rfl, exec_cons_eq_some.mpr ⟨_, hs, hexec⟩, hend,
          hattempts, hretry⟩

end Runs

/-- In the ledger, from where the payment processor is about to add to the pool's total to where it
has got past that point, the wallet's total has grown once. -/
theorem Ledger.paidPool {host : Host} {msg : MessageInternalMineSuccess} {s s' : Ledger}
    {acts : List LedgerAction} (hr : Reach (ledger host) Any s) (hpc : s.payment = .updatePool msg)
    (h : exec (ledger host) Any s acts = some s') (hpc' : s'.payment ≠ .updatePool msg) :
    ∃ before after s₁, acts = before ++ after ∧
      exec (ledger host) Any s before = some s₁ ∧ s₁.payment = .getContributionId msg ∧
      s₁.db.totals host.wallet = [(s.db.total host.wallet).add host.sql msg.rewards] := by
  have hnone : s.db = host.writeAll [] s.db := rfl
  obtain ⟨before, after, s₁, attempts, hacts, hexec, hend, hattempts, hretry⟩ :=
    Ledger.retryPool_of_exec hpc hnone (List.forall_mem_nil _) h hpc'
  exact ⟨before, after, s₁, hacts, hexec, hend,
    (poolsKept (Ledger.refines hr)).retryPool hattempts hretry⟩

end OrePool
