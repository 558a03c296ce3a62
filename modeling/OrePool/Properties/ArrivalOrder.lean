import Mathlib.Order.Lattice.Nat
import Mathlib.Order.WithBot
import OrePool.Core.Joins
import OrePool.Lemmas.Moves
import OrePool.Lemmas.Split
import OrePool.Replay

/-!
# Payment does not depend on the order of arrival

The tasks of an epoch's submissions are taken here one after the other, each to its end.  What the
epoch comes to is then a maximum for each key and one over all: `SamePayout` says that any order of
the same submissions, and any repetition of them, ends in the same keys, difficulties and
hashpowers, the same best difficulty, and the same amount for every key.  Submissions that a task
turns away or drops may be among them.
-/

namespace OrePool

open Joins

/-! ## One task after the other -/

/-- A submission as it comes out of the channel. -/
structure Arrival where
  addr : SocketAddr
  solution : Solution
  pubkey : Pubkey
  deriving DecidableEq

/-- Takes up to `n` atomic sections of a task, no other task moving. -/
def BestTask.run (srv : Server) : ℕ → BestTask → Shared → BestTask × Shared
  | 0, t, sh => (t, sh)
  | n + 1, t, sh =>
      match t.step srv sh with
      | some (t', e) => t'.run srv n (sh.apply e)
      | none => (t, sh)

/-- The task of an arrival at some position. -/
def Arrival.task (a : Arrival) (pc : BestPc) : BestTask := ⟨a.addr, a.solution, a.pubkey, pc⟩

/-- The task of an arrival, from its spawn to its end. -/
def Arrival.run (srv : Server) (a : Arrival) (sh : Shared) : BestTask × Shared :=
  (BestTask.spawn a.addr a.solution a.pubkey).run srv 5 sh

/-- The memory after the task of an arrival. -/
def Shared.process (srv : Server) (sh : Shared) (a : Arrival) : Shared := (a.run srv sh).2

/-- The memory after the tasks of some arrivals. -/
def Shared.processAll (srv : Server) (sh : Shared) (l : List Arrival) : Shared :=
  l.foldl (Shared.process srv) sh

/-- The difficulty of an arrival. -/
def Arrival.diff (srv : Server) (a : Arrival) : UInt32 := srv.drillx.difficulty a.solution

/-- A submission that its task gets as far as the contributions with: it is valid and within the
range of its key, its address is that of a connection, and it is difficult enough. -/
structure Arrival.Valid (srv : Server) (sh : Shared) (a : Arrival) : Prop where
  inRange : ∃ r, sh.clientNonceRanges.lookup a.pubkey = some r ∧
    r.contains a.solution.nonce = true
  connected : ∃ conn, sh.sockets.lookup a.addr = some conn
  valid : srv.drillx.isValid a.solution sh.appProof.challenge = true
  difficult : srv.args.expectedMinDifficulty ≤ a.diff srv

instance (srv : Server) (sh : Shared) (a : Arrival) : Decidable (a.Valid srv sh) :=
  decidable_of_iff
    ((∃ r ∈ sh.clientNonceRanges.lookup a.pubkey, r.contains a.solution.nonce = true) ∧
      (sh.sockets.lookup a.addr).isSome = true ∧
      srv.drillx.isValid a.solution sh.appProof.challenge = true ∧
      srv.args.expectedMinDifficulty ≤ a.diff srv)
    ⟨fun h => ⟨h.1, Option.isSome_iff_exists.mp h.2.1, h.2.2.1, h.2.2.2⟩,
      fun h => ⟨h.inRange, Option.isSome_iff_exists.mpr h.connected, h.valid, h.difficult⟩⟩

/-! ## The property -/

/-- What a contribution is paid by. -/
def InternalMessageContribution.supply (c : InternalMessageContribution) : UInt32 × UInt64 :=
  (c.suppliedDiff, c.hashpower)

/-- What a message pays a key before the cast, `none` where the processor panics.  The outer `none`
is a key without a contribution. -/
def MessageInternalMineSuccess.earned (msg : MessageInternalMineSuccess) (pubkey : Pubkey) :
    Option (Option ℕ) :=
  (msg.contributions.lookup pubkey).map fun c =>
    earnedRewards c.hashpower msg.totalHashpower msg.rewards

/-- **The same payment.**  The same keys with the same difficulties and hashpowers, the same best
difficulty, and the same amount for every key, whatever the reward. -/
structure SamePayout (e e' : EpochHashes) : Prop where
  supplied : ∀ pubkey,
    (e.contributions.lookup pubkey).map InternalMessageContribution.supply =
      (e'.contributions.lookup pubkey).map InternalMessageContribution.supply
  best : e.bestHash.difficulty = e'.bestHash.difficulty
  earned : ∀ (a : Attender) (id : Int64) (latestProof : Proof) (pubkey : Pubkey),
    (a.mineSuccess id latestProof e.contributions).earned pubkey =
      (a.mineSuccess id latestProof e'.contributions).earned pubkey

/-! ## One task -/

/-- How many sections a task has before it at most. -/
def BestPc.sections : BestPc → ℕ
  | .readRange => 5
  | .readSocket _ => 4
  | .readProof _ _ => 3
  | .readContributions _ => 2
  | .writeContribution _ _ => 1
  | .done => 0

lemma BestTask.Move.sections {srv : Server} {sh : Shared} {t t' : BestTask} {e : Effect}
    (h : BestTask.Move srv sh t t' e) : t'.pc.sections < t.pc.sections := by
  cases h with
  | refuse _ hpc _ | inRange hpc _ _ | socket hpc _ | accept hpc _ _ _ | decide hpc _ _
  | discard hpc _ _ | write hpc => simp [hpc, BestPc.sections]
  | drop hpc => rcases hpc with ⟨r, hpc⟩ | ⟨r, conn, hpc⟩ <;> simp [hpc, BestPc.sections]

/-- A task with no section to take is done. -/
lemma BestTask.done_of_step_eq_none {srv : Server} {sh : Shared} {t : BestTask}
    (h : t.step srv sh = none) : t.pc = .done := by
  revert h
  fun_cases BestTask.step srv sh t <;> simp_all

/-- A task taken through its sections is done. -/
lemma BestTask.run_done {srv : Server} {n : ℕ} {t : BestTask} {sh : Shared}
    (h : t.pc.sections ≤ n) : (t.run srv n sh).1.pc = .done := by
  induction n generalizing t sh with
  | zero =>
      rw [BestTask.run]
      cases hpc : t.pc <;> simp_all [BestPc.sections]
  | succ n ih =>
      rw [BestTask.run]
      split
      · rename_i t' e hstep
        have hlt := (BestTask.step_move hstep).sections
        exact ih (by omega)
      · rename_i hstep
        exact BestTask.done_of_step_eq_none hstep

/-- The task of an arrival gets to its end. -/
theorem Arrival.run_done (srv : Server) (a : Arrival) (sh : Shared) :
    (a.run srv sh).1.pc = .done :=
  BestTask.run_done (le_refl 5)

lemma BestTask.run_succ {srv : Server} {n : ℕ} {t t' : BestTask} {sh : Shared} {e : Effect}
    (h : t.step srv sh = some (t', e)) : t.run srv (n + 1) sh = t'.run srv n (sh.apply e) := by
  rw [BestTask.run, h]

/-- The task of a valid arrival gets as far as the contributions. -/
lemma Shared.process_eq_run {srv : Server} {sh : Shared} {a : Arrival} (h : a.Valid srv sh) :
    ∃ sub, sub.pubkey = a.pubkey ∧ sub.diff = a.diff srv ∧
      sh.process srv a = ((a.task (.readContributions sub)).run srv 2 sh).2 := by
  obtain ⟨r, hr, hn⟩ := h.inRange
  obtain ⟨conn, hconn⟩ := h.connected
  obtain ⟨sub, hsub⟩ : ∃ sub : Submission, sub =
    ⟨a.pubkey, a.solution, r, conn, sh.appProof.challenge, a.diff srv⟩ := ⟨_, rfl⟩
  have hrange : (a.task .readRange).step srv sh = some (a.task (.readSocket r), .none) := by
    simp [Arrival.task, BestTask.step, hr, hn]
  have hsocket : (a.task (.readSocket r)).step srv sh =
      some (a.task (.readProof r conn), .none) := by
    simp [Arrival.task, BestTask.step, hconn]
  have hproof : (a.task (.readProof r conn)).step srv sh =
      some (a.task (.readContributions sub), .accept sub) := by
    rw [hsub]
    exact if_pos ⟨h.valid, h.difficult⟩
  refine ⟨sub, by rw [hsub], by rw [hsub], ?_⟩
  calc sh.process srv a = ((a.task (.readSocket r)).run srv 4 sh).2 :=
        congrArg Prod.snd (BestTask.run_succ hrange)
    _ = ((a.task (.readProof r conn)).run srv 3 sh).2 :=
        congrArg Prod.snd (BestTask.run_succ hsocket)
    _ = ((a.task (.readContributions sub)).run srv 2 sh).2 :=
        congrArg Prod.snd (BestTask.run_succ hproof)

/-- What the task of a valid arrival comes to: an insert, unless the miner has supplied as much. -/
lemma Shared.process_of_valid {srv : Server} {sh : Shared} {a : Arrival} (h : a.Valid srv sh) :
    (∃ c, sh.epochHashes.contributions.lookup a.pubkey = some c ∧ a.diff srv ≤ c.suppliedDiff ∧
        sh.process srv a = sh) ∨
      (∀ c ∈ sh.epochHashes.contributions.lookup a.pubkey, c.suppliedDiff < a.diff srv) ∧
        ∃ sub, sub.pubkey = a.pubkey ∧ sub.diff = a.diff srv ∧
          sh.process srv a = { sh with epochHashes := sh.epochHashes.insertContribution sub } := by
  obtain ⟨sub, hpubkey, hdiff, hrun⟩ := Shared.process_eq_run h
  rw [← hpubkey, ← hdiff]
  by_cases hlt : ∀ c ∈ sh.epochHashes.contributions.lookup sub.pubkey, c.suppliedDiff < sub.diff
  · obtain ⟨old, hread⟩ : ∃ old, (a.task (.readContributions sub)).step srv sh =
        some (a.task (.writeContribution sub old), .none) := by
      cases hold : sh.epochHashes.contributions.lookup sub.pubkey with
      | none => exact ⟨none, by simp [Arrival.task, BestTask.step, hold]⟩
      | some c =>
          have hlt : c.suppliedDiff < sub.diff := hlt c hold
          exact ⟨some c, by simp [Arrival.task, BestTask.step, hold, hlt]⟩
    refine .inr ⟨hlt, sub, rfl, rfl, hrun.trans ?_⟩
    calc ((a.task (.readContributions sub)).run srv 2 sh).2
        = ((a.task (.writeContribution sub old)).run srv 1 sh).2 :=
          congrArg Prod.snd (BestTask.run_succ hread)
      _ = { sh with epochHashes := sh.epochHashes.insertContribution sub } := rfl
  · obtain ⟨c, hold, hge⟩ : ∃ c, sh.epochHashes.contributions.lookup sub.pubkey = some c ∧
        ¬ c.suppliedDiff < sub.diff := by
      simpa using hlt
    have hread : (a.task (.readContributions sub)).step srv sh =
        some (a.task .done, .discard sub) := by
      simp only [Arrival.task, BestTask.step, hold, if_neg hge]
    exact .inl ⟨c, hold, UInt32.not_lt.mp hge,
      hrun.trans (congrArg Prod.snd (BestTask.run_succ hread))⟩

/-- A task that ends with a section that changes nothing. -/
lemma BestTask.run_end {srv : Server} {n : ℕ} {t : BestTask} {sh : Shared} {e : Effect}
    (h : t.step srv sh = some ({ t with pc := .done }, e)) (he : sh.apply e = sh) :
    (t.run srv (n + 1) sh).2 = sh := by
  have hstop : ({ t with pc := .done } : BestTask).step srv sh = none := rfl
  rw [BestTask.run_succ h, he]
  cases n with
  | zero => rfl
  | succ n => rw [BestTask.run, hstop]

/-- Any other arrival is turned away or dropped. -/
lemma Shared.process_of_not_valid {srv : Server} {sh : Shared} {a : Arrival}
    (h : ¬ a.Valid srv sh) : sh.process srv a = sh := by
  have hrun : sh.process srv a = ((a.task .readRange).run srv 5 sh).2 := rfl
  rw [hrun]
  cases hr : sh.clientNonceRanges.lookup a.pubkey with
  | none =>
      have hstep : (a.task .readRange).step srv sh =
          some (a.task .done, .refuse a.pubkey .rangeNotSet) := by
        simp [Arrival.task, BestTask.step, hr]
      exact BestTask.run_end hstep rfl
  | some r =>
      cases hn : r.contains a.solution.nonce with
      | false =>
          have hstep : (a.task .readRange).step srv sh =
              some (a.task .done, .refuse a.pubkey .outOfRange) := by
            simp [Arrival.task, BestTask.step, hr, hn]
          exact BestTask.run_end hstep rfl
      | true =>
          have hrange : (a.task .readRange).step srv sh =
              some (a.task (.readSocket r), .none) := by
            simp [Arrival.task, BestTask.step, hr, hn]
          refine (congrArg Prod.snd (BestTask.run_succ hrange)).trans ?_
          show ((a.task (.readSocket r)).run srv 4 sh).2 = sh
          cases hconn : sh.sockets.lookup a.addr with
          | none =>
              have hstep : (a.task (.readSocket r)).step srv sh = some (a.task .done, .none) := by
                simp [Arrival.task, BestTask.step, hconn]
              exact BestTask.run_end hstep rfl
          | some conn =>
              have hsocket : (a.task (.readSocket r)).step srv sh =
                  some (a.task (.readProof r conn), .none) := by
                simp [Arrival.task, BestTask.step, hconn]
              refine (congrArg Prod.snd (BestTask.run_succ hsocket)).trans ?_
              show ((a.task (.readProof r conn)).run srv 3 sh).2 = sh
              -- in range and connected, so it is not valid or not difficult enough
              have hno : ¬ (srv.drillx.isValid a.solution sh.appProof.challenge = true ∧
                  srv.args.expectedMinDifficulty ≤ srv.drillx.difficulty a.solution) :=
                fun hok => h ⟨⟨r, hr, hn⟩, ⟨conn, hconn⟩, hok.1, hok.2⟩
              exact BestTask.run_end (e := .none) (if_neg hno) rfl

/-! ## What an epoch has supplied -/

/-- Every entry has the hashpower of its difficulty, and none exceeds the best difficulty. -/
structure EpochHashes.Coherent (e : EpochHashes) : Prop where
  hashpower : ∀ pubkey c, e.contributions.lookup pubkey = some c →
    c.hashpower = OrePool.hashpower c.suppliedDiff
  best : ∀ pubkey c, e.contributions.lookup pubkey = some c →
    c.suppliedDiff ≤ e.bestHash.difficulty

lemma EpochHashes.coherent_reset (e : EpochHashes) (opened : Challenge) (stored : Bool) :
    (e.reset opened stored).Coherent := by
  refine ⟨?_, ?_⟩
  · intro pubkey c h
    simp [EpochHashes.reset] at h
  · intro pubkey c h
    simp [EpochHashes.reset] at h

/-- The best difficulty after an insert is the larger one. -/
lemma EpochHashes.insertContribution_best (e : EpochHashes) (sub : Submission) :
    (e.insertContribution sub).bestHash.difficulty.toNat =
      e.bestHash.difficulty.toNat ⊔ sub.diff.toNat := by
  rw [EpochHashes.insertContribution]
  split
  · rename_i hlt
    exact (sup_eq_right.mpr (UInt32.lt_iff_toNat_lt.mp hlt).le).symm
  · rename_i hge
    exact (sup_eq_left.mpr (UInt32.le_iff_toNat_le.mp (UInt32.not_lt.mp hge))).symm

lemma EpochHashes.Coherent.insertContribution {e : EpochHashes} (h : e.Coherent)
    (sub : Submission) : (e.insertContribution sub).Coherent := by
  have hbest := e.insertContribution_best sub
  refine ⟨?_, ?_⟩
  · intro pubkey c hc
    rcases HashMap.lookup_of_insert hc with ⟨-, rfl⟩ | hc
    · rfl
    · exact h.hashpower pubkey c hc
  · intro pubkey c hc
    rw [UInt32.le_iff_toNat_le, hbest]
    rcases HashMap.lookup_of_insert hc with ⟨-, rfl⟩ | hc
    · exact le_sup_right
    · exact (UInt32.le_iff_toNat_le.mp (h.best pubkey c hc)).trans le_sup_left

/-- What has been supplied: the difficulty for each key, and the best one. -/
def EpochHashes.supplied (e : EpochHashes) : (Pubkey → WithBot ℕ) × ℕ :=
  (fun pubkey => (e.contributions.lookup pubkey).elim ⊥ fun c => (c.suppliedDiff.toNat : WithBot ℕ),
    e.bestHash.difficulty.toNat)

/-- What a valid arrival supplies. -/
def Arrival.worth (srv : Server) (a : Arrival) : (Pubkey → WithBot ℕ) × ℕ :=
  (fun pubkey => if pubkey = a.pubkey then ((a.diff srv).toNat : WithBot ℕ) else ⊥,
    (a.diff srv).toNat)

/-- What an arrival supplies. -/
def Arrival.supplied (srv : Server) (sh : Shared) (a : Arrival) : (Pubkey → WithBot ℕ) × ℕ :=
  if a.Valid srv sh then a.worth srv else ⊥

/-- An insert above the difficulty supplied before joins its own. -/
lemma EpochHashes.supplied_insertContribution {srv : Server} {e : EpochHashes} {a : Arrival}
    {sub : Submission} (hpubkey : sub.pubkey = a.pubkey) (hdiff : sub.diff = a.diff srv)
    (hlt : ∀ c ∈ e.contributions.lookup a.pubkey, c.suppliedDiff < a.diff srv) :
    (e.insertContribution sub).supplied = e.supplied ⊔ a.worth srv := by
  refine Prod.ext (funext fun pubkey => ?_) ?_
  · show ((e.insertContribution sub).contributions.lookup pubkey).elim ⊥ _ =
      (e.contributions.lookup pubkey).elim ⊥ _ ⊔ (if pubkey = a.pubkey then _ else ⊥)
    rw [EpochHashes.insertContribution, hpubkey]
    dsimp only
    by_cases hkey : pubkey = a.pubkey
    · subst hkey
      rw [AList.lookup_insert, if_pos rfl, Option.elim_some]
      have hsupplied : sub.contribution.suppliedDiff = a.diff srv := hdiff
      cases hold : e.contributions.lookup a.pubkey with
      | none => rw [Option.elim_none, bot_sup_eq, hsupplied]
      | some c =>
          have hle : c.suppliedDiff.toNat ≤ (a.diff srv).toNat :=
            (UInt32.lt_iff_toNat_lt.mp (hlt c hold)).le
          rw [Option.elim_some, hsupplied]
          exact (sup_eq_right.mpr (WithBot.coe_le_coe.mpr hle)).symm
    · rw [AList.lookup_insert_ne hkey, if_neg hkey, sup_bot_eq]
  · show (e.insertContribution sub).bestHash.difficulty.toNat = _
    rw [e.insertContribution_best, hdiff]
    rfl

/-- An arrival below the difficulty supplied before adds nothing. -/
lemma EpochHashes.Coherent.supplied_le {srv : Server} {e : EpochHashes} {a : Arrival}
    {c : InternalMessageContribution} (h : e.Coherent)
    (hc : e.contributions.lookup a.pubkey = some c) (hle : a.diff srv ≤ c.suppliedDiff) :
    a.worth srv ≤ e.supplied := by
  have hle : (a.diff srv).toNat ≤ c.suppliedDiff.toNat := UInt32.le_iff_toNat_le.mp hle
  refine ⟨fun pubkey => ?_, ?_⟩
  · show (if pubkey = a.pubkey then _ else ⊥) ≤ (e.contributions.lookup pubkey).elim ⊥ _
    split
    · rename_i hkey
      rw [hkey, hc, Option.elim_some]
      exact WithBot.coe_le_coe.mpr hle
    · exact bot_le
  · exact hle.trans (UInt32.le_iff_toNat_le.mp (h.best a.pubkey c hc))

/-- The memory is the same in what a task checks an arrival by. -/
structure Shared.ChecksLike (sh sh₀ : Shared) : Prop where
  ranges : sh.clientNonceRanges = sh₀.clientNonceRanges
  sockets : sh.sockets = sh₀.sockets
  proof : sh.appProof = sh₀.appProof

lemma Shared.ChecksLike.valid_iff {srv : Server} {sh sh₀ : Shared} (h : sh.ChecksLike sh₀)
    {a : Arrival} : a.Valid srv sh ↔ a.Valid srv sh₀ := by
  obtain ⟨hranges, hsockets, hproof⟩ := h
  constructor
  · rintro ⟨hin, hconnected, hpow, hdiff⟩
    exact ⟨hranges ▸ hin, hsockets ▸ hconnected, hproof ▸ hpow, hdiff⟩
  · rintro ⟨hin, hconnected, hpow, hdiff⟩
    exact ⟨hranges ▸ hin, hsockets ▸ hconnected, hproof ▸ hpow, hdiff⟩

/-- The task of an arrival joins what it supplies. -/
lemma joining_process (srv : Server) (sh₀ : Shared) :
    Joining (Shared.process srv) (fun sh => sh.epochHashes.supplied) (Arrival.supplied srv sh₀)
      fun sh _ => sh.ChecksLike sh₀ ∧ sh.epochHashes.Coherent where
  join := by
    rintro sh a ⟨hchecks, hcoherent⟩
    rw [Arrival.supplied]
    split
    · rename_i hvalid
      obtain ⟨c, hc, hle, hprocess⟩ | ⟨hlt, sub, hpubkey, hdiff, hprocess⟩ :=
        Shared.process_of_valid (hchecks.valid_iff.mpr hvalid)
      · rw [hprocess, sup_eq_left.mpr (hcoherent.supplied_le hc hle)]
      · rw [hprocess]
        exact EpochHashes.supplied_insertContribution hpubkey hdiff hlt
    · rename_i hno
      rw [Shared.process_of_not_valid fun hvalid => hno (hchecks.valid_iff.mp hvalid), sup_bot_eq]
  keep := by
    rintro sh a b ⟨hchecks, hcoherent⟩ -
    by_cases hvalid : a.Valid srv sh
    · obtain ⟨c, hc, hle, hprocess⟩ | ⟨hlt, sub, hpubkey, hdiff, hprocess⟩ :=
        Shared.process_of_valid hvalid
      · rw [hprocess]
        exact ⟨hchecks, hcoherent⟩
      · rw [hprocess]
        exact ⟨⟨hchecks.ranges, hchecks.sockets, hchecks.proof⟩, hcoherent.insertContribution sub⟩
    · rw [Shared.process_of_not_valid hvalid]
      exact ⟨hchecks, hcoherent⟩

/-- The epoch stays coherent. -/
lemma Shared.coherent_processAll {srv : Server} {sh : Shared} (l : List Arrival)
    (hcoherent : sh.epochHashes.Coherent) : (sh.processAll srv l).epochHashes.Coherent := by
  have happlies : sh.ChecksLike sh ∧ sh.epochHashes.Coherent := ⟨⟨rfl, rfl, rfl⟩, hcoherent⟩
  refine (joining_process srv sh).invariant (I := fun sh => sh.epochHashes.Coherent) ?_ hcoherent
    fun _ _ => happlies
  intro sh a happlies _
  exact ((joining_process srv _).keep sh a a happlies happlies).2

/-! ## Payment -/

/-- Coherent epochs in which the same has been supplied have the same entries, but for the
nonces. -/
lemma EpochHashes.Coherent.supply_eq {e e' : EpochHashes} (h : e.Coherent) (h' : e'.Coherent)
    (hsupplied : e.supplied = e'.supplied) (pubkey : Pubkey) :
    (e.contributions.lookup pubkey).map InternalMessageContribution.supply =
      (e'.contributions.lookup pubkey).map InternalMessageContribution.supply := by
  have hkey : (e.contributions.lookup pubkey).elim (⊥ : WithBot ℕ)
        (fun c => (c.suppliedDiff.toNat : WithBot ℕ)) =
      (e'.contributions.lookup pubkey).elim ⊥ fun c => (c.suppliedDiff.toNat : WithBot ℕ) :=
    congrFun (congrArg Prod.fst hsupplied) pubkey
  cases hc : e.contributions.lookup pubkey with
  | none =>
      cases hc' : e'.contributions.lookup pubkey with
      | none => rfl
      | some c' => simp [hc, hc'] at hkey
  | some c =>
      cases hc' : e'.contributions.lookup pubkey with
      | none => simp [hc, hc'] at hkey
      | some c' =>
          rw [hc, hc'] at hkey
          have hdiff : c.suppliedDiff = c'.suppliedDiff :=
            UInt32.toNat_inj.mp (WithBot.coe_inj.mp hkey)
          simp only [Option.map_some, InternalMessageContribution.supply,
            h.hashpower pubkey c hc, h'.hashpower pubkey c' hc', hdiff]

/-- Coherent epochs in which the same has been supplied pay the same. -/
lemma samePayout_of_supplied {e e' : EpochHashes} (h : e.Coherent) (h' : e'.Coherent)
    (hsupplied : e.supplied = e'.supplied) : SamePayout e e' := by
  have hsupply := h.supply_eq h' hsupplied
  have hhashpower : ∀ pubkey,
      (e.contributions.lookup pubkey).map InternalMessageContribution.hashpower =
        (e'.contributions.lookup pubkey).map InternalMessageContribution.hashpower := by
    intro pubkey
    have hsnd := congrArg (Option.map Prod.snd) (hsupply pubkey)
    rw [Option.map_map, Option.map_map] at hsnd
    exact hsnd
  refine ⟨hsupply, UInt32.toNat_inj.mp (congrArg Prod.snd hsupplied), ?_⟩
  intro a id latestProof pubkey
  have hearned := congrArg
    (Option.map fun hashpower => earnedRewards hashpower (totalHashpower e.contributions)
      (latestProof.balance - a.oldProof.balance).toInt64) (hhashpower pubkey)
  rw [Option.map_map, Option.map_map] at hearned
  rw [MessageInternalMineSuccess.earned, MessageInternalMineSuccess.earned]
  simp only [Attender.mineSuccess]
  rw [← totalHashpower_congr hhashpower]
  exact hearned

/-- **The same payment.**  The submissions of an epoch, taken one after the other in any order and
with any repetition, end in the same payment. -/
theorem arrivalOrder {srv : Server} {sh : Shared} {opened : Challenge} {stored : Bool}
    {cleared : Contributions} {l l' : List Arrival} (hmem : ∀ a, a ∈ l ↔ a ∈ l') :
    SamePayout ((sh.apply (.resetEpoch opened stored cleared)).processAll srv l).epochHashes
      ((sh.apply (.resetEpoch opened stored cleared)).processAll srv l').epochHashes := by
  obtain ⟨sh₀, hsh₀⟩ : ∃ sh₀, sh₀ = sh.apply (.resetEpoch opened stored cleared) := ⟨_, rfl⟩
  have hcoherent : sh₀.epochHashes.Coherent := hsh₀ ▸ sh.epochHashes.coherent_reset opened stored
  rw [← hsh₀]
  exact samePayout_of_supplied (Shared.coherent_processAll l hcoherent)
    (Shared.coherent_processAll l' hcoherent)
    (obs_foldl_congr (joining_process srv sh₀) (fun _ _ => ⟨⟨rfl, rfl, rfl⟩, hcoherent⟩) hmem)

/-! ## Two miners -/

namespace Replay

/-- Two clients connected, with one range for both. -/
def twoClients : Shared :=
  { (Sys.start (server .unavailable) (proofAt 1 0)).shared with
    clientNonceRanges :=
      AList.insert (key 1) ⟨0, 4000000⟩ (AList.insert (key 2) ⟨0, 4000000⟩ ∅)
    sockets :=
      AList.insert 1 ⟨key 1, 1, .V1⟩ (AList.insert 2 ⟨key 2, 2, .V0⟩ ∅) }

/-- Client `b` hands in a solution. -/
def arrival (b nonce : UInt8) : Arrival := ⟨b.toNat, solution 1 nonce, key b⟩

end Replay

/-- The first client raises its difficulty, or hands in the better solution first and repeats the
other one; one of its solutions is too easy. -/
theorem arrivalOrder_twoClients :
    SamePayout
      ((Replay.twoClients.apply (.resetEpoch (Replay.proofAt 1 0).challenge true ∅)).processAll
        (Replay.server .unavailable)
        [Replay.arrival 1 10, Replay.arrival 2 12, Replay.arrival 1 5,
          Replay.arrival 1 20]).epochHashes
      ((Replay.twoClients.apply (.resetEpoch (Replay.proofAt 1 0).challenge true ∅)).processAll
        (Replay.server .unavailable)
        [Replay.arrival 1 5, Replay.arrival 1 20, Replay.arrival 1 10, Replay.arrival 2 12,
          Replay.arrival 1 10]).epochHashes := by
  refine arrivalOrder ?_
  intro a
  simp only [List.mem_cons, List.not_mem_nil, or_false]
  tauto

end OrePool
