import OrePool.Lemmas.Stages
import OrePool.Replay
import OrePool.Startup

/-!
# One row for each challenge

With a SQLite database every challenge is to have one row in `challenges`: it is the row that is
found by the challenge when its reward is written down.  The index on the column is not a unique
one.  That a challenge is inserted once is left to the code, which inserts it where it has not been
found, or without looking.

`ChallengeRows` says that it works out, over processes that follow each other on one table.  It does
not when a lookup fails for want of an answer and the insertion goes through (`not_challengeRows`),
nor when the challenge an attender inserts as the new one, without looking, is there already or is
being inserted by the attender of the next round.  Where neither happens, it does (`challengeRows`):
an attender about to insert its old challenge has found that it has no row, and still has none.
-/

namespace OrePool

open Interleaving Tables

/-! ## The property -/

/-- The column of challenges in a database. -/
def Database.Tabulates (db : Database) (challenges : List Challenge) : Prop :=
  db.challenges.map ChallengeRow.challenge = challenges.map Vector.toList

/-- **One row.**  No challenge has two rows, and the reward of a round that is paid goes to one
row. -/
structure ChallengeRows (p : Process) : Prop where
  nodup : p.challenges.Nodup
  paid : ∀ s, p = .up s → ∀ who msg, (who, Effect.sendMineSuccess msg) ∈ s.journal →
    ∀ db : Database, db.Tabulates p.challenges →
      (select ChallengeRow.challenge msg.challenge.toList db.challenges).length = 1

/-- An attender looks up its old challenge. -/
def AttenderPc.looksUpOld : AttenderPc → Bool
  | .getOldChallenge _ => true
  | .findOldChallenge _ => true
  | _ => false

/-- An attender has not found its old challenge and inserts it. -/
def AttenderPc.addsOld : AttenderPc → Bool
  | .addOldChallenge _ => true
  | _ => false

/-- The challenge an attender inserts without having looked it up. -/
def AttenderPc.addsNew : AttenderPc → Option Challenge
  | .rpcAddChallenge latestProof => some latestProof.challenge
  | .addNewChallenge _ latestProof => some latestProof.challenge
  | _ => none

/-- The attenders of the process that runs. -/
def Process.attenders : Process → List Attender
  | .down _ => []
  | .up s => s.attenders

/-- A lookup of the old challenge fails only while it has no row. -/
def Attender.LookupAnswered (a : Attender) (challenges : List Challenge) (reply : Reply) : Prop :=
  reply = .db false → a.pc.looksUpOld = true → a.oldProof.challenge ∉ challenges

/-- The new challenge has no row when it is inserted, and no attender has failed to find it and is
about to insert it as its old one. -/
def Attender.NewFresh (a : Attender) (p : Process) (reply : Reply) : Prop :=
  reply = .db true → ∀ challenge ∈ a.pc.addsNew, challenge ∉ p.challenges ∧
    ∀ b ∈ p.attenders, b.pc.addsOld = true → b.oldProof.challenge ≠ challenge

/-- The runs in which lookups of challenges that have a row are answered and new challenges are
new.  When `main` lacks a connection for its lookup it does not insert. -/
def RowsCondition (p : Process) : ProcessAction → Prop
  | .start proof get add =>
      proof.challenge ∈ p.challenges → get = none ∨ get = some .connection ∨ add ≠ none
  | .act (.attender i reply) =>
      ∀ a ∈ p.attenders[i]?, a.LookupAnswered p.challenges reply ∧ a.NewFresh p reply
  | _ => True

instance (a : Attender) (challenges : List Challenge) (reply : Reply) :
    Decidable (a.LookupAnswered challenges reply) :=
  inferInstanceAs (Decidable
    (reply = .db false → a.pc.looksUpOld = true → a.oldProof.challenge ∉ challenges))

instance (a : Attender) (p : Process) (reply : Reply) : Decidable (a.NewFresh p reply) :=
  inferInstanceAs (Decidable
    (reply = .db true → ∀ challenge ∈ a.pc.addsNew, challenge ∉ p.challenges ∧
      ∀ b ∈ p.attenders, b.pc.addsOld = true → b.oldProof.challenge ≠ challenge))

instance : DecidableRel RowsCondition := fun p act =>
  match act with
  | .start proof get add =>
      inferInstanceAs (Decidable
        (proof.challenge ∈ p.challenges → get = none ∨ get = some .connection ∨ add ≠ none))
  | .act (.attender i reply) =>
      inferInstanceAs (Decidable
        (∀ a ∈ p.attenders[i]?, a.LookupAnswered p.challenges reply ∧ a.NewFresh p reply))
  | .act (.notify ..) | .act (.connect ..) | .act (.disconnect ..) | .act (.receive ..)
  | .act (.ready ..) | .act (.best ..) | .act (.missions ..) | .act (.mission ..)
  | .act (.submission ..) | .act (.land ..) | .act (.account ..) | .stop => isTrue trivial

/-! ## The table -/

lemma Shared.apply_challenges (sh : Shared) (e : Effect) :
    (sh.apply e).challenges = sh.challenges ++ e.added.toList := by
  cases e <;> simp [Shared.apply, Effect.added]

lemma Submitter.step_added {srv : Server} {sh : Shared} {as : List Attender} {txs : List MineTx}
    {reply : Reply} {sub sub' : Submitter} {e : Effect}
    (h : sub.step srv sh as txs reply = some (sub', e)) : e.added = Option.none := by
  cases Submitter.step_move h <;> rfl

/-- A step adds to the table what an attender inserts. -/
lemma Sys.step_challenges {srv : Server} {s s' : Sys} {act : Action}
    (h : s.step srv act = some s') :
    s'.shared.challenges = s.shared.challenges ++ (s.adding srv act).toList := by
  rcases Sys.step_roundMove h with ⟨who, e, hact, -, he, -, hsh, -, -, -⟩ |
    ⟨reply, sub, e, rfl, hs, rfl⟩ | ⟨i, reply, a, a', e, rfl, ha, hs, rfl⟩
  · have hadd : e.added = Option.none := by cases e <;> first | rfl | cases he
    have hno : s.adding srv act = none := by
      cases act with
      | attender i reply => exact absurd rfl (hact i reply)
      | _ => rfl
    rw [hsh, Shared.apply_challenges, hadd, hno]
  · rw [Sys.perform_shared, Shared.apply_challenges, Submitter.step_added hs]
    rfl
  · rw [Sys.perform_shared, Shared.apply_challenges]
    simp [Sys.adding, ha, hs]

/-- What `main` does to the table. -/
lemma startChallenges_eq_some {challenges challenges' : List Challenge} {challenge : Challenge}
    {get add : Option Fault} (h : startChallenges challenges challenge get add = some challenges') :
    get ≠ some .connection ∧
      (challengeFound challenges challenge get = true ∧ challenges' = challenges ∨
        challengeFound challenges challenge get = false ∧ add = none ∧
          challenges' = challenges ++ [challenge]) := by
  rw [startChallenges] at h
  split_ifs at h with hconn hfound hadd
  · exact ⟨hconn, .inl ⟨hfound, (Option.some.inj h).symm⟩⟩
  · exact ⟨hconn, .inr ⟨Bool.not_eq_true _ ▸ hfound, Option.isNone_iff_eq_none.mp hadd,
      (Option.some.inj h).symm⟩⟩

/-- A step adds to the table what is inserted, and nothing goes. -/
lemma Process.step_challenges {srv : Server} {p p' : Process} {act : ProcessAction}
    (h : p.step srv act = some p') :
    p'.challenges = p.challenges ++ (p.adding srv act).toList := by
  cases p with
  | down challenges =>
      cases act with
      | start proof get add =>
          rw [Process.step] at h
          split_ifs at h with hdb
          · split at h
            · rename_i challenges' hstart
              obtain rfl := Option.some.inj h
              show challenges' = challenges ++ _
              obtain ⟨hconn, ⟨hfound, rfl⟩ | ⟨hmissing, hadd, rfl⟩⟩ :=
                startChallenges_eq_some hstart
              · simp [Process.adding, hfound]
              · rw [Process.adding, if_pos ⟨hdb, hconn, hmissing, hadd⟩]
                rfl
            · rename_i hstart
              obtain rfl := Option.some.inj h
              rw [Process.adding, if_neg]
              · exact (List.append_nil _).symm
              · rintro ⟨-, hconn, hmissing, hadd⟩
                simp [startChallenges, hconn, hmissing, hadd] at hstart
          · obtain rfl := Option.some.inj h
            simp [Process.adding, hdb, Process.challenges, Sys.startWith]
      | act _ | stop => cases h
  | up s =>
      cases act with
      | act a =>
          obtain ⟨s', hs, rfl⟩ := Option.map_eq_some_iff.mp h
          exact Sys.step_challenges hs
      | stop =>
          obtain rfl := Option.some.inj h
          exact (List.append_nil _).symm
      | start _ _ _ => cases h

/-! ## The row of a round -/

/-- An attender that has the id of its old challenge and has not used it yet. -/
def AttenderPc.hasId : AttenderPc → Bool
  | .addNewChallenge _ _ | .findNewChallenge _ _ | .readLatest _ | .snapshot _ _
  | .sendMineSuccess _ _ _ => true
  | _ => false

lemma Shared.mem_of_getChallenge {sh : Shared} {challenge : Challenge} {id : Int64}
    (h : sh.getChallenge challenge = some id) : challenge ∈ sh.challenges := by
  obtain ⟨i, hi, -⟩ := Option.map_eq_some_iff.mp h
  obtain ⟨hlt, hfound, -⟩ := List.findIdx?_eq_some_iff_getElem.mp hi
  exact of_decide_eq_true hfound ▸ List.getElem_mem hlt

/-- With a database an attender comes by an id by finding the row. -/
lemma Attender.step_hasId {srv : Server} (hdb : srv.poweredByDbms = .sqlite) {sh : Shared}
    {reply : Reply} {a a' : Attender} {e : Effect} (h : a.step srv sh reply = some (a', e))
    (hid : a'.pc.hasId = true) :
    a.pc.hasId = true ∨ a.oldProof.challenge ∈ sh.challenges := by
  cases Attender.step_move h with
  | gotOldChallenge _ hrow => exact .inr (Shared.mem_of_getChallenge hrow)
  | updated _ _ hno => exact absurd hdb hno
  | addNewChallenge hpc | newNotAdded hpc | newFound hpc _ | newNotFound hpc | readLatest hpc
  | snapshot hpc =>
      rw [hpc]
      exact .inl rfl
  | _ => cases hid

/-- The rows of the rounds that are being paid or have been. -/
structure Sys.RowsKept (s : Sys) : Prop where
  found : ∀ a ∈ s.attenders, a.pc.hasId = true → a.oldProof.challenge ∈ s.shared.challenges
  sent : ∀ who msg, (who, Effect.sendMineSuccess msg) ∈ s.journal →
    msg.challenge ∈ s.shared.challenges

theorem Sys.RowsKept.step {srv : Server} (hdb : srv.poweredByDbms = .sqlite) {s s' : Sys}
    {act : Action} (hi : s.RowsKept) (h : s.step srv act = some s') : s'.RowsKept := by
  have hmono : s.shared.challenges ⊆ s'.shared.challenges := by
    rw [Sys.step_challenges h]
    exact List.subset_append_left _ _
  refine ⟨?_, ?_⟩
  · intro b hb hid
    rcases Sys.step_attender h hb with hb | ⟨l, rfl⟩ | ⟨i, reply, a, e, ha, hs⟩
    · exact hmono (hi.found b hb hid)
    · cases hid
    · have hold : b.oldProof = a.oldProof := by
        rw [Attender.oldProof, Attender.oldProof, Attender.step_landing hs]
      rw [hold]
      rcases Attender.step_hasId hdb hs hid with hid | hrow
      · exact hmono (hi.found a (List.mem_of_getElem? ha) hid)
      · exact hmono hrow
  · intro w msg hm
    refine hmono ?_
    rcases Sys.step_sent h hm with hm | ⟨i, reply, a, a', ha, hs⟩
    · exact hi.sent w msg hm
    · cases Attender.step_move hs with
      | sendMineSuccess hpc =>
          exact hi.found a (List.mem_of_getElem? ha) (by rw [hpc]; rfl)

/-! ## The old challenge of an attender -/

lemma Shared.not_mem_of_getChallenge {sh : Shared} {challenge : Challenge}
    (h : sh.getChallenge challenge = none) : challenge ∉ sh.challenges := by
  rw [Shared.getChallenge, Option.map_eq_none_iff, List.findIdx?_eq_none_iff] at h
  exact fun hmem => of_decide_eq_false (h challenge hmem) rfl

/-- An attender inserts, if the call goes through, its new challenge or its old one. -/
lemma Attender.step_added {srv : Server} {sh : Shared} {reply : Reply} {a a' : Attender}
    {e : Effect} (h : a.step srv sh reply = some (a', e)) {challenge : Challenge}
    (hadd : e.added = some challenge) :
    (reply = .db true ∧ a.pc.addsNew = some challenge) ∨
      a.pc.addsOld = true ∧ a.oldProof.challenge = challenge := by
  revert h
  fun_cases Attender.step srv sh reply a <;> intro h <;>
    simp only [Option.some.injEq, Prod.mk.injEq, reduceCtorEq] at h <;> obtain ⟨-, rfl⟩ := h <;>
    simp_all [Effect.added, AttenderPc.addsNew, AttenderPc.addsOld]

/-- An attender comes to insert its old challenge by a lookup that has failed or found nothing. -/
lemma Attender.step_addsOld {srv : Server} {sh : Shared} {reply : Reply} {a a' : Attender}
    {e : Effect} (h : a.step srv sh reply = some (a', e)) (hadds : a'.pc.addsOld = true) :
    e.added = Option.none ∧ a.pc.looksUpOld = true ∧
      (reply = .db false ∨ a.oldProof.challenge ∉ sh.challenges) := by
  cases Attender.step_move h with
  | noOldChallenge hpc | oldNotFound hpc =>
      refine ⟨rfl, by rw [hpc]; rfl, ?_⟩
      simp only [Attender.step, hpc] at h
      split at h
      · rename_i ok
        cases ok with
        | false => exact .inl rfl
        | true =>
            cases hrow : sh.getChallenge a.oldProof.challenge with
            | none => exact .inr (Shared.not_mem_of_getChallenge hrow)
            | some id => simp [hrow, Attender.goto] at h
      · cases h
  | _ => cases hadds

lemma Attender.active_of_addsOld {a : Attender} (h : a.pc.addsOld = true) : a.active := by
  rw [Attender.active]
  cases hpc : a.pc <;> rw [hpc] at h <;> first | rfl | cases h

/-- The old challenge that an attender is about to insert has no row. -/
def Sys.OldMissing (s : Sys) : Prop :=
  ∀ (j : ℕ) (b : Attender), s.attenders[j]? = some b → b.pc.addsOld = true →
    b.oldProof.challenge ∉ s.shared.challenges

theorem Sys.OldMissing.step {srv : Server} {s s' : Sys} {act : Action} (hi : s.OldMissing)
    (hserial : Serial s) (hc : RowsCondition (.up s) (.act act)) (h : s.step srv act = some s') :
    s'.OldMissing := by
  intro j b hb hadds
  rcases Sys.step_roundMove h with ⟨who, e, -, -, he, -, hsh, -, -, hatt⟩ |
    ⟨reply, sub, e, rfl, hs, rfl⟩ | ⟨i, reply, a, a', e, rfl, ha, hs, rfl⟩
  · have hadd : e.added = Option.none := by cases e <;> first | rfl | cases he
    rw [hsh, Shared.apply_challenges, hadd]
    simpa using hi j b (hatt ▸ hb) hadds
  · rw [Sys.perform_shared, Shared.apply_challenges, Submitter.step_added hs]
    rcases List.mem_append.mp (List.mem_of_getElem? hb) with hmem | hmem
    · obtain ⟨k, hk⟩ := List.mem_iff_getElem?.mp hmem
      simpa using hi k b hk hadds
    · -- one that has just been spawned begins elsewhere
      cases e <;> simp only [Effect.attender, List.not_mem_nil, List.mem_singleton] at hmem
      subst hmem
      cases hadds
  · obtain ⟨hanswered, hfresh⟩ := hc a ha
    rw [Sys.perform_shared, Shared.apply_challenges]
    simp only [Sys.perform_attenders, (Attender.step_spawns hs).1, List.append_nil,
      slot_set ha] at hb
    split at hb
    · -- the attender that moves has just failed to find its challenge
      obtain rfl := Option.some.inj hb
      obtain ⟨hadd, hlooks, hmissing⟩ := Attender.step_addsOld hs hadds
      rw [hadd, Attender.oldProof, Attender.step_landing hs]
      have hnot : a.oldProof.challenge ∉ s.shared.challenges :=
        hmissing.elim (fun hreply => hanswered hreply hlooks) id
      simpa [Attender.oldProof] using hnot
    · -- of another one, the challenge inserted is not the old one
      rename_i hij
      have hold := hi j b hb hadds
      cases hadd : e.added with
      | none => simpa using hold
      | some challenge =>
          have hne : b.oldProof.challenge ≠ challenge := by
            rcases Attender.step_added hs hadd with ⟨hreply, hnew⟩ | ⟨haddsOld, -⟩
            · exact (hfresh hreply challenge hnew).2 b (List.mem_of_getElem? hb) hadds
            · exact absurd (hserial.unique ha hb (Attender.active_of_addsOld haddsOld)
                (Attender.active_of_addsOld hadds)) hij
          simpa [hne] using hold

/-- What is inserted has no row yet. -/
lemma RowsCondition.adding_missing {srv : Server} {p : Process} {act : ProcessAction}
    (hc : RowsCondition p act) (hold : ∀ s, p = .up s → s.OldMissing) {challenge : Challenge}
    (hadd : p.adding srv act = some challenge) : challenge ∉ p.challenges := by
  cases p with
  | down challenges =>
      cases act with
      | start proof get add =>
          simp only [Process.adding] at hadd
          split at hadd
          · rename_i hinsert
            obtain ⟨-, hconn, hfound, hok⟩ := hinsert
            obtain rfl := Option.some.inj hadd
            intro hmem
            rcases hc hmem with hget | hget | hfault
            · have hrow : challengeFound challenges proof.challenge get = true := by
                simpa [challengeFound, hget, Process.challenges] using hmem
              rw [hrow] at hfound
              cases hfound
            · exact hconn hget
            · exact hfault hok
          · cases hadd
      | act _ | stop => cases hadd
  | up s =>
      cases act with
      | act a =>
          cases a with
          | attender i reply =>
              obtain ⟨a, ha, hadd⟩ := Option.bind_eq_some_iff.mp hadd
              obtain ⟨⟨a', e⟩, hs, hadd⟩ := Option.bind_eq_some_iff.mp hadd
              rcases Attender.step_added hs hadd with ⟨hreply, hnew⟩ | ⟨haddsOld, rfl⟩
              · exact ((hc a ha).2 hreply challenge hnew).1
              · exact hold s rfl i a ha haddsOld
          | _ => cases hadd
      | start _ _ _ | stop => cases hadd

/-! ## Runs -/

/-- What holds of a process on the way. -/
structure Process.Kept (p : Process) : Prop where
  nodup : p.challenges.Nodup
  serial : ∀ s, p = .up s → Serial s
  missing : ∀ s, p = .up s → s.OldMissing
  rows : ∀ s, p = .up s → s.RowsKept

lemma Process.Kept.down {challenges : List Challenge} (hnodup : challenges.Nodup) :
    (Process.down challenges).Kept := by
  refine ⟨hnodup, ?_, ?_, ?_⟩ <;> rintro s ⟨⟩

lemma Process.Kept.up {s : Sys} (hnodup : s.shared.challenges.Nodup) (hserial : Serial s)
    (hmissing : s.OldMissing) (hrows : s.RowsKept) : (Process.up s).Kept := by
  refine ⟨hnodup, ?_, ?_, ?_⟩ <;> rintro _ ⟨⟩
  · exact hserial
  · exact hmissing
  · exact hrows

/-- A process begins without attenders. -/
lemma Process.Kept.startWith {srv : Server} {proof : Proof} {challenges : List Challenge}
    (hnodup : challenges.Nodup) : (Process.up (Sys.startWith srv proof challenges)).Kept := by
  obtain ⟨hcoherent, hactive, hawaited⟩ := Serial.start srv proof
  refine .up hnodup ⟨hcoherent, hactive, hawaited⟩ ?_ ⟨List.forall_mem_nil _, ?_⟩
  · intro j b hb
    cases hb
  · intro w msg hm
    cases hm

theorem Process.Kept.step {srv : Server} (hdb : srv.poweredByDbms = .sqlite) {p p' : Process}
    {act : ProcessAction} (hi : p.Kept) (hc : RowsCondition p act)
    (h : p.step srv act = some p') : p'.Kept := by
  have hnodup : p'.challenges.Nodup := by
    rw [Process.step_challenges h]
    cases hadd : p.adding srv act with
    | none => simpa using hi.nodup
    | some challenge =>
        rw [Option.toList_some, List.nodup_append]
        refine ⟨hi.nodup, List.nodup_singleton _, ?_⟩
        rintro c hmem d hd rfl
        exact hc.adding_missing hi.missing hadd (List.mem_singleton.mp hd ▸ hmem)
  cases p with
  | down challenges =>
      cases act with
      | start proof get add =>
          rw [Process.step, if_pos hdb] at h
          split at h
          · obtain rfl := Option.some.inj h
            exact .startWith hnodup
          · obtain rfl := Option.some.inj h
            exact .down hnodup
      | act _ | stop => cases h
  | up s =>
      cases act with
      | act a =>
          obtain ⟨s', hs, rfl⟩ := Option.map_eq_some_iff.mp h
          have hserial := (hi.serial s rfl).step hs
          have hmissing := (hi.missing s rfl).step (hi.serial s rfl) hc hs
          have hrows := (hi.rows s rfl).step hdb hs
          exact .up hnodup hserial hmissing hrows
      | stop =>
          obtain rfl := Option.some.inj h
          exact .down hnodup
      | start _ _ _ => cases h

/-- A challenge that stands once in the table has one row in a database with that column. -/
lemma Database.Tabulates.select_length {db : Database} {challenges : List Challenge}
    (h : db.Tabulates challenges) (hnodup : challenges.Nodup) {challenge : Challenge}
    (hmem : challenge ∈ challenges) :
    (select ChallengeRow.challenge challenge.toList db.challenges).length = 1 := by
  have hinj : Function.Injective (Vector.toList : Challenge → List UInt8) :=
    fun a b hab => Vector.toList_inj.mp hab
  calc (select ChallengeRow.challenge challenge.toList db.challenges).length
      = (db.challenges.map ChallengeRow.challenge).count challenge.toList := by
        rw [select, ← List.countP_eq_length_filter, List.count, List.countP_map]
        exact List.countP_congr fun row _ => by simp
    _ = (challenges.map Vector.toList).count challenge.toList := by rw [h]
    _ = challenges.count challenge := List.count_map_of_injective _ _ hinj _
    _ = 1 := List.count_eq_one_of_mem hnodup hmem

/-- **One row.**  With a SQLite database, in every run in which lookups of challenges that have a
row are answered and new challenges are new, over any number of processes, no challenge has two
rows, and the row that is looked for when a reward is written down is there. -/
theorem challengeRows {srv : Server} (hdb : srv.poweredByDbms = .sqlite) {p : Process}
    (h : Reach (processes srv) RowsCondition p) : ChallengeRows p := by
  have hkept : p.Kept := by
    refine h.invariant (I := Process.Kept) ?_ ?_
    · intro p h0
      obtain rfl : p = .down [] := h0
      exact .down List.nodup_nil
    · intro p act p' _ hi hc hs
      exact hi.step hdb hc hs
  refine ⟨hkept.nodup, ?_⟩
  rintro s rfl who msg hm db htab
  exact htab.select_length hkept.nodup ((hkept.rows s rfl).sent who msg hm)

/-- A run of processes that ends in one with `check`. -/
lemma exists_of_processes (srv : Server) (C : Process → ProcessAction → Prop) [DecidableRel C]
    (as : List ProcessAction) (check : Process → Bool)
    (h : (exec (processes srv) C (.down []) as).any check = true) :
    ∃ p, Reach (processes srv) C p ∧ check p = true :=
  exists_of_exec rfl h

/-- A process that starts without a fault and runs. -/
def Replay.process (p : Proof) (as : List Action) : List ProcessAction :=
  .start p none none :: as.map .act

/-- A process that is started again and pays a round meets the condition of `challengeRows`. -/
theorem challengeRows_restarted :
    ∃ p, Reach (processes (Replay.server .sqlite)) RowsCondition p ∧
      p.challenges.length = 2 ∧ ChallengeRows p := by
  obtain ⟨p, hr, hp⟩ := exists_of_processes (Replay.server .sqlite)
    RowsCondition
    (Replay.process (Replay.proofAt 1 0) [] ++ [.stop] ++
      Replay.process (Replay.proofAt 1 0) (Replay.landedRound ++
        [.notify 1 (Replay.proofAt 2 60), .attender 0 .go, .attender 0 (.db true),
          .attender 0 (.db true)] ++ List.replicate 3 (.attender 0 .go)))
    (fun p => decide (p.challenges.length = 2)) (by decide +kernel)
  exact ⟨p, hr, of_decide_eq_true hp, challengeRows rfl hr⟩

/-- Without the condition a challenge can get a second row: the lookup of the old challenge fails,
and it is inserted once more. -/
theorem not_challengeRows : ¬ ∀ srv p, srv.poweredByDbms = .sqlite →
    Reach (processes srv) Any p → ChallengeRows p := by
  intro h
  obtain ⟨p, hr, hp⟩ := exists_of_processes (Replay.server .sqlite) Any
    (Replay.process (Replay.proofAt 1 0) (Replay.landedRound ++
      [.notify 1 (Replay.proofAt 2 60), .attender 0 .go, .attender 0 (.db false),
        .attender 0 (.db true)]))
    (fun p => decide (¬ p.challenges.Nodup)) (by decide +kernel)
  exact of_decide_eq_true hp (h _ p rfl hr).nodup

end OrePool
