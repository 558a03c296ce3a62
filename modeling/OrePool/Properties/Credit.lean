import Mathlib.Logic.Relation
import OrePool.Core.Journal
import OrePool.Lemmas.Fuel
import OrePool.Lemmas.Stages
import OrePool.Replay

/-!
# Credit for a landed round

A landed round is settled by its attender: it snapshots the contributions, sends them for payment
and clears them.  `Credited` says that the books are in order once the attender is through: one
message, for the challenge of the round, carrying exactly what was cleared.  And an attender that
has seen `app_proof` change gets through by its own sections, as long as the database answers.

Two things keep the code from it.  An attender that learns of the new challenge from the RPC node
resets the epoch without sending anything (`not_credited`), and between snapshot and reset a
`BestSolution` task can still insert.  Without either the books are in order (`credited`).
-/

namespace OrePool

open Interleaving

/-! ## The property -/

/-- The contributions an effect clears. -/
def Effect.cleared : Effect → Option Contributions
  | .resetEpoch _ _ cleared => some cleared
  | _ => Option.none

/-- The messages attender `i` has sent for payment. -/
def Sys.paidBy (s : Sys) (i : ℕ) : List MessageInternalMineSuccess :=
  eventsBy (.attender i) Effect.mineSuccess s.journal

/-- The contributions attender `i` has cleared. -/
def Sys.clearedBy (s : Sys) (i : ℕ) : List Contributions :=
  eventsBy (.attender i) Effect.cleared s.journal

/-- Attender `i` has sent one message, for the challenge of the round, and has cleared what that
message carries. -/
def Sys.CreditedBy (s : Sys) (i : ℕ) (challenge : Challenge) : Prop :=
  ∃ msg, s.paidBy i = [msg] ∧ msg.challenge = challenge ∧ s.clearedBy i = [msg.contributions]

/-- An attender has seen `app_proof` change and is settling its round. -/
def AttenderPc.settling : AttenderPc → Bool
  | .getOldChallenge _ | .addOldChallenge _ | .findOldChallenge _ | .addNewChallenge _ _
  | .findNewChallenge _ _ | .readLatest _ | .snapshot _ _ | .sendMineSuccess _ _ _
  | .writeProof _ | .resetNonce _ | .resetEpoch _ | .unpause | .signal => true
  | _ => false

/-- A section of attender `i`, in which no call to the database fails. -/
def Sys.AttenderStep (srv : Server) (i : ℕ) (s s' : Sys) : Prop :=
  ∃ reply, (reply = .go ∨ reply = .db true) ∧ s.step srv (.attender i reply) = some s'

/-- **Credit.**  Every attender that has seen a new challenge and released the submission loop has
credited its round; one that is settling its round gets there on its own. -/
structure Credited (srv : Server) (s : Sys) : Prop where
  credited : ∀ i a, s.attenders[i]? = some a → a.pc.oneshot = .sent →
    s.CreditedBy i a.oldProof.challenge
  settles : ∀ i a, s.attenders[i]? = some a → a.pc.settling = true →
    ∃ s' a', Relation.ReflTransGen (Sys.AttenderStep srv i) s s' ∧ s'.attenders[i]? = some a' ∧
      a'.pc.oneshot = .sent ∧ s'.CreditedBy i a.oldProof.challenge

/-! ## The two ways it goes wrong -/

/-- An attender's own `get_proof` call shows it the new challenge. -/
def Attender.newsByRpc (a : Attender) (reply : Reply) : Bool :=
  decide (a.pc = .getProof) && reply.fetched.any fun p => a.oldProof.challenge ≠ p.challenge

/-- Attenders learn of new challenges from `app_proof` only. -/
def NewsByTracker (s : Sys) : Action → Prop
  | .attender i reply => ∀ a ∈ s.attenders[i]?, a.newsByRpc reply = false
  | _ => True

/-- No submission is inserted between an attender's snapshot and its reset. -/
def QuietSettlement (s : Sys) (act : Action) : Prop :=
  (s.inserting act).isSome → ∀ a ∈ s.attenders, a.pc.settlement.running = false

/-- The runs in which neither goes wrong. -/
def CreditCondition (s : Sys) (act : Action) : Prop :=
  NewsByTracker s act ∧ QuietSettlement s act

instance : DecidableRel NewsByTracker := fun s act =>
  match act with
  | .attender i reply =>
      inferInstanceAs (Decidable (∀ a ∈ s.attenders[i]?, a.newsByRpc reply = false))
  | .notify .. | .connect .. | .disconnect .. | .receive .. | .ready .. | .best .. | .missions ..
  | .mission .. | .submission .. | .land .. | .account .. => isTrue trivial

instance : DecidableRel QuietSettlement := fun s act =>
  inferInstanceAs (Decidable ((s.inserting act).isSome →
    ∀ a ∈ s.attenders, a.pc.settlement.running = false))

instance : DecidableRel CreditCondition := fun s act =>
  inferInstanceAs (Decidable (NewsByTracker s act ∧ QuietSettlement s act))

/-! ## The books of one attender -/

/-- What an attender has paid and cleared, by how far it has settled; `current` are the
contributions in `epoch_hashes`. -/
def Attender.Books (a : Attender) (current : Contributions)
    (paid : List MessageInternalMineSuccess) (cleared : List Contributions) : Prop :=
  match a.pc.settlement with
  | .pending => paid = [] ∧ cleared = []
  | .snapshot contributions => contributions = current ∧ paid = [] ∧ cleared = []
  | .sent =>
      ∃ msg, paid = [msg] ∧ msg.challenge = a.oldProof.challenge ∧ msg.contributions = current ∧
        cleared = []
  | .closed =>
      ∃ msg, paid = [msg] ∧ msg.challenge = a.oldProof.challenge ∧ cleared = [msg.contributions]
  | .bypassed => False

/-- The books stay in order while others act, if `epoch_hashes` is left alone when it matters. -/
lemma Attender.Books.frame {a : Attender} {current current' : Contributions}
    {paid : List MessageInternalMineSuccess} {cleared : List Contributions}
    (hb : a.Books current paid cleared)
    (hc : a.pc.settlement.running = true → current' = current) : a.Books current' paid cleared := by
  rw [Attender.Books] at hb ⊢
  cases hs : a.pc.settlement <;> simp only [hs] at hb ⊢
  case pending | closed => exact hb
  case snapshot | sent => rw [hc (by rw [hs]; rfl)]; exact hb

/-- An attender that does not learn of the new challenge over RPC keeps its books in order. -/
lemma Attender.Books.step {srv : Server} {sh : Shared} {reply : Reply} {a a' : Attender}
    {e : Effect} {paid : List MessageInternalMineSuccess} {cleared : List Contributions}
    (hb : a.Books sh.epochHashes.contributions paid cleared)
    (h : a.step srv sh reply = some (a', e)) (hnews : a.newsByRpc reply = false) :
    a'.Books (sh.apply e).epochHashes.contributions (e.mineSuccess.toList ++ paid)
      (e.cleared.toList ++ cleared) := by
  rw [Attender.Books] at hb
  cases Attender.step_move h with
  | rpcNews hpc hreply hnew => simp [Attender.newsByRpc, hpc, hreply, Reply.fetched, hnew] at hnews
  | snapshot hpc =>
      simp only [hpc, AttenderPc.settlement] at hb
      exact ⟨rfl, hb⟩
  | sendMineSuccess hpc =>
      simp only [hpc, AttenderPc.settlement] at hb
      obtain ⟨hcon, rfl, rfl⟩ := hb
      exact ⟨_, rfl, rfl, hcon, rfl⟩
  | resetEpoch hpc =>
      -- what is cleared is what was sent
      simp only [hpc, AttenderPc.settlement] at hb
      obtain ⟨msg, rfl, hch, hcon, rfl⟩ := hb
      exact ⟨msg, rfl, hch, congrArg (fun c => [c]) hcon.symm⟩
  | _ =>
      simp_all [Attender.Books, AttenderPc.settlement, Attender.goto, Effect.mineSuccess,
        Effect.cleared, Shared.apply, Attender.oldProof]

/-! ## The books of all attenders -/

/-- Every attender's books are in order. -/
def AllBooks (s : Sys) : Prop :=
  ∀ (i : ℕ) (a : Attender), s.attenders[i]? = some a →
    a.Books s.shared.epochHashes.contributions (s.paidBy i) (s.clearedBy i)

/-- Between an attender's snapshot and its reset nobody else changes the contributions: inserts
are excluded, and a reset would come from another active attender or from the submission loop,
which waits. -/
lemma QuietSettlement.contributions {srv : Server} {s s' : Sys} {act : Action}
    (hq : QuietSettlement s act) (hi : Serial s) (hs : s.step srv act = some s') {i : ℕ}
    {a : Attender} (ha : s.attenders[i]? = some a) (hrun : a.pc.settlement.running = true)
    (hne : ∀ reply, act ≠ .attender i reply) :
    s'.shared.epochHashes.contributions = s.shared.epochHashes.contributions := by
  cases Sys.step_epochMove hs with
  | keep _ _ _ _ _ he _ _ => rw [he]
  | insert _ sub hins _ _ _ =>
      have := hq (by simp [hins]) a (List.mem_of_getElem? ha)
      simp [hrun] at this
  | reset who opened _ hwho _ _ _ _ =>
      obtain ⟨reply, hact⟩ := hi.resetting ha (Attender.active_of_running hrun) hwho
      exact absurd hact (hne reply)

theorem AllBooks.step {srv : Server} {s s' : Sys} {act : Action} (hb : AllBooks s)
    (hi : Serial s) (hacted : ∀ i e, (Actor.attender i, e) ∈ s.journal → i < s.attenders.length)
    (hc : CreditCondition s act) (hs : s.step srv act = some s') : AllBooks s' := by
  intro i a hia
  rcases Sys.step_roundMove hs with ⟨who, e, hact, hwho, -, -, -, hj, -, hatt⟩ |
    ⟨reply, sub, e, rfl, hsub, rfl⟩ | ⟨k, reply, b, b', e, rfl, hk, hsa, rfl⟩
  · -- some other task moved
    rw [hatt] at hia
    have hne : who ≠ .attender i := by rintro rfl; cases hwho
    rw [Sys.paidBy, Sys.clearedBy, hj, eventsBy_cons_ne hne, eventsBy_cons_ne hne]
    exact (hb i a hia).frame fun hrun => hc.2.contributions hi hs hia hrun fun _ => hact i _
  · -- the submission loop moved: the attenders are the old ones or a new one
    have hne : Actor.submission ≠ .attender i := nofun
    rw [Sys.paidBy, Sys.clearedBy, Sys.perform_journal, eventsBy_cons_ne hne,
      eventsBy_cons_ne hne]
    rcases Submitter.step_spawns hsub with ⟨he, -⟩ | ⟨_, _, _, _, _, l, -, rfl, -, -, -⟩
    · simp only [Sys.perform_attenders, he, List.append_nil] at hia
      exact (hb i a hia).frame fun hrun => hc.2.contributions hi hs hia hrun fun _ => nofun
    · rcases slot_append.mp hia with hia | ⟨rfl, rfl⟩
      · exact (hb i a hia).frame fun hrun => hc.2.contributions hi hs hia hrun fun _ => nofun
      · have hnew : ∀ e, (Actor.attender s.attenders.length, e) ∉ s.journal := fun e he =>
          Nat.lt_irrefl _ (hacted _ e he)
        exact ⟨eventsBy_eq_nil hnew, eventsBy_eq_nil hnew⟩
  · obtain ⟨hspawn, -⟩ := Attender.step_spawns hsa
    simp only [Sys.perform_attenders, hspawn, List.append_nil, slot_set hk] at hia
    split at hia
    · -- the attender itself moved
      rename_i hki
      subst hki
      simp only [Option.some.injEq] at hia
      subst hia
      rw [Sys.paidBy, Sys.clearedBy, Sys.perform_journal, eventsBy_cons_self, eventsBy_cons_self]
      exact (hb k b hk).step hsa (hc.1 b hk)
    · -- another attender moved
      rename_i hki
      have hne : Actor.attender k ≠ .attender i := by simpa using hki
      rw [Sys.paidBy, Sys.clearedBy, Sys.perform_journal, eventsBy_cons_ne hne,
        eventsBy_cons_ne hne]
      refine (hb i a hia).frame fun hrun => hc.2.contributions hi hs hia hrun ?_
      intro _
      simp [hki]

lemma creditedBy {srv : Server} {s : Sys} (h : Reach (machine srv) CreditCondition s) {i : ℕ}
    {a : Attender} (hia : s.attenders[i]? = some a) (hsent : a.pc.oneshot = .sent) :
    s.CreditedBy i a.oldProof.challenge := by
  have hb : AllBooks s := by
    refine h.invariant ?_ fun s act s' hr hb hc hs => hb.step (serial hr) (attender_acted hr) hc hs
    rintro _ ⟨p, rfl⟩ i a hia
    simp [Sys.start] at hia
  have := hb i a hia
  rw [Attender.Books] at this
  cases hpc : a.pc with
  | ended how =>
      cases how <;> simp_all [AttenderPc.oneshot, AttenderPc.settlement, Sys.CreditedBy]
  | _ => simp_all [AttenderPc.oneshot, AttenderPc.settlement]

/-! ## An attender gets through -/

section Settles

variable {srv : Server} {s : Sys} {i : ℕ} {a : Attender}

lemma Attender.active_of_settling (h : a.pc.settling = true) : a.active := by
  rw [Attender.active]
  cases hpc : a.pc <;> rw [hpc] at h <;> first | rfl | cases h

/-- What an attender asks for while it settles its round. -/
lemma AttenderPc.answer_of_settling {pc : AttenderPc} (h : pc.settling = true) :
    (pc.answer = .go ∨ pc.answer = .db true) ∧ pc ≠ .getProof := by
  cases pc <;> first | (simp [AttenderPc.answer]; done) | cases h

/-- An attender goes on settling its round until it signals. -/
lemma Attender.step_settling {sh : Shared} {reply : Reply} {a' : Attender} {e : Effect}
    (h : a.pc.settling = true) (hs : a.step srv sh reply = some (a', e)) :
    a'.pc.settling = true ∨ a'.pc.oneshot = .sent := by
  cases Attender.step_move hs with
  | signal _ => exact .inr rfl
  | gaveUp hpc | inVain hpc | updatedDb hpc | updated hpc | rpcNews hpc | rpcInVain hpc
  | rpcWriteProof hpc | rpcReadProof hpc | rpcResetNonce hpc | rpcResetEpoch hpc | rpcUnpause hpc
  | rpcSignalDb hpc | rpcSignal hpc | rpcAddChallenge hpc | rpcNotAdded hpc | rpcFound hpc
  | rpcNotFound hpc =>
      rw [hpc] at h
      cases h
  | _ => exact .inl rfl

/-- Its next section, with the database answering, meets the condition and leaves less to do. -/
lemma settles_step (hr : Reach (machine srv) CreditCondition s) (ha : s.attenders[i]? = some a)
    (h : a.pc.settling = true) :
    ∃ s' a', s.AttenderStep srv i s' ∧ Reach (machine srv) CreditCondition s' ∧
      s'.attenders[i]? = some a' ∧ a'.landing = a.landing ∧
      (a'.pc.settling = true ∨ a'.pc.oneshot = .sent) ∧
      a'.fuel s'.shared.challenges < a.fuel s.shared.challenges := by
  have hact := Attender.active_of_settling h
  obtain ⟨hanswer, hpc⟩ := AttenderPc.answer_of_settling h
  have hsome : (a.step srv s.shared a.pc.answer).isSome = true := Attender.isSome_step hact
  obtain ⟨⟨a', e⟩, hstep⟩ := Option.isSome_iff_exists.mp hsome
  have hs : s.step srv (.attender i a.pc.answer) =
      some ({ s with attenders := s.attenders.set i a' }.perform (.attender i) e) := by
    simp only [Sys.step, ha, Option.bind_some, hstep, Option.map_some]
  have hc : CreditCondition s (.attender i a.pc.answer) := by
    refine ⟨?_, fun hins => absurd hins (by simp [Sys.inserting])⟩
    intro b hb
    obtain rfl : a = b := Option.some.inj (ha.symm.trans hb)
    simp [Attender.newsByRpc, hpc]
  have hfuel := Attender.step_fuel i hstep
  have hfails : (Action.attender i a.pc.answer).fails = 0 := by
    rcases hanswer with h | h <;> rw [h] <;> rfl
  rw [if_pos hact, hfails] at hfuel
  refine ⟨_, a', ⟨_, hanswer, hs⟩, hr.step hc hs, ?_, Attender.step_landing hstep,
    Attender.step_settling h hstep, ?_⟩
  · simp only [Sys.perform_attenders, (Attender.step_spawns hstep).1, List.append_nil, slot_set ha,
      if_pos]
  · rw [Sys.perform_shared]
    show a'.fuel (s.shared.apply e).challenges < _
    omega

/-- It gets through by its own sections. -/
lemma settles (hr : Reach (machine srv) CreditCondition s) (ha : s.attenders[i]? = some a)
    (h : a.pc.settling = true) :
    ∃ s' a', Relation.ReflTransGen (Sys.AttenderStep srv i) s s' ∧ s'.attenders[i]? = some a' ∧
      a'.pc.oneshot = .sent ∧ s'.CreditedBy i a.oldProof.challenge := by
  induction hn : a.fuel s.shared.challenges using Nat.strong_induction_on generalizing s a with
  | _ n ih =>
      subst hn
      obtain ⟨s₁, a₁, hstep, hr₁, ha₁, hland, hnext, hlt⟩ := settles_step hr ha h
      have hold : a₁.oldProof = a.oldProof := by rw [Attender.oldProof, hland, ← Attender.oldProof]
      rcases hnext with hsettling | hsent
      · obtain ⟨s', a', hrest, ha', hsent, hcredited⟩ := ih _ hlt hr₁ ha₁ hsettling rfl
        exact ⟨s', a', .head hstep hrest, ha', hsent, hold ▸ hcredited⟩
      · exact ⟨s₁, a₁, .single hstep, ha₁, hsent, hold ▸ creditedBy hr₁ ha₁ hsent⟩

end Settles

/-- **Credit.**  In every run in which attenders learn of new challenges from `app_proof` and
nothing is inserted between a snapshot and its reset, every landed round is credited. -/
theorem credited {srv : Server} {s : Sys} (h : Reach (machine srv) CreditCondition s) :
    Credited srv s :=
  ⟨fun _ _ => creditedBy h, fun _ _ => settles h⟩

/-- The conditions of `credited` are those of an ordinary round. -/
theorem credited_settledRound :
    ∃ s, Reach (machine (Replay.server .unavailable)) CreditCondition s ∧
      (s.paidBy 0).length = 1 ∧ Credited (Replay.server .unavailable) s := by
  obtain ⟨s, hr, hs⟩ := exists_of_replay (Replay.server .unavailable) CreditCondition
    (Replay.proofAt 1 0) Replay.settledRound (fun s => decide ((s.paidBy 0).length = 1))
    (by decide +kernel)
  exact ⟨s, hr, by simpa using hs, credited hr⟩

/-- The same round with the RPC node first with the news: the attender looks at `app_proof` in
vain, asks the node, and resets the epoch. -/
def Replay.bypassedRound : List Action :=
  landedRound ++ [.attender 0 .go, .attender 0 (.proof (some (proofAt 2 60)))] ++
    List.replicate 6 (.attender 0 .go)

/-- Without the conditions a landed round can go without credit: on the RPC branch of the
attender contributions are cleared and nothing is sent. -/
theorem not_credited : ¬ ∀ srv s, Reach (machine srv) Honest s → Credited srv s := by
  refine not_forall_of_replay (P := Credited) (Replay.server .unavailable)
    (Replay.proofAt 1 0) Replay.bypassedRound
    (fun s => decide ((s.attenders[0]?).any fun a => a.pc.oneshot = .sent) &&
      decide (s.paidBy 0 = []) && decide (s.clearedBy 0 ≠ [])) ?_
    (by decide +kernel)
  intro s hs hc
  simp only [Bool.and_eq_true, decide_eq_true_eq, Option.any_eq_true] at hs
  obtain ⟨⟨⟨a, ha, hsent⟩, hpaid⟩, -⟩ := hs
  obtain ⟨msg, hmsg, -, -⟩ := hc.credited 0 a ha hsent
  simp [hpaid] at hmsg

end OrePool
