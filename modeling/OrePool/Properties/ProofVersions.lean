import OrePool.Lemmas.Rounds
import OrePool.Replay

/-!
# The tracked proof

The chain's proof account goes through versions, and `app_proof` is to go through them in the same
order.  `NeverBack` says that the version held there never decreases.

Four writers put versions there without comparing: the websocket tracker, whose notifications come
late; the attender, with the RPC node's answer; the attender again, with a copy of `app_proof` it
took before it settled the round; and the submission loop, refreshing after a failed round.  A
notification that comes after a newer version is held takes `app_proof` back, and one that comes
while an older copy is on its way is taken back by it (`not_neverBack`).  Without such
notifications the versions only go up (`neverBack`).
-/

namespace OrePool

open Interleaving

/-! ## What is observed -/

/-- What a section does with the proof: gets a copy from the RPC node, copies `app_proof`, or
writes its copy there. -/
inductive Handling
  | none
  | fetch
  | read
  | write
  deriving DecidableEq

def AttenderPc.handling : AttenderPc → Handling
  | .getProof => .fetch
  | .rpcWriteProof _ => .write
  | .readLatest _ => .read
  | .writeProof _ => .write
  | _ => .none

def SubmissionPc.handling : SubmissionPc → Handling
  | .failGetProof _ => .fetch
  | .failWriteProof _ _ => .write
  | _ => .none

/-- The version held in `app_proof`, the version of each party's copy, and the versions held so
far, newest first. -/
structure VersionNotes where
  held : ℕ
  copies : Actor → ℕ
  log : List ℕ

/-- A version is put into `app_proof`. -/
def VersionNotes.put (n : VersionNotes) (k : ℕ) : VersionNotes :=
  { n with held := k, log := k :: n.log }

/-- Notes what `who` does with the proof.  The RPC node answers with the version current then. -/
def VersionNotes.handle (n : VersionNotes) (s : Sys) (who : Actor) : Handling → VersionNotes
  | .none => n
  | .fetch => { n with copies := Function.update n.copies who (s.chain.versions.length - 1) }
  | .read => { n with copies := Function.update n.copies who n.held }
  | .write => n.put (n.copies who)

/-- Notes which version goes where. -/
def versionObserver : Observer Sys Action VersionNotes where
  start _ := ⟨0, fun _ => 0, [0]⟩
  note
    | _, .notify k _, n => n.put k
    | s, .submission _, n => n.handle s .submission s.submission.pc.handling
    | s, .attender i _, n =>
        match s.attenders[i]? with
        | some a => n.handle s (.attender i) a.pc.handling
        | none => n
    | _, _, n => n

/-! ## The property -/

/-- **Never back.**  The version held is that of `app_proof`, and never was a later one held. -/
structure NeverBack (s : Sys) (n : VersionNotes) : Prop where
  tracks : s.chain.versions[n.held]? = some s.shared.appProof
  log : n.log.head? = some n.held
  sorted : n.log.Pairwise fun newer older => older ≤ newer

/-- Notifications are of versions, in order; what the RPC node answers is the current one. -/
def ProofsDelivered (s : Sys) : Action → Prop
  | .notify k p => s.chain.nextNotified ≤ k ∧ s.chain.versions[k]? = some p
  | .submission reply => ∀ p ∈ reply.fetched, s.chain.current = some p
  | .attender _ reply => ∀ p ∈ reply.fetched, s.chain.current = some p
  | _ => True

/-- The copy an attender is to write. -/
def AttenderPc.copy : AttenderPc → Option Proof
  | .rpcWriteProof p => some p
  | .snapshot _ latestProof => some latestProof
  | .sendMineSuccess _ latestProof _ => some latestProof
  | .writeProof latestProof => some latestProof
  | _ => none

/-- The copy the submission loop is to write. -/
def SubmissionPc.copy : SubmissionPc → Option Proof
  | .failWriteProof _ p => some p
  | _ => none

/-- The copy a party is to write. -/
def Sys.copy (s : Sys) : Actor → Option Proof
  | .submission => s.submission.pc.copy
  | .attender i => (s.attenders[i]?).bind fun a => a.pc.copy
  | _ => none

/-- A notification finds neither a later version in `app_proof` nor an earlier copy on its way
there. -/
def NoticesTimely (x : Sys × VersionNotes) : Action → Prop
  | .notify k _ => x.2.held ≤ k ∧
      ((x.1.copy .submission).isSome → k ≤ x.2.copies .submission) ∧
      ∀ i < x.1.attenders.length, (x.1.copy (.attender i)).isSome → k ≤ x.2.copies (.attender i)
  | _ => True

instance : DecidableRel ProofsDelivered := fun s act =>
  match act with
  | .notify k p =>
      inferInstanceAs (Decidable (s.chain.nextNotified ≤ k ∧ s.chain.versions[k]? = some p))
  | .submission reply | .attender _ reply =>
      inferInstanceAs (Decidable (∀ p ∈ reply.fetched, s.chain.current = some p))
  | .connect .. | .disconnect .. | .receive .. | .ready .. | .best .. | .missions ..
  | .mission .. | .land .. | .account .. => isTrue trivial

instance : DecidableRel NoticesTimely := fun _ act =>
  match act with
  | .notify _ _ => inferInstanceAs (Decidable (_ ∧ (_ → _) ∧ ∀ i < _, _ → _))
  | .connect .. | .disconnect .. | .receive .. | .ready .. | .best .. | .missions ..
  | .mission .. | .submission .. | .attender .. | .land .. | .account .. => isTrue trivial

/-! ## Copies -/

/-- A party with a copy is the submission loop after a failed round, or the attender of a landed
one. -/
lemma Sys.copy_eq_some {s : Sys} {who : Actor} {p : Proof} (h : s.copy who = some p) :
    (who = .submission ∧ ∃ r, s.submission.pc = .failWriteProof r p) ∨
      ∃ i a, who = .attender i ∧ s.attenders[i]? = some a ∧ a.active := by
  cases who with
  | submission =>
      refine .inl ⟨rfl, ?_⟩
      simp only [Sys.copy, SubmissionPc.copy] at h
      split at h
      · rename_i r q hpc
        exact ⟨r, Option.some.inj h ▸ hpc⟩
      · cases h
  | attender i =>
      obtain ⟨a, ha, hcopy⟩ := Option.bind_eq_some_iff.mp h
      refine .inr ⟨i, a, rfl, ha, ?_⟩
      rw [Attender.active]
      cases hpc : a.pc <;> rw [hpc] at hcopy <;> first | rfl | cases hcopy
  | _ => cases h

/-- One party at most has a copy to write. -/
lemma Serial.copy_unique {s : Sys} (hs : Serial s) {who w : Actor} {p q : Proof}
    (hp : s.copy who = some p) (hq : s.copy w = some q) : w = who := by
  rcases Sys.copy_eq_some hp with ⟨rfl, r, hr⟩ | ⟨i, a, rfl, ha, hact⟩ <;>
    rcases Sys.copy_eq_some hq with ⟨rfl, r', hr'⟩ | ⟨j, b, rfl, hb, hbct⟩
  · rfl
  · obtain ⟨r', hr'⟩ := hs.active j b hb hbct
    rw [hr] at hr'
    cases hr'
  · obtain ⟨r, hr⟩ := hs.active i a ha hact
    rw [hr] at hr'
    cases hr'
  · rw [hs.unique ha hb hact hbct]

/-- What handling does to the party's copy and to `app_proof`. -/
def Handling.Done (current copy copy' : Option Proof) (held held' : Proof) : Handling → Prop
  | .none => held' = held ∧ ∀ p ∈ copy', p ∈ copy
  | .fetch => held' = held ∧ ∀ p ∈ copy', current = some p
  | .read => held' = held ∧ ∀ p ∈ copy', p = held
  | .write => copy = some held' ∧ copy' = Option.none

lemma Attender.Move.handled {srv : Server} {sh : Shared} {reply : Reply} {a a' : Attender}
    {e : Effect} (h : Attender.Move srv sh reply a a' e) {current : Option Proof}
    (hf : ∀ p ∈ reply.fetched, current = some p) :
    a.pc.handling.Done current a.pc.copy a'.pc.copy sh.appProof (sh.apply e).appProof := by
  cases h with
  | rpcNews hpc hreply _ =>
      rw [hpc]
      refine ⟨rfl, fun p hp => hf p ?_⟩
      obtain rfl := Option.some.inj hp
      rw [hreply]
      rfl
  | readLatest hpc =>
      rw [hpc]
      exact ⟨rfl, fun p hp => (Option.some.inj hp).symm⟩
  | rpcWriteProof hpc | writeProof hpc =>
      rw [hpc]
      exact ⟨rfl, rfl⟩
  | snapshot hpc | sendMineSuccess hpc =>
      rw [hpc]
      exact ⟨rfl, fun _ hp => hp⟩
  | gaveUp hpc | inVain hpc | updatedDb hpc | updated hpc | rpcInVain hpc | rpcReadProof hpc
  | rpcResetNonce hpc | rpcResetEpoch hpc | rpcUnpause hpc | rpcSignalDb hpc | rpcSignal hpc
  | rpcAddChallenge hpc | rpcNotAdded hpc | rpcFound hpc | rpcNotFound hpc | gotOldChallenge hpc
  | noOldChallenge hpc | addOldChallenge hpc | oldNotAdded hpc | oldFound hpc | oldNotFound hpc
  | addNewChallenge hpc | newNotAdded hpc | newFound hpc | newNotFound hpc | resetNonce hpc
  | resetEpoch hpc | unpause hpc | signal hpc =>
      rw [hpc]
      exact ⟨rfl, nofun⟩

lemma Submitter.nextAttempt_copy (sub : Submitter) (r : Round) (n : ℕ) :
    (sub.nextAttempt r n).pc.copy = none := by
  rcases sub.nextAttempt_pc r n with ⟨m, h⟩ | h <;> rw [h] <;> rfl

lemma Submitter.Move.handled {srv : Server} {sh : Shared} {as : List Attender} {txs : List MineTx}
    {reply : Reply} {sub sub' : Submitter} {e : Effect}
    (h : Submitter.Move srv sh as txs reply sub sub' e) {current : Option Proof}
    (hf : ∀ p ∈ reply.fetched, current = some p) :
    sub.pc.handling.Done current sub.pc.copy sub'.pc.copy sh.appProof (sh.apply e).appProof := by
  cases h with
  | refreshed hpc hreply =>
      rw [hpc]
      refine ⟨rfl, fun p hp => hf p ?_⟩
      obtain rfl := Option.some.inj hp
      rw [hreply]
      rfl
  | writeProof hpc =>
      rw [hpc]
      exact ⟨rfl, rfl⟩
  | noBest hpc _ | noBlockhash hpc | failed hpc _ =>
      rw [hpc, Submitter.nextAttempt_copy]
      exact ⟨rfl, nofun⟩
  | busy hpc =>
      rw [hpc]
      exact ⟨rfl, fun _ hp => hp⟩
  | oldProof hpc | early hpc | due hpc _ _ | best hpc | noSolution hpc _ | solution hpc _
  | wait hpc _ | capture hpc _ _ | pause hpc | config hpc _ _ _ | outdated hpc _ _ _
  | noConfig hpc _ _ | clock hpc | send hpc | landed hpc _ | hashInvalid hpc _ | released hpc _ _
  | notRefreshed hpc | resetNonce hpc | resetEpoch hpc | unpause hpc =>
      rw [hpc]
      exact ⟨rfl, nofun⟩

/-! ## The invariant -/

/-- The notes are right about `app_proof` and the copies, no copy is behind what is held, and the
versions held have gone up. -/
structure Versioned (s : Sys) (n : VersionNotes) : Prop where
  tracks : s.chain.versions[n.held]? = some s.shared.appProof
  copies : ∀ who p, s.copy who = some p →
    s.chain.versions[n.copies who]? = some p ∧ n.held ≤ n.copies who
  log : n.log.head? = some n.held
  sorted : n.log.Pairwise fun newer older => older ≤ newer

/-- Putting a version not behind the one held keeps the log sorted. -/
lemma VersionNotes.put_sorted {n : VersionNotes} {k : ℕ} (hlog : n.log.head? = some n.held)
    (hsorted : n.log.Pairwise fun newer older => older ≤ newer) (hle : n.held ≤ k) :
    (n.put k).log.Pairwise fun newer older => older ≤ newer := by
  obtain ⟨older, hn⟩ : ∃ older, n.log = n.held :: older := List.head?_eq_some_iff.mp hlog
  refine List.pairwise_cons.mpr ⟨?_, hsorted⟩
  intro x hx
  rw [hn] at hx hsorted
  rcases List.mem_cons.mp hx with rfl | hx
  · exact hle
  · exact ((List.pairwise_cons.mp hsorted).1 x hx).trans hle

/-- Somebody handles the proof, nobody else having a copy to write. -/
lemma Versioned.handle {s s' : Sys} {n : VersionNotes} {who : Actor} {handling : Handling}
    (hi : Versioned s n) (hserial : Serial s) (hversions : s'.chain.versions = s.chain.versions)
    (hothers : ∀ w, w ≠ who → s'.copy w = s.copy w)
    (hdone : handling.Done s.chain.current (s.copy who) (s'.copy who) s.shared.appProof
      s'.shared.appProof) :
    Versioned s' (n.handle s who handling) := by
  -- the party's copy becomes version `k`, no earlier than the one held
  have hcopied : ∀ k, n.held ≤ k → (∀ p ∈ s'.copy who, s.chain.versions[k]? = some p) →
      s'.shared.appProof = s.shared.appProof →
      Versioned s' { n with copies := Function.update n.copies who k } := by
    intro k hk hcopy happ
    refine ⟨by rw [hversions, happ]; exact hi.tracks, ?_, hi.log, hi.sorted⟩
    intro w p hp
    rw [hversions]
    by_cases hw : w = who
    · subst hw
      simpa using ⟨hcopy p hp, hk⟩
    · rw [hothers w hw] at hp
      simpa [Function.update_of_ne hw] using hi.copies w p hp
  cases handling with
  | none =>
      obtain ⟨happ, hcopy⟩ := hdone
      refine ⟨by rw [hversions, happ]; exact hi.tracks, ?_, hi.log, hi.sorted⟩
      intro w p hp
      rw [hversions]
      by_cases hw : w = who
      · exact hi.copies w p (hw ▸ hcopy p (hw ▸ hp))
      · exact hi.copies w p (hothers w hw ▸ hp)
  | fetch =>
      have hlt := (List.getElem?_eq_some_iff.mp hi.tracks).1
      refine hcopied _ (by omega) ?_ hdone.1
      intro p hp
      rw [← hdone.2 p hp, Chain.current, List.getLast?_eq_getElem?]
  | read =>
      refine hcopied _ le_rfl ?_ hdone.1
      intro p hp
      rw [hdone.2 p hp]
      exact hi.tracks
  | write =>
      obtain ⟨hcopy, hnone⟩ := hdone
      obtain ⟨hver, hle⟩ := hi.copies who _ hcopy
      refine ⟨hversions ▸ hver, ?_, rfl,
        VersionNotes.put_sorted hi.log hi.sorted hle⟩
      intro w p hp
      -- nobody else has a copy, and this party has just written its own
      by_cases hw : w = who
      · rw [hw, hnone] at hp
        cases hp
      · rw [hothers w hw] at hp
        exact absurd (hserial.copy_unique hcopy hp) hw

/-- Nobody handles the proof, though the account may go on. -/
lemma Versioned.other {s s' : Sys} {n : VersionNotes} (hi : Versioned s n)
    (hversions : ∃ l, s'.chain.versions = s.chain.versions ++ l)
    (hcopy : ∀ who, s'.copy who = s.copy who) (happ : s'.shared.appProof = s.shared.appProof) :
    Versioned s' n := by
  obtain ⟨l, hl⟩ := hversions
  have hgrow : ∀ {k : ℕ} {p : Proof}, s.chain.versions[k]? = some p →
      s'.chain.versions[k]? = some p := by
    intro k p hk
    rw [hl, List.getElem?_append_left (List.getElem?_eq_some_iff.mp hk).1, hk]
  exact ⟨by rw [happ]; exact hgrow hi.tracks, fun who p hp =>
    ⟨hgrow (hi.copies who p (hcopy who ▸ hp)).1, (hi.copies who p (hcopy who ▸ hp)).2⟩,
    hi.log, hi.sorted⟩

lemma Shared.apply_appProof {e : Effect} (h : e.ofRound = false) (hw : ∀ p, e ≠ .writeProof p)
    (sh : Shared) : (sh.apply e).appProof = sh.appProof := by
  cases e <;> first | rfl | exact absurd rfl (hw _)

lemma Sys.copy_congr {s s' : Sys} (hsub : s'.submission = s.submission)
    (hatt : s'.attenders = s.attenders) (who : Actor) : s'.copy who = s.copy who := by
  unfold Sys.copy
  rw [hsub, hatt]

/-- A spawned attender has no copy yet. -/
lemma Effect.attender_copy (e : Effect) (as : List Attender) (i : ℕ) :
    (((as ++ e.attender)[i]?).bind fun a => a.pc.copy) = (as[i]?).bind fun a => a.pc.copy := by
  by_cases h : ∃ l, e = .spawnAttender l
  · obtain ⟨l, rfl⟩ := h
    rw [Effect.attender, List.getElem?_append]
    split
    · rfl
    · rename_i hi
      rw [List.getElem?_eq_none (l := as) (Nat.le_of_not_lt hi)]
      cases hj : i - as.length <;> rfl
  · have hnil : e.attender = [] := by
      cases e <;> first | rfl | exact absurd ⟨_, rfl⟩ h
    rw [hnil, List.append_nil]

theorem Versioned.step {srv : Server} {s s' : Sys} {n : VersionNotes} {act : Action}
    (hi : Versioned s n) (hserial : Serial s) (hd : ProofsDelivered s act)
    (hc : NoticesTimely (s, n) act) (hs : s.step srv act = some s') :
    Versioned s' (versionObserver.note s act n) := by
  cases Sys.step_move hs with
  | notify k p =>
      obtain ⟨hle, hsub, hatt⟩ := hc
      refine ⟨hd.2, ?_, rfl, VersionNotes.put_sorted hi.log hi.sorted hle⟩
      intro who q hq
      have hq : s.copy who = some q := by
        simpa [Sys.copy, Effect.attender] using hq
      refine ⟨(hi.copies who q hq).1, ?_⟩
      rcases Sys.copy_eq_some hq with ⟨rfl, -⟩ | ⟨i, a, rfl, ha, -⟩
      · exact hsub (by rw [hq]; rfl)
      · exact hatt i (List.getElem?_eq_some_iff.mp ha).1 (by rw [hq]; rfl)
  | submission hstep =>
      refine hi.handle hserial rfl ?_ ((Submitter.step_move hstep).handled hd)
      intro w hw
      cases w with
      | submission => exact absurd rfl hw
      | attender i => exact Effect.attender_copy _ _ i
      | _ => rfl
  | attender ha hstep =>
      rename_i i reply a a' e
      obtain ⟨hspawn, -⟩ := Attender.step_spawns hstep
      have hdone := (Attender.step_move hstep).handled hd
      have hcopy : s.copy (.attender i) = a.pc.copy := by simp [Sys.copy, ha]
      have hcopy' : ({ s with attenders := s.attenders.set i a' }.perform (.attender i) e).copy
          (.attender i) = a'.pc.copy := by
        simp [Sys.copy, hspawn, slot_set ha]
      simp only [versionObserver, ha]
      refine hi.handle hserial rfl ?_ (by rw [hcopy, hcopy']; exact hdone)
      intro w hw
      cases w with
      | attender j =>
          have hij : i ≠ j := fun h => hw (h ▸ rfl)
          simp [Sys.copy, hspawn, slot_set ha, hij]
      | _ => rfl
  | receive who m =>
      obtain ⟨hsh, -, -, hsub, hatt, hch, -⟩ := s.spawnFor_fields (received srv.signatures who m)
      exact hi.other ⟨[], by simp [hch]⟩ (Sys.copy_congr (by simp [hsub])
        (by simp [hatt, Effect.attender])) (by simp [hsh, Shared.apply])
  | best ht hstep =>
      have he := BestTask.step_ofRound hstep
      refine hi.other ⟨[], by simp⟩ (Sys.copy_congr rfl
        (by simp [Effect.attender_of_not_ofRound he])) (Shared.apply_appProof he ?_ _)
      cases BestTask.step_move hstep <;> simp
  | missions hstep =>
      have he := ReadyPc.step_ofRound hstep
      refine hi.other ⟨[], by simp⟩ (Sys.copy_congr rfl
        (by simp [Effect.attender_of_not_ofRound he])) (Shared.apply_appProof he ?_ _)
      rcases ReadyPc.step_effect hstep with rfl | rfl | ⟨_, rfl⟩ | ⟨_, rfl⟩ <;> simp
  | mission ht hstep =>
      have he := MissionTask.step_ofRound hstep
      refine hi.other ⟨[], by simp⟩ (Sys.copy_congr rfl
        (by simp [Effect.attender_of_not_ofRound he])) (Shared.apply_appProof he ?_ _)
      rcases MissionTask.step_effect hstep with ⟨-, -, rfl⟩ | ⟨-, -, rfl⟩ <;> simp
  | land _ _ _ _ _ | account _ =>
      exact hi.other ⟨_, rfl⟩ (Sys.copy_congr rfl (by simp [Effect.attender])) rfl
  | connect _ _ | disconnect _ | ready _ =>
      exact hi.other ⟨[], by simp⟩ (Sys.copy_congr rfl (by simp [Effect.attender])) rfl

/-- **Never back**, in every run in which no notification finds a later version in `app_proof` or
an earlier copy on its way there. -/
theorem neverBack {srv : Server} {x : Sys × VersionNotes}
    (h : Reach ((machine srv).observe versionObserver)
      (fun x act => ProofsDelivered x.1 act ∧ NoticesTimely x act) x) : NeverBack x.1 x.2 := by
  have hi : Versioned x.1 x.2 := by
    refine h.observed_invariant ?_ fun s n act s' hr hi hc hs =>
      hi.step (serial (hr.forget (D := Any) fun _ _ _ => trivial)) hc.1 hc.2 hs
    rintro _ ⟨p, rfl⟩
    refine ⟨rfl, ?_, rfl, List.pairwise_singleton _ _⟩
    intro who p hp
    rcases Sys.copy_eq_some hp with ⟨-, r, hr⟩ | ⟨i, a, -, ha, -⟩
    · cases hr
    · simp [Sys.start] at ha
  exact ⟨hi.tracks, hi.log, hi.sorted⟩

/-- A round settled after the websocket has brought the new version: the attender writes back what
it read. -/
theorem neverBack_settledRound :
    ∃ x, Reach ((machine (Replay.server .unavailable)).observe versionObserver)
        (fun x act => ProofsDelivered x.1 act ∧ NoticesTimely x act) x ∧
      x.2.log = [1, 1, 0] ∧ NeverBack x.1 x.2 := by
  obtain ⟨x, hr, hx⟩ := exists_of_replayObserved (Replay.server .unavailable) versionObserver
    (fun x act => ProofsDelivered x.1 act ∧ NoticesTimely x act) (Replay.proofAt 1 0)
    Replay.settledRound (fun x => decide (x.2.log = [1, 1, 0])) (by decide +kernel)
  exact ⟨x, hr, by simpa only [decide_eq_true_eq] using hx, neverBack hr⟩

/-- A failed round is refreshed with the proof as it was before a late transaction landed, after
the websocket has brought the new one. -/
theorem not_neverBack :
    ¬ ∀ srv x, Reach ((machine srv).observe versionObserver) (fun x => ProofsDelivered x.1) x →
      NeverBack x.1 x.2 := by
  refine not_forall_of_replayObserved (O := fun _ => versionObserver)
    (C := fun _ x => ProofsDelivered x.1) (P := fun _ x => NeverBack x.1 x.2)
    (Replay.server .unavailable) (Replay.proofAt 1 0)
    (Replay.served ++ Replay.pause 60 ++ (List.replicate 5 (Replay.attempt (Replay.proofAt 1 0) ++
        [.submission (.outcome .otherError)])).flatten ++
      [.submission (.proof (some (Replay.proofAt 1 0))), .land 4 (Replay.proofAt 2 70),
        .notify 1 (Replay.proofAt 2 70), .submission .go])
    (fun x => decide (x.2.log = [0, 1, 0])) ?_ (by decide +kernel)
  intro x hx hnever
  simp only [decide_eq_true_eq] at hx
  have hsorted := hnever.sorted
  rw [hx] at hsorted
  exact absurd hsorted (by decide)

end OrePool
