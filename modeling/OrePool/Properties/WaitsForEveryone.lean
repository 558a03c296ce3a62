import Mathlib.Data.List.Perm.Subperm
import OrePool.Lemmas.RoundMoves
import OrePool.Replay

/-!
# Submission waits for everyone

Before it submits, the submission loop waits up to six times for the miners that are still at work.
`WaitsForEveryone` says that when it goes on earlier, every client connected has a contribution, and
that it never waits more often while the window is open.

What the loop compares is two counts, of contributions and of connections, and the count of waits
outlives the window it began in.  So it can go on without a client that is at work, when another one
has left after its contribution (`not_waitsForEveryone`).  Where the counts are of the clients that
are there, it waits for everyone (`waitsForEveryone`).
-/

namespace OrePool

open Interleaving

/-! ## What is observed -/

/-- What the submission loop makes of the window in an iteration: it is closed or there is no
solution, or it waits, or goes on to submit. -/
inductive Finding
  | closed
  | waits
  | goesOn
  deriving DecidableEq

/-- The finding of a step, by the positions before and after it. -/
def SubmissionPc.finding : SubmissionPc → SubmissionPc → Option Finding
  | .readClock _, .readOldProof => some .closed
  | .readSockets _ _, .readOldProof => some .closed
  | .capture _ _, .readOldProof => some .waits
  | .capture _ _, .pause _ => some .goesOn
  | _, _ => none

/-- The finding of a step of the system. -/
def Sys.finding (srv : Server) (s : Sys) : Action → Option Finding
  | .submission reply =>
      (s.submission.step srv s.shared s.attenders s.chain.txs reply).bind fun x =>
        s.submission.pc.finding x.1.pc
  | _ => none

/-- The keys of the clients connected, one for each connection. -/
def Sys.connected (s : Sys) : List Pubkey :=
  s.shared.sockets.entries.map fun entry => entry.2.pubkey

/-- The keys with a contribution. -/
def Sys.contributed (s : Sys) : List Pubkey := s.shared.epochHashes.contributions.keys

/-- A check at which the loop goes on: how often it has waited, who is connected, and who has
contributed. -/
structure WaitCheck where
  waited : ℕ
  connected : List Pubkey
  contributed : List Pubkey
  deriving DecidableEq

/-- How often the loop has waited since the window was last found closed or without a solution, and
the checks at which it has gone on. -/
structure WaitNotes where
  waited : ℕ
  checks : List WaitCheck
  deriving DecidableEq

/-- Notes the waits and the checks. -/
def waitObserver (srv : Server) : Observer Sys Action WaitNotes where
  start _ := ⟨0, []⟩
  note s act n :=
    match s.finding srv act with
    | none => n
    | some .closed => { n with waited := 0 }
    | some .waits => { n with waited := n.waited + 1 }
    | some .goesOn => ⟨0, ⟨n.waited, s.connected, s.contributed⟩ :: n.checks⟩

/-! ## The property -/

/-- **Waiting for everyone.**  When the loop goes on before its sixth wait, everyone connected has
contributed; and it waits at most six times. -/
def WaitsForEveryone (n : WaitNotes) : Prop :=
  n.waited ≤ 6 ∧
    ∀ check ∈ n.checks, check.waited ≤ 6 ∧ (check.waited < 6 → check.connected ⊆ check.contributed)

/-- The number of connections a check compares with. -/
def SubmissionPc.compared : SubmissionPc → Option ℕ
  | .capture _ numActiveMiners => some numActiveMiners
  | _ => none

/-- The same for a step of the system. -/
def Sys.compared (s : Sys) : Action → Option ℕ
  | .submission _ => s.submission.pc.compared
  | _ => none

/-- What is compared at a check speaks of the clients that are there: the counter counts the waits
of this window, and where the number of contributions is that of the connections, the connections
are still as many, and every contributor is one of them. -/
def CountsCurrent (x : Sys × WaitNotes) (act : Action) : Prop :=
  ∀ numActiveMiners ∈ x.1.compared act, x.2.waited < 6 →
    x.1.submission.numWaiting = x.2.waited ∧
      (x.1.contributed.length = numActiveMiners →
        x.1.connected.length = numActiveMiners ∧ x.1.contributed ⊆ x.1.connected)

instance : DecidableRel CountsCurrent := fun x act =>
  inferInstanceAs (Decidable (∀ numActiveMiners ∈ x.1.compared act, x.2.waited < 6 →
    x.1.submission.numWaiting = x.2.waited ∧
      (x.1.contributed.length = numActiveMiners →
        x.1.connected.length = numActiveMiners ∧ x.1.contributed ⊆ x.1.connected)))

/-! ## The invariant -/

/-- The loop has waited no more often than its counter says, and the checks were as they should
be. -/
structure Waiting (s : Sys) (n : WaitNotes) : Prop where
  counter : n.waited ≤ s.submission.numWaiting
  limit : s.submission.numWaiting ≤ 6
  checks : ∀ check ∈ n.checks,
    check.waited ≤ 6 ∧ (check.waited < 6 → check.connected ⊆ check.contributed)

/-- Only a wait raises the counter, and only going on resets it. -/
lemma Submitter.Move.finding {srv : Server} {sh : Shared} {as : List Attender} {txs : List MineTx}
    {reply : Reply} {sub sub' : Submitter} {e : Effect}
    (h : Submitter.Move srv sh as txs reply sub sub' e) :
    (sub.pc.finding sub'.pc = none ∨ sub.pc.finding sub'.pc = some .closed) ∧
        sub'.numWaiting = sub.numWaiting ∨
      sub.pc.finding sub'.pc = some .waits ∧ sub'.numWaiting = sub.numWaiting + 1 ∧
        sub.numWaiting < 6 ∨
      sub.pc.finding sub'.pc = some .goesOn ∧ sub'.numWaiting = 0 ∧
        ∃ numActiveMiners, sub.pc.compared = some numActiveMiners ∧
          (sub.numWaiting < 6 → sh.epochHashes.contributions.entries.length = numActiveMiners) := by
  cases h with
  | wait hpc hwait => exact .inr (.inl ⟨by rw [hpc]; rfl, rfl, hwait.2⟩)
  | capture hpc hwait _ =>
      refine .inr (.inr ⟨by rw [hpc]; rfl, rfl, _, by rw [hpc]; rfl, fun hlt => ?_⟩)
      by_contra hne
      exact hwait ⟨hne, hlt⟩
  | early hpc | noSolution hpc _ => exact .inl ⟨.inr (by rw [hpc]; rfl), rfl⟩
  | busy hpc | oldProof hpc | due hpc _ _ | best hpc | solution hpc _ | pause hpc
  | config hpc _ _ _ | outdated hpc _ _ _ | noConfig hpc _ _ | clock hpc | send hpc
  | landed hpc _ | hashInvalid hpc _ | released hpc _ _ | refreshed hpc _ | notRefreshed hpc
  | writeProof hpc | resetNonce hpc | resetEpoch hpc | unpause hpc | noBest hpc _
  | noBlockhash hpc | failed hpc _ =>
      exact .inl ⟨.inl (by rw [hpc]; rfl), rfl⟩

/-- When as many have contributed as are connected, and the contributors are connected, everyone
connected has contributed. -/
lemma CountsCurrent.everyone {s : Sys} {n : WaitNotes} {act : Action} {numActiveMiners : ℕ}
    (hc : CountsCurrent (s, n) act) (hcompared : s.compared act = some numActiveMiners)
    (hcount : s.submission.numWaiting < 6 →
      s.shared.epochHashes.contributions.entries.length = numActiveMiners)
    (hwaited : n.waited < 6) : s.connected ⊆ s.contributed := by
  have hcurrent := hc numActiveMiners hcompared hwaited
  have hcounter : s.submission.numWaiting = n.waited := hcurrent.1
  have hlength : s.contributed.length = numActiveMiners := by
    rw [Sys.contributed, AList.keys, List.keys, List.length_map]
    exact hcount (by omega)
  have hconnected : s.connected.length = numActiveMiners := (hcurrent.2 hlength).1
  have hsub : s.contributed ⊆ s.connected := (hcurrent.2 hlength).2
  have hperm : s.contributed.Perm s.connected :=
    ((AList.keys_nodup _).subperm hsub).perm_of_length_le (hconnected.trans hlength.symm).le
  exact hperm.symm.subset

theorem Waiting.step {srv : Server} {s s' : Sys} {n : WaitNotes} {act : Action}
    (hi : Waiting s n) (hc : CountsCurrent (s, n) act) (hs : s.step srv act = some s') :
    Waiting s' ((waitObserver srv).note s act n) := by
  by_cases hact : ∃ reply, act = .submission reply
  · obtain ⟨reply, rfl⟩ := hact
    obtain ⟨⟨sub, e⟩, hstep, rfl⟩ := Option.map_eq_some_iff.mp hs
    have hfinding : s.finding srv (.submission reply) = s.submission.pc.finding sub.pc := by
      rw [Sys.finding, hstep, Option.bind_some]
    have hcounter := hi.counter
    have hlimit := hi.limit
    obtain ⟨hf | hf, hw⟩ | ⟨hf, hw, hlt⟩ | ⟨hf, hw, numActiveMiners, hcompared, hcount⟩ :=
      (Submitter.step_move hstep).finding
    · simp only [waitObserver, hfinding, hf]
      exact ⟨by rwa [← hw] at hcounter, by rwa [← hw] at hlimit, hi.checks⟩
    · simp only [waitObserver, hfinding, hf]
      exact ⟨Nat.zero_le _, by rwa [← hw] at hlimit, hi.checks⟩
    · simp only [waitObserver, hfinding, hf]
      refine ⟨?_, ?_, hi.checks⟩
      · show n.waited + 1 ≤ sub.numWaiting
        omega
      · show sub.numWaiting ≤ 6
        omega
    · simp only [waitObserver, hfinding, hf]
      refine ⟨Nat.zero_le _, ?_, ?_⟩
      · show sub.numWaiting ≤ 6
        omega
      · intro check hcheck
        rcases List.mem_cons.mp hcheck with rfl | hcheck
        · exact ⟨hcounter.trans hlimit, hc.everyone hcompared hcount⟩
        · exact hi.checks check hcheck
  · have hfinding : s.finding srv act = none := by
      cases act with
      | submission reply => exact absurd ⟨reply, rfl⟩ hact
      | _ => rfl
    have hsub := Sys.step_submission_eq hs fun reply h => hact ⟨reply, h⟩
    simp only [waitObserver, hfinding]
    exact ⟨hsub ▸ hi.counter, hsub ▸ hi.limit, hi.checks⟩

/-! ## Every run -/

/-- **Waiting for everyone**, in every run in which what is compared at a check speaks of the
clients that are there. -/
theorem waitsForEveryone {srv : Server} {x : Sys × WaitNotes}
    (h : Reach ((machine srv).observe (waitObserver srv)) CountsCurrent x) :
    WaitsForEveryone x.2 := by
  have hi : Waiting x.1 x.2 := by
    refine h.observed_invariant ?_ fun s n act s' _ hi hc hs => hi.step hc hs
    rintro _ ⟨p, rfl⟩
    exact ⟨le_rfl, Nat.zero_le _, nofun⟩
  exact ⟨hi.counter.trans hi.limit, hi.checks⟩

/-- The only client has contributed when the loop goes on. -/
theorem waitsForEveryone_served :
    ∃ x, Reach ((machine (Replay.server .unavailable)).observe
        (waitObserver (Replay.server .unavailable))) CountsCurrent x ∧
      x.2.checks = [⟨0, [Replay.key 1], [Replay.key 1]⟩] ∧ WaitsForEveryone x.2 := by
  obtain ⟨x, hr, hx⟩ := exists_of_replayObserved (Replay.server .unavailable)
    (waitObserver (Replay.server .unavailable)) CountsCurrent (Replay.proofAt 1 0)
    (Replay.served ++ Replay.pause 60)
    (fun x => decide (x.2.checks = [⟨0, [Replay.key 1], [Replay.key 1]⟩])) (by decide +kernel)
  exact ⟨x, hr, by simpa only [decide_eq_true_eq] using hx, waitsForEveryone hr⟩

/-- A client leaves after its contribution and another connects: one contribution, one connection,
and the loop goes on without waiting for the client that is there. -/
theorem not_waitsForEveryone :
    ¬ ∀ srv x, Reach ((machine srv).observe (waitObserver srv))
      (fun x act => Honest x.1 act) x → WaitsForEveryone x.2 := by
  refine not_forall_of_replayObserved (O := waitObserver)
    (C := fun _ x act => Honest x.1 act) (P := fun _ x => WaitsForEveryone x.2)
    (Replay.server .unavailable) (Replay.proofAt 1 0)
    (Replay.served ++ [.disconnect 1, .connect 2 (Replay.key 2) .V1] ++ Replay.pause 60)
    (fun x => decide (x.2.checks = [⟨0, [Replay.key 2], [Replay.key 1]⟩]))
    ?_ (by decide +kernel)
  intro x hx hwaits
  simp only [decide_eq_true_eq] at hx
  have hall := (hwaits.2 ⟨0, [Replay.key 2], [Replay.key 1]⟩ (by simp [hx])).2 (by decide)
  exact absurd (hall List.mem_cons_self) (by decide)

end OrePool
