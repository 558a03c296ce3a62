import OrePool.Core.Slots
import OrePool.System

/-!
# What a step can do

Inversion lemmas, so that no later proof unfolds a step function it is not about: `Sys.Move`
lists the steps of the system with the task that moved taken apart, `BestTask.Move` the atomic
sections of a `BestSolution` task, `ReadyPc.Move` those of the mission loop.  The `simp` lemmas on
`Sys.perform` and `Shared.apply` read single fields after a step.
-/

namespace OrePool

open Interleaving

/-! ## Fields after a step -/

section Perform

variable (s : Sys) (who : Actor) (e : Effect)

@[simp] lemma Sys.perform_shared : (s.perform who e).shared = s.shared.apply e := rfl
@[simp] lemma Sys.perform_readyTasks : (s.perform who e).readyTasks = s.readyTasks := rfl
@[simp] lemma Sys.perform_bestTasks : (s.perform who e).bestTasks = s.bestTasks := rfl
@[simp] lemma Sys.perform_missionLoop : (s.perform who e).missionLoop = s.missionLoop := rfl
@[simp] lemma Sys.perform_missions : (s.perform who e).missions = s.missions ++ e.mission := rfl
@[simp] lemma Sys.perform_submission : (s.perform who e).submission = s.submission := rfl
@[simp] lemma Sys.perform_attenders :
    (s.perform who e).attenders = s.attenders ++ e.attender := rfl
@[simp] lemma Sys.perform_versions :
    (s.perform who e).chain.versions = s.chain.versions := rfl
@[simp] lemma Sys.perform_txs : (s.perform who e).chain.txs = s.chain.txs ++ e.tx := rfl
@[simp] lemma Sys.perform_journal : (s.perform who e).journal = (who, e) :: s.journal := rfl

end Perform

lemma Sys.spawnFor_fields (s : Sys) (msg : Option ClientMessage) :
    (s.spawnFor msg).shared = s.shared ∧ (s.spawnFor msg).missionLoop = s.missionLoop ∧
      (s.spawnFor msg).missions = s.missions ∧ (s.spawnFor msg).submission = s.submission ∧
      (s.spawnFor msg).attenders = s.attenders ∧ (s.spawnFor msg).chain = s.chain ∧
      (s.spawnFor msg).journal = s.journal := by
  rcases msg with _ | msg
  · exact ⟨rfl, rfl, rfl, rfl, rfl, rfl, rfl⟩
  · cases msg <;> exact ⟨rfl, rfl, rfl, rfl, rfl, rfl, rfl⟩

/-! ## Steps of the system -/

/-- What `Sys.step` can do. -/
inductive Sys.Move (srv : Server) (s : Sys) : Action → Sys → Prop
  | notify (k : ℕ) (p : Proof) :
      Move srv s (.notify k p)
        ({ s with chain := { s.chain with nextNotified := k + 1 } }.perform .tracker
          (.writeProof p))
  | connect {addr : SocketAddr} {pubkey : Pubkey} {version : ClientVersion} {id : Int64}
      (hfree : s.shared.sockets.lookup addr = none) (hid : srv.minerIdFor pubkey = some id) :
      Move srv s (.connect addr pubkey version)
        (s.perform .connections (.insertSocket addr ⟨pubkey, id, version⟩))
  | disconnect (addr : SocketAddr) :
      Move srv s (.disconnect addr) (s.perform .connections (.removeSocket addr))
  | receive (who : SocketAddr) (m : Message) :
      Move srv s (.receive who m)
        ((s.spawnFor (received srv.signatures who m)).perform .clients .none)
  | ready {i : ℕ} {addr : SocketAddr} (ht : s.readyTasks[i]? = some (some addr)) :
      Move srv s (.ready i)
        ({ s with readyTasks := s.readyTasks.set i none }.perform (.ready i) (.insertReady addr))
  | best {i : ℕ} {t t' : BestTask} {e : Effect} (ht : s.bestTasks[i]? = some t)
      (hs : t.step srv s.shared = some (t', e)) :
      Move srv s (.best i) ({ s with bestTasks := s.bestTasks.set i t' }.perform (.best i) e)
  | missions {reply : Reply} {pc : ReadyPc} {e : Effect}
      (hs : s.missionLoop.step srv s.shared reply = some (pc, e)) :
      Move srv s (.missions reply) ({ s with missionLoop := pc }.perform .missions e)
  | mission {i : ℕ} {t t' : MissionTask} {e : Effect} (ht : s.missions[i]? = some t)
      (hs : t.step = some (t', e)) :
      Move srv s (.mission i) ({ s with missions := s.missions.set i t' }.perform (.mission i) e)
  | submission {reply : Reply} {sub : Submitter} {e : Effect}
      (hs : s.submission.step srv s.shared s.attenders s.chain.txs reply = some (sub, e)) :
      Move srv s (.submission reply) ({ s with submission := sub }.perform .submission e)
  | attender {i : ℕ} {reply : Reply} {a a' : Attender} {e : Effect}
      (ha : s.attenders[i]? = some a) (hs : a.step srv s.shared reply = some (a', e)) :
      Move srv s (.attender i reply)
        ({ s with attenders := s.attenders.set i a' }.perform (.attender i) e)
  | land {i : ℕ} {p : Proof} {tx : MineTx} {challenge : Challenge}
      (htx : s.chain.txs[i]? = some tx) (hc : s.chain.challenge = some challenge)
      (hnew : tx.landed = false) (hvalid : srv.drillx.isValid tx.solution challenge = true)
      (hne : p.challenge ≠ challenge) :
      Move srv s (.land i p)
        ({ s with chain := { s.chain with
          versions := s.chain.versions ++ [p], txs := s.chain.txs.set i tx.land }
          }.perform .chain .none)
  | account {p : Proof} (hc : s.chain.challenge = some p.challenge) :
      Move srv s (.account p)
        ({ s with chain := { s.chain with versions := s.chain.versions ++ [p] }
          }.perform .chain .none)

/-- Every step is one of the moves. -/
theorem Sys.step_move {srv : Server} {s s' : Sys} {a : Action} (h : s.step srv a = some s') :
    Sys.Move srv s a s' := by
  cases a with
  | notify k p =>
      simp only [Sys.step, Option.some.injEq] at h
      exact h ▸ .notify k p
  | connect addr pubkey version =>
      simp only [Sys.step] at h
      split at h
      · cases h
      · rename_i hfree
        obtain ⟨id, hid, rfl⟩ := Option.map_eq_some_iff.mp h
        exact .connect (by simpa using hfree) hid
  | disconnect addr =>
      simp only [Sys.step, Option.some.injEq] at h
      exact h ▸ .disconnect addr
  | receive who m =>
      simp only [Sys.step, Option.some.injEq] at h
      exact h ▸ .receive who m
  | ready i =>
      simp only [Sys.step] at h
      split at h
      · rename_i addr ht
        simp only [Option.some.injEq] at h
        exact h ▸ .ready ht
      · cases h
  | best i =>
      obtain ⟨t, ht, h⟩ := Option.bind_eq_some_iff.mp h
      obtain ⟨⟨t', e⟩, hs, rfl⟩ := Option.map_eq_some_iff.mp h
      exact .best ht hs
  | missions reply =>
      obtain ⟨⟨pc, e⟩, hs, rfl⟩ := Option.map_eq_some_iff.mp h
      exact .missions hs
  | mission i =>
      obtain ⟨t, ht, h⟩ := Option.bind_eq_some_iff.mp h
      obtain ⟨⟨t', e⟩, hs, rfl⟩ := Option.map_eq_some_iff.mp h
      exact .mission ht hs
  | submission reply =>
      obtain ⟨⟨sub, e⟩, hs, rfl⟩ := Option.map_eq_some_iff.mp h
      exact .submission hs
  | attender i reply =>
      obtain ⟨a, ha, h⟩ := Option.bind_eq_some_iff.mp h
      obtain ⟨⟨a', e⟩, hs, rfl⟩ := Option.map_eq_some_iff.mp h
      exact .attender ha hs
  | land i p =>
      obtain ⟨tx, htx, h⟩ := Option.bind_eq_some_iff.mp h
      obtain ⟨challenge, hc, h⟩ := Option.bind_eq_some_iff.mp h
      split at h
      · rename_i hg
        simp only [Option.some.injEq] at h
        exact h ▸ .land htx hc (by simpa using hg.1) hg.2.1 hg.2.2
      · cases h
  | account p =>
      simp only [Sys.step] at h
      split at h
      · rename_i hc
        simp only [Option.some.injEq] at h
        exact h ▸ .account hc
      · cases h

/-- Steps of other tasks leave the submission loop alone. -/
lemma Sys.step_submission_eq {srv : Server} {s s' : Sys} {act : Action}
    (h : s.step srv act = some s') (hact : ∀ reply, act ≠ .submission reply) :
    s'.submission = s.submission := by
  cases Sys.step_move h with
  | submission _ => exact absurd rfl (hact _)
  | receive who m => exact (s.spawnFor_fields (received srv.signatures who m)).2.2.2.1
  | _ => rfl

/-! ## Atomic sections of a `BestSolution` task -/

/-- What `BestTask.step` can do, with the guard each section has passed. -/
inductive BestTask.Move (srv : Server) (sh : Shared) (t : BestTask) : BestTask → Effect → Prop
  | refuse (why : Refusal) (hpc : t.pc = .readRange)
      (hr : ∀ r, sh.clientNonceRanges.lookup t.pubkey = some r →
        r.contains t.solution.nonce = false) :
      Move srv sh t { t with pc := .done } (.refuse t.pubkey why)
  | inRange {r : NonceRange} (hpc : t.pc = .readRange)
      (hr : sh.clientNonceRanges.lookup t.pubkey = some r)
      (hn : r.contains t.solution.nonce = true) :
      Move srv sh t { t with pc := .readSocket r } .none
  | socket {r : NonceRange} {conn : ClientConnection} (hpc : t.pc = .readSocket r)
      (hc : sh.sockets.lookup t.addr = some conn) :
      Move srv sh t { t with pc := .readProof r conn } .none
  | accept {r : NonceRange} {conn : ClientConnection} {sub : Submission}
      (hpc : t.pc = .readProof r conn)
      (hv : srv.drillx.isValid t.solution sh.appProof.challenge = true)
      (hd : srv.args.expectedMinDifficulty ≤ srv.drillx.difficulty t.solution)
      (hsub : sub = ⟨t.pubkey, t.solution, r, conn, sh.appProof.challenge,
        srv.drillx.difficulty t.solution⟩) :
      Move srv sh t { t with pc := .readContributions sub } (.accept sub)
  | drop (hpc : (∃ r, t.pc = .readSocket r) ∨ ∃ r conn, t.pc = .readProof r conn) :
      Move srv sh t { t with pc := .done } .none
  | decide {sub : Submission} {old : Option InternalMessageContribution}
      (hpc : t.pc = .readContributions sub)
      (hold : sh.epochHashes.contributions.lookup sub.pubkey = old)
      (hlt : ∀ o ∈ old, o.suppliedDiff < sub.diff) :
      Move srv sh t { t with pc := .writeContribution sub old } .none
  | discard {sub : Submission} {o : InternalMessageContribution}
      (hpc : t.pc = .readContributions sub)
      (ho : sh.epochHashes.contributions.lookup sub.pubkey = some o)
      (hle : ¬ o.suppliedDiff < sub.diff) :
      Move srv sh t { t with pc := .done } (.discard sub)
  | write {sub : Submission} {old : Option InternalMessageContribution}
      (hpc : t.pc = .writeContribution sub old) :
      Move srv sh t { t with pc := .done } (.insertContribution sub)

/-- Every atomic section is one of the moves. -/
theorem BestTask.step_move {srv : Server} {sh : Shared} {t t' : BestTask} {e : Effect}
    (h : t.step srv sh = some (t', e)) : BestTask.Move srv sh t t' e := by
  revert h
  fun_cases BestTask.step srv sh t <;> intro h <;>
    simp only [Option.some.injEq, Prod.mk.injEq, reduceCtorEq] at h <;> obtain ⟨rfl, rfl⟩ := h
  case case1 hpc hnone => exact .refuse _ hpc (by simp [hnone])
  case case2 hpc r hr hn => exact .inRange hpc hr hn
  case case3 hpc r hr hn => exact .refuse _ hpc (by simpa [hr] using hn)
  case case4 hpc conn hc => exact .socket hpc hc
  case case5 hpc _ => exact .drop (.inl ⟨_, hpc⟩)
  case case6 hpc _ _ hok _ => exact .accept hpc hok.1 hok.2 rfl
  case case7 hpc _ _ _ => exact .drop (.inr ⟨_, _, hpc⟩)
  case case8 hpc o ho hlt => exact .decide hpc ho (by simpa using hlt)
  case case9 hpc o ho hle => exact .discard hpc ho hle
  case case10 hpc hnone => exact .decide hpc hnone (by simp)
  case case11 hpc => exact .write hpc

/-! ## Atomic sections of the mission loop -/

/-- What `ReadyPc.step` can do. -/
inductive ReadyPc.Move (srv : Server) (sh : Shared) (reply : Reply) :
    ReadyPc → ReadyPc → Effect → Prop
  | snapshot {clients : List SocketAddr} (hreply : reply = .order clients)
      (hclients : clients.toFinset = sh.readyClients) :
      Move srv sh reply .snapshot (.checkPaused clients) .none
  | go {clients : List SocketAddr} (hpaused : ¬ sh.paused) (hpos : 0 < clients.length) :
      Move srv sh reply (.checkPaused clients) (.readProof clients) .none
  | rest {clients : List SocketAddr} (hno : ¬ (¬ sh.paused ∧ 0 < clients.length)) :
      Move srv sh reply (.checkPaused clients) .snapshot .none
  | proof {clients : List SocketAddr} :
      Move srv sh reply (.readProof clients) (.readClock clients sh.appProof) .none
  | late {clients : List SocketAddr} {proof : Proof} {unixTimestamp : Int64}
      (hreply : reply = .clock unixTimestamp) (hcut : srv.args.cutoff proof unixTimestamp ≤ 0) :
      Move srv sh reply (.readClock clients proof) (.readBest clients) .none
  | early {clients : List SocketAddr} {proof : Proof} {unixTimestamp : Int64}
      (hreply : reply = .clock unixTimestamp) (hcut : ¬ srv.args.cutoff proof unixTimestamp ≤ 0) :
      Move srv sh reply (.readClock clients proof)
        (.readChallenge clients (srv.args.cutoff proof unixTimestamp)) .none
  | solved {clients : List SocketAddr} (hbest : sh.epochHashes.bestHash.solution.isSome) :
      Move srv sh reply (.readBest clients) .snapshot .none
  | unsolved {clients : List SocketAddr} (hbest : ¬ sh.epochHashes.bestHash.solution.isSome) :
      Move srv sh reply (.readBest clients) (.readChallenge clients 0) .none
  | challenge {clients : List SocketAddr} {cutoff : Int64} :
      Move srv sh reply (.readChallenge clients cutoff)
        (.takeNonce sh.appProof.challenge cutoff clients) .none
  | done {challenge : Challenge} {cutoff : Int64} :
      Move srv sh reply (.takeNonce challenge cutoff []) .snapshot .none
  | take {challenge : Challenge} {cutoff : Int64} {client : SocketAddr}
      {clients : List SocketAddr} :
      Move srv sh reply (.takeNonce challenge cutoff (client :: clients))
        (.readSockets ⟨challenge, cutoff, sh.appNonce, missionEnd sh.appNonce⟩ sh.ghost.nonceGen
          client clients) .takeNonce
  | spawn {msg : ServerMessageStartMining} {gen : ℕ} {client : SocketAddr}
      {clients : List SocketAddr} {sender : ClientConnection}
      (hsender : sh.sockets.lookup client = some sender) :
      Move srv sh reply (.readSockets msg gen client clients)
        (.removeReady msg.challenge msg.cutoff client clients)
        (.spawnMission ⟨client, sender.pubkey, msg, gen⟩)
  | gone {msg : ServerMessageStartMining} {gen : ℕ} {client : SocketAddr}
      {clients : List SocketAddr} (hsender : sh.sockets.lookup client = none) :
      Move srv sh reply (.readSockets msg gen client clients)
        (.removeReady msg.challenge msg.cutoff client clients) .none
  | remove {challenge : Challenge} {cutoff : Int64} {client : SocketAddr}
      {clients : List SocketAddr} :
      Move srv sh reply (.removeReady challenge cutoff client clients)
        (.takeNonce challenge cutoff clients) (.removeReady client)

/-- Every atomic section of the mission loop is one of the moves. -/
theorem ReadyPc.step_move {srv : Server} {sh : Shared} {reply : Reply} {pc pc' : ReadyPc}
    {e : Effect} (h : pc.step srv sh reply = some (pc', e)) :
    ReadyPc.Move srv sh reply pc pc' e := by
  revert h
  fun_cases ReadyPc.step srv sh reply pc <;> intro h <;>
    simp only [Option.some.injEq, Prod.mk.injEq, reduceCtorEq] at h <;> obtain ⟨rfl, rfl⟩ := h
  case case1 hclients => exact .snapshot rfl hclients.2
  case case4 hgo => exact .go hgo.1 hgo.2
  case case5 hno => exact .rest hno
  case case6 => exact .proof
  case case7 _ hcut => exact .late rfl hcut
  case case8 _ hcut => exact .early rfl hcut
  case case10 hbest => exact .solved hbest
  case case11 hbest => exact .unsolved hbest
  case case12 => exact .challenge
  case case13 => exact .done
  case case14 => exact .take
  case case15 hsender => exact .spawn hsender
  case case16 hsender => exact .gone hsender
  case case17 => exact .remove

end OrePool
