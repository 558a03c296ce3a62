import OrePool.Lemmas.Moves

/-!
# What the tasks of a round can do

The inversion lemmas for the two tasks that run the rounds.  `Submitter.Move` lists the atomic
sections of the submission loop and `Attender.Move` those of an attender, each with the position
it starts from and the guard it has passed.
-/

namespace OrePool

/-! ## The submission loop -/

/-- What `Submitter.step` can do. -/
inductive Submitter.Move (srv : Server) (sh : Shared) (as : List Attender) (txs : List MineTx)
    (reply : Reply) (sub : Submitter) : Submitter → Effect → Prop
  | busy (hpc : sub.pc = .readOldProof) : Move srv sh as txs reply sub sub .none
  | oldProof (hpc : sub.pc = .readOldProof) :
      Move srv sh as txs reply sub (sub.goto (.readClock sh.appProof)) .none
  | early {oldProof : Proof} (hpc : sub.pc = .readClock oldProof) :
      Move srv sh as txs reply sub (sub.goto .readOldProof) .none
  | due {oldProof : Proof} {unixTimestamp : Int64} (hpc : sub.pc = .readClock oldProof)
      (hreply : reply = .clock unixTimestamp)
      (hcutoff : srv.args.cutoff oldProof unixTimestamp ≤ 0 ∧
        srv.args.cutoff oldProof unixTimestamp ≤ -srv.args.bufferTime.toInt64) :
      Move srv sh as txs reply sub (sub.goto (.readBest oldProof)) .none
  | best {oldProof : Proof} (hpc : sub.pc = .readBest oldProof) :
      Move srv sh as txs reply sub
        (sub.goto (.readSockets oldProof sh.epochHashes.bestHash.solution)) .none
  | noSolution {oldProof : Proof} {solution : Option Solution}
      (hpc : sub.pc = .readSockets oldProof solution) (hsol : ¬ solution.isSome) :
      Move srv sh as txs reply sub (sub.goto .readOldProof) .none
  | solution {oldProof : Proof} {solution : Option Solution}
      (hpc : sub.pc = .readSockets oldProof solution) (hsol : solution.isSome) :
      Move srv sh as txs reply sub (sub.goto (.capture oldProof sh.sockets.entries.length)) .none
  | wait {oldProof : Proof} {numActiveMiners : ℕ} (hpc : sub.pc = .capture oldProof numActiveMiners)
      (hwait : sh.epochHashes.contributions.entries.length ≠ numActiveMiners ∧ sub.numWaiting < 6) :
      Move srv sh as txs reply sub
        { sub with pc := .readOldProof, numWaiting := sub.numWaiting + 1 } .none
  | capture {oldProof : Proof} {numActiveMiners : ℕ} {r : Round}
      (hpc : sub.pc = .capture oldProof numActiveMiners)
      (hwait : ¬ (sh.epochHashes.contributions.entries.length ≠ numActiveMiners ∧
        sub.numWaiting < 6))
      (hr : r = ⟨sub.rounds, oldProof, sh.epochHashes.bestHash.solution,
        sh.epochHashes.contributions.entries.length⟩) :
      Move srv sh as txs reply sub { sub with pc := .pause r, numWaiting := 0 } .none
  | pause {r : Round} (hpc : sub.pc = .pause r) :
      Move srv sh as txs reply sub { sub with pc := .loadConfig r 0, rounds := sub.rounds + 1 }
        (.setPaused true)
  | noBest {r : Round} {attempt : ℕ} (hpc : sub.pc = .loadConfig r attempt)
      (hsol : r.bestSolution = none) :
      Move srv sh as txs reply sub (sub.nextAttempt r attempt) .none
  | config {r : Round} {attempt : ℕ} {solution : Solution} {config : Config} {loadedProof : Proof}
      (hpc : sub.pc = .loadConfig r attempt) (hsol : r.bestSolution = some solution)
      (hreply : reply = .configAndProof (some (config, loadedProof)))
      (hvalid : srv.drillx.isValid solution loadedProof.challenge = true) :
      Move srv sh as txs reply sub (sub.goto (.clock r attempt solution (some config))) .none
  | outdated {r : Round} {attempt : ℕ} {solution : Solution} {config : Config}
      {loadedProof : Proof} (hpc : sub.pc = .loadConfig r attempt)
      (hsol : r.bestSolution = some solution)
      (hreply : reply = .configAndProof (some (config, loadedProof)))
      (hvalid : ¬ srv.drillx.isValid solution loadedProof.challenge = true) :
      Move srv sh as txs reply sub (sub.goto (.failGetProof r)) .none
  | noConfig {r : Round} {attempt : ℕ} {solution : Solution}
      (hpc : sub.pc = .loadConfig r attempt) (hsol : r.bestSolution = some solution)
      (hreply : reply = .configAndProof none) :
      Move srv sh as txs reply sub (sub.goto (.clock r attempt solution none)) .none
  | clock {r : Round} {attempt : ℕ} {solution : Solution} {oreConfig : Option Config}
      (hpc : sub.pc = .clock r attempt solution oreConfig) :
      Move srv sh as txs reply sub (sub.goto (.send r attempt solution oreConfig)) .none
  | send {r : Round} {attempt : ℕ} {solution : Solution} {oreConfig : Option Config}
      (hpc : sub.pc = .send r attempt solution oreConfig) :
      Move srv sh as txs reply sub (sub.goto (.confirm r attempt solution oreConfig txs.length))
        (.sendTx ⟨r.id, solution, false⟩)
  | noBlockhash {r : Round} {attempt : ℕ} {solution : Solution} {oreConfig : Option Config}
      (hpc : sub.pc = .send r attempt solution oreConfig) :
      Move srv sh as txs reply sub (sub.nextAttempt r attempt) .none
  | landed {r : Round} {attempt : ℕ} {solution : Solution} {oreConfig : Option Config} {tx : ℕ}
      (hpc : sub.pc = .confirm r attempt solution oreConfig tx) (hreply : reply = .outcome .ok) :
      Move srv sh as txs reply sub (sub.goto (.await r as.length))
        (.spawnAttender ⟨r, solution, srv.drillx.difficulty solution, oreConfig⟩)
  | hashInvalid {r : Round} {attempt : ℕ} {solution : Solution} {oreConfig : Option Config}
      {tx : ℕ} (hpc : sub.pc = .confirm r attempt solution oreConfig tx)
      (hreply : reply = .outcome .hashInvalid) :
      Move srv sh as txs reply sub (sub.goto (.failGetProof r)) .none
  | failed {r : Round} {attempt : ℕ} {solution : Solution} {oreConfig : Option Config} {tx : ℕ}
      (hpc : sub.pc = .confirm r attempt solution oreConfig tx) (hreply : reply ≠ .outcome .ok) :
      Move srv sh as txs reply sub (sub.nextAttempt r attempt) .none
  | released {r : Round} {i : ℕ} {a : Attender} (hpc : sub.pc = .await r i) (ha : as[i]? = some a)
      (hact : ¬ a.active) : Move srv sh as txs reply sub (sub.goto .readOldProof) .none
  | refreshed {r : Round} {p : Proof} (hpc : sub.pc = .failGetProof r)
      (hreply : reply = .proof (some p)) :
      Move srv sh as txs reply sub (sub.goto (.failWriteProof r p)) .none
  | notRefreshed {r : Round} (hpc : sub.pc = .failGetProof r) :
      Move srv sh as txs reply sub (sub.goto (.failResetNonce r)) .none
  | writeProof {r : Round} {p : Proof} (hpc : sub.pc = .failWriteProof r p) :
      Move srv sh as txs reply sub (sub.goto (.failResetNonce r)) (.writeProof p)
  | resetNonce {r : Round} (hpc : sub.pc = .failResetNonce r) :
      Move srv sh as txs reply sub (sub.goto (.failResetEpoch r)) .resetNonce
  | resetEpoch {r : Round} (hpc : sub.pc = .failResetEpoch r) :
      Move srv sh as txs reply sub (sub.goto (.failUnpause r))
        (.resetEpoch sh.appProof.challenge false sh.epochHashes.contributions)
  | unpause {r : Round} (hpc : sub.pc = .failUnpause r) :
      Move srv sh as txs reply sub (sub.goto .readOldProof) (.setPaused false)

/-- Every atomic section of the submission loop is one of the moves. -/
theorem Submitter.step_move {srv : Server} {sh : Shared} {as : List Attender} {txs : List MineTx}
    {reply : Reply} {sub sub' : Submitter} {e : Effect}
    (h : sub.step srv sh as txs reply = some (sub', e)) :
    Submitter.Move srv sh as txs reply sub sub' e := by
  revert h
  fun_cases Submitter.step srv sh as txs reply sub <;> intro h <;>
    simp only [Option.some.injEq, Prod.mk.injEq, reduceCtorEq] at h <;> obtain ⟨rfl, rfl⟩ := h
  case case1 hpc => exact .busy hpc
  case case2 hpc _ => exact .oldProof hpc
  case case3 hpc _ _ hcut => exact .due hpc rfl hcut
  case case4 hpc _ _ _ => exact .early hpc
  case case6 hpc => exact .best hpc
  case case7 hpc hsol => exact .solution hpc hsol
  case case8 hpc hsol => exact .noSolution hpc hsol
  case case9 hpc _ hwait => exact .wait hpc hwait
  case case10 hpc _ hwait _ => exact .capture hpc hwait rfl
  case case11 hpc => exact .pause hpc
  case case12 hpc hsol => exact .noBest hpc hsol
  case case13 hpc _ hsol _ _ hvalid => exact .config hpc hsol rfl hvalid
  case case14 hpc _ hsol _ _ hvalid => exact .outdated hpc hsol rfl hvalid
  case case15 hpc _ hsol => exact .noConfig hpc hsol rfl
  case case17 hpc _ => exact .clock hpc
  case case19 hpc => exact .send hpc
  case case20 hpc => exact .noBlockhash hpc
  case case22 hpc => exact .landed hpc rfl
  case case23 hpc _ => exact .failed hpc (by simp)
  case case24 hpc _ => exact .hashInvalid hpc rfl
  case case25 hpc _ hok _ => exact .failed hpc (by simpa using hok)
  case case28 hpc _ ha hact => exact .released hpc ha hact
  case case30 hpc _ => exact .refreshed hpc rfl
  case case31 hpc => exact .notRefreshed hpc
  case case33 hpc => exact .writeProof hpc
  case case34 hpc => exact .resetNonce hpc
  case case35 hpc => exact .resetEpoch hpc
  case case36 hpc => exact .unpause hpc

/-! ## An attender -/

/-- What `Attender.step` can do: the search, then the restoration when the RPC node was first, the
challenge rows when the tracked proof was, and last payment and the reset. -/
inductive Attender.Move (srv : Server) (sh : Shared) (reply : Reply) (a : Attender) :
    Attender → Effect → Prop
  | gaveUp (hpc : a.pc = .check) (hold : a.oldProof.challenge = sh.appProof.challenge)
      (hlim : CHECK_LIMIT ≤ a.numChecking + 1) :
      Move srv sh reply a (({ a with numChecking := a.numChecking + 1 }).goto (.ended .gaveUp))
        .none
  | inVain (hpc : a.pc = .check) (hold : a.oldProof.challenge = sh.appProof.challenge)
      (hlim : ¬ CHECK_LIMIT ≤ a.numChecking + 1) :
      Move srv sh reply a (({ a with numChecking := a.numChecking + 1 }).goto .getProof) .none
  | updatedDb (hpc : a.pc = .check) (hnew : a.oldProof.challenge ≠ sh.appProof.challenge)
      (hdb : srv.poweredByDbms = .sqlite) :
      Move srv sh reply a (a.goto (.getOldChallenge sh.appProof)) .none
  | updated (hpc : a.pc = .check) (hnew : a.oldProof.challenge ≠ sh.appProof.challenge)
      (hdb : srv.poweredByDbms ≠ .sqlite) :
      Move srv sh reply a (a.goto (.readLatest Int64.maxValue)) .none
  | rpcNews {p : Proof} (hpc : a.pc = .getProof) (hreply : reply = .proof (some p))
      (hnew : a.oldProof.challenge ≠ p.challenge) :
      Move srv sh reply a (a.goto (.rpcWriteProof p)) .none
  | rpcInVain (hpc : a.pc = .getProof) : Move srv sh reply a (a.goto .check) .none
  | rpcWriteProof {p : Proof} (hpc : a.pc = .rpcWriteProof p) :
      Move srv sh reply a (a.goto (.rpcReadProof p)) (.writeProof p)
  | rpcReadProof {p : Proof} (hpc : a.pc = .rpcReadProof p) :
      Move srv sh reply a (a.goto (.rpcResetNonce p sh.appProof)) .none
  | rpcResetNonce {p latestProof : Proof} (hpc : a.pc = .rpcResetNonce p latestProof) :
      Move srv sh reply a (a.goto (.rpcResetEpoch p latestProof)) .resetNonce
  | rpcResetEpoch {p latestProof : Proof} (hpc : a.pc = .rpcResetEpoch p latestProof) :
      Move srv sh reply a (a.goto (.rpcUnpause latestProof))
        (.resetEpoch p.challenge true sh.epochHashes.contributions)
  | rpcUnpause {latestProof : Proof} (hpc : a.pc = .rpcUnpause latestProof) :
      Move srv sh reply a (a.goto (.rpcSignal latestProof)) (.setPaused false)
  | rpcSignalDb {latestProof : Proof} (hpc : a.pc = .rpcSignal latestProof)
      (hdb : srv.poweredByDbms = .sqlite) :
      Move srv sh reply a (a.goto (.rpcAddChallenge latestProof)) .none
  | rpcSignal {latestProof : Proof} (hpc : a.pc = .rpcSignal latestProof)
      (hdb : srv.poweredByDbms ≠ .sqlite) : Move srv sh reply a (a.goto (.ended .byRpc)) .none
  | rpcAddChallenge {latestProof : Proof} (hpc : a.pc = .rpcAddChallenge latestProof) :
      Move srv sh reply a (a.goto (.ended .byRpc)) (.addChallenge latestProof.challenge)
  | rpcNotAdded {latestProof : Proof} (hpc : a.pc = .rpcAddChallenge latestProof) :
      Move srv sh reply a (a.goto (.rpcFindChallenge latestProof)) .none
  | rpcFound {latestProof : Proof} (hpc : a.pc = .rpcFindChallenge latestProof)
      (hrow : (sh.getChallenge latestProof.challenge).isSome) :
      Move srv sh reply a (a.goto (.ended .byRpc)) .none
  | rpcNotFound {latestProof : Proof} (hpc : a.pc = .rpcFindChallenge latestProof) :
      Move srv sh reply a (a.goto (.rpcAddChallenge latestProof)) .none
  | gotOldChallenge {latestProof : Proof} {id : Int64} (hpc : a.pc = .getOldChallenge latestProof)
      (hrow : sh.getChallenge a.oldProof.challenge = some id) :
      Move srv sh reply a (a.goto (.addNewChallenge id latestProof)) .none
  | noOldChallenge {latestProof : Proof} (hpc : a.pc = .getOldChallenge latestProof) :
      Move srv sh reply a (a.goto (.addOldChallenge latestProof)) .none
  | addOldChallenge {latestProof : Proof} (hpc : a.pc = .addOldChallenge latestProof) :
      Move srv sh reply a (a.goto (.getOldChallenge latestProof))
        (.addChallenge a.oldProof.challenge)
  | oldNotAdded {latestProof : Proof} (hpc : a.pc = .addOldChallenge latestProof) :
      Move srv sh reply a (a.goto (.findOldChallenge latestProof)) .none
  | oldFound {latestProof : Proof} (hpc : a.pc = .findOldChallenge latestProof)
      (hrow : (sh.getChallenge a.oldProof.challenge).isSome) :
      Move srv sh reply a (a.goto (.getOldChallenge latestProof)) .none
  | oldNotFound {latestProof : Proof} (hpc : a.pc = .findOldChallenge latestProof) :
      Move srv sh reply a (a.goto (.addOldChallenge latestProof)) .none
  | addNewChallenge {id : Int64} {latestProof : Proof}
      (hpc : a.pc = .addNewChallenge id latestProof) :
      Move srv sh reply a (a.goto (.readLatest id)) (.addChallenge latestProof.challenge)
  | newNotAdded {id : Int64} {latestProof : Proof} (hpc : a.pc = .addNewChallenge id latestProof) :
      Move srv sh reply a (a.goto (.findNewChallenge id latestProof)) .none
  | newFound {id : Int64} {latestProof : Proof} (hpc : a.pc = .findNewChallenge id latestProof)
      (hrow : (sh.getChallenge latestProof.challenge).isSome) :
      Move srv sh reply a (a.goto (.readLatest id)) .none
  | newNotFound {id : Int64} {latestProof : Proof}
      (hpc : a.pc = .findNewChallenge id latestProof) :
      Move srv sh reply a (a.goto (.addNewChallenge id latestProof)) .none
  | readLatest {id : Int64} (hpc : a.pc = .readLatest id) :
      Move srv sh reply a (a.goto (.snapshot id sh.appProof)) .none
  | snapshot {id : Int64} {latestProof : Proof} (hpc : a.pc = .snapshot id latestProof) :
      Move srv sh reply a
        (a.goto (.sendMineSuccess id latestProof sh.epochHashes.contributions)) .none
  | sendMineSuccess {id : Int64} {latestProof : Proof} {contributions : Contributions}
      (hpc : a.pc = .sendMineSuccess id latestProof contributions) :
      Move srv sh reply a (a.goto (.writeProof latestProof))
        (.sendMineSuccess (a.mineSuccess id latestProof contributions))
  | writeProof {latestProof : Proof} (hpc : a.pc = .writeProof latestProof) :
      Move srv sh reply a (a.goto (.resetNonce latestProof)) (.writeProof latestProof)
  | resetNonce {latestProof : Proof} (hpc : a.pc = .resetNonce latestProof) :
      Move srv sh reply a (a.goto (.resetEpoch latestProof)) .resetNonce
  | resetEpoch {latestProof : Proof} (hpc : a.pc = .resetEpoch latestProof) :
      Move srv sh reply a (a.goto .unpause)
        (.resetEpoch latestProof.challenge true sh.epochHashes.contributions)
  | unpause (hpc : a.pc = .unpause) : Move srv sh reply a (a.goto .signal) (.setPaused false)
  | signal (hpc : a.pc = .signal) : Move srv sh reply a (a.goto (.ended .byTracker)) .none

/-- Every atomic section of an attender is one of the moves. -/
theorem Attender.step_move {srv : Server} {sh : Shared} {reply : Reply} {a a' : Attender}
    {e : Effect} (h : a.step srv sh reply = some (a', e)) : Attender.Move srv sh reply a a' e := by
  revert h
  fun_cases Attender.step srv sh reply a <;> intro h <;>
    simp only [Option.some.injEq, Prod.mk.injEq, reduceCtorEq] at h <;> obtain ⟨rfl, rfl⟩ := h
  case case1 hpc hold _ hlim => exact .gaveUp hpc hold hlim
  case case2 hpc hold _ hlim => exact .inVain hpc hold hlim
  case case3 hpc hnew hdb => exact .updatedDb hpc hnew hdb
  case case4 hpc hnew hdb => exact .updated hpc hnew hdb
  case case5 hpc _ hnew => exact .rpcNews hpc rfl hnew
  case case6 hpc _ _ => exact .rpcInVain hpc
  case case7 hpc => exact .rpcInVain hpc
  case case9 hpc => exact .rpcWriteProof hpc
  case case10 hpc => exact .rpcReadProof hpc
  case case11 hpc => exact .rpcResetNonce hpc
  case case12 hpc => exact .rpcResetEpoch hpc
  case case13 hpc => exact .rpcUnpause hpc
  case case14 hpc hdb => exact .rpcSignalDb hpc hdb
  case case15 hpc hdb => exact .rpcSignal hpc hdb
  case case16 hpc => exact .rpcAddChallenge hpc
  case case17 hpc => exact .rpcNotAdded hpc
  case case19 hpc _ hok => exact .rpcFound hpc hok.2
  case case20 hpc _ _ => exact .rpcNotFound hpc
  case case22 hpc _ id hrow =>
    split at hrow
    · exact .gotOldChallenge hpc hrow
    · cases hrow
  case case23 hpc _ _ => exact .noOldChallenge hpc
  case case25 hpc => exact .addOldChallenge hpc
  case case26 hpc => exact .oldNotAdded hpc
  case case28 hpc _ hok => exact .oldFound hpc hok.2
  case case29 hpc _ _ => exact .oldNotFound hpc
  case case31 hpc => exact .addNewChallenge hpc
  case case32 hpc => exact .newNotAdded hpc
  case case34 hpc _ hok => exact .newFound hpc hok.2
  case case35 hpc _ _ => exact .newNotFound hpc
  case case37 hpc => exact .readLatest hpc
  case case38 hpc => exact .snapshot hpc
  case case39 hpc => exact .sendMineSuccess hpc
  case case40 hpc => exact .writeProof hpc
  case case41 hpc => exact .resetNonce hpc
  case case42 hpc => exact .resetEpoch hpc
  case case43 hpc => exact .unpause hpc
  case case44 hpc => exact .signal hpc

end OrePool
