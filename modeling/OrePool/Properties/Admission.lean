import OrePool.Lemmas.Handshakes
import OrePool.LedgerReplay

/-!
# Admission

Who is let through the handshake.  `Admissible` is the condition both endpoints are to enforce:
a key, a fresh timestamp signed by it, and either an enabled row of the key in `miners` or, without
a database, no connection of the key.  `admitted` proves that they do, whatever the tables are at
each of the calls.

The age of the timestamp is a difference of unsigned numbers.  A timestamp that lies ahead of the
clock makes it wrap to something large, unless the clock itself shows less than half a minute.
Whoever is not let through is told so: a handshake makes seven calls at most (`Request.answered`).
-/

namespace OrePool

open Interleaving Tables

/-! ## The property -/

/-- The endpoint a request comes in at. -/
def Request.handle (host : Host) (req : Request) (now : UInt64) (connected : List Pubkey) :
    HandshakePc :=
  match req.version with
  | .V0 => wsHandler host req.username req.password req.timestamp now connected
  | .V1 => wsHandlerV1 host req.username req.password req.timestamp now connected

/-- What a call comes upon: the tables as the other tasks have left them, and what goes wrong. -/
abbrev Call := Database × Option Fault

/-- A handshake among other tasks, every call with tables of its own. -/
def Request.run (host : Host) (req : Request) : List Call → HandshakePc → HandshakePc
  | [], pc => pc
  | (db, fault) :: calls, pc =>
      match pc.step host req db fault with
      | some (pc', _) => req.run host calls pc'
      | none => pc

/-- The timestamp is at most half a minute old and not ahead of the clock. -/
def Request.Fresh (req : Request) (now : UInt64) : Prop :=
  0 ≤ (now.toNat : ℤ) - req.timestamp.toNat ∧ (now.toNat : ℤ) - req.timestamp.toNat < 30

/-- One of the calls came upon this row of the key in `miners`. -/
def Vouched (host : Host) (calls : List Call) (userPubkey : Pubkey) (miner : Miner) : Prop :=
  ∃ call ∈ calls, miner ∈ call.1.miners ∧ host.keys.fromStr miner.pubkey = some userPubkey

/-- **Admission.**  What it takes to be let through with a connection. -/
structure Admissible (host : Host) (req : Request) (now : UInt64) (connected : List Pubkey)
    (calls : List Call) (connection : ClientConnection) : Prop where
  key : host.keys.fromStr req.username = some connection.pubkey
  fresh : req.Fresh now
  signed : req.Signed host connection.pubkey
  version : connection.clientVersion = req.version
  registered : host.poweredByDbms = .sqlite → ∃ miner, Vouched host calls connection.pubkey miner ∧
    miner.enabled = true ∧ connection.minerId = miner.id
  alone : host.poweredByDbms ≠ .sqlite → connection.pubkey ∉ connected ∧
    connection.minerId = Int64.maxValue

/-! ## The timestamp -/

/-- The wrapping difference is small only where the difference is. -/
lemma Request.fresh_iff {req : Request} {now : UInt64} (hnow : 30 ≤ now) :
    now - req.timestamp < 30 ↔ req.Fresh now := by
  have h₁ := now.toNat_lt
  have h₂ := req.timestamp.toNat_lt
  rw [UInt64.le_iff_toNat_le] at hnow
  rw [UInt64.lt_iff_toNat_lt, UInt64.toNat_sub, Request.Fresh]
  show (2 ^ 64 - req.timestamp.toNat + now.toNat) % 2 ^ 64 < 30 ↔ _
  change 30 ≤ now.toNat at hnow
  omega

/-! ## With a database -/

section Run

variable {host : Host} {req : Request} {calls : List Call} {userPubkey : Pubkey}

/-- What a handshake of a key has made sure of at each of its positions. -/
def HandshakePc.Backed (host : Host) (req : Request) (calls : List Call) (userPubkey : Pubkey) :
    HandshakePc → Prop
  | .getMiner key | .addMiner key | .getNewMiner key _ => key = userPubkey
  | .getPool key miner _ | .addPool key miner _ | .getNewPool key miner _ _
  | .addReward key miner _ => key = userPubkey ∧ Vouched host calls userPubkey miner
  | .accepted connection => ∃ miner, Vouched host calls userPubkey miner ∧ miner.enabled = true ∧
      req.Signed host userPubkey ∧ connection = ⟨userPubkey, miner.id, req.version⟩
  | .rejected _ | .panicked => True

lemma HandshakePc.Backed.authorize {miner : Miner} (h : Vouched host calls userPubkey miner) :
    (req.authorize host userPubkey miner).Backed host req calls userPubkey := by
  rcases req.authorize_cases host userPubkey miner with ⟨why, hpc⟩ | ⟨hpc, henabled, hsigned⟩
  · rw [hpc]
    trivial
  · rw [hpc]
    exact ⟨miner, h, henabled, hsigned, rfl⟩

lemma HandshakePc.Backed.register {miner : Miner} {pool : Pool} {minerAdded poolAdded : Bool}
    (h : Vouched host calls userPubkey miner) :
    (HandshakePc.register userPubkey miner pool minerAdded poolAdded).Backed host req calls
      userPubkey := by
  rw [HandshakePc.register]
  split
  · exact ⟨rfl, h⟩
  · trivial

/-- A row read for a text that is the key's is a row of the key. -/
lemma Vouched.of_getMiner {db : Database} {fault : Option Fault} {text : String} {miner : Miner}
    (hcall : (db, fault) ∈ calls) (hkey : host.keys.fromStr text = some userPubkey)
    (h : db.getMinerByPubkeyStr fault text = .ok miner) : Vouched host calls userPubkey miner := by
  obtain ⟨-, hmem, hpubkey⟩ := Database.getMiner_eq_ok h
  exact ⟨(db, fault), hcall, hmem, hpubkey ▸ hkey⟩

theorem HandshakePc.Backed.step {db db' : Database} {fault : Option Fault} {pc pc' : HandshakePc}
    (hkey : host.keys.fromStr req.username = some userPubkey) (hcall : (db, fault) ∈ calls)
    (hi : pc.Backed host req calls userPubkey)
    (hs : pc.step host req db fault = some (pc', db')) : pc'.Backed host req calls userPubkey := by
  cases HandshakePc.step_move hs with
  | found hminer =>
      obtain rfl := hi
      exact .authorize (.of_getMiner hcall hkey hminer)
  | missing => exact hi
  | minerAdded _ _ _ | minerRefused _ => exact hi
  | newMiner hminer =>
      obtain rfl := hi
      exact ⟨rfl, .of_getMiner hcall (host.keys.fromStr_toString _) hminer⟩
  | pool _ | newPool _ =>
      obtain ⟨rfl, hminer⟩ := hi
      exact .register hminer
  | poolMissing | addPool _ => exact hi
  | rewardAdded _ =>
      obtain ⟨rfl, hminer⟩ := hi
      exact .authorize hminer
  | rewardRefused _ | minerUnavailable | poolUnavailable | newMinerPanic | newPoolPanic => trivial

theorem HandshakePc.Backed.run (hkey : host.keys.fromStr req.username = some userPubkey)
    {rest : List Call} (hrest : rest ⊆ calls) {pc : HandshakePc}
    (hi : pc.Backed host req calls userPubkey) :
    (req.run host rest pc).Backed host req calls userPubkey := by
  induction rest generalizing pc with
  | nil => exact hi
  | cons call rest ih =>
      obtain ⟨hcall, hrest⟩ := List.cons_subset.mp hrest
      rw [Request.run]
      split
      · rename_i pc' db' hs
        exact ih hrest (hi.step hkey hcall hs)
      · exact hi

end Run

/-- A handshake that is over stays as it is. -/
lemma Request.run_accepted (host : Host) (req : Request) (calls : List Call)
    (connection : ClientConnection) :
    req.run host calls (.accepted connection) = .accepted connection := by
  cases calls with
  | nil => rfl
  | cons call calls => rfl

lemma Request.run_rejected (host : Host) (req : Request) (calls : List Call) (why : Rejection) :
    req.run host calls (.rejected why) = .rejected why := by
  cases calls with
  | nil => rfl
  | cons call calls => rfl

/-! ## Both endpoints -/

lemma Request.handle_eq (host : Host) (req : Request) (now : UInt64) (connected : List Pubkey) :
    req.handle host now connected = req.open host now connected :=
  (req.open_eq host now connected).symm

/-- **Admission.**  On both endpoints, with a clock past its first half minute, whoever is let
through is admissible, whatever the tables are at each call and whoever is connected. -/
theorem admitted {host : Host} {req : Request} {now : UInt64} {connected : List Pubkey}
    {calls : List Call} {connection : ClientConnection} (hnow : 30 ≤ now)
    (h : req.run host calls (req.handle host now connected) = .accepted connection) :
    Admissible host req now connected calls connection := by
  rw [Request.handle_eq] at h
  by_cases hdb : host.poweredByDbms = .sqlite
  · rcases Request.open_sqlite hdb req now connected with ⟨userPubkey, hopen⟩ | hopen | hopen
    · obtain ⟨hage, hkey⟩ := Request.open_eq_getMiner hopen
      have hsound : (req.run host calls (.getMiner userPubkey)).Backed host req calls userPubkey :=
        HandshakePc.Backed.run hkey (List.Subset.refl calls) rfl
      rw [hopen] at h
      rw [h] at hsound
      obtain ⟨miner, hvouched, henabled, hsigned, rfl⟩ := hsound
      exact ⟨hkey, (Request.fresh_iff hnow).mp hage, hsigned, rfl,
        fun _ => ⟨miner, hvouched, henabled, rfl⟩, fun hno => absurd hdb hno⟩
    · rw [hopen, Request.run_rejected] at h
      cases h
    · rw [hopen, Request.run_rejected] at h
      cases h
  · rcases Request.open_without hdb req now connected with ⟨accepted, hopen⟩ | ⟨why, hopen⟩
    · obtain ⟨-, hage, userPubkey, hkey, hfree, hsigned, rfl⟩ := Request.open_eq_accepted hopen
      rw [hopen, Request.run_accepted] at h
      obtain rfl := HandshakePc.accepted.inj h
      exact ⟨hkey, (Request.fresh_iff hnow).mp hage, hsigned, rfl,
        fun hyes => absurd hyes hdb, fun _ => ⟨hfree, rfl⟩⟩
    · rw [hopen, Request.run_rejected] at h
      cases h

/-- A registered miner is let through, having met the conditions of `admitted`. -/
theorem admitted_registered :
    Replay.request.run Replay.host [(Replay.registered, none)]
        (Replay.request.handle Replay.host 110 []) = .accepted ⟨Replay.minerKey, 1, .V1⟩ ∧
      Admissible Replay.host Replay.request 110 [] [(Replay.registered, none)]
        ⟨Replay.minerKey, 1, .V1⟩ := by
  have hrun : Replay.request.run Replay.host [(Replay.registered, none)]
      (Replay.request.handle Replay.host 110 []) = .accepted ⟨Replay.minerKey, 1, .V1⟩ := by
    decide +kernel
  exact ⟨hrun, admitted (by decide) hrun⟩

/-! ## Everyone is answered -/

/-- Whether a handshake is over does not depend on the tables. -/
lemma HandshakePc.step_eq_none {host : Host} {req : Request} {pc : HandshakePc}
    {db db' : Database} {fault fault' : Option Fault} (h : pc.step host req db fault = none) :
    pc.step host req db' fault' = none := by
  cases pc with
  | accepted _ | rejected _ | panicked => rfl
  | addMiner _ | addPool _ _ _ | addReward _ _ _ => cases h
  | getMiner _ | getNewMiner _ _ | getPool _ _ _ | getNewPool _ _ _ _ =>
      rw [HandshakePc.step] at h
      split at h
      · cases h
      · cases h

/-- It is over once no calls are left. -/
lemma HandshakePc.calls_of_step {host : Host} {req : Request} {pc : HandshakePc}
    {db : Database} {fault : Option Fault} (h : pc.step host req db fault = none) :
    pc.calls = 0 := by
  cases pc with
  | accepted _ | rejected _ | panicked => rfl
  | addMiner _ | addPool _ _ _ | addReward _ _ _ => cases h
  | getMiner _ | getNewMiner _ _ | getPool _ _ _ | getNewPool _ _ _ _ =>
      rw [HandshakePc.step] at h
      split at h
      · cases h
      · cases h

lemma Request.calls_run {host : Host} {req : Request} {calls : List Call} {pc : HandshakePc}
    (h : pc.calls ≤ calls.length) : (req.run host calls pc).calls = 0 := by
  induction calls generalizing pc with
  | nil => exact Nat.le_zero.mp h
  | cons call calls ih =>
      rw [Request.run]
      split
      · rename_i pc' db' hs
        have hlt := (HandshakePc.step_move hs).calls
        rw [List.length_cons] at h
        exact ih (by omega)
      · exact HandshakePc.calls_of_step ‹_›

/-- On both endpoints, after seven calls at most the client is let in or told why not, unless the
task has panicked. -/
theorem Request.answered {host : Host} {req : Request} {now : UInt64} {connected : List Pubkey}
    {calls : List Call} (h : 7 ≤ calls.length) :
    req.run host calls (req.handle host now connected) = .panicked ∨
      ∃ answer, (req.run host calls (req.handle host now connected)).answer = some answer := by
  refine HandshakePc.answer_of_calls (Request.calls_run ?_)
  rw [Request.handle_eq]
  exact (Request.calls_open now connected).trans h

/-! ## The handshakes of the server -/

/-- A handshake of the ledger has gone through such a run. -/
def Ledger.Ran (host : Host) (s : Ledger) : Prop :=
  ∀ req pc, (req, pc) ∈ s.handshakes → ∃ now connected calls,
    pc = req.run host calls (req.handle host now connected)

lemma Request.run_append {host : Host} {req : Request} {calls : List Call} {pc pc' : HandshakePc}
    {db db' : Database} {fault : Option Fault}
    (hs : (req.run host calls pc).step host req db fault = some (pc', db')) :
    req.run host (calls ++ [(db, fault)]) pc = pc' := by
  induction calls generalizing pc with
  | nil =>
      rw [Request.run] at hs
      rw [List.nil_append, Request.run, hs]
      rfl
  | cons call calls ih =>
      obtain ⟨db₁, fault₁⟩ := call
      rw [Request.run] at hs
      rw [List.cons_append, Request.run]
      split
      · rename_i pc₁ db₂ hstep
        rw [hstep] at hs
        exact ih hs
      · rename_i hstep
        rw [hstep] at hs
        cases (HandshakePc.step_eq_none hstep).symm.trans hs

/-- The handshakes of every run of the ledger are such runs, each at one of the endpoints. -/
theorem ledger_ran {host : Host} {C : Ledger → LedgerAction → Prop} {s : Ledger}
    (h : Reach (ledger host) C s) : s.Ran host := by
  refine h.invariant ?_ ?_
  · intro s h0 req pc hm
    obtain rfl : s = .start := h0
    cases hm
  · intro s act s' _ hi _ hs
    cases Ledger.step_move hs with
    | request req now connected =>
        intro req' pc hm
        rcases List.mem_append.mp hm with hm | hm
        · exact hi req' pc hm
        · obtain ⟨rfl, rfl⟩ := Prod.mk.inj (List.mem_singleton.mp hm)
          exact ⟨now, connected, [], (Request.handle_eq ..).symm⟩
    | handshake hget hstep =>
        intro req' pc' hm
        rcases List.mem_or_eq_of_mem_set hm with hm | hm
        · exact hi req' pc' hm
        · obtain ⟨rfl, rfl⟩ := Prod.mk.inj hm
          obtain ⟨now, connected, calls, rfl⟩ := hi _ _ (List.mem_of_getElem? hget)
          exact ⟨now, connected, calls ++ [(s.db, _)], (Request.run_append hstep).symm⟩
    | mineSuccess _ _ | payment _ | addPool _ | addChallenge _ _ => exact hi

end OrePool
