import OrePool.Model.Database
import OrePool.System

/-!
# Starting and stopping

What `main` does about the challenge it starts with, and the table of challenges across the
processes that work on it one after the other.  A process that stops, for whatever reason, leaves
the table as it is; the next one looks its first challenge up and inserts it if it is not found.
-/

namespace OrePool

open Interleaving

/-- The lookup of a challenge is answered with a row. -/
def challengeFound (challenges : List Challenge) (challenge : Challenge) (get : Option Fault) :
    Bool :=
  get.isNone && challenges.any fun row => decide (row = challenge)

/-- The lookup of the first challenge and, where that reports anything but a missing connection, its
insertion.  `none` is a panic. -/
def startChallenges (challenges : List Challenge) (challenge : Challenge)
    (get add : Option Fault) : Option (List Challenge) :=
  if get = some .connection then none
  else if challengeFound challenges challenge get then some challenges
  else if add.isNone then some (challenges ++ [challenge])
  else none

/-- The state `main` sets up around the proof it loads and the table it leaves. -/
def Sys.startWith (srv : Server) (p : Proof) (challenges : List Challenge) : Sys :=
  { Sys.start srv p with
    shared := { (Sys.start srv p).shared with challenges := challenges } }

/-- The server between two processes and while one runs. -/
inductive Process
  | down (challenges : List Challenge)
  | up (s : Sys)

/-- The table of challenges. -/
def Process.challenges : Process → List Challenge
  | .down challenges => challenges
  | .up s => s.shared.challenges

inductive ProcessAction
  /-- `main` runs, with the proof it loads and what goes wrong around its two calls. -/
  | start (p : Proof) (get add : Option Fault)
  | act (a : Action)
  | stop
  deriving DecidableEq

def Process.step (srv : Server) : Process → ProcessAction → Option Process
  | .down challenges, .start p get add =>
      if srv.poweredByDbms = .sqlite then
        match startChallenges challenges p.challenge get add with
        | some challenges' => some (.up (Sys.startWith srv p challenges'))
        | none => some (.down challenges)
      else
        some (.up (Sys.startWith srv p challenges))
  | .up s, .act a => (s.step srv a).map .up
  | .up s, .stop => some (.down s.shared.challenges)
  | _, _ => none

/-- The processes of a server, the first on an empty table. -/
def processes (srv : Server) : Machine Process ProcessAction where
  init p := p = .down []
  step := Process.step srv

/-- The runs of the server are those of its first process. -/
theorem processes_up {srv : Server} {C : Sys → Action → Prop} {s : Sys}
    (h : Reach (machine srv) C s) : Reach (processes srv) Any (.up s) := by
  induction h with
  | init h0 =>
      obtain ⟨p, rfl⟩ := h0
      have hinit : (processes srv).init (.down []) := rfl
      refine .step (a := .start p none none) (.init hinit) trivial ?_
      show Process.step srv (.down []) (.start p none none) = _
      by_cases hdb : srv.poweredByDbms = .sqlite
      · simp [Process.step, startChallenges, challengeFound, Sys.startWith, Sys.start, hdb]
      · simp [Process.step, Sys.startWith, Sys.start, hdb]
  | @step s s' act _ _ hs ih =>
      refine .step (a := .act act) ih trivial ?_
      exact congrArg (Option.map Process.up) hs

/-! ## Challenges inserted -/

/-- The challenge an effect inserts. -/
def Effect.added : Effect → Option Challenge
  | .addChallenge challenge => some challenge
  | _ => Option.none

/-- The challenge an action inserts. -/
def Sys.adding (srv : Server) (s : Sys) : Action → Option Challenge
  | .attender i reply =>
      (s.attenders[i]?).bind fun a => (a.step srv s.shared reply).bind fun x => x.2.added
  | _ => none

/-- The challenge `main` inserts for lack of an answer or of a row. -/
def Process.adding (srv : Server) : Process → ProcessAction → Option Challenge
  | .down challenges, .start p get add =>
      if srv.poweredByDbms = .sqlite ∧ get ≠ some .connection ∧
          challengeFound challenges p.challenge get = false ∧ add = none then
        some p.challenge
      else
        none
  | .up s, .act a => s.adding srv a
  | _, _ => none

end OrePool
