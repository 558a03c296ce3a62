import OrePool.Core.Channel
import OrePool.Lemmas.Accounts
import OrePool.Lemmas.Stages
import OrePool.Replay

/-!
# The server with its database

`poolServer` puts the tasks of the mining side and those around the database next to each other.
Between them is the channel on which attenders send `MessageInternalMineSuccess` to
`pool_mine_success_processor`; otherwise they go their own ways, so that a run is any interleaving
of a run of the one and a run of the other that fits the messages.

The mining side is watched by an observer, and the tables are those a start of the server finds.
-/

namespace OrePool

open Interleaving

variable {η : Type}

/-- The messages sent for payment, oldest first. -/
def Sys.sentMessages (s : Sys) : List MessageInternalMineSuccess :=
  (s.journal.filterMap fun ev => ev.2.mineSuccess).reverse

lemma Sys.mem_sentMessages {s : Sys} {msg : MessageInternalMineSuccess}
    (h : msg ∈ s.sentMessages) : ∃ who, (who, Effect.sendMineSuccess msg) ∈ s.journal := by
  obtain ⟨⟨who, e⟩, hev, hmsg⟩ := List.mem_filterMap.mp (List.mem_reverse.mp h)
  cases e with
  | sendMineSuccess msg' =>
      obtain rfl := Option.some.inj hmsg
      exact ⟨who, hev⟩
  | _ => cases hmsg

/-- The database side over the tables `db`. -/
def ledgerOn (host : Host) (db : Database) : Machine Ledger LedgerAction where
  init s := s = ⟨db, [], .receive⟩
  step := Ledger.step host

/-- The channel `mine_success_sender` and `mine_success_receiver` are the ends of. -/
def mineSuccessChannel (O : Observer Sys Action η) (srv : Server) (host : Host) (db : Database) :
    Channel ((machine srv).observe O) (ledgerOn host db) MessageInternalMineSuccess where
  sent x := x.1.sentMessages
  take := .mineSuccess
  taken := LedgerAction.received
  taken_take _ := rfl
  grows x act y h := by
    obtain ⟨s', hs, rfl⟩ := Option.map_eq_some_iff.mp h
    obtain ⟨ev, hj⟩ := Sys.step_journal hs
    rw [Sys.sentMessages, Sys.sentMessages, hj, List.filterMap_cons]
    split
    · exact List.prefix_rfl
    · rw [List.reverse_cons]
      exact List.prefix_append _ _

/-- Both sides. -/
abbrev PoolServer (η : Type) := Linked (Sys × η) Ledger

def poolServer (O : Observer Sys Action η) (srv : Server) (host : Host) (db : Database) :
    Machine (PoolServer η) (LinkedAction Action LedgerAction) :=
  (mineSuccessChannel O srv host db).machine

/-- The messages received since the start. -/
def receivedMessages (x : PoolServer η) : List MessageInternalMineSuccess :=
  x.sender.1.sentMessages.take x.taken

/-- A landed round as far as its payment. -/
def Replay.payingRound : List Action :=
  landedRound ++ [.notify 1 (proofAt 2 60), .attender 0 .go, .attender 0 (.db true),
    .attender 0 (.db true)] ++ List.replicate 3 (.attender 0 .go)

end OrePool
