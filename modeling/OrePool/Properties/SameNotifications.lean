import OrePool.Core.NestedLoops
import OrePool.Lemmas.Split
import OrePool.Processors.Notifications
import OrePool.Replay

/-!
# Both branches tell the miners the same

`pool_mine_success_processor` notifies the miners in two ways, with a SQLite database and without
one.  `SameNotifications` says that for the same connections both send the same messages, one to
each connection whose key has a contribution and none to any other.
-/

namespace OrePool

open Binary64 NestedLoops Shares Traversal

section

variable {display : Display} {floats : MineSuccessFloats}
  {sockets : HashMap SocketAddr ClientConnection} {msg : MessageInternalMineSuccess}

/-- **The same notifications.**  Neither branch panics; they send the same messages with the same
amounts, in some order; and one goes to each connection whose key has a contribution. -/
def SameNotifications (display : Display) (floats : MineSuccessFloats)
    (sockets : HashMap SocketAddr ClientConnection) (msg : MessageInternalMineSuccess) : Prop :=
  ∃ l l', msg.notifySqlite display floats sockets = some l ∧
    msg.notifyUnavailable display floats sockets = some l' ∧ l.Perm l' ∧
    l'.map Notification.addr =
      (sockets.entries.filter fun socket =>
        (msg.contributions.lookup socket.2.pubkey).isSome).map Sigma.fst

/-! ## One notification -/

/-- The share of a contribution in the reward of a message. -/
def MessageInternalMineSuccess.amount (msg : MessageInternalMineSuccess)
    (contribution : InternalMessageContribution) : ℕ :=
  share 1000000 msg.totalHashpower.toNat (asU128 msg.rewards) contribution.hashpower.toNat

/-- The notification of a contribution to a connection. -/
def MessageInternalMineSuccess.notification (display : Display) (floats : MineSuccessFloats)
    (sockets : HashMap SocketAddr ClientConnection) (msg : MessageInternalMineSuccess)
    (contribution : InternalMessageContribution)
    (socket : Sigma fun _ : SocketAddr => ClientConnection) : Notification :=
  ⟨socket.1, msg.amount contribution,
    msg.outgoing display floats sockets contribution.suppliedDiff
      ((UInt64.ofNat (msg.amount contribution)).toFloat / display.decimals) socket.2.clientVersion⟩

/-- The casts to `i64` and to `u64` agree on an exact amount. -/
lemma Exact.casts {hashpower totalHashpower : UInt64} {rewards : Int64}
    (h : Exact hashpower totalHashpower rewards) {amount : ℕ}
    (hamount : amount =
      share 1000000 totalHashpower.toNat (asU128 rewards) hashpower.toNat) :
    (Int64.ofNat amount).toInt = amount ∧ (UInt64.ofNat amount).toNat = amount ∧
      ofInt64 (Int64.ofNat amount) = (UInt64.ofNat amount).toFloat := by
  have hsigned : (Int64.ofNat amount).toInt = amount := hamount ▸ h.narrowed
  have hrange := (Int64.ofNat amount).toInt_lt
  have hunsigned : (UInt64.ofNat amount).toNat = amount := by
    rw [UInt64.toNat_ofNat']
    omega
  exact ⟨hsigned, hunsigned, ofInt64_eq_toFloat (by rw [hsigned, hunsigned])⟩

/-! ## Both branches -/

/-- The branch with a database is two nested loops. -/
lemma MessageInternalMineSuccess.notifySqlite_eq
    (h : ∀ entry ∈ msg.contributions.entries,
      Exact entry.2.hashpower msg.totalHashpower msg.rewards) :
    msg.notifySqlite display floats sockets =
      some (nestedLoop (fun entry (socket : Sigma fun _ : SocketAddr => ClientConnection) =>
        if socket.2.pubkey = entry.1 then
          some (msg.notification display floats sockets entry.2 socket)
        else
          none) msg.contributions.entries sockets.entries) := by
  rw [MessageInternalMineSuccess.notifySqlite, nestedLoop, List.flatMap]
  refine congrArg (Option.map List.flatten) (mapM_eq_map fun entry hentry => ?_)
  obtain ⟨hsigned, -, hfloat⟩ := (h entry hentry).casts rfl
  rw [(h entry hentry).earnedRewards, Option.map_some]
  simp only [hsigned, hfloat]
  rfl

/-- The other branch looks up the contribution of each connection. -/
lemma MessageInternalMineSuccess.notifyUnavailable_eq
    (h : ∀ entry ∈ msg.contributions.entries,
      Exact entry.2.hashpower msg.totalHashpower msg.rewards) :
    msg.notifyUnavailable display floats sockets =
      some (sockets.entries.filterMap fun socket =>
        (msg.contributions.lookup socket.2.pubkey).map fun contribution =>
          msg.notification display floats sockets contribution socket) := by
  have hconnection : ∀ socket ∈ sockets.entries,
      msg.notifyConnection display floats sockets socket.1 socket.2 =
        some ((msg.contributions.lookup socket.2.pubkey).map fun contribution =>
          msg.notification display floats sockets contribution socket) := by
    intro socket _
    rw [MessageInternalMineSuccess.notifyConnection]
    cases hlookup : msg.contributions.lookup socket.2.pubkey with
    | none => rfl
    | some contribution =>
        have hexact := h ⟨socket.2.pubkey, contribution⟩ (AList.mem_lookup_iff.mp hlookup)
        obtain ⟨-, hunsigned, -⟩ := hexact.casts rfl
        simp only [hexact.earnedRewards, Option.map_some, hunsigned]
        rfl
  rw [MessageInternalMineSuccess.notifyUnavailable, mapM_eq_map hconnection, Option.map_some,
    List.reduceOption, List.filterMap_map]
  rfl

/-- The addresses notified are those of the connections with a contribution. -/
lemma MessageInternalMineSuccess.map_addr_notifications
    (entries : List (Sigma fun _ : SocketAddr => ClientConnection)) :
    (entries.filterMap fun socket =>
        (msg.contributions.lookup socket.2.pubkey).map fun contribution =>
          msg.notification display floats sockets contribution socket).map Notification.addr =
      (entries.filter fun socket => (msg.contributions.lookup socket.2.pubkey).isSome).map
        Sigma.fst := by
  induction entries with
  | nil => rfl
  | cons socket entries ih =>
      cases hlookup : msg.contributions.lookup socket.2.pubkey with
      | none => simp [hlookup, ih]
      | some contribution =>
          have haddr : (msg.notification display floats sockets contribution socket).addr =
              socket.1 := rfl
          simp [hlookup, ih, haddr]

/-- **The same notifications**, for a reward that is not negative and a positive total that is the
sum of the hashpowers. -/
theorem sameNotifications (display : Display) (floats : MineSuccessFloats)
    (sockets : HashMap SocketAddr ClientConnection) {msg : MessageInternalMineSuccess}
    (hrewards : 0 ≤ msg.rewards.toInt) (htotal : 0 < msg.totalHashpower.toNat)
    (hsum : msg.totalHashpower.toNat = (hashpowers msg.contributions).sum) :
    SameNotifications display floats sockets msg := by
  have hexact := msg.exact hsum htotal.ne' hrewards
  exact ⟨_, _, MessageInternalMineSuccess.notifySqlite_eq hexact,
    MessageInternalMineSuccess.notifyUnavailable_eq hexact,
    nestedLoop_lookup msg.contributions (fun socket => socket.2.pubkey)
      (msg.notification display floats sockets) sockets.entries,
    MessageInternalMineSuccess.map_addr_notifications sockets.entries⟩

end

/-! ## Two miners -/

namespace Replay

/-- A reward for two miners. -/
def twoMiners : MessageInternalMineSuccess where
  difficulty := 20
  totalBalance := 5000
  rewards := 1000
  challengeId := 1
  challenge := Vector.replicate 32 1
  bestNonce := 20
  totalHashpower := 15
  oreConfig := some ⟨1000⟩
  contributions :=
    AList.insert (key 1) ⟨1, 8, 10, 5⟩ (AList.insert (key 2) ⟨2, 9, 20, 10⟩ ∅)

/-- The first miner is connected twice, once by the old protocol, the second once, and a third
client has no contribution. -/
def fourSockets : HashMap SocketAddr ClientConnection :=
  AList.insert 1 ⟨key 1, 1, .V1⟩ (AList.insert 2 ⟨key 1, 1, .V0⟩
    (AList.insert 3 ⟨key 2, 2, .V1⟩ (AList.insert 4 ⟨key 3, 3, .V1⟩ ∅)))

/-- An ORE has eleven decimals. -/
def display : Display := ⟨100000000000, fun _ _ => ""⟩

end Replay

/-- Three messages go out, two of them to the first miner and one of these as text. -/
theorem sameNotifications_twoMiners :
    SameNotifications Replay.display ⟨0.00000005, 1⟩ Replay.fourSockets Replay.twoMiners :=
  sameNotifications _ _ _ (by decide) (by decide) (by decide)

end OrePool
