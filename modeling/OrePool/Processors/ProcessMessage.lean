import OrePool.Model.Types

/-!
# `process_message`

The receive loop of a connection hands every websocket message to `process_message`, which
decodes it for `client_message_processor`.  A solution frame is

    2, digest (16 bytes), nonce (8 bytes), pubkey (32 bytes), signature (text)

The key that has to have signed the digest and the nonce is the one in the frame.  The key of the
connection is not looked at.
-/

namespace OrePool

/-- A websocket message, with the payload that is looked at. -/
inductive Message
  | text
  | binary (d : List UInt8)
  | ping
  | pong
  | close
  deriving DecidableEq

/-- Whether the receive loop goes on. -/
inductive ControlFlow
  | continue
  | break
  deriving DecidableEq

/-- `bytes[i] = d[i + b]` for every `i` below `n`, `none` where an index is out of range. -/
def readBytes (d : List UInt8) (b n : ℕ) : Option (Vector UInt8 n) :=
  if h : b + n ≤ d.length then some (Vector.ofFn fun i => d[b + i]) else none

lemma isSome_readBytes {d : List UInt8} {b n : ℕ} :
    (readBytes d b n).isSome ↔ b + n ≤ d.length := by
  rw [readBytes]
  split
  · rename_i h
    exact iff_of_true rfl h
  · rename_i h
    exact iff_of_false nofun h

/-- What stands behind a prefix is read at the length of the prefix. -/
lemma readBytes_append {n : ℕ} (front : List UInt8) (v : Vector UInt8 n) (rest : List UInt8) :
    readBytes (front ++ (v.toList ++ rest)) front.length n = some v := by
  have hlen : front.length + n ≤ (front ++ (v.toList ++ rest)).length := by
    simp
  rw [readBytes, dif_pos hlen, Option.some.injEq]
  ext i hi
  simp

/-- The frame of a solution. -/
def solutionFrame (solution : Solution) (pubkey : Pubkey) (signatureBytes : List UInt8) :
    List UInt8 :=
  2 :: (solution.d.toList ++ (solution.n.toList ++ (pubkey.toList ++ signatureBytes)))

/-- What a solution frame says, if its signature verifies. -/
def verifiedSolution (sigs : Signatures) (who : SocketAddr) (solution : Solution)
    (pubkey : Pubkey) (signatureBytes : List UInt8) : Option ClientMessage :=
  match (String.fromUTF8? ⟨signatureBytes.toArray⟩).bind sigs.fromStr with
  | some sig =>
      if sigs.verify sig pubkey solution.hashNonceMessage then
        some (.bestSolution who solution pubkey)
      else
        none
  | none => none

/-- A binary frame: what is sent to the channel, if anything.  The outer `none` is a panic. -/
def processBinary (sigs : Signatures) (who : SocketAddr) (d : List UInt8) :
    Option (Option ClientMessage) :=
  (d[0]?).bind fun messageType =>
    if messageType = 0 then some (some (.ready who))
    else if messageType = 1 then some (some (.mining who))
    else if messageType = 2 then
      (readBytes d 1 16).bind fun digest =>
        (readBytes d 17 8).bind fun nonce =>
          (readBytes d 25 32).map fun pubkey =>
            verifiedSolution sigs who ⟨digest, nonce⟩ pubkey (d.drop 57)
    else some none

/-- A solution frame is read back. -/
lemma processBinary_solutionFrame (sigs : Signatures) (who : SocketAddr) (solution : Solution)
    (pubkey : Pubkey) (signatureBytes : List UInt8) :
    processBinary sigs who (solutionFrame solution pubkey signatureBytes) =
      some (verifiedSolution sigs who solution pubkey signatureBytes) := by
  obtain ⟨digest, nonce⟩ := solution
  have hdigest : readBytes (solutionFrame ⟨digest, nonce⟩ pubkey signatureBytes) 1 16 =
      some digest :=
    readBytes_append [2] digest _
  have hnonce : readBytes (solutionFrame ⟨digest, nonce⟩ pubkey signatureBytes) 17 8 =
      some nonce := by
    simpa [solutionFrame] using
      readBytes_append (2 :: digest.toList) nonce (pubkey.toList ++ signatureBytes)
  have hpubkey : readBytes (solutionFrame ⟨digest, nonce⟩ pubkey signatureBytes) 25 32 =
      some pubkey := by
    simpa [solutionFrame] using
      readBytes_append (2 :: (digest.toList ++ nonce.toList)) pubkey signatureBytes
  have hrest : (solutionFrame ⟨digest, nonce⟩ pubkey signatureBytes).drop 57 = signatureBytes := by
    simpa [solutionFrame] using
      @List.drop_left _ (2 :: (digest.toList ++ (nonce.toList ++ pubkey.toList))) signatureBytes
  rw [processBinary, hdigest, hnonce, hpubkey, hrest]
  rfl

/-- One call: what is sent to the channel and whether the loop goes on.  The outer `none` is a
panic, an index past the end of the payload. -/
def processMessage (sigs : Signatures) (who : SocketAddr) :
    Message → Option (Option ClientMessage × ControlFlow)
  | .text => some (none, .continue)
  | .binary d => (processBinary sigs who d).map fun msg => (msg, .continue)
  | .close => some (none, .break)
  | .pong => some (some (.pong who), .continue)
  | .ping => some (none, .continue)

/-- What reaches the channel. -/
def received (sigs : Signatures) (who : SocketAddr) (m : Message) : Option ClientMessage :=
  (processMessage sigs who m).bind Prod.fst

/-- A solution is handed over when the tail is the text of a signature that verifies. -/
lemma verifiedSolution_eq_some {sigs : Signatures} {who : SocketAddr} {solution : Solution}
    {pubkey : Pubkey} {signatureBytes : List UInt8} {msg : ClientMessage} :
    verifiedSolution sigs who solution pubkey signatureBytes = some msg ↔
      msg = .bestSolution who solution pubkey ∧
        ∃ text sig, String.fromUTF8? ⟨signatureBytes.toArray⟩ = some text ∧
          sigs.fromStr text = some sig ∧
            sigs.verify sig pubkey solution.hashNonceMessage = true := by
  constructor
  · intro h
    rw [verifiedSolution] at h
    split at h
    · rename_i sig hsig
      obtain ⟨text, htext, hsig⟩ := Option.bind_eq_some_iff.mp hsig
      split at h
      · rename_i hv
        exact ⟨(Option.some.inj h).symm, text, sig, htext, hsig, hv⟩
      · cases h
    · cases h
  · rintro ⟨rfl, text, sig, htext, hsig, hv⟩
    rw [verifiedSolution, htext, Option.bind_some, hsig]
    exact if_pos hv

/-- Only a frame of type 2 with a verified signature hands over a solution. -/
lemma processBinary_bestSolution {sigs : Signatures} {who addr : SocketAddr} {d : List UInt8}
    {solution : Solution} {pubkey : Pubkey}
    (h : processBinary sigs who d = some (some (.bestSolution addr solution pubkey))) :
    addr = who ∧ ∃ sig, sigs.verify sig pubkey solution.hashNonceMessage = true := by
  obtain ⟨messageType, -, h⟩ := Option.bind_eq_some_iff.mp h
  split_ifs at h
  · simp at h
  · simp at h
  · obtain ⟨digest, -, h⟩ := Option.bind_eq_some_iff.mp h
    obtain ⟨nonce, -, h⟩ := Option.bind_eq_some_iff.mp h
    obtain ⟨pk, -, h⟩ := Option.map_eq_some_iff.mp h
    obtain ⟨heq, -, sig, -, -, hv⟩ := verifiedSolution_eq_some.mp h
    simp only [ClientMessage.bestSolution.injEq] at heq
    obtain ⟨rfl, rfl, rfl⟩ := heq
    exact ⟨rfl, sig, hv⟩
  · simp at h

/-- The address a message gives for its sender. -/
def ClientMessage.addr : ClientMessage → SocketAddr
  | .ready addr => addr
  | .mining addr => addr
  | .pong addr => addr
  | .bestSolution addr _ _ => addr

/-- It is that of the connection the message came in by. -/
lemma processMessage_addr {sigs : Signatures} {who : SocketAddr} {m : Message}
    {msg : ClientMessage} {flow : ControlFlow}
    (h : processMessage sigs who m = some (some msg, flow)) : msg.addr = who := by
  cases m with
  | binary d =>
      obtain ⟨out, hb, hout⟩ := Option.map_eq_some_iff.mp h
      obtain rfl : out = some msg := congrArg Prod.fst hout
      cases msg with
      | bestSolution addr solution pubkey => exact (processBinary_bestSolution hb).1
      | ready addr | mining addr | pong addr =>
          obtain ⟨messageType, -, hb⟩ := Option.bind_eq_some_iff.mp hb
          split_ifs at hb
          · simp_all [ClientMessage.addr]
          · simp_all [ClientMessage.addr]
          · obtain ⟨digest, -, hb⟩ := Option.bind_eq_some_iff.mp hb
            obtain ⟨nonce, -, hb⟩ := Option.bind_eq_some_iff.mp hb
            obtain ⟨pk, -, hb⟩ := Option.map_eq_some_iff.mp hb
            obtain ⟨heq, -⟩ := verifiedSolution_eq_some.mp hb
            cases heq
          · simp at hb
  | pong =>
      simp only [processMessage, Option.some.injEq, Prod.mk.injEq] at h
      rw [← h.1]
      rfl
  | text | ping | close => simp [processMessage] at h

/-- A solution that reaches the channel comes from the connection it names, and the key it names
has signed it. -/
lemma received_bestSolution {sigs : Signatures} {who addr : SocketAddr} {m : Message}
    {solution : Solution} {pubkey : Pubkey}
    (h : received sigs who m = some (.bestSolution addr solution pubkey)) :
    addr = who ∧ ∃ sig, sigs.verify sig pubkey solution.hashNonceMessage = true := by
  obtain ⟨⟨out, flow⟩, hp, rfl⟩ := Option.bind_eq_some_iff.mp h
  cases m with
  | binary d =>
      obtain ⟨msg, hb, hmsg⟩ := Option.map_eq_some_iff.mp hp
      simp only [Prod.mk.injEq] at hmsg
      exact processBinary_bestSolution (hb.trans (congrArg some hmsg.1))
  | text | ping | pong | close => simp [processMessage] at hp

end OrePool
