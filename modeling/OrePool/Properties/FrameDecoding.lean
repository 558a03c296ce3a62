import OrePool.Processors.HandleSocket
import OrePool.Replay

/-!
# The frame decoder

A client sends three kinds of binary frames: two that are told by their first byte, and solutions.
`SafelyDecoded` says that `process_message` returns, and that a payload that is no frame is passed
over with the connection left open.  `solutionDecoding` says that solutions are read exactly.

The payload is indexed without a look at its length, so the decoder panics on an empty payload and
on a solution frame that is cut short, and on nothing else (`frameDecoding`).
-/

namespace OrePool

/-! ## The properties -/

/-- The frames of a client. -/
inductive Frame (sigs : Signatures) : List UInt8 → Prop
  | ready (rest : List UInt8) : Frame sigs (0 :: rest)
  | mining (rest : List UInt8) : Frame sigs (1 :: rest)
  | solution (solution : Solution) (pubkey : Pubkey) (signatureBytes : List UInt8) (text : String)
      (sig : Signature) (htext : String.fromUTF8? ⟨signatureBytes.toArray⟩ = some text)
      (hsig : sigs.fromStr text = some sig) :
      Frame sigs (solutionFrame solution pubkey signatureBytes)

/-- **Safe decoding.**  The call returns, and for a payload that is no frame it sends nothing and
the receive loop goes on. -/
def SafelyDecoded (sigs : Signatures) (who : SocketAddr) (m : Message) : Prop :=
  (processMessage sigs who m).isSome ∧
    ∀ d, m = .binary d → ¬ Frame sigs d →
      processMessage sigs who m = some (none, .continue) ∧
        ∀ (sockets : Sockets) (t : SocketTask), t.who = who → t.pc = .receive →
          t.step sigs sockets (.next (some m)) = some (t, .none)

/-- **Exact decoding.**  A solution is handed over exactly for the frames that hold it, with a
signature that verifies. -/
def ExactlyDecoded (sigs : Signatures) (who : SocketAddr) (d : List UInt8) : Prop :=
  ∀ addr solution pubkey,
    processMessage sigs who (.binary d) =
        some (some (.bestSolution addr solution pubkey), .continue) ↔
      addr = who ∧ ∃ signatureBytes text sig,
        d = 2 :: (solution.d.toList ++ (solution.n.toList ++ (pubkey.toList ++ signatureBytes))) ∧
        String.fromUTF8? ⟨signatureBytes.toArray⟩ = some text ∧ sigs.fromStr text = some sig ∧
        sigs.verify sig pubkey (solution.d.toList ++ solution.n.toList) = true

/-! ## The condition -/

/-- An empty payload, or a solution frame that ends before its signature starts. -/
def Truncated (m : Message) : Prop :=
  ∃ d, m = .binary d ∧ (d = [] ∨ d[0]? = some 2 ∧ d.length < 57)

/-! ## Solution frames -/

/-- Enough bytes begin with a vector. -/
lemma exists_vector_append {n : ℕ} {l : List UInt8} (h : n ≤ l.length) :
    ∃ (v : Vector UInt8 n) (rest : List UInt8), l = v.toList ++ rest := by
  have hlen : (l.take n).length = n := List.length_take_of_le h
  exact ⟨⟨(l.take n).toArray, by simpa using hlen⟩, l.drop n, (List.take_append_drop n l).symm⟩

/-- A payload of type 2 that is long enough is a solution frame. -/
lemma exists_solutionFrame {d : List UInt8} (htype : d[0]? = some 2) (hlen : 57 ≤ d.length) :
    ∃ solution pubkey signatureBytes, d = solutionFrame solution pubkey signatureBytes := by
  obtain ⟨rest, rfl⟩ : ∃ rest, d = 2 :: rest := by
    cases d with
    | nil => cases htype
    | cons b rest => exact ⟨rest, by rw [Option.some.inj htype]⟩
  rw [List.length_cons] at hlen
  obtain ⟨digest, rest, rfl⟩ :
      ∃ (v : Vector UInt8 16) (rest' : List UInt8), rest = v.toList ++ rest' :=
    exists_vector_append (by omega)
  rw [List.length_append, Vector.length_toList] at hlen
  obtain ⟨nonce, rest, rfl⟩ :
      ∃ (v : Vector UInt8 8) (rest' : List UInt8), rest = v.toList ++ rest' :=
    exists_vector_append (by omega)
  rw [List.length_append, Vector.length_toList] at hlen
  obtain ⟨pubkey, signatureBytes, rfl⟩ :
      ∃ (v : Vector UInt8 32) (rest' : List UInt8), rest = v.toList ++ rest' :=
    exists_vector_append (by omega)
  exact ⟨⟨digest, nonce⟩, pubkey, signatureBytes, rfl⟩

/-- What a payload can be. -/
lemma payload_cases (d : List UInt8) :
    (d = [] ∨ d[0]? = some 2 ∧ d.length < 57) ∨ (∃ rest, d = 0 :: rest) ∨ (∃ rest, d = 1 :: rest) ∨
      (∃ solution pubkey signatureBytes, d = solutionFrame solution pubkey signatureBytes) ∨
      ∃ b rest, d = b :: rest ∧ b ≠ 0 ∧ b ≠ 1 ∧ b ≠ 2 := by
  cases d with
  | nil => exact .inl (.inl rfl)
  | cons b rest =>
      by_cases hready : b = 0
      · exact .inr (.inl ⟨rest, by rw [hready]⟩)
      by_cases hmining : b = 1
      · exact .inr (.inr (.inl ⟨rest, by rw [hmining]⟩))
      by_cases hsolution : b = 2
      · subst hsolution
        rcases Nat.lt_or_ge (2 :: rest).length 57 with hlt | hge
        · exact .inl (.inr ⟨rfl, hlt⟩)
        · exact .inr (.inr (.inr (.inl (exists_solutionFrame rfl hge))))
      · exact .inr (.inr (.inr (.inr ⟨b, rest, rfl, hready, hmining, hsolution⟩)))

section Binary

variable {sigs : Signatures} {who : SocketAddr} {d : List UInt8}

/-- An empty payload is a panic, and so is one of type 2 that is cut short. -/
lemma processBinary_of_truncated (h : d = [] ∨ d[0]? = some 2 ∧ d.length < 57) :
    processBinary sigs who d = none := by
  rcases h with rfl | ⟨htype, hlen⟩
  · rfl
  · have hpubkey : readBytes d 25 32 = none := by
      rw [← Option.not_isSome_iff_eq_none, isSome_readBytes]
      omega
    rw [processBinary, htype, hpubkey]
    cases readBytes d 1 16 <;> cases readBytes d 17 8 <;> rfl

/-- A payload that is neither too short nor a frame sends nothing. -/
lemma processBinary_of_malformed (hlong : ¬ (d = [] ∨ d[0]? = some 2 ∧ d.length < 57))
    (h : ¬ Frame sigs d) : processBinary sigs who d = some none := by
  obtain hshort | ⟨rest, rfl⟩ | ⟨rest, rfl⟩ | ⟨solution, pubkey, signatureBytes, rfl⟩ |
    ⟨b, rest, rfl, hready, hmining, hsolution⟩ := payload_cases d
  · exact absurd hshort hlong
  · exact absurd (.ready rest) h
  · exact absurd (.mining rest) h
  · rw [processBinary_solutionFrame, verifiedSolution]
    split
    · rename_i sig hsig
      obtain ⟨text, htext, hsig⟩ := Option.bind_eq_some_iff.mp hsig
      exact absurd (.solution solution pubkey signatureBytes text sig htext hsig) h
    · rfl
  · simp [processBinary, hready, hmining, hsolution]

/-- A payload that is not too short is decoded. -/
lemma isSome_processBinary (hlong : ¬ (d = [] ∨ d[0]? = some 2 ∧ d.length < 57)) :
    (processBinary sigs who d).isSome := by
  obtain hshort | ⟨rest, rfl⟩ | ⟨rest, rfl⟩ | ⟨solution, pubkey, signatureBytes, rfl⟩ |
    ⟨b, rest, rfl, hready, hmining, hsolution⟩ := payload_cases d
  · exact absurd hshort hlong
  · rfl
  · rfl
  · rw [processBinary_solutionFrame]
    rfl
  · simp [processBinary, hready, hmining, hsolution]

/-- A solution is read out of its frame, with a signature that verifies. -/
lemma processBinary_eq_bestSolution {addr : SocketAddr} {solution : Solution} {pubkey : Pubkey} :
    processBinary sigs who d = some (some (.bestSolution addr solution pubkey)) ↔
      addr = who ∧ ∃ signatureBytes text sig, d = solutionFrame solution pubkey signatureBytes ∧
        String.fromUTF8? ⟨signatureBytes.toArray⟩ = some text ∧ sigs.fromStr text = some sig ∧
        sigs.verify sig pubkey solution.hashNonceMessage = true := by
  constructor
  · intro h
    obtain hshort | ⟨rest, rfl⟩ | ⟨rest, rfl⟩ | ⟨solution', pubkey', signatureBytes, rfl⟩ |
      ⟨b, rest, rfl, hready, hmining, hsolution⟩ := payload_cases d
    · rw [processBinary_of_truncated hshort] at h
      cases h
    · simp [processBinary] at h
    · simp [processBinary] at h
    · rw [processBinary_solutionFrame, Option.some.injEq, verifiedSolution_eq_some] at h
      obtain ⟨hmsg, text, sig, hverified⟩ := h
      cases hmsg
      exact ⟨rfl, signatureBytes, text, sig, rfl, hverified⟩
    · simp [processBinary, hready, hmining, hsolution] at h
  · rintro ⟨rfl, signatureBytes, text, sig, rfl, hverified⟩
    rw [processBinary_solutionFrame, Option.some.injEq, verifiedSolution_eq_some]
    exact ⟨rfl, text, sig, hverified⟩

end Binary

/-! ## The decoder -/

/-- **Safe decoding.**  The call returns and passes over what is no frame exactly when the payload
is not cut short. -/
theorem frameDecoding (sigs : Signatures) (who : SocketAddr) (m : Message) :
    SafelyDecoded sigs who m ↔ ¬ Truncated m := by
  constructor
  · rintro ⟨hsome, -⟩ ⟨d, rfl, hd⟩
    rw [processMessage, processBinary_of_truncated hd] at hsome
    cases hsome
  · intro hlong
    cases m with
    | binary d =>
        have hlong : ¬ (d = [] ∨ d[0]? = some 2 ∧ d.length < 57) := fun hd => hlong ⟨d, rfl, hd⟩
        refine ⟨?_, ?_⟩
        · rw [processMessage, Option.isSome_map]
          exact isSome_processBinary hlong
        · rintro _ ⟨⟩ hframe
          have hcall : processMessage sigs who (.binary d) = some (none, .continue) := by
            rw [processMessage, processBinary_of_malformed hlong hframe, Option.map_some]
          refine ⟨hcall, ?_⟩
          rintro sockets t rfl hpc
          simp [SocketTask.step, hpc, hcall]
    | text | ping | pong | close =>
        refine ⟨rfl, ?_⟩
        rintro _ ⟨⟩

/-- An empty payload. -/
theorem not_frameDecoding : ¬ ∀ sigs who m, SafelyDecoded sigs who m := by
  intro h
  have hsome := (h Replay.signatures 1 (.binary [])).1
  cases hsome

/-- **Exact decoding.**  Every payload is read as the solution it holds. -/
theorem solutionDecoding (sigs : Signatures) (who : SocketAddr) (d : List UInt8) :
    ExactlyDecoded sigs who d := by
  intro addr solution pubkey
  have hcall : processMessage sigs who (.binary d) =
      some (some (.bestSolution addr solution pubkey), .continue) ↔
        processBinary sigs who d = some (some (.bestSolution addr solution pubkey)) := by
    simp [processMessage]
  exact hcall.trans processBinary_eq_bestSolution

end OrePool
