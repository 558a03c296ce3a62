import OrePool.Lemmas.Rounds

/-!
# The steps an attender has left

An attender holds its round open until it signals.  `Attender.fuel` counts the sections it has left
until then: every section takes one off, but a failing call to the database can put it back by one
(`Attender.step_fuel`).  As long as it is active it can take its next section, whatever the others
do (`Attender.isSome_step`).
-/

namespace OrePool

/-! ## What is counted -/

/-- The action is a failing call of an attender's. -/
def Action.fails : Action → ℕ
  | .attender _ (.db false) => 1
  | _ => 0

/-- The steps an attender has left until it lets go of its round.  A challenge that has a row yet
is found at the first try. -/
def Attender.fuel (challenges : List Challenge) (a : Attender) : ℕ :=
  match a.pc with
  | .check => 13 + 2 * (CHECK_LIMIT - a.numChecking)
  | .getProof => 14 + 2 * (CHECK_LIMIT - a.numChecking)
  | .rpcWriteProof _ => 6
  | .rpcReadProof _ => 5
  | .rpcResetNonce _ _ => 4
  | .rpcResetEpoch _ _ => 3
  | .rpcUnpause _ => 2
  | .rpcSignal _ => 1
  | .getOldChallenge _ => if challenges.contains a.oldProof.challenge then 10 else 12
  | .addOldChallenge _ => 11
  | .findOldChallenge _ => 12
  | .addNewChallenge _ _ => 9
  | .findNewChallenge _ _ => 10
  | .readLatest _ => 8
  | .snapshot _ _ => 7
  | .sendMineSuccess _ _ _ => 6
  | .writeProof _ => 5
  | .resetNonce _ => 4
  | .resetEpoch _ => 3
  | .unpause => 2
  | .signal => 1
  | .rpcAddChallenge _ | .rpcFindChallenge _ | .ended _ => 0

/-! ## The table of challenges -/

/-- A challenge is found in the table when it has a row. -/
lemma Shared.getChallenge_isSome {sh : Shared} {challenge : Challenge} :
    (sh.getChallenge challenge).isSome ↔ sh.challenges.contains challenge := by
  rw [List.contains_iff_mem, Shared.getChallenge, Option.isSome_map, List.findIdx?_isSome,
    List.any_eq_true]
  constructor
  · rintro ⟨x, hx, heq⟩
    exact of_decide_eq_true heq ▸ hx
  · intro h
    exact ⟨challenge, h, decide_eq_true rfl⟩

/-- A row is found after two steps less. -/
lemma Attender.fuel_getOldChallenge {challenges : List Challenge} {a : Attender} {p : Proof}
    (hpc : a.pc = .getOldChallenge p) :
    a.fuel challenges = if challenges.contains a.oldProof.challenge then 10 else 12 := by
  rw [Attender.fuel, hpc]

/-- A section of an attender takes a step off, unless a call fails. -/
lemma Attender.step_fuel {srv : Server} {sh : Shared} {reply : Reply} {a a' : Attender}
    {e : Effect} (i : ℕ) (hs : a.step srv sh reply = some (a', e)) :
    a'.fuel (sh.apply e).challenges + (if a.active then 1 else 0) ≤
      a.fuel sh.challenges + 2 * (Action.attender i reply).fails := by
  revert hs
  fun_cases Attender.step srv sh reply a <;> intro h <;>
    simp only [Option.some.injEq, Prod.mk.injEq, reduceCtorEq] at h <;> obtain ⟨rfl, rfl⟩ := h
  case case2 hpc _ a₁ hlim =>
    have hn : a.numChecking + 1 < CHECK_LIMIT := by simpa [a₁] using hlim
    simp only [Attender.fuel, Attender.goto, hpc, a₁]
    split <;> omega
  case case3 hpc _ _ =>
    have hnew : (a.goto (.getOldChallenge sh.appProof)).fuel (sh.apply .none).challenges ≤ 12 := by
      rw [Attender.fuel_getOldChallenge rfl]
      split <;> omega
    have hold : a.fuel sh.challenges = 13 + 2 * (CHECK_LIMIT - a.numChecking) := by
      rw [Attender.fuel, hpc]
    rw [hold]
    split <;> omega
  case case22 latestProof hpc ok id hrow =>
    have hmem : sh.challenges.contains a.oldProof.challenge := by
      rw [← Shared.getChallenge_isSome]
      split at hrow
      · rw [hrow]
        rfl
      · cases hrow
    rw [Attender.fuel_getOldChallenge hpc, if_pos hmem]
    simp only [Attender.fuel, Attender.goto]
    split <;> omega
  case case23 latestProof hpc ok hrow =>
    rw [Attender.fuel_getOldChallenge hpc]
    simp only [Attender.fuel, Attender.goto]
    cases ok with
    | false =>
        have hfails : (Action.attender i (.db false)).fails = 1 := rfl
        rw [hfails]
        split <;> split <;> omega
    | true =>
        -- nothing has failed, so there was no row
        have hnot : ¬ sh.challenges.contains a.oldProof.challenge := by
          rw [← Shared.getChallenge_isSome]
          simpa using hrow
        rw [if_neg hnot]
        split <;> omega
  all_goals simp_all [Attender.fuel, Attender.active, AttenderPc.oneshot, Attender.goto,
    Action.fails, Shared.apply, Attender.oldProof, Shared.getChallenge_isSome]
  all_goals omega

/-- An answer of the kind an attender asks for. -/
def AttenderPc.answer : AttenderPc → Reply
  | .getProof => .proof none
  | .getOldChallenge _ | .addOldChallenge _ | .findOldChallenge _ | .addNewChallenge _ _
  | .findNewChallenge _ _ | .rpcAddChallenge _ | .rpcFindChallenge _ => .db true
  | _ => .go

lemma Attender.isSome_step {srv : Server} {sh : Shared} {a : Attender} (h : a.active) :
    (a.step srv sh a.pc.answer).isSome = true := by
  cases hpc : a.pc with
  | ended how => cases how <;> simp [Attender.active, hpc, AttenderPc.oneshot] at h
  | check =>
      simp only [Attender.step, hpc]
      split_ifs <;> rfl
  | rpcSignal _ | getOldChallenge _ | findOldChallenge _ | findNewChallenge _ _
  | rpcFindChallenge _ =>
      simp only [Attender.step, hpc, AttenderPc.answer]
      split <;> rfl
  | _ => simp only [Attender.step, hpc, AttenderPc.answer, Option.isSome_some]

end OrePool
