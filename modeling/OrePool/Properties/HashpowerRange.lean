import OrePool.Lemmas.Split
import OrePool.Lemmas.Stages
import OrePool.Replay

/-!
# Hashpower is well defined

The hashpower of a submission is a power of two of how far its difficulty is above `MIN_DIFF`, times
`MIN_HASHPOWER`, in unchecked arithmetic and capped afterwards.  `WellDefined` says that this
neither underflows nor overflows and gives a sensible value, `TotalsDefined` that the total over
the contributions can be divided by.

Submissions are accepted from `expected_min_difficulty` on, a setting that has nothing to do with
`MIN_DIFF`.  Below `MIN_DIFF` the exponent wraps and the hashpower is `0`
(`not_hashpowerRange`); the computation is well defined from `5` to `66`, and as long as only such
submissions are inserted, and they add up in a `u64`, the total is (`hashpowerRange`).
-/

namespace OrePool

open Interleaving

/-! ## The property -/

/-- The computation of a hashpower for a difficulty of at least `min` goes through. -/
structure WellDefined (min diff : UInt32) : Prop where
  underflow : MIN_DIFF ≤ diff
  overflow : MIN_HASHPOWER.toNat * 2 ^ (diff - MIN_DIFF).toNat < 2 ^ 64
  range : 1 ≤ hashpower diff ∧ hashpower diff ≤ 655360
  mono : ∀ diff', min ≤ diff' → diff' ≤ diff → hashpower diff' ≤ hashpower diff

/-- The total of the contributions is positive, and the messages sent for payment divide by
theirs. -/
structure TotalsDefined (s : Sys) : Prop where
  positive : s.shared.epochHashes.contributions.entries ≠ [] →
    0 < totalHashpower s.shared.epochHashes.contributions
  divided : ∀ who msg, (who, Effect.sendMineSuccess msg) ∈ s.journal →
    ∀ poolId, (msg.rows poolId).isSome

/-- The hashpower of a difficulty over the naturals. -/
def exactHashpower (diff : ℕ) : ℕ := min (5 * 2 ^ (diff - 5)) 655360

/-- What is inserted is of a difficulty from `5` to `66`, and its hashpower can be added to those in
the map. -/
def InsertsInRange (s : Sys) (act : Action) : Prop :=
  ∀ sub ∈ s.inserting act, (5 ≤ sub.diff ∧ sub.diff ≤ 66) ∧
    (hashpowers s.shared.epochHashes.contributions).sum + exactHashpower sub.diff.toNat < 2 ^ 64

instance : DecidableRel InsertsInRange := fun s act =>
  inferInstanceAs (Decidable (∀ sub ∈ s.inserting act, (5 ≤ sub.diff ∧ sub.diff ≤ 66) ∧
    (hashpowers s.shared.epochHashes.contributions).sum + exactHashpower sub.diff.toNat < 2 ^ 64))

/-! ## The computation -/

lemma sub_toNat {diff : UInt32} (h : 5 ≤ diff) : (diff - MIN_DIFF).toNat = diff.toNat - 5 :=
  UInt32.toNat_sub_of_le _ _ h

lemma toNat_two_pow (n : ℕ) : ((2 : UInt64) ^ n).toNat = 2 ^ n % 2 ^ 64 := by
  induction n with
  | zero => rfl
  | succ n ih =>
      rw [UInt64.pow_succ, UInt64.toNat_mul, ih, pow_succ, Nat.mod_mul_mod]
      rfl

/-- Up to an exponent of `61` the product fits. -/
lemma product_toNat {n : ℕ} (hn : n ≤ 61) : (MIN_HASHPOWER * 2 ^ n).toNat = 5 * 2 ^ n := by
  have hpow : 2 ^ n ≤ 2 ^ 61 := Nat.pow_le_pow_right (by decide) hn
  have hfive : MIN_HASHPOWER.toNat = 5 := rfl
  rw [UInt64.toNat_mul, toNat_two_pow, hfive]
  omega

/-- From `5` to `66` the hashpower is what it is over the naturals. -/
lemma hashpower_toNat {diff : UInt32} (h5 : 5 ≤ diff) (h66 : diff ≤ 66) :
    (hashpower diff).toNat = exactHashpower diff.toNat := by
  have hle : diff.toNat ≤ 66 := UInt32.le_iff_toNat_le.mp h66
  have hproduct : (MIN_HASHPOWER * 2 ^ (diff - MIN_DIFF).toNat).toNat =
      5 * 2 ^ (diff.toNat - 5) := by
    rw [sub_toNat h5]
    exact product_toNat (by omega)
  have hcap : (655360 : UInt64).toNat = 655360 := rfl
  rw [hashpower, exactHashpower]
  split
  · rename_i h
    rw [UInt64.lt_iff_toNat_lt, hproduct, hcap] at h
    rw [hcap, min_eq_right h.le]
  · rename_i h
    rw [UInt64.not_lt, UInt64.le_iff_toNat_le, hproduct, hcap] at h
    rw [hproduct, min_eq_left h]

/-- Below `5` the exponent wraps and nothing is left of the power. -/
lemma hashpower_of_lt {diff : UInt32} (h : diff < 5) : hashpower diff = 0 := by
  have hlt : diff.toNat < 5 := UInt32.lt_iff_toNat_lt.mp h
  have hfive : MIN_DIFF.toNat = 5 := rfl
  have hwrap : 64 ≤ (diff - MIN_DIFF).toNat := by
    rw [UInt32.toNat_sub, hfive]
    omega
  have hpow : (2 : UInt64) ^ (diff - MIN_DIFF).toNat = 0 := by
    rw [← UInt64.toNat_inj, toNat_two_pow]
    exact Nat.mod_eq_zero_of_dvd (Nat.pow_dvd_pow 2 hwrap)
  rw [hashpower, hpow]
  rfl

lemma exactHashpower_mono {m n : ℕ} (h : m ≤ n) : exactHashpower m ≤ exactHashpower n := by
  have hpow : 2 ^ (m - 5) ≤ 2 ^ (n - 5) :=
    Nat.pow_le_pow_right (by decide) (Nat.sub_le_sub_right h 5)
  exact min_le_min_right _ (Nat.mul_le_mul_left 5 hpow)

lemma one_le_exactHashpower (n : ℕ) : 1 ≤ exactHashpower n := by
  have hpow : 1 ≤ 2 ^ (n - 5) := Nat.one_le_two_pow
  exact le_min (by omega) (by decide)

/-- The computation goes through exactly from `5` to `66`, whatever the setting. -/
theorem wellDefined_iff {min diff : UInt32} : WellDefined min diff ↔ 5 ≤ diff ∧ diff ≤ 66 := by
  refine ⟨?_, ?_⟩
  · intro h
    refine ⟨h.underflow, ?_⟩
    have hoverflow := h.overflow
    rw [sub_toNat h.underflow] at hoverflow
    rw [UInt32.le_iff_toNat_le]
    by_contra hgt
    rw [Nat.not_le] at hgt
    have hpow : 2 ^ 62 ≤ 2 ^ (diff.toNat - 5) :=
      Nat.pow_le_pow_right (by decide) (Nat.le_sub_of_add_le hgt)
    have hfive : MIN_HASHPOWER.toNat = 5 := rfl
    rw [hfive] at hoverflow
    omega
  · rintro ⟨h5, h66⟩
    have hle : diff.toNat ≤ 66 := UInt32.le_iff_toNat_le.mp h66
    refine ⟨h5, ?_, ⟨?_, ?_⟩, ?_⟩
    · have hpow : 2 ^ (diff.toNat - 5) ≤ 2 ^ 61 := Nat.pow_le_pow_right (by decide) (by omega)
      have hfive : MIN_HASHPOWER.toNat = 5 := rfl
      rw [sub_toNat h5, hfive]
      omega
    · rw [UInt64.le_iff_toNat_le, hashpower_toNat h5 h66]
      exact one_le_exactHashpower _
    · rw [UInt64.le_iff_toNat_le, hashpower_toNat h5 h66]
      exact min_le_right _ _
    · intro diff' _ hdiff
      by_cases h5' : 5 ≤ diff'
      · rw [UInt64.le_iff_toNat_le, hashpower_toNat h5' (UInt32.le_trans hdiff h66),
          hashpower_toNat h5 h66]
        exact exactHashpower_mono (UInt32.le_iff_toNat_le.mp hdiff)
      · rw [hashpower_of_lt (UInt32.not_le.mp h5'), UInt64.le_iff_toNat_le]
        exact Nat.zero_le _

/-! ## Contributions -/

/-- Contributions that can be divided by: each has some hashpower, and they add up. -/
structure Weighed (contributions : Contributions) : Prop where
  positive : ∀ entry ∈ contributions.entries, 1 ≤ entry.2.hashpower
  fits : (hashpowers contributions).sum < 2 ^ 64

lemma Weighed.empty : Weighed ∅ := ⟨nofun, by decide⟩

lemma Weighed.insert {contributions : Contributions} (hi : Weighed contributions)
    {sub : Submission} (hrange : 5 ≤ sub.diff ∧ sub.diff ≤ 66)
    (hfits : (hashpowers contributions).sum + exactHashpower sub.diff.toNat < 2 ^ 64) :
    Weighed (contributions.insert sub.pubkey sub.contribution) := by
  have hnew : sub.contribution.hashpower.toNat = exactHashpower sub.diff.toNat :=
    hashpower_toNat hrange.1 hrange.2
  have hsub : (List.kerase sub.pubkey contributions.entries).Sublist contributions.entries :=
    List.kerase_sublist ..
  refine ⟨?_, ?_⟩
  · intro entry hentry
    rcases List.mem_cons.mp hentry with rfl | hentry
    · have hdefined : WellDefined 0 sub.diff := wellDefined_iff.mpr hrange
      exact hdefined.range.1
    · exact hi.positive entry (hsub.subset hentry)
  · have hle := (hsub.map fun entry => entry.2.hashpower.toNat).sum_le_sum
      fun _ _ => Nat.zero_le _
    rw [hashpowers, AList.entries_insert, List.map_cons, List.sum_cons, hnew]
    rw [hashpowers] at hfits
    omega

lemma Weighed.total_pos {contributions : Contributions} (hi : Weighed contributions)
    (hne : contributions.entries ≠ []) : 0 < (totalHashpower contributions).toNat := by
  rw [totalHashpower_eq_sum hi.fits]
  exact sum_hashpowers_pos hne hi.positive

theorem Weighed.step {srv : Server} {s s' : Sys} {act : Action}
    (hi : Weighed s.shared.epochHashes.contributions) (hc : InsertsInRange s act)
    (hs : s.step srv act = some s') : Weighed s'.shared.epochHashes.contributions := by
  cases Sys.step_epochMove hs with
  | keep who e _ _ _ he _ _ => exact he ▸ hi
  | insert who sub hins _ he _ =>
      obtain ⟨hrange, hfits⟩ := hc sub hins
      rw [he]
      exact hi.insert hrange hfits
  | reset who opened stored _ _ he _ _ =>
      rw [he]
      exact .empty

theorem weighed {srv : Server} {s : Sys} (h : Reach (machine srv) InsertsInRange s) :
    Weighed s.shared.epochHashes.contributions := by
  refine h.invariant (I := fun s => Weighed s.shared.epochHashes.contributions) ?_ ?_
  · rintro _ ⟨p, rfl⟩
    exact .empty
  · intro s act s' _ hi hc hs
    exact hi.step hc hs

/-! ## Messages -/

/-- What is paid for can be divided by. -/
theorem payments_weighed {srv : Server} {s : Sys} (h : Reach (machine srv) InsertsInRange s) :
    Payments (fun _ _ contributions => Weighed contributions) s := by
  refine h.invariant ?_ fun s act s' hr hp _ hs => hp.step ?_ ?_ hs
  · rintro _ ⟨p, rfl⟩
    exact .start srv p
  · intro _ _ _ _ hweighed
    exact hweighed
  · intro _ _ _ _ _
    exact weighed hr

/-- Every message carries the total of its contributions. -/
def TotalsCarried (s : Sys) : Prop :=
  ∀ who msg, (who, Effect.sendMineSuccess msg) ∈ s.journal →
    msg.totalHashpower = totalHashpower msg.contributions

theorem totalsCarried {srv : Server} {C : Sys → Action → Prop} {s : Sys}
    (h : Reach (machine srv) C s) : TotalsCarried s := by
  refine h.invariant (I := TotalsCarried) ?_ ?_
  · rintro _ ⟨p, rfl⟩ who msg hm
    cases hm
  · intro s act s' _ hi _ hs who msg hm
    rcases Sys.step_sent hs hm with hm | ⟨i, reply, a, a', -, hsa⟩
    · exact hi who msg hm
    · exact Attender.step_total hsa

/-! ## Hashpower -/

/-- **Hashpower.**  The computation goes through exactly for difficulties from `5` to `66`; and in
every run in which what is inserted is of such a difficulty and its hashpower can be added to the
others, the total is positive and the messages sent for payment can be split. -/
theorem hashpowerRange (srv : Server) :
    (∀ min diff, min ≤ diff → (WellDefined min diff ↔ 5 ≤ diff ∧ diff ≤ 66)) ∧
      ∀ s, Reach (machine srv) InsertsInRange s → TotalsDefined s := by
  refine ⟨fun _ _ _ => wellDefined_iff, ?_⟩
  intro s h
  refine ⟨?_, ?_⟩
  · intro hne
    exact UInt64.lt_iff_toNat_lt.mpr ((weighed h).total_pos hne)
  · intro who msg hm
    obtain ⟨_, -, -, hweighed⟩ := (payments_weighed h).sent who msg hm
    refine MessageInternalMineSuccess.isSome_rows ?_
    intro hne
    rw [totalsCarried h who msg hm]
    exact (hweighed.total_pos hne).ne'

/-- A round that is paid for meets the condition of `hashpowerRange`. -/
theorem hashpowerRange_settledRound :
    ∃ s, Reach (machine (Replay.server .unavailable)) InsertsInRange s ∧
      (s.journal.any fun ev => ev.2.mineSuccess.any fun msg => msg.totalHashpower = 160) = true ∧
      TotalsDefined s := by
  obtain ⟨s, hr, hs⟩ := exists_of_replay (Replay.server .unavailable) InsertsInRange
    (Replay.proofAt 1 0) Replay.settledRound
    (fun s => s.journal.any fun ev => ev.2.mineSuccess.any fun msg => msg.totalHashpower = 160)
    (by decide +kernel)
  exact ⟨s, hr, hs, (hashpowerRange _).2 s hr⟩

/-- A server that accepts every difficulty. -/
def Replay.lenient : Server :=
  let args := (server .unavailable).args
  { server .unavailable with args := { args with expectedMinDifficulty := 0 } }

/-- Without the condition the computation underflows, and the only contribution has no hashpower. -/
theorem not_hashpowerRange :
    (¬ ∀ min diff, min ≤ diff → WellDefined min diff) ∧
      ¬ ∀ srv s, Reach (machine srv) Any s → TotalsDefined s := by
  refine ⟨?_, ?_⟩
  · intro h
    exact absurd (h 0 4 (by decide)).underflow (by decide)
  · intro h
    obtain ⟨s, hr, hs⟩ := exists_of_replay Replay.lenient Any (Replay.proofAt 1 0)
      ([.connect 1 (Replay.key 1) .V1] ++ Replay.mission 0 1 ++
        Replay.solve 0 5 1 1 (Replay.solution 1 4))
      (fun s => decide (s.shared.epochHashes.contributions.entries.map
        (fun entry => entry.2.suppliedDiff) = [4])) (by decide +kernel)
    obtain ⟨entry, hentries, hdiff⟩ := List.map_eq_singleton_iff.mp (of_decide_eq_true hs)
    have hne : s.shared.epochHashes.contributions.entries ≠ [] := by
      rw [hentries]
      exact List.cons_ne_nil _ _
    have hlookup : s.shared.epochHashes.contributions.lookup entry.1 = some entry.2 :=
      AList.mem_lookup_iff.mpr (hentries ▸ List.mem_singleton_self _)
    obtain ⟨sub, -, -, hsub⟩ := recorded_of_lookup hr hlookup
    have hzero : entry.2.hashpower = 0 := by
      rw [← hsub] at hdiff ⊢
      exact hashpower_of_lt (by rw [show sub.diff = 4 from hdiff]; decide)
    have htotal := UInt64.lt_iff_toNat_lt.mp ((h _ s hr).positive hne)
    rw [totalHashpower_toNat, hashpowers, hentries, List.map_singleton, hzero] at htotal
    exact absurd htotal (by decide)

end OrePool
