import OrePool.Core.Binary64
import OrePool.Core.OrderStatistics
import OrePool.Core.Traversal
import OrePool.Model.DynamicFee

/-!
# Percentiles

`calculate_percentiles` looks each percentile up at an index that is computed with doubles.  What
the percentiles are depends on two things only: that the index does not decrease from one percentile
to the next, and that the last one is the length (`Ranked`).  This holds for every length that is a
double (`ranked_percentileIndex`), and where the index is computed exactly for every length
(`ranked_exactIndex`).
-/

namespace OrePool

open Binary64 OrderStatistics Traversal

/-! ## Rounding -/

/-- The cast of a bounded double is within the bound. -/
lemma roundToUsize_le {n : ℕ} {x : Float} (h : Bounded n x) : roundToUsize x ≤ n := by
  rw [Bounded] at h
  rw [roundToUsize]
  match x.toModel.unpack, h with
  | .zero _, _ => exact Nat.zero_le n
  | .finite .positive m e _, ⟨_, he, h⟩ =>
      refine (min_le_right _ _).trans ?_
      split
      · rename_i hzero
        have he : e = 0 := by omega
        subst he
        simpa using h
      · rename_i hneg
        -- a half unit does not reach the next integer
        have hhalf : 2 ^ ((-e).toNat - 1) < 2 ^ (-e).toNat :=
          Nat.pow_lt_pow_right (by decide) (by omega)
        refine Nat.lt_succ_iff.mp ((Nat.div_lt_iff_lt_mul (Nat.two_pow_pos _)).mpr ?_)
        rw [Nat.succ_mul]
        omega

/-- The cast of a double that reaches an integer reaches it. -/
lemma le_roundToUsize {n k : ℕ} {x : Float} (h : Reaches n x) (hn : n < 2 ^ 53)
    (hx : Bounded k x) : n ≤ roundToUsize x := by
  rw [Reaches] at h
  rw [Bounded] at hx
  rw [roundToUsize]
  match x.toModel.unpack, h, hx with
  | .finite .positive m e _, ⟨_, h⟩, ⟨_, he, _⟩ =>
      refine le_min (by omega) ?_
      split
      · rename_i hzero
        have he : e = 0 := by omega
        subst he
        simpa using h
      · exact (Nat.le_div_iff_mul_le (Nat.two_pow_pos _)).mpr (h.trans (Nat.le_add_right _ _))

/-! ## Indices -/

/-- The indices of a length do not decrease, and the last is the length. -/
structure Ranked (index : UInt8 → ℕ → ℕ) (len : ℕ) : Prop where
  mono : ∀ p ∈ PERCENTILES, ∀ q ∈ PERCENTILES, p ≤ q → index p len ≤ index q len
  full : index 100 len = len

lemma percentiles_le : ∀ p ∈ PERCENTILES, p ≤ 100 := by
  have h : (PERCENTILES.all fun p => decide (p ≤ 100)) = true := by decide
  exact fun p hp => of_decide_eq_true (List.all_eq_true.mp h p hp)

lemma Ranked.le {index : UInt8 → ℕ → ℕ} {len : ℕ} (h : Ranked index len) {p : UInt8}
    (hp : p ∈ PERCENTILES) : index p len ≤ len := by
  have hmono := h.mono p hp 100 (by decide) (percentiles_le p hp)
  rwa [h.full] at hmono

/-- Two percentiles are the same or five apart. -/
lemma percentiles_apart {p q : UInt8} (hp : p ∈ PERCENTILES) (hq : q ∈ PERCENTILES) (h : p ≤ q) :
    p = q ∨ p.toNat + 5 ≤ q.toNat := by
  have hall : (PERCENTILES.all fun p => PERCENTILES.all fun q =>
      decide (p ≤ q → p = q ∨ p.toNat + 5 ≤ q.toNat)) = true := by decide
  exact of_decide_eq_true (List.all_eq_true.mp (List.all_eq_true.mp hall p hp) q hq) h

/-! ## Indices with doubles -/

/-- The quotients are near the percentages, and not above one. -/
lemma percentages_near : ∀ p ∈ PERCENTILES,
    Near (1000 * p.toNat - 1) (min (1000 * p.toNat + 1) 100000) 100000
      (p.toFloat / UInt64.toFloat 100) := by
  have h : (PERCENTILES.all fun p => decide (Near (1000 * p.toNat - 1)
      (min (1000 * p.toNat + 1) 100000) 100000 (p.toFloat / UInt64.toFloat 100))) = true := by
    decide +kernel
  exact fun p hp => of_decide_eq_true (List.all_eq_true.mp h p hp)

lemma hundred_near : Near 1 1 1 (UInt8.toFloat 100 / UInt64.toFloat 100) := by decide +kernel

lemma toNat_toUInt64 {len : ℕ} (h : len < 2 ^ 53) : len.toUInt64.toNat = len := by
  rw [Nat.toUInt64, UInt64.toNat_ofNat']
  omega

/-- The indices of short slices, one after the other. -/
lemma percentileIndex_mono_of_short : ∀ p ∈ PERCENTILES, ∀ q ∈ PERCENTILES, p ≤ q →
    ∀ len < 21, percentileIndex p len ≤ percentileIndex q len := by
  have hall : (PERCENTILES.all fun p => PERCENTILES.all fun q => (List.range 21).all fun len =>
      decide (p ≤ q → percentileIndex p len ≤ percentileIndex q len)) = true := by
    decide +kernel
  intro p hp q hq h len hlen
  have hpq := List.all_eq_true.mp (List.all_eq_true.mp hall p hp) q hq
  exact of_decide_eq_true (List.all_eq_true.mp hpq len (List.mem_range.mpr hlen)) h

/-- A longer slice has an integer between two percentiles. -/
lemma percentileIndex_mono_of_long {p q : UInt8} (hp : p ∈ PERCENTILES) (hq : q ∈ PERCENTILES)
    (h : p.toNat + 5 ≤ q.toNat) {len : ℕ} (hlong : 21 ≤ len) (hlen : len < 2 ^ 53) :
    percentileIndex p len ≤ percentileIndex q len := by
  have hq' : q.toNat ≤ 100 := UInt8.le_iff_toNat_le.mp (percentiles_le q hq)
  obtain ⟨u, hu⟩ : ∃ u, u = p.toNat * len := ⟨_, rfl⟩
  obtain ⟨w, hw⟩ : ∃ w, w = q.toNat * len := ⟨_, rfl⟩
  have hgap : u + 5 * len ≤ w := by
    rw [hu, hw, ← Nat.add_mul]
    exact Nat.mul_le_mul_right len h
  have hw' : w ≤ 100 * len := hw ▸ Nat.mul_le_mul_right len hq'
  obtain ⟨c, hc⟩ : ∃ c, c = (1000 * w - len) / 100000 := ⟨_, rfl⟩
  have hhigh : (min (1000 * p.toNat + 1) 100000) * len.toUInt64.toNat ≤ c * 100000 := by
    rw [toNat_toUInt64 hlen]
    calc (min (1000 * p.toNat + 1) 100000) * len ≤ (1000 * p.toNat + 1) * len :=
          Nat.mul_le_mul_right len (min_le_left _ _)
      _ = 1000 * u + len := by rw [hu, Nat.add_mul, Nat.mul_assoc, Nat.one_mul]
      _ ≤ c * 100000 := by omega
  have hlow : c * 100000 ≤ (1000 * q.toNat - 1) * len.toUInt64.toNat := by
    rw [toNat_toUInt64 hlen]
    calc c * 100000 ≤ 1000 * w - len := by omega
      _ = (1000 * q.toNat - 1) * len := by rw [hw, Nat.sub_mul, Nat.mul_assoc, Nat.one_mul]
  have hlen' : len.toUInt64.toNat < 2 ^ 53 := by rwa [toNat_toUInt64 hlen]
  have hbound : (min (1000 * q.toNat + 1) 100000) * len.toUInt64.toNat ≤ len * 100000 := by
    rw [toNat_toUInt64 hlen, Nat.mul_comm len]
    exact Nat.mul_le_mul_right len (min_le_right _ _)
  calc percentileIndex p len ≤ c :=
        roundToUsize_le ((percentages_near p hp).bounded_mul (by decide) hlen' (by omega) hhigh)
    _ ≤ percentileIndex q len :=
        le_roundToUsize ((percentages_near q hq).reaches_mul (by decide) hlen' (by omega) hlow
          (min_le_right _ _)) (by omega)
          ((percentages_near q hq).bounded_mul (by decide) hlen' hlen hbound)

/-- The hundredth percentile is the last element. -/
lemma percentileIndex_hundred {len : ℕ} (hlen : len < 2 ^ 53) : percentileIndex 100 len = len := by
  rcases len.eq_zero_or_pos with rfl | hpos
  · decide +kernel
  · have hcast := toNat_toUInt64 hlen
    have hlen' : len.toUInt64.toNat < 2 ^ 53 := by rwa [hcast]
    have hbounded : Bounded len (UInt8.toFloat 100 / UInt64.toFloat 100 * len.toUInt64.toFloat) :=
      hundred_near.bounded_mul (by decide) hlen' hlen (by omega)
    have hreaches : Reaches len (UInt8.toFloat 100 / UInt64.toFloat 100 * len.toUInt64.toFloat) :=
      hundred_near.reaches_mul (by decide) hlen' hpos (by omega) (by decide)
    exact (roundToUsize_le hbounded).antisymm (le_roundToUsize hreaches hlen hbounded)

/-- **The indices are ranked** for every length that is a double. -/
theorem ranked_percentileIndex {len : ℕ} (hlen : len < 2 ^ 53) : Ranked percentileIndex len where
  mono p hp q hq h := by
    rcases Nat.lt_or_ge len 21 with hshort | hlong
    · exact percentileIndex_mono_of_short p hp q hq h len hshort
    · rcases percentiles_apart hp hq h with rfl | hgap
      · exact le_rfl
      · exact percentileIndex_mono_of_long hp hq hgap hlong hlen
  full := percentileIndex_hundred hlen

/-! ## Exact indices -/

/-- The index without doubles: `p * len / 100`, a half going up. -/
def exactIndex (p : UInt8) (len : ℕ) : ℕ := (round ((p.toNat * len : ℚ) / 100)).toNat

lemma exactIndex_eq (p : UInt8) (len : ℕ) :
    exactIndex p len = (2 * p.toNat * len + 100) / 200 := by
  have hhalf : (p.toNat * len : ℚ) / 100 + 1 / 2 =
      ((2 * p.toNat * len + 100 : ℕ) : ℚ) / (200 : ℕ) := by
    push_cast
    ring
  rw [exactIndex, round_eq, Int.floor_toNat, hhalf, Nat.floor_div_eq_div]

/-- **The exact indices are ranked** for every length. -/
theorem ranked_exactIndex (len : ℕ) : Ranked exactIndex len where
  mono p _ q _ h := by
    rw [exactIndex_eq, exactIndex_eq]
    refine Nat.div_le_div_right (Nat.add_le_add_right (Nat.mul_le_mul_right len ?_) 100)
    exact Nat.mul_le_mul_left 2 (UInt8.le_iff_toNat_le.mp h)
  full := by
    rw [exactIndex_eq, show (100 : UInt8).toNat = 100 from rfl]
    omega

/-- Within a chunk the default percentile is where it is exactly. -/
lemma percentileIndex_eq_exactIndex {len : ℕ} (hlen : len ≤ 150) :
    percentileIndex 75 len = exactIndex 75 len := by
  have hall : ∀ len < 151, percentileIndex 75 len = (2 * 75 * len + 100) / 200 := by
    decide +kernel
  rw [exactIndex_eq]
  exact hall len (Nat.lt_succ_of_le hlen)

/-! ## Percentiles -/

/-- What stands at a ranked index, and the first element where the index is zero. -/
lemma calculatePercentiles_eq {index : UInt8 → ℕ → ℕ} {fees : List UInt64} (hne : fees ≠ [])
    (h : Ranked index fees.length) :
    ∃ percentile : UInt8 → UInt64,
      calculatePercentiles index fees = some (PERCENTILES.map fun p => (p, percentile p)) ∧
      ∀ p ∈ PERCENTILES, KthSmallest fees (max 1 (index p fees.length)) (percentile p) := by
  obtain ⟨sorted, hsorted⟩ : ∃ sorted, sorted = fees.insertionSort (· ≤ ·) := ⟨_, rfl⟩
  have hperm : sorted.Perm fees := hsorted ▸ List.perm_insertionSort _ fees
  have horder : sorted.Pairwise (· ≤ ·) := hsorted ▸ List.pairwise_insertionSort _ fees
  have hlt : ∀ p ∈ PERCENTILES, index p fees.length - 1 < sorted.length := by
    intro p hp
    have hle := h.le hp
    have hpos := List.length_pos_iff.mpr hne
    rw [hperm.length_eq]
    omega
  obtain ⟨percentile, hpercentile⟩ : ∃ percentile : UInt8 → UInt64, ∀ p ∈ PERCENTILES,
      sorted[index p fees.length - 1]? = some (percentile p) :=
    ⟨fun p => (sorted[index p fees.length - 1]?).getD 0, fun p hp => by simp [hlt p hp]⟩
  refine ⟨percentile, mapM_eq_map fun p hp => ?_, fun p hp => ?_⟩
  · rw [← hsorted, hpercentile p hp, Option.map_some]
  · obtain ⟨hi, hgetElem⟩ := List.getElem?_eq_some_iff.mp (hpercentile p hp)
    have hplace : index p fees.length - 1 + 1 = max 1 (index p fees.length) := by omega
    rw [← hgetElem, ← hplace]
    exact (kthSmallest_getElem horder hi).perm hperm

/-- A chunk has its percentiles. -/
lemma calculatePercentiles_chunk {fees chunk : List RpcPrioritizationFee}
    (h : chunk ∈ chunks 150 fees) :
    ∃ percentile : UInt8 → UInt64,
      calculatePercentiles percentileIndex (chunk.map RpcPrioritizationFee.prioritizationFee) =
        some (PERCENTILES.map fun p => (p, percentile p)) ∧
      ∀ p ∈ PERCENTILES, KthSmallest (chunk.map RpcPrioritizationFee.prioritizationFee)
        (max 1 (percentileIndex p chunk.length)) (percentile p) := by
  obtain ⟨hpos, hle⟩ := length_of_mem_chunks (by decide) h
  have hranked : Ranked percentileIndex (chunk.map RpcPrioritizationFee.prioritizationFee).length :=
    ranked_percentileIndex (by rw [List.length_map]; omega)
  have hne : chunk.map RpcPrioritizationFee.prioritizationFee ≠ [] := by
    rwa [← List.length_pos_iff, List.length_map]
  have hpercentiles := calculatePercentiles_eq hne hranked
  rwa [List.length_map] at hpercentiles

lemma isSome_calculatePercentiles {fees chunk : List RpcPrioritizationFee}
    (h : chunk ∈ chunks 150 fees) :
    (calculatePercentiles percentileIndex
      (chunk.map RpcPrioritizationFee.prioritizationFee)).isSome := by
  obtain ⟨_, hpercentiles, -⟩ := calculatePercentiles_chunk h
  rw [hpercentiles]
  rfl

end OrePool
