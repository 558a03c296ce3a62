import OrePool.Lemmas.Percentiles

/-!
# The local fee estimate

Without a fee service `local_dynamic_fee` works the estimate out itself.  It sorts the fees of
recent slots by their slots, the newest first, and walks through three chunks of them; each chunk
overwrites the percentiles of the one before.

`LocalEstimate` says what this comes to without a sort or a walk: the chunk that remains is told by
how many slots are newer (`lastChunk`), and the fee by how many fees of the chunk are below it.
Neither depends on the order in which the node lists the fees (`localEstimate`).
-/

namespace OrePool

open OrderStatistics Traversal

/-! ## The property -/

/-- The nearest rank of a percentile: the exact index, at least one. -/
def nearestRank (p : UInt8) (len : ℕ) : ℕ := max 1 (exactIndex p len)

/-- How many slots are newer. -/
def newer (fees : List RpcPrioritizationFee) (fee : RpcPrioritizationFee) : ℕ :=
  fees.countP fun other => fee.slot < other.slot

/-- The last of the first three chunks of 150 slots, the newest first. -/
def lastChunk (fees : List RpcPrioritizationFee) : List RpcPrioritizationFee :=
  fees.filter fun fee => newer fees fee / 150 = min 2 ((fees.length - 1) / 150)

/-- **The local estimate.**  A fee of the list is returned, whatever the order of the list, and it
is the nearest-rank 75th percentile of the last chunk. -/
structure LocalEstimate (fees : List RpcPrioritizationFee) (fee : UInt64) : Prop where
  returned : localDynamicFee percentileIndex (some fees) = some (.ok fee)
  element : fee ∈ fees.map RpcPrioritizationFee.prioritizationFee
  percentile : KthSmallest ((lastChunk fees).map RpcPrioritizationFee.prioritizationFee)
    (nearestRank 75 (lastChunk fees).length) fee
  permuted : ∀ fees', fees.Perm fees' →
    localDynamicFee percentileIndex (some fees') = some (.ok fee)

/-- **Ordered percentiles.**  All percentiles of a slice are worked out, they do not decrease from
one to the next, and the hundredth is the greatest element. -/
structure OrderedPercentiles (index : UInt8 → ℕ → ℕ) (slice : List UInt64)
    (percentiles : List (UInt8 × UInt64)) : Prop where
  computed : calculatePercentiles index slice = some percentiles
  keys : percentiles.map Prod.fst = PERCENTILES
  mono : ∀ x ∈ percentiles, ∀ y ∈ percentiles, x.1 ≤ y.1 → x.2 ≤ y.2
  maximum : ∀ x ∈ percentiles, x.1 = 100 → x.2 ∈ slice ∧ ∀ fee ∈ slice, fee ≤ x.2

/-! ## Percentiles of a slice -/

/-- With ranked indices the percentiles are ordered. -/
lemma Ranked.orderedPercentiles {index : UInt8 → ℕ → ℕ} {slice : List UInt64} (hne : slice ≠ [])
    (h : Ranked index slice.length) :
    ∃ percentiles, OrderedPercentiles index slice percentiles := by
  obtain ⟨percentile, hcomputed, hkth⟩ := calculatePercentiles_eq hne h
  refine ⟨_, hcomputed, ?_, ?_, ?_⟩
  · rw [List.map_map]
    exact List.map_id _
  · intro x hx y hy hxy
    obtain ⟨p, hp, rfl⟩ := List.mem_map.mp hx
    obtain ⟨q, hq, rfl⟩ := List.mem_map.mp hy
    exact KthSmallest.le (max_le_max le_rfl (h.mono p hp q hq hxy)) (hkth p hp) (hkth q hq)
  · intro x hx hfull
    obtain ⟨p, hp, rfl⟩ := List.mem_map.mp hx
    obtain rfl : p = 100 := hfull
    have hlast := hkth 100 hp
    rw [h.full, max_eq_right (List.length_pos_iff.mpr hne)] at hlast
    exact ⟨hlast.mem, fun fee hfee => hlast.le_last hfee⟩

/-! ## The last chunk -/

lemma newer_perm {fees fees' : List RpcPrioritizationFee} (h : fees.Perm fees') :
    newer fees = newer fees' :=
  funext fun _ => h.countP_eq _

/-- The last chunk of the same slots in another order. -/
lemma lastChunk_perm {fees fees' : List RpcPrioritizationFee} (h : fees.Perm fees') :
    (lastChunk fees).Perm (lastChunk fees') := by
  rw [lastChunk, lastChunk, newer_perm h, h.length_eq]
  exact h.filter _

/-- In the order of the slots the last chunk is a block. -/
lemma lastChunk_of_newestFirst {fees : List RpcPrioritizationFee}
    (h : fees.Pairwise fun a b => b.slot < a.slot) :
    lastChunk fees = (fees.drop (min 2 ((fees.length - 1) / 150) * 150)).take 150 := by
  refine filter_block (fun i hi => ?_) (by decide) _
  exact countP_getElem h (fun _ _ => UInt64.lt_asymm) hi

/-- The chunk the walk ends with. -/
lemma getLast_take_chunks {fees : List RpcPrioritizationFee} (hne : fees ≠ []) :
    ∃ hchunks : (chunks 150 fees).take 3 ≠ [], ((chunks 150 fees).take 3).getLast hchunks =
      (fees.drop (min 2 ((fees.length - 1) / 150) * 150)).take 150 := by
  have hlength : min 3 ((fees.length + 150 - 1) / 150) = min 2 ((fees.length - 1) / 150) + 1 := by
    have hpos := List.length_pos_iff.mpr hne
    omega
  have hchunks : (chunks 150 fees).take 3 =
      (List.range (min 2 ((fees.length - 1) / 150) + 1)).map fun i =>
        (fees.drop (i * 150)).take 150 := by
    rw [chunks, ← List.map_take, List.take_range, hlength]
  refine ⟨by rw [hchunks]; simp, ?_⟩
  simp only [hchunks, List.getLast_map, List.getLast_range, Nat.add_sub_cancel]

/-- Distinct slots are strictly ordered when they are sorted. -/
lemma newestFirst_insertionSort {fees : List RpcPrioritizationFee}
    (h : (fees.map RpcPrioritizationFee.slot).Nodup) :
    (fees.insertionSort fun a b => b.slot ≤ a.slot).Pairwise fun a b => b.slot < a.slot := by
  have hsorted := List.pairwise_insertionSort
    (fun a b : RpcPrioritizationFee => b.slot ≤ a.slot) fees
  have hperm := (List.perm_insertionSort
    (fun a b : RpcPrioritizationFee => b.slot ≤ a.slot) fees).map RpcPrioritizationFee.slot
  have hdistinct := List.pairwise_map.mp (hperm.nodup_iff.mpr h)
  exact (hsorted.and hdistinct).imp fun ⟨hle, hne⟩ => UInt64.lt_of_le_of_ne hle hne.symm

/-! ## The walk -/

/-- In the order of the slots the walk ends with the percentiles of the last chunk. -/
lemma foldlM_take_chunks {fees : List RpcPrioritizationFee} (hne : fees ≠ [])
    (hnewest : fees.Pairwise fun a b => b.slot < a.slot) :
    lastChunk fees ∈ chunks 150 fees ∧
      ((chunks 150 fees).take 3).foldlM (fun _ chunk => calculatePercentiles percentileIndex
          (chunk.map RpcPrioritizationFee.prioritizationFee)) [] =
        calculatePercentiles percentileIndex
          ((lastChunk fees).map RpcPrioritizationFee.prioritizationFee) := by
  obtain ⟨hchunks, hlast⟩ := getLast_take_chunks hne
  rw [← lastChunk_of_newestFirst hnewest] at hlast
  constructor
  · exact hlast ▸ List.mem_of_mem_take (List.getLast_mem hchunks)
  · rw [← hlast]
    refine foldlM_forget (fun chunk hchunk => ?_) hchunks []
    exact isSome_calculatePercentiles (List.mem_of_mem_take hchunk)

/-- The 75th percentile of the last chunk is returned. -/
lemma localDynamicFee_eq {fees : List RpcPrioritizationFee} (hne : fees ≠ [])
    (hslots : (fees.map RpcPrioritizationFee.slot).Nodup) :
    ∃ fee, localDynamicFee percentileIndex (some fees) = some (.ok fee) ∧
      KthSmallest ((lastChunk fees).map RpcPrioritizationFee.prioritizationFee)
        (nearestRank 75 (lastChunk fees).length) fee := by
  obtain ⟨sorted, hsorted⟩ : ∃ sorted, sorted = fees.insertionSort fun a b => b.slot ≤ a.slot :=
    ⟨_, rfl⟩
  have hperm : sorted.Perm fees := hsorted ▸ List.perm_insertionSort _ fees
  have hnewest : sorted.Pairwise fun a b => b.slot < a.slot :=
    hsorted ▸ newestFirst_insertionSort hslots
  have hne' : sorted ≠ [] := fun h => hne (h ▸ hperm.symm).eq_nil
  obtain ⟨hmem, hwalk⟩ := foldlM_take_chunks hne' hnewest
  obtain ⟨percentile, hpercentiles, hkth⟩ := calculatePercentiles_chunk hmem
  refine ⟨percentile 75, ?_, ?_⟩
  · cases fees with
    | nil => exact absurd rfl hne
    | cons fee fees =>
        simp only [localDynamicFee]
        rw [← hsorted, hwalk, hpercentiles]
        rfl
  · have hchunk := lastChunk_perm hperm
    have hle : (lastChunk sorted).length ≤ 150 := (length_of_mem_chunks (by decide) hmem).2
    have h75 := (hkth 75 (by decide)).perm (hchunk.map _)
    rwa [percentileIndex_eq_exactIndex hle, hchunk.length_eq] at h75

/-! ## The estimate -/

/-- **The local estimate**, for distinct slots in any number, and **ordered percentiles**, for any
slice when the index is exact and for a slice whose length is a double when it is not. -/
theorem localEstimate :
    (∀ fees : List RpcPrioritizationFee, fees ≠ [] →
      (fees.map RpcPrioritizationFee.slot).Nodup → ∃ fee, LocalEstimate fees fee) ∧
    (∀ slice : List UInt64, slice ≠ [] →
      ∃ percentiles, OrderedPercentiles exactIndex slice percentiles) ∧
    (∀ slice : List UInt64, slice ≠ [] → slice.length < 2 ^ 53 →
      ∃ percentiles, OrderedPercentiles percentileIndex slice percentiles) := by
  refine ⟨fun fees hne hslots => ?_, fun slice hne => ?_, fun slice hne hlen => ?_⟩
  · obtain ⟨fee, hreturned, hkth⟩ := localDynamicFee_eq hne hslots
    refine ⟨fee, hreturned, ?_, hkth, fun fees' hperm => ?_⟩
    · obtain ⟨row, hrow, hfee⟩ := List.mem_map.mp hkth.mem
      exact hfee ▸ List.mem_map_of_mem (List.mem_of_mem_filter hrow)
    · have hne' : fees' ≠ [] := fun h => hne (h ▸ hperm).eq_nil
      obtain ⟨fee', hreturned', hkth'⟩ :=
        localDynamicFee_eq hne' ((hperm.map _).nodup_iff.mp hslots)
      -- the same rank in the same chunk
      have hchunk := lastChunk_perm hperm
      rw [← hchunk.length_eq] at hkth'
      rw [hreturned', hkth.unique (hkth'.perm (hchunk.map _).symm)]
  · exact (ranked_exactIndex slice.length).orderedPercentiles hne
  · exact (ranked_percentileIndex hlen).orderedPercentiles hne

/-- Fees of more slots than a chunk has, the oldest first. -/
def Replay.recentFees : List RpcPrioritizationFee :=
  (List.range 160).map fun i => ⟨i.toUInt64, (i * 7 % 160).toUInt64⟩

lemma Replay.recentFees_nodup : (Replay.recentFees.map RpcPrioritizationFee.slot).Nodup := by
  rw [Replay.recentFees, List.map_map]
  refine List.nodup_range.map_on fun i hi j hj h => ?_
  have hmod : i % 2 ^ 64 = j % 2 ^ 64 := congrArg UInt64.toNat h
  rw [List.mem_range] at hi hj
  omega

theorem localEstimate_recentFees :
    (∃ fee, LocalEstimate Replay.recentFees fee) ∧
    (∃ percentiles, OrderedPercentiles exactIndex [30, 10, 20] percentiles) ∧
    ∃ percentiles, OrderedPercentiles percentileIndex [30, 10, 20] percentiles :=
  ⟨localEstimate.1 Replay.recentFees (by decide) Replay.recentFees_nodup,
    localEstimate.2.1 [30, 10, 20] (by decide),
    localEstimate.2.2 [30, 10, 20] (by decide) (by decide)⟩

end OrePool
