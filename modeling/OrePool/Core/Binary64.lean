import Mathlib

/-!
# Doubles beside a natural number

A natural number below `2 ^ 53` is a double, and rounding is monotone, so a product that is at most
such a number before it is rounded is so afterwards, and one that is at least such a number too.

* `Bounded.toFloat`, `Reaches.toFloat` — the conversion of an integer neither exceeds it nor falls
  short of it.
* `Near.bounded_mul`, `Near.reaches_mul` — the product of a double near a fraction with an integer.

Lean's doubles are computed on an unpacked form, a mantissa and an exponent, and packed into 64 bits
after each operation.
-/

open Float.Model Float.Model.UnpackedFloat

namespace Binary64

variable {n m k a b : ℕ} {e : ℤ} {x y : UnpackedFloat}

/-- A nonnegative number of the format, not one above one, that is at most `n`. -/
def AtMost (n : ℕ) : UnpackedFloat → Prop
  | .zero _ => True
  | .finite .positive m e _ => -1074 ≤ e ∧ e ≤ 0 ∧ m ≤ n * 2 ^ (-e).toNat
  | _ => False

instance (n : ℕ) : (x : UnpackedFloat) → Decidable (AtMost n x)
  | .zero _ => isTrue trivial
  | .finite .positive _ _ _ => inferInstanceAs (Decidable (_ ∧ _ ∧ _))
  | .finite .negative .. | .infinity _ | .notANumber => isFalse id

/-- A double that is at most `n`. -/
def Bounded (n : ℕ) (x : Float) : Prop := AtMost n x.toModel.unpack

instance (n : ℕ) (x : Float) : Decidable (Bounded n x) :=
  inferInstanceAs (Decidable (AtMost n x.toModel.unpack))

/-- The cast of a signed integer, which Lean leaves without a model. -/
def ofInt64 (i : Int64) : Float := .ofModel (.ofInt64 i)

/-- The casts of a signed and of an unsigned integer of the same value are the same. -/
lemma ofInt64_eq_toFloat {i : Int64} {u : UInt64} (h : i.toInt = u.toNat) :
    ofInt64 i = u.toFloat := by
  show Float.ofModel (Float.Model.pack (UnpackedFloat.ofInt _ i.toInt)) =
    Float.ofModel (Float.Model.pack (UnpackedFloat.ofInt _ u.toNat))
  rw [h]

/-- A normal number of the format that is at least `n`. -/
def AtLeast (n : ℕ) : UnpackedFloat → Prop
  | .finite .positive m e _ => m.log2 = 52 ∧ n * 2 ^ (-e).toNat ≤ m
  | _ => False

/-- A double that is at least `n`. -/
def Reaches (n : ℕ) (x : Float) : Prop := AtLeast n x.toModel.unpack

/-- A number of the format from `a / d` to `b / d`. -/
def Between (a b d : ℕ) : UnpackedFloat → Prop
  | .finite .positive m e _ =>
      e ≤ 0 ∧ a * 2 ^ (-e).toNat ≤ d * m ∧ d * m ≤ b * 2 ^ (-e).toNat
  | _ => False

instance (a b d : ℕ) : (x : UnpackedFloat) → Decidable (Between a b d x)
  | .finite .positive _ _ _ => inferInstanceAs (Decidable (_ ∧ _ ∧ _))
  | .zero _ | .finite .negative .. | .infinity _ | .notANumber => isFalse id

/-- A double from `a / d` to `b / d`. -/
def Near (a b d : ℕ) (x : Float) : Prop := Between a b d x.toModel.unpack

instance (a b d : ℕ) (x : Float) : Decidable (Near a b d x) :=
  inferInstanceAs (Decidable (Between a b d x.toModel.unpack))

/-! ## Shifting a mantissa -/

lemma shiftRight_succ (em : ExtendedMantissa) (k : ℕ) :
    em >>> (k + 1) = (em >>> k).shiftRightOne := rfl

/-- A shift divides the mantissa. -/
lemma shiftRight_mantissa (em : ExtendedMantissa) (k : ℕ) :
    (em >>> k).mantissa = em.mantissa / 2 ^ k := by
  induction k with
  | zero => simp [HShiftRight.hShiftRight, Nat.repeat]
  | succ k ih =>
      rw [shiftRight_succ, ExtendedMantissa.shiftRightOne, ih, Nat.div_div_eq_div_mul, pow_succ]

/-- A mantissa whose shift drops no bit that is set has no residue. -/
lemma shiftRight_exact (h : 2 ^ k ∣ m) :
    (ExtendedMantissa.mk m false false >>> k).accuracy = .exact := by
  suffices hbits : (ExtendedMantissa.mk m false false >>> k).roundBit = false ∧
      (ExtendedMantissa.mk m false false >>> k).stickyBit = false by
    generalize ExtendedMantissa.mk m false false >>> k = em at hbits
    obtain ⟨mantissa, round, sticky⟩ := em
    obtain ⟨rfl, rfl⟩ := hbits
    rfl
  induction k with
  | zero => exact ⟨rfl, rfl⟩
  | succ k ih =>
      obtain ⟨hround, hsticky⟩ := ih ((Nat.pow_dvd_pow 2 (Nat.le_succ k)).trans h)
      have heven : m / 2 ^ k % 2 = 0 := by
        obtain ⟨c, rfl⟩ := h
        rw [pow_succ, mul_assoc, Nat.mul_div_cancel_left _ (by positivity)]
        omega
      rw [shiftRight_succ, ExtendedMantissa.shiftRightOne, shiftRight_mantissa, hround, hsticky]
      simp [heven]

lemma roundedMantissa_le (em : ExtendedMantissa) : em.roundedMantissa ≤ em.mantissa + 1 := by
  rw [ExtendedMantissa.roundedMantissa]
  cases em.accuracy with
  | exact => exact Nat.le_succ _
  | inexact o =>
      cases o with
      | lt => exact Nat.le_succ _
      | eq =>
          have hmod : em.mantissa % 2 < 2 := Nat.mod_lt _ (by decide)
          simp only [Accuracy.roundToNearestEven]
          omega
      | gt => exact Nat.le_refl _

lemma le_roundedMantissa (em : ExtendedMantissa) : em.mantissa ≤ em.roundedMantissa := by
  rw [ExtendedMantissa.roundedMantissa]
  cases em.accuracy with
  | exact => exact Nat.le_refl _
  | inexact o =>
      cases o with
      | lt => exact Nat.le_refl _
      | eq => exact Nat.le_add_right _ _
      | gt => exact Nat.le_succ _

/-- A mantissa of at most `n` units after the shift is not rounded to more than `n`. -/
lemma roundedMantissa_shiftRight_le (h : m ≤ n * 2 ^ k) :
    (ExtendedMantissa.mk m false false >>> k).roundedMantissa ≤ n := by
  rcases h.eq_or_lt with rfl | hlt
  · -- nothing is rounded
    rw [ExtendedMantissa.roundedMantissa, shiftRight_exact (Nat.dvd_mul_left ..),
      Accuracy.roundToNearestEven, shiftRight_mantissa]
    exact (Nat.mul_div_cancel n (by positivity)).le
  · have hdiv : m / 2 ^ k < n := (Nat.div_lt_iff_lt_mul (by positivity)).mpr hlt
    have hround := roundedMantissa_le (ExtendedMantissa.mk m false false >>> k)
    rw [shiftRight_mantissa] at hround
    exact hround.trans hdiv

/-! ## Rounding -/

lemma targetExponent_eq (m : ℕ) (e : ℤ) :
    Format.binary64.targetExponent (totalExponent m e) = max (m.log2 + e - 52) (-1074) := by
  have hmin : Format.binary64.minExponent = -1074 := rfl
  have hbits : Format.binary64.mantissaBits = 53 := rfl
  rw [Format.targetExponent, totalExponent, hmin, hbits]
  congr 1
  omega

/-- The leading bit of a number below `2 ^ 53`. -/
lemma log2_add_le (hn : n < 2 ^ 53) (he : e ≤ 0) (h : m ≤ n * 2 ^ (-e).toNat) :
    (m.log2 : ℤ) + e ≤ 52 := by
  rcases m.eq_zero_or_pos with rfl | hpos
  · have hzero : Nat.log2 0 = 0 := rfl
    omega
  · have hlt : m < 2 ^ (53 + (-e).toNat) := by
      calc m ≤ n * 2 ^ (-e).toNat := h
        _ < 2 ^ 53 * 2 ^ (-e).toNat := Nat.mul_lt_mul_of_pos_right hn (by positivity)
        _ = 2 ^ (53 + (-e).toNat) := (pow_add ..).symm
    have hlog := (Nat.log2_lt hpos.ne').mpr hlt
    omega

/-- The shift to the exponent of the format keeps the bound. -/
lemma shiftToTargetExponent_le (hn : n < 2 ^ 53) (he : e ≤ 0) (h : m ≤ n * 2 ^ (-e).toNat) :
    let r := shiftToTargetExponent Format.binary64 m e .exact
    r.2 ≤ 0 ∧ -1074 ≤ r.2 ∧ r.1.roundedMantissa ≤ n * 2 ^ (-r.2).toNat ∧
      r.1.mantissa ≤ n * 2 ^ (-r.2).toNat := by
  have hlog := log2_add_le hn he h
  rw [shiftToTargetExponent, targetExponent_eq, shiftToExponent]
  obtain ⟨k, hk⟩ : ∃ k, k = (max ((m.log2 : ℤ) + e - 52) (-1074) - e).toNat := ⟨_, rfl⟩
  have hbound : m ≤ n * 2 ^ (-(e + k)).toNat * 2 ^ k := by
    have hsplit : (-e).toNat = (-(e + k)).toNat + k := by omega
    rwa [hsplit, pow_add, ← mul_assoc] at h
  dsimp only
  rw [← hk]
  refine ⟨by omega, by omega, roundedMantissa_shiftRight_le hbound, ?_⟩
  calc (ExtendedMantissa.mk m false false >>> k).mantissa = m / 2 ^ k := shiftRight_mantissa ..
    _ ≤ n * 2 ^ (-(e + k)).toNat * 2 ^ k / 2 ^ k := Nat.div_le_div_right hbound
    _ = n * 2 ^ (-(e + k)).toNat := Nat.mul_div_cancel _ (by positivity)

/-- A number of at most `n` is not rounded above `n`. -/
lemma AtMost.roundWithAccuracy (hn : n < 2 ^ 53) (he : e ≤ 0) (h : m ≤ n * 2 ^ (-e).toNat) :
    AtMost n (roundWithAccuracy Format.binary64 .positive m e .exact) := by
  obtain ⟨he₁, -, hround, -⟩ := shiftToTargetExponent_le hn he h
  obtain ⟨he₂, hlow, -, hmantissa⟩ := shiftToTargetExponent_le hn he₁ hround
  rw [UnpackedFloat.roundWithAccuracy]
  dsimp only
  split
  · exact trivial
  · exact ⟨hlow, he₂, hmantissa⟩

/-- A mantissa with bits to spare is shifted to a normal one, which keeps the bound from below. -/
lemma le_shiftToTargetExponent (hn : n < 2 ^ 53) (he : e ≤ 0) (h : m ≤ n * 2 ^ (-e).toNat)
    (hlog : 52 ≤ m.log2) (hk : 1 ≤ k) (hle : k * 2 ^ (-e).toNat ≤ m) :
    let r := shiftToTargetExponent Format.binary64 m e .exact
    r.1.mantissa.log2 = 52 ∧ k * 2 ^ (-r.2).toNat ≤ r.1.mantissa := by
  have hhigh := log2_add_le hn he h
  have hm : m ≠ 0 := by
    rintro rfl
    cases hlog
  have hlow : (-e).toNat ≤ m.log2 := by
    refine (Nat.le_log2 hm).mpr ?_
    calc 2 ^ (-e).toNat = 1 * 2 ^ (-e).toNat := (Nat.one_mul _).symm
      _ ≤ k * 2 ^ (-e).toNat := Nat.mul_le_mul_right _ hk
      _ ≤ m := hle
  rw [shiftToTargetExponent, targetExponent_eq, shiftToExponent]
  obtain ⟨s, hs⟩ : ∃ s, s = m.log2 - 52 := ⟨_, rfl⟩
  have hshift : (max ((m.log2 : ℤ) + e - 52) (-1074) - e).toNat = s := by omega
  have hmantissa : (ExtendedMantissa.mk m false false >>> s).mantissa = m / 2 ^ s :=
    shiftRight_mantissa ..
  dsimp only
  rw [hshift]
  show (ExtendedMantissa.mk m false false >>> s).mantissa.log2 = 52 ∧
    k * 2 ^ (-(e + s)).toNat ≤ (ExtendedMantissa.mk m false false >>> s).mantissa
  have hsplit : (-e).toNat = (-(e + s)).toNat + s := by omega
  have hbits : m.log2 = 52 + s := by omega
  have hdiv : 2 ^ 52 ≤ m / 2 ^ s := by
    rw [Nat.le_div_iff_mul_le (by positivity), ← pow_add, ← hbits]
    exact Nat.log2_self_le hm
  have hlt : m / 2 ^ s < 2 ^ 53 := by
    rw [Nat.div_lt_iff_lt_mul (by positivity), ← pow_add]
    exact (Nat.log2_lt hm).mp (by omega)
  rw [hmantissa]
  refine ⟨(Nat.log2_eq_iff (by omega)).mpr ⟨hdiv, hlt⟩, ?_⟩
  rw [Nat.le_div_iff_mul_le (by positivity), mul_assoc, ← pow_add, ← hsplit]
  exact hle

/-- A number of at least `k` is not rounded below `k`. -/
lemma AtLeast.roundWithAccuracy (hn : n < 2 ^ 53) (he : e ≤ 0) (h : m ≤ n * 2 ^ (-e).toNat)
    (hlog : 52 ≤ m.log2) (hk : 1 ≤ k) (hle : k * 2 ^ (-e).toNat ≤ m) :
    AtLeast k (roundWithAccuracy Format.binary64 .positive m e .exact) := by
  obtain ⟨he₁, -, hround, -⟩ := shiftToTargetExponent_le hn he h
  obtain ⟨hlog₁, hle₁⟩ := le_shiftToTargetExponent hn he h hlog hk hle
  have hgrow := le_roundedMantissa (shiftToTargetExponent Format.binary64 m e .exact).1
  have hpos : (shiftToTargetExponent Format.binary64 m e .exact).1.mantissa ≠ 0 := by
    intro h0
    rw [h0] at hlog₁
    cases hlog₁
  have hlog₂ : 52 ≤ (shiftToTargetExponent Format.binary64 m e .exact).1.roundedMantissa.log2 := by
    refine (Nat.le_log2 (by omega)).mpr ((Nat.log2_self_le hpos).trans' ?_ |>.trans hgrow)
    rw [hlog₁]
  obtain ⟨hlog₃, hle₃⟩ := le_shiftToTargetExponent hn he₁ hround hlog₂ hk (hle₁.trans hgrow)
  rw [UnpackedFloat.roundWithAccuracy]
  dsimp only
  split
  · rename_i h0
    rw [h0] at hlog₃
    cases hlog₃
  · exact ⟨hlog₃, hle₃⟩

/-! ## Packing -/

section Components

variable {spec : Format} {exponent : BitVec spec.exponentBits}
  {mantissa : BitVec spec.mantissaBitsWithoutImplicit}

lemma unpack_normal (hinf : exponent ≠ -1#_) (hzero : exponent ≠ 0#_) :
    UnpackedFloat.unpack spec (packComponents spec .positive exponent mantissa) =
      .finite .positive (1#1 ++ mantissa).toNat
        (exponent.toNat - (spec.exponentBias + spec.mantissaBitsWithoutImplicit)) (by simp) := by
  simp only [UnpackedFloat.unpack, unpackExponent_packComponents, unpackMantissa_packComponents,
    unpackSign_packComponents, if_neg hinf, if_neg hzero]
  rfl

lemma unpack_subnormal (hne : mantissa ≠ 0#_) :
    UnpackedFloat.unpack spec (packComponents spec .positive 0#_ mantissa) =
      .finite .positive mantissa.toNat
        (1 - (spec.exponentBias + spec.mantissaBitsWithoutImplicit))
        (by simpa [BitVec.toNat_pos, BitVec.pos_iff_ne_zero]) := by
  have hinf : (0#_ : BitVec spec.exponentBits) ≠ -1#_ := by
    intro h
    have hbits := spec.he
    have hnat := congrArg BitVec.toNat h
    rw [BitVec.neg_one_eq_allOnes, BitVec.toNat_allOnes, BitVec.toNat_ofNat, Nat.zero_mod] at hnat
    have hpow : 2 ^ 1 ≤ 2 ^ spec.exponentBits := Nat.pow_le_pow_right (by decide) hbits
    omega
  simp only [UnpackedFloat.unpack, unpackExponent_packComponents, unpackMantissa_packComponents,
    unpackSign_packComponents, if_neg hinf, ↓reduceIte, dif_neg hne, BitVec.toNat_ofNat,
    Nat.zero_mod, Nat.cast_zero, zero_sub, neg_add_eq_sub]
  rfl

end Components

/-- The bits of a normal mantissa below its leading one. -/
lemma toNat_append_mantissa (h : m.log2 = 52) : (1#1 ++ BitVec.ofNat 52 m).toNat = m := by
  have hm : m ≠ 0 := by
    rintro rfl
    cases h
  have hlow : 2 ^ 52 ≤ m := h ▸ Nat.log2_self_le hm
  have hhigh : m < 2 ^ 53 := (Nat.log2_lt hm).mp (by omega)
  rw [BitVec.toNat_append, BitVec.toNat_ofNat, BitVec.toNat_ofNat, Nat.shiftLeft_eq, Nat.mul_comm,
    ← Nat.two_pow_add_eq_or_of_lt (Nat.mod_lt m (Nat.two_pow_pos 52))]
  omega

/-- A normal number is unpacked as it was. -/
lemma unpack_pack_of_normal (hlog : m.log2 = 52) (hlow : -1074 ≤ e) (he : e ≤ 0) (hm : 0 < m) :
    UnpackedFloat.unpack Format.binary64
      (UnpackedFloat.pack Format.binary64 (.finite .positive m e hm)) =
        .finite .positive m e hm := by
  have hbias : (Format.binary64.exponentBias : ℤ) = 1023 := rfl
  have hbits : (Format.binary64.mantissaBitsWithoutImplicit : ℤ) = 52 := rfl
  have hwidth : 2 ^ Format.binary64.exponentBits = 2048 := rfl
  obtain ⟨biased, hbiased⟩ : ∃ biased, biased = (e + Format.binary64.exponentBias +
      Format.binary64.mantissaBitsWithoutImplicit).toNat := ⟨_, rfl⟩
  have hexponent : (BitVec.ofNat Format.binary64.exponentBits biased).toNat = biased := by
    rw [BitVec.toNat_ofNat, hwidth]
    omega
  have hinf : BitVec.ofNat Format.binary64.exponentBits biased ≠ -1#_ := by
    intro h
    have hnat := congrArg BitVec.toNat h
    rw [hexponent, BitVec.neg_one_eq_allOnes, BitVec.toNat_allOnes, hwidth] at hnat
    omega
  have hzero : BitVec.ofNat Format.binary64.exponentBits biased ≠ 0#_ := by
    intro h
    have hnat := congrArg BitVec.toNat h
    rw [hexponent, BitVec.toNat_ofNat, Nat.zero_mod] at hnat
    omega
  have hvalue : ((BitVec.ofNat Format.binary64.exponentBits biased).toNat : ℤ) -
      (Format.binary64.exponentBias + Format.binary64.mantissaBitsWithoutImplicit) = e := by
    rw [hexponent]
    omega
  have hmantissa :
      (1#1 ++ BitVec.ofNat Format.binary64.mantissaBitsWithoutImplicit m).toNat = m :=
    toNat_append_mantissa hlog
  have hnormal : m.log2 + 1 = Format.binary64.mantissaBits := congrArg (· + 1) hlog
  rw [UnpackedFloat.pack]
  dsimp only
  rw [← hbiased, if_neg (by omega), if_pos hnormal, unpack_normal hinf hzero]
  simp only [hvalue, hmantissa]

/-- One below the normal numbers loses what its mantissa has no room for. -/
lemma AtMost.unpack_of_subnormal (hlow : -1074 ≤ e) (h : m ≤ n * 2 ^ (-e).toNat) :
    AtMost n (UnpackedFloat.unpack Format.binary64
      (packComponents Format.binary64 .positive 0#_ (BitVec.ofNat _ m))) := by
  have hbias : (Format.binary64.exponentBias : ℤ) = 1023 := rfl
  have hbits : (Format.binary64.mantissaBitsWithoutImplicit : ℤ) = 52 := rfl
  by_cases hne : BitVec.ofNat Format.binary64.mantissaBitsWithoutImplicit m = 0#_
  · rw [hne]
    exact trivial
  · rw [unpack_subnormal hne, AtMost, hbias, hbits]
    refine ⟨by decide, by decide, ?_⟩
    calc (BitVec.ofNat Format.binary64.mantissaBitsWithoutImplicit m).toNat ≤ m := by
          rw [BitVec.toNat_ofNat]
          exact Nat.mod_le _ _
      _ ≤ n * 2 ^ (-e).toNat := h
      _ ≤ n * 2 ^ (-(1 - (1023 + 52) : ℤ)).toNat :=
          Nat.mul_le_mul_left n (Nat.pow_le_pow_right (by decide) (by omega))

/-- What is packed is unpacked to no more. -/
lemma AtMost.unpack_pack (h : AtMost n x) :
    AtMost n (UnpackedFloat.unpack Format.binary64 (UnpackedFloat.pack Format.binary64 x)) := by
  match x, h with
  | .zero .positive, _ => exact trivial
  | .zero .negative, _ => exact trivial
  | .finite .positive m e hm, ⟨hlow, he, h⟩ =>
      by_cases hlog : m.log2 = 52
      · rw [unpack_pack_of_normal hlog hlow he hm]
        exact ⟨hlow, he, h⟩
      · have hbias : (Format.binary64.exponentBias : ℤ) = 1023 := rfl
        have hbits : (Format.binary64.mantissaBitsWithoutImplicit : ℤ) = 52 := rfl
        have hwidth : 2 ^ Format.binary64.exponentBits = 2048 := rfl
        have hnormal : m.log2 + 1 ≠ Format.binary64.mantissaBits :=
          fun h => hlog (Nat.succ.inj h)
        rw [UnpackedFloat.pack]
        dsimp only
        rw [if_neg (by omega), if_neg hnormal]
        exact .unpack_of_subnormal hlow h

/-- What is packed is unpacked to no less. -/
lemma AtLeast.unpack_pack (h : AtLeast k x) (hx : AtMost n x) :
    AtLeast k (UnpackedFloat.unpack Format.binary64 (UnpackedFloat.pack Format.binary64 x)) := by
  match x, h, hx with
  | .finite .positive m e hm, ⟨hlog, h⟩, ⟨hlow, he, _⟩ =>
      rw [unpack_pack_of_normal hlog hlow he hm]
      exact ⟨hlog, h⟩

/-! ## Arithmetic -/

/-- A product with a number near a fraction. -/
lemma AtMost.between_mul {d : ℕ} (hd : 0 < d) (hx : Between a b d x) (hy : AtMost n y)
    (hk : k < 2 ^ 53) (h : b * n ≤ k * d) :
    AtMost k (UnpackedFloat.mul Format.binary64 x y) := by
  match x, y, hx, hy with
  | .finite .positive .., .zero _, _, _ => exact trivial
  | .finite .positive m e _, .finite .positive m' e' _, ⟨he, _, hm⟩, ⟨_, he', hm'⟩ =>
      have hsum : (-(e + e')).toNat = (-e).toNat + (-e').toNat := by omega
      refine AtMost.roundWithAccuracy hk (by omega) (Nat.le_of_mul_le_mul_left ?_ hd)
      calc d * (m * m') = d * m * m' := (mul_assoc ..).symm
        _ ≤ b * 2 ^ (-e).toNat * (n * 2 ^ (-e').toNat) := Nat.mul_le_mul hm hm'
        _ = b * n * 2 ^ (-(e + e')).toNat := by rw [hsum, pow_add]; ring
        _ ≤ k * d * 2 ^ (-(e + e')).toNat := Nat.mul_le_mul_right _ h
        _ = d * (k * 2 ^ (-(e + e')).toNat) := by ring

lemma AtLeast.between_mul {d : ℕ} (hd : 0 < d) (hx : Between a b d x) (hy : AtLeast m y)
    (hy' : AtMost n y) (hk : 1 ≤ k) (h : k * d ≤ a * m) {l : ℕ} (hl : l < 2 ^ 53)
    (h' : b * n ≤ l * d) :
    AtLeast k (UnpackedFloat.mul Format.binary64 x y) := by
  match x, y, hx, hy, hy' with
  | .finite .positive mx ex hmx, .finite .positive my ey hmy, ⟨hex, hlow, hhigh⟩, ⟨hlog, hlow'⟩,
      ⟨_, hey, hhigh'⟩ =>
      have hsum : (-(ex + ey)).toNat = (-ex).toNat + (-ey).toNat := by omega
      have hspare : 52 ≤ (mx * my).log2 := by
        refine (Nat.le_log2 (Nat.mul_pos hmx hmy).ne').mpr ?_
        calc 2 ^ 52 = 2 ^ my.log2 := by rw [hlog]
          _ ≤ my := Nat.log2_self_le hmy.ne'
          _ ≤ mx * my := Nat.le_mul_of_pos_left my hmx
      refine AtLeast.roundWithAccuracy hl (by omega) (Nat.le_of_mul_le_mul_left ?_ hd) hspare hk
        (Nat.le_of_mul_le_mul_left ?_ hd)
      · calc d * (mx * my) = d * mx * my := (mul_assoc ..).symm
          _ ≤ b * 2 ^ (-ex).toNat * (n * 2 ^ (-ey).toNat) := Nat.mul_le_mul hhigh hhigh'
          _ = b * n * 2 ^ (-(ex + ey)).toNat := by rw [hsum, pow_add]; ring
          _ ≤ l * d * 2 ^ (-(ex + ey)).toNat := Nat.mul_le_mul_right _ h'
          _ = d * (l * 2 ^ (-(ex + ey)).toNat) := by ring
      · calc d * (k * 2 ^ (-(ex + ey)).toNat) = k * d * 2 ^ (-(ex + ey)).toNat := by ring
          _ ≤ a * m * 2 ^ (-(ex + ey)).toNat := Nat.mul_le_mul_right _ h
          _ = a * 2 ^ (-ex).toNat * (m * 2 ^ (-ey).toNat) := by rw [hsum, pow_add]; ring
          _ ≤ d * mx * my := Nat.mul_le_mul hlow hlow'
          _ = d * (mx * my) := mul_assoc ..

/-- A positive integer is converted by moving its leading bit to the front. -/
lemma ofNat_eq (hpos : 0 < n) (hn : n < 2 ^ 53) :
    UnpackedFloat.ofNat Format.binary64 n =
      UnpackedFloat.roundWithAccuracy Format.binary64 .positive (n * 2 ^ (52 - n.log2))
        (-(52 - n.log2 : ℕ)) .exact := by
  have hgt : compare (n : ℤ) 0 = .gt := by
    rw [compare_gt_iff_gt]
    omega
  have hlog : n.log2 ≤ 52 := Nat.le_of_lt_succ ((Nat.log2_lt hpos.ne').mpr hn)
  have hshift : (0 - max ((n.log2 : ℤ) + 0 - 52) (-1074)).toNat = 52 - n.log2 := by omega
  rw [UnpackedFloat.ofNat, UnpackedFloat.ofInt, UnpackedFloat.normalize, hgt]
  dsimp only
  rw [UnpackedFloat.round, decreaseExponent, Int.toNat_natCast, targetExponent_eq, hshift,
    Nat.shiftLeft_eq, zero_sub]

/-- The conversion of a number does not exceed it. -/
lemma AtMost.ofNat (hn : n < 2 ^ 53) : AtMost n (UnpackedFloat.ofNat Format.binary64 n) := by
  rcases n.eq_zero_or_pos with rfl | hpos
  · exact trivial
  · rw [ofNat_eq hpos hn]
    refine AtMost.roundWithAccuracy hn (by omega) ?_
    rw [neg_neg, Int.toNat_natCast]

/-- The conversion of a number does not fall short of it. -/
lemma AtLeast.ofNat (hpos : 0 < n) (hn : n < 2 ^ 53) :
    AtLeast n (UnpackedFloat.ofNat Format.binary64 n) := by
  have hlog : n.log2 ≤ 52 := Nat.le_of_lt_succ ((Nat.log2_lt hpos.ne').mpr hn)
  have hspare : 52 ≤ (n * 2 ^ (52 - n.log2)).log2 := by
    refine (Nat.le_log2 (by positivity)).mpr ?_
    calc 2 ^ 52 = 2 ^ n.log2 * 2 ^ (52 - n.log2) := by rw [← pow_add, Nat.add_sub_cancel' hlog]
      _ ≤ n * 2 ^ (52 - n.log2) := Nat.mul_le_mul_right _ (Nat.log2_self_le hpos.ne')
  rw [ofNat_eq hpos hn]
  refine AtLeast.roundWithAccuracy hn (by omega) ?_ hspare hpos ?_
  · rw [neg_neg, Int.toNat_natCast]
  · rw [neg_neg, Int.toNat_natCast]

/-! ## Doubles -/

/-- An integer is not converted to more than it is. -/
theorem Bounded.toFloat {n : UInt64} (hn : n.toNat < 2 ^ 53) : Bounded n.toNat n.toFloat :=
  (AtMost.ofNat hn).unpack_pack

/-- An integer is not converted to less than it is. -/
theorem Reaches.toFloat {n : UInt64} (hpos : 0 < n.toNat) (hn : n.toNat < 2 ^ 53) :
    Reaches n.toNat n.toFloat :=
  (AtLeast.ofNat hpos hn).unpack_pack (AtMost.ofNat hn)

section Near

variable {x : Float} {n : UInt64} {d : ℕ}

/-- A product that is at most an integer before it is rounded. -/
theorem Near.bounded_mul (hx : Near a b d x) (hd : 0 < d) (hn : n.toNat < 2 ^ 53) (hk : k < 2 ^ 53)
    (h : b * n.toNat ≤ k * d) : Bounded k (x * n.toFloat) :=
  (AtMost.between_mul hd hx (Bounded.toFloat hn) hk h).unpack_pack

/-- A product that is at least an integer before it is rounded. -/
theorem Near.reaches_mul (hx : Near a b d x) (hd : 0 < d) (hn : n.toNat < 2 ^ 53) (hk : 1 ≤ k)
    (h : k * d ≤ a * n.toNat) (hb : b ≤ d) : Reaches k (x * n.toFloat) := by
  have hpos : 0 < n.toNat := by
    by_contra h0
    have hzero : n.toNat = 0 := by omega
    rw [hzero, mul_zero] at h
    exact absurd (Nat.mul_pos hk hd) (by omega)
  have hhigh : b * n.toNat ≤ n.toNat * d := by
    rw [mul_comm]
    exact Nat.mul_le_mul_left _ hb
  exact (AtLeast.between_mul hd hx (Reaches.toFloat hpos hn) (Bounded.toFloat hn) hk h hn
    hhigh).unpack_pack (AtMost.between_mul hd hx (Bounded.toFloat hn) hn hhigh)

end Near

end Binary64
