import IngressBench.Decimal.Binary
import Mathlib

/-!
The exact values of floating-point numbers. A finite number is its mantissa times a power of two
(`Binary.value`); finite numbers are compared by these values (`Binary.lt_iff_value`,
`Binary.le_iff_value`), and cut to whole numbers by them (`Binary.truncated_of_nonneg`).
-/
namespace IngressBench

open Float.Model (UnpackedFloat Format)
open Float.Model.UnpackedFloat (Sign)

theorem twoTo_eq (n : Nat) : twoTo n = 2 ^ n :=
  rfl

namespace Binary

/-- The exact value of an unpacked number. -/
def ofUnpacked? : UnpackedFloat → Option Binary
  | .infinity _ | .notANumber => none
  | .zero s => some ⟨s == .negative, 0, -1074⟩
  | .finite s m e _ => some ⟨s == .negative, m, e⟩

/-! ### Bits -/

variable (b : BitVec Format.binary64.numBits)

theorem toNat_unpackExponent :
    (UnpackedFloat.unpackExponent b).toNat = b.toNat / 2 ^ 52 % 2 ^ 11 := by
  simp [UnpackedFloat.unpackExponent, Nat.shiftRight_eq_div_pow]

theorem toNat_unpackMantissa : (UnpackedFloat.unpackMantissa b).toNat = b.toNat % 2 ^ 52 := by
  simp [UnpackedFloat.unpackMantissa]

theorem toNat_unpackSign : (UnpackedFloat.unpackSign b).toNat = b.toNat / 2 ^ 63 % 2 := by
  simp [UnpackedFloat.unpackSign, Nat.shiftRight_eq_div_pow]

theorem toNat_unpackExponent_eq_max_iff :
    (UnpackedFloat.unpackExponent b).toNat = 2047 ↔ UnpackedFloat.unpackExponent b = -1#_ := by
  rw [← BitVec.toNat_inj]
  rfl

theorem toNat_unpackExponent_eq_zero_iff :
    (UnpackedFloat.unpackExponent b).toNat = 0 ↔ UnpackedFloat.unpackExponent b = 0#_ := by
  rw [← BitVec.toNat_inj]
  rfl

theorem ofBitVec_unpackSign :
    (Sign.ofBitVec (UnpackedFloat.unpackSign b) == .negative) =
      ((UnpackedFloat.unpackSign b).toNat == 1) := by
  generalize UnpackedFloat.unpackSign b = sign
  revert sign
  decide

/-- What is unpacked, by the three parts of the bits. -/
theorem ofUnpacked?_unpack : ofUnpacked? (UnpackedFloat.unpack Format.binary64 b) =
    if (UnpackedFloat.unpackExponent b).toNat = 2047 then none
    else if (UnpackedFloat.unpackExponent b).toNat = 0 then
      some ⟨(UnpackedFloat.unpackSign b).toNat == 1, (UnpackedFloat.unpackMantissa b).toNat, -1074⟩
    else some ⟨(UnpackedFloat.unpackSign b).toNat == 1,
      2 ^ 52 + (UnpackedFloat.unpackMantissa b).toNat,
      ((UnpackedFloat.unpackExponent b).toNat : Int) - 1075⟩ := by
  rw [← ofBitVec_unpackSign]
  unfold UnpackedFloat.unpack
  dsimp only
  split
  · rename_i hmax
    rw [if_pos ((toNat_unpackExponent_eq_max_iff b).mpr hmax)]
    split <;> rfl
  rename_i hmax
  rw [if_neg (mt (toNat_unpackExponent_eq_max_iff b).mp hmax)]
  split
  · rename_i hzero
    rw [if_pos ((toNat_unpackExponent_eq_zero_iff b).mpr hzero)]
    split
    · rename_i hmantissa
      rw [hmantissa]
      rfl
    · rw [hzero]
      rfl
  · rename_i hzero
    rw [if_neg (mt (toNat_unpackExponent_eq_zero_iff b).mp hzero)]
    have hfull : (1#1 ++ UnpackedFloat.unpackMantissa b).toNat =
        2 ^ 52 + (UnpackedFloat.unpackMantissa b).toNat := by
      rw [BitVec.toNat_append, ← Nat.shiftLeft_add_eq_or_of_lt (BitVec.isLt _)]
      rfl
    rw [← hfull]
    rfl

/-- Reading the bits is unpacking them. -/
theorem ofFloat?_eq (x : Float) : ofFloat? x = ofUnpacked? x.toModel.unpack := by
  have hsign : x.toModel.toBits.toBitVec.toNat / 2 ^ 63 % 2 =
      x.toModel.toBits.toBitVec.toNat / 2 ^ 63 :=
    Nat.mod_eq_of_lt (Nat.div_lt_of_lt_mul x.toModel.toBits.toBitVec.isLt)
  unfold Float.Model.unpack
  rw [ofUnpacked?_unpack, toNat_unpackExponent, toNat_unpackMantissa, toNat_unpackSign, hsign]
  rfl

/-! ### Values -/

/-- The exact value without its sign. -/
def magnitude (b : Binary) : ℚ :=
  b.mantissa * 2 ^ b.exponent

/-- The exact value. -/
def value (b : Binary) : ℚ :=
  if b.negative then -b.magnitude else b.magnitude

/-- The mantissa has fifty-three bits, or fewer at the least exponent. -/
structure Canonical (b : Binary) : Prop where
  mantissa_lt : b.mantissa < 2 ^ 53
  exponent_le : b.exponent ≤ 971
  least : -1074 ≤ b.exponent
  full : 2 ^ 52 ≤ b.mantissa ∨ b.exponent = -1074

variable {x y : Float} {a c : Binary}

theorem canonical_of_ofFloat? (h : ofFloat? x = some a) : a.Canonical := by
  have hfield : x.toBits.toNat / twoTo 52 % twoTo 11 < 2048 := Nat.mod_lt _ (twoTo_pos 11)
  have hfraction : x.toBits.toNat % twoTo 52 < 2 ^ 52 := Nat.mod_lt _ (twoTo_pos 52)
  unfold ofFloat? at h
  dsimp only at h
  split at h
  · cases h
  split at h
  · cases h
    exact ⟨by dsimp only; omega, by dsimp only; omega, le_rfl, .inr rfl⟩
  · cases h
    exact ⟨by dsimp only [twoTo_eq] at *; omega, by dsimp only; omega, by dsimp only; omega,
      .inl (Nat.le_add_right _ _)⟩

theorem magnitude_lt_of_exponent_lt (ha : a.Canonical) (hc : c.Canonical)
    (h : a.exponent < c.exponent) : a.magnitude < c.magnitude := by
  have hfull : (2 ^ 52 : ℚ) ≤ c.mantissa := by
    exact_mod_cast hc.full.resolve_right (by have := ha.least; omega)
  have hlt : (a.mantissa : ℚ) < 2 ^ 53 := by exact_mod_cast ha.mantissa_lt
  calc a.magnitude < 2 ^ 53 * 2 ^ a.exponent := mul_lt_mul_of_pos_right hlt (by positivity)
    _ = 2 ^ 52 * 2 ^ (a.exponent + 1) := by rw [zpow_add_one₀ (by norm_num)]; ring
    _ ≤ 2 ^ 52 * 2 ^ c.exponent := by
        gcongr
        · norm_num
        · exact h
    _ ≤ c.magnitude := mul_le_mul_of_nonneg_right hfull (by positivity)

/-- Canonical numbers are compared by their exponents first. -/
theorem compare_magnitude (ha : a.Canonical) (hc : c.Canonical) :
    (compare a.exponent c.exponent).then (compare a.mantissa c.mantissa) =
      cmp a.magnitude c.magnitude := by
  rcases lt_trichotomy a.exponent c.exponent with h | h | h
  · rw [compare_lt_iff_lt.mpr h, (cmp_eq_lt_iff _ _).mpr (magnitude_lt_of_exponent_lt ha hc h)]
    rfl
  · rw [magnitude, magnitude, h, cmp_mul_pos_right (by positivity), Nat.strictMono_cast.cmp_map_eq,
      compare_eq_iff_eq.mpr rfl, cmp_eq_compare]
    rfl
  · rw [compare_gt_iff_gt.mpr h, (cmp_eq_gt_iff _ _).mpr (magnitude_lt_of_exponent_lt hc ha h)]
    rfl

theorem magnitude_pos (h : 0 < a.mantissa) : 0 < a.magnitude :=
  mul_pos (Nat.cast_pos.mpr h) (by positivity)

theorem magnitude_nonneg (a : Binary) : 0 ≤ a.magnitude :=
  mul_nonneg (Nat.cast_nonneg _) (by positivity)

theorem value_of_mantissa_eq_zero (h : a.mantissa = 0) : a.value = 0 := by
  simp [value, magnitude, h]

theorem value_of_positive (h : a.negative = false) : a.value = a.magnitude := by
  simp [value, h]

theorem value_of_negative (h : a.negative = true) : a.value = -a.magnitude := by
  simp [value, h]

/-- The two kinds of finite numbers. -/
theorem ofUnpacked?_eq_some {u : UnpackedFloat} (h : ofUnpacked? u = some a) :
    (∃ s, u = .zero s ∧ a.value = 0) ∨
      (∃ hm : 0 < a.mantissa, u = .finite .positive a.mantissa a.exponent hm ∧
        a.value = a.magnitude) ∨
      ∃ hm : 0 < a.mantissa, u = .finite .negative a.mantissa a.exponent hm ∧
        a.value = -a.magnitude := by
  cases u with
  | infinity s => cases h
  | notANumber => cases h
  | zero s =>
    cases h
    exact .inl ⟨s, rfl, value_of_mantissa_eq_zero rfl⟩
  | finite s m e hm =>
    cases h
    cases s with
    | positive => exact .inr (.inl ⟨hm, rfl, value_of_positive rfl⟩)
    | negative => exact .inr (.inr ⟨hm, rfl, value_of_negative rfl⟩)

/-- Unpacked numbers are compared by their exact values. -/
theorem compare_unpacked {u v : UnpackedFloat} (hu : ofUnpacked? u = some a)
    (hv : ofUnpacked? v = some c) (ha : a.Canonical) (hc : c.Canonical) :
    UnpackedFloat.compare u v = some (cmp a.value c.value) := by
  have hneg : cmp (-a.magnitude) (-c.magnitude) = cmp c.magnitude a.magnitude :=
    StrictAnti.cmp_map_eq (fun _ _ => neg_lt_neg) a.magnitude c.magnitude
  rcases ofUnpacked?_eq_some hu with ⟨s, rfl, hx⟩ | ⟨hm, rfl, hx⟩ | ⟨hm, rfl, hx⟩ <;>
    rcases ofUnpacked?_eq_some hv with ⟨t, rfl, hy⟩ | ⟨hn, rfl, hy⟩ | ⟨hn, rfl, hy⟩ <;>
    rw [hx, hy]
  · rw [cmp_self_eq_eq]
    rfl
  · rw [(cmp_eq_lt_iff _ _).mpr (magnitude_pos hn)]
    rfl
  · rw [(cmp_eq_gt_iff _ _).mpr (neg_lt_zero.mpr (magnitude_pos hn))]
    rfl
  · rw [(cmp_eq_gt_iff _ _).mpr (magnitude_pos hm)]
    rfl
  · rw [← compare_magnitude ha hc]
    rfl
  · rw [(cmp_eq_gt_iff _ _).mpr ((neg_lt_zero.mpr (magnitude_pos hn)).trans (magnitude_pos hm))]
    rfl
  · rw [(cmp_eq_lt_iff _ _).mpr (neg_lt_zero.mpr (magnitude_pos hm))]
    rfl
  · rw [(cmp_eq_lt_iff _ _).mpr ((neg_lt_zero.mpr (magnitude_pos hm)).trans (magnitude_pos hn))]
    rfl
  · rw [hneg, ← cmp_swap, ← compare_magnitude ha hc]
    rfl

/-- **Finite floating-point numbers are compared by their exact values.** -/
theorem compare_toModel (hx : ofFloat? x = some a) (hy : ofFloat? y = some c) :
    x.toModel.compare y.toModel = some (cmp a.value c.value) :=
  compare_unpacked (ofFloat?_eq x ▸ hx) (ofFloat?_eq y ▸ hy) (canonical_of_ofFloat? hx)
    (canonical_of_ofFloat? hy)

theorem lt_iff_compare : x < y ↔ x.toModel.compare y.toModel = some .lt := by
  have hlt : x < y ↔ (x.toModel.compare y.toModel == some .lt) = true := decide_eq_true_iff
  rw [hlt, beq_iff_eq]

theorem le_iff_compare : x ≤ y ↔ (x.toModel.compare y.toModel).any (·.isLE) = true :=
  decide_eq_true_iff

theorem lt_iff_value (hx : ofFloat? x = some a) (hy : ofFloat? y = some c) :
    x < y ↔ a.value < c.value := by
  rw [lt_iff_compare, compare_toModel hx hy, Option.some_inj, cmp_eq_lt_iff]

theorem le_iff_value (hx : ofFloat? x = some a) (hy : ofFloat? y = some c) :
    x ≤ y ↔ a.value ≤ c.value := by
  rw [le_iff_compare, compare_toModel hx hy, Option.any_some, cmp_eq_compare]
  exact Ordering.isLE_iff_ne_gt.trans (not_congr compare_gt_iff_gt |>.trans not_lt)

theorem pos_iff_value (hx : ofFloat? x = some a) : 0 < x ↔ 0 < a.value := by
  have hzero : ofFloat? 0 = some ⟨false, 0, -1074⟩ := by decide
  rw [lt_iff_value hzero hx, value_of_mantissa_eq_zero rfl]

theorem ofFloat?_one : ofFloat? 1 = some ⟨false, 2 ^ 52, -52⟩ := by decide

theorem value_one : (⟨false, 2 ^ 52, -52⟩ : Binary).value = 1 := by
  rw [value_of_positive rfl, magnitude]
  norm_num

theorem one_le_iff_value (hx : ofFloat? x = some a) : 1 ≤ x ↔ 1 ≤ a.value := by
  rw [le_iff_value ofFloat?_one hx, value_one]

theorem lt_one_iff_value (hx : ofFloat? x = some a) : x < 1 ↔ a.value < 1 := by
  rw [lt_iff_value hx ofFloat?_one, value_one]

/-! ### Numbers without a finite value -/

theorem isFinite_iff : x.isFinite = true ↔ ∃ a, ofFloat? x = some a := by
  rw [ofFloat?_eq]
  show x.toModel.unpack.isFinite = true ↔ _
  cases x.toModel.unpack <;> simp [UnpackedFloat.isFinite, ofUnpacked?]

/-- Nothing is above the one infinity. -/
theorem compare_infinity_ne_lt (u : UnpackedFloat) :
    UnpackedFloat.compare (.infinity .positive) u ≠ some .lt := by
  rcases u with (_ | _) | _ | _ | _ <;> exact nofun

/-- Nothing is below the other. -/
theorem compare_ne_lt_infinity (u : UnpackedFloat) :
    UnpackedFloat.compare u (.infinity .negative) ≠ some .lt := by
  rcases u with (_ | _) | _ | _ | (_ | _) <;> exact nofun

/-- A number between two others is finite. -/
theorem isFinite_of_lt_of_lt {z : Float} (hlow : z < x) (hhigh : x < y) : x.isFinite = true := by
  rw [lt_iff_compare] at hlow hhigh
  unfold Float.Model.compare at hlow hhigh
  show x.toModel.unpack.isFinite = true
  cases hx : x.toModel.unpack with
  | zero s => rfl
  | finite s m e hm => rfl
  | notANumber =>
    rw [hx] at hhigh
    cases hhigh
  | infinity s =>
    rw [hx] at hlow hhigh
    cases s with
    | positive => exact absurd hhigh (compare_infinity_ne_lt _)
    | negative => exact absurd hlow (compare_ne_lt_infinity _)

/-- A number above zero that is not finite is the infinity above all others. -/
theorem isNaN_of_pos (h : 0 < x) : x.isNaN = false := by
  rw [lt_iff_compare] at h
  unfold Float.Model.compare at h
  show x.toModel.unpack.isNaN = false
  cases hx : x.toModel.unpack with
  | notANumber =>
    rw [hx] at h
    cases h
  | _ => rfl

/-! ### Whole parts -/

/-- The quotient is the magnitude. -/
theorem quotient_eq (b : Binary) : (b.quotient.1 : ℚ) / b.quotient.2 = b.magnitude := by
  unfold quotient magnitude
  split
  · rename_i h
    obtain ⟨n, hn⟩ := Int.eq_ofNat_of_zero_le h
    simp [hn, twoTo_eq]
  · rename_i h
    obtain ⟨n, hn⟩ : ∃ n : Nat, b.exponent = -n := ⟨(-b.exponent).toNat, by omega⟩
    simp [hn, twoTo_eq, div_eq_mul_inv]

/-- Numbers are cut toward zero. -/
theorem truncated_eq (b : Binary) :
    b.truncated = if b.negative then -⌊b.magnitude⌋ else ⌊b.magnitude⌋ := by
  have hfloor : ((b.quotient.1 / b.quotient.2 : Nat) : Int) = ⌊b.magnitude⌋ := by
    have hdiv := Rat.floor_intCast_div_natCast (b.quotient.1 : ℤ) b.quotient.2
    rw [Int.cast_natCast, quotient_eq] at hdiv
    rw [hdiv, Int.natCast_ediv]
  have htruncated : b.truncated = if b.negative then -((b.quotient.1 / b.quotient.2 : Nat) : Int)
      else ((b.quotient.1 / b.quotient.2 : Nat) : Int) := rfl
  rw [htruncated, hfloor]

theorem truncated_of_nonneg (h : 0 ≤ a.value) : a.truncated = ⌊a.value⌋ := by
  rw [truncated_eq]
  cases hneg : a.negative with
  | false => rw [value_of_positive hneg, if_neg Bool.false_ne_true]
  | true =>
    rw [value_of_negative hneg] at h
    have hzero : a.magnitude = 0 := le_antisymm (neg_nonneg.mp h) a.magnitude_nonneg
    rw [value_of_negative hneg, hzero]
    simp

end Binary
end IngressBench
