import IngressBench.Proofs.Decimal.Binary

/-!
Rounding to the nearest floating-point number. No number is nearer to an exact value than the one that
it is rounded to, and of two that are as near it is the one with the even mantissa; what is half a step
above the largest number, or more, is rounded to the infinity (`Binary.Rounds`). Quotients are rounded
in this way (`Binary.nearest_rounds`), and so are decimal numbers (`Binary.nearestDecimal_rounds`).

The argument is about the grid of one exponent (`Binary.Fits`): the mantissa is the nearest point of the
grid, and where another number is off the grid, a point of the grid is nearer than it.
-/
namespace IngressBench

open Float.Model (UnpackedFloat Format)
open Float.Model.UnpackedFloat (Sign)

namespace Binary

variable {a : Binary}

/-! ### Packing -/

theorem toNat_toBitVec (s : Sign) : (s.toBitVec.toNat == 1) = (s == .negative) := by
  cases s <;> rfl

/-- What is unpacked from three parts. -/
theorem ofUnpacked?_packComponents (s : Sign) (e : BitVec Format.binary64.exponentBits)
    (m : BitVec Format.binary64.mantissaBitsWithoutImplicit) :
    ofUnpacked? (UnpackedFloat.unpack Format.binary64
      (UnpackedFloat.packComponents Format.binary64 s e m)) =
    if e.toNat = 2047 then none
    else if e.toNat = 0 then some ⟨s == .negative, m.toNat, -1074⟩
    else some ⟨s == .negative, 2 ^ 52 + m.toNat, (e.toNat : Int) - 1075⟩ := by
  rw [ofUnpacked?_unpack, UnpackedFloat.unpackExponent_packComponents,
    UnpackedFloat.unpackMantissa_packComponents, UnpackedFloat.unpackSign_packComponents,
    toNat_toBitVec]

theorem log2_eq_iff {m : Nat} (hpos : 0 < m) (hm : m < 2 ^ 53) : m.log2 = 52 ↔ 2 ^ 52 ≤ m := by
  have hupper : m.log2 < 53 := (Nat.log2_lt hpos.ne').mpr hm
  rw [← Nat.le_log2 hpos.ne']
  omega

/-- A canonical number is the same number after it was packed. -/
theorem ofUnpacked?_pack {u : UnpackedFloat} (h : ofUnpacked? u = some a) (ha : a.Canonical) :
    ofUnpacked? (UnpackedFloat.unpack Format.binary64 (UnpackedFloat.pack Format.binary64 u)) =
      some a := by
  cases u with
  | infinity s => cases h
  | notANumber => cases h
  | zero s =>
    cases h
    exact ofUnpacked?_packComponents s 0 0
  | finite s m e hm =>
    cases h
    have hexponent := ha.exponent_le
    have hleast := ha.least
    have hmantissa := ha.mantissa_lt
    have hfull := ha.full
    dsimp only at hexponent hleast hmantissa hfull
    unfold UnpackedFloat.pack
    dsimp only
    have hbiased : (e + Format.binary64.exponentBias +
        Format.binary64.mantissaBitsWithoutImplicit).toNat = (e + 1075).toNat :=
      congrArg Int.toNat (Int.add_assoc e 1023 52)
    have hrange : (e + 1075).toNat + 1 < 2 ^ 11 := by omega
    rw [hbiased, if_neg (Nat.not_le.mpr hrange)]
    have hlog : m.log2 + 1 = Format.binary64.mantissaBits ↔ 2 ^ 52 ≤ m :=
      (Nat.succ_inj (a := m.log2) (b := 52)).trans (log2_eq_iff hm hmantissa)
    by_cases hnormal : 2 ^ 52 ≤ m
    · rw [if_pos (hlog.mpr hnormal), ofUnpacked?_packComponents]
      have hfield : (BitVec.ofNat Format.binary64.exponentBits (e + 1075).toNat).toNat =
          (e + 1075).toNat := Nat.mod_eq_of_lt (Nat.lt_of_succ_lt hrange)
      have hfraction : (BitVec.ofNat Format.binary64.mantissaBitsWithoutImplicit m).toNat =
          m - 2 ^ 52 := by
        show m % 2 ^ 52 = m - 2 ^ 52
        omega
      rw [hfield, hfraction, if_neg (by omega), if_neg (by omega)]
      simp only [Option.some_inj, mk.injEq, true_and]
      omega
    · rw [if_neg (mt hlog.mp hnormal), ofUnpacked?_packComponents]
      have hfraction : (BitVec.ofNat Format.binary64.mantissaBitsWithoutImplicit m).toNat = m :=
        Nat.mod_eq_of_lt (Nat.lt_of_not_le hnormal)
      rw [hfraction, hfull.resolve_left hnormal]
      rfl

theorem ofFloat?_ofBits {u : UInt64}
    (h : ofUnpacked? (UnpackedFloat.unpack Format.binary64 u.toBitVec) = some a)
    (ha : a.Canonical) : ofFloat? (Float.ofBits u) = some a :=
  (ofFloat?_eq _).trans (ofUnpacked?_pack h ha)

theorem packBits_of_lt {m : Nat} (e : Int) (hm : m < 2 ^ 52) : packBits m e = m :=
  if_pos hm

theorem packBits_of_le {m : Nat} {e : Int} (hm : 2 ^ 52 ≤ m) (he : e ≤ 971) :
    packBits m e = (e + 1075).toNat * 2 ^ 52 + (m - 2 ^ 52) :=
  (if_neg (Nat.not_lt.mpr hm)).trans (if_neg (not_lt.mpr he))

/-- The bits of a canonical number are the bits of its mantissa and exponent. -/
theorem ofFloat?_packBits {m : Nat} {e : Int} (ha : (⟨false, m, e⟩ : Binary).Canonical) :
    ofFloat? (Float.ofBits (UInt64.ofNat (packBits m e))) = some ⟨false, m, e⟩ := by
  have hexponent := ha.exponent_le
  have hleast := ha.least
  have hmantissa := ha.mantissa_lt
  have hfull := ha.full
  dsimp only at hexponent hleast hmantissa hfull
  refine ofFloat?_ofBits ?_ ha
  have hbits : (UInt64.ofNat (packBits m e)).toBitVec.toNat = packBits m e % 2 ^ 64 := rfl
  rw [ofUnpacked?_unpack, toNat_unpackExponent, toNat_unpackMantissa, toNat_unpackSign, hbits]
  by_cases hnormal : m < 2 ^ 52
  · rw [packBits_of_lt e hnormal, if_neg (by omega), if_pos (by omega)]
    simp only [Option.some_inj, mk.injEq, beq_eq_false_iff_ne]
    omega
  · rw [packBits_of_le (Nat.le_of_not_lt hnormal) hexponent, if_neg (by omega), if_neg (by omega)]
    simp only [Option.some_inj, mk.injEq, beq_eq_false_iff_ne]
    omega

/-! ### The nearest number -/

/-- Half a step above the largest number. -/
def limit : ℚ :=
  2 ^ 1024 - 2 ^ 970

/-- A number that no other is nearer to; one that is as near to another has an even mantissa. What is
too large for every number is rounded to the infinity. -/
inductive Rounds (q : ℚ) (x : Float) : Prop
  | finite {a : Binary} (hx : ofFloat? x = some a) (hrange : q < limit)
      (hnear : ∀ y c, ofFloat? y = some c → |q - a.value| ≤ |q - c.value|)
      (heven : ∀ y c, ofFloat? y = some c → |q - c.value| = |q - a.value| →
        c.value = a.value ∨ 2 ∣ a.mantissa)
  | infinite (hx : x = 1 / 0) (hrange : limit ≤ q)

variable {q : ℚ} {m : Nat} {e : Int} {c : Binary}

/-- The mantissa of a number on the grid of an exponent, rounded to the nearest. -/
structure Fits (q : ℚ) (m : Nat) (e : Int) : Prop where
  near : |q / 2 ^ e - m| ≤ 1 / 2
  even : |q / 2 ^ e - m| = 1 / 2 → 2 ∣ m
  upper : q / 2 ^ e < 2 ^ 53
  lower : 2 ^ 52 ≤ q / 2 ^ e ∨ e = -1074
  least : -1074 ≤ e

theorem dist_grid (q : ℚ) (e k : ℤ) : |q - k * 2 ^ e| = |q / 2 ^ e - k| * 2 ^ e := by
  have hpos : (0 : ℚ) < 2 ^ e := by positivity
  rw [← abs_of_pos hpos, ← abs_mul, abs_of_pos hpos, sub_mul, div_mul_cancel₀ _ hpos.ne']

/-- No point of the grid is nearer. -/
theorem Fits.le_grid (h : Fits q m e) (k : ℤ) : |q - (m : ℤ) * 2 ^ e| ≤ |q - k * 2 ^ e| ∧
    (|q - k * 2 ^ e| = |q - (m : ℤ) * 2 ^ e| → k = m ∨ 2 ∣ m) := by
  have hpos : (0 : ℚ) < 2 ^ e := by positivity
  rw [dist_grid, dist_grid]
  by_cases hk : k = m
  · rw [hk]
    exact ⟨le_rfl, fun _ => .inl rfl⟩
  have hapart : (1 : ℚ) ≤ |(k : ℚ) - m| := by exact_mod_cast Int.one_le_abs (sub_ne_zero.mpr hk)
  have hsum : |(k : ℚ) - m| ≤ |q / 2 ^ e - k| + |q / 2 ^ e - m| := by
    rw [abs_sub_comm (q / 2 ^ e) (k : ℚ)]
    exact abs_sub_le _ _ _
  have hnear := h.near
  have hfar : |q / 2 ^ e - m| ≤ |q / 2 ^ e - k| := by linarith
  refine ⟨mul_le_mul_of_nonneg_right (by exact_mod_cast hfar) hpos.le, fun heq => .inr (h.even ?_)⟩
  have heq : |q / 2 ^ e - k| = |q / 2 ^ e - m| := by
    exact_mod_cast mul_right_cancel₀ hpos.ne' heq
  linarith

/-- Every number has a point of the grid that is as near, or nearer. -/
theorem Fits.exists_grid (h : Fits q m e) (hq : 0 ≤ q) (hc : c.Canonical) :
    ∃ k : ℤ, |q - k * 2 ^ e| ≤ |q - c.value| ∧
      (|q - c.value| = |q - k * 2 ^ e| → c.value = k * 2 ^ e) := by
  rcases le_or_gt c.value 0 with hneg | hpos
  · refine ⟨0, ?_⟩
    rw [Int.cast_zero, zero_mul, sub_zero, abs_of_nonneg hq, abs_of_nonneg (by linarith)]
    exact ⟨by linarith, fun heq => by linarith⟩
  have hvalue : c.value = c.mantissa * 2 ^ c.exponent := by
    cases hsign : c.negative with
    | false => rw [value_of_positive hsign, magnitude]
    | true =>
      rw [value_of_negative hsign] at hpos
      linarith [c.magnitude_nonneg]
  rcases le_or_gt e c.exponent with hcoarse | hfine
  · -- what has a larger exponent is on the grid itself
    obtain ⟨j, hj⟩ := Int.eq_ofNat_of_zero_le (sub_nonneg.mpr hcoarse)
    have hgrid : c.value = ((c.mantissa * 2 ^ j : ℕ) : ℤ) * 2 ^ e := by
      have hexponent : c.exponent = j + e := by omega
      rw [hvalue, hexponent, zpow_add₀ (by norm_num)]
      push_cast
      rw [zpow_natCast]
      ring
    exact ⟨_, by rw [← hgrid], fun _ => hgrid⟩
  · -- what has a smaller one is below the least full mantissa, and the number above it
    have hstep : (0 : ℚ) < 2 ^ e := by positivity
    have hlower : 2 ^ 52 * 2 ^ e ≤ q := by
      have hfull := h.lower.resolve_right (by have := hc.least; omega)
      exact (le_div_iff₀ hstep).mp hfull
    have hbelow : c.value < 2 ^ 52 * 2 ^ e := by
      have hlt : (c.mantissa : ℚ) < 2 ^ 53 := by exact_mod_cast hc.mantissa_lt
      calc c.value < 2 ^ 53 * 2 ^ c.exponent := by
            rw [hvalue]
            exact mul_lt_mul_of_pos_right hlt (by positivity)
        _ = 2 ^ 52 * 2 ^ (c.exponent + 1) := by rw [zpow_add_one₀ (by norm_num)]; ring
        _ ≤ 2 ^ 52 * 2 ^ e := by
            gcongr
            · norm_num
            · exact hfine
    refine ⟨2 ^ 52, ?_⟩
    push_cast
    rw [abs_of_nonneg (by linarith), abs_of_nonneg (by linarith)]
    exact ⟨by linarith, fun heq => by linarith⟩

/-- No number is nearer than the one with the mantissa that fits. -/
theorem Fits.le_canonical (h : Fits q m e) (hq : 0 ≤ q) (hc : c.Canonical) :
    |q - m * 2 ^ e| ≤ |q - c.value| ∧
      (|q - c.value| = |q - m * 2 ^ e| → c.value = m * 2 ^ e ∨ 2 ∣ m) := by
  obtain ⟨k, hk, hkeq⟩ := h.exists_grid hq hc
  obtain ⟨hm, hmeq⟩ := h.le_grid k
  rw [Int.cast_natCast] at hm hmeq
  refine ⟨hm.trans hk, fun heq => ?_⟩
  have hgrid : |q - k * 2 ^ e| = |q - m * 2 ^ e| := le_antisymm (hk.trans heq.le) hm
  rcases hmeq hgrid with hkm | heven
  · rw [hkeq (heq.trans hgrid.symm), hkm]
    exact .inl (by push_cast; rfl)
  · exact .inr heven

/-! ### Rounding a quotient -/

theorem div_eq_add_mod (n : Nat) {d : Nat} (hd : 0 < d) :
    (n : ℚ) / d = (n / d : ℕ) + ((n % d : ℕ) : ℚ) / d := by
  have hpos : (0 : ℚ) < d := Nat.cast_pos.mpr hd
  rw [div_eq_iff hpos.ne', add_mul, div_mul_cancel₀ _ hpos.ne']
  exact_mod_cast (Nat.div_add_mod' n d).symm

theorem roundHalfEven_near (n : Nat) {d : Nat} (hd : 0 < d) :
    |(n : ℚ) / d - roundHalfEven n d| ≤ 1 / 2 ∧
      (|(n : ℚ) / d - roundHalfEven n d| = 1 / 2 → 2 ∣ roundHalfEven n d) := by
  have hpos : (0 : ℚ) < d := Nat.cast_pos.mpr hd
  have hrest : (0 : ℚ) ≤ ((n % d : ℕ) : ℚ) / d := by positivity
  have hlast : ((n % d : ℕ) : ℚ) / d < 1 := by
    rw [div_lt_one hpos]
    exact_mod_cast Nat.mod_lt n hd
  rw [div_eq_add_mod n hd]
  unfold roundHalfEven
  dsimp only
  split
  · rename_i hbelow
    have hhalf : ((n % d : ℕ) : ℚ) / d < 1 / 2 := by
      rw [div_lt_div_iff₀ hpos (by norm_num)]
      exact_mod_cast (by omega : n % d * 2 < 1 * d)
    rw [add_sub_cancel_left, abs_of_nonneg hrest]
    exact ⟨hhalf.le, fun heq => absurd heq hhalf.ne⟩
  split
  · rename_i habove
    have hhalf : 1 / 2 < ((n % d : ℕ) : ℚ) / d := by
      rw [div_lt_div_iff₀ (by norm_num) hpos]
      exact_mod_cast (by omega : 1 * d < n % d * 2)
    rw [Nat.cast_add, Nat.cast_one, add_sub_add_left_eq_sub, abs_of_neg (by linarith)]
    exact ⟨by linarith, fun heq => by linarith⟩
  have htie : ((n % d : ℕ) : ℚ) / d = 1 / 2 := by
    rw [div_eq_div_iff hpos.ne' (by norm_num)]
    exact_mod_cast (by omega : n % d * 2 = 1 * d)
  rw [htie]
  split
  · rename_i heven
    rw [add_sub_cancel_left]
    exact ⟨by norm_num, fun _ => Nat.dvd_of_mod_eq_zero heven⟩
  · rename_i hodd
    rw [Nat.cast_add, Nat.cast_one, add_sub_add_left_eq_sub]
    exact ⟨by norm_num, fun _ => by omega⟩

/-- A quotient by a power of two, as a quotient of two naturals. -/
def scaled (n d : Nat) (e : Int) : Nat × Nat :=
  if e ≥ 0 then (n, d * twoTo e.toNat) else (n * twoTo (-e).toNat, d)

theorem scaled_pos (n : Nat) {d : Nat} (hd : 0 < d) (e : Int) : 0 < (scaled n d e).2 := by
  unfold scaled
  split
  · exact Nat.mul_pos hd (twoTo_pos _)
  · exact hd

theorem scaled_eq (n d : Nat) (e : Int) :
    ((scaled n d e).1 : ℚ) / (scaled n d e).2 = n / d / 2 ^ e := by
  unfold scaled
  split
  · rename_i h
    obtain ⟨k, rfl⟩ := Int.eq_ofNat_of_zero_le h
    simp [twoTo_eq, div_div]
  · rename_i h
    obtain ⟨k, rfl⟩ : ∃ k : Nat, e = -k := ⟨(-e).toNat, by omega⟩
    simp [twoTo_eq, div_eq_mul_inv, mul_right_comm]

/-- An exponent on whose grid the quotient has fifty-three bits, or fifty-two. -/
def guess (n d : Nat) : Int :=
  (n.log2 : Int) - d.log2 - 52

/-- The exponent on whose grid the quotient has fifty-three bits. -/
def fitted (n d : Nat) : Int :=
  if (scaled n d (guess n d)).1 / (scaled n d (guess n d)).2 < twoTo 52 then guess n d - 1
  else guess n d

/-- The exponent of the nearest number. -/
def gridExponent (n d : Nat) : Int :=
  if fitted n d < -1074 then -1074 else fitted n d

/-- The mantissa of the nearest number, which may be one bit too long. -/
def gridMantissa (n d : Nat) : Nat :=
  roundHalfEven (scaled n d (gridExponent n d)).1 (scaled n d (gridExponent n d)).2

theorem nearestBits_eq {n : Nat} (hn : n ≠ 0) (d : Nat) : nearestBits n d =
    if gridMantissa n d = twoTo 53 then packBits (twoTo 52) (gridExponent n d + 1)
    else packBits (gridMantissa n d) (gridExponent n d) :=
  if_neg hn

section Grid

variable {n d : Nat}

theorem log2_bounds (hn : 0 < n) :
    (2 : ℚ) ^ (n.log2 : ℤ) ≤ n ∧ (n : ℚ) < 2 ^ ((n.log2 : ℤ) + 1) := by
  constructor
  · exact_mod_cast Nat.log2_self_le hn.ne'
  · exact_mod_cast Nat.lt_log2_self (n := n)

/-- The guess is off by one bit at most. -/
theorem guess_bounds (hn : 0 < n) (hd : 0 < d) :
    2 ^ 51 < (n : ℚ) / d / 2 ^ guess n d ∧ (n : ℚ) / d / 2 ^ guess n d < 2 ^ 53 := by
  obtain ⟨hnlow, hnhigh⟩ := log2_bounds hn
  obtain ⟨hdlow, hdhigh⟩ := log2_bounds hd
  have hpos : (0 : ℚ) < d := Nat.cast_pos.mpr hd
  have hstep : (0 : ℚ) < 2 ^ guess n d := by positivity
  have hpow : ∀ i : ℤ, (2 : ℚ) ^ (i + guess n d) = 2 ^ i * 2 ^ guess n d :=
    fun i => zpow_add₀ (by norm_num) i _
  rw [lt_div_iff₀ hstep, lt_div_iff₀ hpos, div_lt_iff₀ hstep, div_lt_iff₀ hpos]
  constructor
  · calc (2 : ℚ) ^ 51 * 2 ^ guess n d * d = 2 ^ (51 + guess n d) * d := by
          rw [hpow]
          norm_num
      _ < 2 ^ (51 + guess n d) * 2 ^ ((d.log2 : ℤ) + 1) := by gcongr
      _ = 2 ^ (n.log2 : ℤ) := by
          rw [← zpow_add₀ (by norm_num)]
          congr 1
          unfold guess
          omega
      _ ≤ n := hnlow
  · calc (n : ℚ) < 2 ^ ((n.log2 : ℤ) + 1) := hnhigh
      _ = 2 ^ (53 + guess n d) * 2 ^ (d.log2 : ℤ) := by
          rw [← zpow_add₀ (by norm_num)]
          congr 1
          unfold guess
          omega
      _ ≤ 2 ^ (53 + guess n d) * d := by gcongr
      _ = 2 ^ 53 * 2 ^ guess n d * d := by
          rw [hpow]
          norm_num

theorem fitted_bounds (hn : 0 < n) (hd : 0 < d) :
    2 ^ 52 ≤ (n : ℚ) / d / 2 ^ fitted n d ∧ (n : ℚ) / d / 2 ^ fitted n d < 2 ^ 53 := by
  obtain ⟨hlow, hhigh⟩ := guess_bounds hn hd
  have hpos := scaled_pos n hd (guess n d)
  have hfull : (scaled n d (guess n d)).1 / (scaled n d (guess n d)).2 < twoTo 52 ↔
      (n : ℚ) / d / 2 ^ guess n d < 2 ^ 52 := by
    rw [Nat.div_lt_iff_lt_mul hpos, ← scaled_eq, div_lt_iff₀ (Nat.cast_pos.mpr hpos)]
    exact_mod_cast Iff.rfl
  unfold fitted
  split
  · rename_i hshort
    have hstep : (n : ℚ) / d / 2 ^ (guess n d - 1) = 2 * (n / d / 2 ^ guess n d) := by
      rw [zpow_sub_one₀ (by norm_num)]
      field_simp
    rw [hstep]
    have hupper := hfull.mp hshort
    constructor <;> linarith
  · rename_i hlong
    exact ⟨not_lt.mp (mt hfull.mpr hlong), hhigh⟩

/-- The mantissa fits. -/
theorem fits_grid (hn : 0 < n) (hd : 0 < d) :
    Fits ((n : ℚ) / d) (gridMantissa n d) (gridExponent n d) := by
  obtain ⟨hlow, hhigh⟩ := fitted_bounds hn hd
  obtain ⟨hnear, heven⟩ := roundHalfEven_near (scaled n d (gridExponent n d)).1
    (scaled_pos n hd (gridExponent n d))
  rw [scaled_eq] at hnear heven
  have hpos : (0 : ℚ) ≤ n / d := by positivity
  by_cases hleast : fitted n d < -1074
  · have hexponent : gridExponent n d = -1074 := if_pos hleast
    refine ⟨hnear, heven, ?_, .inr hexponent, hexponent.ge⟩
    calc (n : ℚ) / d / 2 ^ gridExponent n d ≤ n / d / 2 ^ fitted n d := by
          rw [hexponent]
          gcongr
          norm_num
      _ < 2 ^ 53 := hhigh
  · have hexponent : gridExponent n d = fitted n d := if_neg hleast
    refine ⟨hnear, heven, ?_, .inl ?_, ?_⟩
    · rw [hexponent]
      exact hhigh
    · rw [hexponent]
      exact hlow
    · rw [hexponent]
      exact not_lt.mp hleast

end Grid

/-! ### Nearest numbers -/

theorem Fits.mantissa_le (h : Fits q m e) : m ≤ 2 ^ 53 := by
  have hnear := (abs_le.mp h.near).1
  have hupper := h.upper
  have hlt : (m : ℚ) < (2 ^ 53 + 1 : ℕ) := by
    push_cast
    linarith
  exact Nat.lt_succ_iff.mp (Nat.cast_lt.mp hlt)

theorem Fits.le_mantissa (h : Fits q m e) (hlow : 2 ^ 52 ≤ q / 2 ^ e) : 2 ^ 52 ≤ m := by
  have hnear := (abs_le.mp h.near).2
  have hlt : ((2 ^ 52 : ℕ) : ℚ) < (m + 1 : ℕ) := by
    push_cast
    linarith
  exact Nat.lt_succ_iff.mp (Nat.cast_lt.mp hlt)

/-- What is not rounded up to the next power of two is more than half a step below it. -/
theorem Fits.lt_half (h : Fits q m e) (hm : m < 2 ^ 53) : q / 2 ^ e < 2 ^ 53 - 1 / 2 := by
  have hnear := (abs_le.mp h.near).2
  rcases lt_or_eq_of_le (Nat.le_sub_one_of_lt hm) with hlt | hlast
  · have hle : ((m + 2 : ℕ) : ℚ) ≤ (2 ^ 53 : ℕ) := Nat.cast_le.mpr (by omega)
    push_cast at hle
    linarith
  · have hodd : ¬ 2 ∣ m := by omega
    have hne : |q / 2 ^ e - m| < 1 / 2 := lt_of_le_of_ne h.near (mt h.even hodd)
    have hcast : (m : ℚ) = 2 ^ 53 - 1 := by
      rw [hlast]
      norm_num
    linarith [(abs_lt.mp hne).2]

/-- What is rounded up to the next power of two is half a step below it at most. -/
theorem Fits.half_le (h : Fits q m e) (hm : m = 2 ^ 53) : 2 ^ 53 - 1 / 2 ≤ q / 2 ^ e := by
  have hcast : (m : ℚ) = 2 ^ 53 := by
    rw [hm]
    norm_num
  linarith [(abs_le.mp h.near).1]

theorem limit_eq : limit = (2 ^ 53 - 1 / 2) * 2 ^ (971 : ℤ) := by
  have hhalf : (2 : ℚ) ^ 971 = 2 * 2 ^ 970 := pow_succ' 2 970
  have hfull : (2 : ℚ) ^ 1024 = 2 ^ 53 * 2 ^ 971 := pow_add 2 53 971
  rw [limit, show ((2 : ℚ) ^ (971 : ℤ)) = 2 ^ 971 from zpow_natCast 2 971, hfull, hhalf]
  generalize (2 : ℚ) ^ 970 = step
  ring

/-- The number with the mantissa that fits is the nearest. -/
theorem Fits.rounds {x : Float} (h : Fits q m e) (hq : 0 ≤ q) (hrange : q < limit)
    (hx : ofFloat? x = some a) (hvalue : a.value = m * 2 ^ e) (heven : 2 ∣ m → 2 ∣ a.mantissa) :
    Rounds q x := by
  refine .finite hx hrange (fun y c hy => ?_) fun y c hy hdist => ?_
  · rw [hvalue]
    exact (h.le_canonical hq (canonical_of_ofFloat? hy)).1
  · rw [hvalue] at hdist ⊢
    exact ((h.le_canonical hq (canonical_of_ofFloat? hy)).2 hdist).imp_right heven

theorem limit_le (hhalf : 2 ^ 53 - 1 / 2 ≤ q / 2 ^ e) (he : 971 ≤ e) : limit ≤ q := by
  have hstep : (0 : ℚ) < 2 ^ e := by positivity
  rw [limit_eq]
  calc ((2 : ℚ) ^ 53 - 1 / 2) * 2 ^ (971 : ℤ) ≤ (2 ^ 53 - 1 / 2) * 2 ^ e := by
        gcongr
        norm_num
    _ ≤ q := (le_div_iff₀ hstep).mp hhalf

theorem lt_limit (hhalf : q / 2 ^ e < 2 ^ 53 - 1 / 2) (he : e ≤ 971) : q < limit := by
  have hstep : (0 : ℚ) < 2 ^ e := by positivity
  rw [limit_eq]
  calc q < (2 ^ 53 - 1 / 2) * 2 ^ e := (div_lt_iff₀ hstep).mp hhalf
    _ ≤ (2 ^ 53 - 1 / 2) * 2 ^ (971 : ℤ) := by
        gcongr
        norm_num

theorem div_zpow_add_one (q : ℚ) (e : ℤ) : q / 2 ^ (e + 1) = q / 2 ^ e / 2 := by
  rw [zpow_add_one₀ (by norm_num), div_div]

/-- The bits of a mantissa that may be one bit too long. -/
def carriedBits (m : Nat) (e : Int) : Nat :=
  if m = 2 ^ 53 then packBits (2 ^ 52) (e + 1) else packBits m e

theorem packBits_of_large {m : Nat} {e : Int} (hm : 2 ^ 52 ≤ m) (he : 971 < e) :
    packBits m e = 2047 * 2 ^ 52 :=
  (if_neg (Nat.not_lt.mpr hm)).trans (if_pos he)

theorem ofBits_infinite : Float.ofBits (UInt64.ofNat (2047 * 2 ^ 52)) = 1 / 0 := by
  decide

/-- A mantissa that fits makes the bits of the nearest number. -/
theorem Fits.packed (h : Fits q m e) (hq : 0 ≤ q) :
    Rounds q (Float.ofBits (UInt64.ofNat (carriedBits m e))) := by
  have hleast := h.least
  have hupper := h.upper
  by_cases hcarry : m = 2 ^ 53
  · have hcast : (m : ℚ) = 2 ^ 53 := by
      rw [hcarry]
      norm_num
    rw [carriedBits, if_pos hcarry]
    by_cases hlarge : 971 < e + 1
    · rw [packBits_of_large le_rfl hlarge, ofBits_infinite]
      exact .infinite rfl (limit_le (h.half_le hcarry) (by omega))
    · have hrange : q < limit := by
        refine lt_limit (e := e + 1) ?_ (by omega)
        rw [div_zpow_add_one]
        linarith
      refine h.rounds hq hrange (ofFloat?_packBits ⟨by norm_num, by dsimp only; omega,
        by dsimp only; omega, .inl le_rfl⟩) ?_ fun _ => ⟨2 ^ 51, rfl⟩
      rw [value_of_positive rfl, magnitude, hcast, zpow_add_one₀ (by norm_num)]
      push_cast
      ring
  · have hm : m < 2 ^ 53 := lt_of_le_of_ne h.mantissa_le hcarry
    rw [carriedBits, if_neg hcarry]
    by_cases hlarge : 971 < e
    · have hlow := h.lower.resolve_right (by omega)
      rw [packBits_of_large (h.le_mantissa hlow) hlarge, ofBits_infinite]
      refine .infinite rfl (limit_le (e := e - 1) ?_ (by omega))
      rw [← sub_add_cancel e 1, div_zpow_add_one] at hlow
      linarith
    · refine h.rounds hq (lt_limit (h.lt_half hm) (not_lt.mp hlarge)) (ofFloat?_packBits
        ⟨hm, not_lt.mp hlarge, hleast, h.lower.imp_left h.le_mantissa⟩) ?_ id
      rw [value_of_positive rfl, magnitude]

/-- **A quotient is rounded to the nearest number.** -/
theorem nearest_rounds (n : Nat) {d : Nat} (hd : 0 < d) :
    Rounds ((n : ℚ) / d) (nearest false n d) := by
  rcases Nat.eq_zero_or_pos n with rfl | hn
  · have hfits : Fits 0 0 (-1074) := by
      refine ⟨?_, fun _ => dvd_zero 2, ?_, .inr rfl, le_rfl⟩ <;> norm_num
    rw [Nat.cast_zero, zero_div]
    exact hfits.packed le_rfl
  · have hbits : nearestBits n d = carriedBits (gridMantissa n d) (gridExponent n d) :=
      nearestBits_eq hn.ne' d
    have hnearest : nearest false n d = Float.ofBits (UInt64.ofNat (nearestBits n d)) := rfl
    rw [hnearest, hbits]
    exact (fits_grid hn hd).packed (by positivity)

/-! ### Decimal numbers -/

theorem length_toDigits_bounds {k : Nat} (hk : 0 < k) :
    10 ^ ((Nat.toDigits 10 k).length - 1) ≤ k ∧ k < 10 ^ (Nat.toDigits 10 k).length := by
  have hlength : 0 < (Nat.toDigits 10 k).length := Nat.length_toDigits_pos
  refine ⟨?_, (Nat.length_toDigits_le_iff (by omega) hlength).mp le_rfl⟩
  rcases Nat.eq_zero_or_pos ((Nat.toDigits 10 k).length - 1) with hone | hmore
  · rw [hone]
    exact hk
  · exact Nat.le_of_not_lt fun hlt => by
      have := (Nat.length_toDigits_le_iff (by omega) hmore).mpr hlt
      omega

/-- What is less than half a step from zero is rounded to zero. -/
theorem rounds_zero (hq : 0 ≤ q) (hsmall : q < 10 ^ (-400 : ℤ)) : Rounds q (nearest false 0 1) := by
  have hnat : 2 ^ 1075 ≤ 10 ^ 400 := by decide +kernel
  have htiny : (10 : ℚ) ^ (-400 : ℤ) ≤ 2 ^ (-1075 : ℤ) := by
    rw [zpow_neg, zpow_neg, zpow_ofNat, zpow_ofNat]
    exact inv_anti₀ (by positivity) (by exact_mod_cast hnat)
  have hhalf : q / 2 ^ (-1074 : ℤ) ≤ 1 / 2 := by
    have hstep : (2 : ℚ) ^ (-1075 : ℤ) = 1 / 2 * 2 ^ (-1074 : ℤ) := by
      rw [show (-1074 : ℤ) = -1075 + 1 by norm_num, zpow_add_one₀ (by norm_num)]
      ring
    rw [div_le_iff₀ (by positivity), ← hstep]
    exact hsmall.le.trans htiny
  have hfits : Fits q 0 (-1074) := by
    refine ⟨?_, fun _ => dvd_zero 2, by linarith, .inr rfl, le_rfl⟩
    rw [Nat.cast_zero, sub_zero, abs_of_nonneg (by positivity)]
    exact hhalf
  exact hfits.packed hq

/-- What is above every number is rounded to the infinity. -/
theorem rounds_of_limit_le (hq : limit ≤ q) : Rounds q (nearest false (twoTo 1024) 1) := by
  have hlimit : limit ≤ ((twoTo 1024 : ℕ) : ℚ) / (1 : ℕ) := by
    rw [twoTo_eq, Nat.cast_one, div_one, Nat.cast_pow]
    exact sub_le_self _ (by positivity)
  cases nearest_rounds (twoTo 1024) Nat.one_pos with
  | finite hx hrange => exact absurd hlimit (not_le.mpr hrange)
  | infinite hx => exact .infinite hx hq

/-- The size of a decimal number, by the count of its digits. -/
theorem size_bounds {k : Nat} (hk : 0 < k) (e : Int) :
    (10 : ℚ) ^ ((Nat.toDigits 10 k).length + e - 1) ≤ k * 10 ^ e ∧
      (k : ℚ) * 10 ^ e < 10 ^ ((Nat.toDigits 10 k).length + e) := by
  obtain ⟨hlow, hhigh⟩ := length_toDigits_bounds hk
  have hlength : 0 < (Nat.toDigits 10 k).length := Nat.length_toDigits_pos
  have hscale : (0 : ℚ) < 10 ^ e := by positivity
  constructor
  · have hexponent : ((Nat.toDigits 10 k).length + e - 1 : ℤ) =
        ((Nat.toDigits 10 k).length - 1 : ℕ) + e := by omega
    rw [hexponent, zpow_add₀ (by norm_num), zpow_natCast]
    exact mul_le_mul_of_nonneg_right (by exact_mod_cast hlow) hscale.le
  · rw [zpow_add₀ (by norm_num), zpow_natCast]
    exact mul_lt_mul_of_pos_right (by exact_mod_cast hhigh) hscale

theorem limit_le_ten : limit ≤ 10 ^ (400 : ℤ) := by
  have hnat : 2 ^ 1024 ≤ 10 ^ 400 := by decide +kernel
  have hten : (2 : ℚ) ^ 1024 ≤ 10 ^ (400 : ℤ) := by
    rw [zpow_ofNat]
    exact_mod_cast hnat
  exact (sub_le_self _ (by positivity)).trans hten

/-- **A decimal number is rounded to the nearest number.** -/
theorem nearestDecimal_rounds (k : Nat) (e : Int) :
    Rounds (k * 10 ^ e) (nearestDecimal false k e) := by
  have hpos : (0 : ℚ) ≤ k * 10 ^ e := by positivity
  unfold nearestDecimal
  dsimp only
  split
  · rename_i hsmall
    refine rounds_zero hpos ?_
    rcases Nat.eq_zero_or_pos k with rfl | hk
    · rw [Nat.cast_zero, zero_mul]
      positivity
    · calc (k : ℚ) * 10 ^ e < 10 ^ ((Nat.toDigits 10 k).length + e) := (size_bounds hk e).2
        _ ≤ 10 ^ (-400 : ℤ) := zpow_le_zpow_right₀ (by norm_num) (by omega)
  rename_i hsmall
  have hk : 0 < k := by omega
  split
  · rename_i hlarge
    refine rounds_of_limit_le (limit_le_ten.trans ?_)
    calc (10 : ℚ) ^ (400 : ℤ) ≤ 10 ^ ((Nat.toDigits 10 k).length + e - 1) :=
          zpow_le_zpow_right₀ (by norm_num) (by omega)
      _ ≤ k * 10 ^ e := (size_bounds hk e).1
  split
  · rename_i hwhole
    obtain ⟨j, rfl⟩ := Int.eq_ofNat_of_zero_le hwhole
    have hvalue : (k : ℚ) * 10 ^ (j : ℤ) = ((k * tenTo j : ℕ) : ℚ) / (1 : ℕ) := by
      rw [Nat.cast_one, div_one, Nat.cast_mul, zpow_natCast]
      norm_cast
    rw [hvalue]
    exact nearest_rounds _ Nat.one_pos
  · obtain ⟨j, rfl⟩ : ∃ j : Nat, e = -j := ⟨(-e).toNat, by omega⟩
    have hvalue : (k : ℚ) * 10 ^ (-(j : ℤ)) = (k : ℚ) / (tenTo j : ℕ) := by
      rw [zpow_neg, zpow_natCast, ← div_eq_mul_inv]
      norm_cast
    rw [hvalue, neg_neg, Int.toNat_natCast]
    exact nearest_rounds k (tenTo_pos j)

end Binary
end IngressBench
