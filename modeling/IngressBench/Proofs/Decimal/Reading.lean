import IngressBench.Decimal.Reading
import IngressBench.Proofs.Text.Trim
import Mathlib.Data.List.Basic

/-!
Whole numbers as people write them. Of a row of digits with hyphens in front, the reading makes a number
exactly when there is at most one hyphen and every digit is a decimal one (`readInt?_numeral`). What is
printed for a number is such a row (`numeral_toString`), of the same number (`signedValue_toDigits`).
-/
namespace IngressBench

namespace Text

/-! ### Digits and blanks -/

/-- No blank is a digit. -/
theorem not_isBlank_of_isDigit {c : Char} (h : isDigit c = true) : isBlank c = false := by
  have hdecimal : ∀ b ∈ blanks, ∀ z ∈ zeros, b.2 < z ∨ z + 10 ≤ b.1 := by decide
  have hsign : ∀ b ∈ blanks, ∀ d ∈ digitSigns, b.2 < d.1 ∨ d.2 < b.1 := by decide
  apply Bool.eq_false_iff.mpr
  intro hblank
  obtain ⟨b, hb, hfrom, hto⟩ := (Ranges.covers_iff blanks c.toNat).mp hblank
  rcases Bool.or_eq_true_iff.mp h with h | h
  · obtain ⟨z, hz, hlow⟩ : ∃ z ∈ zeros, z ≤ c.toNat ∧ c.toNat < z + 10 := by
      simpa [isDecimal, digitValue?] using h
    have := hdecimal b hb z hz
    omega
  · obtain ⟨d, hd, hlow, hhigh⟩ := (Ranges.covers_iff digitSigns c.toNat).mp h
    have := hsign b hb d hd
    omega

theorem isDigit_hyphen : isDigit '-' = false := by decide

theorem isBlank_hyphen : isBlank '-' = false := by decide

/-- Hyphens, and digits behind them. -/
structure Numeral (hyphens : Nat) (digits s : List Char) : Prop where
  shape : s = List.replicate hyphens '-' ++ digits
  nonempty : digits ≠ []
  digit : ∀ c ∈ digits, isDigit c = true

variable {hyphens : Nat} {digits s : List Char}

theorem Numeral.not_mem {c : Char} (h : Numeral hyphens digits s) (hc : c ≠ '-')
    (hdigit : isDigit c = false) : c ∉ s := by
  intro hmem
  rw [h.shape] at hmem
  rcases List.mem_append.mp hmem with hmem | hmem
  · exact hc (List.mem_replicate.mp hmem).2
  · have htrue := h.digit c hmem
    rw [hdigit] at htrue
    cases htrue

theorem Numeral.clear (h : Numeral hyphens digits s) : Clear s := by
  intro c hc
  rw [h.shape] at hc
  rcases List.mem_append.mp hc with hc | hc
  · rw [(List.mem_replicate.mp hc).2]
    exact isBlank_hyphen
  · exact not_isBlank_of_isDigit (h.digit c hc)

theorem Numeral.trimWith_eq (h : Numeral hyphens digits s) : trimWith isWhiteSpace s = s := by
  have hclear : ∀ c ∈ s, isWhiteSpace c = false := by
    intro c hc
    apply Bool.eq_false_iff.mpr
    intro hspace
    have hblank := isBlank_of_isWhiteSpace hspace
    rw [h.clear c hc] at hblank
    cases hblank
  apply trimWith_eq_self
  · intro c rest hs
    exact hclear c (hs ▸ List.mem_cons_self)
  · intro c rest hs
    exact hclear c (hs ▸ by simp)

end Text

open Text

/-! ### Reading -/

/-- The values of decimal digits. -/
def digitValues (digits : List Char) : List Nat :=
  digits.filterMap digitValue?

theorem digitRow_eq {s : List Char} (h : '_' ∉ s) :
    digitRow s = (digitValues (s.takeWhile isDecimal), s.dropWhile isDecimal) := by
  fun_induction digitRow s with
  | case1 => rfl
  | case2 | case3 | case4 | case5 => simp at h
  | case6 c rest _ _ hnone => simp [isDecimal, hnone, digitValues]
  | case7 c rest _ _ d hd ds tail hrest ih =>
    have hrow := ih fun hmem => h (List.mem_cons_of_mem c hmem)
    rw [hrest] at hrow
    cases hrow
    simp [isDecimal, hd, digitValues]

/-- The number of a sign and decimal digits. -/
def signedValue (negative : Bool) (digits : List Char) : Int :=
  if negative then -(ofDigits (digitValues digits) : Int) else (ofDigits (digitValues digits) : Int)

theorem digitValues_ne_nil {digits : List Char} (hne : digits ≠ [])
    (hdecimal : ∀ c ∈ digits, isDecimal c = true) : digitValues digits ≠ [] := by
  cases digits with
  | nil => exact absurd rfl hne
  | cons c rest =>
    obtain ⟨d, hd⟩ := Option.isSome_iff_exists.mp (hdecimal c List.mem_cons_self)
    simp [digitValues, hd]

/-- Behind the sign there have to be decimal digits and nothing else. -/
theorem readInt?_eq {s body : List Char} {negative : Bool} (htrim : trimWith isWhiteSpace s = s)
    (hsign : signed s = (negative, body)) (hclear : '_' ∉ body) (hne : body ≠ []) :
    readInt? (String.ofList s) =
      if body.all isDecimal = true then some (signedValue negative body) else none := by
  unfold readInt?
  rw [String.toList_ofList, htrim, hsign]
  dsimp only
  rw [digitRow_eq hclear]
  by_cases hdecimal : ∀ c ∈ body, isDecimal c = true
  · rw [if_pos (List.all_eq_true.mpr hdecimal), List.takeWhile_eq_self_iff.mpr hdecimal,
      List.dropWhile_eq_nil_iff.mpr hdecimal]
    cases hvalues : digitValues body with
    | nil => exact absurd hvalues (digitValues_ne_nil hne hdecimal)
    | cons d ds => simp [signedValue, hvalues]
  · rw [if_neg (mt List.all_eq_true.mp hdecimal)]
    have hrest : body.dropWhile isDecimal ≠ [] := fun hnil =>
      hdecimal (List.dropWhile_eq_nil_iff.mp hnil)
    cases hdrop : body.dropWhile isDecimal with
    | nil => exact absurd hdrop hrest
    | cons c rest => cases digitValues (body.takeWhile isDecimal) <;> rfl

/-- **Hyphens and digits are a number exactly when there is at most one hyphen and the digits are
decimal ones.** -/
theorem readInt?_numeral {hyphens : Nat} {digits s : List Char} (h : Numeral hyphens digits s) :
    readInt? (String.ofList s) =
      if hyphens ≤ 1 ∧ digits.all isDecimal = true then
        some (signedValue (hyphens == 1) digits) else none := by
  have hclear : '_' ∉ digits := fun hmem => absurd (h.digit _ hmem) (by decide)
  match hyphens, h with
  | 0, h =>
    obtain rfl : s = digits := by simpa using h.shape
    have hsign : signed s = (false, s) := by
      unfold signed
      split
      · exact absurd (h.digit '-' List.mem_cons_self) (by decide)
      · exact absurd (h.digit '+' List.mem_cons_self) (by decide)
      · rfl
    rw [readInt?_eq h.trimWith_eq hsign hclear h.nonempty]
    simp
  | 1, h =>
    have hsign : signed s = (true, digits) := by rw [h.shape]; rfl
    rw [readInt?_eq h.trimWith_eq hsign hclear h.nonempty]
    simp
  | hyphens + 2, h =>
    have hsign : signed s = (true, List.replicate (hyphens + 1) '-' ++ digits) := by
      rw [h.shape]
      rfl
    have hclear' : '_' ∉ List.replicate (hyphens + 1) '-' ++ digits := by
      simp [hclear]
    have hnot : ¬ (List.replicate (hyphens + 1) '-' ++ digits).all isDecimal = true :=
      fun hdecimal => absurd (List.all_eq_true.mp hdecimal '-' (by simp)) (by decide)
    rw [readInt?_eq h.trimWith_eq hsign hclear' (by simp), if_neg hnot]
    simp

/-! ### Writing -/

theorem digitValue?_of_isDigit {c : Char} (h : c.isDigit = true) :
    digitValue? c = some (c.toNat - '0'.toNat) := by
  obtain ⟨hlow, hhigh⟩ : 48 ≤ c.toNat ∧ c.toNat ≤ 57 := by
    simpa [Char.isDigit, UInt32.le_iff_toNat_le] using h
  have hzero : zeros.find? (fun z => z ≤ c.toNat && c.toNat < z + 10) = some 0x30 := by
    unfold zeros
    rw [List.find?_cons_of_pos]
    simp only [Bool.and_eq_true, decide_eq_true_eq]
    omega
  rw [digitValue?, hzero]
  rfl

theorem isDecimal_of_isDigit {c : Char} (h : c.isDigit = true) : isDecimal c = true := by
  rw [isDecimal, digitValue?_of_isDigit h]
  rfl

theorem isDecimal_of_mem_toDigits {n : Nat} {c : Char} (h : c ∈ Nat.toDigits 10 n) :
    isDecimal c = true :=
  isDecimal_of_isDigit (Nat.isDigit_of_mem_toDigits (by omega) (by omega) h)

theorem ofDigits_toDigits (n : Nat) : ofDigits (digitValues (Nat.toDigits 10 n)) = n := by
  have hdigit : ∀ c ∈ Nat.toDigits 10 n, c.isDigit = true := fun c hc =>
    Nat.isDigit_of_mem_toDigits (by omega) (by omega) hc
  have hvalues : digitValues (Nat.toDigits 10 n) =
      (Nat.toDigits 10 n).map fun c => c.toNat - '0'.toNat := by
    unfold digitValues
    rw [← List.filterMap_eq_map]
    exact List.filterMap_congr fun c hc => digitValue?_of_isDigit (hdigit c hc)
  calc ofDigits (digitValues (Nat.toDigits 10 n))
      = (Nat.toDigits 10 n).foldl (fun sofar c => 10 * sofar + (c.toNat - '0'.toNat)) 0 := by
        rw [hvalues, ofDigits, List.foldl_map]
    _ = Nat.ofDigitChars 10 (Nat.toDigits 10 n) 0 := Nat.ofDigitChars_eq_foldl.symm
    _ = n := Nat.ofDigitChars_ten_toDigits

/-- A number is written as its decimal digits, with one hyphen in front if it is negative. -/
theorem numeral_toString (i : Int) :
    Numeral (if i < 0 then 1 else 0) (Nat.toDigits 10 i.natAbs) (toString i).toList where
  shape := by
    rw [Int.toString_eq_repr, Int.repr_eq_if]
    by_cases hi : i < 0
    · rw [if_neg (by omega), if_pos hi, Nat.repr_eq_ofList_toDigits, String.toList_append,
        String.toList_ofList, String.toList_ofList, show (-i).toNat = i.natAbs by omega]
      rfl
    · rw [if_pos (by omega), if_neg hi, Nat.repr_eq_ofList_toDigits, String.toList_ofList,
        show i.toNat = i.natAbs by omega]
      rfl
  nonempty := Nat.toDigits_ne_nil
  digit := fun _ hc => isDigit_of_isDecimal (isDecimal_of_mem_toDigits hc)

/-- The digits of a number and its sign are the number. -/
theorem signedValue_toDigits (i : Int) :
    signedValue ((if i < 0 then 1 else 0) == 1) (Nat.toDigits 10 i.natAbs) = i := by
  rw [signedValue, ofDigits_toDigits]
  by_cases hi : i < 0
  · rw [if_pos hi, if_pos (by decide)]
    omega
  · rw [if_neg hi, if_neg (by decide)]
    omega

/-- A number is read back from its text. -/
theorem readInt?_toString (i : Int) : readInt? (toString i) = some i := by
  have hread := readInt?_numeral (numeral_toString i)
  have hhyphens : (if i < 0 then 1 else 0) ≤ 1 := by split <;> decide
  have hdecimal : (Nat.toDigits 10 i.natAbs).all isDecimal = true :=
    List.all_eq_true.mpr fun _ hc => isDecimal_of_mem_toDigits hc
  rw [String.ofList_toList, if_pos ⟨hhyphens, hdecimal⟩, signedValue_toDigits] at hread
  exact hread

theorem toString_int_inj {i j : Int} (h : toString i = toString j) : i = j :=
  Option.some_inj.mp ((readInt?_toString i).symm.trans (h ▸ readInt?_toString j))

end IngressBench
