import IngressBench.Duration
import IngressBench.Proofs.Decimal.Nearest
import IngressBench.Proofs.Decimal.Reading

/-!
Durations as texts. A text spells a number of units when it has decimal digits of any script, a
fraction behind a point or none, and the letters of a unit right behind them (`Duration.Spells`). These
texts are parsed, to the exact number and unit but for the rounding of floating-point arithmetic
(`Duration.Approximates`), and all others are refused with a sentence (`Duration.Parsed`). A duration
can be told in every unit (`Duration.Convertible`).
-/
namespace IngressBench.Duration

open Text

/-! ### What a text spells -/

/-- Decimal digits of any script, one or more. -/
structure Digits (s : List Char) : Prop where
  nonempty : s ≠ []
  decimal : ∀ c ∈ s, isDecimal c = true

/-- The letters of a unit; without letters the unit is the second. -/
inductive Names : List Char → Scale → Prop
  | nothing : Names [] .seconds
  | milliseconds : Names ['m', 's'] .milliseconds
  | seconds : Names ['s'] .seconds
  | minutes : Names ['m'] .minutes
  | hours : Names ['h'] .hours

/-- Digits, a fraction behind a point or none, and a unit right behind them. -/
inductive Forms : List Char → List Char → List Char → Scale → Prop
  | whole {w u : List Char} {scale : Scale} (hw : Digits w) (hu : Names u scale) :
      Forms (w ++ u) w [] scale
  | pointed {w f u : List Char} {scale : Scale} (hw : Digits w) (hf : Digits f)
      (hu : Names u scale) : Forms (w ++ '.' :: (f ++ u)) w f scale

/-- The exact number that whole digits and the digits of a fraction stand for. -/
def number (w f : List Char) : ℚ :=
  ofDigits (digitValues (w ++ f)) / 10 ^ f.length

/-- How many seconds a unit has, exactly. -/
def Scale.span : Scale → ℚ
  | .milliseconds => 1 / 1000
  | .seconds => 1
  | .minutes => 60
  | .hours => 3600

/-- A text that spells a number of units, with blanks around it or without. -/
def Spells (s : String) (n : ℚ) (scale : Scale) : Prop :=
  ∃ core w f, Padded core s.toList ∧ Forms core w f scale ∧ n = number w f

/-- The exact seconds that a text denotes. -/
def Denotes (s : String) (q : ℚ) : Prop :=
  ∃ n scale, Spells s n scale ∧ q = n * scale.span

/-! ### Reading digits -/

theorem digitsOf_eq (s : List Char) :
    digitsOf s = (digitValues (s.takeWhile isDecimal), s.dropWhile isDecimal) := by
  induction s with
  | nil => rfl
  | cons c rest ih =>
    unfold digitsOf
    cases hc : digitValue? c with
    | none => simp [isDecimal, hc, digitValues]
    | some d => simp [isDecimal, hc, digitValues, ih]

/-- Digits are read up to the first sign that is none. -/
theorem digitsOf_append {w rest : List Char} (hw : Digits w)
    (hrest : ∀ c ∈ rest.head?, isDecimal c = false) :
    digitsOf (w ++ rest) = (digitValues w, rest) := by
  have hstop : rest.takeWhile isDecimal = [] ∧ rest.dropWhile isDecimal = rest := by
    cases rest with
    | nil => exact ⟨rfl, rfl⟩
    | cons c tail => simp [hrest c rfl]
  rw [digitsOf_eq, List.takeWhile_append_of_pos hw.decimal, List.dropWhile_append_of_pos hw.decimal,
    hstop.1, hstop.2, List.append_nil]

/-- What is read as digits are digits, and the rest is behind them. -/
theorem exists_digits {s rest : List Char} {whole : List Nat} (h : digitsOf s = (whole, rest))
    (hne : whole ≠ []) : ∃ w, Digits w ∧ whole = digitValues w ∧ s = w ++ rest := by
  rw [digitsOf_eq] at h
  cases h
  refine ⟨s.takeWhile isDecimal, ⟨?_, fun _ hc => List.mem_takeWhile_imp hc⟩, rfl,
    List.takeWhile_append_dropWhile.symm⟩
  intro hnil
  rw [hnil] at hne
  exact hne rfl

/-! ### Units -/

theorem scale?_eq_some_iff {u : List Char} {scale : Scale} :
    scale? u = some scale ↔ Names u scale := by
  constructor
  · intro h
    unfold scale? at h
    split at h <;> cases h <;> constructor
  · rintro (_ | _ | _ | _ | _) <;> rfl

/-- No unit starts with a digit. -/
theorem Names.head {u : List Char} {scale : Scale} (h : Names u scale) :
    ∀ c ∈ u.head?, isDecimal c = false := by
  intro c hc
  rcases h with _ | _ | _ | _ | _ <;> cases hc <;> decide

/-! ### Reading -/

variable {s w f : List Char} {scale : Scale}

theorem digitValues_eq_cons (h : Digits w) : ∃ d ds, digitValues w = d :: ds :=
  List.exists_cons_of_ne_nil (digitValues_ne_nil h.nonempty h.decimal)

/-- What has the form of a duration is read. -/
theorem Forms.ofChars?_eq (h : Forms s w f scale) :
    Reading.ofChars? s = some ⟨digitValues w, digitValues f, scale⟩ := by
  cases h with
  | @whole _ u _ hw hu =>
    obtain ⟨d, ds, hvalues⟩ := digitValues_eq_cons hw
    unfold Reading.ofChars?
    rw [digitsOf_append hw hu.head, hvalues]
    cases hu <;> rfl
  | @pointed _ _ u _ hw hf hu =>
    obtain ⟨d, ds, hvalues⟩ := digitValues_eq_cons hw
    obtain ⟨b, bs, hfraction⟩ := digitValues_eq_cons hf
    unfold Reading.ofChars?
    rw [digitsOf_append hw (by simp; decide), hvalues]
    simp only [digitsOf_append hf hu.head, hfraction, scale?_eq_some_iff.mpr hu, Option.map_some]

/-- What is read has the form of a duration. -/
theorem forms_of_ofChars? {r : Reading} (h : Reading.ofChars? s = some r) :
    ∃ w f, Forms s w f r.scale ∧ r = ⟨digitValues w, digitValues f, r.scale⟩ := by
  unfold Reading.ofChars? at h
  split at h
  · cases h
  · rename_i whole rest hne hwhole
    obtain ⟨w, hw, rfl, rfl⟩ := exists_digits hwhole hne
    split at h
    · cases h
    · rename_i fraction tail hne' hfraction
      obtain ⟨f, hf, rfl, rfl⟩ := exists_digits hfraction hne'
      obtain ⟨scale, hscale, rfl⟩ := Option.map_eq_some_iff.mp h
      exact ⟨w, f, .pointed hw hf (scale?_eq_some_iff.mp hscale), rfl⟩
  · rename_i whole tail hne hpoint hwhole
    obtain ⟨w, hw, rfl, rfl⟩ := exists_digits hwhole hne
    obtain ⟨scale, hscale, rfl⟩ := Option.map_eq_some_iff.mp h
    exact ⟨w, [], .whole hw (scale?_eq_some_iff.mp hscale), rfl⟩

/-- Digits and units have no blanks inside them. -/
theorem Digits.clear (h : Digits w) : Clear w :=
  fun c hc => not_isBlank_of_isDigit (isDigit_of_isDecimal (h.decimal c hc))

theorem Names.clear {u : List Char} (h : Names u scale) : Clear u := by
  rcases h with _ | _ | _ | _ | _ <;> decide

theorem Forms.clear (h : Forms s w f scale) : Clear s := by
  intro c hc
  cases h with
  | whole hw hu => exact (List.mem_append.mp hc).elim (hw.clear c) (hu.clear c)
  | pointed hw hf hu =>
    rcases List.mem_append.mp hc with hc | hc
    · exact hw.clear c hc
    rcases List.mem_cons.mp hc with rfl | hc
    · decide
    · exact (List.mem_append.mp hc).elim (hf.clear c) (hu.clear c)

theorem read?_of_forms {t : String} (ht : Padded s t.toList) (h : Forms s w f scale) :
    read? t = some ⟨digitValues w, digitValues f, scale⟩ := by
  unfold read?
  rw [trim_padded ht h.clear.bare, h.ofChars?_eq]

/-- **A text is read exactly when it has the form of a duration.** -/
theorem read?_eq_some_iff {t : String} {r : Reading} : read? t = some r ↔
    ∃ core w f, Padded core t.toList ∧ Forms core w f r.scale ∧
      r = ⟨digitValues w, digitValues f, r.scale⟩ := by
  constructor
  · intro h
    obtain ⟨w, f, hforms, hr⟩ := forms_of_ofChars? h
    exact ⟨trim t.toList, w, f, padded_trim _, hforms, hr⟩
  · rintro ⟨core, w, f, ht, hforms, hr⟩
    rw [read?_of_forms ht hforms, ← hr]

/-! ### Exact values -/

/-- The exact number of a reading. -/
def Reading.number (r : Reading) : ℚ :=
  ofDigits (r.whole ++ r.fraction) / 10 ^ r.fraction.length

theorem length_digitValues (h : ∀ c ∈ f, isDecimal c = true) : (digitValues f).length = f.length := by
  induction f with
  | nil => rfl
  | cons c rest ih =>
    obtain ⟨hc, hrest⟩ := List.forall_mem_cons.mp h
    obtain ⟨d, hd⟩ := Option.isSome_iff_exists.mp hc
    simp [digitValues, hd] at ih ⊢
    exact ih hrest

theorem Forms.fraction_decimal (h : Forms s w f scale) : ∀ c ∈ f, isDecimal c = true := by
  cases h with
  | whole => exact fun _ hc => absurd hc List.not_mem_nil
  | pointed _ hf => exact hf.decimal

theorem Forms.number_eq (h : Forms s w f scale) :
    (⟨digitValues w, digitValues f, scale⟩ : Reading).number = Duration.number w f := by
  unfold Reading.number Duration.number
  rw [length_digitValues h.fraction_decimal, digitValues, digitValues, ← List.filterMap_append]
  rfl

/-- What a text spells is what is read. -/
theorem spells_iff {t : String} {n : ℚ} : Spells t n scale ↔
    ∃ r, read? t = some r ∧ r.number = n ∧ r.scale = scale := by
  constructor
  · rintro ⟨core, w, f, ht, hforms, rfl⟩
    exact ⟨_, read?_of_forms ht hforms, hforms.number_eq, rfl⟩
  · rintro ⟨r, hr, rfl, rfl⟩
    obtain ⟨core, w, f, ht, hforms, hr⟩ := read?_eq_some_iff.mp hr
    refine ⟨core, w, f, ht, hforms, ?_⟩
    rw [← hforms.number_eq, ← hr]

/-- A text spells one number of one unit at most. -/
theorem Spells.unique {t : String} {n n' : ℚ} {scale' : Scale} (h : Spells t n scale)
    (h' : Spells t n' scale') : n = n' ∧ scale = scale' := by
  obtain ⟨r, hr, rfl, rfl⟩ := spells_iff.mp h
  obtain ⟨r', hr', rfl, rfl⟩ := spells_iff.mp h'
  rw [hr] at hr'
  cases hr'
  exact ⟨rfl, rfl⟩

/-! ### Values in floating point -/

/-- Seconds in floating point: the number and the unit are rounded to the nearest, then multiplied. -/
def Approximates (x : Float) (n : ℚ) (scale : Scale) : Prop :=
  ∃ a b : Float, Binary.Rounds n a ∧ Binary.Rounds scale.span b ∧ x = a * b

theorem rounds_factor (scale : Scale) : Binary.Rounds scale.span scale.factor := by
  have hrounds : ∀ {x : Float} {n d : ℕ}, 0 < d → nearest false n d = x →
      Binary.Rounds ((n : ℚ) / d) x := fun hd hx => hx ▸ Binary.nearest_rounds _ hd
  cases scale with
  | milliseconds => simpa [Scale.span] using hrounds (n := 1) (d := 1000) (by decide) (by decide)
  | seconds => simpa [Scale.span] using hrounds (n := 1) (d := 1) (by decide) (by decide)
  | minutes => simpa [Scale.span] using hrounds (n := 60) (d := 1) (by decide) (by decide)
  | hours => simpa [Scale.span] using hrounds (n := 3600) (d := 1) (by decide) (by decide)

theorem Reading.approximates (r : Reading) : Approximates r.seconds r.number r.scale := by
  refine ⟨_, _, ?_, rounds_factor r.scale, rfl⟩
  have hrounds := Binary.nearestDecimal_rounds (ofDigits (r.whole ++ r.fraction))
    (0 - r.fraction.length)
  have hvalue : (ofDigits (r.whole ++ r.fraction) : ℚ) * 10 ^ (0 - (r.fraction.length : ℤ)) =
      r.number := by
    rw [zero_sub, zpow_neg, zpow_natCast, ← div_eq_mul_inv, Reading.number]
  rwa [hvalue] at hrounds

/-! ### Parsing -/

theorem ofDocument_of_read? {t : String} {r : Reading} (h : read? t = some r) :
    ofDocument (.text t) = .ok r.seconds := by
  simp only [ofDocument, h]

theorem ofDocument_of_none {t : String} (h : read? t = none) :
    ofDocument (.text t) = .error (.invalid (quoted t)) := by
  simp only [ofDocument, h]
  rfl

/-- A text that spells a number of units is parsed, and every other text is refused with a sentence. -/
structure Parsed (t : String) : Prop where
  accepted : ∀ n scale, Spells t n scale → ∃ x, ofDocument (.text t) = .ok x ∧ Approximates x n scale
  refused : (∀ n scale, ¬ Spells t n scale) → ∃ fault, ofDocument (.text t) = .error fault ∧
    fault.failure = .value ("invalid duration: " ++ quoted t)
  unique : ∀ n n' scale scale', Spells t n scale → Spells t n' scale' → n = n' ∧ scale = scale'

theorem parsed (t : String) : Parsed t where
  accepted := by
    intro n scale h
    obtain ⟨r, hr, rfl, rfl⟩ := spells_iff.mp h
    exact ⟨r.seconds, ofDocument_of_read? hr, r.approximates⟩
  refused := by
    intro h
    refine ⟨_, ofDocument_of_none (Option.eq_none_iff_forall_ne_some.mpr fun r hr => ?_), rfl⟩
    exact h _ _ (spells_iff.mpr ⟨r, hr, rfl, rfl⟩)
  unique := fun _ _ _ _ => Spells.unique

/-! ### Units -/

/-- A number of hours, and as many minutes, seconds and milliseconds as it has, denote the same. -/
def Convertible (n : ℚ) : Prop :=
  ∀ a b c d, Spells a n .hours → Spells b (60 * n) .minutes → Spells c (3600 * n) .seconds →
    Spells d (3600000 * n) .milliseconds →
    ∃ q, Denotes a q ∧ Denotes b q ∧ Denotes c q ∧ Denotes d q

theorem convertible (n : ℚ) : Convertible n := by
  intro a b c d ha hb hc hd
  refine ⟨3600 * n, ⟨n, .hours, ha, ?_⟩, ⟨60 * n, .minutes, hb, ?_⟩, ⟨3600 * n, .seconds, hc, ?_⟩,
    ⟨3600000 * n, .milliseconds, hd, ?_⟩⟩ <;>
  · rw [Scale.span]
    ring

theorem digits_toDigits (n : Nat) : Digits (Nat.toDigits 10 n) where
  nonempty := Nat.toDigits_ne_nil
  decimal := fun _ => isDecimal_of_mem_toDigits

/-- A whole number with a unit behind it. -/
theorem spells_toString (n : Nat) {u : String} (h : Names u.toList scale) :
    Spells (toString n ++ u) n scale := by
  refine ⟨_, Nat.toDigits 10 n, [], .refl _, ?_, ?_⟩
  · rw [String.toList_append, Nat.toString_eq_ofList_toDigits, String.toList_ofList]
    exact .whole (digits_toDigits n) h
  · rw [number, List.append_nil, ofDigits_toDigits]
    norm_num

/-- In front of the unit there is a digit. -/
theorem Forms.split (h : Forms s w f scale) :
    ∃ body c u, s = body ++ c :: u ∧ isDecimal c = true ∧ Names u scale := by
  have hlast : ∀ {ds : List Char}, Digits ds → ∃ body c, ds = body ++ [c] ∧ isDecimal c = true := by
    intro ds hds
    obtain ⟨body, c, rfl⟩ := (List.eq_nil_or_concat' ds).resolve_left hds.nonempty
    exact ⟨body, c, rfl, hds.decimal c (by simp)⟩
  cases h with
  | @whole _ u _ hw hu =>
    obtain ⟨body, c, rfl, hc⟩ := hlast hw
    exact ⟨body, c, u, by simp, hc, hu⟩
  | @pointed _ _ u _ hw hf hu =>
    obtain ⟨body, c, rfl, hc⟩ := hlast hf
    exact ⟨w ++ '.' :: body, c, u, by simp, hc, hu⟩

/-- A text that ends with `ms` is never one of minutes. -/
theorem Forms.scale_eq (h : Forms (s ++ ['m', 's']) w f scale) : scale = .milliseconds := by
  obtain ⟨body, c, u, heq, hc, hu⟩ := h.split
  have hback := congrArg List.reverse heq
  cases hu with
  | milliseconds => rfl
  | nothing =>
    simp at hback
    rw [← hback.1] at hc
    exact absurd hc (by decide)
  | seconds =>
    simp at hback
    rw [← hback.1] at hc
    exact absurd hc (by decide)
  | minutes => simp at hback
  | hours => simp at hback

theorem Spells.scale_eq {t : String} {n : ℚ} (h : Spells t n scale)
    (ht : ['m', 's'] <:+ trim t.toList) : scale = .milliseconds := by
  obtain ⟨core, w, f, hpadded, hforms, -⟩ := h
  rw [trim_padded hpadded hforms.clear.bare] at ht
  obtain ⟨body, rfl⟩ := ht
  exact hforms.scale_eq

/-- **Durations are parsed exactly.** A text is parsed when it spells a number of units, to the seconds
of that number and unit, and refused otherwise; the same duration can be told in every unit, and what
ends with `ms` is told in milliseconds. -/
theorem parsed_exactly : (∀ t, Parsed t) ∧ (∀ n, Convertible n) ∧
    (∀ n : ℕ, Spells (toString n ++ "h") n .hours ∧
      Spells (toString (60 * n) ++ "m") (60 * n) .minutes ∧
      Spells (toString (3600 * n) ++ "s") (3600 * n) .seconds ∧
      Spells (toString (3600000 * n) ++ "ms") (3600000 * n) .milliseconds) ∧
    ∀ t n scale, ['m', 's'] <:+ trim t.toList → Spells t n scale → scale = .milliseconds := by
  refine ⟨parsed, convertible, fun n => ⟨spells_toString n .hours, ?_, ?_, ?_⟩,
    fun t n scale ht h => h.scale_eq ht⟩
  · exact_mod_cast spells_toString (60 * n) (u := "m") .minutes
  · exact_mod_cast spells_toString (3600 * n) (u := "s") .seconds
  · exact_mod_cast spells_toString (3600000 * n) (u := "ms") .milliseconds

/-- A minute and a half, in digits of two scripts, with blanks around them. -/
theorem parsed_exactly_mixed : Spells " \u0661.5m\n" (3 / 2) .minutes ∧
    ∃ x, ofDocument (.text " \u0661.5m\n") = .ok x ∧ Approximates x (3 / 2) .minutes := by
  have hspells : Spells " \u0661.5m\n" (3 / 2) .minutes := by
    refine ⟨['\u0661', '.', '5', 'm'], ['\u0661'], ['5'], ?_, ?_, ?_⟩
    · exact ⟨[' '], ['\n'], by decide, by decide, by decide⟩
    · have hdigits : ∀ c, isDecimal c = true → Digits [c] := fun c hc =>
        ⟨List.cons_ne_nil c [], List.forall_mem_singleton.mpr hc⟩
      exact .pointed (hdigits '\u0661' (by decide)) (hdigits '5' (by decide)) .minutes
    · have hdigits : ofDigits (digitValues (['\u0661'] ++ ['5'])) = 15 := by decide
      rw [number, hdigits]
      norm_num
  exact ⟨hspells, (parsed_exactly.1 _).accepted _ _ hspells⟩

end IngressBench.Duration
