import IngressBench.Proofs.Decimal.Reading
import IngressBench.Tuning.Profile
import Mathlib.Data.List.TakeDrop

/-!
How a profile is read, piece by piece. The pieces stand between the commas; a piece of blanks says
nothing, and any other one has to be an option: a name in front of its first `=` and a value behind it
(`Profile.Forms`). `Profile.Reads` has one rule for each thing that can happen to a piece, and a profile
is read by these rules (`Profile.optionsOf_reads`). A value is a number, a text, or digits that are no
number (`Profile.optionValue_numeral`, `Profile.optionValue_text`).
-/
namespace IngressBench.Profile

open Text

variable {item name value core : List Char}

/-! ### Options -/

/-- The item has this in front of its first `=` and that behind it, and neither is blank. -/
structure Forms (item name value : List Char) : Prop where
  shape : item = name ++ '=' :: value
  first : '=' ∉ name
  name : ¬ Blank name
  value : ¬ Blank value

theorem halves?_append (h : '=' ∉ name) : halves? (name ++ '=' :: value) = some (name, value) := by
  have hname : ∀ c ∈ name, (c != '=') = true := fun c hc => by
    simpa using fun heq : c = '=' => h (heq ▸ hc)
  unfold halves?
  rw [List.span_eq_takeWhile_dropWhile, List.takeWhile_append_of_pos hname,
    List.dropWhile_append_of_pos hname]
  simp

theorem halves?_eq_none (h : '=' ∉ item) : halves? item = none := by
  have hitem : ∀ c ∈ item, (c != '=') = true := fun c hc => by
    simpa using fun heq : c = '=' => h (heq ▸ hc)
  unfold halves?
  rw [List.span_eq_takeWhile_dropWhile, List.dropWhile_eq_nil_iff.mpr hitem]

/-- The blanks around the halves of an item do not matter, and an option has two that are not blank. -/
theorem option?_append (h : '=' ∉ name) : option? (name ++ '=' :: value) =
    if (trim name).isEmpty || (trim value).isEmpty then none else some (trim name, trim value) := by
  unfold option?
  rw [halves?_append h]
  rfl

theorem option?_eq_none_of_not_mem (h : '=' ∉ item) : option? item = none := by
  unfold option?
  rw [halves?_eq_none h]
  rfl

theorem Forms.option?_eq (h : Forms item name value) :
    option? item = some (trim name, trim value) := by
  have hname : trim name ≠ [] := fun hnil => h.name (trim_eq_nil_iff.mp hnil)
  have hvalue : trim value ≠ [] := fun hnil => h.value (trim_eq_nil_iff.mp hnil)
  rw [h.shape, option?_append h.first]
  simp [hname, hvalue]

theorem forms_or_none (item : List Char) :
    (∃ name value, Forms item name value) ∨ option? item = none := by
  by_cases hmem : '=' ∈ item
  · obtain ⟨name, value, rfl, hfirst⟩ := List.eq_append_cons_of_mem hmem
    by_cases hname : Blank name
    · refine .inr ?_
      rw [option?_append hfirst, trim_eq_nil_iff.mpr hname]
      rfl
    by_cases hvalue : Blank value
    · refine .inr ?_
      rw [option?_append hfirst, trim_eq_nil_iff.mpr hvalue]
      simp
    · exact .inl ⟨name, value, rfl, hfirst, hname, hvalue⟩
  · exact .inr (option?_eq_none_of_not_mem hmem)

/-- An item has one first `=`. -/
theorem Forms.unique {name' value' : List Char} (h : Forms item name value)
    (h' : Forms item name' value') : name = name' ∧ value = value' := by
  have hhalves : halves? (name ++ '=' :: value) = some (name, value) := halves?_append h.first
  rw [← h.shape, h'.shape, halves?_append h'.first] at hhalves
  cases hhalves
  exact ⟨rfl, rfl⟩

theorem isBlank_equals : isBlank '=' = false := by decide

theorem Forms.not_blank (h : Forms item name value) : ¬ Blank item :=
  fun hblank => hblank.not_mem isBlank_equals (h.shape ▸ by simp)

/-- **The blanks around an item do not matter.** -/
theorem option?_eq_of_padded {s : List Char} (h : Padded core s) : option? s = option? core := by
  obtain ⟨left, right, hleft, hright, rfl⟩ := h
  by_cases hmem : '=' ∈ core
  · obtain ⟨name, value, rfl, hfirst⟩ := List.eq_append_cons_of_mem hmem
    have hshape : left ++ ((name ++ '=' :: value) ++ right) =
        (left ++ name) ++ '=' :: (value ++ right) := by simp
    have hfirst' : '=' ∉ left ++ name := by simp [hfirst, hleft.not_mem isBlank_equals]
    have hname : trim (left ++ name) = trim name := trimWith_append_left hleft
    have hvalue : trim (value ++ right) = trim value := trimWith_append_right hright
    rw [hshape, option?_append hfirst', option?_append hfirst, hname, hvalue]
  · rw [option?_eq_none_of_not_mem hmem, option?_eq_none_of_not_mem]
    simp [hmem, hleft.not_mem isBlank_equals, hright.not_mem isBlank_equals]

/-! ### Values -/

variable {hyphens : Nat} {digits : List Char}

theorem looksWhole_iff : looksWhole value = true ↔ ∃ hyphens digits, Numeral hyphens digits value := by
  unfold looksWhole
  dsimp only
  constructor
  · intro h
    obtain ⟨hne, hdigit⟩ : value.dropWhile (· == '-') ≠ [] ∧
        ∀ c ∈ value.dropWhile (· == '-'), isDigit c = true := by simpa using h
    have hhyphens : value.takeWhile (· == '-') =
        List.replicate (value.takeWhile (· == '-')).length '-' :=
      List.eq_replicate_iff.mpr ⟨rfl, fun c hc => by simpa using List.mem_takeWhile_imp hc⟩
    refine ⟨(value.takeWhile (· == '-')).length, value.dropWhile (· == '-'), ?_, hne, hdigit⟩
    rw [← hhyphens, List.takeWhile_append_dropWhile]
  · intro h
    obtain ⟨hyphens, digits, h⟩ := h
    have hdrop : value.dropWhile (· == '-') = digits := by
      rw [h.shape, List.dropWhile_append_of_pos (by simp)]
      cases digits with
      | nil => exact absurd rfl h.nonempty
      | cons c rest =>
        have hc : c ≠ '-' := by
          rintro rfl
          have hdigit := h.digit '-' List.mem_cons_self
          rw [isDigit_hyphen] at hdigit
          cases hdigit
        rw [List.dropWhile_cons_of_neg (by simpa using hc)]
    rw [hdrop]
    simpa using ⟨h.nonempty, h.digit⟩

/-- Hyphens and digits that are a number, and not too long. -/
structure Whole (hyphens : Nat) (digits : List Char) : Prop where
  hyphens : hyphens ≤ 1
  decimal : ∀ c ∈ digits, isDecimal c = true
  length : digits.length ≤ digitLimit

/-- **Hyphens and digits are a number, or refused.** -/
theorem optionValue_numeral (h : Numeral hyphens digits value) :
    (Whole hyphens digits → optionValue value = .ok (.int (signedValue (hyphens == 1) digits))) ∧
      (¬ Whole hyphens digits → ∃ text, optionValue value = .error (.value text)) := by
  have hlooks : looksWhole value = true := looksWhole_iff.mpr ⟨hyphens, digits, h⟩
  have hhyphens : (List.replicate hyphens '-').filter isDecimal = [] := by
    rw [List.filter_replicate_of_neg (by decide)]
  have hcount : (∀ c ∈ digits, isDecimal c = true) →
      (value.filter isDecimal).length = digits.length := fun hdecimal => by
    rw [h.shape, List.filter_append, hhyphens, List.filter_eq_self.mpr hdecimal, List.nil_append]
  unfold optionValue
  rw [if_pos hlooks, wholeValue, readInt?_numeral h]
  constructor
  · intro hwhole
    rw [if_pos ⟨hwhole.hyphens, List.all_eq_true.mpr hwhole.decimal⟩]
    dsimp only
    rw [hcount hwhole.decimal, if_neg (by have := hwhole.length; omega)]
    rfl
  · intro hnot
    by_cases hread : hyphens ≤ 1 ∧ digits.all isDecimal = true
    · have hdecimal := List.all_eq_true.mp hread.2
      have hlong : ¬ digits.length ≤ digitLimit := fun hlength => hnot ⟨hread.1, hdecimal, hlength⟩
      rw [if_pos hread]
      dsimp only
      rw [hcount hdecimal, if_pos (by omega)]
      exact ⟨_, rfl⟩
    · rw [if_neg hread]
      exact ⟨_, rfl⟩

/-- Any other value stays the text that it is. -/
theorem optionValue_text (h : ¬ ∃ hyphens digits, Numeral hyphens digits value) :
    optionValue value = .ok (.text (String.ofList value)) := by
  unfold optionValue
  rw [if_neg fun hlooks => h (looksWhole_iff.mp hlooks)]

/-! ### Pieces -/

/-- The pieces of a profile, between its commas. -/
def pieces (profile : String) : List (List Char) :=
  profile.toList.splitOn ','

/-- The items of pieces: those that are not blank, without the blanks around them. -/
def kept (pieces : List (List Char)) : List (List Char) :=
  (pieces.map trim).filter fun item => !item.isEmpty

theorem items_eq (profile : String) : items profile = kept (pieces profile) :=
  rfl

variable {piece : List Char}

theorem kept_cons_of_blank (h : Blank piece) (ps : List (List Char)) :
    kept (piece :: ps) = kept ps := by
  unfold kept
  rw [List.map_cons, trim_eq_nil_iff.mpr h]
  rfl

theorem kept_cons_of_not_blank (h : ¬ Blank piece) (ps : List (List Char)) :
    kept (piece :: ps) = trim piece :: kept ps := by
  have hne : trim piece ≠ [] := fun hnil => h (trim_eq_nil_iff.mp hnil)
  unfold kept
  rw [List.map_cons, List.filter_cons_of_pos (by simpa using hne)]

/-- An option is put to those before it, if its value is not refused. -/
theorem optionsOf_kept_cons (h : option? piece = some (name, value)) (profile : String)
    (options : List (String × Document)) (ps : List (List Char)) :
    optionsOf profile options (kept (piece :: ps)) = optionValue value >>= fun d =>
      optionsOf profile (put options (String.ofList name) d) (kept ps) := by
  have hblank : ¬ Blank piece := by
    intro hblank
    rw [option?_eq_none_of_not_mem (hblank.not_mem isBlank_equals)] at h
    cases h
  rw [kept_cons_of_not_blank hblank, optionsOf, ← option?_eq_of_padded (padded_trim piece), h]

/-- How pieces are read, after options that were read before them. -/
inductive Reads (profile : String) : List (String × Document) → List (List Char) →
    Except Failure (List (String × Document)) → Prop
  | done {options : List (String × Document)} : Reads profile options [] (.ok options)
  | blank {options : List (String × Document)} {piece : List Char} {pieces : List (List Char)}
      {r : Except Failure (List (String × Document))} (hblank : Blank piece)
      (hrest : Reads profile options pieces r) : Reads profile options (piece :: pieces) r
  | malformed {options : List (String × Document)} {piece : List Char} {pieces : List (List Char)}
      (hblank : ¬ Blank piece) (hnone : ∀ name value, ¬ Forms piece name value) :
      Reads profile options (piece :: pieces)
        (.error (.tuning (.badOption (String.ofList (trim piece)) profile)))
  | refused {options : List (String × Document)} {piece name value : List Char}
      {pieces : List (List Char)} {x : Failure} (hforms : Forms piece name value)
      (hvalue : optionValue (trim value) = .error x) :
      Reads profile options (piece :: pieces) (.error x)
  | option {options : List (String × Document)} {piece name value : List Char}
      {pieces : List (List Char)} {d : Document} {r : Except Failure (List (String × Document))}
      (hforms : Forms piece name value) (hvalue : optionValue (trim value) = .ok d)
      (hrest : Reads profile (put options (String.ofList (trim name)) d) pieces r) :
      Reads profile options (piece :: pieces) r

/-- **Pieces are read by the rules**, one after the other. -/
theorem optionsOf_reads (profile : String) (options : List (String × Document))
    (pieces : List (List Char)) :
    Reads profile options pieces (optionsOf profile options (kept pieces)) := by
  induction pieces generalizing options with
  | nil => exact .done
  | cons piece pieces ih =>
    by_cases hblank : Blank piece
    · rw [kept_cons_of_blank hblank]
      exact .blank hblank (ih options)
    rcases forms_or_none piece with ⟨name, value, hforms⟩ | hnone
    · rw [optionsOf_kept_cons hforms.option?_eq]
      cases hvalue : optionValue (trim value) with
      | error x => exact .refused hforms hvalue
      | ok d => exact .option hforms hvalue (ih _)
    · rw [kept_cons_of_not_blank hblank, optionsOf, ← option?_eq_of_padded (padded_trim piece), hnone]
      refine .malformed hblank fun name value hforms => ?_
      rw [hforms.option?_eq] at hnone
      cases hnone

/-- Options are found, and there is at least one. -/
theorem read_of_optionsOf {options : List (String × Document)} {profile : String}
    (h : optionsOf profile [] (kept (pieces profile)) = .ok options) (hne : options ≠ []) :
    read profile = .ok options := by
  unfold read
  rw [items_eq, h]
  cases options with
  | nil => exact absurd rfl hne
  | cons o rest => rfl

/-- **A profile is what its pieces are read as**, unless there are no options in it. -/
theorem read_cases (profile : String) :
    ∃ r, Reads profile [] (pieces profile) r ∧
      ((∃ x, r = .error x ∧ read profile = .error x) ∨
        (r = .ok [] ∧ read profile = .error (.tuning (.emptyProfile profile))) ∨
        ∃ options, r = .ok options ∧ options ≠ [] ∧ read profile = .ok options) := by
  have hreads := optionsOf_reads profile [] (pieces profile)
  unfold read
  rw [items_eq]
  cases hoptions : optionsOf profile [] (kept (pieces profile)) with
  | error x =>
    rw [hoptions] at hreads
    exact ⟨_, hreads, .inl ⟨x, rfl, rfl⟩⟩
  | ok options =>
    rw [hoptions] at hreads
    cases options with
    | nil => exact ⟨_, hreads, .inr (.inl ⟨rfl, rfl⟩)⟩
    | cons o rest => exact ⟨_, hreads, .inr (.inr ⟨_, rfl, List.cons_ne_nil _ _, rfl⟩)⟩

end IngressBench.Profile
