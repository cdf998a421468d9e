import IngressBench.Text.Blank
import Mathlib.Data.List.TakeWhile

/-!
Blanks around a text. Trimming takes away blanks and nothing else: the text is what is left with blanks
around it (`Text.padded_trim`), and a bare text with any blanks around it is trimmed to itself
(`Text.trim_padded`).
-/
namespace IngressBench.Text

variable {p : Char → Bool} {s left right core : List Char}

/-! ### Trimming by any class of characters -/

theorem trimWith_append_left (h : ∀ c ∈ left, p c = true) :
    trimWith p (left ++ s) = trimWith p s := by
  unfold trimWith
  rw [List.dropWhile_append_of_pos h]

theorem trimWith_append_right (h : ∀ c ∈ right, p c = true) :
    trimWith p (s ++ right) = trimWith p s := by
  have hright : right.dropWhile p = [] := List.dropWhile_eq_nil_iff.mpr h
  unfold trimWith
  rw [List.dropWhile_append]
  split
  · rename_i hempty
    rw [hright, List.isEmpty_iff.mp hempty]
  · rw [List.reverse_append, List.dropWhile_append_of_pos (by simpa using h)]

theorem trimWith_eq_nil_iff : trimWith p s = [] ↔ ∀ c ∈ s, p c = true := by
  unfold trimWith
  rw [List.reverse_eq_nil_iff, List.dropWhile_eq_nil_iff]
  constructor
  · intro h c hc
    rw [← List.takeWhile_append_dropWhile (p := p) (l := s), List.mem_append] at hc
    rcases hc with hc | hc
    · exact List.mem_takeWhile_imp hc
    · exact h c (List.mem_reverse.mpr hc)
  · intro h c hc
    exact h c ((List.dropWhile_sublist p).mem (List.mem_reverse.mp hc))

/-- A text that is not trimmed at either end stays as it is. -/
theorem trimWith_eq_self (hfirst : ∀ c rest, s = c :: rest → p c = false)
    (hlast : ∀ c rest, s = rest ++ [c] → p c = false) : trimWith p s = s := by
  have hdrop : s.dropWhile p = s := by
    cases s with
    | nil => rfl
    | cons c rest => rw [List.dropWhile_cons, hfirst c rest rfl]; rfl
  have hreverse : s.reverse.dropWhile p = s.reverse := by
    cases hs : s.reverse with
    | nil => rfl
    | cons c rest =>
      have hends : s = rest.reverse ++ [c] := by
        rw [← List.reverse_cons, ← hs, List.reverse_reverse]
      rw [List.dropWhile_cons, hlast c _ hends]
      rfl
  unfold trimWith
  rw [hdrop, hreverse, List.reverse_reverse]

/-! ### Blanks -/

/-- Blanks only, or nothing. -/
def Blank (s : List Char) : Prop :=
  ∀ c ∈ s, isBlank c = true

/-- No blanks. -/
def Clear (s : List Char) : Prop :=
  ∀ c ∈ s, isBlank c = false

instance (s : List Char) : Decidable (Blank s) :=
  List.decidableBAll (fun c => isBlank c = true) s

instance (s : List Char) : Decidable (Clear s) :=
  List.decidableBAll (fun c => isBlank c = false) s

/-- A text without blanks at its ends. -/
structure Bare (s : List Char) : Prop where
  first : ∀ c rest, s = c :: rest → isBlank c = false
  last : ∀ c rest, s = rest ++ [c] → isBlank c = false

/-- A text with blanks around it. -/
def Padded (core s : List Char) : Prop :=
  ∃ left right, Blank left ∧ Blank right ∧ s = left ++ (core ++ right)

theorem blank_nil : Blank [] :=
  fun _ h => absurd h List.not_mem_nil

theorem Padded.refl (s : List Char) : Padded s s :=
  ⟨[], [], blank_nil, blank_nil, by simp⟩

theorem Blank.not_mem {c : Char} (h : Blank s) (hc : isBlank c = false) : c ∉ s := by
  intro hmem
  have hblank := h c hmem
  rw [hc] at hblank
  cases hblank

theorem Padded.not_mem {c : Char} (h : Padded core s) (hc : isBlank c = false) (hcore : c ∉ core) :
    c ∉ s := by
  obtain ⟨left, right, hleft, hright, rfl⟩ := h
  simp [hcore, hleft.not_mem hc, hright.not_mem hc]

theorem Clear.bare (h : Clear s) : Bare s where
  first := fun c _ hs => h c (hs ▸ List.mem_cons_self)
  last := fun c _ hs => h c (hs ▸ by simp)

theorem trim_eq_nil_iff : trim s = [] ↔ Blank s :=
  trimWith_eq_nil_iff

theorem trim_of_bare (h : Bare s) : trim s = s :=
  trimWith_eq_self h.first h.last

/-- Blanks around a text do not matter. -/
theorem trim_eq_of_padded (h : Padded core s) : trim s = trim core := by
  obtain ⟨left, right, hleft, hright, rfl⟩ := h
  exact (trimWith_append_left hleft).trans (trimWith_append_right hright)

/-- **A bare text with blanks around it is trimmed to itself.** -/
theorem trim_padded (h : Padded core s) (hbare : Bare core) : trim s = core :=
  (trim_eq_of_padded h).trans (trim_of_bare hbare)

/-- **Trimming takes away blanks, and nothing else.** -/
theorem padded_trim (s : List Char) : Padded (trim s) s := by
  refine ⟨s.takeWhile isBlank, ((s.dropWhile isBlank).reverse.takeWhile isBlank).reverse,
    fun c hc => List.mem_takeWhile_imp hc,
    fun c hc => List.mem_takeWhile_imp (List.mem_reverse.mp hc), ?_⟩
  unfold trim trimWith
  rw [← List.reverse_append, List.takeWhile_append_dropWhile, List.reverse_reverse,
    List.takeWhile_append_dropWhile]

end IngressBench.Text
