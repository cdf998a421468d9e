import IngressBench.File.Path

/-!
Paths inside a directory. The parts of a path have no slashes, are not empty, and say more than where
they stand (`Path.IsPart`); a path that is written from such parts has just these parts
(`Path.parts_ofParts`). So a path inside a directory has the parts of the directory and then its own
(`Path.parts_join`), and starts where the directory does (`Path.isAbsolute_join`).
-/
namespace IngressBench.Path

/-- A text that can be a part of a path. -/
structure IsPart (part : String) : Prop where
  noSlash : '/' ∉ part.toList
  ne_empty : part ≠ ""
  ne_point : part ≠ "."

/-- A path that starts with a slash. -/
def IsAbsolute (path : String) : Prop :=
  path.startsWith "/" = true

theorem isAbsolute_iff {path : String} : IsAbsolute path ↔ path.toList.head? = some '/' := by
  unfold IsAbsolute
  rw [String.startsWith_string_iff]
  show ['/'] <+: path.toList ↔ _
  cases path.toList with
  | nil => simp
  | cons c rest => simp [eq_comm]

/-! ### Splitting -/

/-- What stands between separators holds none. -/
theorem not_mem_of_mem_splitOn {sep : Char} {s piece : List Char} (h : piece ∈ s.splitOn sep) :
    sep ∉ piece := by
  induction s generalizing piece with
  | nil =>
    obtain rfl : piece = [] := by simpa using h
    exact List.not_mem_nil
  | cons c rest ih =>
    rw [List.splitOn_cons_eq_if_modifyHead] at h
    by_cases hc : c = sep
    · simp only [hc, beq_self_eq_true, if_true, List.mem_cons] at h
      rcases h with rfl | h
      · exact List.not_mem_nil
      · exact ih h
    · simp only [beq_eq_false_iff_ne.mpr hc, Bool.false_eq_true, if_false] at h
      cases hpieces : rest.splitOn sep with
      | nil => exact absurd hpieces (List.splitOn_ne_nil sep rest)
      | cons first pieces =>
        rw [hpieces] at h ih
        rcases List.mem_cons.mp h with rfl | h
        · simpa [Ne.symm hc] using ih List.mem_cons_self
        · exact ih (List.mem_cons_of_mem _ h)

/-- Every part of a path can be one. -/
theorem isPart_of_mem {path part : String} (h : part ∈ parts path) : IsPart part := by
  obtain ⟨hpiece, hpart⟩ := List.mem_filter.mp h
  obtain ⟨piece, hsplit, rfl⟩ := List.mem_map.mp hpiece
  simp only [Bool.and_eq_true, Bool.not_eq_true', decide_eq_true_eq] at hpart
  refine ⟨by simpa using not_mem_of_mem_splitOn hsplit, fun hempty => ?_, hpart.2⟩
  simp [hempty] at hpart

/-- The text of a part is its only part. -/
theorem parts_of_isPart {part : String} (h : IsPart part) : parts part = [part] := by
  unfold parts
  rw [List.splitOn_eq_singleton h.noSlash]
  simp [h.ne_empty, h.ne_point]

/-- A slash in front adds no part. -/
theorem parts_slash (path : String) : parts ("/" ++ path) = parts path := by
  have hsplit : ("/" ++ path).toList.splitOn '/' = [] :: path.toList.splitOn '/' := by
    rw [String.toList_append]
    exact List.splitOn_append_cons_self [] path.toList
  unfold parts
  rw [hsplit]
  simp

/-- Parts with slashes between them are told apart again. -/
theorem splitOn_intercalate {row : List String} (h : ∀ part ∈ row, IsPart part) (hne : row ≠ []) :
    ("/".intercalate row).toList.splitOn '/' = row.map String.toList := by
  have hnoSlash : ∀ piece ∈ row.map String.toList, '/' ∉ piece := by
    intro piece hpiece
    obtain ⟨part, hpart, rfl⟩ := List.mem_map.mp hpiece
    exact (h part hpart).noSlash
  rw [String.toList_intercalate]
  exact List.splitOn_intercalate '/' hnoSlash (by simpa using hne)

theorem parts_intercalate {row : List String} (h : ∀ part ∈ row, IsPart part) :
    parts ("/".intercalate row) = row := by
  cases row with
  | nil => rfl
  | cons first rest =>
    have hback : String.ofList ∘ String.toList = id := by
      funext s
      simp
    unfold parts
    rw [splitOn_intercalate h (List.cons_ne_nil first rest), List.map_map, hback, List.map_id,
      List.filter_eq_self]
    intro part hpart
    simp [(h part hpart).ne_empty, (h part hpart).ne_point]

/-- A row of parts does not start with a slash. -/
theorem not_isAbsolute_intercalate {row : List String} (h : ∀ part ∈ row, IsPart part) :
    ¬ IsAbsolute ("/".intercalate row) := by
  intro habsolute
  cases row with
  | nil => exact absurd (isAbsolute_iff.mp habsolute) (by simp)
  | cons first rest =>
    obtain ⟨tail, htail⟩ := List.head?_eq_some_iff.mp (isAbsolute_iff.mp habsolute)
    have hsplit := splitOn_intercalate h (List.cons_ne_nil first rest)
    rw [htail, ← List.nil_append ('/' :: tail), List.splitOn_append_cons_self,
      List.splitOn_nil] at hsplit
    have hempty : first.toList = [] := (List.cons.inj hsplit).1.symm
    exact (h first List.mem_cons_self).ne_empty (by simpa using hempty)

/-! ### Paths of parts -/

/-- What a path can start with. -/
inductive IsRoot : String → Prop
  | none : IsRoot ""
  | one : IsRoot "/"
  | two : IsRoot "//"

theorem isRoot_root (path : String) : IsRoot (root path) := by
  unfold root
  split
  · exact .two
  · split
    · exact .one
    · exact .none

theorem root_ne_empty_iff {path : String} : root path ≠ "" ↔ IsAbsolute path := by
  unfold root
  split
  · rename_i htwo
    have hstart : ['/', '/'] <+: path.toList := by simpa using (Bool.and_eq_true_iff.mp htwo).1
    obtain ⟨rest, hrest⟩ := hstart
    simp [isAbsolute_iff, ← hrest]
  · unfold IsAbsolute
    split <;> simp_all

/-- **A path that is written from parts has these parts.** -/
theorem parts_ofParts {start : String} (hstart : IsRoot start) {row : List String}
    (h : ∀ part ∈ row, IsPart part) : parts (ofParts start row) = row := by
  have hrow := parts_intercalate h
  cases hstart with
  | none =>
    by_cases hempty : "/".intercalate row = ""
    · rw [hempty] at hrow
      simp only [ofParts, hempty]
      exact hrow
    · simpa [ofParts, hempty] using hrow
  | one =>
    show parts ("/" ++ "/".intercalate row) = row
    rw [parts_slash, hrow]
  | two =>
    show parts ("/" ++ ("/" ++ "/".intercalate row)) = row
    rw [parts_slash, parts_slash, hrow]

/-- It starts with its root. -/
theorem isAbsolute_ofParts {start : String} (hstart : IsRoot start) {row : List String}
    (h : ∀ part ∈ row, IsPart part) : IsAbsolute (ofParts start row) ↔ start ≠ "" := by
  cases hstart with
  | none =>
    have hrow := not_isAbsolute_intercalate h
    by_cases hempty : "/".intercalate row = ""
    · simp [ofParts, hempty, isAbsolute_iff]
    · simpa [ofParts, hempty] using hrow
  | one => simp [ofParts, isAbsolute_iff]
  | two => simp [ofParts, isAbsolute_iff]

theorem ofParts_ne_empty (start : String) (row : List String) : ofParts start row ≠ "" := by
  by_cases hstart : start = ""
  · by_cases hrow : "/".intercalate row = "" <;> simp [ofParts, hstart, hrow]
  · simp [ofParts, hstart]

/-! ### Paths inside a directory -/

/-- **A path inside a directory has the parts of the directory and then its own.** -/
theorem parts_join (directory inner : String) :
    parts (join directory inner) = parts directory ++ parts inner := by
  refine parts_ofParts (isRoot_root directory) fun part hpart => ?_
  rcases List.mem_append.mp hpart with hpart | hpart
  · exact isPart_of_mem hpart
  · exact isPart_of_mem hpart

theorem isAbsolute_join {directory inner : String} :
    IsAbsolute (join directory inner) ↔ IsAbsolute directory := by
  refine Iff.trans ?_ root_ne_empty_iff
  refine isAbsolute_ofParts (isRoot_root directory) fun part hpart => ?_
  rcases List.mem_append.mp hpart with hpart | hpart
  · exact isPart_of_mem hpart
  · exact isPart_of_mem hpart

theorem join_ne_empty (directory inner : String) : join directory inner ≠ "" :=
  ofParts_ne_empty (root directory) (parts directory ++ parts inner)

end IngressBench.Path
