import IngressBench.Proofs.Tuning.Options
import Mathlib.Data.List.Induction

/-!
Options written and read again. Options are written between commas as their name, a `=` and their value,
with blanks around each of the three, and blank pieces may stand among them (`Profile.Written`). Reading
such a profile gives the options back, in their order; of options of one name it keeps the place of the
first and the value of the last (`Profile.read_written`).
-/
namespace IngressBench.Profile

open Text

variable {name : String} {d : Document} {spelling piece : List Char} {ps : List (List Char)}
  {options : List (String × Document)}

/-! ### Options put one after the other -/

/-- Options with other options put to them. -/
def putAll (options others : List (String × Document)) : List (String × Document) :=
  others.foldl (fun sofar o => put sofar o.1 o.2) options

theorem putAll_concat (options others : List (String × Document)) (o : String × Document) :
    putAll options (others ++ [o]) = put (putAll options others) o.1 o.2 := by
  simp [putAll]

/-- An option that is there keeps its place, and a new one comes last. -/
theorem names_put (options : List (String × Document)) (name : String) (d : Document) :
    (put options name d).map Prod.fst =
      if name ∈ options.map Prod.fst then options.map Prod.fst else options.map Prod.fst ++ [name] := by
  induction options with
  | nil => rfl
  | cons o rest ih =>
    unfold put
    by_cases hname : o.1 = name
    · simp [hname]
    · rw [if_neg hname, List.map_cons, ih]
      simp only [List.map_cons, List.mem_cons, Ne.symm hname, false_or]
      split <;> rfl

theorem lookup_cons_eq (o : String × Document) (rest : List (String × Document)) (n : String) :
    (o :: rest).lookup n = if n = o.1 then some o.2 else rest.lookup n := by
  rw [List.lookup_cons]
  by_cases hn : n = o.1
  · rw [beq_iff_eq.mpr hn, if_pos hn]
  · rw [beq_eq_false_iff_ne.mpr hn, if_neg hn]

theorem lookup_put (options : List (String × Document)) (name n : String) (d : Document) :
    (put options name d).lookup n = if n = name then some d else options.lookup n := by
  induction options with
  | nil => exact lookup_cons_eq (name, d) [] n
  | cons o rest ih =>
    unfold put
    by_cases hname : o.1 = name
    · rw [if_pos hname, lookup_cons_eq, lookup_cons_eq, hname]
      by_cases hn : n = name <;> simp [hn]
    · rw [if_neg hname, lookup_cons_eq, lookup_cons_eq, ih]
      by_cases hn : n = o.1
      · simp [hn, hname]
      · simp [hn]

theorem put_of_not_mem (h : name ∉ options.map Prod.fst) :
    put options name d = options ++ [(name, d)] := by
  induction options with
  | nil => rfl
  | cons o rest ih =>
    rw [List.map_cons, List.mem_cons, not_or] at h
    unfold put
    rw [if_neg (Ne.symm h.1), ih h.2]
    rfl

/-- **Names stand in the order in which they first appear.** -/
theorem names_putAll (options : List (String × Document)) :
    (putAll [] options).map Prod.fst = (options.map Prod.fst).eraseDups := by
  induction options using List.reverseRecOn with
  | nil => rfl
  | append_singleton options o ih =>
    rw [putAll_concat, names_put, ih, List.map_append, List.map_singleton, List.eraseDups_append]
    by_cases hmem : o.1 ∈ options.map Prod.fst
    · rw [if_pos (List.mem_eraseDups.mpr hmem)]
      simp [List.removeAll, hmem]
    · rw [if_neg (mt List.mem_eraseDups.mp hmem)]
      simp [List.removeAll, hmem, List.eraseDups_cons]

/-- **A name has the last value that it was given.** -/
theorem lookup_putAll (options : List (String × Document)) (n : String) :
    (putAll [] options).lookup n = options.reverse.lookup n := by
  induction options using List.reverseRecOn with
  | nil => rfl
  | append_singleton options o ih =>
    rw [putAll_concat, lookup_put, ih, List.reverse_concat, lookup_cons_eq]

/-- Options of different names stay as they are. -/
theorem putAll_of_nodup (h : (options.map Prod.fst).Nodup) : putAll [] options = options := by
  induction options using List.reverseRecOn with
  | nil => rfl
  | append_singleton options o ih =>
    rw [List.map_append, List.map_singleton, List.nodup_append] at h
    obtain ⟨hnodup, -, hfresh⟩ := h
    rw [putAll_concat, ih hnodup, put_of_not_mem]
    intro hmem
    exact hfresh o.1 hmem o.1 (List.mem_singleton_self _) rfl

/-! ### Writing -/

/-- A name that can be written: not empty, bare, and without the signs between names and values. -/
structure Writable (name : String) : Prop where
  nonempty : name.toList ≠ []
  bare : Bare name.toList
  comma : ',' ∉ name.toList
  equals : '=' ∉ name.toList

/-- How a value is spelled: a number that is not too long in decimal digits; and a text as it is, if it
is not empty, bare, without commas, and does not look like a number. -/
inductive Spelled : Document → List Char → Prop
  | int {i : Int} (hlength : (Nat.toDigits 10 i.natAbs).length ≤ digitLimit) :
      Spelled (.int i) (toString i).toList
  | text {s : String} (hne : s.toList ≠ []) (hbare : Bare s.toList) (hcomma : ',' ∉ s.toList)
      (hnumeral : ¬ ∃ hyphens digits, Numeral hyphens digits s.toList) : Spelled (.text s) s.toList

/-- Pieces in which options are written, one after the other, with any blanks and blank pieces. -/
inductive Written : List (String × Document) → List (List Char) → Prop
  | nil : Written [] []
  | blank {options : List (String × Document)} {piece : List Char} {ps : List (List Char)}
      (hblank : Blank piece) (hrest : Written options ps) : Written options (piece :: ps)
  | option {name : String} {d : Document} {spelling n v piece : List Char}
      {options : List (String × Document)} {ps : List (List Char)}
      (hname : Writable name) (hvalue : Spelled d spelling) (hn : Padded name.toList n)
      (hv : Padded spelling v) (hpiece : Padded (n ++ '=' :: v) piece) (hrest : Written options ps) :
      Written ((name, d) :: options) (piece :: ps)

theorem Spelled.ne_nil (h : Spelled d spelling) : spelling ≠ [] := by
  cases h with
  | @int i _ =>
    rw [(numeral_toString i).shape]
    exact List.append_ne_nil_of_right_ne_nil _ (numeral_toString i).nonempty
  | text hne _ _ _ => exact hne

theorem Spelled.bare (h : Spelled d spelling) : Bare spelling := by
  cases h with
  | @int i _ => exact (numeral_toString i).clear.bare
  | text _ hbare _ _ => exact hbare

theorem Spelled.comma (h : Spelled d spelling) : ',' ∉ spelling := by
  cases h with
  | @int i _ => exact (numeral_toString i).not_mem (by decide) (by decide)
  | text _ _ hcomma _ => exact hcomma

/-- **A value that was spelled is read as that value.** -/
theorem Spelled.optionValue_eq (h : Spelled d spelling) : optionValue spelling = .ok d := by
  cases h with
  | @int i hlength =>
    have hwhole : Whole (if i < 0 then 1 else 0) (Nat.toDigits 10 i.natAbs) :=
      ⟨by split <;> omega, fun _ => isDecimal_of_mem_toDigits, hlength⟩
    rw [(optionValue_numeral (numeral_toString i)).1 hwhole, signedValue_toDigits]
  | @text s _ _ _ hnumeral => rw [optionValue_text hnumeral, String.ofList_toList]

/-- **The halves of a written option** are its name and the spelling of its value. -/
theorem option?_of_padded {n v : List Char} (hname : Writable name) (hvalue : Spelled d spelling)
    (hn : Padded name.toList n) (hv : Padded spelling v) (hpiece : Padded (n ++ '=' :: v) piece) :
    option? piece = some (name.toList, spelling) := by
  have hfirst : '=' ∉ n := hn.not_mem isBlank_equals hname.equals
  rw [option?_eq_of_padded hpiece, option?_append hfirst, trim_padded hn hname.bare,
    trim_padded hv hvalue.bare]
  simp [hname.nonempty, hvalue.ne_nil]

/-! ### Reading -/

theorem isBlank_comma : isBlank ',' = false := by decide

/-- No comma stands in a piece. -/
theorem Written.comma (h : Written options ps) : ∀ piece ∈ ps, ',' ∉ piece := by
  induction h with
  | nil => simp
  | blank hblank _ ih => exact List.forall_mem_cons.mpr ⟨hblank.not_mem isBlank_comma, ih⟩
  | option hname hvalue hn hv hpiece _ ih =>
    refine List.forall_mem_cons.mpr ⟨hpiece.not_mem isBlank_comma ?_, ih⟩
    simp [hn.not_mem isBlank_comma hname.comma, hv.not_mem isBlank_comma hvalue.comma]

theorem Written.ne_nil (h : Written options ps) (hne : options ≠ []) : ps ≠ [] := by
  cases h with
  | nil => exact absurd rfl hne
  | blank _ _ => exact List.cons_ne_nil _ _
  | option _ _ _ _ _ _ => exact List.cons_ne_nil _ _

/-- The pieces of a profile are those that it was put together from. -/
theorem Written.pieces_eq (h : Written options ps) (hne : options ≠ []) :
    pieces (String.ofList ([','].intercalate ps)) = ps := by
  unfold pieces
  rw [String.toList_ofList, List.splitOn_intercalate ',' h.comma (h.ne_nil hne)]

/-- **Options are put one after the other as they are written**; by induction on the pieces. -/
theorem Written.optionsOf_eq (h : Written options ps) (profile : String)
    (before : List (String × Document)) :
    optionsOf profile before (kept ps) = .ok (putAll before options) := by
  induction h generalizing before with
  | nil => rfl
  | blank hblank _ ih => rw [kept_cons_of_blank hblank, ih]
  | option hname hvalue hn hv hpiece _ ih =>
    rw [optionsOf_kept_cons (option?_of_padded hname hvalue hn hv hpiece), hvalue.optionValue_eq,
      String.ofList_toList]
    exact ih _

/-- **Options that were written are read again**, each name at its first place and with its last value;
if the names differ, they are the same options. -/
theorem read_written (h : Written options ps) (hne : options ≠ []) :
    ∃ found, read (String.ofList ([','].intercalate ps)) = .ok found ∧
      found.map Prod.fst = (options.map Prod.fst).eraseDups ∧
      (∀ name, found.lookup name = options.reverse.lookup name) ∧
      ((options.map Prod.fst).Nodup → found = options) := by
  have hfound : putAll [] options ≠ [] := by
    intro hnil
    have hnames := names_putAll options
    rw [hnil] at hnames
    cases options with
    | nil => exact hne rfl
    | cons o rest =>
      rw [List.map_cons, List.eraseDups_cons] at hnames
      cases hnames
  refine ⟨putAll [] options, read_of_optionsOf ?_ hfound, names_putAll options,
    lookup_putAll options, putAll_of_nodup⟩
  rw [h.pieces_eq hne, h.optionsOf_eq]

theorem Writable.of_clear (hne : name.toList ≠ []) (hclear : Clear name.toList)
    (hcomma : ',' ∉ name.toList) (hequals : '=' ∉ name.toList) : Writable name :=
  ⟨hne, hclear.bare, hcomma, hequals⟩

/-- An `a`, a `b` whose value has a `=` in it, and an `a` again, with blanks and blank pieces. -/
theorem written_again :
    Written [("a", .int 4), ("b", .text "x=y"), ("a", .int (-8))]
      [" a = 4".toList, [], "\tb=x=y ".toList, [' '], "a=-8".toList] := by
  have ha : Writable "a" := .of_clear (by decide) (by decide) (by decide) (by decide)
  have hb : Writable "b" := .of_clear (by decide) (by decide) (by decide) (by decide)
  have hclear : Clear "x=y".toList := by decide
  have htext : Spelled (.text "x=y") "x=y".toList := by
    refine .text (by decide) hclear.bare (by decide) ?_
    rintro ⟨hyphens, digits, hnumeral⟩
    exact hnumeral.not_mem (c := 'x') (by decide) (by decide) (by decide)
  have hfirst : Padded ("a ".toList ++ '=' :: " 4".toList) " a = 4".toList :=
    ⟨[' '], [], by decide, by decide, by decide⟩
  have hsecond : Padded ("b".toList ++ '=' :: "x=y".toList) "\tb=x=y ".toList :=
    ⟨['\t'], [' '], by decide, by decide, by decide⟩
  refine .option ha (.int (by decide)) ⟨[], [' '], by decide, by decide, by decide⟩
    ⟨[' '], [], by decide, by decide, by decide⟩ hfirst (.blank (by decide) ?_)
  refine .option hb htext (Padded.refl _) (Padded.refl _) hsecond (.blank (by decide) ?_)
  exact .option ha (.int (by decide)) (Padded.refl _) (Padded.refl _) (Padded.refl _) .nil

theorem read_written_again :
    ∃ found, read (String.ofList ([','].intercalate
        [" a = 4".toList, [], "\tb=x=y ".toList, [' '], "a=-8".toList])) = .ok found ∧
      found.map Prod.fst = ["a", "b", "a"].eraseDups ∧
      (∀ name, found.lookup name =
        [("a", Document.int (-8)), ("b", .text "x=y"), ("a", .int 4)].lookup name) ∧
      (["a", "b", "a"].Nodup → found = [("a", .int 4), ("b", .text "x=y"), ("a", .int (-8))]) :=
  read_written written_again (List.cons_ne_nil _ _)

end IngressBench.Profile
