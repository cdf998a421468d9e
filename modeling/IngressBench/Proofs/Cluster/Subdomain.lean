import IngressBench.Proofs.TestCase
import IngressBench.Settings
import Mathlib.Computability.Language

/-!
Which names of namespaces are accepted. A name is a row of labels with single points between them, of
at most 253 characters (`Subdomain.Name`); the rows are the language of an expression over letters,
digits, hyphens and points (`Subdomain.mem_rows_iff`). The names that are accepted are these and no
others (`Subdomain.Validated`), but for a name with a line feed behind it, which is accepted as well
(`Subdomain.validated_iff`). The namespace of settings is one of these, wherever it comes from
(`Subdomain.ns_of_read`).
-/
namespace IngressBench.Subdomain

open scoped Computability

/-- A lower case letter or a digit. -/
def Alphanumeric (c : Char) : Prop :=
  ('a' ≤ c ∧ c ≤ 'z') ∨ ('0' ≤ c ∧ c ≤ '9')

/-- Letters, digits and hyphens, with a letter or a digit at either end. -/
structure Label (s : List Char) : Prop where
  inner : ∀ c ∈ s, Alphanumeric c ∨ c = '-'
  first : ∃ c ∈ s.head?, Alphanumeric c
  last : ∃ c ∈ s.getLast?, Alphanumeric c

/-- One label or more, with single points between them. -/
def Row (s : List Char) : Prop :=
  ∃ ls : List (List Char), ls ≠ [] ∧ (∀ l ∈ ls, Label l) ∧ s = ['.'].intercalate ls

/-- The name of a namespace. -/
structure Name (s : String) : Prop where
  short : s.length ≤ 253
  row : Row s.toList

/-- A name and one line feed behind it. -/
def Fed (s : String) : Prop :=
  ∃ name, Name name ∧ name.length < 253 ∧ s = name ++ "\n"

/-! ### Labels -/

theorem isEdge_iff {c : Char} : isEdge c = true ↔ Alphanumeric c := by
  simp [isEdge, Alphanumeric]

theorem isInner_iff {c : Char} : isInner c = true ↔ Alphanumeric c ∨ c = '-' := by
  simp [isInner, isEdge_iff]

theorem isLabel_iff {s : List Char} : isLabel s = true ↔ Label s := by
  have hends : isLabel s = true ↔ (∀ c ∈ s, Alphanumeric c ∨ c = '-') ∧
      (∃ c ∈ s.head?, Alphanumeric c) ∧ ∃ c ∈ s.getLast?, Alphanumeric c := by
    simp [isLabel, isInner_iff, isEdge_iff, Option.any_eq_true, and_assoc]
  rw [hends]
  exact ⟨fun ⟨hinner, hfirst, hlast⟩ => ⟨hinner, hfirst, hlast⟩,
    fun h => ⟨h.inner, h.first, h.last⟩⟩

theorem not_alphanumeric_point : ¬ Alphanumeric '.' := by
  unfold Alphanumeric
  decide

theorem not_alphanumeric_feed : ¬ Alphanumeric '\n' := by
  unfold Alphanumeric
  decide

/-- A label has no points inside it. -/
theorem Label.not_mem_point {s : List Char} (h : Label s) : '.' ∉ s := by
  intro hmem
  rcases h.inner _ hmem with hc | hc
  · exact not_alphanumeric_point hc
  · cases hc

/-- Nor a line feed. -/
theorem Label.not_mem_feed {s : List Char} (h : Label s) : '\n' ∉ s := by
  intro hmem
  rcases h.inner _ hmem with hc | hc
  · exact not_alphanumeric_feed hc
  · cases hc

/-! ### Rows -/

/-- The labels of a row are found between its points. -/
theorem isRow_iff {s : List Char} : isRow s = true ↔ Row s := by
  have hlabels : isRow s = true ↔ ∀ l ∈ s.splitOn '.', Label l := by
    simp [isRow, labels, isLabel_iff]
  rw [hlabels]
  constructor
  · intro h
    exact ⟨s.splitOn '.', List.splitOn_ne_nil _ _, h, (List.intercalate_splitOn '.').symm⟩
  · rintro ⟨ls, hne, hls, rfl⟩
    rwa [List.splitOn_intercalate '.' (fun l hl => (hls l hl).not_mem_point) hne]

/-! ### The expression for rows -/

/-- Single letters and digits. -/
def edges : Language Char :=
  {s | ∃ c, Alphanumeric c ∧ s = [c]}

/-- Single letters, digits and hyphens. -/
def inners : Language Char :=
  {s | ∃ c, (Alphanumeric c ∨ c = '-') ∧ s = [c]}

/-- One letter or digit, or two with any row of letters, digits and hyphens between them. -/
def labelForms : Language Char :=
  edges * (1 + inners∗ * edges)

/-- A label, and any number of further ones with a point in front of each. -/
def rows : Language Char :=
  labelForms * ({['.']} * labelForms)∗

theorem mem_kstar_inners_iff {s : List Char} :
    s ∈ inners∗ ↔ ∀ c ∈ s, Alphanumeric c ∨ c = '-' := by
  rw [Language.mem_kstar]
  constructor
  · rintro ⟨parts, rfl, hparts⟩ c hc
    obtain ⟨part, hpart, hmem⟩ := List.mem_flatten.mp hc
    obtain ⟨b, hb, rfl⟩ := hparts part hpart
    rwa [List.mem_singleton.mp hmem]
  · intro h
    refine ⟨s.map fun c => [c], by simp [← List.flatMap_def], fun part hpart => ?_⟩
    obtain ⟨c, hc, rfl⟩ := List.mem_map.mp hpart
    exact ⟨c, h c hc, rfl⟩

theorem mem_labelForms_iff {s : List Char} : s ∈ labelForms ↔ Label s := by
  have hlast : ∀ (c d : Char) (mid : List Char), (c :: (mid ++ [d])).getLast? = some d := by
    intro c d mid
    rw [← List.cons_append, List.getLast?_concat]
  constructor
  · rintro ⟨_, ⟨c, hc, rfl⟩, rest, hrest, rfl⟩
    rcases hrest with hnil | ⟨mid, hmid, _, ⟨d, hd, rfl⟩, rfl⟩
    · obtain rfl : rest = [] := hnil
      exact ⟨by simp [hc], ⟨c, rfl, hc⟩, ⟨c, rfl, hc⟩⟩
    · refine ⟨fun b hb => ?_, ⟨c, rfl, hc⟩, ⟨d, hlast c d mid, hd⟩⟩
      simp only [List.cons_append, List.nil_append, List.mem_cons, List.mem_append,
        List.not_mem_nil, or_false] at hb
      rcases hb with rfl | hb | rfl
      · exact .inl hc
      · exact mem_kstar_inners_iff.mp hmid b hb
      · exact .inl hd
  · intro h
    obtain ⟨c, hc, hfirst⟩ := h.first
    obtain ⟨rest, rfl⟩ := List.head?_eq_some_iff.mp hc
    refine ⟨[c], ⟨c, hfirst, rfl⟩, rest, ?_, rfl⟩
    rcases List.eq_nil_or_concat' rest with rfl | ⟨mid, d, rfl⟩
    · exact .inl rfl
    · obtain ⟨b, hb, hend⟩ := h.last
      rw [hlast] at hb
      cases hb
      exact .inr ⟨mid, mem_kstar_inners_iff.mpr fun a ha => h.inner a (by simp [ha]), [d],
        ⟨d, hend, rfl⟩, rfl⟩

/-- Rows of labels with a point in front of each. -/
theorem mem_kstar_pointed_iff {s : List Char} : s ∈ ({['.']} * labelForms)∗ ↔
    ∃ ls : List (List Char), (∀ l ∈ ls, Label l) ∧ s = (ls.map ('.' :: ·)).flatten := by
  rw [Language.mem_kstar]
  constructor
  · rintro ⟨parts, rfl, hparts⟩
    have hpart : ∀ part ∈ parts, Label part.tail ∧ '.' :: part.tail = part := by
      intro part hmem
      obtain ⟨_, rfl, l, hl, rfl⟩ := hparts part hmem
      exact ⟨mem_labelForms_iff.mp hl, rfl⟩
    refine ⟨parts.map List.tail, fun l hl => ?_, ?_⟩
    · obtain ⟨part, hmem, rfl⟩ := List.mem_map.mp hl
      exact (hpart part hmem).1
    · have hwhole : parts.map (fun part => '.' :: part.tail) = parts :=
        (List.map_congr_left fun part hmem => (hpart part hmem).2).trans (List.map_id' parts)
      rw [List.map_map]
      exact congrArg List.flatten hwhole.symm
  · rintro ⟨ls, hls, rfl⟩
    refine ⟨_, rfl, fun part hpart => ?_⟩
    obtain ⟨l, hl, rfl⟩ := List.mem_map.mp hpart
    exact ⟨['.'], rfl, l, mem_labelForms_iff.mpr (hls l hl), rfl⟩

theorem intercalate_point (l : List Char) (ls : List (List Char)) :
    ['.'].intercalate (l :: ls) = l ++ (ls.map ('.' :: ·)).flatten := by
  induction ls generalizing l with
  | nil => simp
  | cons k ls ih => rw [List.intercalate_cons_cons, ih]; simp

/-- **The expression describes the rows of labels.** -/
theorem mem_rows_iff {s : List Char} : s ∈ rows ↔ Row s := by
  constructor
  · rintro ⟨l, hl, rest, hrest, rfl⟩
    obtain ⟨ls, hls, rfl⟩ := mem_kstar_pointed_iff.mp hrest
    exact ⟨l :: ls, List.cons_ne_nil _ _,
      List.forall_mem_cons.mpr ⟨mem_labelForms_iff.mp hl, hls⟩, (intercalate_point l ls).symm⟩
  · rintro ⟨ls, hne, hls, rfl⟩
    obtain ⟨l, ls, rfl⟩ := List.exists_cons_of_ne_nil hne
    obtain ⟨hl, hrest⟩ := List.forall_mem_cons.mp hls
    rw [intercalate_point]
    exact ⟨l, mem_labelForms_iff.mpr hl, _, mem_kstar_pointed_iff.mpr ⟨ls, hrest, rfl⟩, rfl⟩

/-! ### Line feeds -/

/-- A row has no line feed inside it. -/
theorem Row.not_mem_feed {s : List Char} (h : Row s) : '\n' ∉ s := by
  obtain ⟨ls, hne, hls, rfl⟩ := h
  obtain ⟨l, ls, rfl⟩ := List.exists_cons_of_ne_nil hne
  obtain ⟨hl, hrest⟩ := List.forall_mem_cons.mp hls
  have hfed : ∀ k ∈ ls, '\n' ∉ k := fun k hk => (hrest k hk).not_mem_feed
  rw [intercalate_point]
  simpa [hl.not_mem_feed] using hfed

theorem withoutFeed_append (s : List Char) : withoutFeed (s ++ ['\n']) = s := by
  unfold withoutFeed
  rw [List.getLast?_concat, if_pos rfl, List.dropLast_concat]

/-- One line feed behind a row is not looked at, and that is all there is to it. -/
theorem row_withoutFeed_iff {s : List Char} :
    Row (withoutFeed s) ↔ Row s ∨ ∃ row, Row row ∧ s = row ++ ['\n'] := by
  rcases List.eq_nil_or_concat' s with rfl | ⟨body, c, rfl⟩
  · simp [withoutFeed]
  by_cases hc : c = '\n'
  · subst hc
    rw [withoutFeed_append]
    refine ⟨fun h => .inr ⟨body, h, rfl⟩, ?_⟩
    rintro (h | ⟨row, hrow, heq⟩)
    · exact absurd (by simp) h.not_mem_feed
    · exact List.append_cancel_right heq ▸ hrow
  · have hstays : withoutFeed (body ++ [c]) = body ++ [c] := by
      unfold withoutFeed
      rw [List.getLast?_concat, if_neg (by simpa using hc)]
    rw [hstays]
    refine ⟨.inl, ?_⟩
    rintro (h | ⟨row, -, heq⟩)
    · exact h
    · exact absurd (List.singleton_inj.mp (List.append_inj_right' heq rfl)) hc

/-! ### What is accepted -/

theorem length_feed (name : String) : (name ++ "\n").length = name.length + 1 :=
  String.length_append name "\n"

theorem accepts_iff_row {s : String} :
    accepts s = true ↔ s.length ≤ 253 ∧ Row (withoutFeed s.toList) := by
  unfold accepts
  rw [Bool.and_eq_true, decide_eq_true_iff, isRow_iff]
  rfl

theorem accepts_iff {s : String} : accepts s = true ↔ Name s ∨ Fed s := by
  rw [accepts_iff_row, row_withoutFeed_iff]
  constructor
  · rintro ⟨hshort, hrow | ⟨row, hrow, heq⟩⟩
    · exact .inl ⟨hshort, hrow⟩
    · have hs : s = String.ofList row ++ "\n" := String.toList_inj.mp (by simpa using heq)
      have hlength : (String.ofList row).length < 253 := by
        rw [hs, length_feed] at hshort
        exact hshort
      exact .inr ⟨_, ⟨hlength.le, by simpa using hrow⟩, hlength, hs⟩
  · rintro (h | ⟨name, hname, hlength, rfl⟩)
    · exact ⟨h.short, .inl h.row⟩
    · exact ⟨(length_feed name).trans_le hlength, .inr ⟨name.toList, hname.row, by simp⟩⟩

/-- What is accepted, by the expression. -/
theorem accepts_iff_mem_rows {s : String} : accepts s = true ↔
    s.length ≤ 253 ∧ (s.toList ∈ rows ∨ ∃ row ∈ rows, s.toList = row ++ ['\n']) := by
  rw [accepts_iff_row, row_withoutFeed_iff]
  simp only [mem_rows_iff]

theorem Fed.not_name {s : String} (h : Fed s) : ¬ Name s := by
  obtain ⟨name, -, -, rfl⟩ := h
  exact fun hname => hname.row.not_mem_feed (by simp)

/-- A name is accepted as it is; any other text is refused with a sentence. -/
def Validated (s : String) : Prop :=
  (Name s → Settings.asNamespace (.text s) = .ok s) ∧
    (¬ Name s → Settings.asNamespace (.text s) =
      .error (.rule s!"invalid namespace {Text.quoted s}: must be a DNS-1123 subdomain"))

theorem asNamespace_text (s : String) : Settings.asNamespace (.text s) =
    if accepts s then .ok s
    else .error (.rule s!"invalid namespace {Text.quoted s}: must be a DNS-1123 subdomain") :=
  rfl

theorem asNamespace_eq_ok_iff {s : String} :
    Settings.asNamespace (.text s) = .ok s ↔ Name s ∨ Fed s := by
  rw [asNamespace_text, ← accepts_iff]
  split
  · rename_i hacc
    exact iff_of_true rfl hacc
  · rename_i hacc
    exact iff_of_false (by simp) hacc

/-- **Names of namespaces are validated exactly, but for a line feed behind them.** A name with a
line feed behind it is accepted as it is, line feed included. -/
theorem validated_iff (s : String) :
    (Settings.asNamespace (.text s) = .ok s ↔ Name s ∨ Fed s) ∧ (Validated s ↔ ¬ Fed s) := by
  refine ⟨asNamespace_eq_ok_iff, fun hvalid hfed => ?_, fun hfed => ⟨fun hname => ?_, fun hname => ?_⟩⟩
  · have hrefused := hvalid.2 hfed.not_name
    rw [asNamespace_eq_ok_iff.mpr (.inr hfed)] at hrefused
    cases hrefused
  · exact asNamespace_eq_ok_iff.mpr (.inl hname)
  · rw [asNamespace_text, if_neg fun hacc => (accepts_iff.mp hacc).elim hname hfed]

/-- The default name of a namespace, with a line feed behind it. -/
theorem not_validated : ¬ Validated "ingress-perf\n" := by
  have hrow : Row "ingress-perf".toList := isRow_iff.mp (by decide)
  have hfed : Fed "ingress-perf\n" := ⟨"ingress-perf", ⟨by decide, hrow⟩, by decide, by decide⟩
  intro h
  have hrefused := h.2 hfed.not_name
  rw [asNamespace_eq_ok_iff.mpr (.inr hfed)] at hrefused
  cases hrefused

/-! ### The namespace of settings -/

open Record in
theorem ensures_namespace (fields : Fields) :
    Ensures (optional fields "namespace" "ingress-perf" Settings.asNamespace) (accepts · = true) := by
  refine ensures_optionalBy (by decide) fun d s h => ?_
  obtain ⟨given, -, hgiven⟩ := bind_eq_ok_iff.mp h
  split at hgiven
  · cases hgiven
    assumption
  · cases hgiven

open Record in
/-- Wherever the namespace of settings comes from, it is a name, but for a line feed behind it. -/
theorem ns_of_read {env : Environment} {given : Fields} {settings : Settings}
    (h : Settings.read env given = .ok settings) : Name settings.ns ∨ Fed settings.ns := by
  have hintake : ∀ home fields,
      Ensures (Settings.intake home fields) fun settings => accepts settings.ns = true := by
    intro home fields
    unfold Settings.intake
    refine ensures_after fun _ => ensures_bind (ensures_namespace fields) fun ns hns => ?_
    iterate 13 refine ensures_after fun _ => ?_
    exact ensures_pure hns
  have hwhole : Ensures (do
      let settings ← Settings.intake env.home (Settings.sources env given)
      for name in Settings.extras env given do
        note name .extra
      return settings) fun settings => accepts settings.ns = true :=
    ensures_bind (hintake _ _) fun _ hns => ensures_after fun _ => ensures_pure hns
  have hacc : accepts settings.ns = true := hwhole.finish h
  exact accepts_iff.mp hacc

end IngressBench.Subdomain
