import IngressBench.Proofs.Tuning.Options

/-!
Which profiles are read. A profile is grammatical when some piece of it is not blank and every such
piece is an option (`Profile.Grammatical`). A grammatical profile should have options, and any other one
a fault of tuning (`Profile.Classified`). This is so but for profiles with hyphens and digits that are
no number, in an option that stands before the first malformed piece (`Profile.Spoiled`,
`Profile.read_classified_iff`): the value of such an option is taken for a number, and reading it fails.
-/
namespace IngressBench.Profile

open Text

variable {profile : String} {piece : List Char} {ps : List (List Char)}

/-! ### Grammar -/

/-- An option. -/
def Formed (piece : List Char) : Prop :=
  ∃ name value, Forms piece name value

/-- Every piece is blank or an option, and there is an option. -/
structure Grammatical (ps : List (List Char)) : Prop where
  some : ∃ piece ∈ ps, ¬ Blank piece
  formed : ∀ piece ∈ ps, ¬ Blank piece → Formed piece

/-- **A grammatical profile has options, and any other one is a fault of tuning.** -/
def Classified (profile : String) : Prop :=
  (Grammatical (pieces profile) → ∃ options, read profile = .ok options ∧ options ≠ []) ∧
    (¬ Grammatical (pieces profile) → ∃ fault, read profile = .error (.tuning fault))

/-- An option whose value is hyphens and digits that are no number: there are several hyphens, a digit
that is no decimal one, or too many digits. -/
def Spurious (piece : List Char) : Prop :=
  ∃ name value hyphens digits, Forms piece name value ∧ Numeral hyphens digits (trim value) ∧
    ¬ Whole hyphens digits

/-- Such an option stands before every malformed piece. -/
def Spoiled (ps : List (List Char)) : Prop :=
  ∃ before piece after, ps = before ++ piece :: after ∧
    (∀ p ∈ before, ¬ Blank p → Formed p) ∧ Spurious piece

theorem not_spoiled_nil : ¬ Spoiled [] := by
  rintro ⟨before, piece, after, h, -⟩
  simp at h

theorem spoiled_cons : Spoiled (piece :: ps) ↔
    Spurious piece ∨ (¬ Blank piece → Formed piece) ∧ Spoiled ps := by
  constructor
  · rintro ⟨before, p, after, h, hbefore, hspurious⟩
    cases before with
    | nil =>
      cases h
      exact .inl hspurious
    | cons q before =>
      cases h
      exact .inr ⟨hbefore _ List.mem_cons_self, before, p, after, rfl,
        fun p' hp' => hbefore p' (List.mem_cons_of_mem _ hp'), hspurious⟩
  · rintro (hspurious | ⟨hformed, before, p, after, rfl, hbefore, hspurious⟩)
    · exact ⟨[], piece, ps, rfl, by simp, hspurious⟩
    · exact ⟨piece :: before, p, after, rfl, List.forall_mem_cons.mpr ⟨hformed, hbefore⟩, hspurious⟩

theorem Spurious.formed (h : Spurious piece) : Formed piece := by
  obtain ⟨name, value, _, _, hforms, -, -⟩ := h
  exact ⟨name, value, hforms⟩

theorem not_spurious_of_blank (h : Blank piece) : ¬ Spurious piece := by
  intro hspurious
  obtain ⟨name, value, hforms⟩ := hspurious.formed
  exact hforms.not_blank h

/-- **The value of an option is refused exactly when the option is spurious.** -/
theorem spurious_iff {name value : List Char} (hforms : Forms piece name value) :
    Spurious piece ↔ ∃ text, optionValue (trim value) = .error (.value text) := by
  constructor
  · rintro ⟨name', value', hyphens, digits, hforms', hnumeral, hnot⟩
    obtain ⟨rfl, rfl⟩ := hforms.unique hforms'
    exact (optionValue_numeral hnumeral).2 hnot
  · rintro ⟨text, htext⟩
    by_cases hlooks : ∃ hyphens digits, Numeral hyphens digits (trim value)
    · obtain ⟨hyphens, digits, hnumeral⟩ := hlooks
      refine ⟨name, value, hyphens, digits, hforms, hnumeral, fun hwhole => ?_⟩
      rw [(optionValue_numeral hnumeral).1 hwhole] at htext
      cases htext
    · rw [optionValue_text hlooks] at htext
      cases htext

theorem optionValue_error {value : List Char} {x : Failure} (h : optionValue value = .error x) :
    ∃ text, x = .value text := by
  by_cases hlooks : ∃ hyphens digits, Numeral hyphens digits value
  · obtain ⟨hyphens, digits, hnumeral⟩ := hlooks
    by_cases hwhole : Whole hyphens digits
    · rw [(optionValue_numeral hnumeral).1 hwhole] at h
      cases h
    · obtain ⟨text, htext⟩ := (optionValue_numeral hnumeral).2 hwhole
      rw [htext] at h
      cases h
      exact ⟨text, rfl⟩
  · rw [optionValue_text hlooks] at h
    cases h

/-! ### Readings -/

theorem put_ne_nil (options : List (String × Document)) (name : String) (d : Document) :
    put options name d ≠ [] := by
  cases options with
  | nil => exact List.cons_ne_nil _ _
  | cons o rest =>
    unfold put
    split <;> exact List.cons_ne_nil _ _

/-- How pieces are read: to options, of which there are none only when all pieces were blank; to a fault
of tuning; or to another failure. -/
inductive Verdict (options : List (String × Document)) (ps : List (List Char)) :
    Except Failure (List (String × Document)) → Prop
  | options {found : List (String × Document)} (hformed : ∀ p ∈ ps, ¬ Blank p → Formed p)
      (hclear : ¬ Spoiled ps)
      (hnone : found = [] ↔ options = [] ∧ ∀ p ∈ ps, Blank p) : Verdict options ps (.ok found)
  | malformed {fault : TuningFault} (hmalformed : ¬ ∀ p ∈ ps, ¬ Blank p → Formed p)
      (hclear : ¬ Spoiled ps) : Verdict options ps (.error (.tuning fault))
  | spoiled {text : String} (hspoiled : Spoiled ps) : Verdict options ps (.error (.value text))

theorem Verdict.cons_blank {options : List (String × Document)}
    {r : Except Failure (List (String × Document))} (hblank : Blank piece)
    (h : Verdict options ps r) : Verdict options (piece :: ps) r := by
  have hspoiled : Spoiled (piece :: ps) ↔ Spoiled ps := by
    rw [spoiled_cons, or_iff_right (not_spurious_of_blank hblank)]
    exact and_iff_right (absurd hblank)
  have hformed : (∀ p ∈ piece :: ps, ¬ Blank p → Formed p) ↔ ∀ p ∈ ps, ¬ Blank p → Formed p := by
    rw [List.forall_mem_cons]
    exact and_iff_right (absurd hblank)
  cases h with
  | options hall hclear hnone =>
    refine .options (hformed.mpr hall) (mt hspoiled.mp hclear) ?_
    rw [hnone, List.forall_mem_cons, and_iff_right hblank]
  | malformed hmalformed hclear => exact .malformed (mt hformed.mp hmalformed) (mt hspoiled.mp hclear)
  | spoiled h => exact .spoiled (hspoiled.mpr h)

theorem Verdict.cons_option {options : List (String × Document)} {name : String} {d : Document}
    {r : Except Failure (List (String × Document))} (hpiece : Formed piece)
    (hclear' : ¬ Spurious piece) (h : Verdict (put options name d) ps r) :
    Verdict options (piece :: ps) r := by
  have hblank : ¬ Blank piece := by
    obtain ⟨_, _, hforms⟩ := hpiece
    exact hforms.not_blank
  have hspoiled : Spoiled (piece :: ps) ↔ Spoiled ps := by
    rw [spoiled_cons, or_iff_right hclear']
    exact and_iff_right fun _ => hpiece
  have hformed : (∀ p ∈ piece :: ps, ¬ Blank p → Formed p) ↔ ∀ p ∈ ps, ¬ Blank p → Formed p := by
    rw [List.forall_mem_cons]
    exact and_iff_right fun _ => hpiece
  cases h with
  | options hall hclear hnone =>
    refine .options (hformed.mpr hall) (mt hspoiled.mp hclear) ?_
    rw [hnone, List.forall_mem_cons]
    simp [put_ne_nil, hblank]
  | malformed hmalformed hclear => exact .malformed (mt hformed.mp hmalformed) (mt hspoiled.mp hclear)
  | spoiled h => exact .spoiled (hspoiled.mpr h)

/-- **What pieces are read to**; by induction on how they are read. -/
theorem Reads.verdict {options : List (String × Document)}
    {r : Except Failure (List (String × Document))} (h : Reads profile options ps r) :
    Verdict options ps r := by
  induction h with
  | done => exact .options (by simp) not_spoiled_nil (by simp)
  | blank hblank _ ih => exact ih.cons_blank hblank
  | @malformed _ piece _ hblank hnone =>
    have hnot : ¬ Formed piece := fun ⟨name, value, hforms⟩ => hnone name value hforms
    refine .malformed (fun hall => hnot (hall _ List.mem_cons_self hblank)) ?_
    rw [spoiled_cons]
    rintro (hspurious | ⟨hformed, -⟩)
    · exact hnot hspurious.formed
    · exact hnot (hformed hblank)
  | refused hforms hvalue =>
    obtain ⟨text, rfl⟩ := optionValue_error hvalue
    exact .spoiled (spoiled_cons.mpr (.inl ((spurious_iff hforms).mpr ⟨text, hvalue⟩)))
  | option hforms hvalue _ ih =>
    refine ih.cons_option ⟨_, _, hforms⟩ fun hspurious => ?_
    obtain ⟨text, htext⟩ := (spurious_iff hforms).mp hspurious
    rw [hvalue] at htext
    cases htext

/-! ### Profiles -/

/-- A spoiled profile fails with something else than a fault of tuning. -/
theorem read_of_spoiled (h : Spoiled (pieces profile)) :
    ∃ text, read profile = .error (.value text) := by
  obtain ⟨r, hreads, hends⟩ := read_cases profile
  cases hreads.verdict with
  | options _ hclear _ => exact absurd h hclear
  | malformed _ hclear => exact absurd h hclear
  | @spoiled text _ =>
    rcases hends with ⟨x, hx, hread⟩ | ⟨hok, -⟩ | ⟨_, hok, -⟩
    · cases hx
      exact ⟨text, hread⟩
    · cases hok
    · cases hok

theorem not_classified_of_spoiled (h : Spoiled (pieces profile)) : ¬ Classified profile := by
  rintro ⟨hoptions, hfault⟩
  obtain ⟨text, hread⟩ := read_of_spoiled h
  by_cases hgrammar : Grammatical (pieces profile)
  · obtain ⟨options, hok, -⟩ := hoptions hgrammar
    rw [hread] at hok
    cases hok
  · obtain ⟨fault, hx⟩ := hfault hgrammar
    rw [hread] at hx
    cases hx

/-- **Profiles are read by the grammar exactly when they are not spoiled.** -/
theorem read_classified_iff (profile : String) :
    (Classified profile ↔ ¬ Spoiled (pieces profile)) ∧
      (Spoiled (pieces profile) → ∃ text, read profile = .error (.value text)) := by
  refine ⟨⟨fun h hspoiled => not_classified_of_spoiled hspoiled h, fun hclear => ?_⟩,
    read_of_spoiled⟩
  obtain ⟨r, hreads, hends⟩ := read_cases profile
  cases hreads.verdict with
  | @options found hformed _ hnone =>
    rcases hends with ⟨_, hx, -⟩ | ⟨hok, hread⟩ | ⟨_, hok, hne, hread⟩
    · cases hx
    · -- There are no options, so all pieces are blank.
      cases hok
      have hblank := (hnone.mp rfl).2
      refine ⟨fun hgrammar => ?_, fun _ => ⟨_, hread⟩⟩
      obtain ⟨piece, hpiece, hnot⟩ := hgrammar.some
      exact absurd (hblank piece hpiece) hnot
    · cases hok
      refine ⟨fun _ => ⟨found, hread, hne⟩, fun hgrammar => absurd ⟨?_, hformed⟩ hgrammar⟩
      by_contra hall
      push Not at hall
      exact hne (hnone.mpr ⟨rfl, hall⟩)
  | @malformed fault hmalformed _ =>
    rcases hends with ⟨x, hx, hread⟩ | ⟨hok, -⟩ | ⟨_, hok, -⟩
    · cases hx
      exact ⟨fun hgrammar => absurd hgrammar.formed hmalformed, fun _ => ⟨fault, hread⟩⟩
    · cases hok
    · cases hok
  | spoiled h => exact absurd h hclear

/-- **Two hyphens and a digit are an option whose value cannot be read.** -/
theorem read_not_classified : ¬ Classified "a=--5" := by
  apply not_classified_of_spoiled
  have hpieces : pieces "a=--5" = [['a', '=', '-', '-', '5']] := by decide
  rw [hpieces]
  have hforms : Forms ['a', '=', '-', '-', '5'] ['a'] ['-', '-', '5'] := by
    refine ⟨rfl, by decide, fun h => ?_, fun h => ?_⟩
    · exact absurd (h 'a' (by decide)) (by decide)
    · exact absurd (h '-' (by decide)) (by decide)
  have hnumeral : Numeral 2 ['5'] (trim ['-', '-', '5']) := by
    have htrim : trim ['-', '-', '5'] = ['-', '-', '5'] := by decide
    rw [htrim]
    refine ⟨rfl, by decide, fun c hc => ?_⟩
    rw [List.mem_singleton.mp hc]
    decide
  exact ⟨[], _, [], rfl, by simp, ['a'], _, 2, ['5'], hforms, hnumeral,
    fun hwhole => absurd hwhole.hyphens (by decide)⟩

end IngressBench.Profile
