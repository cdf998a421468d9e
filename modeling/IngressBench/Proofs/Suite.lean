import IngressBench.Proofs.Outcome
import IngressBench.Proofs.Run.Sample
import IngressBench.Proofs.Stop
import IngressBench.Suite
import Mathlib.Data.List.Forall2

/-!
Loading a suite. A file of test cases is taken as a whole or refused with a fault of the
configuration (`AllOrNothing`): every entry is a test case of its own, in order, or the fault names
the first entry that is none. This is so whatever the parser makes of the text, but for three kinds
of files (`load_allOrNothing_iff`): those whose bytes are no text, those with a key that is no text
in an entry, and those with a duration that is too large a whole number. Such a file fails with
something else, as does a path that is none.
-/
namespace IngressBench.Suite

open Record

/-! ### With any parser -/

/-- The document of a file's bytes, as a parser reads it. -/
def documentBy (read : String → Except Yaml.Fault Document) (path : String) (bytes : List UInt8) :
    Except Failure Document :=
  match String.fromUTF8? (ByteArray.mk bytes.toArray) with
  | none => .error (.encoding "the bytes are no text")
  | some s => (read (String.ofList (Text.plainLines s.toList))).mapError (faultFailure path)

/-- The test cases of a file, as a parser reads it. -/
def loadBy {τ : Type} (read : String → Except Yaml.Fault Document) (path : String) :
    Action τ (List TestCase) := do
  match ← Action.ask (.file (.read path)) with
  | .error e => throw (e.rescue fun cause => .config (.unreadable path cause))
  | .ok bytes => Action.ofExcept (documentBy read path bytes >>= ofDocument path)

theorem loadBy_read {τ : Type} (path : String) :
    (loadBy Yaml.read path : Action τ (List TestCase)) = load path := rfl

/-- The text of a file's bytes, with plain ends of lines. -/
def text? (bytes : List UInt8) : Option String :=
  (String.fromUTF8? (ByteArray.mk bytes.toArray)).map fun s =>
    String.ofList (Text.plainLines s.toList)

/-- The document of a file, if it can be read and the parser makes one of it. -/
def document? (read : String → Except Yaml.Fault Document)
    (reply : Except FileError (List UInt8)) : Option Document := do
  let bytes ← reply.toOption
  let text ← text? bytes
  (read text).toOption

/-- The entries of a document: the items of its list of test cases, none without such a list. -/
def entries (d : Document) : List Document :=
  ((d.get? "config").bind Document.items?).getD []

/-! ### Entries -/

/-- The test case is what its own entry is validated to. -/
def Validates (entry : Document) (case : TestCase) : Prop :=
  ∃ named fields, entry = .map named ∧ entryFields named = .ok fields ∧
    TestCase.ofFields fields = .ok case

/-- The fault of an entry at a position that is no test case. -/
inductive Rejected (path : String) (position : Nat) (entry : Document) : ConfigFault → Prop
  | notMapping (h : ∀ named, entry ≠ .map named) :
      Rejected path position entry (.notMapping position path)
  | invalid {named : List (Document × Document)} {fields : Fields} {title : String}
      {issues : List Issue} (hmap : entry = .map named) (hfields : entryFields named = .ok fields)
      (hinvalid : TestCase.ofFields fields = .error (.invalid title issues)) :
      Rejected path position entry (.invalidCase position path issues)

/-- The fields that hold durations. -/
def durations : List String := ["duration", "request_timeout", "delay"]

/-- A duration is given as a whole number beyond the floating-point numbers. -/
def Oversized (fields : Fields) (name : String) : Prop :=
  ∃ key i, given? fields (TestCase.spellings name) = some (key, .number (.int i)) ∧
    (nearestInt i).isInf = true

/-- An entry with a key that is no text, or with a duration that is too large. -/
def Wild (entry : Document) : Prop :=
  ∃ named, entry = .map named ∧ ((∃ e ∈ named, e.1.text? = none) ∨
    ∃ fields, entryFields named = .ok fields ∧ ∃ name ∈ durations, Oversized fields name)

/-! ### Readings that fail at once -/

/-- Under the condition the reading fails with a number out of range, and otherwise it ends with a
value and its issues. -/
def OverflowsIff {α : Type} (m : Intake α) (P : Prop) : Prop :=
  ∀ issues, (P → ∃ text, m.run issues = .error (.overflow text)) ∧
    (¬ P → ∃ r, m.run issues = .ok r)

section Rules

variable {α β : Type} {P Q : Prop}

theorem overflows_pure (v : α) : OverflowsIff (pure v : Intake α) False :=
  fun issues => ⟨False.elim, fun _ => ⟨(v, issues), rfl⟩⟩

theorem overflows_note (name : String) (cause : Cause) : OverflowsIff (note name cause) False :=
  fun issues => ⟨False.elim, fun _ => ⟨((), issues ++ [Issue.at name cause]), rfl⟩⟩

theorem overflows_bind {m : Intake α} {f : α → Intake β} (hm : OverflowsIff m P)
    (hf : ∀ v, OverflowsIff (f v) Q) : OverflowsIff (m >>= f) (P ∨ Q) := by
  intro issues
  have hrun : ∀ r, m.run issues = .ok r → (m >>= f).run issues = (f r.1).run r.2 := by
    intro r hr
    rw [StateT.run_bind, hr]
    rfl
  by_cases hp : P
  · obtain ⟨text, htext⟩ := (hm issues).1 hp
    refine ⟨fun _ => ⟨text, ?_⟩, fun h => absurd (.inl hp) h⟩
    rw [StateT.run_bind, htext]
    rfl
  · obtain ⟨r, hr⟩ := (hm issues).2 hp
    rw [hrun r hr]
    exact ⟨fun h => (hf r.1 r.2).1 (h.resolve_left hp),
      fun h => (hf r.1 r.2).2 fun hq => h (.inr hq)⟩

/-- A part that always ends with a value changes nothing. -/
theorem overflows_after {m : Intake α} {f : α → Intake β} (hm : OverflowsIff m False)
    (hf : ∀ v, OverflowsIff (f v) Q) : OverflowsIff (m >>= f) Q := by
  have h := overflows_bind hm hf
  rwa [false_or] at h

theorem overflows_optionalBy (fields : Fields) (names : List String) (default : α)
    (read : Document → Except Cause α) :
    OverflowsIff (optionalBy fields names default read) False := by
  unfold optionalBy
  split
  · exact overflows_pure _
  · split
    · exact overflows_pure _
    · exact overflows_after (overflows_note _ _) fun _ => overflows_pure _

/-- Only whole numbers are too large for a duration. -/
theorem ofDocument_tooLarge_iff {d : Document} : Duration.ofDocument d = .error .tooLarge ↔
    ∃ i, d = .number (.int i) ∧ (nearestInt i).isInf = true := by
  constructor
  · intro h
    unfold Duration.ofDocument at h
    split at h
    · rename_i i
      dsimp only at h
      split at h
      · exact ⟨i, rfl, ‹_›⟩
      · cases h
    · cases h
    · split at h <;> cases h
    · cases h
  · intro h
    obtain ⟨i, rfl, hi⟩ := h
    exact if_pos hi

/-- A duration overflows when it is too large a whole number. -/
theorem overflows_durationField (fields : Fields) (name : String) (default : Float)
    (bound : Float → Except Cause Float) :
    OverflowsIff (TestCase.durationField fields name default bound) (Oversized fields name) := by
  unfold TestCase.durationField
  cases hgiven : given? fields (TestCase.spellings name) with
  | none =>
    have hno : Oversized fields name ↔ False := by simp [Oversized, hgiven]
    rw [hno]
    exact overflows_pure _
  | some found =>
    have hiff : Oversized fields name ↔ Duration.ofDocument found.2 = .error .tooLarge := by
      rw [ofDocument_tooLarge_iff]
      unfold Oversized
      rw [hgiven]
      constructor
      · rintro ⟨key, i, hfound, hi⟩
        exact ⟨i, congrArg Prod.snd (Option.some.inj hfound), hi⟩
      · rintro ⟨i, hfound, hi⟩
        exact ⟨found.1, i, by rw [← hfound], hi⟩
    rw [hiff]
    dsimp only
    split
    · rename_i shown hread
      have hno : (Duration.ofDocument found.2 = .error .tooLarge) ↔ False := by simp [hread]
      rw [hno]
      exact overflows_after (overflows_note _ _) fun _ => overflows_pure _
    · rename_i fault hinvalid hread
      cases fault with
      | invalid shown => exact absurd rfl (hinvalid shown)
      | tooLarge =>
        exact fun issues => ⟨fun _ => ⟨_, rfl⟩, fun h => absurd hread h⟩
    · rename_i x hread
      have hno : (Duration.ofDocument found.2 = .error .tooLarge) ↔ False := by simp [hread]
      rw [hno]
      split
      · exact overflows_pure _
      · exact overflows_after (overflows_note _ _) fun _ => overflows_pure _

end Rules

theorem overflows_intake (fields : Fields) :
    OverflowsIff (TestCase.intake fields) (∃ name ∈ durations, Oversized fields name) := by
  have hall : (∃ name ∈ durations, Oversized fields name) ↔ Oversized fields "duration" ∨
      Oversized fields "request_timeout" ∨ Oversized fields "delay" ∨ False := by
    simp [durations]
  rw [hall]
  unfold TestCase.intake
  iterate 4 refine overflows_after (overflows_optionalBy _ _ _ _) fun _ => ?_
  refine overflows_bind (overflows_durationField _ _ _ _) fun _ => ?_
  iterate 5 refine overflows_after (overflows_optionalBy _ _ _ _) fun _ => ?_
  refine overflows_bind (overflows_durationField _ _ _ _) fun _ => ?_
  refine overflows_bind (overflows_durationField _ _ _ _) fun _ => ?_
  iterate 3 refine overflows_after (overflows_optionalBy _ _ _ _) fun _ => ?_
  exact overflows_pure _

/-- Named values overflow, or they are a test case, or there are issues with them. -/
theorem ofFields_cases (fields : Fields) :
    ((∃ name ∈ durations, Oversized fields name) ∧
      ∃ text, TestCase.ofFields fields = .error (.overflow text)) ∨
    (¬ (∃ name ∈ durations, Oversized fields name) ∧
      ((∃ case, TestCase.ofFields fields = .ok case) ∨
        ∃ title issues, TestCase.ofFields fields = .error (.invalid title issues))) := by
  -- The reading starts without issues.
  obtain ⟨hover, hfine⟩ := overflows_intake fields []
  by_cases h : ∃ name ∈ durations, Oversized fields name
  · obtain ⟨text, hrun⟩ := hover h
    refine .inl ⟨h, text, ?_⟩
    unfold TestCase.ofFields finish
    rw [hrun]
    rfl
  · obtain ⟨⟨case, issues⟩, hrun⟩ := hfine h
    have hfinish : TestCase.ofFields fields =
        if issues.isEmpty then .ok case else .error (.invalid "TestCaseConfig" issues) := by
      unfold TestCase.ofFields finish
      rw [hrun]
      rfl
    refine .inr ⟨h, ?_⟩
    rw [hfinish]
    split
    · exact .inl ⟨case, rfl⟩
    · exact .inr ⟨_, issues, rfl⟩

/-! ### One entry -/

/-- The names of an entry can be told unless a key is no text. -/
theorem entryFields_cases (named : List (Document × Document)) :
    ((∃ e ∈ named, e.1.text? = none) ∧ ∃ text, entryFields named = .error (.kind text)) ∨
      (¬ (∃ e ∈ named, e.1.text? = none) ∧ ∃ fields, entryFields named = .ok fields) := by
  induction named with
  | nil => exact .inr ⟨by simp, [], rfl⟩
  | cons e rest ih =>
    obtain ⟨key, d⟩ := e
    cases hkey : key.text? with
    | none =>
      refine .inl ⟨⟨(key, d), List.mem_cons_self, hkey⟩, "keywords must be strings", ?_⟩
      unfold entryFields
      cases key <;> first | rfl | cases hkey
    | some name =>
      obtain rfl : key = .text name := by
        cases key <;> first | exact congrArg _ (Option.some.inj hkey) | cases hkey
      rcases ih with ⟨⟨e, he, hnone⟩, text, hrest⟩ | ⟨hsome, fields, hrest⟩
      · refine .inl ⟨⟨e, List.mem_cons_of_mem _ he, hnone⟩, text, ?_⟩
        rw [entryFields, hrest]
        rfl
      · refine .inr ⟨by simpa [hkey] using hsome, (name, d) :: fields, ?_⟩
        rw [entryFields, hrest]
        rfl

/-- A failure that is no fault of the configuration. -/
def Foreign (x : Failure) : Prop :=
  ∀ fault, x ≠ .config fault

section

variable {path : String} {position : Nat} {entry : Document}

/-- What becomes of the fields of an entry: issues are told with its position. -/
def told (path : String) (position : Nat) : Except Failure TestCase → Except Failure TestCase
  | .error (.invalid _ issues) => .error (.config (.invalidCase position path issues))
  | r => r

theorem entryCase_bind (path : String) (position : Nat) (named : List (Document × Document)) :
    entryCase path position (.map named) =
      (entryFields named >>= fun fields => told path position (TestCase.ofFields fields)) := rfl

theorem entryCase_map {named : List (Document × Document)} {fields : Fields}
    (hfields : entryFields named = .ok fields) (path : String) (position : Nat) :
    entryCase path position (.map named) = told path position (TestCase.ofFields fields) := by
  rw [entryCase_bind, hfields]
  rfl

theorem Validates.entryCase_eq {case : TestCase} (h : Validates entry case) (path : String)
    (position : Nat) : entryCase path position entry = .ok case := by
  obtain ⟨named, fields, rfl, hfields, hcase⟩ := h
  rw [entryCase_map hfields, hcase]
  rfl

theorem Rejected.entryCase_eq {fault : ConfigFault} (h : Rejected path position entry fault) :
    entryCase path position entry = .error (.config fault) := by
  cases h with
  | notMapping hno =>
    unfold entryCase
    split
    · exact absurd rfl (hno _)
    · rfl
  | @invalid named fields title issues hmap hfields hinvalid =>
    subst hmap
    rw [entryCase_map hfields, hinvalid]
    rfl

theorem Wild.entryCase_eq (h : Wild entry) (path : String) (position : Nat) :
    ∃ x, entryCase path position entry = .error x ∧ Foreign x := by
  obtain ⟨named, rfl, hwild⟩ := h
  rcases entryFields_cases named with ⟨-, text, hkind⟩ | ⟨hkeys, fields, hfields⟩
  · rw [entryCase_bind, hkind]
    exact ⟨.kind text, rfl, fun _ => Failure.noConfusion⟩
  · rcases hwild with hkey | ⟨fields', hfields', hover⟩
    · exact absurd hkey hkeys
    obtain rfl : fields = fields' := Except.ok.inj (hfields.symm.trans hfields')
    rw [entryCase_map hfields]
    rcases ofFields_cases fields with ⟨-, text, hcase⟩ | ⟨hno, -⟩
    · rw [hcase]
      exact ⟨.overflow text, rfl, fun _ => Failure.noConfusion⟩
    · exact absurd hover hno

/-- **Every entry is a test case, or refused, or wild.** -/
theorem entry_cases (path : String) (position : Nat) (entry : Document) :
    (∃ case, Validates entry case) ∨ (∃ fault, Rejected path position entry fault) ∨
      Wild entry := by
  by_cases hmap : ∃ named, entry = .map named
  · obtain ⟨named, rfl⟩ := hmap
    rcases entryFields_cases named with ⟨hkey, -⟩ | ⟨-, fields, hfields⟩
    · exact .inr (.inr ⟨named, rfl, .inl hkey⟩)
    rcases ofFields_cases fields with ⟨hover, -⟩ | ⟨-, ⟨case, hcase⟩ | ⟨title, issues, hinvalid⟩⟩
    · exact .inr (.inr ⟨named, rfl, .inr ⟨fields, hfields, hover⟩⟩)
    · exact .inl ⟨case, named, fields, rfl, hfields, hcase⟩
    · exact .inr (.inl ⟨_, .invalid rfl hfields hinvalid⟩)
  · exact .inr (.inl ⟨_, .notMapping fun named h => hmap ⟨named, h⟩⟩)

end

/-! ### All entries -/

/-- Entries that are test cases come before what the rest is read to. -/
theorem entryCases_append {good : List Document} {cases : List TestCase}
    (h : List.Forall₂ Validates good cases) (path : String) (position : Nat)
    (rest : List Document) : entryCases path position (good ++ rest) =
      (entryCases path (position + good.length) rest).map (cases ++ ·) := by
  induction h generalizing position with
  | nil =>
    show entryCases path position rest = _
    rw [List.length_nil, Nat.add_zero]
    cases entryCases path position rest <;> rfl
  | @cons entry case good cases hentry _ ih =>
    rw [List.cons_append, entryCases, hentry.entryCase_eq, ih, List.length_cons,
      Nat.add_right_comm, Nat.add_assoc]
    cases entryCases path (position + (good.length + 1)) rest <;> rfl

/-- Entries are all test cases, or there is a first one that is none. -/
theorem split_cases (es : List Document) :
    (∃ cases, List.Forall₂ Validates es cases) ∨
      ∃ good cases entry rest, es = good ++ entry :: rest ∧ List.Forall₂ Validates good cases ∧
        ¬ ∃ case, Validates entry case := by
  induction es with
  | nil => exact .inl ⟨[], .nil⟩
  | cons entry es ih =>
    by_cases hentry : ∃ case, Validates entry case
    · obtain ⟨case, hcase⟩ := hentry
      rcases ih with ⟨cases, hall⟩ | ⟨good, cases, bad, rest, rfl, hgood, hbad⟩
      · exact .inl ⟨case :: cases, .cons hcase hall⟩
      · exact .inr ⟨entry :: good, case :: cases, bad, rest, rfl, .cons hcase hgood, hbad⟩
    · exact .inr ⟨[], [], entry, es, rfl, .nil, hentry⟩

theorem ofDocument_eq (path : String) (d : Document) : ofDocument path d =
    if entries d = [] then .error (.config (.noCases path))
    else entryCases path 1 (entries d) := by
  unfold ofDocument entries
  cases hconfig : d.get? "config" with
  | none => rfl
  | some found =>
    cases found with
    | list items => cases items <;> rfl
    | _ => rfl

/-- A suite that is read holds a test case. -/
theorem ofBytes_ne_nil {path : String} {bytes : List UInt8} {cases : List TestCase}
    (h : ofBytes path bytes = .ok cases) : cases ≠ [] := by
  obtain ⟨d, -, hread⟩ := bind_eq_ok_iff.mp h
  rw [ofDocument_eq] at hread
  split at hread
  · cases hread
  rename_i hne
  obtain ⟨entry, rest, hentries⟩ := List.exists_cons_of_ne_nil hne
  rw [hentries, entryCases] at hread
  obtain ⟨case, -, hcases⟩ := bind_eq_ok_iff.mp hread
  obtain ⟨others, -, hall⟩ := bind_eq_ok_iff.mp hcases
  obtain rfl := Except.ok.inj hall
  exact List.cons_ne_nil _ _

/-! ### All or nothing -/

/-- The sentence of a fault tells the position of a test case in a file. -/
def Names (path : String) (position : Nat) (fault : ConfigFault) : Prop :=
  ∃ before ∈ ["Test case ", "Invalid test case "], ∃ after,
    fault.message = before ++ toString position ++ " in " ++ path ++ after

theorem Rejected.names {path : String} {position : Nat} {entry : Document} {fault : ConfigFault}
    (h : Rejected path position entry fault) : Names path position fault := by
  cases h with
  | notMapping _ => exact ⟨"Test case ", by simp, " is not a mapping", rfl⟩
  | @invalid _ _ _ issues _ _ _ =>
    refine ⟨"Invalid test case ", by simp, ": " ++ issueCount "TestCaseConfig" issues, ?_⟩
    rw [← String.append_assoc]
    rfl

/-- What loading a file may end with: a fault of the configuration, or one test case for each entry
of the document, in order. -/
inductive AllOrNothing (path : String) :
    Option Document → Except Failure (List TestCase) → Prop
  | unread (cause : String) : AllOrNothing path none (.error (.config (.unreadable path cause)))
  | empty {d : Document} (h : entries d = []) :
      AllOrNothing path (some d) (.error (.config (.noCases path)))
  /-- The fault is that of the first entry that is no test case. -/
  | bad {d : Document} {good : List Document} {cases : List TestCase} {entry : Document}
      {rest : List Document} {fault : ConfigFault} (hentries : entries d = good ++ entry :: rest)
      (hgood : List.Forall₂ Validates good cases)
      (hbad : Rejected path (good.length + 1) entry fault)
      (hnames : Names path (good.length + 1) fault) :
      AllOrNothing path (some d) (.error (.config fault))
  | whole {d : Document} {cases : List TestCase} (hne : cases ≠ [])
      (hcases : List.Forall₂ Validates (entries d) cases) : AllOrNothing path (some d) (.ok cases)

theorem AllOrNothing.not_foreign {path : String} {d : Option Document} {x : Failure}
    (h : AllOrNothing path d (.error x)) : ¬ Foreign x := by
  intro hx
  cases h with
  | unread cause => exact hx _ rfl
  | empty _ => exact hx _ rfl
  | bad _ _ _ _ => exact hx _ rfl

/-- No entry is wild that stands behind test cases only. -/
def Civil (d : Document) : Prop :=
  ∀ good cases entry rest, entries d = good ++ entry :: rest →
    List.Forall₂ Validates good cases → ¬ Wild entry

/-- **A document is taken as a whole or refused, exactly when it is civil.** -/
theorem ofDocument_allOrNothing_iff (path : String) (d : Document) :
    AllOrNothing path (some d) (ofDocument path d) ↔ Civil d := by
  rw [ofDocument_eq]
  constructor
  · intro h good cases entry rest hentries hgood hwild
    obtain ⟨x, hx, hforeign⟩ := hwild.entryCase_eq path (1 + good.length)
    have hne : entries d ≠ [] := by simp [hentries]
    rw [if_neg hne, hentries, entryCases_append hgood, entryCases, hx] at h
    exact AllOrNothing.not_foreign h hforeign
  · intro hcivil
    split
    · exact .empty ‹_›
    rename_i hne
    -- Civility is about the first entry that is no test case: the entries behind it are never read.
    rcases split_cases (entries d) with
      ⟨cases, hall⟩ | ⟨good, cases, entry, rest, hsplit, hgood, hbad⟩
    · have hread := entryCases_append hall path 1 []
      rw [List.append_nil] at hread
      rw [hread]
      show AllOrNothing path (some d) (.ok (cases ++ []))
      rw [List.append_nil]
      refine .whole (fun hnil => hne ?_) hall
      rwa [hnil, List.forall₂_nil_right_iff] at hall
    · rw [hsplit, entryCases_append hgood, entryCases]
      rcases entry_cases path (1 + good.length) entry with hcase | ⟨fault, hfault⟩ | hwild
      · exact absurd hcase hbad
      · rw [hfault.entryCase_eq]
        rw [Nat.add_comm] at hfault
        exact .bad hsplit hgood hfault hfault.names
      · exact absurd hwild (hcivil good cases entry rest hsplit hgood)

/-! ### Files -/

/-- Readings of a file that a load can judge: the path is one, the bytes are a text, and the parser
says that the text is no document, or makes a civil one of it. -/
inductive Tame (read : String → Except Yaml.Fault Document) : Except FileError (List UInt8) → Prop
  | unread {e : FileError} (h : e.fault ≠ .nullByte) : Tame read (.error e)
  | malformed {bytes : List UInt8} {text : String} (htext : text? bytes = some text)
      (h : read text = .error .malformed) : Tame read (.ok bytes)
  | civil {bytes : List UInt8} {text : String} {d : Document} (htext : text? bytes = some text)
      (h : read text = .ok d) (hd : Civil d) : Tame read (.ok bytes)

/-- What a file is loaded to. -/
def outcome (read : String → Except Yaml.Fault Document) (path : String) :
    Except FileError (List UInt8) → Except Failure (List TestCase)
  | .error e => .error (e.rescue fun cause => .config (.unreadable path cause))
  | .ok bytes => documentBy read path bytes >>= ofDocument path

section

variable {read : String → Except Yaml.Fault Document} {path : String}

theorem outcome_error_iff (e : FileError) :
    AllOrNothing path none (outcome read path (.error e)) ↔ Tame read (.error e) := by
  by_cases hnull : e.fault = .nullByte
  · have hvalue : outcome read path (.error e) = .error (.value e.message) :=
      congrArg Except.error (if_pos hnull)
    rw [hvalue]
    refine ⟨fun h => absurd (fun _ => Failure.noConfusion) h.not_foreign, fun h => ?_⟩
    cases h with
    | unread hpath => exact absurd hnull hpath
  · have hconfig : outcome read path (.error e) = .error (.config (.unreadable path e.message)) :=
      congrArg Except.error (if_neg hnull)
    rw [hconfig]
    exact ⟨fun _ => .unread hnull, fun _ => .unread _⟩

theorem outcome_none {bytes : List UInt8} (htext : text? bytes = none) :
    outcome read path (.ok bytes) = .error (.encoding "the bytes are no text") := by
  show documentBy read path bytes >>= ofDocument path = _
  unfold documentBy
  rw [Option.map_eq_none_iff.mp htext]
  rfl

/-- Bytes that are no text cannot be judged. -/
theorem outcome_none_iff {bytes : List UInt8} (htext : text? bytes = none) :
    AllOrNothing path none (outcome read path (.ok bytes)) ↔ Tame read (.ok bytes) := by
  rw [outcome_none htext]
  refine ⟨fun h => absurd (fun _ => Failure.noConfusion) h.not_foreign, fun h => ?_⟩
  cases h with
  | malformed hsome _ | civil hsome _ _ =>
    rw [htext] at hsome
    cases hsome

theorem outcome_some_iff {bytes : List UInt8} {text : String} (htext : text? bytes = some text) :
    AllOrNothing path (read text).toOption (outcome read path (.ok bytes)) ↔
      Tame read (.ok bytes) := by
  have houtcome : outcome read path (.ok bytes) =
      ((read text).mapError (faultFailure path) >>= ofDocument path) := by
    obtain ⟨s, hs, rfl⟩ := Option.map_eq_some_iff.mp htext
    show documentBy read path bytes >>= ofDocument path = _
    unfold documentBy
    rw [hs]
  rw [houtcome]
  cases hread : read text with
  | ok d =>
    show AllOrNothing path (some d) (ofDocument path d) ↔ _
    rw [ofDocument_allOrNothing_iff]
    refine ⟨fun h => .civil htext hread h, fun h => ?_⟩
    cases h with
    | malformed hsome h | civil hsome h _ =>
      obtain rfl := Option.some.inj (htext.symm.trans hsome)
      cases hread.symm.trans h <;> assumption
  | error fault =>
    show AllOrNothing path none (.error (faultFailure path fault)) ↔ _
    constructor
    · intro h
      cases fault with
      | malformed => exact .malformed htext hread
      | _ => exact absurd (fun _ => Failure.noConfusion) h.not_foreign
    · intro h
      cases h with
      | malformed hsome h | civil hsome h _ =>
        obtain rfl := Option.some.inj (htext.symm.trans hsome)
        cases hread.symm.trans h <;> exact .unread _

/-- **A reading of a file leads to a suite or to a fault of the configuration, exactly when it is
tame.** -/
theorem outcome_allOrNothing_iff (reply : Except FileError (List UInt8)) :
    AllOrNothing path (document? read reply) (outcome read path reply) ↔ Tame read reply := by
  cases reply with
  | error e => exact outcome_error_iff e
  | ok bytes =>
    -- Whether the bytes are a text comes before what the parser makes of it.
    have hdocument : document? read (.ok bytes) =
        (text? bytes).bind fun text => (read text).toOption := rfl
    rw [hdocument]
    cases htext : text? bytes with
    | none => exact outcome_none_iff htext
    | some text => exact outcome_some_iff htext

end

/-- Loading reads the file and does nothing else. -/
theorem run_loadBy {τ σ : Type} [TimeScale τ] (read : String → Except Yaml.Fault Document)
    (path : String) (w : World τ σ) (h : History τ σ) :
    w.run (loadBy read path).run h = (outcome read path (w.answer (.file (.read path)) h.state).1,
      (w.reply (.ask (.file (.read path))) h).2) := by
  have hask : w.run (Action.ask (.file (.read path))).run h =
      (.ok (w.answer (.file (.read path)) h.state).1,
        (w.reply (.ask (.file (.read path))) h).2) := rfl
  unfold loadBy
  rw [World.run_step_ok hask]
  cases (w.answer (.file (.read path)) h.state).1 <;> rfl

/-- **Loading is all or nothing, with one class of failures, exactly for tame files.** Whatever the
parser is, the file is read once, and nothing else is asked for; and it is loaded to a suite or to a
fault of the configuration exactly when its reading is tame. -/
theorem load_allOrNothing_iff {τ σ : Type} [TimeScale τ]
    (read : String → Except Yaml.Fault Document) (path : String) (w : World τ σ)
    (h : History τ σ) :
    ∃ reply outcome h', w.run (loadBy read path).run h = (outcome, h') ∧
      h'.events = .asked (.file (.read path)) reply h.now :: h.events ∧
      reply = (w.answer (.file (.read path)) h.state).1 ∧
      (AllOrNothing path (document? read reply) outcome ↔ Tame read reply) :=
  ⟨_, _, _, run_loadBy read path w h, rfl, rfl, outcome_allOrNothing_iff _⟩

/-- Surroundings in which every file holds the same bytes. -/
def holding (bytes : List UInt8) : World Nat Unit where
  answer q s := (match q with
    | .file (.read _) => .ok bytes
    | q => Sample.reply (Ideal.answer {}) q, 1, s)

/-- **A file whose bytes are no text is not refused as a configuration.** -/
theorem load_not_allOrNothing :
    let loaded := ((holding [0xff]).trace 0 () (load "config.yml").run).1
    loaded = .error (.encoding "the bytes are no text") ∧
      ∀ d, ¬ AllOrNothing "config.yml" d loaded := by
  have hloaded : ((holding [0xff]).trace 0 () (load "config.yml").run).1 =
      .error (.encoding "the bytes are no text") := by
    have htext : text? [0xff] = none := by decide +kernel
    show ((holding [0xff]).run (loadBy Yaml.read "config.yml").run { now := 0, state := () }).1 = _
    rw [run_loadBy]
    exact outcome_none htext
  refine ⟨hloaded, fun d h => ?_⟩
  rw [hloaded] at h
  exact absurd (fun _ => Failure.noConfusion) h.not_foreign

end IngressBench.Suite
