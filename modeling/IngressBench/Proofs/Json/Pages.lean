import IngressBench.Json.Writing
import IngressBench.Result

/-!
How long written lists are. A row of pieces without a flaw is written as a whole
(`written_eq_none_iff`, `length_written`), so the text for a list is as long as the texts for its
items and the signs around them, and a list with further items in front is written at greater length
(`length_pages_lt`).

The document of a result can be written if the values can that were taken from the cluster as they
are (`Result.document_serializable`).
-/
namespace IngressBench.Json

/-! ### Pieces -/

/-- The piece is no flaw. -/
def Piece.IsText : Piece → Prop
  | .text _ => True
  | .flaw _ => False

/-- No piece of the row is a flaw. -/
def Clean (row : List Piece) : Prop :=
  ∀ p ∈ row, p.IsText

theorem clean_append {first rest : List Piece} :
    Clean (first ++ rest) ↔ Clean first ∧ Clean rest :=
  List.forall_mem_append

theorem clean_cons {p : Piece} {rest : List Piece} : Clean (p :: rest) ↔ p.IsText ∧ Clean rest :=
  List.forall_mem_cons

theorem clean_text (s : String) : Clean [.text s] := by
  simp [Clean, Piece.IsText]

def Piece.length : Piece → Nat
  | .text s => s.length
  | .flaw _ => 0

/-- The length of what is written for a row of pieces without a flaw. -/
def size : List Piece → Nat
  | [] => 0
  | p :: rest => p.length + size rest

@[simp] theorem size_nil : size [] = 0 := rfl

@[simp] theorem size_cons (p : Piece) (rest : List Piece) :
    size (p :: rest) = p.length + size rest := rfl

@[simp] theorem size_append (first rest : List Piece) :
    size (first ++ rest) = size first + size rest := by
  induction first with
  | nil => simp
  | cons p more ih => simp [ih, Nat.add_assoc]

/-- What is written of a row tells whether it has a flaw. -/
theorem written_eq_none_iff {row : List Piece} : (written row).2 = none ↔ Clean row := by
  induction row with
  | nil => simp [written, writtenAfter, Clean]
  | cons p rest ih =>
    cases p with
    | text s => simp [written_text, ih, clean_cons, Piece.IsText]
    | flaw f => simp [written, writtenAfter, clean_cons, Piece.IsText]

theorem length_written {row : List Piece} (h : Clean row) : (written row).1.length = size row := by
  induction row with
  | nil => rfl
  | cons p rest ih =>
    obtain ⟨hp, hrest⟩ := clean_cons.mp h
    cases p with
    | text s => simp [written_text, ih hrest, Piece.length]
    | flaw f => exact hp.elim

/-- Texts of one row of bytes are one. -/
theorem utf8_inj {s t : String} : s.toUTF8.data.toList = t.toUTF8.data.toList ↔ s = t := by
  rw [Array.toList_inj, ← ByteArray.ext_iff, String.toUTF8_eq_toByteArray,
    String.toUTF8_eq_toByteArray, String.toByteArray_inj]

end Json

open Json

/-! ### Values that can be written -/

/-- The value is written without a flaw at any depth. -/
def Document.Serializable (d : Document) : Prop :=
  ∀ depth, Clean (pieces true depth d)

namespace Document

@[simp] theorem serializable_null : Document.null.Serializable := fun _ => clean_text _

@[simp] theorem serializable_bool (b : Bool) : (Document.bool b).Serializable :=
  fun _ => clean_text _

@[simp] theorem serializable_int (i : Int) : (int i).Serializable := fun _ => clean_text _

@[simp] theorem serializable_real (x : Float) : (real x).Serializable := fun _ => clean_text _

@[simp] theorem serializable_text (s : String) : (Document.text s).Serializable :=
  fun _ => clean_text _

@[simp] theorem serializable_ofText? (s : Option String) : (ofText? s).Serializable := by
  cases s with
  | none => exact serializable_null
  | some s => exact serializable_text s

theorem clean_entryPieces {entries : List (String × Document)}
    (h : ∀ e ∈ entries, e.2.Serializable) (depth : Nat) :
    Clean (entryPieces true depth (entries.map fun (k, v) => (.text k, v))) := by
  induction entries with
  | nil => simp [Clean, entryPieces]
  | cons e rest ih =>
    obtain ⟨hfirst, hrest⟩ := List.forall_mem_cons.mp h
    simp only [List.map_cons, entryPieces, clean_cons, clean_append]
    exact ⟨clean_cons.mpr ⟨trivial, clean_text _⟩, trivial, hfirst depth, ih hrest⟩

/-- A mapping from names can be written if its values can. -/
theorem serializable_object {entries : List (String × Document)}
    (h : ∀ e ∈ entries, e.2.Serializable) : (object entries).Serializable := by
  intro depth
  cases entries with
  | nil => exact clean_text _
  | cons e rest =>
    obtain ⟨hfirst, hrest⟩ := List.forall_mem_cons.mp h
    simp only [object, List.map_cons, pieces, clean_cons, clean_append]
    exact ⟨trivial, trivial, trivial, ⟨hfirst _, clean_entryPieces hrest _⟩, trivial,
      by simp [Clean]⟩

end Document

theorem TestCase.document_serializable (c : TestCase) : c.document.Serializable := by
  apply Document.serializable_object
  simp [TestCase.fields]

/-- The document of a result can be written if the values can that were taken from the cluster. -/
theorem Result.document_serializable {r : Result} (hplatform : r.metadata.platform.Serializable)
    (hname : r.metadata.clusterName.Serializable) (hversion : r.metadata.ocpVersion.Serializable) :
    r.document.Serializable := by
  have hmetadata : r.metadata.document.Serializable := by
    apply Document.serializable_object
    simp [hplatform, hname, hversion]
  apply Document.serializable_object
  cases r.routerCpu <;> simp [Measures.fields, hmetadata, r.config.document_serializable]

/-! ### Lists -/

namespace Json

theorem clean_itemPieces {documents : List Document} (h : ∀ d ∈ documents, d.Serializable)
    (depth : Nat) : Clean (itemPieces true depth documents) := by
  induction documents with
  | nil => simp [Clean, itemPieces]
  | cons d rest ih =>
    obtain ⟨hfirst, hrest⟩ := List.forall_mem_cons.mp h
    simp only [itemPieces, clean_cons, clean_append]
    exact ⟨trivial, hfirst depth, ih hrest⟩

theorem clean_list {documents : List Document} (h : ∀ d ∈ documents, d.Serializable) :
    Clean (pieces true 0 (.list documents)) := by
  cases documents with
  | nil => exact clean_text _
  | cons d rest =>
    obtain ⟨hfirst, hrest⟩ := List.forall_mem_cons.mp h
    simp only [pieces, clean_cons, clean_append]
    exact ⟨trivial, ⟨hfirst _, clean_itemPieces hrest _⟩, trivial, by simp [Clean]⟩

theorem size_itemPieces_append (first rest : List Document) (depth : Nat) :
    size (itemPieces true depth (first ++ rest)) =
      size (itemPieces true depth first) + size (itemPieces true depth rest) := by
  induction first with
  | nil => simp [itemPieces]
  | cons d more ih =>
    simp only [List.cons_append, itemPieces, size_cons, size_append, ih]
    omega

/-- The brackets of a list take as much as one separator less its first sign. -/
theorem size_list (documents : List Document) :
    size (pieces true 0 (.list documents)) = size (itemPieces true 1 documents) + 2 := by
  cases documents with
  | nil => rfl
  | cons d rest =>
    have hopen : ("[" ++ lineBreak true 1).length = 4 := by decide
    have hnext : (separator true 1).length = 4 := by decide
    have hclose : (lineBreak true 0 ++ "]").length = 2 := by decide
    simp only [pieces, itemPieces, size_cons, size_append, size_nil, Piece.length, Nat.zero_add,
      hopen, hnext, hclose]
    omega

/-- **A list with further items in front is written at greater length.** -/
theorem length_pages_lt {first rest : List Document} (hne : first ≠ [])
    (h : ∀ d ∈ first ++ rest, d.Serializable) :
    (pages (.list rest)).1.length < (pages (.list (first ++ rest))).1.length := by
  have hrest : ∀ d ∈ rest, d.Serializable := fun d hd => h d (List.mem_append_right first hd)
  have hlong : 0 < size (itemPieces true 1 first) := by
    cases first with
    | nil => exact absurd rfl hne
    | cons d more =>
      have hnext : (separator true 1).length = 4 := by decide
      simp only [itemPieces, size_cons, Piece.length, hnext]
      omega
  unfold pages
  rw [length_written (clean_list hrest), length_written (clean_list h), size_list, size_list,
    size_itemPieces_append]
  omega

end Json
end IngressBench
