import IngressBench.Text.Range

/-!
Blank characters and trimming. Two sets are in use: the separators that surround a text a
person wrote (`isBlank`, which also holds the four information separators), and the white
space of the Unicode property of that name (`isWhiteSpace`).
-/
namespace IngressBench.Text

/-- White space of the Unicode property. -/
def whiteSpace : Ranges :=
  [(0x9, 0xD), (0x20, 0x20), (0x85, 0x85), (0xA0, 0xA0), (0x1680, 0x1680), (0x2000, 0x200A),
    (0x2028, 0x2029), (0x202F, 0x202F), (0x205F, 0x205F), (0x3000, 0x3000)]

/-- White space, and the information separators U+001C to U+001F. -/
def blanks : Ranges :=
  (0x1C, 0x1F) :: whiteSpace

def isWhiteSpace (c : Char) : Bool :=
  whiteSpace.covers c.toNat

def isBlank (c : Char) : Bool :=
  blanks.covers c.toNat

theorem isBlank_of_isWhiteSpace {c : Char} (h : isWhiteSpace c = true) : isBlank c = true := by
  simp only [isBlank, blanks, Ranges.covers, List.any_cons, isWhiteSpace] at h ⊢
  simp [h]

/-! ### Trimming -/

/-- The characters after the longest start that satisfies `p`, without the longest such end. -/
def trimWith (p : Char → Bool) (s : List Char) : List Char :=
  ((s.dropWhile p).reverse.dropWhile p).reverse

/-- A text without the blanks around it. -/
def trim (s : List Char) : List Char :=
  trimWith isBlank s

/-- A text without the blanks around it. -/
def trimmed (s : String) : String :=
  String.ofList (trim s.toList)

theorem trimWith_nil (p : Char → Bool) : trimWith p [] = [] := rfl

end IngressBench.Text
