import IngressBench.Text.Line

/-!
Files of variables. A file binds names to values, one binding a line: `name=value`, the name possibly
behind `export`, the value possibly between quotes. What stands behind a blank and a `#` is a comment,
a line that is no binding is passed over, and a value may refer to other variables by `$` and the name
between braces. A name without a value is only mentioned.
-/
namespace IngressBench.Variables

open Text

/-- What a line binds. -/
abbrev Binding := String × Option String

/-! ### Names -/

/-- The text behind the word `export` and the blanks after it. -/
def afterExport (s : List Char) : List Char :=
  match s with
  | 'e' :: 'x' :: 'p' :: 'o' :: 'r' :: 't' :: c :: rest =>
    if isInlineBlank c then rest.dropWhile isInlineBlank else s
  | _ => s

def isNameChar (c : Char) : Bool :=
  c != '=' && c != '#' && !isBlank c

/-- The name at the start of a text, nothing in front of a comment; an error when none stands
there. -/
def name (s : List Char) : Except (List Char) (Option String × List Char) :=
  match s with
  | '#' :: _ => .ok (none, s)
  | '\'' :: rest =>
    match rest.span (· != '\'') with
    | (c :: cs, _ :: tail) => .ok (some (String.ofList (c :: cs)), tail)
    | _ => .error s
  | _ =>
    match s.span isNameChar with
    | ([], _) => .error s
    | (cs, tail) => .ok (some (String.ofList cs), tail)

/-! ### Values -/

/-- The characters up to the first quote that no backslash stands in front of, and the text behind
it. -/
def upToQuote (quote : Char) : List Char → Option (List Char × List Char)
  | [] => none
  | '\\' :: c :: rest =>
    if c = quote then (upToQuote quote rest).map fun (cs, tail) => ('\\' :: c :: cs, tail)
    else (upToQuote quote (c :: rest)).map fun (cs, tail) => ('\\' :: cs, tail)
  | c :: rest =>
    if c = quote then some ([], rest)
    else (upToQuote quote rest).map fun (cs, tail) => (c :: cs, tail)

/-- The characters up to the last quote, and the text behind it. -/
def upToLastQuote (quote : Char) (s : List Char) : Option (List Char × List Char) :=
  match s.reverse.span (· != quote) with
  | (tail, _ :: front) => some (front.reverse, tail.reverse)
  | _ => none

/-- A text that starts behind a quote, up to the other quote. When all quotes have a backslash in
front of them, the last one ends the text all the same. -/
def quotedText (quote : Char) (s : List Char) : Option (List Char × List Char) :=
  (upToQuote quote s).or (upToLastQuote quote s)

/-- The characters that letters behind a backslash stand for. -/
def signs : List (Char × Char) :=
  [('\\', '\\'), ('\'', '\''), ('"', '"'), ('a', '\x07'), ('b', '\x08'), ('f', '\x0c'),
    ('n', '\n'), ('r', '\r'), ('t', '\t'), ('v', '\x0b')]

/-- A text with the signs among `letters` in place of their letters. -/
def withSigns (letters : List Char) : List Char → List Char
  | '\\' :: c :: rest =>
    match signs.lookup c with
    | some sign =>
      if letters.contains c then sign :: withSigns letters rest
      else '\\' :: withSigns letters (c :: rest)
    | none => '\\' :: withSigns letters (c :: rest)
  | c :: rest => c :: withSigns letters rest
  | [] => []

/-- The text in front of a comment. -/
def beforeComment : List Char → List Char
  | c :: '#' :: rest => if isBlank c then [] else c :: beforeComment ('#' :: rest)
  | c :: rest => c :: beforeComment rest
  | [] => []

/-- A value without quotes: no comment and no blanks belong to it. -/
def plainValue (line : List Char) : List Char :=
  ((beforeComment line).reverse.dropWhile isBlank).reverse

/-- The value at the start of a text. -/
def value (s : List Char) : Except (List Char) (String × List Char) :=
  match s with
  | '\'' :: rest =>
    match quotedText '\'' rest with
    | some (cs, tail) => .ok (String.ofList (withSigns ['\\', '\''] cs), tail)
    | none => .error s
  | '"' :: rest =>
    match quotedText '"' rest with
    | some (cs, tail) => .ok (String.ofList (withSigns (signs.map Prod.fst) cs), tail)
    | none => .error s
  | _ =>
    let (line, tail) := s.span (· != '\n')
    .ok (String.ofList (plainValue line), tail)

/-! ### Bindings -/

/-- The text behind the end of a line that holds nothing more than a comment. -/
def lineEnd (s : List Char) : Except (List Char) (List Char) :=
  let s := match s.dropWhile isInlineBlank with
    | '#' :: rest => rest.dropWhile (· != '\n')
    | _ => s
  match s.dropWhile isInlineBlank with
  | [] => .ok []
  | '\n' :: rest => .ok rest
  | _ => .error s

/-- The binding at the start of a text, and the text behind it. An error tells where the reading
stopped. -/
def binding (s : List Char) : Except (List Char) (Option Binding × List Char) := do
  let (name?, s) ← name (afterExport s)
  let (value?, s) ← match s.dropWhile isInlineBlank with
    | '=' :: rest => do
      let (v, tail) ← value (rest.dropWhile isInlineBlank)
      pure (some v, tail)
    | rest => pure (none, rest)
  let tail ← lineEnd s
  return (name?.map (·, value?), tail)

/-- The bindings of a text, at most `fuel` of its lines. -/
def bindings (fuel : Nat) (s : List Char) : List Binding :=
  match fuel, s.dropWhile isBlank with
  | 0, _ | _, [] => []
  | fuel + 1, s =>
    match binding s with
    | .ok (some b, tail) => b :: bindings fuel tail
    | .ok (none, tail) => bindings fuel tail
    | .error tail => bindings fuel (nextLine tail)

/-! ### References -/

/-- A reference behind `$` and a brace: the name, the value when the name is unknown, and the text
behind the other brace. -/
def reference? (s : List Char) : Option (String × String × List Char) :=
  match s.span fun c => c != '\x7d' && c != ':' with
  | (cs, '\x7d' :: tail) => some (String.ofList cs, "", tail)
  | (cs, ':' :: '-' :: rest) =>
    match rest.span (· != '\x7d') with
    | (fallback, _ :: tail) => some (String.ofList cs, String.ofList fallback, tail)
    | _ => none
  | _ => none

/-- A text with the values of its references. -/
def resolved (known : String → Option String) (fuel : Nat) (s : List Char) : List Char :=
  match fuel, s with
  | 0, _ => s
  | _, [] => []
  | fuel + 1, '$' :: '\x7b' :: rest =>
    match reference? rest with
    | some (n, fallback, tail) => ((known n).getD fallback).toList ++ resolved known fuel tail
    | none => '$' :: resolved known fuel ('\x7b' :: rest)
  | fuel + 1, c :: rest => c :: resolved known fuel rest

/-- Bindings with a name bound to a value; the name keeps its place. -/
def bind (bound : List Binding) (name : String) (value : Option String) : List Binding :=
  match bound with
  | [] => [(name, value)]
  | (n, v) :: rest => if n = name then (n, value) :: rest else (n, v) :: bind rest name value

/-- The value that a reference stands for: names of the file first, then `others`. -/
def knownValue (bound : List Binding) (others : List (String × String)) (name : String) :
    Option String :=
  match bound.lookup name with
  | some v => some (v.getD "")
  | none => others.lookup name

/-- The bindings with the values of their references, each name once. -/
def resolveAll (others : List (String × String)) (bs : List Binding) : List Binding :=
  bs.foldl (fun bound (n, v) =>
    bind bound n (v.map fun v =>
      String.ofList (resolved (knownValue bound others) v.length v.toList))) []

/-- The variables of a file's text. -/
def read (others : List (String × String)) (text : String) : List Binding :=
  let s := plainLines text.toList
  resolveAll others (bindings s.length s)

end IngressBench.Variables
