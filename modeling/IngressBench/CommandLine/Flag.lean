import IngressBench.Document
import IngressBench.Text.Digit

/-!
Flags of a command line. A flag has one name or several; a long name may be cut as long as it stays
the only one with that start. The value of a flag stands behind `=` or is the next argument.
-/
namespace IngressBench.CommandLine

/-- A flag, and whether it takes a value. -/
structure Flag where
  names : List String
  takesValue : Bool
deriving Repr, DecidableEq

/-- A flag as complaints name it. -/
def Flag.label (f : Flag) : String :=
  "/".intercalate f.names

/-- What stands behind the name of a flag in the same argument. -/
inductive Tail where
  | nothing
  /-- A text behind `=`. -/
  | assigned (text : String)
  /-- A text right behind the letter of a short name. -/
  | letters (text : String)
deriving Repr, DecidableEq

/-- What an argument is. -/
inductive Argument where
  | word (text : String)
  /-- Two hyphens: only words follow. -/
  | separator
  /-- A flag by one of its names. -/
  | flag (flag : Flag) (name : String) (tail : Tail)
  /-- Something that looks like a flag and is none. -/
  | stranger (text : String)
deriving Repr, DecidableEq

/-! ### Single arguments -/

/-- The names of flags, each with its flag. -/
def namesOf (flags : List Flag) : List (String × Flag) :=
  flags.flatMap fun f => f.names.map (·, f)

/-- A name and what is assigned to it behind the first `=`. -/
def assignment (s : List Char) : List Char × Tail :=
  match s.span (· != '=') with
  | (name, _ :: value) => (name, .assigned (String.ofList value))
  | (name, []) => (name, .nothing)

/-- Whether a text starts with another one. -/
def startsWith (s start : List Char) : Bool :=
  start.isPrefixOf s

/-- The flags that a cut long name may stand for. -/
def longMatches (flags : List Flag) (s : List Char) : List (String × Flag × Tail) :=
  let (start, tail) := assignment s
  (namesOf flags).filterMap fun (name, f) =>
    if startsWith name.toList start then some (name, f, tail) else none

/-- The flags that a short name with letters right behind it may stand for. -/
def shortMatches (flags : List Flag) (s : List Char) : List (String × Flag × Tail) :=
  (namesOf flags).filterMap fun (name, f) =>
    if name.toList = s.take 2 then some (name, f, .letters (String.ofList (s.drop 2)))
    else if startsWith name.toList s then some (name, f, .nothing)
    else none

/-- Whether an argument that starts with a hyphen is a number. -/
def isNegativeNumber (s : List Char) : Bool :=
  let body := s.drop 1
  match body.span Text.isDecimal with
  | (digits, []) => !digits.isEmpty
  | (_, '.' :: fraction) => !fraction.isEmpty && fraction.all Text.isDecimal
  | _ => false

/-- A flag by its whole name, or by its whole name in front of `=`. -/
def exactFlag? (flags : List Flag) (s : List Char) : Option Argument :=
  let known := namesOf flags
  let text := String.ofList s
  let (start, tail) := assignment s
  let name := String.ofList start
  match known.lookup text, tail with
  | some f, _ => some (.flag f text .nothing)
  | none, .nothing => none
  | none, tail => (known.lookup name).map fun f => .flag f name tail

/-- What a text is that starts with a hyphen and is no whole name of a flag. Several flags with the
same start are an error that names them. -/
def cutFlag (flags : List Flag) (s : List Char) : Except String Argument :=
  let found := if s.take 2 = ['-', '-'] then longMatches flags s else shortMatches flags s
  match found with
  | [(name, f, tail)] => .ok (.flag f name tail)
  | [] =>
    if isNegativeNumber s || s.contains ' ' then .ok (.word (String.ofList s))
    else .ok (.stranger (String.ofList s))
  | _ =>
    let names := ", ".intercalate (found.map Prod.fst)
    .error s!"ambiguous option: {String.ofList s} could match {names}"

/-- What an argument is. -/
def argument (flags : List Flag) (text : String) : Except String Argument :=
  let s := text.toList
  if s.head? != some '-' || s.length = 1 then .ok (.word text)
  else
    match exactFlag? flags s with
    | some a => .ok a
    | none => cutFlag flags s

/-- What the arguments are; behind a separator all are words. -/
def arguments (flags : List Flag) : List String → Except String (List Argument)
  | [] => .ok []
  | "--" :: rest => .ok (.separator :: rest.map .word)
  | text :: rest => do
    let a ← argument flags text
    return a :: (← arguments flags rest)

/-! ### Flags with their values -/

/-- A flag that was used. A value of two hyphens alone is an empty list. -/
structure Use where
  flag : Flag
  value : Document

/-- The value of a flag. -/
def valueOf (text : String) : Document :=
  if text = "--" then .list [] else .text text

/-- Why a value does not belong to a flag that takes none. -/
def ignoredValue (f : Flag) (value : String) : String :=
  s!"argument {f.label}: ignored explicit argument {Text.quoted value}"

/-- Short flags behind one hyphen, `f` the one in front of the letters that are left. What is left
behind the last letter of a flag is a stranger. -/
def cluster (flags : List Flag) (f : Flag) : List Char → Except String (List Use × List String)
  | [] => .ok ([⟨f, .bool true⟩], [])
  | c :: rest =>
    if c = '-' then .error (ignoredValue f (String.ofList (c :: rest)))
    else
      match (namesOf flags).lookup (String.ofList ['-', c]), rest with
      | none, _ => .ok ([⟨f, .bool true⟩], [String.ofList ('-' :: c :: rest)])
      | some g, '=' :: value => .error (ignoredValue g (String.ofList value))
      | some g, rest => do
        let (uses, strangers) ← cluster flags g rest
        return (⟨f, .bool true⟩ :: uses, strangers)

/-- The uses of a flag with a text in the same argument, and what is left of the text. -/
def attached (flags : List Flag) (f : Flag) (tail : Tail) : Except String (List Use × List String) :=
  match tail with
  | .nothing => .ok ([⟨f, .bool true⟩], [])
  | .assigned text =>
    if f.takesValue then .ok ([⟨f, valueOf text⟩], []) else .error (ignoredValue f text)
  | .letters text =>
    if f.takesValue then .ok ([⟨f, valueOf text⟩], []) else cluster flags f text.toList

/-- A command line that was read: the flags that were used, in order, and what is left over. -/
structure Reading where
  uses : List Use := []
  rest : List String := []

/-- The text of an argument that is no flag. -/
def Argument.text : Argument → String
  | .word s | .stranger s => s
  | .separator => "--"
  | .flag _ name _ => name

/-- Reads arguments for a command that takes no words; `isLast` tells the flags that end the
reading. -/
def readFlags (flags : List Flag) (isLast : Flag → Bool) : List Argument → Except String Reading
  | [] => .ok {}
  | .flag f _ .nothing :: rest =>
    match f.takesValue, rest with
    | true, .word value :: rest => do
      let r ← readFlags flags isLast rest
      return { r with uses := ⟨f, valueOf value⟩ :: r.uses }
    | true, _ => .error s!"argument {f.label}: expected one argument"
    | false, rest =>
      if isLast f then .ok { uses := [⟨f, .bool true⟩] }
      else do
        let r ← readFlags flags isLast rest
        return { r with uses := ⟨f, .bool true⟩ :: r.uses }
  | .flag f _ tail :: rest => do
    let (uses, strangers) ← attached flags f tail
    if uses.any fun u => isLast u.flag then return { uses }
    let r ← readFlags flags isLast rest
    return { uses := uses ++ r.uses, rest := strangers ++ r.rest }
  | a :: rest => do
    let r ← readFlags flags isLast rest
    return { r with rest := a.text :: r.rest }

end IngressBench.CommandLine
