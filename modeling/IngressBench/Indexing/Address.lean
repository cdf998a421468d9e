import IngressBench.Text.Digit

/-!
Addresses of search servers. An address is complete when it has a scheme, a host and a port; the
usual schemes have ports of their own.
-/
namespace IngressBench.Address

/-- The parts of an address that matter. -/
structure Parts where
  scheme : List Char
  host : List Char
  port : Option Nat
deriving Repr, DecidableEq

def isSchemeChar (c : Char) : Bool :=
  c.isAlphanum || c == '+' || c == '.' || c == '-'

/-- A scheme and what stands behind its colon. -/
def scheme? (s : List Char) : Option (List Char × List Char) :=
  match s.span isSchemeChar with
  | (c :: cs, ':' :: rest) => if c.isAlpha then some (c :: cs, rest) else none
  | _ => none

/-- The authority behind two slashes. -/
def authority? : List Char → Option (List Char)
  | '/' :: '/' :: rest =>
    some (rest.takeWhile fun c => c != '\\' && c != '/' && c != '?' && c != '#')
  | _ => none

/-- What stands behind the last `@`. -/
def withoutUser (s : List Char) : List Char :=
  (s.reverse.takeWhile (· != '@')).reverse

/-- Whether a character may stand in a host between brackets. -/
def isBracketChar (c : Char) : Bool :=
  c.isAlphanum || c == ':' || c == '.' || c == '%' || c == '-' || c == '_' || c == '~'

/-- The host at the start of a text, and the rest. -/
def host? (s : List Char) : Option (List Char × List Char) :=
  match s with
  | '[' :: rest =>
    match rest.span isBracketChar with
    | (c :: cs, ']' :: tail) => some (c :: cs, tail)
    | _ => none
  | _ => some (s.span fun c => c != '[' && c != ']' && c != ':' && c != '%')

/-- Most digits of a port. -/
def portDigits : Nat := 5

/-- The port behind a host. -/
def port? : List Char → Option (Option Nat)
  | [] | [':'] => some none
  | ':' :: digits =>
    let number := Text.asciiNumber digits
    if digits.length ≤ portDigits && digits.all Char.isDigit && number ≤ 65535 then
      some (some number)
    else none
  | _ => none

/-- The port that a scheme has of its own. -/
def usualPort (scheme : List Char) : Option Nat :=
  if scheme = "http".toList then some 80
  else if scheme = "https".toList then some 443
  else none

/-- The parts of an address. -/
def parts? (address : String) : Option Parts := do
  let (scheme, rest) ← scheme? address.toList
  let authority ← authority? rest
  let (host, tail) ← host? (withoutUser authority)
  let port ← port? tail
  return ⟨scheme.map Char.toLower, host, port⟩

/-- Whether an address has a scheme, a host and a port. -/
def isComplete (address : String) : Bool :=
  match parts? address with
  | some p => !p.host.isEmpty && (p.port.or (usualPort p.scheme)).isSome
  | none => false

/-- An address of its parts. -/
def Parts.text (p : Parts) : String :=
  let port := (p.port.map fun n => s!":{n}").getD ""
  String.ofList p.scheme ++ "://" ++ String.ofList p.host ++ port

/-- A complete address. -/
def complete : Parts :=
  ⟨"https".toList, "localhost".toList, some 9200⟩

/-- The sentence about an address that is not complete. -/
def refusal : String :=
  s!"URL must include a 'scheme', 'host', and 'port' component (ie '{complete.text}')"

end IngressBench.Address
