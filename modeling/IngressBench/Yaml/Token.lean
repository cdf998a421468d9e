import IngressBench.Yaml.Cursor

/-!
The tokens of a YAML text. Indentation is part of the tokens: a block starts and ends with a token
of its own, and every key of a mapping is announced.
-/
namespace IngressBench.Yaml

/-- Why a text has no value. -/
inductive Fault where
  /-- The text is no YAML, or its nodes stand for nothing. -/
  | malformed
  /-- A scalar has a form that its tag does not allow. -/
  | value (text : String)
  /-- A truth value is none of the known words, given between quotes. -/
  | word (shown : String)
  /-- A number without any character. -/
  | empty
  /-- A point in time that has no form of one. -/
  | part (text : String)
deriving Repr, DecidableEq

/-- The handle of a tag, if it has one, and its suffix. -/
structure TagName where
  handle : Option String
  suffix : String
deriving Repr, DecidableEq

/-- A token. -/
inductive Token where
  | versionLine (major minor : Nat)
  | tagLine (handle start : String)
  | otherLine
  | documentStart
  | documentEnd
  | streamEnd
  | blockSequence
  | blockMapping
  | blockEnd
  | openList
  | closeList
  | openMap
  | closeMap
  | entry
  | comma
  | key
  | value
  | alias (name : String)
  | anchor (name : String)
  | tag (name : TagName)
  | scalar (text : String) (plain : Bool)
deriving Repr, DecidableEq, Inhabited

end IngressBench.Yaml
