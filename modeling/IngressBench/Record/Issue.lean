/-!
What is wrong with the values of a record. An issue names the place of a value, from the record
down, and the cause; every cause has a short kind and a sentence.
-/
namespace IngressBench

/-- A step from a value to one inside it. -/
inductive Step where
  | field (name : String)
  | item (position : Nat)
deriving Repr, DecidableEq

/-- Why a value is not accepted. -/
inductive Cause where
  | missing
  | extra
  | frozen
  | notText
  | textEncoding
  | notWhole
  | fractional
  | wholeUnreadable
  | wholeTooLarge
  | notFinite
  | notNumber
  | numberUnreadable
  | notTruth
  | truthUnreadable
  | notAbove (bound : Int)
  | below (least : Int)
  | notAmong (choices : List String)
  | notList
  | notRecord (title : String)
  | notPath
  | notMoment
  | momentUnreadable (why : String)
  | dayUnreadable (why : String)
  /-- A rule of the record refuses the value with this sentence. -/
  | rule (sentence : String)
deriving Repr, DecidableEq

namespace Cause

/-- The kind of a cause. -/
def kind : Cause → String
  | missing => "missing"
  | extra => "extra_forbidden"
  | frozen => "frozen_instance"
  | notText => "string_type"
  | textEncoding => "string_unicode"
  | notWhole => "int_type"
  | fractional => "int_from_float"
  | wholeUnreadable => "int_parsing"
  | wholeTooLarge => "int_parsing_size"
  | notFinite => "finite_number"
  | notNumber => "float_type"
  | numberUnreadable => "float_parsing"
  | notTruth => "bool_type"
  | truthUnreadable => "bool_parsing"
  | notAbove _ => "greater_than"
  | below _ => "greater_than_equal"
  | notAmong _ => "enum"
  | notList => "list_type"
  | notRecord _ => "model_type"
  | notPath => "path_type"
  | notMoment => "datetime_type"
  | momentUnreadable _ => "datetime_parsing"
  | dayUnreadable _ => "datetime_from_date_parsing"
  | rule _ => "value_error"

/-- Choices between quotes, the last one after `or`. -/
def choiceText : List String → String
  | [] => ""
  | [a] => "'" ++ a ++ "'"
  | [a, b] => "'" ++ a ++ "' or '" ++ b ++ "'"
  | a :: rest => "'" ++ a ++ "', " ++ choiceText rest

/-- The sentence for a cause. -/
def sentence : Cause → String
  | missing => "Field required"
  | extra => "Extra inputs are not permitted"
  | frozen => "Instance is frozen"
  | notText => "Input should be a valid string"
  | textEncoding => "Input should be a valid string, unable to parse raw data as a unicode string"
  | notWhole => "Input should be a valid integer"
  | fractional => "Input should be a valid integer, got a number with a fractional part"
  | wholeUnreadable => "Input should be a valid integer, unable to parse string as an integer"
  | wholeTooLarge => "Unable to parse input string as an integer, exceeded maximum size"
  | notFinite => "Input should be a finite number"
  | notNumber => "Input should be a valid number"
  | numberUnreadable => "Input should be a valid number, unable to parse string as a number"
  | notTruth => "Input should be a valid boolean"
  | truthUnreadable => "Input should be a valid boolean, unable to interpret input"
  | notAbove bound => s!"Input should be greater than {bound}"
  | below least => s!"Input should be greater than or equal to {least}"
  | notAmong choices => "Input should be " ++ choiceText choices
  | notList => "Input should be a valid list"
  | notRecord title => "Input should be a valid dictionary or instance of " ++ title
  | notPath => "Input is not a valid path for <class 'pathlib.Path'>"
  | notMoment => "Input should be a valid datetime"
  | momentUnreadable why => "Input should be a valid datetime, " ++ why
  | dayUnreadable why => "Input should be a valid datetime or date, " ++ why
  | rule sentence => "Value error, " ++ sentence

end Cause

/-- A value that is not accepted, and why. -/
structure Issue where
  place : List Step
  cause : Cause
deriving Repr, DecidableEq

/-- An issue with the value of a field. -/
def Issue.at (name : String) (cause : Cause) : Issue :=
  ⟨[.field name], cause⟩

/-- An issue of a value as an issue of what holds the value. -/
def Issue.under (step : Step) (issue : Issue) : Issue :=
  { issue with place := step :: issue.place }

/-- How many issues a record has, in a sentence. -/
def issueCount (title : String) (issues : List Issue) : String :=
  let noun := if issues.length = 1 then "error" else "errors"
  s!"{issues.length} validation {noun} for {title}"

end IngressBench
