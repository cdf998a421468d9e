import IngressBench.Document

/-!
A value as failures and command lines show it. Texts are quoted inside other values and plain on
their own; nothing is `None`; truth values are `True` and `False`.
-/
namespace IngressBench
namespace Document

/-- Texts with a separator between them. -/
def joined (parts : List String) : String :=
  ", ".intercalate parts

/-- The distance from universal time of a shown moment. -/
def shownOffset (seconds : Int) : String :=
  if seconds = 0 then "datetime.timezone.utc"
  else
    let days := seconds.fdiv 86400
    let rest := seconds.fmod 86400
    let parts := (if days = 0 then [] else [s!"days={days}"]) ++
      (if rest = 0 then [] else [s!"seconds={rest}"])
    "datetime.timezone(datetime.timedelta(" ++ joined parts ++ "))"

/-- A shown moment: zeros at the end of the time of day are left out. -/
def shownMoment (m : Moment) : String :=
  let seconds :=
    if m.microsecond ≠ 0 then [m.second, m.microsecond] else if m.second ≠ 0 then [m.second] else []
  let fields := [m.year, m.month, m.day, m.hour, m.minute] ++ seconds
  let offset := match m.offset with
    | some s => ["tzinfo=" ++ shownOffset s]
    | none => []
  "datetime.datetime(" ++ joined (fields.map toString ++ offset) ++ ")"

mutual

/-- A value inside another value. -/
def shown : Document → String
  | null => "None"
  | bool b => if b then "True" else "False"
  | number n => n.text
  | text s => Text.quoted s
  | bytes bs => Text.quotedBytes bs
  | date y m d => s!"datetime.date({y}, {m}, {d})"
  | moment m => shownMoment m
  | list items => "[" ++ joined (shownAll items) ++ "]"
  | pair a b => "(" ++ a.shown ++ ", " ++ b.shown ++ ")"
  | set items => if items.isEmpty then "set()" else "\x7b" ++ joined (shownAll items) ++ "\x7d"
  | map entries => "\x7b" ++ joined (shownEntries entries) ++ "\x7d"
  | listAgain => "[...]"
  | mapAgain => "\x7b...\x7d"

def shownAll : List Document → List String
  | [] => []
  | d :: rest => d.shown :: shownAll rest

def shownEntries : List (Document × Document) → List String
  | [] => []
  | (k, v) :: rest => (k.shown ++ ": " ++ v.shown) :: shownEntries rest

end

/-- A value on its own: a text is itself. -/
def plain : Document → String
  | text s => s
  | moment m => m.text
  | d => d.shown

end Document
end IngressBench
