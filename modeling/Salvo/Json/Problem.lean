/-! # Problems with JSON texts

A text is read from left to right, and the first problem met is the one reported. -/

namespace Salvo.Json

inductive Problem where
  /-- The text is no JSON at this place. -/
  | malformed
  /-- A value of another shape or range than the one asked for. -/
  | mismatch
  | missingField (name : String)
  | duplicateField (name : String)
  | unknownVariant (name : String) (expected : List String)
  /-- A value that has the right shape but is not acceptable. -/
  | rejected (reason : String)
  deriving DecidableEq, Repr

def quoted (name : String) : String := "`" ++ name ++ "`"

/-- The names that were possible in place of an unknown one. -/
def alternatives : List String → String
  | [] => "nothing"
  | [name] => quoted name
  | [name, other] => quoted name ++ " or " ++ quoted other
  | names => "one of " ++ ", ".intercalate (names.map quoted)

namespace Problem

/-- The message of a problem that has one of its own. -/
def message? : Problem → Option String
  | malformed | mismatch => none
  | missingField name => some ("missing field " ++ quoted name)
  | duplicateField name => some ("duplicate field " ++ quoted name)
  | unknownVariant name expected =>
    some ("unknown variant " ++ quoted name ++ ", expected " ++ alternatives expected)
  | rejected reason => some reason

def message (problem : Problem) : String :=
  match problem.message?, problem with
  | some message, _ => message
  | none, .malformed => "malformed text"
  | none, _ => "value of an unexpected type"

end Problem

end Salvo.Json
