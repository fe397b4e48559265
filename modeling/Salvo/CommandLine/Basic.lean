import Salvo.Document.Writing

/-! # Command lines

What the programs have in common: options that take a number, the input that they read, and what
they leave behind. -/

namespace Salvo.CommandLine

/-- What a program prints, and its exit code. -/
structure Outcome where
  exitCode : Nat := 0
  output : String := ""
  errors : String := ""
  deriving DecidableEq, Repr, Inhabited

def textOfLines (lines : List String) : String := String.join (lines.map (· ++ "\n"))

namespace Outcome

def failure (message : String) : Outcome :=
  { exitCode := 1, errors := textOfLines ["error: " ++ message] }

end Outcome

def decimalDigit? (c : Char) : Option Nat :=
  if c.isDigit then some (c.toNat - 48) else none

/-- A natural number of so many bits. A plus sign may stand in front, and nothing else beside
digits. -/
def natural? (bits : Nat) (text : String) : Option Nat := do
  let digits :=
    match text.toList with
    | '+' :: digits => digits
    | digits => digits
  if digits.isEmpty then none
  let digits ← digits.mapM decimalDigit?
  let value := digits.foldl (fun value digit => value * 10 + digit) 0
  if value < 2 ^ bits then some value else none

/-- The outcome of an argument that is no option of the program. -/
def unknownArgument (usage : List String) (argument : String) : Outcome :=
  { exitCode := 1, errors := textOfLines (("Unknown argument: " ++ argument) :: usage) }

def invalidValue (flag : String) : Outcome := .failure ("invalid " ++ flag ++ " value")

/-- The number behind an option, and the arguments after it. -/
def takeNatural (flag : String) : List String → Except Outcome (Nat × List String)
  | [] => .error (invalidValue flag)
  | argument :: arguments =>
    match natural? 64 argument with
    | some value => .ok (value, arguments)
    | none => .error (invalidValue flag)

theorem takeNatural_length {flag : String} {arguments rest : List String} {value : Nat}
    (h : takeNatural flag arguments = .ok (value, rest)) : rest.length < arguments.length := by
  unfold takeNatural at h
  split at h
  · cases h
  · split at h <;> cases h
    simp

end Salvo.CommandLine
