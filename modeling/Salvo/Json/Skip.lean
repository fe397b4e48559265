import Salvo.Json.Scanner

/-! # Passing over JSON values

A value of no interest is passed over without building it, however deep it is. The lists and
objects that are open are kept on a stack, and every step takes a character or more. -/

namespace Salvo.Json

inductive Bracket where
  | list
  | object
  deriving DecidableEq, Repr

/-- What is due next while a value is passed over. -/
inductive Due where
  | value
  /-- The first value of a list, or its end. -/
  | valueOrEnd
  | key
  /-- The first key of an object, or its end. -/
  | keyOrEnd
  /-- What follows a value. -/
  | separator
  deriving DecidableEq, Repr

def Due.afterComma : Bracket → Due
  | .list => .value
  | .object => .key

/-- A place within a value that is passed over. -/
structure SkipPoint where
  due : Due
  /-- The brackets that are open, the innermost first. -/
  opened : List Bracket
  rest : List Char
  deriving DecidableEq, Repr

/-- Passes over a value that is neither a list nor an object. -/
def skipScalar : List Char → Except Problem (List Char)
  | '"' :: cs => skipText cs
  | 't' :: cs => scanWord ['r', 'u', 'e'] cs
  | 'f' :: cs => scanWord ['a', 'l', 's', 'e'] cs
  | 'n' :: cs => scanWord ['u', 'l', 'l'] cs
  | cs => (scanNumeral cs).map (·.2)

/-- Passes over a key and its colon. -/
def skipKey : List Char → Except Problem (List Char)
  | '"' :: cs => do
    let cs ← skipText cs
    match skipBlanks cs with
    | ':' :: cs => return cs
    | _ => throw .malformed
  | _ => .error .malformed

namespace SkipPoint

/-- Passes over a scalar, or over the opening bracket of a list or object. -/
def skipOpening (opened : List Bracket) (cs : List Char) : Except Problem SkipPoint :=
  match cs with
  | '[' :: cs => .ok ⟨.valueOrEnd, .list :: opened, cs⟩
  | '{' :: cs => .ok ⟨.keyOrEnd, .object :: opened, cs⟩
  | cs => (skipScalar cs).map (⟨.separator, opened, ·⟩)

def skipMember (opened : List Bracket) (cs : List Char) : Except Problem SkipPoint :=
  (skipKey cs).map (⟨.value, opened, ·⟩)

/-- The place behind a closing bracket. -/
def close (opened : List Bracket) (cs : List Char) : SkipPoint := ⟨.separator, opened.tail, cs⟩

def step (point : SkipPoint) : Except Problem SkipPoint :=
  let opened := point.opened
  match point.due, skipBlanks point.rest with
  | .valueOrEnd, ']' :: cs => .ok (close opened cs)
  | .value, cs | .valueOrEnd, cs => skipOpening opened cs
  | .keyOrEnd, '}' :: cs => .ok (close opened cs)
  | .key, cs | .keyOrEnd, cs => skipMember opened cs
  | .separator, cs =>
    match opened, cs with
    | bracket :: _, ',' :: cs => .ok ⟨.afterComma bracket, opened, cs⟩
    | .list :: _, ']' :: cs | .object :: _, '}' :: cs => .ok (close opened cs)
    | _, _ => .error .malformed

/-- Whether the value has been passed over. -/
def isDone (point : SkipPoint) : Bool := point.due = .separator && point.opened.isEmpty

/-- Steps to the end of the value. -/
def finishWithin (point : SkipPoint) : List Char → Except Problem (List Char)
  | [] => if point.isDone then .ok point.rest else .error .malformed
  | _ :: fuel => if point.isDone then .ok point.rest else do (← point.step).finishWithin fuel

end SkipPoint

/-- Passes over one value. -/
def skipValue (cs : List Char) : Except Problem (List Char) :=
  SkipPoint.finishWithin ⟨.value, [], cs⟩ cs

end Salvo.Json
