import Salvo.Json.Number
import Salvo.Json.Skip

/-! # Reading JSON values

A reader takes one value of a wanted type off the front of a text. Records are read as objects, or
as lists of their fields in order; their fields are given by name, with what to do when a field is
absent. All readers stop at the first problem from left to right. Loops have the text that is left
when they begin as their fuel. -/

namespace Salvo.Json

abbrev Reader := StateT (List Char) (Except Problem)

namespace Reader

variable {α β : Type}

/-- Reads with a scanner. -/
def ofScanner (scan : List Char → Except Problem (α × List Char)) : Reader α := scan

def ofSkipper (skip : List Char → Except Problem (List Char)) : Reader Unit := fun cs =>
  (skip cs).map (((), ·))

/-- Passes over blanks and looks at the next character. -/
def peek : Reader Char := do
  modify skipBlanks
  match ← get with
  | c :: _ => return c
  | [] => throw .malformed

/-- Drops the character that was looked at. -/
def advance : Reader Unit := modify List.tail

def word (text : String) : Reader Unit := ofSkipper (scanWord text.toList)

/-- Fails on a value of another type than the wanted one. A scalar has to be well formed for
that. -/
def mismatched : Reader α := do
  let c ← peek
  if c = 'n' then word "null"
  else if c = 't' then word "true"
  else if c = 'f' then word "false"
  else if c = '"' then
    advance
    let _ ← ofScanner scanText
  else if startsNumber c then
    let _ ← ofScanner scanNumber
  else if c ≠ '[' ∧ c ≠ '{' then throw .malformed
  throw .mismatch

/-! ## Scalars -/

def flag : Reader Bool := do
  let c ← peek
  if c = 't' then
    word "true"
    return true
  else if c = 'f' then
    word "false"
    return false
  else mismatched

def text : Reader String := do
  let c ← peek
  if c = '"' then
    advance
    ofScanner scanText
  else mismatched

def number : Reader Number := do
  let c ← peek
  if startsNumber c then ofScanner scanNumber else mismatched

/-- A whole number of at least `least` and at most `most`. -/
def wholeIn (least most : Int) : Reader Int := do
  let value : Int ←
    match ← number with
    | .natural value => pure (value : Int)
    | .negative value => pure value
    | .real _ => throw .mismatch
  if least ≤ value ∧ value ≤ most then return value else throw .mismatch

/-- A natural number of so many bits. -/
def natural (bits : Nat) : Reader Nat := do
  return (← wholeIn 0 (2 ^ bits - 1)).toNat

def real : Reader Float := do
  match ← number with
  | .natural value => return Float.ofNat value
  | .negative value => return Float.ofInt value
  | .real value => return value

/-- A value that may be `null`. -/
def nullable (reader : Reader α) : Reader (Option α) := do
  if (← peek) = 'n' then
    word "null"
    return none
  else return some (← reader)

/-! ## Lists and objects -/

/-- Whether a list goes on; passes over the comma in front of an element that is not the first. -/
def nextElement (isFirst : Bool) : Reader Bool := do
  let c ← peek
  if c = ']' then return false
  if isFirst then return true
  if c ≠ ',' then throw .malformed
  advance
  if (← peek) = ']' then throw .malformed
  return true

/-- Passes over the end of a list, when nothing else may follow. -/
def endList : Reader Unit := do
  if (← peek) ≠ ']' then throw .malformed
  advance

def elements (reader : Reader α) : List Char → Bool → Reader (List α)
  | [], _ => throw .malformed
  | _ :: fuel, isFirst => do
    if ← nextElement isFirst then
      let value ← reader
      let values ← elements reader fuel false
      return value :: values
    else return []

def list (reader : Reader α) : Reader (List α) := do
  if (← peek) ≠ '[' then mismatched
  advance
  let values ← elements reader (← get) true
  endList
  return values

/-- The next key of an object, if the object goes on. -/
def nextKey (isFirst : Bool) : Reader (Option String) := do
  let c ← peek
  if c = '}' then
    advance
    return none
  if !isFirst then
    if c ≠ ',' then throw .malformed
    advance
  if (← peek) ≠ '"' then throw .malformed
  advance
  return some (← ofScanner scanText)

/-- Passes over the colon behind a key. -/
def colon : Reader Unit := do
  if (← peek) ≠ ':' then throw .malformed
  advance

def entries (reader : Reader β) (add : α → String → β → α) : List Char → Bool → α → Reader α
  | [], _, _ => throw .malformed
  | _ :: fuel, isFirst, table => do
    match ← nextKey isFirst with
    | none => return table
    | some key =>
      colon
      let value ← reader
      entries reader add fuel false (add table key value)

/-- Reads an object with any keys, adding its members to a table from left to right. -/
def table (reader : Reader β) (add : α → String → β → α) (empty : α) : Reader α := do
  if (← peek) ≠ '{' then mismatched
  advance
  entries reader add (← get) true empty

/-! ## Named alternatives -/

def alternative (variants : List (String × α)) (name : String) : Reader α :=
  match variants.lookup name with
  | some value => pure value
  | none => throw (.unknownVariant name (variants.map (·.1)))

/-- One of several names, alone or as the only key of an object with the value `null`. -/
def choice (variants : List (String × α)) : Reader α := do
  let c ← peek
  if c = '"' then alternative variants (← text)
  else if c = '{' then
    advance
    if (← peek) ≠ '"' then throw .malformed
    let value ← alternative variants (← text)
    colon
    if (← peek) ≠ 'n' then mismatched
    word "null"
    if (← peek) ≠ '}' then throw .malformed
    advance
    return value
  else throw .malformed

/-! ## Records -/

/-- A field of a record: its name, and how its value is read into the record. -/
structure Field (α : Type) where
  name : String
  isRequired : Bool
  read : Reader (α → α)

namespace Field

def required (name : String) (reader : Reader β) (set : α → β → α) : Field α where
  name := name
  isRequired := true
  read := do
    let value ← reader
    return fun record => set record value

/-- A field that keeps its default when it is absent. -/
def optional (name : String) (reader : Reader β) (set : α → β → α) : Field α :=
  { required name reader set with isRequired := false }

end Field

/-- Reads the members of an object into a record. `seen` are the names of the fields met so far;
other members are passed over. -/
def members (fields : List (Field α)) : List Char → Bool → List String → α → Reader α
  | [], _, _, _ => throw .malformed
  | _ :: fuel, isFirst, seen, record => do
    match ← nextKey isFirst with
    | none =>
      match fields.find? fun field => field.isRequired && !seen.contains field.name with
      | some field => throw (.missingField field.name)
      | none => return record
    | some name =>
      match fields.find? (·.name == name) with
      | none =>
        colon
        ofSkipper skipValue
        members fields fuel false seen record
      | some field =>
        if seen.contains name then throw (.duplicateField name)
        colon
        let update ← field.read
        members fields fuel false (name :: seen) (update record)

/-- Reads list elements as the fields of a record, in order. -/
def positions : List (Field α) → Bool → α → Reader α
  | [], _, record => return record
  | field :: fields, isFirst, record => do
    if ← nextElement isFirst then
      let update ← field.read
      positions fields false (update record)
    else if field.isRequired then throw .mismatch
    else positions fields isFirst record

/-- Reads a record from its defaults. -/
def record (fields : List (Field α)) (defaults : α) : Reader α := do
  let c ← peek
  if c = '{' then
    advance
    members fields (← get) true [] defaults
  else if c = '[' then
    advance
    let value ← positions fields true defaults
    endList
    return value
  else mismatched

/-- Reads a value and turns it into another, if it is acceptable. -/
def accept (reader : Reader α) (convert : α → Except String β) : Reader β := do
  match convert (← reader) with
  | .ok value => return value
  | .error reason => throw (.rejected reason)

/-- Reads a whole text as one value. -/
def parse (reader : Reader α) (text : String) : Except Problem α :=
  match reader text.toList with
  | .error problem => .error problem
  | .ok (value, rest) => if (skipBlanks rest).isEmpty then .ok value else .error .malformed

end Reader

end Salvo.Json
