import Salvo.Number.Shortest

/-! # JSON values and how they are written

Values are written over several lines, each member and element on its own line and two blanks
further in than its container. Empty containers stay on one line. -/

namespace Salvo.Json

inductive Value where
  | null
  | flag (value : Bool)
  | whole (value : Int)
  | real (value : Float)
  | text (value : String)
  | list (values : List Value)
  | object (members : List (String × Value))
  deriving Inhabited

namespace Value

def ofOption {α : Type} (write : α → Value) : Option α → Value
  | some value => write value
  | none => null

def texts (values : List String) : Value := list (values.map text)

def hexDigit (n : Nat) : Char := "0123456789abcdef".toList.getD n '0'

/-- A character inside quotes. -/
def escape (c : Char) : List Char :=
  if c = '"' then ['\\', '"']
  else if c = '\\' then ['\\', '\\']
  else if c = '\n' then ['\\', 'n']
  else if c = '\r' then ['\\', 'r']
  else if c = '\t' then ['\\', 't']
  else if c.toNat = 8 then ['\\', 'b']
  else if c.toNat = 12 then ['\\', 'f']
  else if c.toNat < 32 then
    ['\\', 'u', '0', '0', hexDigit (c.toNat / 16), hexDigit (c.toNat % 16)]
  else [c]

def quote (text : String) : String := "\"" ++ String.ofList (text.toList.flatMap escape) ++ "\""

/-- The beginning of a new line at a depth. -/
def newLine (depth : Nat) : String := "\n".pushn ' ' (2 * depth)

/-- Items between brackets, each on a line of its own. -/
def bracketed (opening closing : String) (depth : Nat) (items : List String) : String :=
  if items.isEmpty then opening ++ closing
  else
    opening ++ newLine (depth + 1) ++ ("," ++ newLine (depth + 1)).intercalate items ++
      newLine depth ++ closing

mutual

def render (depth : Nat) : Value → String
  | null => "null"
  | flag value => if value then "true" else "false"
  | whole value => toString value
  | real value => (shortestText? value).getD "null"
  | text value => quote value
  | list values => bracketed "[" "]" depth (renderElements (depth + 1) values)
  | object members => bracketed "\x7b" "\x7d" depth (renderMembers (depth + 1) members)

def renderElements (depth : Nat) : List Value → List String
  | [] => []
  | value :: values => render depth value :: renderElements depth values

def renderMembers (depth : Nat) : List (String × Value) → List String
  | [] => []
  | (name, value) :: members =>
    (quote name ++ ": " ++ render depth value) :: renderMembers depth members

end

/-- The whole value as text. -/
def pretty (value : Value) : String := render 0 value

end Value

end Salvo.Json
