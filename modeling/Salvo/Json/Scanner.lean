import Salvo.Json.Problem

/-! # Words, texts and numbers in JSON

Scanners take the characters of a text and give back what they found together with the characters
that are left. A loop that does not take a fixed number of characters at a time has fuel, of which
every turn uses up one character; the text itself is enough of it. A number keeps its written form
(`Numeral`) until its value is needed, because a value that is passed over may be of any size. -/

namespace Salvo.Json

def isBlank (c : Char) : Bool := c = ' ' || c = '\n' || c = '\t' || c = '\r'

def skipBlanks (cs : List Char) : List Char := cs.dropWhile isBlank

/-- Takes the characters of a word off the front. -/
def scanWord : List Char → List Char → Except Problem (List Char)
  | [], cs => .ok cs
  | w :: word, c :: cs => if w = c then scanWord word cs else .error .malformed
  | _ :: _, [] => .error .malformed

/-! ## Texts -/

def hexDigit? (c : Char) : Option Nat :=
  if '0' ≤ c ∧ c ≤ '9' then some (c.toNat - 48)
  else if 'a' ≤ c ∧ c ≤ 'f' then some (c.toNat - 87)
  else if 'A' ≤ c ∧ c ≤ 'F' then some (c.toNat - 55)
  else none

/-- The number of four hexadecimal digits. -/
def scanHex4 : List Char → Except Problem (Nat × List Char)
  | a :: b :: c :: d :: cs =>
    match hexDigit? a, hexDigit? b, hexDigit? c, hexDigit? d with
    | some a, some b, some c, some d => .ok (((a * 16 + b) * 16 + c) * 16 + d, cs)
    | _, _, _, _ => .error .malformed
  | _ => .error .malformed

def simpleEscape? : Char → Option Char
  | '"' => some '"'
  | '\\' => some '\\'
  | '/' => some '/'
  | 'b' => some (Char.ofNat 8)
  | 'f' => some (Char.ofNat 12)
  | 'n' => some '\n'
  | 'r' => some '\r'
  | 't' => some '\t'
  | _ => none

def isHighSurrogate (unit : Nat) : Bool := 0xd800 ≤ unit && unit ≤ 0xdbff

def isLowSurrogate (unit : Nat) : Bool := 0xdc00 ≤ unit && unit ≤ 0xdfff

/-- The character of an escape of code units. A high surrogate needs a low one behind it. -/
def scanUnicode (cs : List Char) : Except Problem (Char × List Char) := do
  let (unit, cs) ← scanHex4 cs
  if isLowSurrogate unit then throw .malformed
  if !isHighSurrogate unit then return (Char.ofNat unit, cs)
  let cs ← scanWord ['\\', 'u'] cs
  let (low, cs) ← scanHex4 cs
  if !isLowSurrogate low then throw .malformed
  return (Char.ofNat (0x10000 + (unit - 0xd800) * 0x400 + (low - 0xdc00)), cs)

/-- The character of an escape, after its backslash. -/
def scanEscape : List Char → Except Problem (Char × List Char)
  | 'u' :: cs => scanUnicode cs
  | c :: cs =>
    match simpleEscape? c with
    | some escaped => .ok (escaped, cs)
    | none => .error .malformed
  | [] => .error .malformed

/-- Passes over an escape; its code units need not be those of a character. -/
def skipEscape : List Char → Except Problem (List Char)
  | 'u' :: cs => (scanHex4 cs).map (·.2)
  | c :: cs => if (simpleEscape? c).isSome then .ok cs else .error .malformed
  | [] => .error .malformed

def isControl (c : Char) : Bool := c.toNat < 32

/-- The characters up to the closing quote. -/
def scanTextWithin : List Char → List Char → Except Problem (List Char × List Char)
  | [], _ | _, [] => .error .malformed
  | _ :: fuel, c :: cs =>
    if c = '"' then .ok ([], cs)
    else if isControl c then .error .malformed
    else do
      let (c, cs) ← if c = '\\' then scanEscape cs else .ok (c, cs)
      let (text, cs) ← scanTextWithin fuel cs
      return (c :: text, cs)

/-- The text whose opening quote has been taken. -/
def scanText (cs : List Char) : Except Problem (String × List Char) := do
  let (text, cs) ← scanTextWithin cs cs
  return (String.ofList text, cs)

def skipTextWithin : List Char → List Char → Except Problem (List Char)
  | [], _ | _, [] => .error .malformed
  | _ :: fuel, c :: cs =>
    if c = '"' then .ok cs
    else if isControl c then .error .malformed
    else do
      let cs ← if c = '\\' then skipEscape cs else .ok cs
      skipTextWithin fuel cs

/-- Passes over a text whose opening quote has been taken. -/
def skipText (cs : List Char) : Except Problem (List Char) := skipTextWithin cs cs

/-! ## Numbers -/

/-- A number as it is written. -/
structure Numeral where
  negative : Bool
  whole : List Nat
  fraction : Option (List Nat) := none
  /-- Whether the exponent is negative, and its digits. -/
  exponent : Option (Bool × List Nat) := none
  deriving DecidableEq, Repr

def digitValue (c : Char) : Nat := c.toNat - 48

/-- One digit or more. -/
def scanDigits (cs : List Char) : Except Problem (List Nat × List Char) :=
  match cs.takeWhile Char.isDigit with
  | [] => .error .malformed
  | digits => .ok (digits.map digitValue, cs.dropWhile Char.isDigit)

/-- The digits in front of the point. A zero stands alone. -/
def scanWhole (cs : List Char) : Except Problem (List Nat × List Char) := do
  let (digits, cs) ← scanDigits cs
  if digits.head? = some 0 ∧ 1 < digits.length then throw .malformed
  return (digits, cs)

def scanFraction : List Char → Except Problem (Option (List Nat) × List Char)
  | '.' :: cs => do
    let (digits, cs) ← scanDigits cs
    return (some digits, cs)
  | cs => .ok (none, cs)

/-- A sign in front of an exponent, and whether it is a minus. -/
def scanSign : List Char → Bool × List Char
  | '-' :: cs => (true, cs)
  | '+' :: cs => (false, cs)
  | cs => (false, cs)

def scanExponent : List Char → Except Problem (Option (Bool × List Nat) × List Char)
  | c :: cs =>
    if c = 'e' ∨ c = 'E' then do
      let (negative, cs) := scanSign cs
      let (digits, cs) ← scanDigits cs
      return (some (negative, digits), cs)
    else .ok (none, c :: cs)
  | [] => .ok (none, [])

def scanNumeral (cs : List Char) : Except Problem (Numeral × List Char) := do
  let (negative, cs) :=
    match cs with
    | '-' :: cs => (true, cs)
    | cs => (false, cs)
  let (whole, cs) ← scanWhole cs
  let (fraction, cs) ← scanFraction cs
  let (exponent, cs) ← scanExponent cs
  return ({ negative, whole, fraction, exponent }, cs)

/-- Whether a number begins here. -/
def startsNumber (c : Char) : Bool := c = '-' || c.isDigit

end Salvo.Json
