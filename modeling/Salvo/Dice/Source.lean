import Salvo.Dice.Generator

/-! # Sources of dice

A source answers requests for die values, counted from zero, and moves to a new state. A failed
request may change the state too. Three sources are provided:

* `Script` deals prepared values in order and checks each batch against the sides of the die;
* `Generator` draws pseudo-random values from a seed;
* `Batches` answers each request with its next batch, whatever was asked for. -/

namespace Salvo

/-- What dice are rolled for. -/
inductive DicePurpose where
  | combat
  | antiAircraft
  | airBattle
  deriving DecidableEq, Repr

inductive DiceError where
  | invalidSides (sides : Int)
  | exhausted (wanted remaining : Nat)
  | outOfRange (value sides : Int)
  deriving DecidableEq, Repr

def DiceError.message : DiceError → String
  | invalidSides sides => "dice must have at least one side, got " ++ toString sides
  | exhausted wanted remaining =>
    "scripted dice exhausted: wanted " ++ toString wanted ++ ", " ++ toString remaining ++ " left"
  | outOfRange value sides =>
    "scripted die value " ++ toString value ++ " is outside [0, " ++ toString sides ++ ")"

/-- Who rolls, and for what. -/
structure DiceLabel where
  player : String
  purpose : DicePurpose
  caption : String
  deriving DecidableEq, Repr

structure DiceRequest where
  sides : Int
  count : Nat
  label : DiceLabel
  deriving DecidableEq, Repr

class DiceSource (σ : Type) where
  request : DiceRequest → σ → Except DiceError (List Int) × σ

/-- Whether a value is a face of a die, counted from zero. -/
def isFace (sides value : Int) : Bool := 0 ≤ value && value < sides

structure Script where
  values : List Int
  /-- How many values have been handed out. -/
  consumed : Nat := 0
  deriving DecidableEq, Repr

namespace Script

/-- Deals the next `count` values. Values that are no faces are removed but not handed out. -/
def deal (sides : Int) (count : Nat) (script : Script) : Except DiceError (List Int) × Script :=
  if sides < 1 then (.error (.invalidSides sides), script)
  else if script.values.length < count then
    (.error (.exhausted count script.values.length), script)
  else
    let dealt := script.values.take count
    let rest := script.values.drop count
    match dealt.find? (!isFace sides ·) with
    | some value => (.error (.outOfRange value sides), { script with values := rest })
    | none => (.ok dealt, { values := rest, consumed := script.consumed + count })

instance : DiceSource Script where
  request asked := deal asked.sides asked.count

end Script

namespace Generator

def deal (sides : Int) (count : Nat) (generator : Generator) :
    Except DiceError (List Int) × Generator :=
  if sides < 1 then (.error (.invalidSides sides), generator)
  else
    let (values, generator) := generator.draws sides.toNat count
    (.ok (values.map Int.ofNat), generator)

instance : DiceSource Generator where
  request asked := deal asked.sides asked.count

end Generator

structure Batches where
  batches : List (List Int)
  deriving DecidableEq, Repr

namespace Batches

def deal : Batches → Except DiceError (List Int) × Batches
  | ⟨[]⟩ => (.ok [], ⟨[]⟩)
  | ⟨batch :: rest⟩ => (.ok batch, ⟨rest⟩)

instance : DiceSource Batches where
  request _ := deal

end Batches

end Salvo
