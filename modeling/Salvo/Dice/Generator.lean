import Salvo.Number.Arithmetic

/-! # Pseudo-random dice

The generator is xoshiro256++ over four 64-bit words. A seed is spread over the words by eight
steps of a PCG32 generator; should all words come out zero, by SplitMix64 from zero.

A die of `n` sides is drawn from 32 bits at a time: the product of the bits and `n` gives the face
in its high half, and the low half decides whether the draw is fair or repeated. -/

namespace Salvo

structure Generator where
  s0 : UInt64
  s1 : UInt64
  s2 : UInt64
  s3 : UInt64
  deriving DecidableEq, Repr

namespace Generator

def rotateLeft (x : UInt64) (n : UInt64) : UInt64 := (x <<< n) ||| (x >>> (64 - n))

def rotateRight32 (x : UInt32) (n : UInt32) : UInt32 := (x >>> n) ||| (x <<< ((32 - n) % 32))

/-- One step of the linear generator that spreads a seed. -/
def spreadStep (x : UInt64) : UInt64 := x * 6364136223846793005 + 11634580027462260723

/-- The 32 bits that a state of the spreading generator gives out. -/
def spreadOutput (x : UInt64) : UInt32 :=
  rotateRight32 (((x >>> 18) ^^^ x) >>> 27).toUInt32 (x >>> 59).toUInt32

/-- The next word spread from `x`, low half first, and the state after it. -/
def spreadWord (x : UInt64) : UInt64 × UInt64 :=
  let low := spreadStep x
  let high := spreadStep low
  ((spreadOutput high).toUInt64 <<< 32 ||| (spreadOutput low).toUInt64, high)

/-- The state that SplitMix64 fills from zero. -/
def fallback : Generator :=
  let mix (x : UInt64) : UInt64 :=
    let x := (x ^^^ (x >>> 30)) * 0xbf58476d1ce4e5b9
    let x := (x ^^^ (x >>> 27)) * 0x94d049bb133111eb
    x ^^^ (x >>> 31)
  let step : UInt64 := 0x9e3779b97f4a7c15
  ⟨mix step, mix (2 * step), mix (3 * step), mix (4 * step)⟩

def ofSeed (seed : UInt64) : Generator :=
  let (s0, x) := spreadWord seed
  let (s1, x) := spreadWord x
  let (s2, x) := spreadWord x
  let (s3, _) := spreadWord x
  if s0 = 0 ∧ s1 = 0 ∧ s2 = 0 ∧ s3 = 0 then fallback else ⟨s0, s1, s2, s3⟩

/-- The next 64 bits. -/
def next (g : Generator) : UInt64 × Generator :=
  let result := rotateLeft (g.s0 + g.s3) 23 + g.s0
  let t := g.s1 <<< 17
  let s2 := g.s2 ^^^ g.s0
  let s3 := g.s3 ^^^ g.s1
  let s1 := g.s1 ^^^ s2
  let s0 := g.s0 ^^^ s3
  (result, ⟨s0, s1, s2 ^^^ t, rotateLeft s3 45⟩)

/-- The next 32 bits. -/
def nextWord (g : Generator) : Nat × Generator :=
  let (word, g) := g.next
  ((word >>> 32).toNat, g)

/-- The greatest low half with which a draw for `sides` sides is fair. -/
def fairZone (sides : Nat) : Nat :=
  let shift := 31 - sides.log2
  ((sides <<< shift) + (2 ^ 32 - 1)) % 2 ^ 32

/-- Whether a word gives a fair face of a die of so many sides. -/
def IsFair (sides word : Nat) : Prop := word * sides % 2 ^ 32 ≤ fairZone sides

instance (sides word : Nat) : Decidable (IsFair sides word) := inferInstanceAs (Decidable (_ ≤ _))

/-- The face that a word gives. -/
def faceOf (sides word : Nat) : Nat := word * sides / 2 ^ 32

/-- The number of states of the generator. After so many unfair words there is no fair one. -/
def patience : Nat := 2 ^ 256

/-- One face of a die, repeating unfair draws; when patience ends the last draw counts. -/
def drawWithin : Nat → Nat → Generator → Nat × Generator
  | 0, sides, g =>
    let (word, g) := g.nextWord
    (faceOf sides word, g)
  | patience + 1, sides, g =>
    let (word, g) := g.nextWord
    if IsFair sides word then (faceOf sides word, g) else drawWithin patience sides g

def draw (sides : Nat) (g : Generator) : Nat × Generator := drawWithin patience sides g

/-- `count` faces in the order in which they are drawn. -/
def draws (g : Generator) (sides : Nat) : Nat → List Nat × Generator
  | 0 => ([], g)
  | count + 1 =>
    let (value, g) := g.draw sides
    let (values, g) := g.draws sides count
    (value :: values, g)

theorem length_draws (g : Generator) (sides count : Nat) :
    (g.draws sides count).1.length = count := by
  induction count generalizing g with
  | zero => rfl
  | succ count ih => simp [draws, ih]

end Generator

end Salvo
