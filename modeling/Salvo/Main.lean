import Salvo.CommandLine.ResolveRound
import Salvo.CommandLine.Simulate

/-! # The programs

One executable serves as both programs: called by a name that ends in `simulate` it runs
simulations, and by any other name it resolves a round. -/

namespace Salvo.Programs

open CommandLine

def fileError : IO.Error → FileError
  | .noFileOrDirectory _ _ _ => .notFound
  | .permissionDenied _ _ _ => .permissionDenied
  | .inappropriateType _ code _ => if code = 21 then .isDirectory else .notDirectory
  | .invalidArgument _ _ "name too long" => .nameTooLong
  | error => .failed (toString error)

/-- The text of some bytes, or of the error that kept them from being read. -/
def decodeContents : Except IO.Error ByteArray → Except FileError String
  | .error error => .error (fileError error)
  | .ok bytes =>
    match String.fromUTF8? bytes with
    | some text => .ok text
    | none => .error .notText

def readFileContents (path : String) : IO (Except FileError String) := do
  return decodeContents (← (IO.FS.readBinFile path).toBaseIO)

def readInputContents : IO (Except FileError String) := do
  let input ← IO.getStdin
  return decodeContents (← input.readBinToEnd.toBaseIO)

/-- A seed that nobody chose. -/
def chanceSeed : IO Nat := do
  let bytes ← IO.getRandomBytes 8
  return bytes.toList.foldl (fun seed byte => seed * 256 + byte.toNat) 0

def leave (outcome : Outcome) : IO UInt32 := do
  IO.print outcome.output
  IO.eprint outcome.errors
  return .ofNat outcome.exitCode

def resolveRoundMain (arguments : List String) : IO UInt32 := do
  match ResolveRound.parseArguments {} arguments with
  | .error outcome => leave outcome
  | .ok options =>
    let contents ←
      match options.file? with
      | some path => readFileContents path
      | none => readInputContents
    leave (ResolveRound.run options contents (.ofSeed (.ofNat (← chanceSeed))))

def simulateMain (arguments : List String) : IO UInt32 := do
  let job : Except Outcome (Simulate.Options × String) := do
    let options ← Simulate.parseArguments {} arguments
    return (options, ← options.file)
  match job with
  | .error outcome => leave outcome
  | .ok (options, path) =>
    match Simulate.prepare options path (← readFileContents path) with
    | .error outcome => leave outcome
    | .ok job =>
      let chance ← chanceSeed
      let start ← IO.monoMsNow
      let result ← IO.lazyPure fun _ => job.run chance
      let stop ← IO.monoMsNow
      leave (job.finish (Float.ofNat (stop - start) / 1000.0) result)

end Salvo.Programs

def main (arguments : List String) : IO UInt32 := do
  let program := toString (← IO.appPath)
  if program.endsWith "simulate" then Salvo.Programs.simulateMain arguments
  else Salvo.Programs.resolveRoundMain arguments
