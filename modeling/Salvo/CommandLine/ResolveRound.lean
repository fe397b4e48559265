import Salvo.CommandLine.Basic

/-! # Resolving a scenario from the command line

The program reads a scenario, resolves one round of it, and prints the history and the hits of
each side, or the report as JSON. -/

namespace Salvo.CommandLine.ResolveRound

def usage : List String :=
  [ "Usage: firepower [SCENARIO] [OPTIONS]",
    "",
    "Reads the scenario from SCENARIO, or stdin when it is '-' or absent.",
    "",
    "Options:",
    "  --seed N   Dice seed, overriding the scenario's (0 for entropy)",
    "  --json     Print the round report as JSON",
    "  --help     Show this help" ]

structure Options where
  path : Option String := none
  seed : Option Nat := none
  json : Bool := false
  deriving DecidableEq, Repr

/-- Reads the arguments from left to right; of several paths the last one counts. -/
def parseArguments (options : Options) : List String → Except Outcome Options
  | [] => .ok options
  | "--seed" :: arguments =>
    match _h : takeNatural "--seed" arguments with
    | .error outcome => .error outcome
    | .ok (seed, arguments) => parseArguments { options with seed := some seed } arguments
  | "--json" :: arguments => parseArguments { options with json := true } arguments
  | argument :: arguments =>
    if argument = "--help" ∨ argument = "-h" then .error { errors := textOfLines usage }
    else if argument.startsWith "--" then .error (unknownArgument usage argument)
    else parseArguments { options with path := some argument } arguments
termination_by arguments => arguments.length
decreasing_by
  all_goals simp_wf
  have := takeNatural_length _h
  omega

/-- The file to be read; without one the standard input is read. -/
def Options.file? (options : Options) : Option String :=
  options.path.filter (· ≠ "-")

/-- The lines about a side below the history. -/
def sideLine (report : RoundReport) (side : Side) : String :=
  side.name ++ " hits: " ++ toString (report.hitsBy side) ++ " (expected " ++
    fixedPlaces 2 (report.expectedHitsBy side) ++ ")"

/-- The dice of a round. The seed zero, like none, stands for dice that nobody chose. -/
def dice (seed : Option Nat) (chance : Generator) : Generator :=
  match seed with
  | none | some 0 => chance
  | some seed => .ofSeed (.ofNat seed)

def resolve (options : Options) (chance : Generator) (scenario : Scenario)
    (setup : BattleSetup) : Outcome :=
  let resolution := setup.resolve (dice (options.seed.or scenario.seed) chance) []
  match resolution.outcome with
  | .error error => .failure error.message
  | .ok report =>
    { output :=
        if options.json then textOfLines [report.toJson.pretty]
        else textOfLines (resolution.history.lines ++ Side.both.map (sideLine report)) }

/-- What the program leaves behind, given the contents of its input. -/
def run (options : Options) (contents : Except FileError String) (chance : Generator) : Outcome :=
  match loadDocument Scenario.parse (options.file?.getD "<stdin>") contents with
  | .error error => .failure (Scenario.errorMessage error)
  | .ok scenario =>
    match scenario.prepare with
    | .error error => .failure error.message
    | .ok setup => resolve options chance scenario setup

end Salvo.CommandLine.ResolveRound
