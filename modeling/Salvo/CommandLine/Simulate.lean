import Salvo.CommandLine.Basic

/-! # Simulating a scenario from the command line

The program resolves a scenario many times and prints how many hits each side scored, as text or
as JSON. -/

namespace Salvo.CommandLine.Simulate

def usage : List String :=
  [ "Usage: simulate SCENARIO [OPTIONS]",
    "",
    "Options:",
    "  --rounds N    Number of rounds to resolve (default: 1000)",
    "  --threads N   Number of parallel threads (default: 4)",
    "  --seed N      Random seed, 0 for entropy (default: scenario seed or 0)",
    "  --json        Print the summary as JSON",
    "  --quiet       Suppress progress output",
    "  --help        Show this help" ]

structure Options where
  path : Option String := none
  rounds : Nat := 1000
  /-- Shown, but without effect on the result. -/
  threads : Nat := 4
  seed : Option Nat := none
  json : Bool := false
  quiet : Bool := false
  deriving DecidableEq, Repr

/-- Reads the arguments from left to right; of several paths the last one counts. -/
def parseArguments (options : Options) : List String → Except Outcome Options
  | [] => .ok options
  | "--rounds" :: arguments =>
    match _h : takeNatural "--rounds" arguments with
    | .error outcome => .error outcome
    | .ok (rounds, arguments) => parseArguments { options with rounds } arguments
  | "--threads" :: arguments =>
    match _h : takeNatural "--threads" arguments with
    | .error outcome => .error outcome
    | .ok (threads, arguments) => parseArguments { options with threads } arguments
  | "--seed" :: arguments =>
    match _h : takeNatural "--seed" arguments with
    | .error outcome => .error outcome
    | .ok (seed, arguments) => parseArguments { options with seed := some seed } arguments
  | "--json" :: arguments => parseArguments { options with json := true } arguments
  | "--quiet" :: arguments => parseArguments { options with quiet := true } arguments
  | argument :: arguments =>
    if argument = "--help" ∨ argument = "-h" then .error { errors := textOfLines usage }
    else if argument.startsWith "--" then .error (unknownArgument usage argument)
    else parseArguments { options with path := some argument } arguments
termination_by arguments => arguments.length
decreasing_by
  all_goals simp_wf
  all_goals
    have := takeNatural_length _h
    omega

/-- The file to be read. -/
def Options.file (options : Options) : Except Outcome String :=
  match options.path with
  | some path => .ok path
  | none => .error { exitCode := 1, errors := textOfLines usage }

/-- A simulation that is ready to run. -/
structure Job where
  options : Options
  setup : BattleSetup
  /-- Zero stands for dice that nobody chose. -/
  seed : Nat

def prepare (options : Options) (path : String) (contents : Except FileError String) :
    Except Outcome Job :=
  match loadDocument Scenario.parse path contents with
  | .error error => .error (.failure (Scenario.errorMessage error))
  | .ok scenario =>
    match scenario.prepare with
    | .error error => .error (.failure error.message)
    | .ok setup => .ok { options, setup, seed := (options.seed.or scenario.seed).getD 0 }

namespace Job

def run (job : Job) (chance : Nat) : Except CombatError SimulationSummary :=
  job.setup.simulate job.options.rounds (if job.seed = 0 then chance else job.seed)

def announcement (job : Job) : List String :=
  if job.options.quiet then []
  else
    ["Simulating " ++ toString job.options.rounds ++ " rounds in " ++
      job.setup.battle.context.territory ++ " on " ++ toString job.options.threads ++ " threads"]

def closing (job : Job) (seconds : Float) : List String :=
  if job.options.quiet then [] else ["Completed in " ++ fixedPlaces 2 seconds ++ "s"]

end Job

/-- A number of hits, how many rounds had it, and their share. -/
def distributionLine (total : Nat) (hits : Int) (rounds : Nat) : String :=
  "  " ++ padLeft 3 (toString hits) ++ " hits: " ++ padLeft 6 (toString rounds) ++ " (" ++
    fixedPlaces 1 (Float.ofNat rounds / Float.ofNat total * 100.0) ++ "%)"

def sideLines (summary : SimulationSummary) (side : Side) : List String :=
  let hits := summary.side side
  (side.name ++ ": mean " ++ fixedPlaces 3 hits.meanHits ++ " hits, expected " ++
      fixedPlaces 3 hits.expectedHits ++ ", range " ++ toString hits.minHits ++ "..=" ++
      toString hits.maxHits) ::
    hits.distribution.map fun (number, rounds) => distributionLine summary.rounds number rounds

def summaryLines (options : Options) (summary : SimulationSummary) : List String :=
  if options.json then [summary.toJson.pretty] else Side.both.flatMap (sideLines summary)

/-- What the program leaves behind after a run of so many seconds. -/
def Job.finish (job : Job) (seconds : Float)
    (result : Except CombatError SimulationSummary) : Outcome :=
  match result with
  | .error error =>
    { exitCode := 1
      errors := textOfLines (job.announcement ++ ["error: " ++ error.message]) }
  | .ok summary =>
    { output := textOfLines (summaryLines job.options summary)
      errors := textOfLines (job.announcement ++ job.closing seconds) }

end Salvo.CommandLine.Simulate
