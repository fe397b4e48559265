import Mathlib.Data.List.Forall2
import Salvo.CommandLine.ResolveRound
import Salvo.CommandLine.Simulate
import Salvo.Proofs.Round.DiceIndependence
import Salvo.Proofs.Simulation.Histogram

/-! # The rounds of a simulation

A seeded simulation is made of single rounds that know nothing of each other. Round `i` is resolved
with the dice of the seed `seed + i`, and the other program prints that round when it is given this
seed (`Job.IsRound`), which it reads as it is written (`ResolveRound.parseArguments_append_seed`). The summary of a side tallies the hits of these rounds, and simulations whose
seeds follow each other add up (`Job.tallies_of_run`).

Zero as the seed of a job stands for dice that nobody chose; as the seed of a later round, where
seeds start again after the last one, it is a seed like any other. -/

namespace Salvo

theorem roundDice_eq (seed round : Nat) :
    roundDice seed round = .ofSeed (.ofNat ((seed + round) % 2 ^ 64)) := by
  rw [roundDice, UInt64.ofNat_mod_size]

theorem roundDice_mod (seed round : Nat) :
    roundDice (seed % 2 ^ 64) round = roundDice seed round := by
  rw [roundDice_eq, Nat.mod_add_mod, ← roundDice_eq]

/-- The dice of later rounds are those of the seed where the earlier rounds end. -/
theorem roundDice_add (seed rounds : Nat) :
    (roundDice seed ∘ fun round => rounds + round) = roundDice (seed + rounds) := by
  funext round
  rw [Function.comp_apply, roundDice, roundDice, Nat.add_assoc]

namespace BattleSetup

/-- The reports of a number of rounds from a seed on. -/
def roundsFrom (setup : BattleSetup) (seed rounds : Nat) : Except CombatError (List RoundReport) :=
  setup.resolveEach ((List.range rounds).map (roundDice seed))

theorem roundsFrom_mod (setup : BattleSetup) (seed rounds : Nat) :
    setup.roundsFrom (seed % 2 ^ 64) rounds = setup.roundsFrom seed rounds := by
  have hdice : roundDice (seed % 2 ^ 64) = roundDice seed := funext (roundDice_mod seed)
  rw [roundsFrom, roundsFrom, hdice]

theorem roundsFrom_eq_ok_iff {setup : BattleSetup} {seed rounds : Nat}
    {reports : List RoundReport} :
    setup.roundsFrom seed rounds = .ok reports ↔
      List.Forall₂ (fun round report =>
          (setup.resolve (roundDice seed round) []).outcome = .ok report)
        (List.range rounds) reports := by
  rw [roundsFrom, resolveEach_eq, mapM_eq_ok_iff, List.forall₂_map_left_iff]

theorem roundsFrom_add (setup : BattleSetup) (seed rounds more : Nat) :
    setup.roundsFrom seed (rounds + more) = do
      let reports ← setup.roundsFrom seed rounds
      let later ← setup.roundsFrom (seed + rounds) more
      return reports ++ later := by
  rw [roundsFrom, List.range_add, List.map_append, List.map_map, roundDice_add, resolveEach_eq,
    List.mapM_append]
  simp only [roundsFrom, resolveEach_eq]

theorem simulate_eq (setup : BattleSetup) (rounds seed : Nat) :
    setup.simulate rounds seed = SimulationSummary.ofReports <$> setup.roundsFrom seed rounds := rfl

end BattleSetup

theorem SimulationSummary.side_ofReports (reports : List RoundReport) (side : Side) :
    (ofReports reports).side side = .ofReports reports side := by
  cases side <;> rfl

/-! ## The command line of a single round -/

namespace CommandLine

theorem toList_textOfLines (lines : List String) :
    (textOfLines lines).toList = lines.flatMap fun line => line.toList ++ ['\n'] := by
  rw [textOfLines, String.toList_join, List.flatMap_map]
  exact congrArg (lines.flatMap ·) (funext fun line => String.toList_append)

/-- What is printed ends each of its lines, so that they can be read off again. -/
theorem splitOn_textOfLines {lines : List String} (h : ∀ line ∈ lines, '\n' ∉ line.toList) :
    (textOfLines lines).toList.splitOn '\n' = lines.map (·.toList) ++ [[]] := by
  have hends : (textOfLines lines).toList = ['\n'].intercalate (lines.map (·.toList) ++ [[]]) := by
    rw [toList_textOfLines]
    induction lines with
    | nil => rfl
    | cons line lines ih =>
      rw [List.flatMap_cons, ih (List.forall_mem_cons.mp h).2, List.map_cons, List.cons_append]
      cases lines <;> simp [List.intercalate]
  rw [hends, List.splitOn_intercalate '\n' _ (by simp)]
  intro shown hshown
  rcases List.mem_append.mp hshown with hline | hlast
  · obtain ⟨line, hmem, rfl⟩ := List.mem_map.mp hline
    exact h line hmem
  · rw [List.mem_singleton.mp hlast]
    exact List.not_mem_nil
theorem mapM_decimalDigit? {cs : List Char} (h : ∀ c ∈ cs, c.isDigit) :
    cs.mapM decimalDigit? = some (cs.map fun c => c.toNat - '0'.toNat) := by
  induction cs with
  | nil => rfl
  | cons c cs ih =>
    obtain ⟨hc, hcs⟩ := List.forall_mem_cons.mp h
    have hdigit : decimalDigit? c = some (c.toNat - '0'.toNat) := if_pos hc
    rw [List.mapM_cons, hdigit, ih hcs]
    rfl

/-- A number is read as it is written. -/
theorem natural?_toString {bits number : Nat} (h : number < 2 ^ bits) :
    natural? bits (toString number) = some number := by
  have hdigits : ∀ c ∈ Nat.toDigits 10 number, c.isDigit := fun c hc =>
    Nat.isDigit_of_mem_toDigits (by decide) (by decide) hc
  have hvalue : (Nat.toDigits 10 number).foldl
      (fun value c => value * 10 + (c.toNat - '0'.toNat)) 0 = number := by
    have hread := @Nat.ofDigitChars_ten_toDigits number
    rw [Nat.ofDigitChars_eq_foldl] at hread
    simpa only [Nat.mul_comm] using hread
  have hplus : ∀ cs, Nat.toDigits 10 number ≠ '+' :: cs := by
    intro cs heq
    exact absurd (hdigits '+' (heq ▸ List.mem_cons_self)) (by decide)
  unfold natural?
  rw [Nat.toString_eq_ofList_toDigits, String.toList_ofList]
  split
  · exact absurd ‹_› (hplus _)
  · have hne : (Nat.toDigits 10 number).isEmpty = false :=
      List.isEmpty_eq_false_iff.mpr Nat.toDigits_ne_nil
    simp only [hne, Bool.false_eq_true, if_false, mapM_decimalDigit? hdigits, Option.bind_eq_bind,
      Option.bind_some, List.foldl_map, hvalue, if_pos h]

theorem takeNatural_append {flag : String} {arguments rest : List String} {value : Nat}
    (h : takeNatural flag arguments = .ok (value, rest)) (more : List String) :
    takeNatural flag (arguments ++ more) = .ok (value, rest ++ more) := by
  cases arguments with
  | nil => cases h
  | cons argument arguments =>
    rw [takeNatural] at h
    rw [List.cons_append, takeNatural]
    cases hvalue : natural? 64 argument with
    | none =>
      rw [hvalue] at h
      cases h
    | some value =>
      rw [hvalue] at h
      cases h
      rfl

namespace ResolveRound

variable {options : Options} {arguments rest : List String} {seed : Nat}

theorem parseArguments_seed (h : takeNatural "--seed" arguments = .ok (seed, rest)) :
    parseArguments options ("--seed" :: arguments) =
      parseArguments { options with seed := some seed } rest := by
  rw [parseArguments]
  split
  · rename_i herror
    cases h.symm.trans herror
  · rename_i hok
    cases h.symm.trans hok
    rfl

theorem parseArguments_path {argument : String} (hseed : argument ≠ "--seed")
    (hjson : argument ≠ "--json") (hhelp : ¬ (argument = "--help" ∨ argument = "-h"))
    (hflag : ¬ argument.startsWith "--") :
    parseArguments options (argument :: arguments) =
      parseArguments { options with path := some argument } arguments := by
  rw [parseArguments, if_neg hhelp, if_neg hflag]
  · exact hseed
  · exact hjson

/-- A seed behind other arguments counts, and changes nothing else that they say. -/
theorem parseArguments_append_seed {initial : Options}
    (h : parseArguments initial arguments = .ok options) (hseed : seed < 2 ^ 64) :
    parseArguments initial (arguments ++ ["--seed", toString seed]) =
      .ok { options with seed := some seed } := by
  fun_induction parseArguments initial arguments with
  | case1 initial =>
    have htake : takeNatural "--seed" [toString seed] = .ok (seed, []) := by
      rw [takeNatural, natural?_toString hseed]
    cases h
    rw [List.nil_append, parseArguments_seed htake, parseArguments]
  | case2 | case5 | case6 => cases h
  | case3 initial arguments other rest htake ih =>
    rw [List.cons_append, parseArguments_seed (takeNatural_append htake _)]
    exact ih h
  | case4 initial arguments ih =>
    rw [List.cons_append, parseArguments]
    exact ih h
  | case7 initial argument arguments hseed hjson hhelp hflag ih =>
    rw [List.cons_append, parseArguments_path hseed hjson hhelp hflag]
    exact ih h

theorem dice_of_ne_zero {seed : Nat} (h : seed ≠ 0) (chance : Generator) :
    dice (some seed) chance = .ofSeed (.ofNat seed) := by
  unfold dice
  split
  · rename_i hnone
    cases hnone
  · rename_i hzero
    exact absurd (Option.some.inj hzero) h
  · rename_i hsome
    rw [Option.some.inj hsome]

end ResolveRound

end CommandLine

/-! ## The rounds of a job -/

namespace CommandLine.Simulate.Job

/-- The seed of round `i` of a job. Seeds start again from zero after the last one. -/
def roundSeed (job : Job) (i : Nat) : Nat := (job.seed + i) % 2 ^ 64

/-- The report of round `i` of a job. -/
structure IsRound (job : Job) (i : Nat) (report : RoundReport) : Prop where
  /-- It is that of a single round with the dice of one seed. -/
  resolved (history : History) :
    (job.setup.resolve (Generator.ofSeed (.ofNat (job.roundSeed i))) history).outcome = .ok report
  /-- This seed can be given behind all other arguments. -/
  seeded (arguments : List String) (options : ResolveRound.Options) :
    ResolveRound.parseArguments {} arguments = .ok options →
    ResolveRound.parseArguments {} (arguments ++ ["--seed", toString (job.roundSeed i)]) =
      .ok { options with seed := some (job.roundSeed i) }
  /-- The round is printed for the same battle and this seed. -/
  printed (options : ResolveRound.Options) (contents : Except FileError String)
    (chance : Generator) (scenario : Scenario) :
    options.seed = some (job.roundSeed i) → job.roundSeed i ≠ 0 →
    loadDocument Scenario.parse (options.file?.getD "<stdin>") contents = .ok scenario →
    scenario.prepare = .ok job.setup →
    ResolveRound.run options contents chance =
      { output :=
          if options.json then textOfLines [report.toJson.pretty]
          else textOfLines
            ((job.setup.resolve (Generator.ofSeed (.ofNat (job.roundSeed i))) []).history.lines ++
              Side.both.map (ResolveRound.sideLine report)) }

/-- `whole` has the rounds of `job` and after them those of `later`. -/
structure Joins (job later whole : Job) : Prop where
  setup_later : later.setup = job.setup
  setup_whole : whole.setup = job.setup
  seed_later : later.seed = job.roundSeed job.options.rounds
  seed_later_ne_zero : later.seed ≠ 0
  seed_whole : whole.seed = job.seed
  rounds_whole : whole.options.rounds = job.options.rounds + later.options.rounds

variable {job : Job}

theorem run_eq (hseed : job.seed ≠ 0) (chance : Nat) :
    job.run chance =
      SimulationSummary.ofReports <$> job.setup.roundsFrom job.seed job.options.rounds := by
  rw [run, if_neg hseed, BattleSetup.simulate_eq]

theorem isRound_of_outcome {i : Nat} {report : RoundReport}
    (h : (job.setup.resolve (roundDice job.seed i) []).outcome = .ok report) :
    job.IsRound i report := by
  rw [roundDice_eq, ← roundSeed] at h
  refine ⟨fun _ => h, fun _ _ hparse => ResolveRound.parseArguments_append_seed hparse ?_,
    fun options contents chance scenario hseed hne hload hprepare => ?_⟩
  · exact Nat.mod_lt _ (Nat.two_pow_pos 64)
  have hdice : ResolveRound.dice (options.seed.or scenario.seed) chance =
      .ofSeed (.ofNat (job.roundSeed i)) := by
    rw [hseed]
    exact ResolveRound.dice_of_ne_zero hne chance
  simp only [ResolveRound.run, hload, hprepare, ResolveRound.resolve, hdice, h]

/-- The rounds of the whole job are those of the first one, which is known to succeed, and those of
the later one. -/
theorem Joins.exists_run {later whole : Job} {reports : List RoundReport}
    (h : job.Joins later whole) (hseed : job.seed ≠ 0)
    (hreports : job.setup.roundsFrom job.seed job.options.rounds = .ok reports) (chance : Nat) :
    ∃ run : Except CombatError (List RoundReport),
      later.run chance = SimulationSummary.ofReports <$> run ∧
      whole.run chance = (fun more => SimulationSummary.ofReports (reports ++ more)) <$> run := by
  refine ⟨job.setup.roundsFrom later.seed later.options.rounds, ?_, ?_⟩
  · rw [run_eq h.seed_later_ne_zero, h.setup_later]
  -- The later job has its seed reduced, the whole job has not; the dice are the same.
  · rw [run_eq (h.seed_whole ▸ hseed), h.setup_whole, h.seed_whole, h.rounds_whole,
      BattleSetup.roundsFrom_add, hreports, h.seed_later, roundSeed, BattleSetup.roundsFrom_mod]
    cases job.setup.roundsFrom (job.seed + job.options.rounds) later.options.rounds <;> rfl

/-- A seeded simulation tallies the hits of single rounds, each of which has a seed of its own. Run
in two parts, of which the second goes on with the seeds of the first, it has the same rounds. -/
theorem tallies_of_run (job : Job) (chance : Nat) (summary : SimulationSummary)
    (hrounds : 0 < job.options.rounds) (hseed : job.seed ≠ 0)
    (hrun : job.run chance = .ok summary) :
    ∃ reports : List RoundReport,
      List.Forall₂ job.IsRound (List.range job.options.rounds) reports ∧
      summary.rounds = job.options.rounds ∧
      (∀ side, (summary.side side).Tallies (reports.map (·.hitsBy side))) ∧
      ∀ later whole, job.Joins later whole → ∀ chance,
        (whole.run chance).isOk = (later.run chance).isOk ∧
        ∀ laterSummary wholeSummary, later.run chance = .ok laterSummary →
          whole.run chance = .ok wholeSummary →
          ∀ side hits, (wholeSummary.side side).roundsWith hits =
            (summary.side side).roundsWith hits + (laterSummary.side side).roundsWith hits := by
  rw [run_eq hseed] at hrun
  cases hreports : job.setup.roundsFrom job.seed job.options.rounds with
  | error error =>
    rw [hreports] at hrun
    cases hrun
  | ok reports =>
    rw [hreports] at hrun
    obtain rfl : SimulationSummary.ofReports reports = summary := Except.ok.inj hrun
    have hall := BattleSetup.roundsFrom_eq_ok_iff.mp hreports
    have hlength : reports.length = job.options.rounds := by
      rw [← hall.length_eq, List.length_range]
    have hne : reports ≠ [] := List.ne_nil_of_length_pos (hlength ▸ hrounds)
    refine ⟨reports, hall.imp fun _ _ => isRound_of_outcome, hlength, fun side => ?_, ?_⟩
    · rw [SimulationSummary.side_ofReports]
      exact SideSummary.tallies_ofReports hne side
    · intro later whole hjoins chance
      obtain ⟨run, hlater, hwhole⟩ := hjoins.exists_run hseed hreports chance
      rw [hlater, hwhole]
      cases run with
      | error error => exact ⟨rfl, fun _ _ h => nomatch h⟩
      | ok more =>
        refine ⟨rfl, ?_⟩
        rintro _ _ ⟨⟩ ⟨⟩ side hits
        simp only [SimulationSummary.side_ofReports, SideSummary.roundsWith_ofReports,
          List.map_append, List.count_append]

/-- Three rounds of the raid. The second of them has the seed zero. -/
def raids : Job where
  options := { rounds := 3 }
  setup := ⟨Battle.bomberRaid, {}, []⟩
  seed := 2 ^ 64 - 1

/-- Two more rounds of the raid. -/
def moreRaids : Job := { raids with options := { rounds := 2 }, seed := 2 }

def allRaids : Job := { raids with options := { rounds := 5 } }

theorem joins_raids : raids.Joins moreRaids allRaids where
  setup_later := rfl
  setup_whole := rfl
  seed_later := by decide
  seed_later_ne_zero := by decide
  seed_whole := rfl
  rounds_whole := rfl

/-- In one of the first three rounds the infantry hits. The seed of a job that has one does not
leave anything to chance. -/
theorem tallies_of_raids :
    ∃ summary more all reports,
      raids.run 0 = .ok summary ∧ moreRaids.run 5 = .ok more ∧ allRaids.run 5 = .ok all ∧
      (summary.side .defense).distribution = [(0, 2), (1, 1)] ∧
      (all.side .defense).distribution = [(0, 4), (1, 1)] ∧
      List.Forall₂ raids.IsRound [0, 1, 2] reports ∧
      (∀ side, (summary.side side).Tallies (reports.map (·.hitsBy side))) ∧
      ∀ side hits, (all.side side).roundsWith hits =
        (summary.side side).roundsWith hits + (more.side side).roundsWith hits := by
  have hshown : (raids.run 0).toOption.map (fun summary => (summary.side .defense).distribution) =
      some [(0, 2), (1, 1)] := by
    decide +kernel
  have hallShown : (allRaids.run 5).toOption.map (fun all => (all.side .defense).distribution) =
      some [(0, 4), (1, 1)] := by
    decide +kernel
  obtain ⟨summary, hrun, hshown⟩ := exists_ok_of_toOption_map hshown
  obtain ⟨more, hmore⟩ : ∃ more, moreRaids.run 5 = .ok more := ⟨_, rfl⟩
  obtain ⟨all, hall, hallShown⟩ := exists_ok_of_toOption_map hallShown
  obtain ⟨reports, hrounds, _, htallies, hjoins⟩ :=
    tallies_of_run raids 0 summary (by decide) (by decide) hrun
  exact ⟨summary, more, all, reports, hrun, hmore, hall, hshown, hallShown, hrounds, htallies,
    (hjoins moreRaids allRaids joins_raids 5).2 more all hmore hall⟩

end CommandLine.Simulate.Job

end Salvo
