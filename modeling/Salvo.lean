import Salvo.Main
import Salvo.Proofs.Support.Greedy
import Salvo.Proofs.Support.Slots
import Salvo.Proofs.Support.Priority
import Salvo.Proofs.Support.MoreSupporters
import Salvo.Proofs.Support.Lawful
import Salvo.Proofs.Dice.Throwing
import Salvo.Proofs.Dice.Expectation
import Salvo.Proofs.Dice.LowLuck
import Salvo.Proofs.Round.Firing
import Salvo.Proofs.Round.FireOrder
import Salvo.Proofs.Round.SilentGuns
import Salvo.Proofs.Round.DiceStream
import Salvo.Proofs.Round.DiceIndependence
import Salvo.Proofs.Round.FireOnce
import Salvo.Proofs.Round.Chronicle
import Salvo.Proofs.Dice.Requests
import Salvo.Proofs.Round.Prepared
import Salvo.Proofs.Round.SupportInRound
import Salvo.Proofs.Round.LowerDice
import Salvo.Proofs.Power.SupportedPower
import Salvo.Proofs.Simulation.Rounds
import Salvo.Proofs.Dice.SureHits
import Salvo.Proofs.Dice.FairDraws
import Salvo.Proofs.Power.TargetCover
import Salvo.Proofs.Power.StrongestGuns
import Salvo.Proofs.Roster.Groups
import Salvo.Proofs.Roster.Counts
import Salvo.Proofs.Round.FlakTargets
import Salvo.Proofs.Round.AfterFlak
import Salvo.Proofs.Support.PassOrder
import Salvo.Proofs.Power.AirPower
import Salvo.Proofs.Round.AirDice
import Salvo.Proofs.Dice.BestDie
import Salvo.Proofs.Support.BonusTypes
import Salvo.Proofs.Support.RosterOrder
import Salvo.Proofs.Support.StrongestFirst
import Salvo.Proofs.Dice.Scoring
import Salvo.Proofs.Dice.ScriptAccounts
import Salvo.Proofs.FirstFailure
import Salvo.Proofs.Roster.SoundTypes
import Salvo.Proofs.Preparation
import Salvo.Proofs.Round.TakingPart
import Salvo.Proofs.Round.Spent
import Salvo.Proofs.Round.SpentRolls
import Salvo.Proofs.Json.Values
import Salvo.Proofs.Support.Drafts
import Salvo.Proofs.Roster.Depot
import Salvo.Proofs.Power.RaisedUnits
import Salvo.Proofs.Dice.NeededDice
