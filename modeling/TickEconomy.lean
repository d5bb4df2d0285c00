import TickEconomy.CommandLine
import TickEconomy.Directory
import TickEconomy.Ledger
import TickEconomy.Main
import TickEconomy.Manual
import TickEconomy.Proofs.DelegationChain
import TickEconomy.Proofs.EvaluationThrottle
import TickEconomy.Proofs.PoolBounds
import TickEconomy.Proofs.FailingRequirements
import TickEconomy.Proofs.BrokenBatch
import TickEconomy.Proofs.Footprint
import TickEconomy.Proofs.IndependentAgents
import TickEconomy.Proofs.RuleBlock
import TickEconomy.Proofs.FallbackPath
import TickEconomy.Proofs.WrittenBlocks
import TickEconomy.Proofs.WrittenClauses
import TickEconomy.Proofs.WrittenRules
import TickEconomy.Proofs.SharedFallbacks
import TickEconomy.Proofs.BatchFrame
import TickEconomy.Proofs.CatalogNames
import TickEconomy.Proofs.FiledCatalog
import TickEconomy.Proofs.FiringSchedule
import TickEconomy.Proofs.WrittenScopes
import TickEconomy.Proofs.WrittenScenario
import TickEconomy.Proofs.DoubledQuantity
import TickEconomy.Proofs.RuleOrder
import TickEconomy.Proofs.CommandLineRun
import TickEconomy.Proofs.UncaughtErrors
import TickEconomy.Proofs.JsonText
import TickEconomy.Proofs.SnapshotText
import TickEconomy.Proofs.ReadingPrefix
import TickEconomy.Proofs.ErrorLines
import TickEconomy.Proofs.Dialect
import TickEconomy.Proofs.SettledErrors
import TickEconomy.Proofs.Renumbering
import TickEconomy.Proofs.RenumberedTexts
import TickEconomy.Proofs.RenumberedRuns
import TickEconomy.Proofs.StartingHandles
import TickEconomy.Proofs.SourceForms
import TickEconomy.Proofs.AbandonedRounds
import TickEconomy.Proofs.RoundCount
import TickEconomy.Proofs.FirstRound
import TickEconomy.Proofs.Production
import TickEconomy.Proofs.RepeatedTick
import TickEconomy.Proofs.Postings
import TickEconomy.Proofs.RunPostings
import TickEconomy.Proofs.UnlimitedPools
import TickEconomy.Proofs.LineWords
import TickEconomy.Proofs.LineGroups
import TickEconomy.Proofs.WellNamedResources
import TickEconomy.Proofs.MarkSearch
import TickEconomy.Proofs.SectionMarks
import TickEconomy.Proofs.WrittenFiles
import TickEconomy.Proofs.UpdatedManual
import TickEconomy.Proofs.ExtractedGrammar
import TickEconomy.Proofs.GrammarLines
import TickEconomy.Proofs.ScenarioParts
import TickEconomy.Proofs.AgentOrder
import TickEconomy.Proofs.FirstFailure
