import RuncardReview.Batch
import RuncardReview.Catalog.Basic
import RuncardReview.Json.Model
import RuncardReview.Proofs.PoolAnswer
import RuncardReview.Proofs.PoolLosses
import RuncardReview.Proofs.PoolTurns
import RuncardReview.Proofs.BatchSchedule
import RuncardReview.Proofs.BatchLosses
import RuncardReview.Proofs.BatchIsolation
import RuncardReview.Proofs.ConsolidationBuckets
import RuncardReview.Proofs.RuncardResults
import RuncardReview.Proofs.CatalogRoundTrip
import RuncardReview.Proofs.RecipeBrackets
import RuncardReview.Proofs.RecipeRoundTrip
import RuncardReview.Proofs.ExpansionForms
import RuncardReview.Proofs.CatalogAcceptance
import RuncardReview.Proofs.CatalogSoundness
import RuncardReview.Proofs.RuleIsolation
import RuncardReview.Proofs.MemoReach
import RuncardReview.Sharing
import RuncardReview.Proofs.SharingOnce
import RuncardReview.Proofs.SharingAccess
import RuncardReview.Proofs.ConsolidationEvidence
import RuncardReview.Proofs.ConsolidationLaws
import RuncardReview.Proofs.ScanCarried
import RuncardReview.Proofs.CatalogCarried
import RuncardReview.Proofs.CatalogJoining
import RuncardReview.Proofs.ToolLines
import RuncardReview.Proofs.UnmatchedMarker
import RuncardReview.Proofs.AddedRules
import RuncardReview.Proofs.RecordOrder
import RuncardReview.Proofs.ToolSets
import RuncardReview.Proofs.JsonReadBack
import RuncardReview.Proofs.ResultReadBack
import RuncardReview.Proofs.RouteStrictness
import RuncardReview.Proofs.ReleasedTools
import RuncardReview.Proofs.RuleGates
import RuncardReview.Proofs.CatalogDecision
import RuncardReview.Proofs.EmptyData
import RuncardReview.Proofs.WaferCounts
import RuncardReview.Proofs.ToolKeys
import RuncardReview.Proofs.SettingSpellings
import RuncardReview.Proofs.OwnerVerdict
import RuncardReview.Proofs.GrammarProgress
