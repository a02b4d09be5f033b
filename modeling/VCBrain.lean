import VCBrain.Foundation.Text
import VCBrain.Foundation.Unicode
import VCBrain.Foundation.Substrings
import VCBrain.Foundation.IndentedJson
import VCBrain.Foundation.Url
import VCBrain.Foundation.Json
import VCBrain.Foundation.JsonText
import VCBrain.Foundation.SortedSet
import VCBrain.Foundation.GroupBy
import VCBrain.Foundation.Guarded
import VCBrain.Foundation.Optimistic
import VCBrain.Foundation.Fallible
import VCBrain.Foundation.OrderBy
import VCBrain.Foundation.Rounding
import VCBrain.Foundation.Pattern
import VCBrain.Foundation.Remnant
import VCBrain.Foundation.Template
import VCBrain.Redaction
import VCBrain.RedactionLaws
import VCBrain.SourcePolicy
import VCBrain.Lifecycle
import VCBrain.Db.Models
import VCBrain.Sla
import VCBrain.OpportunityService
import VCBrain.DecisionProposal
import VCBrain.Processing.Trust
import VCBrain.Processing.TrustLaws
import VCBrain.Processing.Reconcile
import VCBrain.Processing.GroupEffect
import VCBrain.Processing.Dominance
import VCBrain.Processing.CounterEvidence
import VCBrain.Processing.FirstRun
import VCBrain.Foundation.Dict
import VCBrain.Collectors.Persistence
import VCBrain.Collectors.PersistenceMigration
import VCBrain.Foundation.Frames
import VCBrain.Collectors.KeyEncoding
import VCBrain.Collectors.Observations
import VCBrain.Collectors.Jobs
import VCBrain.Agents.AdvancePipeline
import VCBrain.Agents.InboundJob
import VCBrain.Agents.EvidenceGate
import VCBrain.Agents.InboundDeliveries
import VCBrain.Foundation.Pointers
import VCBrain.Identity.Merge
import VCBrain.Collectors.FingerprintHistory
import VCBrain.Identity.Matchers
import VCBrain.Identity.Presentation
import VCBrain.Identity.Blocking
import VCBrain.Privacy
import VCBrain.Identity.Groups
import VCBrain.Identity.Suppression
import VCBrain.Identity.Resolve
import VCBrain.Identity.Review
import VCBrain.Api.Inbound
import VCBrain.Foundation.Clustering
import VCBrain.Identity.OrderIndependence
import VCBrain.Identity.CanonicalEvidence
import VCBrain.Agents.EvidenceText
import VCBrain.Foundation.CutText
import VCBrain.Agents.EvidenceCut
import VCBrain.Agents.MemoCitations
import VCBrain.Agents.Scoring
import VCBrain.Agents.GenerateMemo
import VCBrain.Agents.Prompts
import VCBrain.Agents.Critic
import VCBrain.Agents.MemoJob
import VCBrain.Agents.PipelineRun
import VCBrain.Agents.Quiescence
import VCBrain.Agents.Starvation
import VCBrain.Agents.DeadEnds
import VCBrain.Api.DecisionRuns
import VCBrain.Api.DecisionClock
import VCBrain.LifecycleGates
import VCBrain.LifecycleHistory
import VCBrain.JobLedger
import VCBrain.Collectors.Deliveries
import VCBrain.Collectors.DiscoveryPages
import VCBrain.Collectors.Queue
import VCBrain.Collectors.DiscoverJob
import VCBrain.Collectors.EvidenceStore
import VCBrain.Collectors.SourceLocators
import VCBrain.Collectors.CollectResult
import VCBrain.Collectors.ResearchJob
import VCBrain.Collectors.ResearchScore
import VCBrain.Collectors.NegativePhrases
import VCBrain.Foundation.ReadCommitted
import VCBrain.Foundation.GetOrInsert
import VCBrain.Collectors.ConcurrentEvidence
import VCBrain.Db.Rows
import VCBrain.Collectors.ConcurrentDiscovery
import VCBrain.Api.ConcurrentPitches
import VCBrain.Collectors.Dispatcher
import VCBrain.Collectors.BudgetGate
import VCBrain.Collectors.BudgetRace
import VCBrain.Outbox
import VCBrain.Foundation.Base64
import VCBrain.Foundation.Datetime
import VCBrain.Foundation.CompactJson
import VCBrain.Foundation.Keyset
import VCBrain.Api.Candidates
import VCBrain.Processing.GroupOutcome
import VCBrain.Processing.CurrentClaims
import VCBrain.Foundation.Leaders
import VCBrain.Foundation.UuidText
import VCBrain.Processing.Dedup
import VCBrain.Processing.Idempotence
import VCBrain.Processing.ClaimChains
import VCBrain.Processing.ValidTime
import VCBrain.Identity.HandleLookup
import VCBrain.Identity.Sessions
import VCBrain.Identity.Rejections
import VCBrain.Scoring.ThesisPin
import VCBrain.OutreachDelivery
import VCBrain.Agents.ContactJob
import VCBrain.ClientLifecycle
import VCBrain.Storage
import VCBrain.Agents.StoppedRun
import VCBrain.Collectors.TasksInFlight
import VCBrain.Collectors.DeepCollection
import VCBrain.Collectors.AutoDiscovery
import VCBrain.Identity.MergeSoundness
import VCBrain.Scoring.ThesisAlignment
import VCBrain.Collectors.WebsiteFetch
import VCBrain.Collectors.Avatars
import VCBrain.Frontend.CandidateLinks
import VCBrain.Collectors.SignalSelection
import VCBrain.Scoring.ActivationPriority
import VCBrain.Scoring.ThesisOrder
import VCBrain.Collectors.GithubCollect
import VCBrain.Api.CurrentOpportunity
import VCBrain.Api.CandidateSearch
import VCBrain.Agents.RetryBound
import VCBrain.Api.ThesisSaves
import VCBrain.SnapshotStore
import VCBrain.Collectors.DispatcherProgress
import VCBrain.LifecycleOrder
import VCBrain.Foundation.NewestFirst
import VCBrain.Api.CandidateView
import VCBrain.Uploads
import VCBrain.Foundation.Comparator
import VCBrain.Frontend.Ranking
import VCBrain.Agents.ScoringJob
import VCBrain.Collectors.ArxivDiscovery
import VCBrain.Collectors.ArxivCollect
import VCBrain.Collectors.SignalScore
