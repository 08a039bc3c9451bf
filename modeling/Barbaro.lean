import Barbaro.Core.Resume
import Barbaro.Lib.Utf8
import Barbaro.Core.FeedAvailability
import Barbaro.Core.Patterns
import Barbaro.Lib.Ranges
import Barbaro.Nudge.Claim
import Barbaro.Nudge.ClaimSpec
import Barbaro.Nudge.Delivered
import Barbaro.Nudge.ReadCommit
import Barbaro.Nudge.ReadSpec
import Barbaro.Nudge.Run
import Barbaro.Nudge.StoreRoundTrip
import Barbaro.Nudge.UnreadLines
import Barbaro.Nudge.CommitOnce
import Barbaro.Nudge.Ledger
import Barbaro.Active.Revisions
import Barbaro.Core.TextSize
import Barbaro.Hooks.Admission
import Barbaro.Hooks.MembershipHistory
import Barbaro.Lib.Base64
import Barbaro.Lib.Utf8Cuts
import Barbaro.Output.AppendUnique
import Barbaro.Output.DirectoryLock
import Barbaro.Output.Exclusion
import Barbaro.Reader.Budget
import Barbaro.Reader.RecordCursor
import Barbaro.Runner.WorkstreamStamp
import Barbaro.Watch.Delivery
import Barbaro.Lib.JsonExtent
import Barbaro.Nudge.CountBound
import Barbaro.Nudge.CursorValid
import Barbaro.Nudge.StoredRun
import Barbaro.Core.Content
import Barbaro.Core.Members
import Barbaro.Ingest.Attempt
import Barbaro.Ingest.Counts
import Barbaro.Ingest.Overlap
import Barbaro.Reader.CursorRoundTrip
import Barbaro.Reader.LastBirth
import Barbaro.Reader.RecordStore
import Barbaro.Workstreams.Names
import Barbaro.Active.LeaseSize
import Barbaro.Core.Chunking
import Barbaro.Hooks.AdmissionFiles
import Barbaro.Hooks.ConsentSize
import Barbaro.Hooks.QuietAdmission
import Barbaro.Lib.JsonKeys
import Barbaro.Lib.Versioned
import Barbaro.Nudge.CoverageAlgebra
import Barbaro.Nudge.Rollback
import Barbaro.Reader.UnreadCursor
import Barbaro.Active.Conflicts
import Barbaro.Active.Overlaps
import Barbaro.Core.Id
import Barbaro.Hooks.ClaudeActivity
import Barbaro.Hooks.InFlight
import Barbaro.Lib.Loop
import Barbaro.Lib.ParentLinks
import Barbaro.Reader.Context
import Barbaro.Reader.Honest
import Barbaro.Reader.PageCursors
import Barbaro.Reader.UnreadBatch
import Barbaro.Reader.UnreadIsolation
import Barbaro.Runner.ActiveMembership
import Barbaro.Runner.BranchGraph
import Barbaro.Runner.StableBranch
import Barbaro.Watch.StaleLeases
import Barbaro.Tui.PasteChunks
import Barbaro.Hooks.ObservedRun
import Barbaro.Hooks.IncidentMarkers
import Barbaro.Core.StoreBoundary
import Barbaro.Setup.HookWords
import Barbaro.Reader.SelfSize
import Barbaro.Tui.NewsRotation
import Barbaro.Tui.ExactCard
import Barbaro.Tui.ReadOrder
import Barbaro.Watch.Await
import Barbaro.Hooks.ClaudeIngest
import Barbaro.Runner.ToolInput
import Barbaro.Hooks.AwaitLease
import Barbaro.Cli.AwaitCommand
import Barbaro.Nudge.ReadArguments
import Barbaro.Reader.FeedWindow
import Barbaro.Runner.CodexTrace
import Barbaro.Hooks.CodexScope
import Barbaro.Hooks.CodexActivity
import Barbaro.Lib.TurnFence
import Barbaro.Hooks.CodexTurns
import Barbaro.Hooks.CodexRuns
import Barbaro.Hooks.CodexStops
import Barbaro.Providers.CodexPieces
import Barbaro.Providers.CodexEvidence
