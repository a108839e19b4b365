import Oxydra.Runtime.LedgerInterleaving
import Oxydra.Runtime.LedgerTree
import Oxydra.Runtime.ContextSelection
import Oxydra.Runtime.Transcript
import Oxydra.Runtime.ToolPhase
import Oxydra.Runtime.UnlimitedBudget
import Oxydra.Runtime.DelegationTree
import Oxydra.Gateway.DefaultSessions
import Oxydra.Gateway.PrefixResolution
import Oxydra.Gateway.SummarizedTurns
import Oxydra.Gateway.BusySessions
import Oxydra.Scheduler.ScheduleEdits
import Oxydra.Scheduler.DueSchedules
import Oxydra.Memory.SessionState
import Oxydra.Runtime.NarrowingAgreement
import Oxydra.Gateway.DelegationDepth
import Oxydra.Runtime.FastPath
import Oxydra.Tools.PathPolicy
import Oxydra.Tools.SingleCommand
import Oxydra.Tools.BrowserArguments
import Oxydra.Tools.WebAllowlist
import Oxydra.Channels.ReplyCorrelation
import Oxydra.Channels.SessionRouting
import Oxydra.Provider.Gemini
import Oxydra.Provider.ResponsesChaining
import Oxydra.Types.ToolPolicies
import Oxydra.Runner.ConfigBackups
import Oxydra.Runner.ConcurrentPatches
import Oxydra.Runner.WebUserAtomicity
import Oxydra.Scheduler.RunOutput
import Oxydra.Memory.TextChunks
import Oxydra.Runtime.PolicyLimits
import Oxydra.Runtime.BudgetWarnings
import Oxydra.Scheduler.CadenceRuns
import Oxydra.Channels.MessageSplitting
import Oxydra.Tools.ShellOutput
import Oxydra.Provider.SseParsing
import Oxydra.Memory.NoteTags
import Oxydra.Channels.TelegramHtml
import Oxydra.Runtime.SecretScrubbing
import Oxydra.Provider.ResponsesStreaming
import Oxydra.Runtime.PathScrubbing
import Oxydra.Runner.WebTokens
import Oxydra.Tools.FileEditing
import Oxydra.Runner.ConfigVersions
import Oxydra.Provider.RetryBounds
import Oxydra.Provider.StrictSchemas
import Oxydra.Tools.BrowserBodies
import Oxydra.Runner.MergePatch
import Oxydra.Provider.AnthropicMessages
import Oxydra.Runner.SkillPrompts
import Oxydra.Tui.InputEditor
import Oxydra.Tui.ShownReply
import Oxydra.Runner.SinceFilter
import Oxydra.Runner.FollowedLines
import Oxydra.Runner.BootstrapFrames
import Oxydra.Runner.OverlaidConfigs
import Oxydra.Tools.SkillRoundTrips
import Oxydra.Memory.SchemaMigrations
import Oxydra.Tui.GatewayConnections
