import AgentPlatform.Binary64
import AgentPlatform.Dict
import AgentPlatform.Machine
import AgentPlatform.Rows
import AgentPlatform.Rewriting
import AgentPlatform.Patterns
import AgentPlatform.Ascii
import AgentPlatform.Redaction
import AgentPlatform.RedactionFacts
import AgentPlatform.Masking
import AgentPlatform.Truncation
import AgentPlatform.Blocks
import AgentPlatform.BlockReading
import AgentPlatform.BlockTrees
import AgentPlatform.Render
import AgentPlatform.RenderFacts
import AgentPlatform.Json
import AgentPlatform.PyText
import AgentPlatform.Schema
import AgentPlatform.Simulators
import AgentPlatform.Policy
import AgentPlatform.PolicyClient
import AgentPlatform.PolicyClientFacts
import AgentPlatform.Tools
import AgentPlatform.ToolsFacts
import AgentPlatform.Approvals
import AgentPlatform.Enforcement
import AgentPlatform.EnforcementFacts
import AgentPlatform.Tokens
import AgentPlatform.PolicyFacts
import AgentPlatform.SimulatorsFacts
import AgentPlatform.ApprovalsFacts
import AgentPlatform.Platform
import AgentPlatform.PlatformFacts
import AgentPlatform.Sandbox
import AgentPlatform.SandboxFacts
import AgentPlatform.Graph
import AgentPlatform.GraphFacts
import AgentPlatform.GraphBudget
import AgentPlatform.GraphSteps
import AgentPlatform.Invocation
import AgentPlatform.InvocationFacts
import AgentPlatform.Llm
import AgentPlatform.LlmFacts
import AgentPlatform.Coercion
import AgentPlatform.Identifiers
import AgentPlatform.Amounts
import AgentPlatform.Seen
import AgentPlatform.Proposals
import AgentPlatform.Live
import AgentPlatform.LiveFacts
import AgentPlatform.Service
import AgentPlatform.ServiceFacts
import AgentPlatform.PolicySpec
import AgentPlatform.Offer
import AgentPlatform.Backends
import AgentPlatform.Transports
import AgentPlatform.ApprovalStores
import AgentPlatform.Audit
import AgentPlatform.AuditFacts
import AgentPlatform.PrivacyView
import AgentPlatform.SandboxIdentity
import AgentPlatform.UserAdmin
import AgentPlatform.UserAdminFacts
import AgentPlatform.SnapshotsFacts
import AgentPlatform.Persistence
import AgentPlatform.RevocationFacts
import AgentPlatform.SlidingWindow
import AgentPlatform.Limits
import AgentPlatform.LimitsFacts
import AgentPlatform.LimitsTables
import AgentPlatform.LimitsBudget
import AgentPlatform.SharedLimits
import AgentPlatform.EnforcementTrail
import AgentPlatform.Browser
import AgentPlatform.BrowserFacts
import AgentPlatform.Workload
import AgentPlatform.Revocations
import AgentPlatform.Api
import AgentPlatform.ApiFacts
import AgentPlatform.ApiDenylist
import AgentPlatform.ApiTenancy
import AgentPlatform.Admission
import AgentPlatform.Gateway
import AgentPlatform.GatewayFacts
import AgentPlatform.Channel
import AgentPlatform.Forwarding
import AgentPlatform.UserRoutes
import AgentPlatform.UserRoutesFacts
import AgentPlatform.RenderMain
import AgentPlatform.PolicyOrder
import AgentPlatform.RolesPage
import AgentPlatform.Hop
import AgentPlatform.Restart
