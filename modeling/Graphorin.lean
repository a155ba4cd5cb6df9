import Graphorin.Audit.Fencing
import Graphorin.Audit.Tip
import Graphorin.Workflow.Approvals
import Graphorin.Workflow.Dispatches
import Graphorin.Workflow.Completion
import Graphorin.Workflow.Retry
import Graphorin.Workflow.Rerun
import Graphorin.Workflow.Timers
import Graphorin.Workflow.Descent
import Graphorin.Server.Settling
import Graphorin.Server.Isolation
import Graphorin.Server.Resumption
import Graphorin.Server.AtMostOnce
import Graphorin.Auth.Lockout
import Graphorin.Auth.Rekey
import Graphorin.Security.Taint
import Graphorin.Tools.Flight
import Graphorin.Agent.Verdicts
import Graphorin.Memory.Quarantine
import Graphorin.Memory.Tenancy
import Graphorin.Memory.Locks
import Graphorin.Memory.Laundering
import Graphorin.Migrations.Racing
import Graphorin.Provider.Layers
import Graphorin.Provider.Answers
import Graphorin.Channels.Peers
import Graphorin.Agent.Handoff
import Graphorin.Tools.Paging
import Graphorin.Security.PercentEncoding
import Graphorin.Tools.Truncation
import Graphorin.Auth.TokenEncoding
import Graphorin.Tools.Inbound
import Graphorin.Agent.Fellback
import Graphorin.Memory.Replacing
import Graphorin.Memory.Budget
import Graphorin.Memory.Iterative
import Graphorin.Memory.Clearing
import Graphorin.Provider.RateLimit
import Graphorin.Provider.CostTracking
import Graphorin.Provider.Recovery
import Graphorin.Observability.Masking
import Graphorin.Provider.EventFraming
import Graphorin.Workflow.Uniqueness
import Graphorin.Tools.Streaming
import Graphorin.Observability.Validator
import Graphorin.Proactive.CronTask
import Graphorin.Agent.FanOut
import Graphorin.Auth.Minting
import Graphorin.Workflow.Isolation
