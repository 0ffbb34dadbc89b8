import LlmGateway.Usage.Cost
import LlmGateway.Usage.Reload
import LlmGateway.Usage.Daily
import LlmGateway.Usage.Normalisers
import LlmGateway.Stream.Keepalive
import LlmGateway.Stream.AnthropicUsage
import LlmGateway.Stream.Chunking
import LlmGateway.Breaker.Probes
import LlmGateway.Breaker.Slots
import LlmGateway.Session.Revocation
import LlmGateway.Session.Deadlock
import LlmGateway.Account.Identity
import LlmGateway.Account.AdminGroups
import LlmGateway.Account.Filters
import LlmGateway.Limit.Concurrency
import LlmGateway.Limit.LoginThrottle
import LlmGateway.Chat.MediaComplete
import LlmGateway.Chat.ThinkChunks
import LlmGateway.Anthropic.Indices
import LlmGateway.Anthropic.ToolNames
import LlmGateway.Anthropic.TurnRoundTrip
import LlmGateway.Anthropic.UserContent
import LlmGateway.Responses.Conversation
import LlmGateway.Responses.ToolSurvival
import LlmGateway.Proxy.Restore
import LlmGateway.Responses.ToolCalls
import LlmGateway.Responses.Deltas
import LlmGateway.Responses.MediaPlacement
import LlmGateway.Responses.ReasoningHistory
import LlmGateway.Responses.Recency
import LlmGateway.Plan.Resolve
import LlmGateway.Plan.Snapshot
import LlmGateway.Status.Incidents
import LlmGateway.Proxy.ExtraBody
import LlmGateway.Proxy.Failover
import LlmGateway.Proxy.Rectify
