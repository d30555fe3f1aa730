import OpenObs.Rbac.Fallback
import OpenObs.Approvals.Isolation
import OpenObs.Plans.Expiry
import OpenObs.Approvals.Resolution
import OpenObs.Approvals.Visibility
import OpenObs.Folders.Moves
import OpenObs.Agent.Confinement
import OpenObs.Agent.Noninterference
import OpenObs.Connectors.Grants
import OpenObs.Dashboards.Tenancy
import OpenObs.Rules.Destinations
import OpenObs.Rules.Provisioned
import OpenObs.Alerts.Disabling
import OpenObs.Alerts.Writers
import OpenObs.Alerts.Schedule
import OpenObs.Middleware.RateLimiter
import OpenObs.Alerts.LeaderLock
import OpenObs.Auth.SessionLaw
import OpenObs.Notifications.PolicyEdits
import OpenObs.Notifications.Redelivery
import OpenObs.Notifications.Spacing
import OpenObs.Investigations.Dedup
import OpenObs.DataLayer.CachedRepository
import OpenObs.DataLayer.Versions
import OpenObs.DataLayer.TopologyTraversal
import OpenObs.LlmGateway.Gemini
import OpenObs.LlmGateway.Anthropic
import OpenObs.Auth.Lockout
import OpenObs.Dashboards.LiveView
import OpenObs.Dashboards.EditsKept
import OpenObs.Orgs.Deletion
import OpenObs.Kubectl.Deletion
import OpenObs.Middleware.Csrf
import OpenObs.Middleware.OrgContext
import OpenObs.Connectors.Secrets
import OpenObs.Chat.SessionEvents
import OpenObs.Setup.FirstAdmin
import OpenObs.WebSocket.Rooms
import OpenObs.Events.Delivery
import OpenObs.Agent.OwnContext
import OpenObs.Kubectl.Command
import OpenObs.Notifications.PolicyTree
import OpenObs.Notifications.Identity
import OpenObs.Agent.Redaction
import OpenObs.Rbac.TeamSync
import OpenObs.Rbac.Seeding
import OpenObs.Agent.PlanProposal
import OpenObs.Plans.AutoEdit
import OpenObs.Rbac.TokenQuota
import OpenObs.Agent.ProvisionedDiff
import OpenObs.Agent.PanelPacking
import OpenObs.DataLayer.TraceIngestion
import OpenObs.Webhooks.Delivery
import OpenObs.Approvals.RequesterTeam
import OpenObs.Web.Heatmap
import OpenObs.Rbac.RoleSets
import OpenObs.Agent.LoopRun
import OpenObs.Auth.LdapFilter
import OpenObs.Metrics.Translator
import OpenObs.Auth.OAuth
import OpenObs.Middleware.UrlValidator
