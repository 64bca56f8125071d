import KzHome.Lib.Transition
import KzHome.Lib.Call
import KzHome.Lib.Dict
import KzHome.Lib.Doubles
import KzHome.Lib.Table
import KzHome.Lib.RowLocks
import KzHome.Lib.Outline
import KzHome.Lib.Evidence
import KzHome.JsonText
import KzHome.Registry
import KzHome.StateValidator
import KzHome.Ledger
import KzHome.CommandClock
import KzHome.ControlClock
import KzHome.ControlAuthority
import KzHome.CommandService
import KzHome.Memory
import KzHome.Decisions
import KzHome.Operations
import KzHome.Services
import KzHome.Times
import KzHome.Contract
import KzHome.Steps
import KzHome.Preservation
import KzHome.Rules
import KzHome.Outlines
import KzHome.ControlOutlines
import KzHome.Runs
import KzHome.Records
import KzHome.Submissions
import KzHome.Completion
import KzHome.Deadlines
import KzHome.Permits
import KzHome.Windows
import KzHome.ClosedGate
import KzHome.Retention
import KzHome.SharedClocks
import KzHome.ClockHistories
import KzHome.JsonValues
import KzHome.EventBus
import KzHome.StateReports
import KzHome.ExactReports
import KzHome.Lib.Pool
import KzHome.GatewayLoop
import KzHome.Automations
import KzHome.Cascades
import KzHome.Firings
import KzHome.Lib.Deadlock
import KzHome.LockOrder
import KzHome.Lib.Sql
import KzHome.Lib.SqlRules
import KzHome.Lib.Effects
import KzHome.StateWrites
import KzHome.Permissions
import KzHome.Tables
import KzHome.Authorization
import KzHome.Members
import KzHome.LastOwner
import KzHome.Listings
import KzHome.RefreshTokens
import KzHome.ProvisioningHistories
import KzHome.Provisioning
import KzHome.Inventory
import KzHome.Reservations
import KzHome.Lifecycle
import KzHome.DemoUpgrade
import KzHome.Actions
import KzHome.Disclosure
import KzHome.Bindings
import KzHome.Boundaries
import KzHome.Lib.PyText
import KzHome.Lib.PyValues
import KzHome.PermitRequests
import KzHome.RelayRuns
import KzHome.EventListing
import KzHome.Claims
import KzHome.GatewayFlags
import KzHome.Commissioning
import KzHome.AutomationUpdates
import KzHome.RateLimits
import KzHome.Topics
import KzHome.DeviceStates
import KzHome.PermitReplies
import KzHome.AttemptRuns
import KzHome.RecoveryFence
import KzHome.Requests
import KzHome.EndToEnd
import KzHome.LiveRuns
import KzHome.ClientConnections
import KzHome.Wire
import KzHome.Broker
