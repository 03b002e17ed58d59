import CodeHarbor.App.Aggregator
import CodeHarbor.App.Alike
import CodeHarbor.App.Attribution
import CodeHarbor.App.ClosedApprovals
import CodeHarbor.App.Coherence
import CodeHarbor.App.Faces
import CodeHarbor.App.Faithful
import CodeHarbor.App.FinishedStatus
import CodeHarbor.App.GapRecovery
import CodeHarbor.App.Markdown
import CodeHarbor.App.Transcript
import CodeHarbor.Bridge.Approvals
import CodeHarbor.Bridge.Authentic
import CodeHarbor.Bridge.Demux
import CodeHarbor.Bridge.Framing
import CodeHarbor.Bridge.Processes
import CodeHarbor.Bridge.Rpc
import CodeHarbor.Bridge.Senders
import CodeHarbor.Gateway.Agreement
import CodeHarbor.Gateway.Attachments
import CodeHarbor.Gateway.Cancellation
import CodeHarbor.Gateway.ConfigFile
import CodeHarbor.Gateway.Confirmation
import CodeHarbor.Gateway.Creation
import CodeHarbor.Gateway.Effects
import CodeHarbor.Gateway.EventFile
import CodeHarbor.Gateway.EventNumbers
import CodeHarbor.Gateway.Events
import CodeHarbor.Gateway.Forwarding
import CodeHarbor.Gateway.Ledger
import CodeHarbor.Gateway.PendingApprovals
import CodeHarbor.Gateway.Resume
import CodeHarbor.Gateway.Routes
import CodeHarbor.Gateway.SessionSync
import CodeHarbor.Gateway.SingleTurn
import CodeHarbor.Gateway.Snapshots
import CodeHarbor.Gateway.State
import CodeHarbor.Gateway.Store
import CodeHarbor.Gateway.StoredPolicy
import CodeHarbor.Gateway.Subagents
import CodeHarbor.Gateway.Tasks
import CodeHarbor.Gateway.Threads
import CodeHarbor.Gateway.Timeline
import CodeHarbor.Gateway.Tombstones
import CodeHarbor.Gateway.Waiting
import CodeHarbor.Gateway.Workspaces
import CodeHarbor.Lib.Base64
import CodeHarbor.Lib.Cursor
import CodeHarbor.Lib.Decoding
import CodeHarbor.Lib.Double
import CodeHarbor.Lib.GoText
import CodeHarbor.Lib.JsText
import CodeHarbor.Lib.JsValue
import CodeHarbor.Lib.Json
import CodeHarbor.Lib.JsonCut
import CodeHarbor.Lib.JsonSize
import CodeHarbor.Lib.LastWriter
import CodeHarbor.Lib.NumberText
import CodeHarbor.Lib.OrdMap
import CodeHarbor.Lib.Paging
import CodeHarbor.Lib.Paths
import CodeHarbor.Lib.Queues
import CodeHarbor.Lib.Run
import CodeHarbor.Lib.Sql
import CodeHarbor.Lib.Stamped
import CodeHarbor.Lib.Utf8
import CodeHarbor.Network.Acceptance
import CodeHarbor.Network.Answers
import CodeHarbor.Network.Frames
import CodeHarbor.Network.Handover
import CodeHarbor.Network.Identity
import CodeHarbor.Network.InFlight
import CodeHarbor.Network.Isolation
import CodeHarbor.Network.Leads
import CodeHarbor.Network.Leases
import CodeHarbor.Network.Model
import CodeHarbor.Network.Ownership
import CodeHarbor.Network.RelayClient
import CodeHarbor.Network.Requests
import CodeHarbor.Network.Segments
import CodeHarbor.Network.Soundness
import CodeHarbor.Relay.Account
import CodeHarbor.Relay.DeviceRecords
import CodeHarbor.Relay.DeviceSpecs
import CodeHarbor.Relay.DeviceStore
import CodeHarbor.Relay.Devices
import CodeHarbor.Relay.EventCounters
import CodeHarbor.Relay.EventIsolation
import CodeHarbor.Relay.EventPages
import CodeHarbor.Relay.Handshake
import CodeHarbor.Relay.Instance
import CodeHarbor.Relay.LiveMetadata
import CodeHarbor.Relay.Logout
import CodeHarbor.Relay.Outbound
import CodeHarbor.Relay.PairCodes
import CodeHarbor.Relay.Presence
import CodeHarbor.Relay.Principal
import CodeHarbor.Relay.Registration
import CodeHarbor.Relay.RepeatedSync
import CodeHarbor.Relay.Resume
import CodeHarbor.Relay.Revoke
import CodeHarbor.Relay.Sessions
import CodeHarbor.Relay.SyncPayload
import CodeHarbor.Relay.SyncRefinement
import CodeHarbor.Relay.Token
