import LwsClientDemo.Interleaving
import LwsClientDemo.LinkedQueue
import LwsClientDemo.Memory
import LwsClientDemo.Lws
import LwsClientDemo.Fragment
import LwsClientDemo.WhileLoop
import LwsClientDemo.FragAppend
import LwsClientDemo.WsInternal
import LwsClientDemo.WsClientV2.Client
import LwsClientDemo.WsClientV2.System
import LwsClientDemo.WsClientV2.Lifecycle
import LwsClientDemo.WsClientV2.Connection
import LwsClientDemo.WsClientV2.Calls
import LwsClientDemo.Traffic
import LwsClientDemo.Frees
import LwsClientDemo.Listener
import LwsClientDemo.FailureLimit
import LwsClientDemo.Handles
import LwsClientDemo.WsClientV2.Queue
import LwsClientDemo.WsClientV2.Frees
import LwsClientDemo.WsClientV2.Wakeup
import LwsClientDemo.Reassembly
import LwsClientDemo.WsClientV2.Sections
import LwsClientDemo.WsClientV2.Receive
import LwsClientDemo.WsClientV2.Heartbeat
import LwsClientDemo.WsClientV2.Headroom
import LwsClientDemo.WsClient.Client
import LwsClientDemo.WsClient.System
import LwsClientDemo.WsClient.Sections
import LwsClientDemo.WsClient.Lifecycle
import LwsClientDemo.WsClient.Connection
import LwsClientDemo.WsClient.Calls
import LwsClientDemo.WsClient.Queue
import LwsClientDemo.WsClient.Frees
import LwsClientDemo.WsClient.Receive
import LwsClientDemo.WsClient.Headroom
import LwsClientDemo.WsClient.Wakeup
import LwsClientDemo.WsPool.Client
import LwsClientDemo.WsPool.System
import LwsClientDemo.WsPool.Sections
import LwsClientDemo.WsPool.Clients
import LwsClientDemo.WsPool.Lifecycle
import LwsClientDemo.WsPool.Queue
import LwsClientDemo.WsPool.Receive
import LwsClientDemo.WsPool.Messages
import LwsClientDemo.WsPool.Headroom
import LwsClientDemo.Population
import LwsClientDemo.WsPool.Seats
import LwsClientDemo.WsPool.Adds
import LwsClientDemo.WsPool.Connection
import LwsClientDemo.WsPool.Calls
import LwsClientDemo.WsPool.Writeable
import LwsClientDemo.WsPool.Members
import LwsClientDemo.WsPool.Registry
import LwsClientDemo.WsPool.Admission
import LwsClientDemo.WsPool.Pending
import LwsClientDemo.WsPool.Wakeup
import LwsClientDemo.Decisions
import LwsClientDemo.WsClient.Decisions
import LwsClientDemo.WsClientV2.Decisions
import LwsClientDemo.WsPool.Stack
import LwsClientDemo.WsPool.Decisions
import LwsClientDemo.WsClientV2.Notifications
import LwsClientDemo.WsClientV2.Places
import LwsClientDemo.WsPool.Places
import LwsClientDemo.WsPool.Milestones
import LwsClientDemo.WsPool.Teardown
import LwsClientDemo.WsPool.Flushed
import LwsClientDemo.WsPool.Frees
import LwsClientDemo.WsPool.Handshake
import LwsClientDemo.WsPool.Quiescent
import LwsClientDemo.WsPool.Blocking
import LwsClientDemo.WsPool.Joining
import LwsClientDemo.WsClientV2.Breaker
import LwsClientDemo.WsClientV2.FailureLimit
import LwsClientDemo.WsPool.Breaker
import LwsClientDemo.Guarantees
import LwsClientDemo.Limits
import LwsClientDemo.WsClient.Limits
import LwsClientDemo.WsPool.Limits
import LwsClientDemo.FlowControl
import LwsClientDemo.Backoff
import LwsClientDemo.Overrides
import LwsClientDemo.WsClient.Reconnect
import LwsClientDemo.Mailbox
import LwsClientDemo.WsServer.Echo
import LwsClientDemo.WsServer.Server
import LwsClientDemo.WsServer.Headroom
import LwsClientDemo.WsServer.Sessions
import LwsClientDemo.Stopped
import LwsClientDemo.TwoRuns
import LwsClientDemo.Alike
import LwsClientDemo.WsClientV2.History
import LwsClientDemo.Heartbeat
import LwsClientDemo.WsClient.Heartbeat
import LwsClientDemo.WsPool.Heartbeat
import LwsClientDemo.Timed
import LwsClientDemo.Deadline
import LwsClientDemo.History
import LwsClientDemo.WsClient.History
import LwsClientDemo.WsPool.Notifications
import LwsClientDemo.WsPool.FailureLimit
import LwsClientDemo.WsPool.History
import LwsClientDemo.Erasure
import LwsClientDemo.PercentEncoding
import LwsClientDemo.Base64
import LwsClientDemo.Json
import LwsClientDemo.XfyunTts.Codec
import LwsClientDemo.XfyunTts.UrlEncode
import LwsClientDemo.XfyunTts.Fields
import LwsClientDemo.XfyunTts.Openssl
import LwsClientDemo.XfyunTts.Request
import LwsClientDemo.XfyunTts.Path
import LwsClientDemo.XfyunTts.Message
import LwsClientDemo.XfyunTts.Session
