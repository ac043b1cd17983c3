import CodexOne.Lib.GoStrings
import CodexOne.Lib.Number
import CodexOne.Lib.Json
import CodexOne.Lib.JsonString
import CodexOne.Lib.JsonText
import CodexOne.Lib.JsonParse
import CodexOne.Lib.JsonCodec
import CodexOne.Lib.JsonFloat
import CodexOne.Lib.JsonStruct
import CodexOne.Lib.JsonViews
import CodexOne.Lib.Transition
import CodexOne.Lib.Lines
import CodexOne.Lib.Substitute
import CodexOne.Normalize
import CodexOne.Chat
import CodexOne.Identity
import CodexOne.Mapping
import CodexOne.Compat
import CodexOne.Endpoints
import CodexOne.Merge
import CodexOne.Conversation
import CodexOne.Turns
import CodexOne.Frames
import CodexOne.Ledger
import CodexOne.TurnBody
import CodexOne.Items
import CodexOne.Settings
import CodexOne.Rejection
import CodexOne.Replay
import CodexOne.Submitted
import CodexOne.ItemIDs
import CodexOne.Lifecycle
import CodexOne.Sessions
import CodexOne.Admin
import CodexOne.Credentials
import CodexOne.CredentialUpdates
import CodexOne.Quota
import CodexOne.SSE
import CodexOne.ChatGrammar
import CodexOne.Outcome
import CodexOne.ResponseStream
import CodexOne.ChatStream
import CodexOne.ChatAnswer
import CodexOne.ChatAgreement
import CodexOne.Restore
import CodexOne.Forwarded
import CodexOne.Exposure
import CodexOne.Lib.JsonSubstitute
import CodexOne.RestoredStrings
import CodexOne.Sanitizing
import CodexOne.Matcher
import CodexOne.Gate
import CodexOne.Retained
import CodexOne.Merging
import CodexOne.Lib.Preferred
import CodexOne.Stages
import CodexOne.Lib.Naming
import CodexOne.Familiar
import CodexOne.Collisions
import CodexOne.Clashes
import CodexOne.Lib.TimedMap
import CodexOne.SessionMap
import CodexOne.PasswordChanges
import CodexOne.LoginLimiter
import CodexOne.Lib.NetIP
import CodexOne.ClientAddress
import CodexOne.Lib.Calendar
import CodexOne.Lib.Zone
import CodexOne.DayRange
import CodexOne.Tokens
import CodexOne.Refresh
import CodexOne.Expiry
import CodexOne.Lib.Url
import CodexOne.BrowserCallback
import CodexOne.BrowserLogin
import CodexOne.DeviceLogin
import CodexOne.DeviceFlows
import CodexOne.ToolExchanges
import CodexOne.Renormalized
import CodexOne.NormalForm
import CodexOne.FreshNames
import CodexOne.QueuedBytes
import CodexOne.Truncation
import CodexOne.MasterKey
import CodexOne.WebSocketSession
import CodexOne.TurnIsolation
import CodexOne.ConversationHead
import CodexOne.IncrementalBodies
import CodexOne.SessionBinding
import CodexOne.SessionTurns
import CodexOne.FrameOrder
import CodexOne.APIKeys
import CodexOne.KeyedTurns
import CodexOne.RequestLogs
import CodexOne.EchoedIdentifiers
import CodexOne.Relay
