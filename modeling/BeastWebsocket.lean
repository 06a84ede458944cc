import BeastWebsocket.Transition.System
import BeastWebsocket.Transition.History
import BeastWebsocket.Transition.Trace
import BeastWebsocket.Channel.Inbox
import BeastWebsocket.Channel.Outbox
import BeastWebsocket.Channel.Loop
import BeastWebsocket.Channel.Pipeline
import BeastWebsocket.Channel.Window
import BeastWebsocket.Channel.Dialogue
import BeastWebsocket.Channel.Latch
import BeastWebsocket.Channel.Exchange
import BeastWebsocket.Channel.Star
import BeastWebsocket.Text.Field
import BeastWebsocket.Session.Record
import BeastWebsocket.Session.Common
import BeastWebsocket.Session.Channels
import BeastWebsocket.Session.Timer
import BeastWebsocket.Session.Server
import BeastWebsocket.Session.Client
import BeastWebsocket.Session.ServerChannels
import BeastWebsocket.Session.ClientChannels
import BeastWebsocket.Session.Input
import BeastWebsocket.Session.Output
import BeastWebsocket.Session.RequestReply
import BeastWebsocket.Session.Effect
import BeastWebsocket.Session.Gate
import BeastWebsocket.Session.Timeout
import BeastWebsocket.Session.Called
import BeastWebsocket.Session.Spares
import BeastWebsocket.Session.Moves
import BeastWebsocket.Session.Handshake
import BeastWebsocket.Session.Buffer
import BeastWebsocket.Session.AutoFrame
import BeastWebsocket.Session.ControlFrames
import BeastWebsocket.Session.Posting
import BeastWebsocket.Session.Conversation
import BeastWebsocket.Session.Watch
import BeastWebsocket.Session.Deadline
import BeastWebsocket.Session.Activity
import BeastWebsocket.Session.Links
import BeastWebsocket.Session.Handed
import BeastWebsocket.Session.Monitor
import BeastWebsocket.Session.Heartbeat
import BeastWebsocket.Echo.Server
import BeastWebsocket.Echo.Client
import BeastWebsocket.Echo.Network
import BeastWebsocket.Chat.Message
import BeastWebsocket.Chat.Codec
import BeastWebsocket.Chat.Turns
import BeastWebsocket.Chat.StaleError
import BeastWebsocket.Chat.Overlong
import BeastWebsocket.Chat.RoundTrip
import BeastWebsocket.Chat.Grammar
import BeastWebsocket.Chat.Room
import BeastWebsocket.Chat.Handlers
import BeastWebsocket.Chat.History
import BeastWebsocket.Chat.Members
import BeastWebsocket.Chat.Output
import BeastWebsocket.Chat.Broadcast
import BeastWebsocket.Chat.Delivery
import BeastWebsocket.Chat.Departed
import BeastWebsocket.Chat.Farewell
import BeastWebsocket.Chat.Reactions
import BeastWebsocket.Chat.Script
import BeastWebsocket.Chat.Served
import BeastWebsocket.Chat.Client
import BeastWebsocket.Chat.Received
import BeastWebsocket.Chat.Asking
import BeastWebsocket.Chat.Attended
import BeastWebsocket.Chat.Network
import BeastWebsocket.Chat.Shown
import BeastWebsocket.Chat.Lines
import BeastWebsocket.Chat.Heartbeat
import BeastWebsocket.Chat.Silence
import BeastWebsocket.Https.Routing
import BeastWebsocket.Https.Server
import BeastWebsocket.Https.Client
import BeastWebsocket.Https.Opening
import BeastWebsocket.Https.Queue
import BeastWebsocket.Https.Reading
import BeastWebsocket.Https.Pipelining
import BeastWebsocket.Https.Shutdown
import BeastWebsocket.Https.Correspondence
import BeastWebsocket.Https.InFlight
import BeastWebsocket.Https.Answering
import BeastWebsocket.Https.Requesting
import BeastWebsocket.Https.Network
import BeastWebsocket.Https.Progress
