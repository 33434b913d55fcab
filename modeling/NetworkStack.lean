import NetworkStack.Ticket.Sends
import NetworkStack.Ticket.Link
import NetworkStack.Ticket.Exchange
import NetworkStack.Ticket.Peer
import NetworkStack.Ticket.Json
import NetworkStack.Ticket.Utf8
import NetworkStack.Lib.SortedAssoc
import NetworkStack.Ticket.FrameLink
import NetworkStack.Ftp.Navigation
import NetworkStack.Ftp.Transfers
import NetworkStack.Ftp.Contents
import NetworkStack.Ftp.Session
import NetworkStack.Ftp.Reconnect
import NetworkStack.Ftp.Placement
import NetworkStack.Lib.Hoare
import NetworkStack.Lib.Framing
import NetworkStack.Lib.Machine
import NetworkStack.Socket.ReadExact
import NetworkStack.Socket.ReadStream
import NetworkStack.Socket.ReadUntil
import NetworkStack.Lib.Ownership
import NetworkStack.Ticket.Cancel
import NetworkStack.Ticket.Owners
import NetworkStack.Server.Stop
import NetworkStack.Server.Accept
import NetworkStack.Lib.Pool
import NetworkStack.Ticket.Coroutines
import NetworkStack.Ftp.ReplyText
import NetworkStack.Ftp.Authentication
import NetworkStack.Ftp.Creation
import NetworkStack.Ftp.PassivePort
import NetworkStack.Ftp.Listing
import NetworkStack.Ftp.Alive
import NetworkStack.Ticket.Decode
import NetworkStack.Ftp.Malformed
import NetworkStack.Ftp.Facts
import NetworkStack.Ftp.Shortest
import NetworkStack.Ftp.Components
import NetworkStack.Lib.Decimal
import NetworkStack.Lib.Calendar
import NetworkStack.Ftp.Endpoints
import NetworkStack.Ftp.Timestamps
import NetworkStack.Ftp.LsLines
import NetworkStack.Ftp.LongFormat
import NetworkStack.Ticket.TicketIds
import NetworkStack.Ticket.Calls
import NetworkStack.Ticket.Polling
import NetworkStack.Ticket.TimeLimits
import NetworkStack.Socket.Timers
import NetworkStack.Socket.Deadlines
import NetworkStack.Lib.FileTree
import NetworkStack.Ftp.FileSystem
import NetworkStack.Ticket.Remote
import NetworkStack.Lib.ParallelGroup
import NetworkStack.Core.ErrorTranslation
import NetworkStack.Client.Handshake
import NetworkStack.Client.Connect
import NetworkStack.Server.Lifetimes
import NetworkStack.Ftp.DataChannel
import NetworkStack.Ftp.Archive
