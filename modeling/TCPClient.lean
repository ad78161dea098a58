import TCPClient.Utils
import TCPClient.Lib.Memory
import TCPClient.Lib.Feed
import TCPClient.Lib.Cover
import TCPClient.Lib.Tiling
import TCPClient.Lib.Phrase
import TCPClient.Lib.Folder
import TCPClient.Lib.Bag
import TCPClient.Lib.Reader
import TCPClient.Lib.Rounds
import TCPClient.Lib.Octets
import TCPClient.Protocol
import TCPClient.Builders
import TCPClient.Dispatch
import TCPClient.Commands
import TCPClient.Naming
import TCPClient.Chunks
import TCPClient.InitPayload
import TCPClient.Announcement
import TCPClient.Numbers
import TCPClient.FileState
import TCPClient.Conn
import TCPClient.FileSend
import TCPClient.FileRecv
import TCPClient.FileModule
import TCPClient.FileSpec
import TCPClient.FileInvariant
import TCPClient.Isolation
import TCPClient.ReceivedFile
import TCPClient.SentChunks
import TCPClient.Transfer
import TCPClient.InitAssoc
import TCPClient.TidAssoc
import TCPClient.FrameHandlers
import TCPClient.Confinement
import TCPClient.OnlineUsers
import TCPClient.FrameSpec
import TCPClient.SendInvariant
import TCPClient.RepInvariant
import TCPClient.SendProtocol
import TCPClient.CommandLine
import TCPClient.FolderSpec
import TCPClient.Refusals
import TCPClient.Downloads
import TCPClient.Signals
import TCPClient.Session
import TCPClient.Reads
import TCPClient.Offers
import TCPClient.Welcome
import TCPClient.Stdin
import TCPClient.Lines
import TCPClient.InputLines
import TCPClient.SessionMap
import TCPClient.Keyboard
import TCPClient.Calls
import TCPClient.Pacing
import TCPClient.Finality
import TCPClient.Views
import TCPClient.Lib.Trace
import TCPClient.Client
import TCPClient.Outside
import TCPClient.Wire
import TCPClient.RecvProtocol
import TCPClient.Lib.Flag
import TCPClient.Terminal
import TCPClient.Connect
import TCPClient.Inside
import TCPClient.Handshake
import TCPClient.Backlog
import TCPClient.Program
import TCPClient.Progress
import TCPClient.Beside
import TCPClient.Relay
import TCPClient.Lib.Unwinding
import TCPClient.Halves
