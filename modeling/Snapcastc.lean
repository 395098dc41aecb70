import Snapcastc.LibraryComparator
import Snapcastc.LibraryArrayHeap
import Snapcastc.LibraryPairingHeap
import Snapcastc.LibraryBytes
import Snapcastc.LibrarySlots
import Snapcastc.LibraryLease
import Snapcastc.LibrarySessions
import Snapcastc.LibraryRuns
import Snapcastc.LibraryProvenance
import Snapcastc.LibraryOffsetLoop
import Snapcastc.LibraryRoster
import Snapcastc.LibraryCalls
import Snapcastc.LibraryTokens
import Snapcastc.Timespec
import Snapcastc.Process
import Snapcastc.Pcmchunk
import Snapcastc.PcmchunkSilence
import Snapcastc.Pqueue
import Snapcastc.PqueueOrder
import Snapcastc.PqueueContents
import Snapcastc.PqueueAccess
import Snapcastc.Taskqueue
import Snapcastc.TaskqueueRep
import Snapcastc.TaskqueueHeap
import Snapcastc.TaskqueueCalls
import Snapcastc.TaskqueueWellFormed
import Snapcastc.TaskqueueRun
import Snapcastc.TaskqueueExecution
import Snapcastc.TaskqueueWakeup
import Snapcastc.Tasks
import Snapcastc.TaskqueueRefinement
import Snapcastc.Intercom
import Snapcastc.IntercomWire
import Snapcastc.IntercomTlv
import Snapcastc.Client
import Snapcastc.IntercomClient
import Snapcastc.IntercomClientLoss
import Snapcastc.IntercomClientPackets
import Snapcastc.IntercomNonce
import Snapcastc.IntercomClientIsolation
import Snapcastc.IntercomClientMissing
import Snapcastc.SocketLines
import Snapcastc.Inputpipe
import Snapcastc.Stream
import Snapcastc.Clientmgr
import Snapcastc.IntercomServer
import Snapcastc.SocketRequests
import Snapcastc.ServerLoop
import Snapcastc.ServerHandles
import Snapcastc.ServerRegistry
import Snapcastc.ServerDescriptors
import Snapcastc.ServerDescriptorsRun
import Snapcastc.SocketSetvolume
import Snapcastc.SocketSetstream
import Snapcastc.ServerAudio
import Snapcastc.IntercomServerWindow
import Snapcastc.IntercomServerIsolation
import Snapcastc.AlsaplayerVolume
import Snapcastc.AlsaplayerHandle
import Snapcastc.ClientProcess
import Snapcastc.AlsaplayerGetchunk
import Snapcastc.ClientHandles
import Snapcastc.IntercomOperations
import Snapcastc.IntercomUnknownTlv
import Snapcastc.InputpipeWatchdog
import Snapcastc.ClientmgrMute
import Snapcastc.InputpipeRun
import Snapcastc.InputpipeTimestamps
import Snapcastc.InputpipeAlignment
import Snapcastc.InputpipeLookahead
import Snapcastc.IntercomClientStorage
import Snapcastc.IntercomClientCapacity
import Snapcastc.IntercomSwitch
import Snapcastc.IntercomServerRetention
import Snapcastc.ServerLease
import Snapcastc.IntercomClientDuration
import Snapcastc.IntercomClientRetries
import Snapcastc.ClientmgrHello
import Snapcastc.SocketSetstreamReply
import Snapcastc.StreamParseTotal
import Snapcastc.OpuscodecEncode
import Snapcastc.Jsonrpc
import Snapcastc.ServerMain
import Snapcastc.ServerMainRun
import Snapcastc.ServerMainConnections
import Snapcastc.SocketStatus
import Snapcastc.ClientGreetings
import Snapcastc.ClientRequests
import Snapcastc.ClientMain
import Snapcastc.ClientMainRun
import Snapcastc.ClientChunks
import Snapcastc.ClientListens
import Snapcastc.ServerSent
import Snapcastc.ServerListeners
import Snapcastc.NetworkPlayback
import Snapcastc.NetworkRecovery
import Snapcastc.ServerInput
import Snapcastc.NetworkInput
import Snapcastc.Vector
import Snapcastc.VectorList
import Snapcastc.VectorRun
