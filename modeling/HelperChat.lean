import HelperChat.Transition
import HelperChat.CyclicWindow
import HelperChat.MemberUpdate
import HelperChat.CountedLoop
import HelperChat.DrainRefill
import HelperChat.DrainRefillConservation
import HelperChat.DrainRefillOrder
import HelperChat.DrainRefillSolo
import HelperChat.EncDec
import HelperChat.Queue
import HelperChat.Decoder
import HelperChat.DecoderConservation
import HelperChat.DecoderOrder
import HelperChat.HelperLoop
import HelperChat.HelperRun
import HelperChat.SerialDecoder
import HelperChat.HelperReply
import HelperChat.HelperService
import HelperChat.ByteStream
import HelperChat.HelperLink
import HelperChat.ClientTable
import HelperChat.TableCapacity
import HelperChat.Connections
import HelperChat.AcceptArgument
import HelperChat.Registration
import HelperChat.CString
import HelperChat.ClientSession
import HelperChat.CallSequence
import HelperChat.QueueCalls
import HelperChat.TableMirror
import HelperChat.DrainRefillTermination
import HelperChat.DecoderTermination
import HelperChat.HelperHistory
import HelperChat.QueueStatements
import HelperChat.ServerTexts
import HelperChat.IndexedWalk
import HelperChat.Broadcast
import HelperChat.Joining
import HelperChat.ClientLoop
import HelperChat.ThreadBuffers
import HelperChat.Chunking
import HelperChat.StreamSplits
import HelperChat.WelcomeList
import HelperChat.PublicMessage
import HelperChat.MessageLoop
import HelperChat.ChatHistory
import HelperChat.Simulation
import HelperChat.Multicast
import HelperChat.Relay
import HelperChat.RelayOrder
import HelperChat.RelayReach
import HelperChat.LinkProgress
import HelperChat.LinkBytes
import HelperChat.DrainRefillOrigin
import HelperChat.HelperOrigin
import HelperChat.HelperProgress
import HelperChat.HeapLedger
import HelperChat.HelperHeap
import HelperChat.Wire
import HelperChat.WireProgress
import HelperChat.DecimalField
import HelperChat.FileName
import HelperChat.Conversation
import HelperChat.ExclusiveSections
import HelperChat.TableStatements
import HelperChat.ChatServer
import HelperChat.ChatServerProgress
import HelperChat.ChatServerDelivery
import HelperChat.Interleaving
import HelperChat.RelayRouting
import HelperChat.ClientList
import HelperChat.Seat
import HelperChat.ChatNetwork
import HelperChat.ChatNetworkDelivery
