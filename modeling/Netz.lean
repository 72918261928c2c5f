import Netz.Proofs.Accounting
import Netz.Proofs.Amplification
import Netz.Proofs.ReceiveMaximum
import Netz.Proofs.SessionLedger
import Netz.Proofs.ByteConservation
import Netz.Proofs.FramePayload
import Netz.Proofs.WillRuns
import Netz.Proofs.PacketNumbers
import Netz.Proofs.HeaderProtection
import Netz.Proofs.AckFrames
import Netz.Proofs.PeerPoolRuns
import Netz.Proofs.RecoveryRefine
import Netz.Proofs.TransportParameters
import Netz.Proofs.BatchPrefix
import Netz.Proofs.PathLedger
import Netz.Proofs.StreamCount
import Netz.Proofs.Overlaps
import Netz.Proofs.PacketRoundTrip
import Netz.Proofs.DeliveryQueue
import Netz.Proofs.TopicAlias
import Netz.Proofs.StoreCalls
import Netz.Proofs.RetainedQueries
import Netz.Proofs.Hpack
import Netz.Proofs.QpackReferences
import Netz.Proofs.WebSocketFrame
import Netz.Proofs.WebSocketMessage
import Netz.Proofs.GrpcStream
import Netz.Proofs.ReplayRuns
import Netz.Proofs.Http1Chunked
import Netz.Proofs.Http1Streaming
import Netz.Proofs.Http1Head
import Netz.Proofs.FlowWindow
import Netz.Proofs.Datagram
import Netz.Proofs.CryptoStream
import Netz.Proofs.PersistentCongestion
import Netz.Proofs.QpackLines
import Netz.Proofs.SessionRoute
import Netz.Proofs.PacketWriters
import Netz.Proofs.ConnectionWindow
import Netz.Proofs.WindowUpdates
import Netz.Proofs.QpackLookups
import Netz.Proofs.Congestion
import Netz.Proofs.Rtt
import Netz.Proofs.KeepAlive
import Netz.Proofs.GrpcCodecs
