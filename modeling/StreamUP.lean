import StreamUP.Data.FloatEncoding
import StreamUP.Data.MessageCodec
import StreamUP.Data.ReaderHistories
import StreamUP.Data.Records
import StreamUP.Data.WriterFrames
import StreamUP.Protocol.CipherNegotiation
import StreamUP.Protocol.CongestionCredit
import StreamUP.Protocol.CongestionStages
import StreamUP.Protocol.CreateProtocol
import StreamUP.Protocol.Destinations
import StreamUP.Protocol.HandshakeConfig
import StreamUP.Protocol.HandshakeExtent
import StreamUP.Protocol.HandshakeLaws
import StreamUP.Protocol.KeptKey
import StreamUP.Protocol.ManagerHistories
import StreamUP.Protocol.MessageDelivery
import StreamUP.Protocol.PoolLosses
import StreamUP.Protocol.PoolMargins
import StreamUP.Protocol.PoolPeaks
import StreamUP.Protocol.RTTHistories
import StreamUP.Streams.ConnectionManager
import StreamUP.Streams.CreationHistories
import StreamUP.Streams.ThreadHistories
