import KamaWebserver.LogDrain
import KamaWebserver.IntegerFormat
import KamaWebserver.LogBacklog
import KamaWebserver.BufferHistory
import KamaWebserver.DisconnectSilence
import KamaWebserver.DownCallback
import KamaWebserver.GracefulShutdown
import KamaWebserver.LfuEviction
import KamaWebserver.LfuAgingOrder
import KamaWebserver.OutputOrder
import KamaWebserver.SendStream
import KamaWebserver.OutputNotices
import KamaWebserver.WriteAfterFin
import KamaWebserver.SendCapture
import KamaWebserver.ConnectionRefs
import KamaWebserver.MemoryPoolSeparation
import KamaWebserver.PoolAlignment
import KamaWebserver.HashBucket
import KamaWebserver.FunctorOrder
import KamaWebserver.LoopStartup
import KamaWebserver.LoopQuit
import KamaWebserver.TableAgreement
import KamaWebserver.TimerLiveness
import KamaWebserver.TimerDelivery
import KamaWebserver.ChannelInterest
import KamaWebserver.MaskAgreement
import KamaWebserver.ConnectionState
import KamaWebserver.SendFileSegment
import KamaWebserver.SendFileChain
import KamaWebserver.PoolConcurrency
import KamaWebserver.LfuLookup
import KamaWebserver.LfuAccounting
import KamaWebserver.LfuSlices
import KamaWebserver.LfuPurge
import KamaWebserver.LogFraming
import KamaWebserver.LogTimestamps
import KamaWebserver.LogFileNames
import KamaWebserver.WriteAccounting
import KamaWebserver.BufferRotation
import KamaWebserver.LogFilePeriod
import KamaWebserver.LfuLinkRuns
import KamaWebserver.LoopThreads
import KamaWebserver.LoopThreadStart
import KamaWebserver.LoopThreadProgress
import KamaWebserver.LoopConfinement
import KamaWebserver.PollBatch
import KamaWebserver.PollBatchRuns
import KamaWebserver.ServerBalance
import KamaWebserver.EchoStream
import KamaWebserver.LogDelivery
import KamaWebserver.EdgeReadiness
import KamaWebserver.BucketThreads
import KamaWebserver.LfuShards
import KamaWebserver.TimerPace
import KamaWebserver.LoneConnection
import KamaWebserver.ServerSessions
import KamaWebserver.TimerRequests
