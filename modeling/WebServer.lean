import WebServer.Base.CountDownLatch
import WebServer.Base.ThreadStart
import WebServer.Channel
import WebServer.Http.Alike
import WebServer.Http.Answer
import WebServer.Http.ContentType
import WebServer.Http.Dispatch
import WebServer.Http.DocumentRoot
import WebServer.Http.Escape
import WebServer.Http.Fragmentation
import WebServer.Http.HandleConn
import WebServer.Http.HandleRead
import WebServer.Http.HeaderCase
import WebServer.Http.HeaderCodec
import WebServer.Http.HeaderIntegrity
import WebServer.Http.HeaderLine
import WebServer.Http.HeaderSlices
import WebServer.Http.Isolation
import WebServer.Http.KeepAlive
import WebServer.Http.OrderedOutput
import WebServer.Http.OtherHeaders
import WebServer.Http.OutBuffer
import WebServer.Http.ParseHeaders
import WebServer.Http.ParseUri
import WebServer.Http.Partial
import WebServer.Http.Pipelining
import WebServer.Http.PostBody
import WebServer.Http.Reaction
import WebServer.Http.Recursion
import WebServer.Http.Reply
import WebServer.Http.ReplyFormat
import WebServer.Http.Request
import WebServer.Http.RequestLine
import WebServer.Http.Resumption
import WebServer.Http.Retimed
import WebServer.Http.Session
import WebServer.Http.Silence
import WebServer.Http.Standing
import WebServer.Http.State
import WebServer.Http.Treatment
import WebServer.Http.Turns
import WebServer.Http.Unread
import WebServer.Http.Verdict
import WebServer.Kernel
import WebServer.Lib.ByteString
import WebServer.Lib.CString
import WebServer.Lib.CondVar
import WebServer.Lib.EventFd
import WebServer.Lib.LazyDeletion
import WebServer.Lib.Lock
import WebServer.Lib.Numeral
import WebServer.Lib.Observation
import WebServer.Lib.RecordStream
import WebServer.Lib.Response
import WebServer.Lib.Ring
import WebServer.Lib.RoundRobin
import WebServer.Lib.Transition
import WebServer.Lib.TwoRuns
import WebServer.Log.AsyncLogging
import WebServer.Log.BufferBounds
import WebServer.Log.Conservation
import WebServer.Log.DoubleBuffer
import WebServer.Log.LogFile
import WebServer.Log.LogStream
import WebServer.Log.NumberText
import WebServer.Log.Pipeline
import WebServer.Log.RecordEnd
import WebServer.Log.Stop
import WebServer.Loop.Acceptor
import WebServer.Loop.Attended
import WebServer.Loop.Balance
import WebServer.Loop.Conversation
import WebServer.Loop.Descriptors
import WebServer.Loop.EpollFailure
import WebServer.Loop.EventLoop
import WebServer.Loop.HalfClose
import WebServer.Loop.Lifetime
import WebServer.Loop.LoopThread
import WebServer.Loop.Ownership
import WebServer.Loop.Projection
import WebServer.Loop.Reaping
import WebServer.Loop.Registration
import WebServer.Loop.Server
import WebServer.Loop.Sweep
import WebServer.Loop.Timer
import WebServer.Loop.TimerManager
import WebServer.Loop.Wakeup
import WebServer.Pool.PoolLock
import WebServer.Pool.Progress
import WebServer.Pool.Shutdown
import WebServer.Pool.TaskQueue
import WebServer.Pool.ThreadPool
import WebServer.Pool.Wakeups
import WebServer.WebBench.Bench
import WebServer.WebBench.BenchCore
import WebServer.WebBench.BuildRequest
import WebServer.WebBench.Exchange
