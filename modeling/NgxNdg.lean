import NgxNdg.Lib.Run
import NgxNdg.Lib.Ledger
import NgxNdg.Lib.Memory
import NgxNdg.Lib.Ownership
import NgxNdg.Lib.FirstMark
import NgxNdg.Lib.Loop
import NgxNdg.Lib.Decimal
import NgxNdg.Lib.ScopeTree
import NgxNdg.Lib.LinkRing
import NgxNdg.Lib.SearchTree
import NgxNdg.Lib.StableOrder
import NgxNdg.Lib.Directive
import NgxNdg.Lib.CallChain
import NgxNdg.Core.Buf
import NgxNdg.Core.Pool
import NgxNdg.Core.StreamSession
import NgxNdg.Filter.Model
import NgxNdg.Filter.Header
import NgxNdg.Filter.HeaderOnce
import NgxNdg.Filter.Body
import NgxNdg.Filter.Framing
import NgxNdg.Filter.NoTrace
import NgxNdg.Filter.Chain
import NgxNdg.Thread.Model
import NgxNdg.Thread.Balance
import NgxNdg.Balance.Model
import NgxNdg.Balance.Accounting
import NgxNdg.Balance.Retry
import NgxNdg.Balance.Tries
import NgxNdg.Balance.Choice
import NgxNdg.Subrequest.Model
import NgxNdg.Subrequest.Access
import NgxNdg.Subrequest.Once
import NgxNdg.Echo.Handler
import NgxNdg.Echo.EndMark
import NgxNdg.Http.Response
import NgxNdg.Conf.Model
import NgxNdg.Conf.Inheritance
import NgxNdg.Conf.Slot
import NgxNdg.Conf.Location
import NgxNdg.Conf.Effective
import NgxNdg.Conf.Stream
import NgxNdg.Upstream.Model
import NgxNdg.Upstream.Line
import NgxNdg.Upstream.Replay
import NgxNdg.StreamEcho.Model
import NgxNdg.StreamEcho.Session
import NgxNdg.StreamEcho.Lossless
import NgxNdg.Upstream.Connection
import NgxNdg.Upstream.EchoLoop
import NgxNdg.StreamDiscard.Model
import NgxNdg.StreamTime.Model
import NgxNdg.StreamTime.Answer
import NgxNdg.StreamTime.Line
import NgxNdg.Upstream.TimeServer
import NgxNdg.Http.Gateway
import NgxNdg.StreamWaiting
import NgxNdg.Output.EmptyBuf
import NgxNdg.Output.NullLink
import NgxNdg.Queue.Model
import NgxNdg.Queue.Insert
import NgxNdg.Each.Model
import NgxNdg.Each.Break
import NgxNdg.Queue.Refinement
import NgxNdg.Container.Model
import NgxNdg.Container.Refinement
import NgxNdg.Rbtree.Model
import NgxNdg.Rbtree.Lookup
import NgxNdg.Rbtree.Order
