import Proto4.GoTinyframe.Interop
import Proto4.TinyFrame.Authentic
import Proto4.Lib.Lts
import Proto4.Lib.Keyed
import Proto4.Dfinder.Store
import Proto4.Dfinder.Server
import Proto4.Dfinder.Registry
import Proto4.Dfinder.ProbeLoop
import Proto4.Dfinder.Consistent
import Proto4.Dfinder.Races
import Proto4.PromProxy.Client
import Proto4.Tframe.Get
import Proto4.Replies
import Proto4.TinyFrame.Grammar
import Proto4.GoTinyframe.Writers
import Proto4.GoTinyframe.Readers
import Proto4.GoPromproxy.Encode
import Proto4.PromProxy.Histogram
import Proto4.PromProxy.Accounting
import Proto4.PromProxy.EndToEnd
import Proto4.Lib.JsonText
import Proto4.PromProxy.Answers
import Proto4.Dfinder.Connection
import Proto4.Dfinder.Cycle
import Proto4.PromProxy.Expansion
import Proto4.PromProxy.Complete
import Proto4.PromProxy.LabelOrder
import Proto4.PromProxy.EdgeTotals
import Proto4.Lib.HexText
import Proto4.PromProxy.SecretKey
import Proto4.TinyFrame.Panic
import Proto4.Dfinder.Client
import Proto4.Dfinder.Shutdown
import Proto4.Lib.CasLoop
import Proto4.TxIds
import Proto4.Lib.Protobuf
import Proto4.Lib.Lease
import Proto4.PromProxy.WriteRequest
import Proto4.PromProxy.Metrics
import Proto4.PromProxy.Reports
import Proto4.PromProxy.Arguments
import Proto4.Dfinder.Discovery
import Proto4.Dfinder.Leases
import Proto4.Dfinder.Progress
import Proto4.Tframe.Command
import Proto4.Pipe
