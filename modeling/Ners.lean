import Ners.Hpack.Refinement
import Ners.Hpack.RoundTrip
import Ners.Hpack.Safety
import Ners.H2.FrameStream
import Ners.H2.Continuation
import Ners.H2.SendCredit
import Ners.H2.ReceiveCredit
import Ners.H2.PeerSettings
import Ners.H2.Overflow
import Ners.H2.StreamLimit
import Ners.H2.Fitting
import Ners.H2.Repeat
import Ners.H2.Ready
import Ners.Server.Fifo
import Ners.Server.Spsc
import Ners.Server.SlabRuns
import Ners.Server.Isolation
import Ners.Server.Custody
import Ners.Server.Release
import Ners.Server.ShardRuns
import Ners.Server.ParseGauge
import Ners.Server.PipelineGauges
import Ners.Http.Body
import Ners.Tuning.Limits
import Ners.Tuning.Audit
import Ners.Tuning.Pace
import Ners.Tuning.Baseline
import Ners.Tuning.Contradiction
import Ners.Tuning.Throughput
import Ners.Tuning.Arithmetic
import Ners.Server.Latency
import Ners.Server.Timing
import Ners.Server.Numa
import Ners.Server.Placing
import Ners.Server.Sending
import Ners.Server.Courses
import Ners.Server.Rounds
import Ners.Server.Designs
import Ners.H2.Link
import Ners.Server.Threads
import Ners.Server.Completion
import Ners.Server.Counters
import Ners.Server.NodePlacing
import Ners.Ml.Freshness
import Ners.H2.Padding
import Ners.H2.Progress
import Ners.Hpack.IntegerRange
import Ners.Http.Lengths
import Ners.Http.Builder
import Ners.Http.Wire
import Ners.Base.Refinement
import Ners.Server.Accesses
import Ners.Server.Interleaving
import Ners.Server.Bursts
