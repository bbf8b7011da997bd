import Dmerge.Descriptors.RoundTrip
import Dmerge.Foundation.FiniteMap
import Dmerge.Producer.AddressFidelity
import Dmerge.Kernel.Pushes
import Dmerge.Kernel.PullRace
import Dmerge.Kernel.ReplyMatching
import Dmerge.Kernel.PageFaults
import Dmerge.Kernel.Snapshot
import Dmerge.Kernel.Release
import Dmerge.Kernel.LockReturn
import Dmerge.Kernel.LockCycles
import Dmerge.Kernel.EagerFetch
import Dmerge.Kernel.RemoteRegistration
import Dmerge.Kernel.Lifecycle
import Dmerge.Workflow.Delivery
import Dmerge.Workflow.Storage
import Dmerge.Descriptors.Bounds
import Dmerge.Producer.HeapRun
import Dmerge.Kernel.QueryReplies
import Dmerge.Kernel.FetchCoverage
import Dmerge.Allocator.Growth
import Dmerge.Workflow.Training
import Dmerge.Allocator.Exhaustion
import Dmerge.Workflow.JavaSplitter
import Dmerge.Workflow.Gid
import Dmerge.Workflow.LogAnalyser
import Dmerge.Workflow.StageTimes
import Dmerge.Kernel.PageLedger
import Dmerge.Kernel.HintLives
import Dmerge.Kernel.DeploymentRefines
import Dmerge.Kernel.RepeatedReads
import Dmerge.Kernel.UserLibrary
import Dmerge.Kernel.RemoteObjects
import Dmerge.Kernel.WorkerBarrier
import Dmerge.Descriptors.Accepted
