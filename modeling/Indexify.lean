import Indexify.DataModel.HostArithmetic
import Indexify.DataModel.ExecutorCatalog
import Indexify.StateStore.CommandGaps
import Indexify.ExecutorApi.FailureRouting
import Indexify.ExecutorApi.LateReports
import Indexify.ExecutorApi.RouteChains
import Indexify.Processor.SandboxRuns
import Indexify.StateStore.PendingResources
import Indexify.StateStore.MemoryDeletion
import Indexify.Processor.PoolPersistence
import Indexify.Scheduler.BlockedIndexes
import Indexify.Processor.SharedCache
import Indexify.ExecutorApi.RouteRaces
import Indexify.Processor.Registration
import Indexify.ExecutorApi.StartupCleanup
import Indexify.Processor.ContainerLimits
import Indexify.Processor.ApplicationProcessor
import Indexify.Executors.CommandHistory
import Indexify.Processor.CronLoop
import Indexify.StateStore.InvocationPayloads
import Indexify.Dataplane.AllocationOutcomes
import Indexify.Dataplane.UploadRuns
import Indexify.Dataplane.LogEntryOrder
import Indexify.Dataplane.StreamCursors
import Indexify.ExecutorApi.MalformedReports
import Indexify.Processor.ApplicationDeletion
import Indexify.Dataplane.DeltaSnapshots
import Indexify.Processor.RequestStateChanges
import Indexify.Processor.CallCreation
import Indexify.Dataplane.CodeCache
import Indexify.Dataplane.BaseImage
import Indexify.Processor.PoolArithmetic
import Indexify.Processor.UsageProcessor
import Indexify.Dataplane.FunctionCallReconciler
import Indexify.Dataplane.OutputStream
import Indexify.StateStore.RequestListing
import Indexify.Dataplane.StateOperations
import Indexify.Dataplane.VmStart
import Indexify.Dataplane.StateKeys
import Indexify.ExecutorApi.StoredRequests
import Indexify.Processor.Reaping
import Indexify.Dataplane.ReportProgress
import Indexify.Dataplane.S3Transfer
