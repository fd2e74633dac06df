import DsAmq.Library.AtLeastOnce
import DsAmq.Model.Delivery
import DsAmq.Analysis.AckDiscipline
import DsAmq.Analysis.ClientAck
import DsAmq.Analysis.FailedRun
import DsAmq.Library.Scan
import DsAmq.Model.Producer
import DsAmq.Model.ProducerPool
import DsAmq.Model.ProducerPoolMgr
import DsAmq.Model.SendSystem
import DsAmq.Analysis.CreatedPool
import DsAmq.Analysis.SendSteps
import DsAmq.Analysis.ExclusiveUse
import DsAmq.Analysis.FaithfulSend
import DsAmq.Analysis.MgrConnection
import DsAmq.Analysis.SessionPoolTruth
import DsAmq.Analysis.ReleasedConnection
import DsAmq.Analysis.SendMutex
import DsAmq.Analysis.StartedFlag
import DsAmq.Model.ConsumerPool
import DsAmq.Model.PoolSystem
import DsAmq.Analysis.PoolTasks
import DsAmq.Analysis.PoolCalls
import DsAmq.Analysis.StartTruth
import DsAmq.Analysis.PoolSize
import DsAmq.Analysis.WholeConnect
import DsAmq.Analysis.WholeStart
import DsAmq.Analysis.ConnectionOwner
import DsAmq.Library.FirstFit
import DsAmq.Model.PoolLife
import DsAmq.Analysis.FirstFitPool
import DsAmq.Analysis.PoolLifeCycle
import DsAmq.Analysis.StartResources
import DsAmq.Analysis.ResourcemgrOnce
import DsAmq.Analysis.FailedStart
import DsAmq.Analysis.SecondStart
import DsAmq.Analysis.TaskIds
import DsAmq.Analysis.SlotReturn
import DsAmq.Library.Unwinding
import DsAmq.Model.Process
import DsAmq.Analysis.PoolFrame
import DsAmq.Analysis.ProcessSteps
import DsAmq.Analysis.Restart
import DsAmq.Analysis.PoolIsolation
import DsAmq.Analysis.CreateOverloads
import DsAmq.Analysis.LastError
import DsAmq.Analysis.SessionReturn
import DsAmq.Analysis.SizeGuard
import DsAmq.Analysis.ConfiguredSend
import DsAmq.Library.Sweep
import DsAmq.Analysis.CursorSweep
import DsAmq.Analysis.PoolBounds
import DsAmq.Analysis.SendProgress
import DsAmq.Analysis.NoOverflow
import DsAmq.Library.OpenQueue
import DsAmq.Model.Pipeline
import DsAmq.Analysis.Conservation
import DsAmq.Library.OwnedHeap
import DsAmq.Model.StopSystem
import DsAmq.Analysis.StopCleanly
import DsAmq.Analysis.ExampleProgram
import DsAmq.Analysis.StopProgress
import DsAmq.Model.Deployment
import DsAmq.Analysis.DeployedTasks
import DsAmq.Analysis.EndToEnd
import DsAmq.Analysis.DeploymentEnds
import DsAmq.Analysis.SerialSends
