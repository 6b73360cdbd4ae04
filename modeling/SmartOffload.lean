import SmartOffload.Lib.Machine
import SmartOffload.Lib.BoundedFifo
import SmartOffload.Lib.Ledger
import SmartOffload.Lib.SharedMemory
import SmartOffload.Lib.Heap
import SmartOffload.Lib.DecimalText
import SmartOffload.Lib.Toeplitz
import SmartOffload.Lib.Simulation
import SmartOffload.Lib.Translator
import SmartOffload.FlowKey
import SmartOffload.Packet
import SmartOffload.Nic
import SmartOffload.World
import SmartOffload.FlowEngine
import SmartOffload.Worker
import SmartOffload.AgedFlows
import SmartOffload.PortPool
import SmartOffload.System
import SmartOffload.Pairing
import SmartOffload.FlowCreation
import SmartOffload.PortExclusivity
import SmartOffload.FastPath
import SmartOffload.RuleOwnership
import SmartOffload.Queueing
import SmartOffload.Accounting
import SmartOffload.CounterGrowth
import SmartOffload.AgedBatch
import SmartOffload.Interleaving
import SmartOffload.Protocols
import SmartOffload.RulePorts
import SmartOffload.Dispatch
import SmartOffload.SymmetricRss
import SmartOffload.Calls
import SmartOffload.Publication
import SmartOffload.SharedFlow
import SmartOffload.ProcessLoop
import SmartOffload.KeyExtraction
import SmartOffload.TransmitMetadata
import SmartOffload.PktInfo
import SmartOffload.Teardown
import SmartOffload.DestroyHashMap
import SmartOffload.Initialization
import SmartOffload.PlannedCalls
import SmartOffload.AllOrNothing
import SmartOffload.WorkerPlan
import SmartOffload.TimeStat
import SmartOffload.HeapSort
import SmartOffload.MergePasses
import SmartOffload.SampleSort
import SmartOffload.ReportedFigures
import SmartOffload.IntegerRange
import SmartOffload.Translation
import SmartOffload.FlowHistory
import SmartOffload.HandleSoundness
import SmartOffload.EngineLoop
import SmartOffload.Serialisability
import SmartOffload.FirstFailure
import SmartOffload.ErrorText
import SmartOffload.LaunchOrder
import SmartOffload.Lifecycle
import SmartOffload.PortSetup
import SmartOffload.Lib.HashFold
import SmartOffload.ReplyHash
import SmartOffload.Device
