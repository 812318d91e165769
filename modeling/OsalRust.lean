import OsalRust.Framework.Lts
import OsalRust.Framework.TaskPool
import OsalRust.Framework.WakeCredit
import OsalRust.Portable.ByteQueueRefinement
import OsalRust.Queue.Delivery
import OsalRust.FreeRtos.QueueSections
import OsalRust.FreeRtos.QueueInvariant
import OsalRust.FreeRtos.QueueLaws
import OsalRust.Posix.Queue
import OsalRust.Posix.QueueLaws
import OsalRust.Queue.ExactlyOnce
import OsalRust.Framework.Linearizability
import OsalRust.Shared.Runtime
import OsalRust.Shared.RuntimeInvariant
import OsalRust.Shared.RuntimeLaws
import OsalRust.Framework.LockDiscipline
import OsalRust.Portable.TimerState
import OsalRust.Timer.Registry
import OsalRust.Posix.Timer
import OsalRust.FreeRtos.Timer
import OsalRust.Mock.TimeRuntime
import OsalRust.Mock.Timer
import OsalRust.Timer.RegistryInvariant
import OsalRust.Timer.Dispatch
import OsalRust.Framework.Ownership
import OsalRust.Timer.RegistryCount
import OsalRust.Timer.Backend
import OsalRust.Timer.BackendInvariant
import OsalRust.Timer.BackendExchanges
import OsalRust.Timer.BackendLaws
import OsalRust.FreeRtos.Backend
import OsalRust.Posix.Backend
import OsalRust.Timer.Guarantees
import OsalRust.FreeRtos.BackendLaws
import OsalRust.Posix.BackendLaws
import OsalRust.Framework.WaitSet
import OsalRust.Posix.QueueWakeups
import OsalRust.Portable.CountingSemaphore
import OsalRust.Posix.Semaphore
import OsalRust.Framework.Fallible
import OsalRust.FreeRtos.Construction
import OsalRust.FreeRtos.ConstructionLaws
import OsalRust.Mock.Queue
import OsalRust.Queue.Equivalence
import OsalRust.Portable.TickTime
import OsalRust.FreeRtos.Wait
import OsalRust.FreeRtos.WaitLaws
import OsalRust.Blocking.Immediate
import OsalRust.Posix.Task
import OsalRust.Posix.TaskInvariant
import OsalRust.Posix.TaskLaws
import OsalRust.FreeRtos.Task
import OsalRust.FreeRtos.TaskLaws
import OsalRust.FreeRtos.WaitRounds
import OsalRust.FreeRtos.Delay
import OsalRust.Mock.Dispatch
import OsalRust.Portable.PeriodicTimer
import OsalRust.Timer.Starting
import OsalRust.Timer.Equivalence
import OsalRust.Task.Lease
import OsalRust.FreeRtos.TimerWait
import OsalRust.FreeRtos.Priority
import OsalRust.Framework.Memory
import OsalRust.FreeRtos.Allocator
import OsalRust.Posix.Sleep
import OsalRust.Framework.LazyInit
import OsalRust.Posix.OneTime
import OsalRust.Framework.Solo
import OsalRust.FreeRtos.Suspension
import OsalRust.FreeRtos.SuspensionLaws
