import TinyOs.Library.Machine
import TinyOs.Scheduler
import TinyOs.SchedulerInvariant
import TinyOs.SchedulerSwitch
import TinyOs.SchedulerSafety
import TinyOs.Library.StableQueue
import TinyOs.TimeoutList
import TinyOs.TimedWait
import TinyOs.Selection
import TinyOs.Population
import TinyOs.DecisionCount
import TinyOs.Library.Ring
import TinyOs.IntrusiveList
import TinyOs.SpliceLaw
import TinyOs.RlistReverse
import TinyOs.QueueIndices
import TinyOs.CondVar
import TinyOs.CondVarInvariant
import TinyOs.CondVarWakeups
import TinyOs.WaitRing
import TinyOs.Monitor
import TinyOs.MonitorSafety
import TinyOs.KernelSys
import TinyOs.Library.FreeList
import TinyOs.Library.Forest
import TinyOs.ProcessTree
import TinyOs.Census
import TinyOs.KernelCases
import TinyOs.KernelCensus
import TinyOs.KernelRoster
import TinyOs.KernelBoot
import TinyOs.ProcessSafety
import TinyOs.ProcessTreeSafety
import TinyOs.Library.Counting
import TinyOs.FileTable
import TinyOs.Library.UpdateAll
import TinyOs.FcbReserve
import TinyOs.StreamSafety
import TinyOs.Joins
import TinyOs.JoinSafety
import TinyOs.Symposium
import TinyOs.SymposiumSafety
import TinyOs.KernelExit
import TinyOs.Termination
import TinyOs.WaitSafety
import TinyOs.JoinMoves
import TinyOs.Joinability
import TinyOs.Detachment
import TinyOs.ThreadIdentity
import TinyOs.Library.Terminated
import TinyOs.ArgVector
import TinyOs.ProcessArguments
import TinyOs.Execute
import TinyOs.PtcbLifetime
import TinyOs.ExitStatus
import TinyOs.Recycling
import TinyOs.Preemption
import TinyOs.LockDiscipline
import TinyOs.SpinSafety
import TinyOs.CoreHalt
import TinyOs.HaltSafety
import TinyOs.SerialDevice
import TinyOs.SerialSafety
import TinyOs.ProcInfo
import TinyOs.RlistSelect
import TinyOs.Exceptions
import TinyOs.ExceptionSafety
import TinyOs.ExceptionPropagation
import TinyOs.ShellLine
import TinyOs.ShellLineSafety
import TinyOs.ShellFiles
import TinyOs.ParseIntList
import TinyOs.ParseIntListSafety
import TinyOs.Library.Fragmented
import TinyOs.RemoteSession
import TinyOs.RemoteSessionSafety
import TinyOs.RemoteServer
import TinyOs.RemoteServerSafety
import TinyOs.Isolation
import TinyOs.UserProgram
import TinyOs.ProgramFiles
import TinyOs.BootShell
import TinyOs.ShellPrograms
import TinyOs.Library.Barrier
import TinyOs.VmBoot
import TinyOs.VmBootSafety
import TinyOs.VmBootReturn
import TinyOs.Library.PriorityQueue
import TinyOs.Overtaking
import TinyOs.PicDaemon
import TinyOs.TermProxy
import TinyOs.Library.Sections
import TinyOs.MonitorSections
import TinyOs.MonitorAtomicity
import TinyOs.PcbSections
