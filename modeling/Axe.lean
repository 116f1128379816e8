import Axe.Channel.LostWakeups
import Axe.Channel.Claims
import Axe.Thread.Interrupts
import Axe.Thread.Writes
import Axe.System.GroupPassing
import Axe.System.SingleStep
import Axe.Core.WatchRuns
import Axe.Core.IssueModes
import Axe.System.RunnableOrder
import Axe.Thread.Transfers
import Axe.Instruction.Coverage
import Axe.Instruction.Aliases
import Axe.Instruction.LongArithmetic
import Axe.Instruction.Zips
import Axe.System.ClockRuns
import Axe.Switch.Senders
import Axe.Port.Wiring
import Axe.Port.ClockChanges
import Axe.Port.ShiftCounts
import Axe.System.EventLists
import Axe.Switch.NodeIDs
import Axe.Jit.Reclaiming
import Axe.Core.MemoryAccess
import Axe.System.TimerRuns
import Axe.Port.Shifts
import Axe.System.Locks
import Axe.Instruction.BranchTargets
import Axe.Port.FrequencyChanges
import Axe.Boot.Sequencer
import Axe.Boot.DoneCalls
import Axe.Boot.Descriptors
import Axe.Boot.XEFiles
import Axe.Boot.TrapInfo
import Axe.Boot.CommandLine
import Axe.Peripheral.EthernetLoopback
import Axe.Peripheral.UartRx
import Axe.Peripheral.PortArg
import Axe.Channel.RingBuffer
import Axe.Peripheral.SPIFlash
import Axe.Instruction.CodeStrings
import Axe.Peripheral.WaveformTracer
