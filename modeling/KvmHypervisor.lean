import KvmHypervisor.Transitions
import KvmHypervisor.Transducers
import KvmHypervisor.SharedBuffer
import KvmHypervisor.Calls
import KvmHypervisor.PortIo
import KvmHypervisor.Threads
import KvmHypervisor.Acceptance
import KvmHypervisor.History
import KvmHypervisor.RoundInvariant
import KvmHypervisor.Acknowledgments
import KvmHypervisor.Representation
import KvmHypervisor.Stopping
import KvmHypervisor.Wakeups
import KvmHypervisor.ExitLoop
import KvmHypervisor.ConsoleOutput
import KvmHypervisor.CommandLine
import KvmHypervisor.Paging
import KvmHypervisor.AddressSpace
import KvmHypervisor.Reads
import KvmHypervisor.Blocking
import KvmHypervisor.ReferenceGuests
import KvmHypervisor.ReferencePhases
import KvmHypervisor.ReferenceRuns
import KvmHypervisor.Transfers
import KvmHypervisor.Deadlocks
import KvmHypervisor.PosixFiles
import KvmHypervisor.FileIo
import KvmHypervisor.PrivateCopies
import KvmHypervisor.RequestCases
import KvmHypervisor.FileRuns
import KvmHypervisor.PrivateData
import KvmHypervisor.Descriptors
import KvmHypervisor.BackedEntries
import KvmHypervisor.FaultlessRequests
import KvmHypervisor.RejectedRequests
import KvmHypervisor.SharedConfiguration
import KvmHypervisor.FreshSharing
import KvmHypervisor.SharedOriginals
import KvmHypervisor.PrivateFiles
import KvmHypervisor.PrivateView
import KvmHypervisor.LazyCopies
import KvmHypervisor.DefaultGuests
import KvmHypervisor.DefaultTransfers
import KvmHypervisor.DefaultFiles
import KvmHypervisor.ReaderFiles
import KvmHypervisor.BoundedMemory
import KvmHypervisor.FileExits
import KvmHypervisor.GuestAccess
import KvmHypervisor.NestedCalls
import KvmHypervisor.NestedRequests
import KvmHypervisor.AllOrNothing
import KvmHypervisor.ArgumentGrammar
import KvmHypervisor.DescriptorNumbers
import KvmHypervisor.PosixPaths
import KvmHypervisor.GuestFileNames
import KvmHypervisor.OwnedHandles
import KvmHypervisor.VmLifecycle
import KvmHypervisor.VmResources
import KvmHypervisor.VmSetup
import KvmHypervisor.Simulations
import KvmHypervisor.WholeProgram
import KvmHypervisor.LoopTasks
import KvmHypervisor.ProgramThreads
import KvmHypervisor.ProgramViews
import KvmHypervisor.FileViews
import KvmHypervisor.LastWords
import KvmHypervisor.ProgramConsole
import KvmHypervisor.ExitStatus
import KvmHypervisor.ProgramResults
import KvmHypervisor.BootedProgram
import KvmHypervisor.GuestAlignment
import KvmHypervisor.GuestInterrupts
import KvmHypervisor.GuestRefinement
import KvmHypervisor.GuestRoles
import KvmHypervisor.GuestConsole
import KvmHypervisor.GuestReads
import KvmHypervisor.GuestResults
