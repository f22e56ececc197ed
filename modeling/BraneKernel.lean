import BraneKernel.Acpi
import BraneKernel.Ai.Insights
import BraneKernel.Block.Agreement
import BraneKernel.Brane.Announce
import BraneKernel.Brane.Arrivals
import BraneKernel.Brane.Connections
import BraneKernel.Brane.Handshake
import BraneKernel.Brane.Link
import BraneKernel.Brane.Nonces
import BraneKernel.Brane.Stream
import BraneKernel.Brane.WireSafety
import BraneKernel.Fat32.Hostile
import BraneKernel.Fat32.Reachable
import BraneKernel.Ipc.Fifo
import BraneKernel.Memory.Pins
import BraneKernel.Memory.Usable
import BraneKernel.Memory.Walk
import BraneKernel.ModuleLoader.Dependencies
import BraneKernel.Pci.Arming
import BraneKernel.Pci.CapabilityChain
import BraneKernel.Pci.Encoders
import BraneKernel.Pci.MsixTable
import BraneKernel.Pci.Probe
import BraneKernel.Process.Lifetime
import BraneKernel.RamFs.Contents
import BraneKernel.RamFs.Creation
import BraneKernel.RamFs.Listing
import BraneKernel.RamFs.Tree
import BraneKernel.Sched.Balance
import BraneKernel.Sched.Conservation
import BraneKernel.Sched.Pointers
import BraneKernel.Sched.RoundRobin
import BraneKernel.Sched.SingleRunner
import BraneKernel.Sched.Switch
import BraneKernel.Smp.Bringup
import BraneKernel.Smp.Discovery
import BraneKernel.Syscall.History
import BraneKernel.Syscall.Nesting
import BraneKernel.Syscall.Returns
import BraneKernel.Syscall.SignalNumbers
import BraneKernel.Tty.Lines
import BraneKernel.Usermode.Result
import BraneKernel.Vfs.Resolve
import BraneKernel.Virtio.Completions
import BraneKernel.Xhci.CommandRing
import BraneKernel.Xhci.Delivery
import BraneKernel.Xhci.HidKeyboard
import BraneKernel.Xhci.MassStorage
import BraneKernel.Xhci.Service
import BraneKernel.Xhci.SleepCycles
