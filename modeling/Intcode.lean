import Intcode.Main
import Intcode.Port.Bounded
import Intcode.Port.Queue
import Intcode.Toolkit.Session
import Intcode.Proofs.Command
import Intcode.Proofs.Memory
import Intcode.Proofs.Reference
import Intcode.Proofs.Step
import Intcode.Proofs.Atomicity
import Intcode.Proofs.Budget
import Intcode.Proofs.Extension
import Intcode.Proofs.Conservation
import Intcode.Proofs.Ports
import Intcode.Proofs.Feeding
import Intcode.Proofs.Trace
import Intcode.Proofs.Transparency
import Intcode.Proofs.Interchange
import Intcode.Proofs.Lifecycle
import Intcode.Proofs.Safety
import Intcode.Proofs.ProgramText
import Intcode.Proofs.Sweep
import Intcode.Proofs.Reload
import Intcode.Proofs.Decoding
import Intcode.Proofs.Grammar
import Intcode.Proofs.CommandLine
import Intcode.Proofs.Journal
import Intcode.Proofs.RunCommand
import Intcode.Proofs.Status
import Intcode.Proofs.Encoding
import Intcode.Proofs.Partition
import Intcode.Proofs.Flow
import Intcode.Proofs.ReadBack
import Intcode.Proofs.Histogram
import Intcode.Proofs.Utf8
import Intcode.Proofs.Load
import Intcode.Proofs.Assembly
import Intcode.Proofs.Store
import Intcode.Proofs.Dump
import Intcode.Proofs.Reach
import Intcode.Proofs.Tree
import Intcode.Proofs.DottedName
import Intcode.Proofs.Register
import Intcode.Proofs.Lineage
import Intcode.Proofs.Ledger
import Intcode.Proofs.Retry
import Intcode.Proofs.Delivery
import Intcode.Proofs.Breakdown
