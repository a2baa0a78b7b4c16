import Symbolication.Elf.Inspector
import Symbolication.Main
import Symbolication.Name.Display
import Symbolication.Pass.Symbolize
import Symbolication.Report
import Symbolication.Proofs.Remote.Servers
import Symbolication.Proofs.Pass.Session
import Symbolication.Proofs.Elf.Batching
import Symbolication.Proofs.Elf.Setting
import Symbolication.Proofs.Elf.LoadBias
import Symbolication.Proofs.Elf.FastLookup
import Symbolication.Proofs.Elf.Arrangement
import Symbolication.Proofs.Pass.ToleratedFaults
import Symbolication.Proofs.Remote.Exhaustion
import Symbolication.Proofs.Pass.Repetition
import Symbolication.Proofs.Profile.Storage
import Symbolication.Proofs.Pass.Independence
import Symbolication.Proofs.Remote.Marking
import Symbolication.Proofs.CommandLine.Loading
import Symbolication.Proofs.CommandLine.Persistence
import Symbolication.Proofs.Name.Remembering
import Symbolication.Proofs.Pass.Anew
import Symbolication.Proofs.Pass.Restoring
import Symbolication.Proofs.Name.Nesting
import Symbolication.Proofs.Profile.Spelling
import Symbolication.Proofs.Frame.Printing
import Symbolication.Proofs.Elf.Failing
import Symbolication.Proofs.Pass.Closing
import Symbolication.Proofs.Pass.Selection
import Symbolication.Proofs.Elf.History
import Symbolication.Proofs.Elf.Operands
import Symbolication.Proofs.Remote.Malformed
import Symbolication.Proofs.CommandLine.Delivery
import Symbolication.Proofs.Elf.Notes
import Symbolication.Proofs.Remote.Destinations
import Symbolication.Proofs.Profile.Sharing
import Symbolication.Proofs.Elf.SegmentChoice
