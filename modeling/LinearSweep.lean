import LinearSweep.Main
import LinearSweep.Sweep.Session
import LinearSweep.Proofs.Delivery
import LinearSweep.Proofs.Fetching
import LinearSweep.Proofs.Cutting
import LinearSweep.Proofs.Splitting
import LinearSweep.Proofs.Recovery
import LinearSweep.Proofs.Relocation
import LinearSweep.Proofs.Loading
import LinearSweep.Proofs.Reports
import LinearSweep.Proofs.Joining
import LinearSweep.Proofs.Rows
import LinearSweep.Proofs.Addresses
import LinearSweep.Proofs.Defaults
import LinearSweep.Proofs.Literals
import LinearSweep.Proofs.Statuses
import LinearSweep.Proofs.Faults
import LinearSweep.Proofs.Outputs
import LinearSweep.Proofs.Records
import LinearSweep.Proofs.Readers
import LinearSweep.Proofs.Unpacking
import LinearSweep.Proofs.Dumps
import LinearSweep.Proofs.Sentinels
import LinearSweep.Proofs.Logs
import LinearSweep.Proofs.Rendering
import LinearSweep.Proofs.Fields
