import Inventory.CommandLine.Disk
import Inventory.Main
import Inventory.Proofs.Allocation
import Inventory.Proofs.Amounts
import Inventory.Proofs.Callbacks
import Inventory.Proofs.ChangeLog
import Inventory.Proofs.CommandLine.Database
import Inventory.Proofs.Config
import Inventory.Proofs.Consistency
import Inventory.Proofs.Deferral
import Inventory.Proofs.Drift
import Inventory.Proofs.Forest
import Inventory.Proofs.Interference
import Inventory.Proofs.Isolation
import Inventory.Proofs.Key.Format
import Inventory.Proofs.Key.Lineage
import Inventory.Proofs.Linearization
import Inventory.Proofs.Memberships
import Inventory.Proofs.PathCreation
import Inventory.Proofs.Preorder
import Inventory.Proofs.Reassignments
import Inventory.Proofs.Recovery
import Inventory.Proofs.Refusals
import Inventory.Proofs.Selection
import Inventory.Proofs.Subtrees
import Inventory.Proofs.Transparency
import Inventory.Session.Basic
