import Thaw.Main
import Thaw.Proofs.Text.Octets
import Thaw.Proofs.Text.Split
import Thaw.Proofs.Text.Slice
import Thaw.Proofs.Text.Words
import Thaw.Proofs.Parameters.Writing
import Thaw.Proofs.Parameters.HandOver
import Thaw.Proofs.Parameters.Properties
import Thaw.Proofs.Parameters.Recount
import Thaw.Proofs.Environment.Entries
import Thaw.Proofs.Resume.Payload
import Thaw.Proofs.Restore.Export
import Thaw.Proofs.Registry.Map
import Thaw.Proofs.Registry.Threads
import Thaw.Proofs.Ledger.Arrangement
import Thaw.Proofs.Ledger.Vouching
import Thaw.Proofs.Ledger.Commuting
import Thaw.Proofs.Ledger.Extensions
import Thaw.Proofs.Ledger.Folding
import Thaw.Proofs.Ledger.Removed
import Thaw.Proofs.Machine.StatusFlags
import Thaw.Proofs.Settings.Rules
import Thaw.Proofs.Socket.Host
import Thaw.Proofs.Socket.Table
import Thaw.Proofs.Classification.Exemption
import Thaw.Proofs.Classification.Monotone
import Thaw.Proofs.Classification.OpenFiles
import Thaw.Proofs.Classification.Sockets
import Thaw.Proofs.Phase.Path
import Thaw.Proofs.Session.Attempts
import Thaw.Proofs.Session.Directory
import Thaw.Proofs.Session.Clock
import Thaw.Proofs.Segment.Transfer
