import GuestCompiler.Build.Machine
import GuestCompiler.ConfDir
import GuestCompiler.Proofs.Absorbing
import GuestCompiler.Proofs.BootOrder
import GuestCompiler.Proofs.BuildErrors
import GuestCompiler.Proofs.Capacity
import GuestCompiler.Proofs.Collisions
import GuestCompiler.Proofs.Containment
import GuestCompiler.Proofs.EmissionOrder
import GuestCompiler.Proofs.FirmwareNodes
import GuestCompiler.Proofs.Framing
import GuestCompiler.Proofs.Growth
import GuestCompiler.Proofs.Records
import GuestCompiler.Proofs.Resolved
import GuestCompiler.Proofs.Separators
import GuestCompiler.Proofs.RefusedVolumes
import GuestCompiler.Proofs.BootFlags
import GuestCompiler.Proofs.Handles
import GuestCompiler.Proofs.ReadOnlyNodes
import GuestCompiler.Proofs.LinkNames
import GuestCompiler.Proofs.SocketPaths
import GuestCompiler.Proofs.Monitors
import GuestCompiler.Proofs.Tokens
import GuestCompiler.Proofs.HardwareAddresses
import GuestCompiler.Proofs.Endpoints
import GuestCompiler.Proofs.Ports
import GuestCompiler.Proofs.SeededIdentities
import GuestCompiler.Proofs.BlockChains
import GuestCompiler.Proofs.FamilyIds
import GuestCompiler.Proofs.SummaryLines
import GuestCompiler.Proofs.CatalogLoading
