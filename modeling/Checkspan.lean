import Checkspan.Exclusion
import Checkspan.Coverage
import Checkspan.Sessions
import Checkspan.Views
import Checkspan.Usability
import Checkspan.Retries
import Checkspan.GateWaits
import Checkspan.Origins
import Checkspan.Manifests
import Checkspan.NodeRuns
import Checkspan.CycleReports
import Checkspan.Selection
import Checkspan.Lone
import Checkspan.Stranding
import Checkspan.Packets
import Checkspan.Issuance
import Checkspan.Records
import Checkspan.Candidates
import Checkspan.Snapshots
import Checkspan.Narrowings
import Checkspan.InputDigests
import Checkspan.RecordIds
import Checkspan.Instants
import Checkspan.StrictJson
import Checkspan.SoftwareVerifier
import Checkspan.FrozenManifests
import Checkspan.EventLogs
import Checkspan.Cancellations
import Checkspan.Documents
import Checkspan.WorkTrees
import Checkspan.PolicySteps
import Checkspan.PatchVerifier
import Checkspan.Artifacts
import Checkspan.Containment
import Checkspan.Database
import Checkspan.FileReads
import Checkspan.HostRuns
import Checkspan.LedgerStatements
import Checkspan.Reports
import Checkspan.SealedBytes
import Checkspan.GitOutputs
