import Overlay.Cluster.Manifest
import Overlay.Main
import Overlay.Metrics.Exposition
import Overlay.Network.Http
import Overlay.Watch.Session
import Overlay.Proofs.Net.RoundTrip
import Overlay.Proofs.Network.Addressing
import Overlay.Proofs.Network.Body
import Overlay.Proofs.Network.Endpoint
import Overlay.Proofs.Network.Trace
import Overlay.Proofs.Sync.Atomicity
import Overlay.Proofs.Sync.Orphans
import Overlay.Proofs.Sync.Refinement
import Overlay.Proofs.Sync.Teardown
import Overlay.Proofs.Translation.Expansion
import Overlay.Proofs.Translation.Interference
import Overlay.Proofs.Translation.Naming
import Overlay.Proofs.Translation.PodRoute
import Overlay.Proofs.Translation.References
import Overlay.Proofs.Translation.Relocation
import Overlay.Proofs.Translation.Replacement
import Overlay.Proofs.Translation.Restart
import Overlay.Proofs.Translation.Traffic
import Overlay.Proofs.Watch.ClientKeys
import Overlay.Proofs.Watch.Listing
import Overlay.Proofs.Watch.Redelivery
import Overlay.Proofs.Watch.Retries
import Overlay.Proofs.Watch.Schedule
import Overlay.Proofs.Watch.Simulation
