import RoutingFabric.BlockGraph.Builder
import RoutingFabric.Main
import RoutingFabric.Proofs.Bitstream.Assembly
import RoutingFabric.Proofs.Box.Threads
import RoutingFabric.Proofs.Cluster.MissingDriver
import RoutingFabric.Proofs.Cluster.Moves
import RoutingFabric.Proofs.Fabric.Convergence
import RoutingFabric.Proofs.Fabric.Preparing
import RoutingFabric.Proofs.Fabric.Stale
import RoutingFabric.Proofs.Fabric.Trees
import RoutingFabric.Proofs.Bitstream.Chain
import RoutingFabric.Proofs.Bitstream.Partition
import RoutingFabric.Proofs.Json.RoundTrip
import RoutingFabric.Proofs.Json.Record
import RoutingFabric.Proofs.Snapshot.RoundTrip
import RoutingFabric.Proofs.Files.Folder
import RoutingFabric.Proofs.Safety
import RoutingFabric.Proofs.Cluster.Checked
import RoutingFabric.Proofs.Cluster.Faults
import RoutingFabric.Proofs.RoutingGraph.Faults
import RoutingFabric.Proofs.Fabric.Faults
import RoutingFabric.Proofs.Fabric.Words
import RoutingFabric.Proofs.Cluster.DriverCycle
import RoutingFabric.Proofs.Cluster.FirstMatch
import RoutingFabric.Proofs.Fabric.Identities
import RoutingFabric.Proofs.Fabric.Reordering
import RoutingFabric.Proofs.Mux.Basis
import RoutingFabric.Proofs.Mux.Decoding
import RoutingFabric.Proofs.Mux.Padding
import RoutingFabric.Proofs.Cluster.ClosedForm
import RoutingFabric.Proofs.Cluster.Agreement
import RoutingFabric.Proofs.RoutingGraph.Inverse
import RoutingFabric.Proofs.Box.Listings
import RoutingFabric.Proofs.Box.FirstTiles
import RoutingFabric.Proofs.Fabric.Subtrees
import RoutingFabric.Proofs.BlockGraph.Building
import RoutingFabric.Proofs.BlockGraph.Multiplexers
import RoutingFabric.Proofs.BlockGraph.Names
import RoutingFabric.Proofs.Listed
import RoutingFabric.Proofs.Cluster.Complete
import RoutingFabric.Proofs.Fabric.Divergence
import RoutingFabric.Proofs.Export.Pins
import RoutingFabric.Proofs.Export.Blocks
import RoutingFabric.Proofs.RoutingGraph.Places
import RoutingFabric.Proofs.Cluster.Ending
