import NetOnChip.Main
import NetOnChip.Proofs.Anneal.Sharing
import NetOnChip.Proofs.Benchmark.Extent
import NetOnChip.Proofs.Cost.Normalization
import NetOnChip.Proofs.Random.Patience
import NetOnChip.Proofs.Route.Confluence
import NetOnChip.Proofs.Route.Validity
import NetOnChip.Proofs.Routing.Contract
import NetOnChip.Proofs.Routing.Mesh
import NetOnChip.Proofs.Routing.Optimal
import NetOnChip.Proofs.Routing.Turn
import NetOnChip.Proofs.Topology.Grid
import NetOnChip.Proofs.Tracker.Agreement
import NetOnChip.Proofs.Tracker.Cache
import NetOnChip.Proofs.Tracker.Certificate
import NetOnChip.Proofs.Tracker.Evaluate
import NetOnChip.Proofs.Tracker.Marks
import NetOnChip.Proofs.Tracker.Retry
import NetOnChip.Proofs.Tracker.Safety
import NetOnChip.Proofs.Traffic.Entries
