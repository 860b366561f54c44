import SearchOverlay.Bytes
import SearchOverlay.Hash.Sha1
import SearchOverlay.Hash.Blake3
import SearchOverlay.Text.Utf8
import SearchOverlay.Query
import SearchOverlay.Text.Lowercase
import SearchOverlay.Contact
import SearchOverlay.RoutingTable.Codec
import SearchOverlay.Store
import SearchOverlay.Wire
import SearchOverlay.Snappy
import SearchOverlay.Message
import SearchOverlay.Store.Snapshot
import SearchOverlay.LocalNode
import SearchOverlay.Serving
import SearchOverlay.Activity
import SearchOverlay.Sync
import SearchOverlay.Simulation
import SearchOverlay.Host
import SearchOverlay.Proofs.Bucket.Held
import SearchOverlay.Proofs.Bucket.Overflow
import SearchOverlay.Proofs.RoutingTable.Operations
import SearchOverlay.Proofs.RoutingTable.Decoding
import SearchOverlay.Proofs.RoutingTable.Reachable
import SearchOverlay.Proofs.RoutingTable.RoundTrip
import SearchOverlay.Proofs.RoutingTable.Settled
import SearchOverlay.Proofs.Activity
import SearchOverlay.Proofs.Sync.Eviction
import SearchOverlay.Proofs.Sync.Calls
import SearchOverlay.Proofs.Sync.FirstSync
import SearchOverlay.Proofs.Lookup
import SearchOverlay.Proofs.Store.Pull
import SearchOverlay.Proofs.Wire.Lawful
import SearchOverlay.Proofs.Wire.RoundTrip
import SearchOverlay.Proofs.Wire.Frames
import SearchOverlay.Proofs.Serving.Responses
import SearchOverlay.Proofs.Serving.Remote
import SearchOverlay.Proofs.RoutingTable.Rebinding
import SearchOverlay.Proofs.Store.Redelivery
import SearchOverlay.Proofs.Store.Reopening
import SearchOverlay.Proofs.Serving.Refusals
import SearchOverlay.Proofs.Member.Blind
import SearchOverlay.Proofs.Member.Bookkeeping
import SearchOverlay.Proofs.Store.Growth
import SearchOverlay.Proofs.Store.Visibility
import SearchOverlay.Proofs.Serving.Batches
import SearchOverlay.Proofs.Swarm
import SearchOverlay.Proofs.RoutingTable.Closest
import SearchOverlay.Proofs.RoutingTable.Home
import SearchOverlay.Proofs.RoutingTable.Waiting
import SearchOverlay.Proofs.Store.Convergence
import SearchOverlay.Proofs.Member.RoutingFile
import SearchOverlay.Proofs.Sync.Marker
import SearchOverlay.Proofs.Bucket.Staleness
import SearchOverlay.Proofs.Bucket.Others
import SearchOverlay.Proofs.RoutingTable.Displacement
import SearchOverlay.Proofs.Store.Votes
import SearchOverlay.Proofs.Store.Rounds
import SearchOverlay.Proofs.Store.Search
