import ServiceDirectory.Cache
import ServiceDirectory.Codec.Latency
import ServiceDirectory.Codec.Settings
import ServiceDirectory.Codec.Status
import ServiceDirectory.Json.Sorted
import ServiceDirectory.Rehearsal.Play
import ServiceDirectory.Proofs.Connection.Quiet
import ServiceDirectory.Proofs.Connection.Moves
import ServiceDirectory.Proofs.Connection.Completions
import ServiceDirectory.Proofs.Connection.Sends
import ServiceDirectory.Proofs.Connection.Numbers
import ServiceDirectory.Proofs.Connection.Custody
import ServiceDirectory.Proofs.Connection.Turns
import ServiceDirectory.Proofs.Connection.Phases
import ServiceDirectory.Proofs.Connection.Conservation
import ServiceDirectory.Proofs.Connection.Backlog
import ServiceDirectory.Proofs.Connection.Pairing
import ServiceDirectory.Proofs.Connection.Protocol
import ServiceDirectory.Proofs.Connection.Sessions
import ServiceDirectory.Proofs.Connection.Line
import ServiceDirectory.Proofs.Connection.Order
import ServiceDirectory.Proofs.Connection.Statuses
import ServiceDirectory.Proofs.Connection.Waits
import ServiceDirectory.Proofs.Connection.Causes
import ServiceDirectory.Proofs.Connection.Wrapping
import ServiceDirectory.Proofs.Roster
import ServiceDirectory.Proofs.Connection.Strides
import ServiceDirectory.Proofs.Connection.Rejections
import ServiceDirectory.Proofs.Cache.Revisions
import ServiceDirectory.Proofs.Dictionary
import ServiceDirectory.Proofs.Cache.Runs
import ServiceDirectory.Proofs.Cache.Views
import ServiceDirectory.Proofs.Cache.Redelivery
import ServiceDirectory.Proofs.Framing
import ServiceDirectory.Proofs.Json.Reading
import ServiceDirectory.Proofs.Json.Records
import ServiceDirectory.Proofs.Codec.RoundTrip
import ServiceDirectory.Proofs.Connection.Failover
import ServiceDirectory.Proofs.Connection.Reconnects
import ServiceDirectory.Proofs.Connection.Calls
import ServiceDirectory.Proofs.Connection.Closing
import ServiceDirectory.Proofs.Connection.Consistency
import ServiceDirectory.Proofs.Connection.Places
import ServiceDirectory.Proofs.Connection.Dispatching
import ServiceDirectory.Proofs.Connection.Tidings
import ServiceDirectory.Proofs.Connection.Clocks
import ServiceDirectory.Proofs.Connection.Keepalive
import ServiceDirectory.Proofs.Balancer.Rotation
import ServiceDirectory.Proofs.Balancer.Polls
import ServiceDirectory.Proofs.Framing.Truncation
import ServiceDirectory.Proofs.Connection.Inbound
import ServiceDirectory.Proofs.Cache.Contents
import ServiceDirectory.Proofs.Cache.Attachment
import ServiceDirectory.Proofs.Cache.Independence
import ServiceDirectory.Proofs.Identity
import ServiceDirectory.Proofs.Connection.Records
import ServiceDirectory.Proofs.Connection.Latencies
import ServiceDirectory.Proofs.Codec.Disjoint
import ServiceDirectory.Proofs.Roster.Avoidance
import ServiceDirectory.Proofs.Connection.FirstSearches
import ServiceDirectory.Proofs.Connection.Deadlines
import ServiceDirectory.Proofs.Roster.Rotation
import ServiceDirectory.Proofs.Cache.Replacement
import ServiceDirectory.Proofs.Cache.Heartbeats
import ServiceDirectory.Proofs.Balancer.Health
import ServiceDirectory.Proofs.Connection.Finality
import ServiceDirectory.Proofs.Template
import ServiceDirectory.Proofs.Blank
import ServiceDirectory.Proofs.Endpoint
import ServiceDirectory.Proofs.Failure
import ServiceDirectory.Proofs.Endpoint.ReadBack
import ServiceDirectory.Proofs.Metrics.Recording
import ServiceDirectory.Proofs.Metrics.Bins
import ServiceDirectory.Proofs.Metrics.Percentiles
