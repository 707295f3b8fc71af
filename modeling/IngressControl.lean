import IngressControl.Document.OfJson
import IngressControl.Main
import IngressControl.Metrics
import IngressControl.Proofs.Alarm.Digest
import IngressControl.Proofs.Alarm.Thresholds
import IngressControl.Proofs.Attempt
import IngressControl.Proofs.Certificate.Preference
import IngressControl.Proofs.Certificate.Ranking
import IngressControl.Proofs.Certificate.Search
import IngressControl.Proofs.Certificate.Selection
import IngressControl.Proofs.Certificate.Sharing
import IngressControl.Proofs.Cloud
import IngressControl.Proofs.Cloud.Calls
import IngressControl.Proofs.Constancy
import IngressControl.Proofs.Convergence
import IngressControl.Proofs.Decimal.Interval
import IngressControl.Proofs.Decimal.Layout
import IngressControl.Proofs.Decimal.Rounding
import IngressControl.Proofs.Decimal.Shortest
import IngressControl.Proofs.Descriptor.Members
import IngressControl.Proofs.Descriptor.Occupancy
import IngressControl.Proofs.Descriptor.Recall
import IngressControl.Proofs.Descriptor.Record
import IngressControl.Proofs.Descriptor.Settled
import IngressControl.Proofs.Endpoint.Identity
import IngressControl.Proofs.Expiry
import IngressControl.Proofs.Identity
import IngressControl.Proofs.Instant.Calendar
import IngressControl.Proofs.Instant.Digits
import IngressControl.Proofs.Instant.Grace
import IngressControl.Proofs.Instant.Stamp
import IngressControl.Proofs.Json.Compact
import IngressControl.Proofs.Json.Quoted
import IngressControl.Proofs.Legibility
import IngressControl.Proofs.Neighbours
import IngressControl.Proofs.Pairs
import IngressControl.Proofs.Pass.Alarms
import IngressControl.Proofs.Pass.Blame
import IngressControl.Proofs.Pass.Bookkeeping
import IngressControl.Proofs.Pass.Comparison
import IngressControl.Proofs.Pass.Continuity
import IngressControl.Proofs.Pass.Cutover
import IngressControl.Proofs.Pass.Delivery
import IngressControl.Proofs.Pass.Demand
import IngressControl.Proofs.Pass.Effect
import IngressControl.Proofs.Pass.Foreign
import IngressControl.Proofs.Pass.Handling
import IngressControl.Proofs.Pass.Homecoming
import IngressControl.Proofs.Pass.Legibility
import IngressControl.Proofs.Pass.Membership
import IngressControl.Proofs.Pass.Neighbours
import IngressControl.Proofs.Pass.Outcome
import IngressControl.Proofs.Pass.Overhaul
import IngressControl.Proofs.Pass.Registration
import IngressControl.Proofs.Pass.Rehearsal
import IngressControl.Proofs.Pass.Removal
import IngressControl.Proofs.Pass.Renewal
import IngressControl.Proofs.Pass.Reporting
import IngressControl.Proofs.Pass.Resolution
import IngressControl.Proofs.Pass.Retirement
import IngressControl.Proofs.Pass.Scopes
import IngressControl.Proofs.Pass.Settling
import IngressControl.Proofs.Pass.Stacks
import IngressControl.Proofs.Pass.Stages
import IngressControl.Proofs.Pass.Statuses
import IngressControl.Proofs.Pass.Steady
import IngressControl.Proofs.Pass.Territory
import IngressControl.Proofs.Pass.Upkeep
import IngressControl.Proofs.Placement.Capacity
import IngressControl.Proofs.Placement.Growth
import IngressControl.Proofs.Placement.History
import IngressControl.Proofs.Placement.Homing
import IngressControl.Proofs.Placement.Likeness
import IngressControl.Proofs.Placement.Order
import IngressControl.Proofs.Placement.Soundness
import IngressControl.Proofs.Placement.Stacks
import IngressControl.Proofs.Placement.Steps
import IngressControl.Proofs.Placement.Thrift
import IngressControl.Proofs.Rehearsal
import IngressControl.Proofs.Run
import IngressControl.Proofs.Settings.Durations
import IngressControl.Proofs.Stack.Attributes
import IngressControl.Proofs.Stack.Frame
import IngressControl.Proofs.Stack.Owner
import IngressControl.Proofs.Stack.ReadBack
import IngressControl.Proofs.Stack.Tags
import IngressControl.Proofs.Table
import IngressControl.Proofs.Teardown
