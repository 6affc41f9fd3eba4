import StateReplica.Json.Format
import StateReplica.Record.Event
import StateReplica.Record.Configuration
import StateReplica.Record.Sorted
import StateReplica.Config.Layers
import StateReplica.Scenario.Perform
import StateReplica.Proofs.Keyed
import StateReplica.Proofs.Bundles.Collected
import StateReplica.Proofs.Bundles.LastWrite
import StateReplica.Proofs.Bundles.Strict
import StateReplica.Proofs.Replica.Runs
import StateReplica.Proofs.Services.Bound
import StateReplica.Proofs.Services.ById
import StateReplica.Proofs.Replica.Strict
import StateReplica.Proofs.Replica.Services
import StateReplica.Proofs.Replica.Operations
import StateReplica.Proofs.Services.TakenBack
import StateReplica.Proofs.Session.Notification
import StateReplica.Proofs.Session.LifeCycle
import StateReplica.Proofs.Threads.Reload
import StateReplica.Proofs.Services.Unregistering
import StateReplica.Proofs.Services.InOrder
import StateReplica.Proofs.Replica.Legacy
import StateReplica.Proofs.Replica.Agreement
import StateReplica.Proofs.Replica.Redelivery
import StateReplica.Proofs.Replica.Interleaving
import StateReplica.Proofs.Replica.Names
import StateReplica.Proofs.Records.Texts
import StateReplica.Proofs.Records.Enclosed
import StateReplica.Proofs.Records.Forms
import StateReplica.Proofs.Records.Order
import StateReplica.Proofs.Store.Saved
import StateReplica.Proofs.Config.Merging
import StateReplica.Proofs.Dealings.Muted
import StateReplica.Proofs.Contents.Canonical
import StateReplica.Proofs.Subscribers.Pruning
