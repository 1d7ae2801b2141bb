import Balancer.Annotations.Action
import Balancer.Annotations.Reader
import Balancer.Annotations.Service
import Balancer.Cloud.Client
import Balancer.Cloud.Context
import Balancer.Cloud.Fault
import Balancer.Cloud.Program
import Balancer.Cloud.Record
import Balancer.Cloud.Request
import Balancer.Cloud.Resources
import Balancer.Cluster.Object
import Balancer.Cluster.Store
import Balancer.Cluster.Trigger
import Balancer.Config
import Balancer.Config.Environment
import Balancer.Converge.Listeners
import Balancer.Converge.LoadBalancer
import Balancer.Converge.Service
import Balancer.Converge.Tags
import Balancer.Converge.TargetGroup
import Balancer.Digest.Crc32
import Balancer.Digest.Md5
import Balancer.Error
import Balancer.Identity
import Balancer.Identity.Name
import Balancer.Identity.Tag
import Balancer.Key
import Balancer.Number
import Balancer.Number.Binary64
import Balancer.Number.Fraction
import Balancer.Number.Shortest
import Balancer.Operator
import Balancer.Operator.Startup
import Balancer.Operator.World
import Balancer.Proofs.Acceptance
import Balancer.Proofs.Admission
import Balancer.Proofs.Annotations
import Balancer.Proofs.Annotations.Order
import Balancer.Proofs.Annotations.Pairs
import Balancer.Proofs.Annotations.Settings
import Balancer.Proofs.Checked
import Balancer.Proofs.Cloud.Client
import Balancer.Proofs.Cloud.Estate
import Balancer.Proofs.Cloud.Growth
import Balancer.Proofs.Cloud.Lockstep
import Balancer.Proofs.Cloud.Pages
import Balancer.Proofs.Cloud.Part
import Balancer.Proofs.Cloud.Quiet
import Balancer.Proofs.Cloud.Recorded
import Balancer.Proofs.Cloud.Refusal
import Balancer.Proofs.Cloud.Requests
import Balancer.Proofs.Cloud.Run
import Balancer.Proofs.Cloud.Stop
import Balancer.Proofs.Cloud.Twin
import Balancer.Proofs.Cloud.WellFormed
import Balancer.Proofs.Cluster.Changes
import Balancer.Proofs.Cluster.Object
import Balancer.Proofs.Cluster.Same
import Balancer.Proofs.Cluster.Store
import Balancer.Proofs.Cluster.WellFormed
import Balancer.Proofs.Cluster.Whitelist
import Balancer.Proofs.Config
import Balancer.Proofs.Config.Environment
import Balancer.Proofs.Converge.Accepted
import Balancer.Proofs.Converge.Agreement
import Balancer.Proofs.Converge.Anchor
import Balancer.Proofs.Converge.Belongs
import Balancer.Proofs.Converge.Carried
import Balancer.Proofs.Converge.Confined
import Balancer.Proofs.Converge.Deletion
import Balancer.Proofs.Converge.Discovery
import Balancer.Proofs.Converge.Ensuring
import Balancer.Proofs.Converge.Innocent
import Balancer.Proofs.Converge.Lawful
import Balancer.Proofs.Converge.Listeners
import Balancer.Proofs.Converge.LoadBalancer
import Balancer.Proofs.Converge.Lockstep
import Balancer.Proofs.Converge.Merging
import Balancer.Proofs.Converge.Reads
import Balancer.Proofs.Converge.Registration
import Balancer.Proofs.Converge.Resolution
import Balancer.Proofs.Converge.Retagging
import Balancer.Proofs.Converge.Retained
import Balancer.Proofs.Converge.Scheme
import Balancer.Proofs.Converge.Service
import Balancer.Proofs.Converge.ServiceListeners
import Balancer.Proofs.Converge.Sorts
import Balancer.Proofs.Converge.Strict
import Balancer.Proofs.Converge.Subnets
import Balancer.Proofs.Converge.Sync
import Balancer.Proofs.Converge.Tags
import Balancer.Proofs.Converge.TargetGroup
import Balancer.Proofs.Converge.TargetGroups
import Balancer.Proofs.Converge.Targets
import Balancer.Proofs.Converge.Unbroken
import Balancer.Proofs.Converge.Unmet
import Balancer.Proofs.Convergence
import Balancer.Proofs.Errors
import Balancer.Proofs.History
import Balancer.Proofs.Idempotence
import Balancer.Proofs.Identity.Acceptable
import Balancer.Proofs.Identity.Exposure
import Balancer.Proofs.Identity.Name
import Balancer.Proofs.Identity.Ownership
import Balancer.Proofs.Interference
import Balancer.Proofs.Interruption
import Balancer.Proofs.Operator.Change
import Balancer.Proofs.Operator.Concern
import Balancer.Proofs.Operator.Wakeup
import Balancer.Proofs.Paired
import Balancer.Proofs.Queue.Run
import Balancer.Proofs.Queue.Shutdown
import Balancer.Proofs.Queue.Worker
import Balancer.Proofs.Refusal
import Balancer.Proofs.Restriction
import Balancer.Proofs.Routing
import Balancer.Proofs.Routing.Reads
import Balancer.Proofs.Routing.Shadowed
import Balancer.Proofs.Routing.Sharing
import Balancer.Proofs.Routing.Targets
import Balancer.Proofs.Table
import Balancer.Proofs.Text
import Balancer.Proofs.Value
import Balancer.Queue
import Balancer.Queue.Worker
import Balancer.Routing.Backend
import Balancer.Routing.HealthCheck
import Balancer.Routing.Target
import Balancer.Table
import Balancer.Text.Blank
import Balancer.Text.Digit
import Balancer.Text.Encoding
import Balancer.Text.Integer
import Balancer.Text.Printable
import Balancer.Text.Quoted
import Balancer.Text.Split
import Balancer.Value
import Balancer.Value.Access
import Balancer.Value.Order
import Balancer.Value.Reader
import Balancer.Value.Writer
import Balancer.Webhook
import Balancer.Webhook.Server
