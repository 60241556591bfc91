import AclPlane.AccessCommand
import AclPlane.Acl
import AclPlane.Address
import AclPlane.Arena
import AclPlane.AttachPoint
import AclPlane.BasicKey
import AclPlane.Binding
import AclPlane.Binding.Target
import AclPlane.Catalog
import AclPlane.Command
import AclPlane.Command.Acl
import AclPlane.Command.Activity
import AclPlane.Command.Binding
import AclPlane.Command.Group
import AclPlane.Command.KeyType
import AclPlane.Command.ObjectQuery
import AclPlane.Command.Pool
import AclPlane.Command.Region
import AclPlane.Command.Rule
import AclPlane.Config
import AclPlane.Config.Document
import AclPlane.Config.Json
import AclPlane.Config.Load
import AclPlane.Config.Yaml
import AclPlane.Config.Yaml.Cursor
import AclPlane.Config.Yaml.Node
import AclPlane.Config.Yaml.Scalar
import AclPlane.Config.Yaml.Token
import AclPlane.Controller
import AclPlane.Core
import AclPlane.Core.Acls
import AclPlane.Core.Activity
import AclPlane.Core.Bindings
import AclPlane.Core.Groups
import AclPlane.Core.KeyTypes
import AclPlane.Core.Objects
import AclPlane.Core.Pools
import AclPlane.Core.Regions
import AclPlane.Core.Rules
import AclPlane.Device
import AclPlane.DeviceError
import AclPlane.Direction
import AclPlane.Error
import AclPlane.Event
import AclPlane.Group
import AclPlane.Handle
import AclPlane.KeyBlock
import AclPlane.KeyCover
import AclPlane.KeyType
import AclPlane.Operation
import AclPlane.OrderedMap
import AclPlane.OrderedSet
import AclPlane.Pool
import AclPlane.Pool.CustomBytes
import AclPlane.Pool.Pbs
import AclPlane.Pool.PortList
import AclPlane.Pool.Range
import AclPlane.Pool.Value
import AclPlane.Pool.VlanGroup
import AclPlane.Pools
import AclPlane.Proofs.Acls
import AclPlane.Proofs.Arena
import AclPlane.Proofs.Arena.Generations
import AclPlane.Proofs.Arena.Shape
import AclPlane.Proofs.Bindings
import AclPlane.Proofs.Bindings.Determined
import AclPlane.Proofs.Calls
import AclPlane.Proofs.Catalog
import AclPlane.Proofs.Chains
import AclPlane.Proofs.Destruction
import AclPlane.Proofs.DeviceRegion
import AclPlane.Proofs.Fallible
import AclPlane.Proofs.Frame
import AclPlane.Proofs.Guarantees
import AclPlane.Proofs.HardwareRows
import AclPlane.Proofs.Invariant
import AclPlane.Proofs.KeyCover
import AclPlane.Proofs.KeyCover.Choice
import AclPlane.Proofs.KeyCover.Greedy
import AclPlane.Proofs.KeyCover.Search
import AclPlane.Proofs.KeyTypes
import AclPlane.Proofs.KeyTypes.Compiled
import AclPlane.Proofs.KeyTypes.Distinct
import AclPlane.Proofs.Landing.Acls
import AclPlane.Proofs.Landing.Bindings
import AclPlane.Proofs.Landing.Regions
import AclPlane.Proofs.Landing.Rules
import AclPlane.Proofs.Landing.Unseen
import AclPlane.Proofs.Limits
import AclPlane.Proofs.Links
import AclPlane.Proofs.Names
import AclPlane.Proofs.OrderedMap
import AclPlane.Proofs.Outcome
import AclPlane.Proofs.Pools
import AclPlane.Proofs.Pools.CustomBytes
import AclPlane.Proofs.Pools.Pbs
import AclPlane.Proofs.Pools.Values
import AclPlane.Proofs.Reachable
import AclPlane.Proofs.Rearrange
import AclPlane.Proofs.RefCount
import AclPlane.Proofs.References
import AclPlane.Proofs.Refusal.Checks
import AclPlane.Proofs.Refusal.Plans
import AclPlane.Proofs.RegionLayout
import AclPlane.Proofs.Regions
import AclPlane.Proofs.Relocation
import AclPlane.Proofs.RuleImages
import AclPlane.Proofs.RuleTable
import AclPlane.Proofs.Serving
import AclPlane.Proofs.SlotSum
import AclPlane.Proofs.Stale
import AclPlane.Proofs.StoredRules
import AclPlane.Proofs.Transition
import AclPlane.Proofs.Transition.Carried
import AclPlane.Proofs.Transition.Regions
import AclPlane.Proofs.Transition.Shape
import AclPlane.Proofs.Transition.Steps
import AclPlane.Query
import AclPlane.RefCount
import AclPlane.Region
import AclPlane.Relocation
import AclPlane.Rule
import AclPlane.Rule.Action
import AclPlane.Rule.Match
import AclPlane.RuleTable
import AclPlane.Text.Hex
import AclPlane.Text.Uppercase
import AclPlane.Proofs.Paging
import AclPlane.Proofs.Readings
import AclPlane.Proofs.Spans
import AclPlane.Proofs.Events
import AclPlane.Proofs.Occurrences
import AclPlane.Proofs.Delivery
import AclPlane.Proofs.Hits
import AclPlane.Proofs.Marks
import AclPlane.Proofs.Marks.Runs
import AclPlane.Proofs.Outline
import AclPlane.Proofs.Marks.Determined
import AclPlane.Proofs.Commutation
import AclPlane.Proofs.BlockMove
import AclPlane.Proofs.PriorityShift
import AclPlane.Proofs.Resizing
import AclPlane.Proofs.KeyTypes.Interning
import AclPlane.Proofs.Lowering
import AclPlane.Proofs.Batches
import AclPlane.Proofs.Listed
import AclPlane.Proofs.Boundness
import AclPlane.Proofs.FirstOccurrences
import AclPlane.Proofs.Pools.Revisions
import AclPlane.Proofs.Pools.Contents
import AclPlane.Proofs.Frozen
import AclPlane.Proofs.InPlace
import AclPlane.Proofs.Failures
import AclPlane.Proofs.CommandSurface
import AclPlane.Proofs.KeyCover.Stepping
import AclPlane.Proofs.Arena.Representation
import AclPlane.Proofs.Catalog.Exclusions
