import I3xServer.Container.Dict
import I3xServer.Coroutine.Unordered
import I3xServer.Domain.Text
import I3xServer.Api.WriteTargets
import I3xServer.OpcUa.ReadValues
import I3xServer.Subscriptions.MonitoredNodes
import I3xServer.Subscriptions.State
import I3xServer.Subscriptions.Registry
import I3xServer.Coroutine.History
import I3xServer.Subscriptions.Accounting
import I3xServer.Subscriptions.Attribution
import I3xServer.Subscriptions.MonitorRegistry
import I3xServer.Container.Traversal
import I3xServer.Subscriptions.Labels
import I3xServer.Subscriptions.Labelling
import I3xServer.Subscriptions.Aliases
import I3xServer.Subscriptions.LossReport
import I3xServer.Domain.NodeIds
import I3xServer.Model.References
import I3xServer.Container.Buckets
import I3xServer.Container.Forest
import I3xServer.Model.Planes
import I3xServer.Model.Published
import I3xServer.Model.Roots
import I3xServer.Model.Conservation
import I3xServer.Model.Symmetry
import I3xServer.Container.FirstMatch
import I3xServer.Api.ParentIds
import I3xServer.Model.ElementIds
import I3xServer.Mcp.NodeIdTools
import I3xServer.Coroutine.Named
import I3xServer.Subscriptions.StreamSessions
import I3xServer.Subscriptions.Exclusivity
import I3xServer.Subscriptions.Delivery
import I3xServer.Subscriptions.OverflowNotice
import I3xServer.Subscriptions.MonitorCalls
import I3xServer.Subscriptions.BinCustody
import I3xServer.Subscriptions.NativeBins
import I3xServer.Subscriptions.BinPlaces
import I3xServer.Model.Vocabulary
import I3xServer.Api.RelatedObjects
import I3xServer.Coroutine.Transitions
import I3xServer.OpcUa.MetadataCache
import I3xServer.Api.HistoryUpdates
import I3xServer.Api.CurrentWrites
import I3xServer.Model.BrowseOrder
import I3xServer.Domain.Numbering
import I3xServer.Model.Renumbering
import I3xServer.Container.Json
import I3xServer.Model.Revision
import I3xServer.Model.RevisionCompleteness
import I3xServer.Api.ObjectList
import I3xServer.Container.FixedWidth
import I3xServer.Domain.Instants
import I3xServer.Model.GenericProfile
import I3xServer.Api.HistoryOrder
import I3xServer.Container.Batch
import I3xServer.Mcp.ResolverBatches
import I3xServer.Container.DepthFirst
import I3xServer.OpcUa.TypeRequests
import I3xServer.OpcUa.TypeHierarchies
import I3xServer.OpcUa.ReferenceTypeChains
import I3xServer.Api.ValueComponents
import I3xServer.Container.Attempt
import I3xServer.Container.JsonSchema
import I3xServer.Schemas.Annotations
import I3xServer.Schemas.Structures
import I3xServer.Schemas.Depth
import I3xServer.Schemas.NullSchemas
import I3xServer.Schemas.OptionalNull
import I3xServer.Coroutine.Frame
import I3xServer.Subscriptions.Owners
import I3xServer.Subscriptions.StreamClosings
import I3xServer.Subscriptions.ClientScopes
import I3xServer.Container.Paging
import I3xServer.Container.SetBuckets
import I3xServer.Container.Windows
import I3xServer.Mcp.ModelIndex
import I3xServer.Container.Climbing
import I3xServer.Mcp.BrowsePaths
import I3xServer.Mcp.NameSearch
import I3xServer.Mcp.InstanceTypes
import I3xServer.Mcp.ModelAccess
import I3xServer.Container.Counters
import I3xServer.Container.Unfolding
import I3xServer.Mcp.SubtreeSummary
import I3xServer.Mcp.RelationshipPaths
import I3xServer.Container.PathNames
import I3xServer.Container.Replacement
import I3xServer.Mcp.RequestPaths
import I3xServer.Mcp.RequestTargets
import I3xServer.Container.Dialogue
import I3xServer.OpcUa.HistoryReads
import I3xServer.OpcUa.HistoryPages
import I3xServer.Container.Worklist
import I3xServer.OpcUa.BrowseTree
import I3xServer.OpcUa.BrowseCompleteness
import I3xServer.Subscriptions.MonitoredDepth
import I3xServer.OpcUa.HistoryConversion
import I3xServer.Container.Settling
import I3xServer.OpcUa.AttributeReads
import I3xServer.OpcUa.BrowseContinuation
import I3xServer.Container.Trimming
import I3xServer.Domain.Uuids
import I3xServer.Domain.NormalForms
import I3xServer.Api.RelatedQueries
import I3xServer.Container.BoundedSearch
import I3xServer.Mcp.ContainerValues
import I3xServer.Container.Documents
import I3xServer.Container.SharedDocuments
import I3xServer.Container.Merging
import I3xServer.Schemas.Definitions
import I3xServer.Coroutine.Traces
import I3xServer.Subscriptions.Activity
import I3xServer.Subscriptions.Expiry
import I3xServer.Coroutine.Exclusion
import I3xServer.Serving.ModelCache
import I3xServer.Serving.SingleFlight
import I3xServer.Serving.EntityTags
import I3xServer.Serving.ContextRuns
import I3xServer.Serving.TagSoundness
import I3xServer.Mcp.Messages
import I3xServer.Mcp.ToolBodies
import I3xServer.Mcp.ToolPages
import I3xServer.Mcp.Prompts
import I3xServer.Mcp.JsonRpc
import I3xServer.Mcp.Conformity
