import I3xServer.Container.Dict

/-!
# The published model

Nodes and indexes of one built model, as far as element lookup, writes and
subscriptions read them.
-/
namespace I3x
open Container

inductive NodeKind where
  | asset | property | action | eventSource
  deriving DecidableEq, Repr

def NodeKind.text : NodeKind → String
  | .asset => "asset"
  | .property => "property"
  | .action => "action"
  | .eventSource => "eventSource"

structure ModelNode where
  id : String
  name : String
  kind : NodeKind
  type : Option String
  children : List String
  sourceNodeId : String
  deriving DecidableEq, Repr

structure BuildResult where
  nodesById : Dict String ModelNode
  childrenById : Dict String (List String)
  nodeIdByName : Dict String String
  nodeIdByType : Dict String String

namespace BuildResult

/-- The model's nodes in the order in which lookups scan them. -/
def nodes (model : BuildResult) : List ModelNode := model.nodesById.values

theorem mem_nodes (model : BuildResult) (node : ModelNode) :
    node ∈ model.nodes ↔ ∃ id, model.nodesById.get? id = some node := Dict.mem_values _ _

/-- The index key of every node is the id it carries. -/
def KeyedById (model : BuildResult) : Prop :=
  ∀ id node, model.nodesById.get? id = some node → node.id = id

/-- No two nodes of the model share a source node. -/
def SourcesDistinct (model : BuildResult) : Prop :=
  ∀ m ∈ model.nodes, ∀ n ∈ model.nodes, m.sourceNodeId = n.sourceNodeId → m = n

theorem KeyedById.get?_id {model : BuildResult} (keyed : model.KeyedById) {node : ModelNode}
    (m : node ∈ model.nodes) : model.nodesById.get? node.id = some node := by
  obtain ⟨id, found⟩ := (model.mem_nodes node).mp m
  rw [keyed id node found]
  exact found

end BuildResult
end I3x
