import I3xServer.Domain.NodeIds
import I3xServer.Domain.ModelBuilder
import Mathlib.Data.List.Sort
import Mathlib.Data.List.Infix

/-!
# Classifying references

Every reference of the browsed address space belongs to a plane: hierarchy,
composition or graph. The class follows from the names in the lineage of its
reference type, from the profiles active for its source, and from an override
that its target may force.
-/
namespace I3x
open Container

structure OpcUaReferenceInfo where
  targetNodeId : String
  referenceTypeId : String
  referenceBrowseName : String
  deriving DecidableEq, Repr

structure OpcUaTypeDefinitionInfo where
  nodeId : String
  browseName : String
  namespaceUri : Option String
  deriving DecidableEq, Repr

/-- A browsed node with the data that relates it to others. -/
structure BrowsedNode extends OpcUaNodeInfo where
  typeDefinitionId : Option String
  outgoingReferences : List OpcUaReferenceInfo
  description : Option String := none
  accessLevel : Option Nat := none
  userAccessLevel : Option Nat := none
  executable : Option Bool := none
  userExecutable : Option Bool := none
  deriving DecidableEq, Repr

inductive SemanticRole where
  | asset | group | component | datapoint | property | unknown
  deriving DecidableEq, Repr

inductive MappingConfidence where
  | high | medium | low
  deriving DecidableEq, Repr

namespace Mapper

inductive ReferenceClass where
  | hierarchy | composition | graph | typeMeta | ignore
  deriving DecidableEq, Repr

def hierarchyReferenceNames : List String := ["organizes", "haschild", "hierarchicalreferences"]

def compositionReferenceNames : List String :=
  ["hascomponent", "hasorderedcomponent", "hasproperty", "propertyof"]

def typeMetaReferenceNames : List String := ["hastypedefinition", "hassubtype"]

def graphReferenceNames : List String := ["nonhierarchicalreferences"]

def hierarchyReferenceNodeIds : List String := ["i35", "i33"]

def compositionReferenceNodeIds : List String := ["i47", "i48", "i46"]

def typeMetaReferenceNodeIds : List String := ["i40", "i45"]

def graphReferenceNodeIds : List String := ["i31", "i32"]

/-- Whether two token sets share a token. -/
def meets (tokens names : List String) : Bool := tokens.any (· ∈ names)

def classifyHierarchicalFamily (tokens : List String) (targetNodeClass : Option String) :
    ReferenceClass :=
  if meets tokens ["hasproperty", "propertyof", "i46"] then .composition
  else if meets tokens ["hascomponent", "hasorderedcomponent", "i47", "i48"] then
    match targetNodeClass with
    | some nodeClass => if nodeClass = "Variable" then .composition else .hierarchy
    | none => .composition
  else .hierarchy

/-- What follows the last occurrence of `separator`, or everything. -/
def afterLast (separator : Char) (cs : List Char) : List Char :=
  (cs.reverse.takeWhile (· ≠ separator)).reverse

structure ProfileOverride where
  typeName : String
  semanticRole : Option SemanticRole
  forceHierarchy : Bool
  forceComposition : Bool
  exclusive : ¬ (forceHierarchy = true ∧ forceComposition = true)

structure SemanticProfile where
  profileId : String
  priority : Int
  namespaceUriFragment : String
  knownTypes : List String
  hierarchyReferences : List String
  compositionReferences : List String
  graphReferences : List String
  overrides : List ProfileOverride

def genericProfile : SemanticProfile where
  profileId := "generic"
  priority := 10
  namespaceUriFragment := ""
  knownTypes := []
  hierarchyReferences := ["Organizes", "HasChild", "HierarchicalReferences"]
  compositionReferences := ["HasComponent", "HasOrderedComponent", "HasProperty", "PropertyOf"]
  graphReferences := ["NonHierarchicalReferences", "GeneratesEvent", "HasEventSource"]
  overrides := []

def machineryProfile : SemanticProfile where
  profileId := "machinery"
  priority := 100
  namespaceUriFragment := "http://opcfoundation.org/UA/Machinery"
  knownTypes := ["FunctionalGroupType", "DataItemType"]
  hierarchyReferences := ["Organizes"]
  compositionReferences := ["HasProperty", "DataItemType"]
  graphReferences := ["FlowsTo"]
  overrides :=
    [⟨"FunctionalGroupType", some .group, true, false, by decide⟩,
      ⟨"DataItemType", some .datapoint, false, true, by decide⟩]

def defaultProfiles : List SemanticProfile := [machineryProfile, genericProfile]

variable (unicode : Unicode)

def normalizeToken (value : Option String) : String :=
  let lowered := (unicode.lower (unicode.strip (value.getD ""))).toList
  String.ofList
    ((afterLast ';' (afterLast '/' (afterLast ':' lowered))).filter unicode.isAlnum)

def SemanticProfile.matchesNode (profile : SemanticProfile)
    (typeDefinitionHierarchy : List OpcUaTypeDefinitionInfo) : Bool :=
  if profile.namespaceUriFragment = "" ∧ profile.knownTypes = [] then true
  else
    let knownTypeTokens := profile.knownTypes.map fun item => normalizeToken unicode (some item)
    typeDefinitionHierarchy.any fun typeInfo =>
      (profile.namespaceUriFragment = "" ||
        (typeInfo.namespaceUri.getD "" ≠ "" &&
          decide ((unicode.lower profile.namespaceUriFragment).toList <:+:
            (unicode.lower (typeInfo.namespaceUri.getD "")).toList))) &&
      (knownTypeTokens.isEmpty ||
        knownTypeTokens.contains (normalizeToken unicode (some typeInfo.browseName)))

def activeProfilesForNode (typeDefinitionHierarchy : List OpcUaTypeDefinitionInfo) :
    List SemanticProfile :=
  (defaultProfiles.filter fun profile => profile.matchesNode unicode typeDefinitionHierarchy).insertionSort
    fun first second => second.priority ≤ first.priority

/-- The names of a reference's lineage as one set of non-empty tokens. -/
def lineageTokens (referenceTypeNodeId referenceBrowseName : Option String)
    (supertypeBrowseNames : List String) : List String :=
  ((normalizeToken unicode referenceTypeNodeId :: normalizeToken unicode referenceBrowseName ::
    supertypeBrowseNames.map fun item => normalizeToken unicode (some item)).filter (· ≠ ""))

def referenceClassFromProfileRules (tokens : List String) (profiles : List SemanticProfile)
    (targetNodeClass : Option String) : Option ReferenceClass :=
  profiles.findSome? fun profile =>
    let names := List.map fun name => normalizeToken unicode (some name)
    if meets tokens (names profile.graphReferences) then some .graph
    else if meets tokens (names profile.hierarchyReferences) ||
        meets tokens (names profile.compositionReferences) then
      some (classifyHierarchicalFamily tokens targetNodeClass)
    else none

def hasNonhierarchicalRoot (tokens : List String) : Bool := meets tokens (graphReferenceNames ++ ["i32"])

def hasHierarchicalRoot (tokens : List String) : Bool := meets tokens (hierarchyReferenceNames ++ ["i33"])

def classifyOpcuaReference (tokens : List String) (targetNodeClass : Option String) : ReferenceClass :=
  if meets tokens typeMetaReferenceNames then .typeMeta
  else if meets tokens typeMetaReferenceNodeIds then .typeMeta
  else if hasNonhierarchicalRoot tokens then .graph
  else if hasHierarchicalRoot tokens then classifyHierarchicalFamily tokens targetNodeClass
  else if meets tokens typeMetaReferenceNames then .typeMeta
  else if meets tokens compositionReferenceNames then classifyHierarchicalFamily tokens targetNodeClass
  else if meets tokens compositionReferenceNodeIds then classifyHierarchicalFamily tokens targetNodeClass
  else if meets tokens hierarchyReferenceNames then .hierarchy
  else if meets tokens hierarchyReferenceNodeIds then .hierarchy
  else if meets tokens graphReferenceNames then .graph
  else if meets tokens graphReferenceNodeIds then .graph
  else .graph

/-- The class of `classify_opcua_reference_with_confidence`; its confidence is not read. -/
def classifyWithProfiles (tokens : List String) (targetNodeClass : Option String)
    (profiles : List SemanticProfile) : ReferenceClass :=
  if hasNonhierarchicalRoot tokens && hasHierarchicalRoot tokens then
    classifyOpcuaReference tokens targetNodeClass
  else
    match referenceClassFromProfileRules unicode tokens profiles targetNodeClass with
    | some profileClass => profileClass
    | none => classifyOpcuaReference tokens targetNodeClass

def ProfileOverride.forced (override : ProfileOverride) : Option ReferenceClass :=
  if override.forceHierarchy then some .hierarchy
  else if override.forceComposition then some .composition
  else none

def forcedRelationshipClassForNode (node : BrowsedNode) (activeProfiles : List SemanticProfile)
    (typeDefinitionHierarchy : List OpcUaTypeDefinitionInfo) : Option ReferenceClass :=
  let typeNames := typeDefinitionHierarchy.map (fun item => normalizeToken unicode (some item.browseName)) ++
    [normalizeToken unicode node.typeDefinitionId, normalizeToken unicode (some node.browseName),
      normalizeToken unicode (some node.nodeId)]
  activeProfiles.findSome? fun profile =>
    typeNames.findSome? fun typeName =>
      profile.overrides.findSome? fun override =>
        if normalizeToken unicode (some override.typeName) = typeName then override.forced else none

/-- The tokens under which a node's override is found. -/
def typeTokens (node : BrowsedNode) (typeDefinitionHierarchy : List OpcUaTypeDefinitionInfo) : List String :=
  [normalizeToken unicode node.typeDefinitionId, normalizeToken unicode (some node.browseName),
    normalizeToken unicode (some node.nodeId)] ++
    typeDefinitionHierarchy.map fun item => normalizeToken unicode (some item.browseName)

def overridesOf (node : BrowsedNode) (activeProfiles : List SemanticProfile)
    (typeDefinitionHierarchy : List OpcUaTypeDefinitionInfo) : List ProfileOverride :=
  (activeProfiles.flatMap SemanticProfile.overrides).filter fun override =>
    normalizeToken unicode (some override.typeName) ∈ typeTokens unicode node typeDefinitionHierarchy

def resolveSemanticRole (node : BrowsedNode) (activeProfiles : List SemanticProfile)
    (relationshipClass : Option ReferenceClass) (typeDefinitionHierarchy : List OpcUaTypeDefinitionInfo) :
    SemanticRole :=
  match (overridesOf unicode node activeProfiles typeDefinitionHierarchy).findSome? ProfileOverride.semanticRole with
  | some role => role
  | none =>
      if node.eventNotifier then .group
      else if node.nodeClass = "Variable" then .datapoint
      else if node.nodeClass = "Method" then .component
      else if relationshipClass = some .composition then .property
      else .asset

def hasProfileOverrideForNode (node : BrowsedNode) (activeProfiles : List SemanticProfile)
    (typeDefinitionHierarchy : List OpcUaTypeDefinitionInfo) : Bool :=
  !(overridesOf unicode node activeProfiles typeDefinitionHierarchy).isEmpty

def resolveMappingConfidence (node : BrowsedNode) (activeProfiles : List SemanticProfile)
    (relationshipClass : Option ReferenceClass) (hasProfileOverride : Bool) : MappingConfidence :=
  if hasProfileOverride then .high
  else if activeProfiles.map SemanticProfile.profileId ≠ ["generic"] then .high
  else if node.nodeClass = "Variable" then .medium
  else if relationshipClass = some .graph then .high
  else if relationshipClass = some .composition then .medium
  else .medium

end Mapper
end I3x
