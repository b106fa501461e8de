import I3xServer.Container.Parallel
import I3xServer.Domain.Numbering
import I3xServer.Model.Correspondence

/-!
# Renumbering the namespaces

Two browse results of one address space under different namespace numberings.
Nodes, references and their classes correspond; the candidates for a parent are
ranked by texts that contain the number, so ties may be decided differently.
-/
namespace I3x
open Container Mapper NodeIds

/-! ## Tokens -/

namespace Mapper

theorem afterLast_of_mem {c : Char} (xs : List Char) {ys : List Char} (m : c ∈ ys) :
    afterLast c (xs ++ ys) = afterLast c ys := by
  rw [afterLast, afterLast, List.reverse_append]
  congr 1
  have stops : ∃ d ∈ ys.reverse, ¬ decide (d ≠ c) = true := ⟨c, List.mem_reverse.mpr m, by simp⟩
  generalize ys.reverse = zs at stops
  induction zs with
  | nil =>
      obtain ⟨_, none, -⟩ := stops
      cases none
  | cons d ds ih =>
      rw [List.cons_append, List.takeWhile_cons, List.takeWhile_cons]
      split
      · rename_i keep
        obtain ⟨e, inside, stop⟩ := stops
        rcases List.mem_cons.mp inside with rfl | later
        · exact absurd keep stop
        · rw [ih ⟨e, later, stop⟩]
      · rfl

theorem afterLast_of_not_mem {c : Char} (xs : List Char) {ys : List Char} (absent : c ∉ ys) :
    afterLast c (xs ++ ys) = afterLast c xs ++ ys := by
  have all : ∀ d ∈ ys.reverse, decide (d ≠ c) = true := fun d m =>
    decide_eq_true fun same => absent (same ▸ List.mem_reverse.mp m)
  rw [afterLast, afterLast, List.reverse_append, List.takeWhile_append_of_pos all, List.reverse_append,
    List.reverse_reverse]

/-- Behind a semicolon the last occurrence of another separator is the same, or
the semicolon is kept. -/
theorem afterLast_separator {c : Char} (other : c ≠ ';') (xs ys : List Char) :
    afterLast c (xs ++ ';' :: ys) = afterLast c ys ∨
      ∃ zs, afterLast c (xs ++ ';' :: ys) = zs ++ ';' :: afterLast c ys := by
  by_cases m : c ∈ ys
  · left
    rw [afterLast_of_mem xs (List.mem_cons_of_mem _ m)]
    exact afterLast_of_mem [';'] m
  · right
    have absent : c ∉ ';' :: ys := fun inside => (List.mem_cons.mp inside).elim other m
    have whole : afterLast c ys = ys := by
      have empty := afterLast_of_not_mem [] m
      exact empty
    exact ⟨afterLast c xs, by rw [afterLast_of_not_mem xs absent, whole]⟩

theorem afterLast_semicolon (xs ys : List Char) : afterLast ';' (xs ++ ';' :: ys) = afterLast ';' ys := by
  rw [afterLast_of_mem xs List.mem_cons_self]
  by_cases m : ';' ∈ ys
  · exact afterLast_of_mem [';'] m
  · rw [← List.singleton_append, afterLast_of_not_mem [';'] m]
    have empty := afterLast_of_not_mem [] m
    rw [List.nil_append] at empty
    rw [empty]
    rfl

theorem afterLast_separators (xs ys : List Char) :
    afterLast ';' (afterLast '/' (afterLast ':' (xs ++ ';' :: ys))) =
      afterLast ';' (afterLast '/' (afterLast ':' ys)) := by
  rcases afterLast_separator (by decide : ':' ≠ ';') xs ys with same | ⟨zs, kept⟩
  · rw [same]
  · rw [kept]
    rcases afterLast_separator (by decide : '/' ≠ ';') zs (afterLast ':' ys) with same | ⟨ws, kept⟩
    · rw [same]
    · rw [kept, afterLast_semicolon]

theorem normalizeToken_separator {unicode : Unicode} (standard : unicode.Standard) {s s' t : String} :
    normalizeToken unicode (some (s ++ ";" ++ t)) = normalizeToken unicode (some (s' ++ ";" ++ t)) := by
  obtain ⟨stripLeft, stripRight, strip⟩ := standard.strip_separator
  simp only [normalizeToken, Option.getD_some, strip, standard.lower_separator, String.toList_append]
  have semicolon : ";".toList = [';'] := rfl
  rw [semicolon, List.append_assoc, List.append_assoc, List.singleton_append, afterLast_separators, afterLast_separators]

/-- Tokens do not depend on the numbering. -/
theorem normalizeToken_sameId {unicode : Unicode} (standard : unicode.Standard) {numbering : Equiv.Perm Nat}
    {id id' : String} (h : SameId numbering id id') :
    normalizeToken unicode (some id) = normalizeToken unicode (some id') := by
  cases h with
  | plain _ unindexed => rfl
  | indexed k text => exact normalizeToken_separator standard

end Mapper
/-! ## Browse results under two numberings -/

structure SameReference (numbering : Equiv.Perm Nat) (ref ref' : OpcUaReferenceInfo) : Prop where
  target : SameId numbering ref.targetNodeId ref'.targetNodeId
  type : SameId numbering ref.referenceTypeId ref'.referenceTypeId
  name : ref.referenceBrowseName = ref'.referenceBrowseName

structure SameBrowsed (numbering : Equiv.Perm Nat) (node node' : BrowsedNode) : Prop where
  nodeId : SameId numbering node.nodeId node'.nodeId
  parentNodeId : Option.Rel (SameId numbering) node.parentNodeId node'.parentNodeId
  browseName : node.browseName = node'.browseName
  displayName : node.displayName = node'.displayName
  nodeClass : node.nodeClass = node'.nodeClass
  dataType : Option.Rel (SameId numbering) node.dataType node'.dataType
  eventNotifier : node.eventNotifier = node'.eventNotifier
  typeDefinitionId : Option.Rel (SameId numbering) node.typeDefinitionId node'.typeDefinitionId
  outgoingReferences : List.Forall₂ (SameReference numbering) node.outgoingReferences node'.outgoingReferences
  description : node.description = node'.description
  accessLevel : node.accessLevel = node'.accessLevel
  userAccessLevel : node.userAccessLevel = node'.userAccessLevel
  executable : node.executable = node'.executable
  userExecutable : node.userExecutable = node'.userExecutable

structure SameType (numbering : Equiv.Perm Nat) (info info' : OpcUaTypeDefinitionInfo) : Prop where
  nodeId : SameId numbering info.nodeId info'.nodeId
  browseName : info.browseName = info'.browseName
  namespaceUri : info.namespaceUri = info'.namespaceUri

/-- The second browse result is the first one with its nonzero namespaces renumbered,
the namespace table with them. -/
structure Renumbered (numbering : Equiv.Perm Nat) (first second : Browse) : Prop where
  zero : numbering 0 = 0
  unicode : first.unicode = second.unicode
  digest : first.digest = second.digest
  namespaces : ∀ k, second.namespaceInfos[numbering k]? = first.namespaceInfos[k]?
  nodes : List.Forall₂ (SameBrowsed numbering) first.opcNodes second.opcNodes
  supertypes : ∀ id id', SameId numbering id id' →
    first.referenceSupertypesById.get? id = second.referenceSupertypesById.get? id'
  hierarchies : ∀ id id', SameId numbering id id' → Option.Rel (List.Forall₂ (SameType numbering))
    (first.resolvedHierarchies.get? id) (second.resolvedHierarchies.get? id')

/-- Every browsed node id is expanded with the namespace table. -/
def Browse.Resolvable (browse : Browse) : Prop :=
  ∀ node ∈ browse.opcNodes, isExpanded (browse.identity.expandedNodeId node.nodeId) = true

instance (browse : Browse) : Decidable browse.Resolvable :=
  inferInstanceAs (Decidable (∀ node ∈ browse.opcNodes, isExpanded (browse.identity.expandedNodeId node.nodeId) = true))

theorem option_rel_symm {A B : Type} {R : A → B → Prop} {S : B → A → Prop} (back : ∀ a b, R a b → S b a)
    {a : Option A} {b : Option B} (h : Option.Rel R a b) : Option.Rel S b a := by
  cases h with
  | none => exact .none
  | some related => exact .some (back _ _ related)

theorem option_rel_cases {A B : Type} {R : A → B → Prop} {a : Option A} {b : Option B} (h : Option.Rel R a b) :
    a = none ∧ b = none ∨ ∃ x y, a = some x ∧ b = some y ∧ R x y := by
  cases h with
  | none => exact .inl ⟨rfl, rfl⟩
  | some related => exact .inr ⟨_, _, rfl, rfl, related⟩

theorem forall₂_symm {A B : Type} {R : A → B → Prop} {S : B → A → Prop} (back : ∀ a b, R a b → S b a)
    {as : List A} {bs : List B} (h : List.Forall₂ R as bs) : List.Forall₂ S bs as :=
  List.Forall₂.flip (h.imp back)

theorem SameReference.symm {numbering : Equiv.Perm Nat} {ref ref' : OpcUaReferenceInfo}
    (h : SameReference numbering ref ref') : SameReference numbering.symm ref' ref :=
  ⟨h.target.symm, h.type.symm, h.name.symm⟩

theorem SameBrowsed.symm {numbering : Equiv.Perm Nat} {node node' : BrowsedNode} (h : SameBrowsed numbering node node') :
    SameBrowsed numbering.symm node' node where
  nodeId := h.nodeId.symm
  parentNodeId := option_rel_symm (fun _ _ => SameId.symm) h.parentNodeId
  browseName := h.browseName.symm
  displayName := h.displayName.symm
  nodeClass := h.nodeClass.symm
  dataType := option_rel_symm (fun _ _ => SameId.symm) h.dataType
  eventNotifier := h.eventNotifier.symm
  typeDefinitionId := option_rel_symm (fun _ _ => SameId.symm) h.typeDefinitionId
  outgoingReferences := forall₂_symm (fun _ _ => SameReference.symm) h.outgoingReferences
  description := h.description.symm
  accessLevel := h.accessLevel.symm
  userAccessLevel := h.userAccessLevel.symm
  executable := h.executable.symm
  userExecutable := h.userExecutable.symm

theorem SameType.symm {numbering : Equiv.Perm Nat} {info info' : OpcUaTypeDefinitionInfo}
    (h : SameType numbering info info') : SameType numbering.symm info' info :=
  ⟨h.nodeId.symm, h.browseName.symm, h.namespaceUri.symm⟩

theorem Renumbered.symm {numbering : Equiv.Perm Nat} {first second : Browse} (h : Renumbered numbering first second) :
    Renumbered numbering.symm second first where
  zero := by rw [Equiv.symm_apply_eq, h.zero]
  unicode := h.unicode.symm
  digest := h.digest.symm
  namespaces k := by rw [← h.namespaces, numbering.apply_symm_apply]
  nodes := forall₂_symm (fun _ _ => SameBrowsed.symm) h.nodes
  supertypes id id' same := (h.supertypes id' id (by simpa using same.symm)).symm
  hierarchies id id' same := option_rel_symm (fun _ _ => forall₂_symm fun _ _ => SameType.symm)
    (h.hierarchies id' id (by simpa using same.symm))

theorem sameId_biUnique (numbering : Equiv.Perm Nat) : Relator.BiUnique (SameId numbering) :=
  ⟨fun _ _ _ h h' => (h.iff h').mpr rfl, fun _ _ _ h h' => (h.iff h').mp rfl⟩

theorem forall₂_map_eq {A B C : Type} {R : A → B → Prop} {f : A → C} {g : B → C} (same : ∀ a b, R a b → f a = g b)
    {as : List A} {bs : List B} (h : List.Forall₂ R as bs) : as.map f = bs.map g := by
  induction h with
  | nil => rfl
  | cons related _ ih => exact congrArg₂ List.cons (same _ _ related) ih

/-! ## The class of a reference -/

namespace Mapper

theorem normalizeToken_option {unicode : Unicode} (standard : unicode.Standard) {numbering : Equiv.Perm Nat}
    {id id' : Option String} (h : Option.Rel (SameId numbering) id id') :
    normalizeToken unicode id = normalizeToken unicode id' := by
  cases h with
  | none => rfl
  | some same => exact normalizeToken_sameId standard same

/-- What the profiles read of a type hierarchy. -/
def typeTexts (typeDefinitionHierarchy : List OpcUaTypeDefinitionInfo) : List (String × Option String) :=
  typeDefinitionHierarchy.map fun info => (info.browseName, info.namespaceUri)

section
variable (unicode : Unicode) {types types' : List OpcUaTypeDefinitionInfo} (same : typeTexts types = typeTexts types')
include same

theorem matchesNode_congr (profile : SemanticProfile) : profile.matchesNode unicode types = profile.matchesNode unicode types' := by
  have reads (types : List OpcUaTypeDefinitionInfo) (p : String × Option String → Bool) :
      types.any (fun info => p (info.browseName, info.namespaceUri)) = (typeTexts types).any p := by
    rw [typeTexts, List.any_map]
    rfl
  unfold SemanticProfile.matchesNode
  split
  · rfl
  · have texts := congrArg (List.any · fun text : String × Option String =>
      (profile.namespaceUriFragment = "" || (text.2.getD "" ≠ "" &&
        decide ((unicode.lower profile.namespaceUriFragment).toList <:+: (unicode.lower (text.2.getD "")).toList))) &&
      ((profile.knownTypes.map fun item => normalizeToken unicode (some item)).isEmpty ||
        (profile.knownTypes.map fun item => normalizeToken unicode (some item)).contains
          (normalizeToken unicode (some text.1)))) same
    rw [← reads, ← reads] at texts
    exact texts

theorem activeProfilesForNode_congr : activeProfilesForNode unicode types = activeProfilesForNode unicode types' := by
  simp only [activeProfilesForNode, matchesNode_congr unicode same]

end

theorem forcedRelationshipClassForNode_sameBrowsed {unicode : Unicode} (standard : unicode.Standard)
    {numbering : Equiv.Perm Nat} {node node' : BrowsedNode} (h : SameBrowsed numbering node node')
    (profiles : List SemanticProfile) {types types' : List OpcUaTypeDefinitionInfo}
    (same : typeTexts types = typeTexts types') :
    forcedRelationshipClassForNode unicode node profiles types =
      forcedRelationshipClassForNode unicode node' profiles types' := by
  have names (types : List OpcUaTypeDefinitionInfo) : types.map (fun item => normalizeToken unicode (some item.browseName)) =
      (typeTexts types).map fun text => normalizeToken unicode (some text.1) := by
    rw [typeTexts, List.map_map]
    rfl
  simp only [forcedRelationshipClassForNode, names, same, normalizeToken_option standard h.typeDefinitionId,
    normalizeToken_sameId standard h.nodeId, h.browseName]

theorem lineageTokens_sameId {unicode : Unicode} (standard : unicode.Standard) {numbering : Equiv.Perm Nat}
    {type type' : Option String} (h : Option.Rel (SameId numbering) type type') (name : Option String)
    (supertypes : List String) : lineageTokens unicode type name supertypes = lineageTokens unicode type' name supertypes := by
  simp only [lineageTokens, normalizeToken_option standard h]

end Mapper

namespace Browse
variable {numbering : Equiv.Perm Nat} {first second : Browse}

theorem sameId_getD {id id' : Option String} (h : Option.Rel (SameId numbering) id id') :
    SameId numbering (id.getD "") (id'.getD "") := by
  cases h with
  | none => exact .plain "" (by decide)
  | some same => exact same

section
variable (standard : first.unicode.Standard) (h : Renumbered numbering first second)
include standard h

theorem typeTexts_renumbered {node node' : BrowsedNode} (same : SameBrowsed numbering node node') :
    typeTexts (first.typeDefinitionHierarchy node) = typeTexts (second.typeDefinitionHierarchy node') := by
  simp only [typeDefinitionHierarchy, typeDefinitionHierarchyById, Dict.get?_mapValues]
  rcases option_rel_cases (h.hierarchies _ _ (sameId_getD same.typeDefinitionId)) with
    ⟨absent, absent'⟩ | ⟨types, types', found, found', alike⟩
  · rw [absent, absent']
    rfl
  · simp only [found, found', Option.map_some, Option.getD_some, typeTexts, List.map_map]
    refine forall₂_map_eq (fun info info' alike => ?_) alike
    have namespaceUri := resolveNamespaceUri_sameId standard h.zero h.namespaces alike.nodeId
    simp only [Function.comp_apply, alike.browseName, alike.namespaceUri, ← h.unicode, namespaceUri]

theorem activeProfiles_renumbered {node node' : BrowsedNode} (same : SameBrowsed numbering node node') :
    first.activeProfiles node = second.activeProfiles node' := by
  rw [activeProfiles, activeProfiles, ← h.unicode]
  exact activeProfilesForNode_congr _ (typeTexts_renumbered standard h same)

/-- Entries that say the same of corresponding nodes. -/
structure SameEntry (numbering : Equiv.Perm Nat) (entry entry' : ReferenceEntry) : Prop where
  target : SameBrowsed numbering entry.target entry'.target
  type : Option.Rel (SameId numbering) entry.referenceTypeId entry'.referenceTypeId
  name : entry.referenceBrowseName = entry'.referenceBrowseName

theorem referenceClass_renumbered {source source' : BrowsedNode} (same : SameBrowsed numbering source source')
    {entry entry' : ReferenceEntry} (alike : SameEntry numbering entry entry') :
    first.referenceClass source entry = second.referenceClass source' entry' := by
  have supertypes : entry.referenceTypeId.bind first.referenceSupertypesById.get? =
      entry'.referenceTypeId.bind second.referenceSupertypesById.get? := by
    rcases option_rel_cases alike.type with ⟨none, none'⟩ | ⟨type, type', found, found', same⟩
    · rw [none, none']
      rfl
    · rw [found, found']
      exact h.supertypes _ _ same
  simp only [referenceClass, supertypes, lineageTokens_sameId standard alike.type, alike.name, alike.target.nodeClass,
    activeProfiles_renumbered standard h same, activeProfiles_renumbered standard h alike.target, ← h.unicode,
    forcedRelationshipClassForNode_sameBrowsed standard alike.target _ (typeTexts_renumbered standard h alike.target)]

end

/-! ## Corresponding nodes and references -/

section
variable (h : Renumbered numbering first second)
include h

theorem bySourceNode_renumbered : List.Forall₂ (RelatedEntry (SameId numbering) (SameBrowsed numbering))
    first.bySourceNode.entries second.bySourceNode.entries := by
  refine Dict.forall₂_ofList (sameId_biUnique numbering) ?_
  rw [List.forall₂_map_left_iff, List.forall₂_map_right_iff]
  exact h.nodes.imp fun _ _ same => ⟨same.nodeId, same⟩

theorem sources_renumbered : List.Forall₂ (SameBrowsed numbering) first.sources second.sources :=
  Dict.forall₂_values (bySourceNode_renumbered h)

theorem childSources_renumbered {sourceId sourceId' : String} (same : SameId numbering sourceId sourceId') :
    List.Forall₂ (SameBrowsed numbering) (first.childSources sourceId) (second.childSources sourceId') := by
  rw [childSources, childSources, ModelBuilder.childSourcesByParent_get, ModelBuilder.childSourcesByParent_get,
    opcNodeInfos, opcNodeInfos, List.filter_map, List.filter_map, List.map_map, List.map_map]
  have children := List.rel_filter (R := SameBrowsed numbering)
    (p := (fun info : OpcUaNodeInfo => info.parentNodeId = some sourceId) ∘ BrowsedNode.toOpcUaNodeInfo)
    (q := (fun info : OpcUaNodeInfo => info.parentNodeId = some sourceId') ∘ BrowsedNode.toOpcUaNodeInfo)
    (fun node node' alike => by
      simp only [Function.comp_apply, decide_eq_true_eq]
      rcases option_rel_cases alike.parentNodeId with ⟨none, none'⟩ | ⟨parent, parent', found, found', id⟩
      · simp only [none, none', reduceCtorEq]
      · simp only [found, found', Option.some.injEq, id.iff same]) h.nodes
  have ids : List.Forall₂ (SameId numbering) _ _ := List.rel_map (fun _ _ alike => alike.nodeId) children
  exact List.rel_filterMap (fun _ _ id => Dict.option_rel_get? (sameId_biUnique numbering) (bySourceNode_renumbered h) id) ids

theorem referenceEntries_renumbered {source source' : BrowsedNode} (same : SameBrowsed numbering source source') :
    List.Forall₂ (SameEntry numbering) (first.referenceEntries source) (second.referenceEntries source') := by
  have empty : source.outgoingReferences = [] ↔ source'.outgoingReferences = [] := by
    rw [← List.length_eq_zero_iff, same.outgoingReferences.length_eq, List.length_eq_zero_iff]
  rw [referenceEntries, referenceEntries]
  split
  · rename_i none
    rw [if_pos (empty.mp none), List.forall₂_map_left_iff, List.forall₂_map_right_iff]
    refine (childSources_renumbered h same.nodeId).imp fun child child' alike => ⟨alike, .none, ?_⟩
    simp only [defaultRelationshipName, alike.nodeClass]
  · rename_i filled
    rw [if_neg fun none => filled (empty.mpr none)]
    refine List.rel_filterMap (fun ref ref' alike => ?_) same.outgoingReferences
    rcases option_rel_cases (Dict.option_rel_get? (sameId_biUnique numbering) (bySourceNode_renumbered h) alike.target) with
      ⟨absent, absent'⟩ | ⟨target, target', found, found', same⟩
    · simp only [absent, absent', Option.map_none]
      exact .none
    · simp only [found, found', Option.map_some]
      exact .some ⟨same, .some alike.type, congrArg some alike.name⟩

end

theorem optionRel_biUnique : Relator.BiUnique (Option.Rel (SameId numbering)) := by
  constructor
  · rintro _ _ _ (related | _) (related' | _)
    · rw [(sameId_biUnique numbering).1 related related']
    · rfl
  · rintro _ _ _ (related | _) (related' | _)
    · rw [(sameId_biUnique numbering).2 related related']
    · rfl

theorem unseenEntries_renumbered {seen seen' : List (String × Option String)}
    (known : List.Forall₂ (RelatedEntry (SameId numbering) (Option.Rel (SameId numbering))) seen seen')
    {entries entries' : List ReferenceEntry} (same : List.Forall₂ (SameEntry numbering) entries entries') :
    List.Forall₂ (SameEntry numbering) (unseenEntries seen entries) (unseenEntries seen' entries') := by
  have unique : Relator.BiUnique (RelatedEntry (SameId numbering) (Option.Rel (SameId numbering))) :=
    ⟨fun _ _ _ a b => Prod.ext ((sameId_biUnique numbering).1 a.1 b.1) (optionRel_biUnique.1 a.2 b.2),
      fun _ _ _ a b => Prod.ext ((sameId_biUnique numbering).2 a.1 b.1) (optionRel_biUnique.2 a.2 b.2)⟩
  induction same generalizing seen seen' with
  | nil => exact .nil
  | @cons entry entry' _ _ alike _ ih =>
      have key : RelatedEntry (SameId numbering) (Option.Rel (SameId numbering))
          (entry.target.nodeId, entry.referenceTypeId) (entry'.target.nodeId, entry'.referenceTypeId) :=
        ⟨alike.target.nodeId, alike.type⟩
      have inside := List.rel_mem unique key known
      rw [unseenEntries, unseenEntries]
      split
      · rename_i old
        rw [if_pos (inside.mp old)]
        exact ih known
      · rename_i new
        rw [if_neg fun old => new (inside.mpr old)]
        exact .cons alike (ih (.cons key known))

/-- Nodes of two models that one numbering relates. -/
structure Renamed (numbering : Equiv.Perm Nat) (first second : Browse) (node node' : BrowsedNode) : Prop where
  first : node ∈ first.sources
  second : node' ∈ second.sources
  same : SameBrowsed numbering node node'

theorem mem_opcNodes {browse : Browse} {node : BrowsedNode} (m : node ∈ browse.sources) : node ∈ browse.opcNodes := by
  rw [mem_sources, bySourceNode, Dict.ofList, Dict.get?_update, Dict.get?_empty, Option.or_none] at m
  have inside := lookup_mem m
  rw [List.mem_reverse, List.mem_map] at inside
  obtain ⟨other, present, same⟩ := inside
  obtain rfl : other = node := congrArg Prod.snd same
  exact present

theorem Renamed.symm {node node' : BrowsedNode} (h : Renamed numbering first second node node') :
    Renamed numbering.symm second first node' node := ⟨h.second, h.first, h.same.symm⟩

section
variable (standard : first.unicode.Standard) (h : Renumbered numbering first second) (resolvable : first.Resolvable)
include standard h resolvable

theorem Resolvable.renumbered : second.Resolvable := by
  intro node' m
  obtain ⟨node, inside, same⟩ := exists_of_forall₂ (forall₂_symm (fun _ _ => SameBrowsed.symm) h.nodes) m
  have expanded := isExpanded_sameId standard h.zero h.namespaces (by simpa using same.symm.nodeId)
  have resolved := resolvable node inside
  simp only [identity, ← h.unicode] at resolved ⊢
  rw [expanded, resolved]

theorem mappedId_renumbered {node node' : BrowsedNode} (m : node ∈ first.opcNodes) (same : SameBrowsed numbering node node') :
    first.mappedId node = second.mappedId node' := by
  have expanded := expandedNodeId_sameId standard h.zero h.namespaces same.nodeId (resolvable node m)
  simp only [mappedId, ModelBuilder.mappedId, ModelBuilder.stableI3xId, identity, ModelBuilder.kindForNode,
    same.eventNotifier, same.nodeClass, ← h.unicode, ← h.digest, expanded]

omit standard resolvable in
theorem renamed_of_source {node : BrowsedNode} (m : node ∈ first.sources) :
    ∃ node' ∈ second.sources, Renamed numbering first second node node' := by
  obtain ⟨node', inside, same⟩ := exists_of_forall₂ (sources_renumbered h) m
  exact ⟨node', inside, m, inside, same⟩

omit resolvable in
theorem linksOf_renumbered {source source' : BrowsedNode} (same : Renamed numbering first second source source') {l : Link}
    (m : l ∈ first.linksOf source) :
    ∃ l' ∈ second.linksOf source', Paired (Renamed numbering first second) first second l l' := by
  obtain ⟨entry, inside, rfl⟩ := List.mem_map.mp m
  obtain ⟨entry', inside', alike⟩ :=
    exists_of_forall₂ (unseenEntries_renumbered .nil (referenceEntries_renumbered h same.same)) inside
  refine ⟨_, List.mem_map.mpr ⟨entry', inside', rfl⟩, same, ⟨?_, ?_, alike.target⟩, ?_, ?_, ?_⟩
  · exact first.mem_referenceEntries (mem_unseenEntries inside)
  · exact second.mem_referenceEntries (mem_unseenEntries inside')
  · simp only [link, alike.name, defaultRelationshipName, alike.target.nodeClass]
  · exact referenceClass_renumbered standard h same.same alike
  · simp only [link]
    rcases option_rel_cases alike.type with ⟨none, none'⟩ | ⟨type, type', found, found', sameType⟩
    · rw [none, none']
      rfl
    · simp only [found, found', referenceNamespace, identity, ← h.unicode]
      exact (namespaceUri_sameId standard h.zero h.namespaces sameType).symm

theorem latest_renumbered {node node' : BrowsedNode} (same : Renamed numbering first second node node')
    (latest : first.Latest node) : second.Latest node' := by
  obtain ⟨before, after, shape, later⟩ := latest
  have pairs := sources_renumbered h
  rw [shape] at pairs
  obtain ⟨before', partner, after', shape', alike, rest⟩ := split_of_forall₂ pairs
  have inside (other : BrowsedNode) (m : other ∈ after) : other ∈ first.opcNodes :=
    mem_opcNodes (by rw [shape]; exact List.mem_append_right _ (List.mem_cons_of_mem _ m))
  have partnerIn : partner ∈ second.sources := by
    rw [shape']
    exact List.mem_append_right _ List.mem_cons_self
  obtain rfl : partner = node' := second.sources_eq partnerIn same.second (alike.nodeId.unique same.same.nodeId rfl)
  refine ⟨before', after', shape', fun other' m' => ?_⟩
  obtain ⟨other, m, alikeOther⟩ := exists_of_forall₂ (forall₂_symm (S := flip (SameBrowsed numbering)) (fun _ _ => id) rest) m'
  have id := mappedId_renumbered standard h resolvable (inside other m) alikeOther
  rw [← id, ← mappedId_renumbered standard h resolvable (mem_opcNodes same.first) same.same]
  exact later other m

theorem mirrors_renumbered : Mirrors (Renamed numbering first second) first second where
  unicode := h.unicode
  node _ m := renamed_of_source h m
  id _ _ same := mappedId_renumbered standard h resolvable (mem_opcNodes same.first) same.same
  same _ _ _ _ alike alike' ids := alike.same.nodeId.unique alike'.same.nodeId ids
  latest _ _ same := latest_renumbered standard h resolvable same
  link l m := by
    obtain ⟨source, inside, made⟩ := List.mem_flatMap.mp m
    obtain ⟨source', inside', same⟩ := renamed_of_source h inside
    obtain ⟨l', made', pair⟩ := linksOf_renumbered standard h same made
    exact ⟨l', List.mem_flatMap.mpr ⟨source', inside', made'⟩, pair⟩

theorem matched_renumbered : Matched (Renamed numbering first second) first second where
  forward := mirrors_renumbered standard h resolvable
  backward := by
    have back := mirrors_renumbered (by rw [← h.unicode]; exact standard) h.symm
      (Resolvable.renumbered standard h resolvable)
    have flipped : Renamed numbering.symm second first = flip (Renamed numbering first second) := by
      funext node' node
      exact propext ⟨fun alike => by simpa [flip] using alike.symm, Renamed.symm⟩
    rwa [flipped] at back

end

/-! ## Ties between parents -/

/-- A reference of the best priority among those of its plane to one element. -/
structure Best (browse : Browse) (plane : ReferenceClass) (l : Link) : Prop where
  present : l ∈ browse.links
  within : l.relationshipClass = plane
  best : ∀ other ∈ browse.links, other.relationshipClass = plane → browse.mappedId other.target = browse.mappedId l.target →
    (browse.candidate l).priority ≤ (browse.candidate other).priority

/-- Wherever several parents tie, the one with the least node id is one element
under both numberings. -/
def TiesKept (numbering : Equiv.Perm Nat) (browse : Browse) : Prop :=
  ∀ plane, Structural plane → ∀ l m, browse.Best plane l → browse.Best plane m →
    browse.mappedId l.target = browse.mappedId m.target →
    (∀ other, browse.Best plane other → browse.mappedId other.target = browse.mappedId l.target →
      l.source.nodeId ≤ other.source.nodeId) →
    (∀ other, browse.Best plane other → browse.mappedId other.target = browse.mappedId l.target →
      ∀ id id', SameId numbering m.source.nodeId id → SameId numbering other.source.nodeId id' → id ≤ id') →
    browse.mappedId l.source = browse.mappedId m.source

/-- Parents that tie for an element are of one namespace. -/
def TiesInOneNamespace (browse : Browse) : Prop :=
  ∀ plane, Structural plane → ∀ l m, browse.Best plane l → browse.Best plane m →
    browse.mappedId l.target = browse.mappedId m.target →
    ∃ k text text', l.source.nodeId = NodeIds.indexedId k text ∧ m.source.nodeId = NodeIds.indexedId k text'

/-- Within one namespace the identifiers order the parents, whatever the number of the namespace. -/
theorem TiesInOneNamespace.kept {browse : Browse} (one : browse.TiesInOneNamespace) (numbering : Equiv.Perm Nat) :
    browse.TiesKept numbering := by
  intro plane structural l m best best' target least least'
  obtain ⟨k, text, text', source, source'⟩ := one plane structural l m best best' target
  have before : text ≤ text' := by
    rw [← NodeIds.indexedId_le k, ← source, ← source']
    exact least m best' target.symm
  have after : text' ≤ text := by
    rw [← NodeIds.indexedId_le (numbering k)]
    exact least' l best rfl _ _ (source' ▸ .indexed k text') (source ▸ .indexed k text)
  rw [browse.sources_eq (browse.link_source best.present) (browse.link_source best'.present)]
  rw [source, source', le_antisymm before after]

section
variable {browse : Browse} {plane : ReferenceClass} {l : Link}

theorem key_le_iff (browse : Browse) (l other : Link) : (browse.candidate l).key ≤ (browse.candidate other).key ↔
    (browse.candidate l).priority < (browse.candidate other).priority ∨
      (browse.candidate l).priority = (browse.candidate other).priority ∧
        (l.source.nodeId < other.source.nodeId ∨ l.source.nodeId = other.source.nodeId ∧ l.name ≤ other.name) := by
  rw [Candidate.key, Candidate.key, Prod.Lex.toLex_le_toLex, Prod.Lex.toLex_le_toLex]
  rfl

theorem Leads.toBest (h : browse.Leads plane l) : browse.Best plane l where
  present := h.present
  within := h.within
  best other m same target := by
    rcases (key_le_iff browse l other).mp (h.least other m same target) with less | ⟨equal, -⟩
    · exact less.le
    · exact equal.le

theorem Best.priority_eq {other : Link} (h : browse.Best plane l) (h' : browse.Best plane other)
    (target : browse.mappedId other.target = browse.mappedId l.target) :
    (browse.candidate l).priority = (browse.candidate other).priority :=
  le_antisymm (h.best other h'.present h'.within target) (h'.best l h.present h.within target.symm)

theorem Leads.least_id (h : browse.Leads plane l) {other : Link} (best : browse.Best plane other)
    (target : browse.mappedId other.target = browse.mappedId l.target) : l.source.nodeId ≤ other.source.nodeId := by
  have equal := h.toBest.priority_eq best target
  rcases (key_le_iff browse l other).mp (h.least other best.present best.within target) with less | ⟨-, less | ⟨same, -⟩⟩
  · exact absurd equal less.ne
  · exact less.le
  · exact same.le

/-- The parent with the least node id among the best is the one that is chosen. -/
theorem Best.leads (h : browse.Best plane l)
    (least : ∀ other, browse.Best plane other → browse.mappedId other.target = browse.mappedId l.target →
      l.source.nodeId ≤ other.source.nodeId) :
    ∃ lead, browse.Leads plane lead ∧ browse.mappedId lead.target = browse.mappedId l.target ∧ lead.source = l.source := by
  obtain ⟨chosen, pick⟩ := browse.selectedByChild_isSome h.present h.within
  obtain ⟨lead, leads, target, rfl⟩ := browse.selectedByChild_eq pick
  refine ⟨lead, leads, target, browse.sources_eq (browse.link_source leads.present) (browse.link_source h.present) ?_⟩
  exact le_antisymm (leads.least_id h target.symm) (least lead leads.toBest target)

end

section
variable {alike : BrowsedNode → BrowsedNode → Prop} {plane : ReferenceClass} {l l' : Link}

theorem Matched.priority (h : Matched alike first second) (pair : Paired alike first second l l') :
    (first.candidate l).priority = (second.candidate l').priority := by
  simp only [candidate, pair.name, h.forward.unicode]

theorem Matched.best (h : Matched alike first second) (pair : Paired alike first second l l') (present : l' ∈ second.links)
    (best : first.Best plane l) : second.Best plane l' where
  present := present
  within := pair.relationshipClass.symm.trans best.within
  best other' m' within' target' := by
    obtain ⟨other, m, back⟩ := h.backward.link other' m'
    rw [← h.priority pair, h.symm.priority back]
    refine best.best other m (back.relationshipClass.symm.trans within') ?_
    rw [← h.backward.id _ _ back.target, target', h.forward.id _ _ pair.target]

end

section
variable (standard : first.unicode.Standard) (h : Renumbered numbering first second) (resolvable : first.Resolvable)
include standard h resolvable

theorem chosen_renumbered (kept : first.TiesKept numbering) {plane : ReferenceClass} (structural : Structural plane)
    {childId : String} {candidate : Candidate} (pick : (first.selectedByChild plane).get? childId = some candidate) :
    ∃ candidate', (second.selectedByChild plane).get? childId = some candidate' ∧
      first.mappedId candidate.parent = second.mappedId candidate'.parent ∧ candidate.priority = candidate'.priority := by
  have matched := matched_renumbered standard h resolvable
  obtain ⟨l, leads, target, rfl⟩ := first.selectedByChild_eq pick
  obtain ⟨l', present', pair⟩ := matched.forward.link l leads.present
  have target' : second.mappedId l'.target = childId := (matched.forward.id _ _ pair.target).symm.trans target
  obtain ⟨candidate', pick'⟩ := second.selectedByChild_isSome present' (pair.relationshipClass.symm.trans leads.within)
  rw [target'] at pick'
  refine ⟨candidate', pick', ?_⟩
  obtain ⟨m', leads', atChild, rfl⟩ := second.selectedByChild_eq pick'
  obtain ⟨m, present, back⟩ := matched.backward.link m' leads'.present
  have best : first.Best plane m := matched.symm.best back present leads'.toBest
  have meet : first.mappedId l.target = first.mappedId m.target :=
    target.trans (atChild.symm.trans (matched.backward.id _ _ back.target))
  constructor
  · refine Eq.trans ?_ (matched.backward.id _ _ back.source).symm
    refine kept plane structural l m leads.toBest best meet (fun other => leads.least_id) ?_
    intro other bestOther sameOther id id' same same'
    obtain ⟨other', presentOther, pairOther⟩ := matched.forward.link other bestOther.present
    have least := leads'.least_id (matched.best pairOther presentOther bestOther) (by
      rw [← matched.forward.id _ _ pairOther.target, sameOther, target, atChild])
    have first := (back.source : Renamed numbering _ _ _ _).same.nodeId.unique same rfl
    have second := pairOther.source.same.nodeId.unique same' rfl
    rwa [first, second] at least
  · calc (first.candidate l).priority = (first.candidate m).priority := leads.toBest.priority_eq best meet.symm
      _ = (second.candidate m').priority := (matched.symm.priority back).symm

theorem follows_renumbered (kept : first.TiesKept numbering) :
    Follows (Renamed numbering first second) first second where
  toMirrors := mirrors_renumbered standard h resolvable
  chosen _ structural _ _ pick := chosen_renumbered standard h resolvable kept structural pick

theorem corresponds_renumbered (kept : first.TiesKept numbering) :
    Corresponds (Renamed numbering first second) first second :=
  (follows_renumbered standard h resolvable kept).corresponds (matched_renumbered standard h resolvable).backward

theorem element_renumbered {id : String} {published : PublishedNode} (found : first.nodesById.get? id = some published) :
    ∃ published', second.nodesById.get? id = some published' ∧
      SameId numbering published.sourceNodeId published'.sourceNodeId := by
  have mirrors := mirrors_renumbered standard h resolvable
  obtain ⟨node, latest, rfl, rfl⟩ := (first.get?_nodesById_iff _ _).mp found
  have inside : node ∈ first.sources := by
    obtain ⟨before, after, shape, -⟩ := latest
    rw [shape]
    exact List.mem_append_right _ List.mem_cons_self
  obtain ⟨node', inside', renamed⟩ := mirrors.node node inside
  refine ⟨_, (second.get?_nodesById_iff _ _).mpr ⟨node', mirrors.latest _ _ renamed latest,
    (mirrors.id _ _ renamed).symm, rfl⟩, ?_⟩
  simp only [publishedNode]
  exact renamed.same.nodeId

theorem elements_renumbered (id : String) : Option.Rel
    (fun node node' : PublishedNode => SameId numbering node.sourceNodeId node'.sourceNodeId)
    (first.nodesById.get? id) (second.nodesById.get? id) := by
  cases found : first.nodesById.get? id with
  | some published =>
      obtain ⟨published', found', same⟩ := element_renumbered standard h resolvable found
      rw [found']
      exact .some same
  | none =>
      have absent : second.nodesById.get? id = none := by
        rw [Dict.get?_eq_none, ← (matched_renumbered standard h resolvable).keys, ← Dict.get?_eq_none]
        exact found
      rw [absent]
      exact .none

end

end Browse

/-! ## The same structure under both numberings -/

/-- The same elements for the same nodes, under the same parents and with the same
relationships. -/
structure VocabularyModel.SameStructure (numbering : Equiv.Perm Nat) (model model' : VocabularyModel) : Prop where
  elements : ∀ id, Option.Rel (fun node node' : PublishedNode => SameId numbering node.sourceNodeId node'.sourceNodeId)
    (model.nodesById.get? id) (model'.nodesById.get? id)
  hierarchyParents : ∀ id, model.hierarchyParentById.get? id = model'.hierarchyParentById.get? id
  compositionParents : ∀ id, model.compositionParentById.get? id = model'.compositionParentById.get? id
  targets : ∀ source relationship target, target ∈ model.relationshipsById.targets source relationship ↔
    target ∈ model'.relationshipsById.targets source relationship

namespace Browse
variable {numbering : Equiv.Perm Nat} {first second : Browse}

section
variable (standard : first.unicode.Standard) (h : Renumbered numbering first second) (resolvable : first.Resolvable)
include standard h resolvable

theorem sameStructure_of_tiesKept (kept : first.TiesKept numbering) :
    first.publishedVocabulary.SameStructure numbering second.publishedVocabulary := by
  have pair := corresponds_renumbered standard h resolvable kept
  constructor <;> simp only [publishedVocabulary, published]
  · exact elements_renumbered standard h resolvable
  · exact pair.hierarchyParent
  · exact pair.compositionParent
  · exact pair.targets

theorem tiesKept_of_parents
    (hierarchy : ∀ id, first.hierarchyParentById.get? id = second.hierarchyParentById.get? id)
    (composition : ∀ id, first.compositionParentById.get? id = second.compositionParentById.get? id) :
    first.TiesKept numbering := by
  intro plane structural l m best best' meet least least'
  have matched := matched_renumbered standard h resolvable
  obtain ⟨lead, leads, target, source⟩ := best.leads least
  obtain ⟨m', present', pair⟩ := matched.forward.link m best'.present
  obtain ⟨lead', leads', target', source'⟩ := (matched.best pair present' best').leads (by
    intro other' bestOther' sameOther'
    obtain ⟨other, present, back⟩ := matched.backward.link other' bestOther'.present
    refine least' other (matched.symm.best back present bestOther') ?_ _ _ pair.source.same.nodeId
      (back.source : Renamed numbering _ _ _ _).same.nodeId
    rw [← matched.backward.id _ _ back.target, sameOther', ← matched.forward.id _ _ pair.target, meet])
  have child : second.mappedId lead'.target = first.mappedId l.target := by
    rw [target', ← matched.forward.id _ _ pair.target, meet]
  have parent := matched.forward.id _ _ pair.source
  rw [parent, ← source', ← source]
  rcases structural with rfl | rfl
  · have found := (first.hierarchyParent_iff _ _).mpr ⟨lead, leads, target, rfl⟩
    have found' := (second.hierarchyParent_iff _ _).mpr ⟨lead', leads', child, rfl⟩
    rw [hierarchy, found', Option.some.injEq] at found
    exact found.symm
  · have found := (first.compositionParent_iff _ _).mpr ⟨lead, leads, target, rfl⟩
    have found' := (second.compositionParent_iff _ _).mpr ⟨lead', leads', child, rfl⟩
    rw [composition, found', Option.some.injEq] at found
    exact found.symm

/-- A renumbering shows in the structure of the model exactly if it decides a tie
between parents anew. -/
theorem buildVocabulary_renumbered :
    SameOutcome (VocabularyModel.SameStructure numbering) first.buildVocabulary second.buildVocabulary ↔
      (first.refusal = none → first.TiesKept numbering) := by
  have refused := (matched_renumbered standard h resolvable).refused
  constructor
  · intro same accepted
    have accepted' : second.refusal = none := by
      rw [← Option.not_isSome_iff_eq_none, ← refused, accepted]
      exact Bool.false_ne_true
    simp only [buildVocabulary, accepted, accepted'] at same
    cases same with
    | published agree =>
        obtain ⟨-, hierarchy, composition, -⟩ := agree
        simp only [publishedVocabulary, published] at hierarchy composition
        exact tiesKept_of_parents standard h resolvable hierarchy composition
  · intro kept
    cases error : first.refusal with
    | none => exact sameOutcome refused (sameStructure_of_tiesKept standard h resolvable (kept error))
    | some reason =>
        rw [error] at refused
        obtain ⟨reason', found⟩ := Option.isSome_iff_exists.mp refused.symm
        simp only [buildVocabulary, error, found]
        exact .refused reason reason'

end
end Browse

namespace Plant

def lineDigest (expandedNodeId : String) : String :=
  if expandedNodeId = "nsu=urn:line;s=B" then "0e155679ecdd5b17" else digest expandedNodeId

/-- Two machines in namespaces of their own that organize a third one. -/
def numbered (plant line : Nat) (namespaceUris : List String) : Browse where
  unicode := .ascii
  digest := lineDigest
  opcNodes :=
    [{ node "A" "Object" [⟨NodeIds.indexedId plant "s=C", "i=35", "Organizes"⟩] with
        nodeId := NodeIds.indexedId plant "s=A" },
      { node "B" "Object" [⟨NodeIds.indexedId plant "s=C", "i=35", "Organizes"⟩] with
        nodeId := NodeIds.indexedId line "s=B" },
      { node "C" "Object" [] with nodeId := NodeIds.indexedId plant "s=C" }]
  namespaceInfos := namespaceUris.map OpcUaNamespaceInfo.mk
  referenceSupertypesById := .empty
  resolvedHierarchies := .empty

def plantFirst : Browse := numbered 1 2 [NodeIds.standardNamespace, "urn:plant", "urn:line"]

def lineFirst : Browse := numbered 2 1 [NodeIds.standardNamespace, "urn:line", "urn:plant"]

theorem numbered_renumbered : Renumbered (Equiv.swap 1 2) plantFirst lineFirst where
  zero := by decide
  unicode := rfl
  digest := rfl
  namespaces k := by
    match k with
    | 0 | 1 | 2 => decide
    | k + 3 =>
        rw [Equiv.swap_apply_of_ne_of_ne (by omega) (by omega)]
        rfl
  nodes := by
    have organized : List.Forall₂ (SameReference (Equiv.swap 1 2))
        [⟨NodeIds.indexedId 1 "s=C", "i=35", "Organizes"⟩] [⟨NodeIds.indexedId 2 "s=C", "i=35", "Organizes"⟩] :=
      .cons ⟨.indexed 1 _, .plain _ (by decide), rfl⟩ .nil
    exact .cons ⟨.indexed 1 _, .none, rfl, rfl, rfl, .none, rfl, .none, organized, rfl, rfl, rfl, rfl, rfl⟩
      (.cons ⟨.indexed 2 _, .none, rfl, rfl, rfl, .none, rfl, .none, organized, rfl, rfl, rfl, rfl, rfl⟩
        (.cons ⟨.indexed 1 _, .none, rfl, rfl, rfl, .none, rfl, .none, .nil, rfl, rfl, rfl, rfl, rfl⟩ .nil))
  supertypes _ _ _ := rfl
  hierarchies _ _ _ := .none

theorem numbered_resolvable : plantFirst.Resolvable := by decide

/-- The machine that the lower number names is the parent of the shared one. -/
theorem numbering_matters :
    Renumbered (Equiv.swap 1 2) plantFirst lineFirst ∧ plantFirst.Resolvable ∧
      ¬ SameOutcome (VocabularyModel.SameStructure (Equiv.swap 1 2)) plantFirst.buildVocabulary
        lineFirst.buildVocabulary := by
  refine ⟨numbered_renumbered, numbered_resolvable, fun same => ?_⟩
  have accepted : plantFirst.refusal = none := by decide
  have accepted' : lineFirst.refusal = none := by decide
  simp only [Browse.buildVocabulary, accepted, accepted'] at same
  cases same with
  | published agree =>
      have parents := agree.hierarchyParents "asset-7133d1e37f5c2c62"
      simp only [Browse.publishedVocabulary, Browse.published] at parents
      exact absurd parents (by decide)

/-- Two machines of one namespace that organize a third one of the other namespace. -/
def neighbours (plant line : Nat) (namespaceUris : List String) : Browse :=
  { numbered plant line namespaceUris with
    opcNodes :=
      [{ node "A" "Object" [⟨NodeIds.indexedId line "s=B", "i=35", "Organizes"⟩] with
          nodeId := NodeIds.indexedId plant "s=A" },
        { node "C" "Object" [⟨NodeIds.indexedId line "s=B", "i=35", "Organizes"⟩] with
          nodeId := NodeIds.indexedId plant "s=C" },
        { node "B" "Object" [] with nodeId := NodeIds.indexedId line "s=B" }] }

def plantNeighbours : Browse := neighbours 1 2 [NodeIds.standardNamespace, "urn:plant", "urn:line"]

def lineNeighbours : Browse := neighbours 2 1 [NodeIds.standardNamespace, "urn:line", "urn:plant"]

theorem neighbours_renumbered : Renumbered (Equiv.swap 1 2) plantNeighbours lineNeighbours where
  zero := by decide
  unicode := rfl
  digest := rfl
  namespaces := numbered_renumbered.namespaces
  nodes := by
    have organized : List.Forall₂ (SameReference (Equiv.swap 1 2))
        [⟨NodeIds.indexedId 2 "s=B", "i=35", "Organizes"⟩] [⟨NodeIds.indexedId 1 "s=B", "i=35", "Organizes"⟩] :=
      .cons ⟨.indexed 2 _, .plain _ (by decide), rfl⟩ .nil
    exact .cons ⟨.indexed 1 _, .none, rfl, rfl, rfl, .none, rfl, .none, organized, rfl, rfl, rfl, rfl, rfl⟩
      (.cons ⟨.indexed 1 _, .none, rfl, rfl, rfl, .none, rfl, .none, organized, rfl, rfl, rfl, rfl, rfl⟩
        (.cons ⟨.indexed 2 _, .none, rfl, rfl, rfl, .none, rfl, .none, .nil, rfl, rfl, rfl, rfl, rfl⟩ .nil))
  supertypes _ _ _ := rfl
  hierarchies _ _ _ := .none

/-- The two machines tie, and both are of the plant. -/
theorem neighbours_ties : plantNeighbours.TiesInOneNamespace := by
  have sources : ∀ l ∈ plantNeighbours.links, l.source.nodeId = NodeIds.indexedId 1 "s=A" ∨
      l.source.nodeId = NodeIds.indexedId 1 "s=C" := by decide
  intro plane _ l m best best' _
  rcases sources l best.present with source | source <;> rcases sources m best'.present with source' | source' <;>
    exact ⟨1, _, _, source, source'⟩

/-- The same machine is the parent under both numberings, and a tie between two
namespaces is decided anew. -/
theorem numbered_outcome :
    plantNeighbours.buildVocabulary = .ok plantNeighbours.publishedVocabulary ∧
      (plantNeighbours.links.map fun l => (l.source.nodeId, l.target.nodeId)) = [("ns=1;s=A", "ns=2;s=B"), ("ns=1;s=C", "ns=2;s=B")] ∧
      SameOutcome (VocabularyModel.SameStructure (Equiv.swap 1 2)) plantNeighbours.buildVocabulary
        lineNeighbours.buildVocabulary ∧
      (SameOutcome (VocabularyModel.SameStructure (Equiv.swap 1 2)) plantFirst.buildVocabulary lineFirst.buildVocabulary ↔
        (plantFirst.refusal = none → plantFirst.TiesKept (Equiv.swap 1 2))) := by
  have accepted : plantNeighbours.refusal = none := by decide
  refine ⟨?_, by decide, ?_, ?_⟩
  · simp only [Browse.buildVocabulary, accepted]
  · exact (Browse.buildVocabulary_renumbered NodeIds.ascii_standard neighbours_renumbered (by decide)).mpr
      fun _ => neighbours_ties.kept _
  · exact Browse.buildVocabulary_renumbered NodeIds.ascii_standard numbered_renumbered numbered_resolvable

end Plant
end I3x
