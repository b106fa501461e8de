import I3xServer.Model.References

/-!
# The generic profile

The profile that is always active repeats the rules of the classifier in names of
its own. The two differ for names of type metadata, for names of events and for the
id of the non-hierarchical root where its name is missing.
-/
namespace I3x

def IsAscii (s : String) : Prop := ∀ c ∈ s.toList, c.val < 128

instance (s : String) : Decidable (IsAscii s) := List.decidableBAll _ _

/-- Texts of ASCII characters are treated as every Unicode version treats them. -/
structure Unicode.ExtendsAscii (unicode : Unicode) : Prop where
  strip : ∀ s : String, IsAscii s → unicode.strip s = Text.ascii.strip s
  lower : ∀ s : String, IsAscii s → unicode.lower s = Text.ascii.lower s
  isAlnum : ∀ c : Char, c.val < 128 → unicode.isAlnum c = c.isAlphanum

namespace Mapper

def eventReferenceNames : List String := ["generatesevent", "haseventsource"]

/-- All names in the rules of the generic profile. -/
def genericReferenceNames : List String :=
  hierarchyReferenceNames ++ compositionReferenceNames ++ graphReferenceNames ++ eventReferenceNames

/-- The names and ids under which the built-in rules find a reference that is not
of the graph. -/
def familyTokens : List String :=
  hierarchyReferenceNames ++ hierarchyReferenceNodeIds ++ compositionReferenceNames ++ compositionReferenceNodeIds

/-- A lineage that the generic profile does not classify in its own way. -/
structure GenericNeutral (tokens : List String) : Prop where
  typeMeta : meets tokens genericReferenceNames = true →
    meets tokens (typeMetaReferenceNames ++ typeMetaReferenceNodeIds) = false
  events : meets tokens eventReferenceNames = true →
    hasNonhierarchicalRoot tokens = true ∨ meets tokens familyTokens = false
  root : "i32" ∈ tokens → meets tokens compositionReferenceNames = true →
    meets tokens (graphReferenceNames ++ eventReferenceNames) = true

theorem meets_append (tokens names more : List String) :
    meets tokens (names ++ more) = (meets tokens names || meets tokens more) := by
  rw [Bool.eq_iff_iff]
  simp only [meets, List.any_eq_true, decide_eq_true_eq, List.mem_append, Bool.or_eq_true]
  exact ⟨fun ⟨token, m, either⟩ => either.imp (⟨token, m, ·⟩) (⟨token, m, ·⟩),
    fun either => either.elim (fun ⟨token, m, here⟩ => ⟨token, m, .inl here⟩) fun ⟨token, m, here⟩ => ⟨token, m, .inr here⟩⟩

theorem meets_nil (tokens : List String) : meets tokens [] = false := by
  simp [meets]

theorem meets_cons (tokens : List String) (name : String) (names : List String) :
    meets tokens (name :: names) = (decide (name ∈ tokens) || meets tokens names) := by
  rw [← List.singleton_append, meets_append]
  congr 1
  rw [Bool.eq_iff_iff]
  simp [meets]

theorem afterLast_subset (separator : Char) (cs : List Char) : afterLast separator cs ⊆ cs := fun _ m =>
  List.mem_reverse.mp ((List.takeWhile_sublist _).subset (List.mem_reverse.mp m))

theorem isAscii_strip {s : String} (ascii : IsAscii s) : IsAscii (Text.ascii.strip s) := by
  intro c m
  change c ∈ (String.ofList _).toList at m
  rw [String.toList_ofList, List.mem_reverse] at m
  have inside := (List.dropWhile_sublist _).subset m
  rw [List.mem_reverse] at inside
  exact ascii c ((List.dropWhile_sublist _).subset inside)

theorem isAscii_lower {s : String} (ascii : IsAscii s) : IsAscii (Text.ascii.lower s) := by
  intro c m
  change c ∈ (String.ofList _).toList at m
  rw [String.toList_ofList] at m
  obtain ⟨upper, inside, rfl⟩ := List.mem_map.mp m
  have small := ascii upper inside
  by_cases letter : upper.val ≥ 'A'.val ∧ upper.val ≤ 'Z'.val
  · have shifted : upper.toLower.val = upper.val + ('a'.val - 'A'.val) :=
      congrArg Char.val (show upper.toLower = _ from dif_pos letter)
    have most : upper.val.toNat ≤ 90 := UInt32.le_iff_toNat_le.mp letter.2
    have shift : ('a'.val - 'A'.val).toNat = 32 := rfl
    rw [shifted, UInt32.lt_iff_toNat_lt, UInt32.toNat_add, shift]
    have size : (128 : UInt32).toNat = 128 := rfl
    omega
  · rw [show upper.toLower = upper from dif_neg letter]
    exact small

/-- Names of ASCII characters are normalised alike by all Unicode versions. -/
theorem normalizeToken_ascii {unicode : Unicode} (extends_ : unicode.ExtendsAscii) {name : String} (ascii : IsAscii name) :
    normalizeToken unicode (some name) = normalizeToken .ascii (some name) := by
  have stripped : unicode.strip name = Text.ascii.strip name := extends_.strip name ascii
  have lowered : unicode.lower (Text.ascii.strip name) = Text.ascii.lower (Text.ascii.strip name) :=
    extends_.lower _ (isAscii_strip ascii)
  have plain := isAscii_lower (isAscii_strip ascii)
  unfold normalizeToken
  rw [Option.getD_some, stripped, lowered]
  refine congrArg String.ofList (List.filter_congr fun c m => ?_)
  exact extends_.isAlnum c (plain c (afterLast_subset _ _ (afterLast_subset _ _ (afterLast_subset _ _ m))))

theorem normalizeToken_names {unicode : Unicode} (extends_ : unicode.ExtendsAscii) {names : List String}
    (ascii : ∀ name ∈ names, IsAscii name) :
    names.map (fun name => normalizeToken unicode (some name)) =
      names.map fun name => normalizeToken .ascii (some name) :=
  List.map_congr_left fun name m => normalizeToken_ascii extends_ (ascii name m)

theorem classifyHierarchicalFamily_ne (tokens : List String) (targetNodeClass : Option String) :
    classifyHierarchicalFamily tokens targetNodeClass ≠ .graph ∧
      classifyHierarchicalFamily tokens targetNodeClass ≠ .typeMeta := by
  unfold classifyHierarchicalFamily
  split
  · exact ⟨nofun, nofun⟩
  · split
    · split
      · split <;> exact ⟨nofun, nofun⟩
      · exact ⟨nofun, nofun⟩
    · exact ⟨nofun, nofun⟩

section
variable {unicode : Unicode} (extends_ : unicode.ExtendsAscii)
include extends_

/-- The rules of the generic profile in normalised names. -/
theorem genericProfile_rules (tokens : List String) (targetNodeClass : Option String) :
    referenceClassFromProfileRules unicode tokens [genericProfile] targetNodeClass =
      if meets tokens (graphReferenceNames ++ eventReferenceNames) then some .graph
      else if meets tokens hierarchyReferenceNames || meets tokens compositionReferenceNames then
        some (classifyHierarchicalFamily tokens targetNodeClass)
      else none := by
  have graph := (normalizeToken_names extends_ (by decide : ∀ name ∈ genericProfile.graphReferences, IsAscii name)).trans
    (by decide : _ = graphReferenceNames ++ eventReferenceNames)
  have hierarchy := (normalizeToken_names extends_
    (by decide : ∀ name ∈ genericProfile.hierarchyReferences, IsAscii name)).trans (by decide : _ = hierarchyReferenceNames)
  have composition := (normalizeToken_names extends_
    (by decide : ∀ name ∈ genericProfile.compositionReferences, IsAscii name)).trans
    (by decide : _ = compositionReferenceNames)
  simp only [referenceClassFromProfileRules, List.findSome?_cons, List.findSome?_nil, graph, hierarchy, composition]
  split_ifs <;> rfl

end

/-- The rules of the classifier with the repeated ones left out. -/
theorem classifyOpcuaReference_rules (tokens : List String) (targetNodeClass : Option String) :
    classifyOpcuaReference tokens targetNodeClass =
      if meets tokens (typeMetaReferenceNames ++ typeMetaReferenceNodeIds) then .typeMeta
      else if hasNonhierarchicalRoot tokens then .graph
      else if hasHierarchicalRoot tokens || meets tokens (compositionReferenceNames ++ compositionReferenceNodeIds) then
        classifyHierarchicalFamily tokens targetNodeClass
      else if meets tokens (hierarchyReferenceNames ++ hierarchyReferenceNodeIds) then .hierarchy
      else .graph := by
  simp only [classifyOpcuaReference, meets_append]
  cases meets tokens typeMetaReferenceNames <;> cases meets tokens typeMetaReferenceNodeIds <;>
    cases hasNonhierarchicalRoot tokens <;> cases hasHierarchicalRoot tokens <;>
    cases meets tokens compositionReferenceNames <;> cases meets tokens compositionReferenceNodeIds <;>
    cases meets tokens hierarchyReferenceNames <;> simp

theorem familyTokens_rules (tokens : List String) : meets tokens familyTokens =
    (hasHierarchicalRoot tokens || meets tokens (compositionReferenceNames ++ compositionReferenceNodeIds) ||
      meets tokens (hierarchyReferenceNames ++ hierarchyReferenceNodeIds)) := by
  have ids : meets tokens hierarchyReferenceNodeIds = (decide ("i35" ∈ tokens) || meets tokens ["i33"]) := meets_cons ..
  simp only [familyTokens, hasHierarchicalRoot, meets_append, ids]
  cases meets tokens hierarchyReferenceNames <;> cases meets tokens ["i33"] <;>
    simp [Bool.or_comm, Bool.or_assoc]

theorem classifyOpcuaReference_graph (tokens : List String) (targetNodeClass : Option String) :
    classifyOpcuaReference tokens targetNodeClass = .graph ↔
      meets tokens (typeMetaReferenceNames ++ typeMetaReferenceNodeIds) = false ∧
        (hasNonhierarchicalRoot tokens = true ∨ meets tokens familyTokens = false) := by
  have family := classifyHierarchicalFamily_ne tokens targetNodeClass
  rw [classifyOpcuaReference_rules, familyTokens_rules]
  split_ifs with typeMeta root known named
  · simp [typeMeta]
  · simp_all
  · rcases Bool.or_eq_true_iff.mp known with known | known <;> simp_all
  · simp_all
  · simp_all

/-- The built-in rules place a lineage of a hierarchical or composition name in the
family, given that it has no more than one root. -/
theorem classifyOpcuaReference_family {tokens : List String} (targetNodeClass : Option String)
    (named : meets tokens hierarchyReferenceNames = true ∨ meets tokens compositionReferenceNames = true) :
    classifyHierarchicalFamily tokens targetNodeClass = classifyOpcuaReference tokens targetNodeClass ↔
      meets tokens (typeMetaReferenceNames ++ typeMetaReferenceNodeIds) = false ∧ hasNonhierarchicalRoot tokens = false := by
  have family := classifyHierarchicalFamily_ne tokens targetNodeClass
  have known : (hasHierarchicalRoot tokens ||
      meets tokens (compositionReferenceNames ++ compositionReferenceNodeIds)) = true := by
    rw [hasHierarchicalRoot, meets_append, meets_append]
    rcases named with named | named <;> simp [named]
  rw [classifyOpcuaReference_rules]
  split_ifs with typeMeta root <;> simp_all

/-- **The generic profile changes the class of a reference exactly if its lineage is
not neutral and has at most one root.** -/
theorem generic_agrees_iff {unicode : Unicode} (extends_ : unicode.ExtendsAscii)
    (referenceTypeNodeId referenceBrowseName : Option String) (supertypeBrowseNames : List String)
    (targetNodeClass : Option String) :
    let tokens := lineageTokens unicode referenceTypeNodeId referenceBrowseName supertypeBrowseNames
    classifyWithProfiles unicode tokens targetNodeClass [genericProfile] =
        classifyOpcuaReference tokens targetNodeClass ↔
      (hasNonhierarchicalRoot tokens = true ∧ hasHierarchicalRoot tokens = true) ∨ GenericNeutral tokens := by
  intro tokens
  by_cases ambiguous : hasNonhierarchicalRoot tokens = true ∧ hasHierarchicalRoot tokens = true
  · simp [classifyWithProfiles, ambiguous]
  rw [or_iff_right ambiguous, classifyWithProfiles, genericProfile_rules extends_]
  rw [if_neg (by simpa using ambiguous)]
  have generic : meets tokens genericReferenceNames = (meets tokens hierarchyReferenceNames ||
      meets tokens compositionReferenceNames || meets tokens (graphReferenceNames ++ eventReferenceNames)) := by
    rw [genericReferenceNames, List.append_assoc, meets_append, meets_append]
  have roots : hasNonhierarchicalRoot tokens = (meets tokens graphReferenceNames || decide ("i32" ∈ tokens)) := by
    rw [hasNonhierarchicalRoot, meets_append, meets_cons, meets_nil, Bool.or_false]
  by_cases graph : meets tokens (graphReferenceNames ++ eventReferenceNames) = true
  · rw [if_pos graph]
    refine eq_comm.trans ((classifyOpcuaReference_graph tokens targetNodeClass).trans ?_)
    refine ⟨fun ⟨typeMeta, root⟩ => ⟨fun _ => typeMeta, fun _ => root, fun _ _ => graph⟩, fun neutral => ?_⟩
    refine ⟨neutral.typeMeta (by rw [generic, graph, Bool.or_true]), ?_⟩
    by_cases event : meets tokens eventReferenceNames = true
    · exact neutral.events event
    · rw [meets_append, Bool.eq_false_iff.mpr event, Bool.or_false] at graph
      exact .inl (by rw [roots, graph, Bool.true_or])
  rw [if_neg graph]
  have unnamed := Bool.eq_false_iff.mpr graph
  have plain : meets tokens graphReferenceNames = false ∧ meets tokens eventReferenceNames = false := by
    rwa [meets_append, Bool.or_eq_false_iff] at unnamed
  by_cases named : meets tokens hierarchyReferenceNames = true ∨ meets tokens compositionReferenceNames = true
  · rw [if_pos (by simpa using named)]
    refine (classifyOpcuaReference_family targetNodeClass named).trans ⟨fun ⟨typeMeta, root⟩ => ?_, fun neutral => ?_⟩
    · refine ⟨fun _ => typeMeta, fun event => ?_, fun id => ?_⟩
      · rw [plain.2] at event
        cases event
      · rw [roots, plain.1, Bool.false_or, decide_eq_false_iff_not] at root
        exact absurd id root
    · refine ⟨neutral.typeMeta (by rw [generic]; simpa using .inl named), ?_⟩
      rw [roots, plain.1, Bool.false_or, decide_eq_false_iff_not]
      intro id
      rcases named with hierarchy | composition
      · refine ambiguous ⟨by rw [roots]; simp [id], ?_⟩
        rw [hasHierarchicalRoot, meets_append, hierarchy, Bool.true_or]
      · exact graph (neutral.root id composition)
  · obtain ⟨hierarchy, composition⟩ := not_or.mp named
    rw [if_neg (by simpa using named)]
    refine iff_of_true rfl ⟨fun all => ?_, fun event => ?_, fun _ here => absurd here composition⟩
    · rw [generic] at all
      simp_all
    · rw [plain.2] at event
      cases event

theorem ascii_extendsAscii : Unicode.ExtendsAscii .ascii := ⟨fun _ _ => rfl, fun _ _ => rfl, fun _ _ => rfl⟩

/-- The reference to a type definition belongs to the graph once the profile is asked. -/
theorem typeDefinition_reclassified : ¬ ∀ (referenceTypeNodeId referenceBrowseName : Option String)
    (supertypeBrowseNames : List String) (targetNodeClass : Option String),
    let tokens := lineageTokens .ascii referenceTypeNodeId referenceBrowseName supertypeBrowseNames
    classifyWithProfiles .ascii tokens targetNodeClass [genericProfile] =
      classifyOpcuaReference tokens targetNodeClass := by
  intro agree
  have typeDefinition := agree (some "i=40") (some "HasTypeDefinition") ["NonHierarchicalReferences", "References"] none
  exact absurd typeDefinition (by decide)

theorem generic_agrees_component :
    let tokens := lineageTokens .ascii (some "i=47") (some "HasComponent") ["Aggregates", "HierarchicalReferences"]
    classifyWithProfiles .ascii tokens (some "Variable") [genericProfile] =
        classifyOpcuaReference tokens (some "Variable") ↔
      (hasNonhierarchicalRoot tokens = true ∧ hasHierarchicalRoot tokens = true) ∨ GenericNeutral tokens :=
  generic_agrees_iff ascii_extendsAscii _ _ _ _

end Mapper
end I3x
