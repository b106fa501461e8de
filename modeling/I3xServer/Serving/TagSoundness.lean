import I3xServer.Api.ObjectList
import I3xServer.Serving.ContextRuns

/-!
# What one tag stands for

Responses of one tag to one URL are made of models, namespaces and type ids of one
content, so they list the same objects and the same types. This takes the hashes as
injective; the models are those that a builder makes of a browse result.
-/
namespace I3x.Serving
open Coroutine Container Api
variable {T I : Type}

/-- A namespace with all that the tokens are made of. -/
structure NamespaceEntry extends NamespaceDetails where
  displayName : String
  deriving DecidableEq, Repr

/-- The items of a context and its maps of element ids. -/
structure ContextContent (I : Type) where
  elementIdsByNodeId : Dict String String
  items : List I
  sourceTypeToElementId : Dict String String

/-- The hash functions at each kind of content. -/
structure Digests (T I : Type) where
  text : String → String
  namespaces : List NamespaceEntry → String
  objectTypes : T → String
  context : List NamespaceEntry × String × List I × List (String × String) × List (String × String) → String
  revisions : List (String × String) → String

/-- Contents of one hash are the same, but for the listed object types. -/
structure Digests.Injective (digests : Digests T I) : Prop where
  text : Function.Injective digests.text
  namespaces : Function.Injective digests.namespaces
  context : Function.Injective digests.context
  revisions : Function.Injective digests.revisions

def Digests.hashes (digests : Digests T I) : ContentHashes Browse (List NamespaceEntry) T (ContextContent I) where
  modelRevision browse := computeModelRevision digests.text browse.lookupModel
  namespacesRevision := digests.namespaces
  objectTypesToken := digests.objectTypes
  contextRevision namespaceInfos objectTypes content := digests.context
    (namespaceInfos, digests.objectTypes objectTypes, content.items, sortedItems content.elementIdsByNodeId,
      sortedItems content.sourceTypeToElementId)

abbrev ModelHandled (T I : Type) := Handled Browse (List NamespaceEntry) T (ContextContent I)

def typeIdsOf (context : Option (ObjectTypeContext (List NamespaceEntry) T (ContextContent I))) : TypeIdMaps :=
  match context with
  | some context => ⟨context.content.elementIdsByNodeId, context.content.sourceTypeToElementId⟩
  | none => ⟨.empty, .empty⟩

section
variable (text : PatternText)

/-- The body of a list of objects. -/
def objectsBody (query : ObjectsQuery) (reply : ModelHandled T I) : List ObjectInstanceResponse :=
  objects text reply.model.published (reply.namespaceInfos.map NamespaceEntry.toNamespaceDetails)
    (typeIdsOf reply.context) query

/-- The body of a list of object types, all of them or those of one namespace. -/
def typesBody (namespaceUri : I → String) (filter : Option String) (reply : ModelHandled T I) : List I :=
  let items := match reply.context with
    | some context => context.content.items
    | none => []
  match filter with
  | some uri =>
      if uri = "" then items
      else
        let canonicalFilter := canonicalNamespaceUri text uri
          (reply.namespaceInfos.map NamespaceEntry.toNamespaceDetails)
        items.filter fun item => namespaceUri item = canonicalFilter
  | none => items

end

/-! ## What the recorded revisions say -/

theorem get?_recordRevision_self (parts : RevisionParts) (name revision : String) :
    ((recordRevision parts name revision).get? name).getD "" =
      if revision = "" then (parts.get? name).getD "" else revision := by
  unfold recordRevision
  split
  · rfl
  · rw [Dict.get?_set_self, Option.getD_some]

theorem get?_recordRevision_ne (parts : RevisionParts) {name other : String} (revision : String) (ne : other ≠ name) :
    (recordRevision parts name revision).get? other = parts.get? other := by
  unfold recordRevision
  split
  · rfl
  · exact Dict.get?_set_ne parts revision ne

section
variable {M N T E : Type} (hashes : ContentHashes M N T E)

theorem requestParts_model (model : M) :
    ((requestParts hashes model).get? modelPart).getD "" = hashes.modelRevision model := by
  rw [requestParts, get?_recordRevision_self]
  split
  · rename_i blank
    rw [blank]
    rfl
  · rfl

theorem requestParts_other (model : M) {name : String} (ne : name ≠ modelPart) (flag : name ≠ etagEnabled) :
    (requestParts hashes model).get? name = none := by
  rw [requestParts, get?_recordRevision_ne _ _ ne, enableEtag, get?_recordRevision_ne _ _ flag]
  rfl

/-- The revision recorded first under a name, or none. -/
theorem recorded_first {parts : RevisionParts} {name : String} (unset : parts.get? name = none) (revision : String) :
    ((recordRevision parts name revision).get? name).getD "" = revision := by
  rw [get?_recordRevision_self, unset]
  split
  · rename_i blank
    rw [blank]
    rfl
  · rfl

theorem typesParts_recorded (model : M) (context : ObjectTypeContext N T E) :
    ((typesParts hashes model context).get? modelPart).getD "" = hashes.modelRevision model ∧
      ((typesParts hashes model context).get? objectTypesPart).getD "" = context.revision := by
  refine ⟨?_, recorded_first (requestParts_other hashes model (by decide) (by decide)) _⟩
  rw [typesParts, get?_recordRevision_ne _ _ (by decide), requestParts_model]

theorem endpointParts_recorded (model : M) (namespaceInfos : N) (context : ObjectTypeContext N T E) :
    let parts := endpointParts hashes model namespaceInfos (some context)
    (parts.get? modelPart).getD "" = hashes.modelRevision model ∧
      (parts.get? objectTypesPart).getD "" = context.revision ∧
      (parts.get? namespacesPart).getD "" = hashes.namespacesRevision namespaceInfos := by
  intro parts
  have recorded : parts = recordRevision (typesParts hashes model context) namespacesPart
      (hashes.namespacesRevision namespaceInfos) := rfl
  have types := typesParts_recorded hashes model context
  rw [recorded, get?_recordRevision_ne _ _ (by decide), get?_recordRevision_ne _ _ (by decide)]
  refine ⟨types.1, types.2, recorded_first ?_ _⟩
  · rw [typesParts, get?_recordRevision_ne _ _ (by decide), requestParts_other hashes model (by decide) (by decide)]

/-- A response without context has no tag. -/
theorem endpointParts_untagged (contentRevision : List (String × String) → String) (model : M) (namespaceInfos : N) :
    representationEtag contentRevision
      (endpointParts hashes model namespaceInfos (none : Option (ObjectTypeContext N T E))) = none := by
  have marked : notCacheable ∈ (endpointParts hashes model namespaceInfos
      (none : Option (ObjectTypeContext N T E))).keys := by
    refine (Dict.mem_keys _ _).mpr ⟨"1", ?_⟩
    rw [endpointParts, get?_recordRevision_ne _ _ (by decide)]
    exact Dict.get?_set_self _ _ _
  rw [representationEtag, representationRevision, if_pos (.inr marked)]
  rfl

end

/-! ## One tag -/

section
variable {digests : Digests T I}

/-- A context was made by a build. -/
def Made (digests : Digests T I) (context : ObjectTypeContext (List NamespaceEntry) T (ContextContent I)) : Prop :=
  context.revision = digests.hashes.contextRevision context.namespaceInfos context.objectTypes context.content

theorem Built.made {h : ContextHistory Browse (List NamespaceEntry) T (ContextContent I)} {model : Browse}
    {namespaceInfos : List NamespaceEntry} {objectTypes : T}
    {context : ObjectTypeContext (List NamespaceEntry) T (ContextContent I)}
    (built : Built digests.hashes h model namespaceInfos objectTypes context) : Made digests context := by
  obtain ⟨t, content, -, rfl⟩ := built
  rfl

theorem made_of_either {t : ContextTag Browse} {h : ContextHistory Browse (List NamespaceEntry) T (ContextContent I)}
    {model : Browse} {namespaceInfos : List NamespaceEntry}
    {context : ObjectTypeContext (List NamespaceEntry) T (ContextContent I)}
    (either : Current digests.hashes t model namespaceInfos h context ∨ Stale digests.hashes t h context) :
    Made digests context := by
  rcases either with ⟨_, _, _, -, built, -, -⟩ | ⟨-, _, _, _, built⟩
  · exact built.made
  · exact built.made

/-- Contexts of one revision have the same content. -/
theorem same_content (injective : digests.Injective)
    {context context' : ObjectTypeContext (List NamespaceEntry) T (ContextContent I)} (made : Made digests context)
    (made' : Made digests context') (same : context.revision = context'.revision) :
    context.namespaceInfos = context'.namespaceInfos ∧ context.content.items = context'.content.items ∧
      (typeIdsOf (some context)).Same (typeIdsOf (some context')) := by
  have contents := injective.context ((made.symm.trans same).trans made')
  simp only [Prod.mk.injEq] at contents
  obtain ⟨infos, -, items, byNodeId, bySourceType⟩ := contents
  exact ⟨infos, items, get?_of_sortedItems byNodeId, get?_of_sortedItems bySourceType⟩

/-- What a response of a run is made of, by the call it answers. -/
inductive Accounted (digests : Digests T I) : ContextCall Browse → ModelHandled T I → Prop
  | objects (model : Browse) (reply) (own : reply.model = model)
      (parts : reply.parts = endpointParts digests.hashes model reply.namespaceInfos reply.context)
      (made : ∀ context, reply.context = some context → Made digests context) :
      Accounted digests (.getObjects model) reply
  | types (model : Browse) (reply context) (found : reply.context = some context)
      (infos : reply.namespaceInfos = context.namespaceInfos)
      (parts : reply.parts = typesParts digests.hashes model context) (made : Made digests context) :
      Accounted digests (.getObjectTypes model) reply

theorem accounted_of_run {c : ContextConfig Browse (List NamespaceEntry) T (ContextContent I)}
    (run : Reachable (typeContexts digests.hashes) .initial c) {t : ContextTag Browse} {reply : ModelHandled T I}
    (returned : .returned t (.handled reply) ∈ c.history) : Accounted digests t.call reply := by
  obtain ⟨later, earlier, split⟩ := List.append_of_mem returned
  have answered := (reachable_consistent run).2 later _ earlier split
  obtain ⟨n, call⟩ := t
  cases call with
  | getObjects model =>
      obtain ⟨own, -, parts, provided⟩ := answered
      exact .objects model reply own parts fun context found => made_of_either (provided context found)
  | getObjectTypes model =>
      obtain ⟨-, context, _, found, infos, parts, -, either⟩ := answered
      exact .types model reply context found infos parts (made_of_either either)
  | warm model => exact answered.elim
  | refresh model => exact answered.elim
  | modelBuilt model byRequest => exact answered.elim

theorem objects_of_tag (injective : digests.Injective) {model model' : Browse} {reply reply' : ModelHandled T I}
    (one : Accounted digests (.getObjects model) reply) (other : Accounted digests (.getObjects model') reply')
    {etag : String} (tag : representationEtag digests.revisions reply.parts = some etag)
    (tag' : representationEtag digests.revisions reply'.parts = some etag) (listed : OneLister reply.model.published)
    (text : PatternText) (query : ObjectsQuery) :
    (objectsBody text query reply).Perm (objectsBody text query reply') := by
  obtain ⟨_, _, own, parts, made⟩ := one
  obtain ⟨_, _, own', parts', made'⟩ := other
  -- with a tag comes a context
  cases found : reply.context with
  | none =>
      rw [parts, found, endpointParts_untagged] at tag
      cases tag
  | some context =>
      cases found' : reply'.context with
      | none =>
          rw [parts', found', endpointParts_untagged] at tag'
          cases tag'
      | some context' =>
          have recorded {name : String} (data : isFlag name = false) :=
            congrArg (Option.getD · "") (recorded_of_tag injective.revisions tag tag' data)
          rw [parts, parts', found, found'] at recorded
          obtain ⟨modelHere, contextHere, infosHere⟩ :=
            endpointParts_recorded digests.hashes model reply.namespaceInfos context
          obtain ⟨modelThere, contextThere, infosThere⟩ :=
            endpointParts_recorded digests.hashes model' reply'.namespaceInfos context'
          have models := modelHere.symm.trans ((recorded (by decide)).trans modelThere)
          have contexts := contextHere.symm.trans ((recorded (by decide)).trans contextThere)
          have infos := injective.namespaces (infosHere.symm.trans ((recorded (by decide)).trans infosThere))
          obtain ⟨-, -, maps⟩ := same_content injective (made context found) (made' context' found') contexts
          have roots := (LookupModel.of_revision injective.text models).2.rootIds
          rw [objectsBody, objectsBody, found, found', ← infos, own, own']
          exact Browse.objects_perm text (Browse.nodes_of_revision injective.text models) roots (own ▸ listed) maps _
            query

theorem types_of_tag (injective : digests.Injective) {model model' : Browse} {reply reply' : ModelHandled T I}
    (one : Accounted digests (.getObjectTypes model) reply) (other : Accounted digests (.getObjectTypes model') reply')
    {etag : String} (tag : representationEtag digests.revisions reply.parts = some etag)
    (tag' : representationEtag digests.revisions reply'.parts = some etag) (text : PatternText)
    (namespaceUri : I → String) (filter : Option String) :
    typesBody text namespaceUri filter reply = typesBody text namespaceUri filter reply' := by
  obtain ⟨⟩ | ⟨_, _, context, found, infos, parts, made⟩ := one
  obtain ⟨⟩ | ⟨_, _, context', found', infos', parts', made'⟩ := other
  have recorded {name : String} (data : isFlag name = false) :=
    congrArg (Option.getD · "") (recorded_of_tag injective.revisions tag tag' data)
  rw [parts, parts'] at recorded
  have contexts := (typesParts_recorded digests.hashes model context).2.symm.trans
    ((recorded (by decide)).trans (typesParts_recorded digests.hashes model' context').2)
  obtain ⟨sameInfos, items, -⟩ := same_content injective made made' contexts
  simp only [typesBody, found, found', infos, infos', sameInfos, items]

/-- **One tag, one body.** Of the responses of all calls in a run, those of one tag that
list objects list the same objects for every query, up to order, as long as no element
is shown under whoever lists it while two do; and those that list object types list the
same types. -/
theorem bodies_of_tag (injective : digests.Injective)
    {c : ContextConfig Browse (List NamespaceEntry) T (ContextContent I)}
    (run : Reachable (typeContexts digests.hashes) .initial c) {t t' : ContextTag Browse}
    {reply reply' : ModelHandled T I} (one : .returned t (.handled reply) ∈ c.history)
    (other : .returned t' (.handled reply') ∈ c.history) {etag : String}
    (tag : representationEtag digests.revisions reply.parts = some etag)
    (tag' : representationEtag digests.revisions reply'.parts = some etag) (text : PatternText) :
    (∀ model model' query, t.call = .getObjects model → t'.call = .getObjects model' →
        OneLister reply.model.published → (objectsBody text query reply).Perm (objectsBody text query reply')) ∧
      ∀ model model' namespaceUri filter, t.call = .getObjectTypes model → t'.call = .getObjectTypes model' →
        typesBody text namespaceUri filter reply = typesBody text namespaceUri filter reply' := by
  have here := accounted_of_run run one
  have there := accounted_of_run run other
  refine ⟨fun model model' query call call' listed => ?_, fun model model' namespaceUri filter call call' => ?_⟩
  · rw [call] at here
    rw [call'] at there
    exact objects_of_tag injective here there tag tag' listed text query
  · rw [call] at here
    rw [call'] at there
    exact types_of_tag injective here there tag tag' text namespaceUri filter

end

/-! ## Hashes that keep the whole content -/

def pairsJson (pairs : List (String × String)) : Json := .array (pairs.map fun pair => .strings [pair.1, pair.2])

def entryJson (entry : NamespaceEntry) : Json :=
  .array [.string entry.uri, .string entry.displayName, Json.optional entry.namespaceVersion,
    Json.optional entry.serverUri]

def rendered (document : Json) : String := String.ofList (Json.chars (fun _ => true) document)

def textDigests : Digests Unit String where
  text := id
  namespaces infos := rendered (.array (infos.map entryJson))
  objectTypes _ := ""
  context content := rendered (.array [.array (content.1.map entryJson), .string content.2.1, .strings content.2.2.1,
    pairsJson content.2.2.2.1, pairsJson content.2.2.2.2])
  revisions revisions := rendered (pairsJson revisions)

theorem rendered_injective : Function.Injective rendered := fun _ _ same =>
  Json.chars_injective (String.ofList_injective same)

theorem pairsJson_injective : Function.Injective pairsJson := fun _ _ same => by
  refine List.map_injective_iff.mpr (fun pair pair' same => ?_) (Json.array.inj same)
  have texts := Json.strings_injective same
  exact Prod.ext (List.cons.inj texts).1 (List.cons.inj (List.cons.inj texts).2).1

theorem entryJson_injective : Function.Injective entryJson := fun entry entry' same => by
  obtain ⟨⟨⟨uri⟩, version, server⟩, name⟩ := entry
  obtain ⟨⟨⟨uri'⟩, version', server'⟩, name'⟩ := entry'
  simp only [entryJson, Json.array.injEq, List.cons.injEq, Json.string.injEq, Json.optional_injective.eq_iff,
    and_true] at same
  obtain ⟨rfl, rfl, rfl, rfl⟩ := same
  rfl

theorem textDigests_injective : textDigests.Injective where
  text := Function.injective_id
  namespaces _ _ same := List.map_injective_iff.mpr entryJson_injective (Json.array.inj (rendered_injective same))
  context content content' same := by
    have parts := Json.array.inj (rendered_injective same)
    simp only [List.cons.injEq, Json.array.injEq, Json.string.injEq, Json.strings_injective.eq_iff,
      pairsJson_injective.eq_iff, (List.map_injective_iff.mpr entryJson_injective).eq_iff, and_true] at parts
    obtain ⟨infos, types, items, byNodeId, bySourceType⟩ := parts
    exact Prod.ext infos (Prod.ext types (Prod.ext items (Prod.ext byNodeId bySourceType)))
  revisions _ _ same := pairsJson_injective (rendered_injective same)

section
variable {M N T E : Type} [DecidableEq N] {hashes : ContentHashes M N T E}

/-- A list of objects answered with a new context. -/
def listedReply (hashes : ContentHashes M N T E) (model : M) (infos : N) (types : T) (content : E) :
    Handled M N T E :=
  let context := some (hashes.context infos types content)
  { model, context, namespaceInfos := infos, parts := endpointParts hashes model infos context }

/-- Everything can be read, and the context can be built. -/
def replies (infos : N) (types : T) (content : E) : (q : ContextRequest M N T) → ContextReply M N T E q
  | .namespaceInfos => some infos
  | .objectTypes => some types
  | .buildContext _ _ _ => some content

/-- A list of objects that finds no context, while no other call runs. -/
theorem listed_alone {c : ContextConfig M N T E} (run : Reachable (typeContexts hashes) .initial c) (quiet : c.Quiet)
    (free : c.held .objectTypeLock = false) (empty : c.state.contextCache = none) (model : M) (infos : N) (types : T)
    (content : E) : ∃ c', Reachable (typeContexts hashes) .initial c' ∧ c'.Quiet ∧
      c'.held .objectTypeLock = false ∧
      .returned ⟨c.calls, .getObjects model⟩ (.handled (listedReply hashes model infos types content)) ∈
        c'.history ∧
      ∀ event ∈ c.history, event ∈ c'.history := by
  obtain ⟨⟨⟨modelCache, contextCache, task⟩, held, history, calls⟩, waiting, pending⟩ := c
  cases empty
  have may (m : M) (same : ContextCall.getObjects model = .refresh m) : task = .scheduled m := by cases same
  obtain ⟨c', run', machine, quiet'⟩ := reachable_call (fun _ _ _ _ => trivial) (replies infos types content) run
    quiet (.getObjects model) may (by
      change (if held .objectTypeLock then none else _) = _
      rw [show held .objectTypeLock = false from free]
      rfl)
  refine ⟨c', run', quiet', ?_, ?_, ?_⟩
  · rw [machine]
    let entered : ContextLock → Bool := Function.update held .objectTypeLock true
    exact (Function.update_self .objectTypeLock false entered : Function.update entered .objectTypeLock false _ = false)
  · rw [machine]
    exact List.mem_cons_self
  · rw [machine]
    intro event inside
    exact List.mem_append_right [_, _, _, _, _, _, _, _] inside

/-- A request that has built the model drops the context. -/
theorem modelBuilt_alone {c : ContextConfig M N T E} (run : Reachable (typeContexts hashes) .initial c)
    (quiet : c.Quiet) (model : M) (infos : N) (types : T) (content : E) :
    ∃ c', Reachable (typeContexts hashes) .initial c' ∧ c'.Quiet ∧ c'.held = c.held ∧
      c'.state.contextCache = none ∧ ∀ event ∈ c.history, event ∈ c'.history := by
  have may (m : M) (same : ContextCall.modelBuilt model true = .refresh m) : c.state.refreshTask = .scheduled m := by
    cases same
  obtain ⟨c', run', machine, quiet'⟩ := reachable_call (fun _ _ _ _ => trivial) (replies infos types content) run
    quiet (.modelBuilt model true) may rfl
  refine ⟨c', run', quiet', ?_, ?_, ?_⟩
  · rw [machine]
    rfl
  · rw [machine]
    rfl
  · rw [machine]
    exact fun event inside => List.mem_append_right [_, _] inside

end

def plantNamespaces : List NamespaceEntry := [⟨⟨⟨"urn:plant"⟩, none, none⟩, "plant"⟩]

def oneItem : ContextContent String := ⟨.empty, ["UnknownType"], .empty⟩

def twinReply (type : String) : ModelHandled Unit String :=
  listedReply textDigests.hashes (Plant.twins type) plantNamespaces () oneItem

theorem twinReply_tagged :
    (representationEtag textDigests.revisions (twinReply "ns=1;i=1001").parts).isSome = true := by decide +kernel

theorem twinReply_parts : (twinReply "ns=1;i=1001").parts = (twinReply "ns=1;i=1003").parts := by
  have revisions : textDigests.hashes.modelRevision (Plant.twins "ns=1;i=1001") =
      textDigests.hashes.modelRevision (Plant.twins "ns=1;i=1003") := Plant.twins_revision id
  have requests : requestParts textDigests.hashes (Plant.twins "ns=1;i=1001") =
      requestParts textDigests.hashes (Plant.twins "ns=1;i=1003") := by
    rw [requestParts, requestParts, revisions]
  simp only [twinReply, listedReply, endpointParts, requests]

/-- Two browse results of one revision, each listed with a context of its own. -/
theorem bodies_of_tag_twins : ∃ c, Reachable (typeContexts textDigests.hashes) .initial c ∧
    (∀ type, type = "ns=1;i=1001" ∨ type = "ns=1;i=1003" →
        ∃ n, .returned ⟨n, .getObjects (Plant.twins type)⟩ (.handled (twinReply type)) ∈ c.history) ∧
      ∀ text query, (objectsBody text query (twinReply "ns=1;i=1001")).Perm
        (objectsBody text query (twinReply "ns=1;i=1003")) := by
  have begun : Reachable (typeContexts textDigests.hashes) .initial (Config.start .initial) := .start
  obtain ⟨c₁, run₁, quiet₁, free₁, listed, -⟩ :=
    listed_alone begun ⟨rfl, fun _ => rfl⟩ rfl rfl (Plant.twins "ns=1;i=1001") plantNamespaces () oneItem
  obtain ⟨c₂, run₂, quiet₂, free₂, empty, kept₂⟩ :=
    modelBuilt_alone run₁ quiet₁ (Plant.twins "ns=1;i=1003") plantNamespaces () oneItem
  obtain ⟨c, run, -, -, listed', kept⟩ := listed_alone run₂ quiet₂ (free₂ ▸ free₁) empty
    (Plant.twins "ns=1;i=1003") plantNamespaces () oneItem
  have one := kept _ (kept₂ _ listed)
  obtain ⟨etag, tag⟩ := Option.isSome_iff_exists.mp twinReply_tagged
  have shown : OneLister (Plant.twins "ns=1;i=1001").published := by decide
  refine ⟨c, run, fun type either => ?_, fun text query => ?_⟩
  · rcases either with rfl | rfl
    · exact ⟨_, one⟩
    · exact ⟨_, listed'⟩
  · exact (bodies_of_tag textDigests_injective run one listed' tag (twinReply_parts ▸ tag) text).1 _ _ query rfl rfl
      shown

end I3x.Serving
