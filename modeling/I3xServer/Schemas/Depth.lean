import I3xServer.Schemas.Structures

/-!
# The schema of an annotation does not depend on the depth

Each function gives what it gave before when the functions that it comes back to
give more. So a reading that ends at some depth ends the same at every greater one.
-/
namespace I3x.Schemas
open Container Attempt

structure Readers.Extends (inner inner' : Readers) : Prop where
  annotated : ∀ a, Attempt.Extends (inner.annotated a) (inner'.annotated a)
  text : ∀ t, Attempt.Extends (inner.text t) (inner'.text t)
  structureFromType : ∀ key c notes,
    Attempt.Extends (inner.structureFromType key c notes) (inner'.structureFromType key c notes)
  produced : ∀ v, Attempt.Extends (inner.produced v) (inner'.produced v)

section
variable {rt : Runtime} {inner inner' : Readers}

theorem annotationSchema_extends (deeper : inner.Extends inner') (a : Annotation) :
    Attempt.Extends (annotationSchema rt inner a) (annotationSchema rt inner' a) := by
  unfold annotationSchema
  cases annotationReading rt a with
  | text t => exact deeper.text t
  | array item => exact (deeper.annotated item).map
  | nullable alternative => exact (deeper.annotated alternative).map
  | plain schema => exact .refl _
  | type c =>
      dsimp only
      cases readClass (rt.info c) with
      | structured key => exact deeper.structureFromType key c []
      | plain schema => exact .refl _
      | enumeration members => exact .refl _
      | unconstrained => exact .refl _

theorem annotationStringSchema_extends (deeper : inner.Extends inner') (t : Chars) :
    Attempt.Extends (annotationStringSchema rt inner t) (annotationStringSchema rt inner' t) := by
  unfold annotationStringSchema
  cases readText rt t with
  | nullable alternative => exact (deeper.text alternative).map
  | alternatives texts => exact (Extends.mapM deeper.text).map
  | array item => exact (deeper.text item).map
  | enumeration c => exact deeper.annotated (.type c)
  | structured key c => exact deeper.structureFromType key c []
  | plain schema => exact .refl _
  | unconstrained => exact .refl _

theorem schemaFromHintToken_extends (deeper : inner.Extends inner') (token : HintToken) :
    Attempt.Extends (schemaFromHintToken rt inner token) (schemaFromHintToken rt inner' token) := by
  cases token with
  | text token => exact (deeper.text token).map
  | type c => exact (deeper.annotated (.type c)).map
  | object callableName c =>
      unfold schemaFromHintToken
      dsimp only
      split
      · exact (deeper.annotated _).map
      · split
        · exact (deeper.annotated _).map
        · exact .refl _

theorem firstHint_extends (deeper : inner.Extends inner') (tokens : List HintToken) :
    Attempt.Extends (firstHint rt inner tokens) (firstHint rt inner' tokens) := by
  induction tokens with
  | nil => exact .refl _
  | cons token tokens ih =>
      refine (schemaFromHintToken_extends deeper token).bind fun candidate => ?_
      cases candidate with
      | none => exact ih
      | some candidate =>
          dsimp only
          split
          · exact ih
          · exact .refl _

theorem schemaFromFieldRuntimeHints_extends (deeper : inner.Extends inner') (field : Field) :
    Attempt.Extends (schemaFromFieldRuntimeHints rt inner field) (schemaFromFieldRuntimeHints rt inner' field) := by
  refine (firstHint_extends deeper _).bind fun candidate => ?_
  cases candidate with
  | some candidate => exact .refl _
  | none =>
      dsimp only
      cases field.produced with
      | none => exact .refl _
      | some produced => exact (deeper.produced produced).map

theorem overridden_extends (deeper : inner.Extends inner') (override : Option Chars) (schema : Schema) :
    Attempt.Extends (overridden inner override schema) (overridden inner' override schema) := by
  cases override with
  | none => exact .refl _
  | some token =>
      unfold overridden
      dsimp only
      split
      · exact deeper.text token
      · exact .refl _

theorem fieldSchema_extends (deeper : inner.Extends inner') (info : ClassInfo) (field : Field) :
    Attempt.Extends (fieldSchema rt inner info field) (fieldSchema rt inner' info field) := by
  refine (deeper.annotated _).bind fun annotated => ?_
  refine (overridden_extends deeper _ annotated).bind fun fromUaTypes => ?_
  refine (overridden_extends deeper _ fromUaTypes).bind fun fromVartypes => ?_
  split
  · exact (schemaFromFieldRuntimeHints_extends deeper field).bind fun hinted => .refl _
  · exact .refl _

theorem annotatedProperty_extends (deeper : inner.Extends inner') (entry : Chars × Annotation) :
    Attempt.Extends (annotatedProperty inner entry) (annotatedProperty inner' entry) :=
  (deeper.annotated entry.2).map

theorem nodeidProperty_extends (deeper : inner.Extends inner') (entry : Chars × Annotation) :
    Attempt.Extends (nodeidProperty inner entry) (nodeidProperty inner' entry) := by
  unfold nodeidProperty
  split
  · exact .refl _
  · exact annotatedProperty_extends deeper entry

theorem structureProperties_extends (deeper : inner.Extends inner') (info : ClassInfo)
    (annotations : List (Chars × Annotation)) :
    Attempt.Extends (structureProperties rt inner info annotations) (structureProperties rt inner' info annotations) := by
  unfold structureProperties
  cases info.dataclassFields with
  | some fields => exact Extends.mapM (fieldSchema_extends deeper info)
  | none => exact Extends.mapM (annotatedProperty_extends deeper)

theorem structureSchemaForType_extends (deeper : inner.Extends inner') (c : ClassId) :
    Attempt.Extends (structureSchemaForType rt inner c) (structureSchemaForType rt inner' c) := by
  unfold structureSchemaForType
  dsimp only
  split
  · exact (Extends.mapM (nodeidProperty_extends deeper)).bind fun properties => .refl _
  · exact (structureProperties_extends deeper _ _).bind fun properties => .refl _

theorem referenceOrRegister_extends {key : Chars} {canonicalKey : Option Chars} {preferredName : Chars}
    {known : SchemaRegistry → SchemaRegistry} {notes : Notes} {describe describe' : Registering ObjectDefinition}
    (deeper : Attempt.Extends describe describe') :
    Attempt.Extends (referenceOrRegister key canonicalKey preferredName known notes describe)
      (referenceOrRegister key canonicalKey preferredName known notes describe') := by
  refine (Extends.refl _).bind fun registry => Extends.bind ?_ fun _ => .refl _
  unfold registered
  split
  · exact .refl _
  · split
    · exact .refl _
    · exact (Extends.refl _).bind fun name => (Extends.refl _).bind fun _ => deeper.bind fun definition => .refl _

theorem referenceOrRegisterStructureFromType_extends (deeper : inner.Extends inner') (key : Chars) (c : ClassId)
    (notes : Notes) :
    Attempt.Extends (referenceOrRegisterStructureFromType rt inner key c notes)
      (referenceOrRegisterStructureFromType rt inner' key c notes) :=
  referenceOrRegister_extends (structureSchemaForType_extends deeper c)

theorem schemaFromDataType_extends (deeper : inner.Extends inner') (dataType : Chars) :
    Attempt.Extends (schemaFromDataType rt inner dataType) (schemaFromDataType rt inner' dataType) := by
  unfold schemaFromDataType
  cases rt.dataTypeClass dataType with
  | none => exact .refl _
  | some c =>
      dsimp only
      split
      · exact (deeper.structureFromType _ c _).map
      · exact .refl _

theorem structureObjectSchema_extends (deeper : inner.Extends inner') (value : Produced) :
    Attempt.Extends (structureObjectSchema rt inner value) (structureObjectSchema rt inner' value) := by
  have described : Attempt.Extends (value.fields.mapM (producedProperty inner))
      (value.fields.mapM (producedProperty inner')) :=
    Extends.mapM fun field => (deeper.produced field.2).map
  unfold structureObjectSchema
  dsimp only
  split
  · split
    · exact structureSchemaForType_extends deeper _
    · exact described.map
  · exact described.map

theorem referenceOrRegisterStructure_extends (deeper : inner.Extends inner') (key : Chars) (value : Produced)
    (notes : Notes) :
    Attempt.Extends (referenceOrRegisterStructure rt inner key value notes)
      (referenceOrRegisterStructure rt inner' key value notes) := by
  refine referenceOrRegister_extends ?_
  split
  · split
    · exact structureSchemaForType_extends deeper _
    · exact structureObjectSchema_extends deeper _
  · exact structureObjectSchema_extends deeper _

theorem schemaForMissingBody_extends (deeper : inner.Extends inner') (typeId : Option Chars) (notes : Notes) :
    Attempt.Extends (schemaForMissingBody rt inner typeId notes) (schemaForMissingBody rt inner' typeId notes) := by
  unfold schemaForMissingBody
  cases typeId.filter (· ≠ []) with
  | some id => exact (schemaFromDataType_extends deeper id).map
  | none => exact .refl _

theorem schemaForStructuredValue_extends (deeper : inner.Extends inner') (value : Produced) :
    Attempt.Extends (schemaForStructuredValue rt inner value) (schemaForStructuredValue rt inner' value) := by
  unfold schemaForStructuredValue
  split
  · exact .refl _
  · exact (deeper.produced _).map
  · split
    · exact schemaForMissingBody_extends deeper _ _
    · exact (referenceOrRegisterStructure_extends deeper _ _ _).map
  · exact (referenceOrRegisterStructure_extends deeper _ _ _).map
  · exact (referenceOrRegisterStructure_extends deeper _ _ _).map
  · exact .refl _

theorem readers_extends_succ (rt : Runtime) (depth : Nat) : (readers rt depth).Extends (readers rt (depth + 1)) := by
  induction depth with
  | zero => exact ⟨fun _ => .of_failure _, fun _ => .of_failure _, fun _ _ _ => .of_failure _, fun _ => .of_failure _⟩
  | succ depth deeper =>
      exact ⟨annotationSchema_extends deeper, annotationStringSchema_extends deeper,
        referenceOrRegisterStructureFromType_extends deeper, schemaForStructuredValue_extends deeper⟩

/-- A deeper recursion gives what a shallower one gives. -/
theorem readers_extends (rt : Runtime) {depth deeper : Nat} (le : depth ≤ deeper) :
    (readers rt depth).Extends (readers rt deeper) := by
  induction le with
  | refl => exact ⟨fun _ => .refl _, fun _ => .refl _, fun _ _ _ => .refl _, fun _ => .refl _⟩
  | @step deeper _ ih =>
      have next := readers_extends_succ rt deeper
      exact ⟨fun a => (ih.annotated a).trans (next.annotated a), fun t => (ih.text t).trans (next.text t),
        fun key c notes => (ih.structureFromType key c notes).trans (next.structureFromType key c notes),
        fun v => (ih.produced v).trans (next.produced v)⟩

theorem Yields.unique {a : Annotation} {before after after' : SchemaRegistry} {s s' : Schema}
    (yields : Yields rt a before s after) (yields' : Yields rt a before s' after') : s = s' ∧ after = after' := by
  obtain ⟨depth, ran⟩ := yields
  obtain ⟨depth', ran'⟩ := yields'
  have deep := (readers_extends rt (Nat.le_max_left depth depth')).annotated a before _ ran
  have deep' := (readers_extends rt (Nat.le_max_right depth depth')).annotated a before _ ran'
  rw [deep] at deep'
  simpa using deep'

end
end I3x.Schemas
