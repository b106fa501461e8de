import I3xServer.Schemas.Depth
import Mathlib.Data.List.TakeWhile

/-!
# Which annotations let null in

A schema is made nullable by extending its `type`. What has none to extend is left
as it is: a reference, a choice of several schemas; and an enumeration lists its
values beside the type. Null is let in by what remains.
-/
namespace I3x.Schemas
open Container Attempt

/-! ## Readings get shorter -/

theorem length_stripBy_le (p : Char → Bool) (text : Chars) : (stripBy p text).length ≤ text.length := by
  have right := (List.dropWhile_suffix p (l := (text.dropWhile p).reverse)).length_le
  have left := (List.dropWhile_suffix p (l := text)).length_le
  simp only [stripBy, List.length_reverse] at right ⊢
  exact right.trans left

theorem length_dropStart_le (start text : Chars) : (dropStart start text).length ≤ text.length := by
  unfold dropStart
  split
  · exact (List.drop_suffix _ _).length_le
  · exact le_rfl

theorem length_normalized_le (text : Chars) : (normalized text).length ≤ text.length :=
  (length_dropStart_le _ _).trans <| (length_dropStart_le _ _).trans <|
    (length_stripBy_le _ _).trans (length_stripBy_le _ _)

theorem length_splitOn_le {c : Char} {text piece : Chars} (mem : piece ∈ text.splitOn c) :
    piece.length ≤ text.length := by
  induction text generalizing piece with
  | nil =>
      rw [List.splitOn_nil, List.mem_singleton] at mem
      rw [mem]
  | cons x text ih =>
      rw [List.splitOn_cons_eq_if_modifyHead] at mem
      split at mem
      · rcases List.mem_cons.mp mem with rfl | later
        · exact Nat.zero_le _
        · exact Nat.le_succ_of_le (ih later)
      · cases pieces : text.splitOn c with
        | nil => exact absurd pieces (List.splitOn_ne_nil c text)
        | cons first rest =>
            rw [pieces, List.modifyHead_cons] at mem
            rcases List.mem_cons.mp mem with rfl | later
            · exact Nat.succ_le_succ (ih (pieces ▸ List.mem_cons_self))
            · exact Nat.le_succ_of_le (ih (pieces ▸ List.mem_cons_of_mem _ later))

/-- Cutting at a character that occurs leaves out at least that one. -/
theorem length_splitOn_lt {c : Char} {text piece : Chars} (occurs : c ∈ text) (mem : piece ∈ text.splitOn c) :
    piece.length < text.length := by
  obtain ⟨before, after, rfl⟩ := List.append_of_mem occurs
  rw [List.splitOn_append_cons_self, List.mem_append] at mem
  rw [List.length_append, List.length_cons]
  rcases mem with left | right
  · exact Nat.lt_add_right_iff_pos.mpr (Nat.succ_pos _) |>.trans_le' (length_splitOn_le left)
  · have := length_splitOn_le right
    omega

theorem mem_parts {c : Char} {text part : Chars} (mem : part ∈ parts c text) :
    ∃ piece ∈ text.splitOn c, part = strip piece := by
  obtain ⟨inside, _⟩ := List.mem_filter.mp mem
  obtain ⟨piece, found, rfl⟩ := List.mem_map.mp inside
  exact ⟨piece, found, rfl⟩

theorem length_between_lt {k : Nat} {text : Chars} (inhabited : text ≠ []) : (between k text).length < text.length := by
  have positive := List.length_pos_iff.mpr inhabited
  simp only [between, List.length_dropLast, List.length_drop]
  omega

theorem ne_nil_of_enclosed {start : String} {text : Chars} (h : enclosed start text = true) : text ≠ [] := by
  rintro rfl
  simp [enclosed, lower] at h

/-- The texts on which it depends whether null is let in. -/
def TextReading.rest : TextReading → List Chars
  | .nullable inner => [inner]
  | .alternatives texts => texts
  | _ => []

theorem readAlternatives_rest {texts : List Chars} {rest : Chars} (mem : rest ∈ (readAlternatives texts).rest) :
    rest ∈ texts := by
  unfold readAlternatives at mem
  split at mem
  · exact mem
  · rename_i texts _ _ part _ kept
    rw [TextReading.rest, List.mem_singleton] at mem
    have inside : rest ∈ texts.filter (!isNoneName ·) := by rw [kept, mem]; exact List.mem_cons_self
    exact List.mem_of_mem_filter inside
  · exact mem

theorem readBars_shorter {text : Chars} {reading : TextReading} (read : readBars text = some reading) {rest : Chars}
    (mem : rest ∈ reading.rest) : rest.length < text.length := by
  unfold readBars at read
  split at read
  · rename_i bar
    cases read
    obtain ⟨piece, inside, rfl⟩ := mem_parts (readAlternatives_rest mem)
    exact (length_stripBy_le _ _).trans_lt (length_splitOn_lt bar.1 inside)
  · cases read

theorem readOptional_shorter {text : Chars} {reading : TextReading} (read : readOptional text = some reading)
    {rest : Chars} (mem : rest ∈ reading.rest) : rest.length < text.length := by
  unfold readOptional at read
  split at read
  · rename_i bracketed
    cases read
    rw [TextReading.rest, List.mem_singleton] at mem
    rw [mem]
    exact length_between_lt (ne_nil_of_enclosed bracketed)
  · cases read

theorem readUnion_shorter {text : Chars} {reading : TextReading} (read : readUnion text = some reading)
    {rest : Chars} (mem : rest ∈ reading.rest) : rest.length < text.length := by
  unfold readUnion at read
  split at read
  · rename_i bracketed
    split at read
    · cases read
    · cases read
      obtain ⟨piece, inside, rfl⟩ := mem_parts mem
      exact ((length_stripBy_le _ _).trans (length_splitOn_le inside)).trans_lt
        (length_between_lt (ne_nil_of_enclosed bracketed))
  · cases read

/-- The first alternative that there is, else what follows it. -/
theorem getD_orElse {α : Type} {P : α → Prop} {first next : Option α} {last : α} (here : ∀ x, first = some x → P x)
    (later : P (next.getD last)) : P ((first <|> next).getD last) := by
  cases first with
  | none => exact later
  | some x => exact here x rfl

theorem readArray_rest {text : Chars} {reading : TextReading} (read : readArray text = some reading) :
    reading.rest = [] := by
  unfold readArray at read
  split_ifs at read <;> cases read <;> rfl

theorem readScalar_rest {text : Chars} {reading : TextReading} (read : readScalar text = some reading) :
    reading.rest = [] := by
  have all : ∀ entry ∈ scalarMap, entry.2.rest = [] := by decide
  obtain ⟨entry, found, rfl⟩ := Option.map_eq_some_iff.mp read
  exact all entry (List.mem_of_find?_eq_some found)

theorem readStructure_rest {rt : Runtime} {text : Chars} {reading : TextReading}
    (read : readStructure rt text = some reading) : reading.rest = [] := by
  obtain ⟨c, _, read⟩ := Option.bind_eq_some_iff.mp read
  split_ifs at read <;> cases read <;> rfl

theorem readImported_rest {rt : Runtime} {text : Chars} {reading : TextReading}
    (read : readImported rt text = some reading) : reading.rest = [] := by
  obtain ⟨c, _, read⟩ := Option.bind_eq_some_iff.mp read
  split_ifs at read; cases read; rfl

theorem readUnresolved_rest (text : Chars) : (readUnresolved text).rest = [] := by
  unfold readUnresolved
  dsimp only
  split <;> rfl

theorem readNormalized_shorter {rt : Runtime} {text : Chars} :
    ∀ rest ∈ (readNormalized rt text).rest, rest.length < text.length := by
  have empty : ∀ {reading : TextReading}, reading.rest = [] → ∀ rest ∈ reading.rest, rest.length < text.length :=
    fun none rest mem => by rw [none] at mem; cases mem
  refine getD_orElse (P := fun reading => ∀ rest ∈ reading.rest, _) (fun _ read _ => readBars_shorter read) ?_
  refine getD_orElse (P := fun reading => ∀ rest ∈ reading.rest, _) (fun _ read _ => readOptional_shorter read) ?_
  refine getD_orElse (P := fun reading => ∀ rest ∈ reading.rest, _) (fun _ read _ => readUnion_shorter read) ?_
  refine getD_orElse (fun _ read => empty (readArray_rest read)) ?_
  refine getD_orElse (fun _ read => empty (readScalar_rest read)) ?_
  refine getD_orElse (fun _ read => empty (readStructure_rest read)) ?_
  cases imported : readImported rt text with
  | some reading => exact empty (readImported_rest imported)
  | none => exact empty (readUnresolved_rest text)

theorem readText_shorter (rt : Runtime) {text rest : Chars} (mem : rest ∈ (readText rt text).rest) :
    rest.length < text.length :=
  (readNormalized_shorter rest mem).trans_le (length_normalized_le text)

/-! ## Where null is let in -/

def ClassReading.admitsNull (patched : Bool) : ClassReading → Bool
  | .plain _ => patched
  | .unconstrained => true
  | .enumeration _ | .structured _ => false

section
variable (rt : Runtime)

/-- Whether null is let in by the schema of the text, or by that schema made nullable. -/
def textAdmitsNull (patched : Bool) (text : Chars) : Bool :=
  match _read : readText rt text with
  | .nullable inner => textAdmitsNull true inner
  | .alternatives texts => texts.attach.any fun t => textAdmitsNull false t.1
  | .array _ | .plain _ => patched
  | .unconstrained => true
  | .enumeration c => (readClass (rt.info c)).admitsNull patched
  | .structured _ _ => false
termination_by text.length
decreasing_by
  · exact readText_shorter rt (by rw [_read]; exact List.mem_cons_self)
  · exact readText_shorter rt (by rw [_read]; exact t.2)

theorem readArguments_smaller {args : List Annotation} {inner : Annotation}
    (read : readArguments rt args = .nullable inner) : inner ∈ args := by
  unfold readArguments at read
  split at read
  · rename_i only kept
    split at read
    · cases read
    · cases read
      have mem : inner ∈ args.filter (!·.isNone rt) := by rw [kept]; exact List.mem_cons_self
      exact List.mem_of_mem_filter mem
  · cases read

theorem annotationReading_smaller {a inner : Annotation} (read : annotationReading rt a = .nullable inner) :
    sizeOf inner < sizeOf a := by
  cases a with
  | generic origin args =>
      cases origin <;> try cases read
      have := List.sizeOf_lt_of_mem (readArguments_smaller rt read)
      simp only [ Annotation.generic.sizeOf_spec]
      omega
  | union first second others =>
      have mem := readArguments_smaller rt read
      simp only [ Annotation.union.sizeOf_spec]
      rcases List.mem_cons.mp mem with rfl | mem
      · omega
      · rcases List.mem_cons.mp mem with rfl | mem
        · omega
        · have := List.sizeOf_lt_of_mem mem
          omega
  | forwardRef text =>
      simp only [annotationReading] at read
      split_ifs at read
  | text text => cases read
  | type c => cases read
  | other => cases read

def annotationAdmitsNull (patched : Bool) (a : Annotation) : Bool :=
  match _read : annotationReading rt a with
  | .text text => textAdmitsNull rt patched text
  | .array _ | .plain _ => patched
  | .nullable inner => annotationAdmitsNull true inner
  | .type c => (readClass (rt.info c)).admitsNull patched
termination_by sizeOf a
decreasing_by exact annotationReading_smaller rt _read

theorem textAdmitsNull_eq (patched : Bool) (text : Chars) :
    textAdmitsNull rt patched text =
      match readText rt text with
      | .nullable inner => textAdmitsNull rt true inner
      | .alternatives texts => texts.any (textAdmitsNull rt false)
      | .array _ | .plain _ => patched
      | .unconstrained => true
      | .enumeration c => (readClass (rt.info c)).admitsNull patched
      | .structured _ _ => false := by
  rw [textAdmitsNull]
  split <;> rename_i read <;> simp only [read]
  rename_i texts
  conv_rhs => rw [← List.attach_map_subtype_val texts, List.any_map]
  rfl

theorem annotationAdmitsNull_eq (patched : Bool) (a : Annotation) :
    annotationAdmitsNull rt patched a =
      match annotationReading rt a with
      | .text text => textAdmitsNull rt patched text
      | .array _ | .plain _ => patched
      | .nullable inner => annotationAdmitsNull rt true inner
      | .type c => (readClass (rt.info c)).admitsNull patched := by
  rw [annotationAdmitsNull]
  split <;> rename_i read <;> simp only [read]

/-! ## What the schemas make of null -/

/-- The definitions that a reference can lead to describe objects. -/
def DescribesObjects (context : Schema.Context) : Prop :=
  ∀ ref d, context.definition ref = some d → d.type = some (.one .object)

/-- What becomes of null, for the schema and for the schema made nullable. -/
structure TakesNull (own patched : Bool) (s : Schema) : Prop where
  own : ∀ context, DescribesObjects context → s.Settles context .null own
  patched : ∀ context, DescribesObjects context → (withNull s).Settles context .null patched

theorem eq_with_type {s : Schema} {keyword : Option TypeKeyword} (type : s.type = keyword) :
    s = { s with type := keyword } := by
  cases s
  cases type
  rfl

theorem withNull_eq (s : Schema) : ∃ keyword, withNull s = { s with type := keyword } ∧
    ∀ v, s.type.all (·.allows v) = true → keyword.all (·.allows v) = true := by
  unfold withNull
  cases h : s.type with
  | none => exact ⟨none, eq_with_type h, fun _ allowed => allowed⟩
  | some keyword =>
      cases keyword with
      | one t =>
          refine ⟨_, rfl, fun v allowed => ?_⟩
          have described : t.describes v = true := by
            simpa [TypeKeyword.allows, TypeKeyword.types] using allowed
          simp [TypeKeyword.allows, TypeKeyword.types, described]
      | several ts =>
          dsimp only
          split
          · exact ⟨some (.several ts), eq_with_type h, fun _ allowed => allowed⟩
          · refine ⟨_, rfl, fun v allowed => ?_⟩
            simp only [Option.all_some, TypeKeyword.allows, TypeKeyword.types, List.any_append,
              Bool.or_eq_true] at allowed ⊢
            exact .inl allowed

theorem accepts_withNull {context : Schema.Context} {s : Schema} {v : JsonValue} {depth : Nat}
    (accepts : s.accepts context depth v = true) : (withNull s).accepts context depth v = true := by
  obtain ⟨keyword, same, wider⟩ := withNull_eq s
  rw [same]
  exact Schema.accepts_type (wider v) accepts

theorem withNull_withNull (s : Schema) : withNull (withNull s) = withNull s := by
  unfold withNull
  cases h : s.type with
  | none => simp only [h]
  | some keyword =>
      cases keyword with
      | one t => simp
      | several ts =>
          by_cases mem : JsonType.null ∈ ts
          · simp only [mem, if_true, h]
          · simp [mem]

/-- A schema with one type, branches and references aside. -/
theorem takesNull_typed {s : Schema} {t : JsonType} {patched : Bool} (type : s.type = some (.one t))
    (not_null : t ≠ .null) (anyOf : s.anyOf = none) (oneOf : s.oneOf = none) (ref : s.ref = none)
    (flat : ∀ context, (withNull s).flat context .null = patched) : TakesNull false patched s where
  own context _ := by
    refine Schema.Refuses.of_flat ?_
    cases t <;> simp_all [Schema.flat, TypeKeyword.allows, TypeKeyword.types, JsonType.describes]
  patched context _ := by
    have extended : withNull s = { s with type := some (.several [t, .null]) } := by simp [withNull, type]
    rw [← flat context]
    exact Schema.Settles.of_flat (by rw [extended, anyOf]) (by rw [extended, oneOf]) (by rw [extended, ref])

theorem takesNull_plain (p : PlainSchema) : TakesNull false true p.schema :=
  takesNull_typed rfl p.not_null rfl rfl rfl fun context => by
    simp [withNull, PlainSchema.schema, Schema.flat, TypeKeyword.allows, TypeKeyword.types, JsonType.describes]

theorem takesNull_array (items : Schema) : TakesNull false true (arrayOf items) :=
  takesNull_typed rfl (by decide) rfl rfl rfl fun context => by
    simp [withNull, arrayOf, Schema.flat, TypeKeyword.allows, TypeKeyword.types, JsonType.describes]

theorem equals_null (c : JsonConstant) : c.equals .null = false := by cases c <;> rfl

theorem flat_enum {context : Schema.Context} {s : Schema} {entries : List JsonConstant} (enum : s.enum = some entries) :
    s.flat context .null = false := by
  have refused : entries.any (·.equals .null) = false := by
    rw [List.any_eq_false]
    intro c _
    simp [equals_null]
  simp only [Schema.flat, enum, Option.all_some, refused, Bool.and_false, Bool.false_and]

/-- An enumeration lists numbers or texts, and null beside the type is none of these. -/
theorem takesNull_enum (members : List EnumMember) : TakesNull false false (enumSchema members) := by
  unfold enumSchema
  dsimp only
  split
  · exact takesNull_typed rfl (by decide) rfl rfl rfl fun context => flat_enum rfl
  · exact takesNull_typed rfl (by decide) rfl rfl rfl fun context => flat_enum rfl

theorem takesNull_unconstrained : TakesNull true true {} := by
  have settles : ∀ context, ({} : Schema).Settles context .null true := fun context => by
    have settled : ({} : Schema).Settles context .null (({} : Schema).flat context .null) := .of_flat rfl rfl rfl
    simpa [Schema.flat] using settled
  exact ⟨fun context _ => settles context, fun context _ => settles context⟩

theorem takesNull_ref (ref : Chars) : TakesNull false false { ref := some ref } := by
  have refuses : ∀ context, DescribesObjects context → ({ ref := some ref } : Schema).Refuses context .null := by
    intro context objects
    refine Schema.Refuses.ref fun d found => Schema.Refuses.of_flat ?_
    simp [Schema.flat, objects ref d found, TypeKeyword.allows, TypeKeyword.types, JsonType.describes]
  exact ⟨refuses, refuses⟩

theorem TakesNull.withNull {own patched : Bool} {s : Schema} (takes : TakesNull own patched s) :
    TakesNull patched patched (withNull s) :=
  ⟨takes.patched, by rw [withNull_withNull]; exact takes.patched⟩

theorem takesNull_anyOf {α : Type} {xs : List α} {branches : List Schema} {own : α → Bool}
    (each : List.Forall₂ (fun x s => ∃ patched, TakesNull (own x) patched s) xs branches) :
    TakesNull (xs.any own) (xs.any own) (anyOfSchema branches) := by
  have settles : ∀ context, DescribesObjects context →
      (anyOfSchema branches).Settles context .null (xs.any own) := by
    intro context objects
    refine Schema.Settles.anyOf (each.imp ?_)
    rintro x s ⟨patched, takes⟩
    exact takes.own context objects
  exact ⟨settles, settles⟩

/-- The schemas that reading comes back to take null as the readings say. -/
structure TakesAsRead (inner : Readers) : Prop where
  annotated : ∀ a before s after, inner.annotated a before = some (s, after) →
    TakesNull (annotationAdmitsNull rt false a) (annotationAdmitsNull rt true a) s
  text : ∀ text before s after, inner.text text before = some (s, after) →
    TakesNull (textAdmitsNull rt false text) (textAdmitsNull rt true text) s
  structureFromType : ∀ key c notes before s after, inner.structureFromType key c notes before = some (s, after) →
    TakesNull false false s

variable {rt} {inner : Readers}

theorem takesNull_type (asRead : TakesAsRead rt inner) {a : Annotation} {c : ClassId}
    (isType : annotationReading rt a = .type c) {before after : SchemaRegistry} {s : Schema}
    (ran : annotationSchema rt inner a before = some (s, after)) :
    TakesNull ((readClass (rt.info c)).admitsNull false) ((readClass (rt.info c)).admitsNull true) s := by
  simp only [annotationSchema, isType] at ran
  cases read : readClass (rt.info c) with
  | plain schema =>
      rw [read] at ran
      cases pure_eq_some.mp ran
      exact takesNull_plain schema
  | enumeration members =>
      rw [read] at ran
      cases pure_eq_some.mp ran
      exact takesNull_enum members
  | unconstrained =>
      rw [read] at ran
      cases pure_eq_some.mp ran
      exact takesNull_unconstrained
  | structured key =>
      rw [read] at ran
      exact asRead.structureFromType key c [] before s after ran

theorem takesNull_annotated (asRead : TakesAsRead rt inner) {a : Annotation} {before after : SchemaRegistry}
    {s : Schema} (ran : annotationSchema rt inner a before = some (s, after)) :
    TakesNull (annotationAdmitsNull rt false a) (annotationAdmitsNull rt true a) s := by
  rw [annotationAdmitsNull_eq, annotationAdmitsNull_eq]
  cases read : annotationReading rt a with
  | text text =>
      simp only [annotationSchema, read] at ran
      exact asRead.text text before s after ran
  | array item =>
      simp only [annotationSchema, read] at ran
      obtain ⟨items, mid, _, same⟩ := map_eq_some.mp ran
      cases same
      exact takesNull_array items
  | nullable alternative =>
      simp only [annotationSchema, read] at ran
      obtain ⟨nested, mid, ranNested, same⟩ := map_eq_some.mp ran
      cases same
      exact (asRead.annotated alternative before nested _ ranNested).withNull
  | plain schema =>
      simp only [annotationSchema, read] at ran
      cases pure_eq_some.mp ran
      exact takesNull_plain schema
  | type c => exact takesNull_type asRead read ran

theorem takesNull_text (asRead : TakesAsRead rt inner) {text : Chars} {before after : SchemaRegistry} {s : Schema}
    (ran : annotationStringSchema rt inner text before = some (s, after)) :
    TakesNull (textAdmitsNull rt false text) (textAdmitsNull rt true text) s := by
  rw [textAdmitsNull_eq, textAdmitsNull_eq]
  unfold annotationStringSchema at ran
  cases read : readText rt text with
  | nullable alternative =>
      rw [read] at ran
      obtain ⟨nested, mid, ranNested, same⟩ := map_eq_some.mp ran
      cases same
      exact (asRead.text alternative before nested _ ranNested).withNull
  | alternatives texts =>
      rw [read] at ran
      obtain ⟨branches, mid, ranBranches, same⟩ := map_eq_some.mp ran
      cases same
      refine takesNull_anyOf ((mapM_forall₂ ranBranches).imp ?_)
      rintro t branch ⟨r, r', ranBranch⟩
      exact ⟨_, asRead.text t r branch r' ranBranch⟩
  | array item =>
      rw [read] at ran
      obtain ⟨items, mid, _, same⟩ := map_eq_some.mp ran
      cases same
      exact takesNull_array items
  | plain schema =>
      rw [read] at ran
      cases pure_eq_some.mp ran
      exact takesNull_plain schema
  | unconstrained =>
      rw [read] at ran
      cases pure_eq_some.mp ran
      exact takesNull_unconstrained
  | enumeration c =>
      rw [read] at ran
      have takes := asRead.annotated (.type c) before s after ran
      rwa [annotationAdmitsNull_eq, annotationAdmitsNull_eq] at takes
  | structured key c =>
      rw [read] at ran
      exact asRead.structureFromType key c [] before s after ran

theorem takesNull_structure {key : Chars} {canonicalKey : Option Chars} {preferredName : Chars}
    {known : SchemaRegistry → SchemaRegistry} {notes : Notes} {describe : Registering ObjectDefinition}
    {before after : SchemaRegistry} {s : Schema}
    (ran : referenceOrRegister key canonicalKey preferredName known notes describe before = some (s, after)) :
    TakesNull false false s := by
  obtain ⟨_, _, _, ran⟩ := bind_eq_some.mp ran
  obtain ⟨_, _, _, ran⟩ := bind_eq_some.mp ran
  obtain ⟨registry, _, _, ran⟩ := bind_eq_some.mp ran
  cases pure_eq_some.mp ran
  exact takesNull_ref _

variable (rt) in
theorem readers_takeAsRead (depth : Nat) : TakesAsRead rt (readers rt depth) := by
  induction depth with
  | zero =>
      refine ⟨?_, ?_, ?_⟩
      · intro a before s after ran
        cases ran
      · intro text before s after ran
        cases ran
      · intro key c notes before s after ran
        cases ran
  | succ depth asRead =>
      exact ⟨fun _ _ _ _ => takesNull_annotated asRead, fun _ _ _ _ => takesNull_text asRead,
        fun _ _ _ _ _ _ => takesNull_structure⟩

end
end I3x.Schemas
