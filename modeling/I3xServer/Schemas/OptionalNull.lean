import I3xServer.Schemas.NullSchemas

/-!
# Optional annotations

`Optional[T]` and `T | None`, as types, as texts and as forward references to texts.
The schema of each is compared with the schema of `T` alone: it accepts the same
values, and null if its reading lets null in.
-/
namespace I3x.Schemas
open Container Attempt

section
variable {rt : Runtime} {before after : SchemaRegistry} {s : Schema}

/-! ## What a schema depends on -/

theorem Yields.of_succ {a : Annotation} {depth : Nat}
    (ran : annotationSchema rt (readers rt depth) a before = some (s, after)) : Yields rt a before s after :=
  ⟨depth + 1, ran⟩

/-- An annotation yields a schema by a step of its reading. -/
theorem Yields.step {a : Annotation} (yields : Yields rt a before s after) :
    ∃ depth, annotationSchema rt (readers rt depth) a before = some (s, after) := by
  obtain ⟨depth, ran⟩ := yields
  cases depth with
  | zero => cases ran
  | succ depth => exact ⟨depth, ran⟩

theorem yields_iff_of_reading {a b : Annotation} (same : annotationReading rt a = annotationReading rt b) :
    Yields rt a before s after ↔ Yields rt b before s after := by
  have schemas : ∀ depth, annotationSchema rt (readers rt depth) a = annotationSchema rt (readers rt depth) b :=
    fun depth => by simp only [annotationSchema, same]
  constructor
  · intro yields
    obtain ⟨depth, ran⟩ := yields.step
    exact .of_succ (schemas depth ▸ ran)
  · intro yields
    obtain ⟨depth, ran⟩ := yields.step
    exact .of_succ (schemas depth ▸ ran)

theorem yields_text {text : Chars} :
    Yields rt (.text text) before s after ↔ ∃ depth, (readers rt depth).text text before = some (s, after) := by
  constructor
  · exact fun yields => yields.step
  · rintro ⟨depth, ran⟩
    exact .of_succ ran

theorem Yields.nullable {a inner : Annotation} (read : annotationReading rt a = .nullable inner)
    (yields : Yields rt inner before s after) : Yields rt a before (withNull s) after := by
  obtain ⟨depth, ran⟩ := yields
  have schema : annotationSchema rt (readers rt depth) a = withNull <$> (readers rt depth).annotated inner := by
    simp only [annotationSchema, read]
  exact .of_succ (schema ▸ map_eq_some.mpr ⟨s, after, ran, rfl⟩)

theorem yields_plain {a : Annotation} {p : PlainSchema} (read : annotationReading rt a = .plain p) :
    Yields rt a before s after ↔ s = p.schema ∧ after = before := by
  have schema : ∀ depth, annotationSchema rt (readers rt depth) a = pure p.schema := fun depth => by
    simp only [annotationSchema, read]
  constructor
  · intro yields
    obtain ⟨depth, ran⟩ := yields.step
    rw [schema] at ran
    simpa using pure_eq_some.mp ran
  · rintro ⟨rfl, rfl⟩
    exact ⟨1, (congrFun (schema 0) after).trans rfl⟩

/-- A text is read by its normalized form alone. -/
theorem text_normalized {text text' : Chars} (same : normalized text = normalized text') (depth : Nat) :
    (readers rt depth).text text = (readers rt depth).text text' := by
  cases depth with
  | zero => rfl
  | succ depth =>
      show annotationStringSchema rt (readers rt depth) text = annotationStringSchema rt (readers rt depth) text'
      simp only [annotationStringSchema, readText, same]

theorem registry_describesObjects (registry : SchemaRegistry) (formats : Chars → Chars → Bool) :
    DescribesObjects ⟨registry.definition, formats⟩ := by
  intro ref d found
  simp only [SchemaRegistry.definition] at found
  split at found
  · obtain ⟨definition, _, rfl⟩ := Option.map_eq_some_iff.mp found
    rfl
  · cases found

theorem accepts_null_iff (formats : Chars → Chars → Bool) {a : Annotation} (yields : Yields rt a before s after) :
    s.Accepts ⟨after.definition, formats⟩ .null ↔ annotationAdmitsNull rt false a = true := by
  obtain ⟨depth, ran⟩ := yields
  have takes := (readers_takeAsRead rt depth).annotated a before s after ran
  exact (takes.own _ (registry_describesObjects after formats)).accepts_iff

end

/-! ## The optional forms -/

/-- A text stands for itself or inside a forward reference. -/
inductive Spelling where
  | text
  | forwardRef

def Spelling.write : Spelling → Chars → Annotation
  | text, written => .text written
  | forwardRef, written => .forwardRef written

/-- `Optional[T]`, which is `T | None`: unions are flattened, and None is not repeated. -/
def optionalType (rt : Runtime) : Annotation → Annotation
  | .union first second others =>
      if (first :: second :: others).any (·.isNone rt) then .union first second others
      else .union first second (others ++ [.type rt.noneType])
  | .text text => .union (.forwardRef text) (.type rt.noneType) []
  | .type c => if c = rt.noneType then .type c else .union (.type c) (.type rt.noneType) []
  | a => .union a (.type rt.noneType) []

inductive OptionalForm where
  | typing (a : Annotation)
  /-- `'Optional[T]'` -/
  | bracketed (spelling : Spelling) (text : Chars)
  /-- `'T | None'` -/
  | barred (spelling : Spelling) (text : Chars)

def bracketedText (text : Chars) : Chars := "Optional[".toList ++ text ++ "]".toList

def barredText (text : Chars) : Chars := text ++ " | None".toList

namespace OptionalForm

def plain : OptionalForm → Annotation
  | typing a => a
  | bracketed spelling text | barred spelling text => spelling.write text

def optional (rt : Runtime) : OptionalForm → Annotation
  | typing a => optionalType rt a
  | bracketed spelling text => spelling.write (bracketedText text)
  | barred spelling text => spelling.write (barredText text)

/-- What the reading of an alternative depends on. -/
def alternativeKey (part : Chars) : Chars × Bool := (normalized part, isNoneName part)

/-- The text is read beside None as it is read alone: no bar stands inside brackets,
and what is left between the bars is what a single reading leaves. -/
def ReadAsWritten : OptionalForm → Prop
  | typing _ => True
  | bracketed _ text => '|' ∉ text
  | barred _ text =>
      ∃ others, parts '|' (normalized (barredText text)) = others ++ ["None".toList] ∧
        if '|' ∈ text then
          parts '|' (normalized text) ≠ [] ∧
            others.map alternativeKey = (parts '|' (normalized text)).map alternativeKey
        else others.map normalized = [normalized text]

end OptionalForm

/-! ## Every value stays accepted -/

/-- Each value that the first accepts, the second accepts too. -/
def Widens (formats : Chars → Chars → Bool) (s : Schema) (after : SchemaRegistry) (s' : Schema)
    (after' : SchemaRegistry) : Prop :=
  ∀ v, s.Accepts ⟨after.definition, formats⟩ v → s'.Accepts ⟨after'.definition, formats⟩ v

/-- The optional annotation has a schema, and it accepts what the plain one's accepts. -/
def Includes (rt : Runtime) (formats : Chars → Chars → Bool) (optional : Annotation) (before : SchemaRegistry)
    (s : Schema) (after : SchemaRegistry) : Prop :=
  ∃ s' after', Yields rt optional before s' after' ∧ Widens formats s after s' after'

section
variable {rt : Runtime} {formats : Chars → Chars → Bool} {before after : SchemaRegistry} {s : Schema}

theorem widens_withNull : Widens formats s after (withNull s) after :=
  fun _ accepts => accepts.of_depth fun _ => accepts_withNull

theorem Yields.includes {a : Annotation} (yields : Yields rt a before s after) :
    Includes rt formats a before s after := ⟨s, after, yields, fun _ accepts => accepts⟩

theorem includes_of_nullable {a inner : Annotation} (read : annotationReading rt a = .nullable inner)
    (yields : Yields rt inner before s after) : Includes rt formats a before s after :=
  ⟨withNull s, after, yields.nullable read, widens_withNull⟩

theorem isNone_noneType : ( Annotation.type rt.noneType).isNone rt = true := by simp [ Annotation.isNone]

/-- A type beside None is nullable. -/
theorem reading_beside_none {a : Annotation} (typed : a.isNone rt = false) :
    annotationReading rt (.union a (.type rt.noneType) []) = .nullable a := by
  simp [annotationReading, readArguments, typed, isNone_noneType]

theorem readArguments_of_two {first second : Annotation} {others : List Annotation} (rest : List Annotation)
    (kept : (first :: second :: others ++ rest).filter (!·.isNone rt) = first :: second :: others) :
    readArguments rt (first :: second :: others ++ rest) = .plain stringSchema := by
  unfold readArguments
  rw [kept]

theorem readNormalized_nil : readNormalized rt [] = .plain stringSchema := by
  have structureType : resolveStructureTypeByName rt [] = none := by
    simp [resolveStructureTypeByName, stripBy, strip, lower, rt.blank_unbound]
  have structure_ : readStructure rt [] = none := by simp [readStructure, structureType]
  have imported : readImported rt [] = none := by
    simp [readImported, resolveTypeFromModulePath, stripBy, strip]
  rw [readNormalized, structure_, imported]
  rfl

theorem readNormalized_none : readNormalized rt "None".toList = .plain stringSchema := by
  have candidates : resolveStructureTypeByName rt "None".toList =
      (["None".toList].findSome? rt.uaAttribute <|> rt.structureNamed ["none".toList]) := rfl
  have structureType : resolveStructureTypeByName rt "None".toList = none := by
    rw [candidates, List.findSome?_cons, rt.none_unbound.1, rt.none_unbound.2]
    rfl
  have structure_ : readStructure rt "None".toList = none := by rw [readStructure, structureType]; rfl
  have imported : readImported rt "None".toList = none := rfl
  rw [readNormalized, structure_, imported]
  rfl

theorem mem_stripBy {p : Char → Bool} {text : Chars} {c : Char} (mem : c ∈ stripBy p text) : c ∈ text := by
  have inside := (List.dropWhile_suffix p).subset (List.mem_reverse.mp mem)
  exact (List.dropWhile_suffix p).subset (List.mem_reverse.mp inside)

theorem stripBy_eq_nil {p : Char → Bool} {text : Chars} : stripBy p text = [] ↔ ∀ c ∈ text, p c = true := by
  constructor
  · intro blank
    have right := List.dropWhile_eq_nil_iff.mp (List.reverse_eq_nil_iff.mp blank)
    cases left : text.dropWhile p with
    | nil => exact List.dropWhile_eq_nil_iff.mp left
    | cons c rest =>
        -- what is left begins with a character that is not stripped
        have first : p c = false := by
          have inhabited : text.dropWhile p ≠ [] := by rw [left]; exact List.cons_ne_nil _ _
          simpa only [left, List.head_cons] using List.head_dropWhile_not p inhabited
        have stripped := right c (by rw [left]; simp)
        rw [first] at stripped
        cases stripped
  · intro all
    have left : text.dropWhile p = [] := List.dropWhile_eq_nil_iff.mpr all
    simp [stripBy, left]

theorem normalized_of_blank {text : Chars} (blank : strip text = []) : normalized text = [] := by
  have stripped : strip (stripBy isQuoteOrBlank text) = [] :=
    stripBy_eq_nil.mpr fun c mem => stripBy_eq_nil.mp blank c (mem_stripBy mem)
  rw [normalized, stripped]
  rfl

theorem yields_text_plain {text : Chars} {p : PlainSchema} (read : readText rt text = .plain p) :
    Yields rt (.text text) before s after ↔ s = p.schema ∧ after = before := by
  have schema : ∀ depth, (readers rt (depth + 1)).text text = pure p.schema := fun depth => by
    show annotationStringSchema rt (readers rt depth) text = _
    simp only [annotationStringSchema, read]
  rw [yields_text]
  constructor
  · rintro ⟨depth, ran⟩
    cases depth with
    | zero => cases ran
    | succ depth =>
        rw [schema] at ran
        simpa using pure_eq_some.mp ran
  · rintro ⟨rfl, rfl⟩
    exact ⟨1, (congrFun (schema 0) after).trans rfl⟩

/-- A forward reference to a text is read as the text. -/
theorem yields_write (spelling : Spelling) (text : Chars) :
    Yields rt (spelling.write text) before s after ↔ Yields rt (.text text) before s after := by
  cases spelling with
  | text => exact Iff.rfl
  | forwardRef =>
      by_cases blank : strip text = []
      · have read : readText rt text = .plain stringSchema := by
          rw [readText, normalized_of_blank blank, readNormalized_nil]
        rw [yields_text_plain read, Spelling.write]
        exact yields_plain (by simp [annotationReading, blank])
      · exact yields_iff_of_reading (by simp [Spelling.write, annotationReading, blank])

/-! ## Types beside None -/

theorem includes_typing {a : Annotation} (yields : Yields rt a before s after) :
    Includes rt formats (optionalType rt a) before s after := by
  cases a with
  | forwardRef text => exact includes_of_nullable (reading_beside_none rfl) yields
  | generic origin args => exact includes_of_nullable (reading_beside_none rfl) yields
  | other => exact includes_of_nullable (reading_beside_none rfl) yields
  | text text =>
      exact includes_of_nullable (reading_beside_none rfl) ((yields_write .forwardRef text).mpr yields)
  | type c =>
      by_cases none : c = rt.noneType
      · rw [optionalType, if_pos none]
        exact yields.includes
      · rw [optionalType, if_neg none]
        exact includes_of_nullable (reading_beside_none (by simpa [ Annotation.isNone] using none)) yields
  | union first second others =>
      by_cases any : (first :: second :: others).any (·.isNone rt) = true
      · rw [optionalType, if_pos any]
        exact yields.includes
      · rw [optionalType, if_neg any]
        -- with and without None the choice stays one of several
        have typed : (first :: second :: others).filter (!·.isNone rt) = first :: second :: others := by
          rw [List.filter_eq_self]
          intro a mem
          simpa using fun none => any (List.any_eq_true.mpr ⟨a, mem, none⟩)
        have alone : annotationReading rt (.union first second others) = .plain stringSchema := by
          simpa [annotationReading] using readArguments_of_two [] (by simpa using typed)
        have beside : annotationReading rt (.union first second (others ++ [.type rt.noneType])) =
            .plain stringSchema := by
          refine readArguments_of_two [.type rt.noneType] ?_
          rw [List.filter_append, typed]
          simp [isNone_noneType]
        refine Yields.includes ((yields_iff_of_reading ?_).mp yields)
        rw [alone, beside]

/-! ## Texts beside None -/

theorem stripBy_eq_self {p : Char → Bool} {first last : Char} (middle : Chars) (keepsFirst : p first = false)
    (keepsLast : p last = false) : stripBy p (first :: (middle ++ [last])) = first :: (middle ++ [last]) := by
  have left : (first :: (middle ++ [last])).dropWhile p = first :: (middle ++ [last]) := by
    rw [List.dropWhile_cons, keepsFirst]
    rfl
  have right : (first :: (middle ++ [last])).reverse = last :: (first :: middle).reverse := by
    rw [← List.cons_append, List.reverse_append]
    rfl
  rw [stripBy, left, right, List.dropWhile_cons, keepsLast, if_neg Bool.false_ne_true, ← right, List.reverse_reverse]

theorem normalized_bracketedText (text : Chars) : normalized (bracketedText text) = bracketedText text := by
  have ends : bracketedText text = 'O' :: (("ptional[".toList ++ text) ++ [']']) := rfl
  have unquoted : stripBy isQuoteOrBlank ('O' :: (("ptional[".toList ++ text) ++ [']'])) =
      'O' :: (("ptional[".toList ++ text) ++ [']']) := stripBy_eq_self _ (by decide) (by decide)
  have stripped : stripBy isSpace ('O' :: (("ptional[".toList ++ text) ++ [']'])) =
      'O' :: (("ptional[".toList ++ text) ++ [']']) := stripBy_eq_self _ (by decide) (by decide)
  rw [normalized, ends, unquoted, strip, stripped]
  rfl

theorem readText_bracketedText {text : Chars} (barless : '|' ∉ text) :
    readText rt (bracketedText text) = .nullable text := by
  have spelled : bracketedText text = ['O', 'p', 't', 'i', 'o', 'n', 'a', 'l', '['] ++ (text ++ [']']) := rfl
  have noBars : readBars (bracketedText text) = none := by
    refine if_neg fun bar => ?_
    rw [spelled] at bar
    simp [barless] at bar
  have lowered : lower (bracketedText text) = "optional[".toList ++ (lower text ++ [']']) := by
    rw [spelled, lower, List.map_append, List.map_append]
    rfl
  have bracketed : enclosed "optional[" (bracketedText text) = true := by
    rw [enclosed, lowered, Bool.and_eq_true, List.isPrefixOf_iff_prefix, List.isSuffixOf_iff_suffix]
    exact ⟨List.prefix_append _ _, "optional[".toList ++ lower text, List.append_assoc _ _ _⟩
  have inside : between 9 (bracketedText text) = text := by
    rw [spelled]
    exact List.dropLast_concat
  rw [readText, normalized_bracketedText, readNormalized, noBars, readOptional, if_pos bracketed, inside]
  rfl

theorem Yields.of_text {text : Chars} {depth : Nat}
    (ran : annotationStringSchema rt (readers rt depth) text before = some (s, after)) :
    Yields rt (.text text) before s after := yields_text.mpr ⟨depth + 1, ran⟩

theorem Yields.text_step {text : Chars} (yields : Yields rt (.text text) before s after) :
    ∃ depth, annotationStringSchema rt (readers rt depth) text before = some (s, after) := by
  obtain ⟨depth, ran⟩ := yields_text.mp yields
  cases depth with
  | zero => cases ran
  | succ depth => exact ⟨depth, ran⟩

theorem yields_text_nullable {text inner : Chars} (read : readText rt text = .nullable inner) :
    Yields rt (.text text) before s after ↔
      ∃ nested, Yields rt (.text inner) before nested after ∧ s = withNull nested := by
  have schema : ∀ depth,
      annotationStringSchema rt (readers rt depth) text = withNull <$> (readers rt depth).text inner :=
    fun depth => by simp only [annotationStringSchema, read]
  constructor
  · intro yields
    obtain ⟨depth, ran⟩ := yields.text_step
    rw [schema] at ran
    obtain ⟨nested, _, ranNested, same⟩ := map_eq_some.mp ran
    cases same
    exact ⟨nested, yields_text.mpr ⟨depth, ranNested⟩, rfl⟩
  · rintro ⟨nested, yields, rfl⟩
    obtain ⟨depth, ran⟩ := yields_text.mp yields
    exact .of_text (schema depth ▸ map_eq_some.mpr ⟨nested, after, ran, rfl⟩)

theorem yields_text_alternatives {text : Chars} {texts : List Chars} (read : readText rt text = .alternatives texts) :
    Yields rt (.text text) before s after ↔
      ∃ depth branches, texts.mapM (readers rt depth).text before = some (branches, after) ∧
        s = anyOfSchema branches := by
  have schema : ∀ depth,
      annotationStringSchema rt (readers rt depth) text = anyOfSchema <$> texts.mapM (readers rt depth).text :=
    fun depth => by simp only [annotationStringSchema, read]
  constructor
  · intro yields
    obtain ⟨depth, ran⟩ := yields.text_step
    rw [schema] at ran
    obtain ⟨branches, _, ranBranches, same⟩ := map_eq_some.mp ran
    cases same
    exact ⟨depth, branches, ranBranches, rfl⟩
  · rintro ⟨depth, branches, ran, rfl⟩
    exact .of_text (schema depth ▸ map_eq_some.mpr ⟨branches, after, ran, rfl⟩)

theorem yields_normalized {text text' : Chars} (same : normalized text = normalized text') :
    Yields rt (.text text) before s after ↔ Yields rt (.text text') before s after := by
  simp only [yields_text, text_normalized same]

theorem includes_text_nullable {text inner : Chars} (read : readText rt text = .nullable inner)
    (yields : Yields rt (.text inner) before s after) : Includes rt formats (.text text) before s after :=
  ⟨withNull s, after, (yields_text_nullable read).mpr ⟨s, yields, rfl⟩, widens_withNull⟩

/-! ### What the bars leave -/

theorem mem_dropStart_of_not_mem {c : Char} {start text : Chars} (absent : c ∉ start) (mem : c ∈ text) :
    c ∈ dropStart start text := by
  unfold dropStart
  split
  · rename_i starts
    obtain ⟨rest, rfl⟩ := List.isPrefixOf_iff_prefix.mp starts
    rw [List.drop_left]
    exact (List.mem_append.mp mem).resolve_left absent
  · exact mem

theorem bar_mem_normalized {text : Chars} (mem : '|' ∈ text) : '|' ∈ normalized text :=
  mem_dropStart_of_not_mem (by decide) <| mem_dropStart_of_not_mem (by decide) <|
    mem_stripBy_of_kept (by decide) (mem_stripBy_of_kept (by decide) mem)

variable (rt) in
theorem readText_of_bar {text : Chars} (bar : '|' ∈ text) (inhabited : parts '|' (normalized text) ≠ []) :
    readText rt text = readAlternatives (parts '|' (normalized text)) := by
  have read : readBars (normalized text) = some (readAlternatives (parts '|' (normalized text))) :=
    if_pos ⟨bar_mem_normalized bar, inhabited⟩
  rw [readText, readNormalized, read]
  rfl

theorem readAlternatives_single (part : Chars) : readAlternatives [part] = .alternatives [part] := rfl

theorem readAlternatives_of_kept {texts : List Chars} {part : Chars} (several : texts.length ≠ 1)
    (kept : texts.filter (!isNoneName ·) = [part]) : readAlternatives texts = .nullable part := by
  unfold readAlternatives
  split
  · exact absurd rfl several
  · rename_i texts _ _ other _ found
    rw [found] at kept
    cases kept
    rfl
  · rename_i texts _ _ none
    exact absurd kept (none part)

theorem readAlternatives_of_several {texts : List Chars} (several : ∀ part, texts.filter (!isNoneName ·) ≠ [part]) :
    readAlternatives texts = .alternatives texts := by
  unfold readAlternatives
  split
  · rfl
  · rename_i found
    exact absurd found (several _)
  · rfl

theorem filter_beside_none (others : List Chars) :
    (others ++ ["None".toList]).filter (!isNoneName ·) = others.filter (!isNoneName ·) := by
  have isNone : isNoneName "None".toList = true := by decide
  rw [List.filter_append, List.filter_cons, isNone]
  exact List.append_nil _

/-! ### The schemas beside None -/

theorem mapM_normalized {texts texts' : List Chars} (same : texts.map normalized = texts'.map normalized) (depth : Nat) :
    texts.mapM (readers rt depth).text = texts'.mapM (readers rt depth).text := by
  induction texts generalizing texts' with
  | nil => rw [List.map_eq_nil_iff.mp same.symm]
  | cons text texts ih =>
      obtain ⟨text', rest, rfl, head, tail⟩ := List.map_eq_cons_iff.mp same.symm
      rw [List.mapM_cons, List.mapM_cons, text_normalized head.symm depth, ih tail.symm]

theorem mapM_beside_none {texts others : List Chars} {branches : List Schema} {depth : Nat}
    (same : others.map normalized = texts.map normalized)
    (ran : texts.mapM (readers rt depth).text before = some (branches, after)) :
    (others ++ ["None".toList]).mapM (readers rt (depth + 1)).text before =
      some (branches ++ [stringSchema.schema], after) := by
  have read : readText rt "None".toList = .plain stringSchema := readNormalized_none
  have noneSchema : (readers rt (depth + 1)).text "None".toList = pure stringSchema.schema := by
    show annotationStringSchema rt (readers rt depth) "None".toList = _
    simp only [annotationStringSchema, read]
  rw [List.mapM_append, mapM_normalized same]
  refine bind_eq_some.mpr ⟨branches, after, ?_, ?_⟩
  · exact Extends.mapM (readers_extends rt (Nat.le_succ depth)).text before _ ran
  · rw [List.mapM_cons, noneSchema]
    rfl

/-- A choice of what was read before, with None as one more alternative. -/
theorem includes_alternatives {text : Chars} {texts others : List Chars} {branches : List Schema} {depth : Nat}
    (read : readText rt text = .alternatives (others ++ ["None".toList]))
    (same : others.map normalized = texts.map normalized)
    (ran : texts.mapM (readers rt depth).text before = some (branches, after))
    (wider : ∀ v, s.Accepts ⟨after.definition, formats⟩ v →
      (anyOfSchema branches).Accepts ⟨after.definition, formats⟩ v) :
    Includes rt formats (.text text) before s after := by
  refine ⟨anyOfSchema (branches ++ [stringSchema.schema]), after, ?_, fun v accepts => ?_⟩
  · exact (yields_text_alternatives read).mpr ⟨depth + 1, _, mapM_beside_none same ran, rfl⟩
  · exact (wider v accepts).anyOf_mono (List.subset_append_left _ _)

theorem map_filter_alternativeKey (texts : List Chars) :
    (texts.filter (!isNoneName ·)).map normalized =
      ((texts.map OptionalForm.alternativeKey).filter (!·.2)).map Prod.fst := by
  rw [List.filter_map, List.map_map]
  rfl

variable (rt) in
theorem readText_barredText {text : Chars} {others : List Chars}
    (cut : parts '|' (normalized (barredText text)) = others ++ ["None".toList]) :
    readText rt (barredText text) = readAlternatives (others ++ ["None".toList]) := by
  have bar : '|' ∈ barredText text := List.mem_append_right _ (by decide)
  rw [readText_of_bar rt bar (by rw [cut]; exact List.concat_ne_nil _ _), cut]

/-- A text without bars is the only alternative beside None. -/
theorem includes_barred_single {text : Chars} {others : List Chars}
    (cut : parts '|' (normalized (barredText text)) = others ++ ["None".toList])
    (same : others.map normalized = [normalized text]) (yields : Yields rt (.text text) before s after) :
    Includes rt formats (.text (barredText text)) before s after := by
  obtain ⟨part, rfl, sameText⟩ := List.map_eq_singleton_iff.mp same
  have read := readText_barredText rt cut
  by_cases kept : [part].filter (!isNoneName ·) = [part]
  · rw [readAlternatives_of_kept (by simp) ((filter_beside_none _).trans kept)] at read
    exact includes_text_nullable read ((yields_normalized sameText).mpr yields)
  · have dropped : [part].filter (!isNoneName ·) = [] := by
      rw [List.filter_cons] at kept ⊢
      split_ifs at kept ⊢ <;> simp_all
    rw [readAlternatives_of_several fun other => by rw [filter_beside_none, dropped]; simp] at read
    obtain ⟨depth, ran⟩ := yields_text.mp yields
    have ranAlone : [text].mapM (readers rt depth).text before = some ([s], after) := by
      rw [List.mapM_cons]
      exact bind_eq_some.mpr ⟨s, after, ran, rfl⟩
    exact includes_alternatives read (by simpa using sameText) ranAlone fun v accepts =>
      accepts.anyOf List.mem_cons_self

/-- A choice between bars stays the choice, or the one alternative stays nullable. -/
theorem includes_barred_choice {text : Chars} {others : List Chars} (bar : '|' ∈ text)
    (cut : parts '|' (normalized (barredText text)) = others ++ ["None".toList])
    (inhabited : parts '|' (normalized text) ≠ [])
    (same : others.map OptionalForm.alternativeKey = (parts '|' (normalized text)).map OptionalForm.alternativeKey)
    (yields : Yields rt (.text text) before s after) : Includes rt formats (.text (barredText text)) before s after := by
  have readBarred := readText_barredText rt cut
  have read := readText_of_bar rt bar inhabited
  generalize texts_eq : parts '|' (normalized text) = texts at same read inhabited
  have normal : others.map normalized = texts.map normalized := by
    simpa [OptionalForm.alternativeKey, Function.comp_def] using congrArg (List.map Prod.fst) same
  have kept : (others.filter (!isNoneName ·)).map normalized = (texts.filter (!isNoneName ·)).map normalized := by
    rw [map_filter_alternativeKey, map_filter_alternativeKey, same]
  have lengths : others.length = texts.length := by simpa using congrArg List.length normal
  have several : (others ++ ["None".toList]).length ≠ 1 := by
    have := List.length_pos_iff.mpr inhabited
    simp only [List.length_append, List.length_singleton]
    omega
  by_cases one : ∃ part, others.filter (!isNoneName ·) = [part]
  · obtain ⟨part, only⟩ := one
    rw [readAlternatives_of_kept several ((filter_beside_none others).trans only)] at readBarred
    obtain ⟨part', only', sameText⟩ := List.map_eq_singleton_iff.mp (kept.symm.trans (by rw [only]; rfl))
    by_cases single : texts.length = 1
    · -- the choice of one is that one
      obtain ⟨text', rfl⟩ := List.length_eq_one_iff.mp single
      obtain rfl : text' = part' := by
        have inside : part' ∈ [text'].filter (!isNoneName ·) := by rw [only']; exact List.mem_cons_self
        exact (List.mem_singleton.mp (List.mem_of_mem_filter inside)).symm
      rw [readAlternatives_single] at read
      obtain ⟨depth, branches, ran, rfl⟩ := (yields_text_alternatives read).mp yields
      rw [List.mapM_cons] at ran
      obtain ⟨branch, mid, ranBranch, ran⟩ := bind_eq_some.mp ran
      cases ran
      refine ⟨withNull branch, after, (yields_text_nullable readBarred).mpr ⟨branch, ?_, rfl⟩, fun v accepts => ?_⟩
      · exact (yields_normalized sameText.symm).mpr (yields_text.mpr ⟨depth, ranBranch⟩)
      · exact widens_withNull v accepts.of_anyOf_single
    · rw [readAlternatives_of_kept single only'] at read
      obtain ⟨nested, yieldsNested, rfl⟩ := (yields_text_nullable read).mp yields
      refine Yields.includes ((yields_text_nullable readBarred).mpr ⟨nested, ?_, rfl⟩)
      exact (yields_normalized sameText.symm).mpr yieldsNested
  · have choice := readAlternatives_of_several fun part => by
      rw [filter_beside_none]
      exact fun only => one ⟨part, only⟩
    have choiceAlone : readAlternatives texts = .alternatives texts := readAlternatives_of_several fun part only => by
      obtain ⟨part', only', _⟩ := List.map_eq_singleton_iff.mp (kept.trans (by rw [only]; rfl))
      exact one ⟨part', only'⟩
    rw [choice] at readBarred
    rw [choiceAlone] at read
    obtain ⟨depth, branches, ran, rfl⟩ := (yields_text_alternatives read).mp yields
    exact includes_alternatives readBarred normal ran fun _ accepts => accepts

/-! ## Optional annotations -/

theorem includes_optional {form : OptionalForm} (asWritten : form.ReadAsWritten)
    (yields : Yields rt form.plain before s after) : Includes rt formats (form.optional rt) before s after := by
  have respelled : ∀ (spelling : Spelling) text, Includes rt formats (.text text) before s after →
      Includes rt formats (spelling.write text) before s after := by
    rintro spelling text ⟨s', after', yields', wider⟩
    exact ⟨s', after', (yields_write spelling text).mpr yields', wider⟩
  cases form with
  | typing a => exact includes_typing yields
  | bracketed spelling text =>
      exact respelled _ _ <|
        includes_text_nullable (readText_bracketedText asWritten) ((yields_write spelling text).mp yields)
  | barred spelling text =>
      refine respelled _ _ ?_
      obtain ⟨others, cut, same⟩ := asWritten
      by_cases bar : '|' ∈ text
      · rw [if_pos bar] at same
        exact includes_barred_choice bar cut same.1 same.2 ((yields_write spelling text).mp yields)
      · rw [if_neg bar] at same
        exact includes_barred_single cut same ((yields_write spelling text).mp yields)

/-- An optional annotation that is read as it is written accepts null and whatever the
plain one accepts, exactly if its reading lets null in. -/
theorem optional_admits_null_iff (rt : Runtime) (formats : Chars → Chars → Bool) (form : OptionalForm)
    (asWritten : form.ReadAsWritten) {before after : SchemaRegistry} {s : Schema}
    (yields : Yields rt form.plain before s after) :
    (∃ s' after', Yields rt (form.optional rt) before s' after') ∧
      ∀ s' after', Yields rt (form.optional rt) before s' after' →
        ((s'.Accepts ⟨after'.definition, formats⟩ .null ∧ Widens formats s after s' after') ↔
          annotationAdmitsNull rt false (form.optional rt) = true) := by
  obtain ⟨found, foundAfter, foundYields, wider⟩ : Includes rt formats (form.optional rt) before s after :=
    includes_optional asWritten yields
  refine ⟨⟨found, foundAfter, foundYields⟩, fun s' after' yields' => ?_⟩
  obtain ⟨rfl, rfl⟩ := yields'.unique foundYields
  exact (and_iff_left wider).trans (accepts_null_iff formats yields')

end

/-! A structure field with an enumeration of two colours, which may be absent. -/

def palette : Runtime where
  info
    | 1 => { name := "Colour".toList, module := "plant".toList, isInt := true,
             enumMembers := some [⟨"RED".toList, some 0⟩, ⟨"GREEN".toList, some 1⟩] }
    | 2 => { name := "bool".toList, module := "builtins".toList, isBool := true, isInt := true }
    | _ => { name := "NoneType".toList, module := "builtins".toList }
  noneType := 0
  anyType := 3
  uaAttribute _ := none
  structureNamed _ := none
  importedAttribute _ _ := none
  dataTypeClass _ := none
  blank_unbound := ⟨rfl, rfl⟩
  none_unbound := ⟨rfl, rfl⟩

theorem optional_bool_admits_null :
    ∃ s' after', Yields palette (optionalType palette (.type 2)) {} s' after' ∧
      s'.Accepts ⟨after'.definition, fun _ _ => true⟩ .null := by
  have yields : Yields palette (OptionalForm.typing (.type 2)).plain {} { type := some (.one .boolean) } {} :=
    ⟨1, rfl⟩
  obtain ⟨⟨s', after', yields'⟩, admits⟩ :=
    optional_admits_null_iff palette (fun _ _ => true) (.typing (.type 2)) trivial yields
  refine ⟨s', after', yields', ((admits s' after' yields').mpr ?_).1⟩
  have beside : annotationReading palette ((OptionalForm.typing (.type 2)).optional palette) = .nullable (.type 2) := rfl
  have bool : annotationReading palette (.type 2) = .type 2 := rfl
  rw [annotationAdmitsNull_eq, beside]
  dsimp only
  rw [annotationAdmitsNull_eq, bool]
  rfl

/-- The enumeration's own values are listed, and null is not among them. -/
theorem optional_colour_refuses_null :
    ∃ s', Yields palette (optionalType palette (.type 1)) {} s' {} ∧
      s'.type = some (.several [.integer, .null]) ∧ s'.enum = some [.integer 0, .integer 1] ∧
        ¬ s'.Accepts ⟨({} : SchemaRegistry).definition, fun _ _ => true⟩ .null := by
  refine ⟨withNull (enumSchema [⟨"RED".toList, some 0⟩, ⟨"GREEN".toList, some 1⟩]), ⟨2, rfl⟩, rfl, rfl, ?_⟩
  exact ((takesNull_enum _).patched _ (registry_describesObjects {} _)).not_accepts

end I3x.Schemas
