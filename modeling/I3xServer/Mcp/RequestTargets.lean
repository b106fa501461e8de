import I3xServer.Container.Replacement
import I3xServer.Mcp.RequestPaths

/-!
# The targets of tool calls

A tool call is sent to its route: the path template of the tool behind the prefix of the
API, where every placeholder is replaced by the percent-encoded value of its parameter.
-/
namespace I3x.Mcp
open Container

/-! ## Quoting -/

def hexDigit (n : Nat) : Char := "0123456789ABCDEF".toList.getD n '0'

def percent (byte : UInt8) : List Char := ['%', hexDigit (byte.toNat / 16), hexDigit (byte.toNat % 16)]

def quoteChar (c : Char) : List Char :=
  if c.isAlphanum || c ∈ ['_', '.', '-', '~'] then [c] else (String.utf8EncodeChar c).flatMap percent

def percentEncoded (text : List Char) : List Char := text.flatMap quoteChar

/-- A lone surrogate has no bytes in UTF-8. -/
def quote (value : List CodePoint) : Except PathFailure (List Char) :=
  match value.mapM CodePoint.scalar? with
  | some text => .ok (percentEncoded text)
  | none => .error .unicodeEncodeError

/-! ## Tools -/

inductive Segment where
  | literal (text : List Char)
  | parameter (name : List Char)
  deriving DecidableEq, Repr

def placeholder (name : List Char) : List Char := '\x7b' :: (name ++ ['\x7d'])

def Segment.text : Segment → List Char
  | .literal text => text
  | .parameter name => placeholder name

/-- A segment with the value of its parameter, percent-encoded. -/
def Segment.filled (texts : List Char → List Char) : Segment → List Char
  | .literal text => text
  | .parameter name => percentEncoded (texts name)

/-- A tool whose path template has its placeholders as whole segments. -/
structure Tool where
  template : List Segment
  pathParameters : List (List Char)
  serverUrlOverride : Option (List Char)
  whole : ∀ segment ∈ template, '/' ∉ segment.text
  listed : ∀ name, Segment.parameter name ∈ template ↔ name ∈ pathParameters
  distinct : pathParameters.Nodup
  plain : ∀ name ∈ pathParameters, '\x7b' ∉ name ∧ '\x7d' ∉ name
  apart : ∀ text, Segment.literal text ∈ template → ∀ name ∈ pathParameters, ¬ placeholder name <:+: text

namespace Tool

def path (tool : Tool) : List Char := rooted (tool.template.map Segment.text)

def effectivePrefix (tool : Tool) (lib : UrlLibrary) (apiPrefix : List Char) : Except PathFailure (List Char) :=
  match tool.serverUrlOverride with
  | some url => lib.safeApiPrefix url
  | none => .ok apiPrefix

/-- The placeholders are filled one after another, each where the path has it. -/
def fillPath (lib : UrlLibrary) (arguments : List Char → List CodePoint) :
    List (List Char) → List Char → Except PathFailure (List Char)
  | [], resolved => .ok resolved
  | name :: names, resolved =>
      if ¬ placeholder name <:+: resolved then
        .error (internalError ("Path placeholder not found for " ++ String.ofList name))
      else do
        let value ← lib.safePathParameterValue name (arguments name)
        let quoted ← quote value
        fillPath lib arguments names (replaceAll (placeholder name) quoted resolved)

/-- The target of a call whose arguments give every path parameter a value. -/
def requestTarget (tool : Tool) (lib : UrlLibrary) (apiPrefix : List Char) (arguments : List Char → List CodePoint) :
    Except PathFailure (List Char) := do
  let effective ← tool.effectivePrefix lib apiPrefix
  let resolved ← lib.safeRequestPath effective tool.path
  let filled ← fillPath lib arguments tool.pathParameters resolved
  lib.safeRequestPath [] filled

end Tool

/-! ## Values with and without lone surrogates -/

/-- A value that UTF-8 can encode. -/
def Encodable (value : List CodePoint) : Prop := ∀ index, .surrogate index ∉ value

instance (value : List CodePoint) : Decidable (Encodable value) := Fintype.decidableForallFintype

/-- The characters of a value. -/
def scalars (value : List CodePoint) : List Char := value.filterMap CodePoint.scalar?

theorem Encodable.map_scalars {value : List CodePoint} (encodable : Encodable value) :
    (scalars value).map .scalar = value := by
  induction value with
  | nil => rfl
  | cons c value ih =>
      have rest := ih fun index m => encodable index (List.mem_cons_of_mem _ m)
      cases c with
      | scalar c => exact congrArg (CodePoint.scalar c :: ·) rest
      | surrogate index => exact absurd List.mem_cons_self (encodable index)

theorem map_shown (text : List Char) : (text.map CodePoint.scalar).map CodePoint.shown = text := by
  rw [List.map_map]
  exact List.map_id text

theorem quote_map (text : List Char) : quote (text.map .scalar) = .ok (percentEncoded text) := by
  have all : (text.map CodePoint.scalar).mapM CodePoint.scalar? = some text := by
    induction text with
    | nil => rfl
    | cons c text ih =>
        rw [List.map_cons, List.mapM_cons, ih]
        rfl
  rw [quote, all]

theorem encodable_of_quote {value : List CodePoint} {quoted : List Char} (ok : quote value = .ok quoted) :
    Encodable value := by
  unfold quote at ok
  split at ok
  · next text all =>
      clear ok
      induction value generalizing text with
      | nil => exact fun _ => List.not_mem_nil
      | cons c value ih =>
          rw [List.mapM_cons] at all
          obtain ⟨d, own, all⟩ := Option.bind_eq_some_iff.mp all
          obtain ⟨rest, others, -⟩ := Option.bind_eq_some_iff.mp all
          intro index m
          rcases List.mem_cons.mp m with rfl | m
          · cases own
          · exact ih rest others index m
  · cases ok

/-! ## Quoted values -/

/-- The characters of quoted texts. -/
def quotedChar (c : Char) : Bool := c.isAlphanum || c ∈ ['_', '.', '-', '~', '%']

theorem quotedChar_of_percent {byte : UInt8} {c : Char} (m : c ∈ percent byte) : quotedChar c = true := by
  have digit (n : Nat) : quotedChar (hexDigit n) = true := by
    rcases Nat.lt_or_ge n 16 with small | large
    · interval_cases n <;> rfl
    · rw [hexDigit, List.getD_eq_getElem?_getD, List.getElem?_eq_none large]
      rfl
  rcases List.mem_cons.mp m with rfl | m
  · rfl
  · rcases List.mem_pair.mp m with rfl | rfl <;> exact digit _

theorem quotedChar_of_mem {value : List Char} {c : Char} (m : c ∈ percentEncoded value) : quotedChar c = true := by
  obtain ⟨d, -, m⟩ := List.mem_flatMap.mp m
  unfold quoteChar at m
  split at m
  · next safe =>
      rw [List.mem_singleton.mp m, quotedChar]
      rcases (Bool.or_eq_true _ _).mp safe with letter | mark
      · rw [letter, Bool.true_or]
      · have wider : d ∈ ['_', '.', '-', '~', '%'] := List.mem_append_left ['%'] (of_decide_eq_true mark)
        rw [decide_eq_true wider, Bool.or_true]
  · obtain ⟨byte, -, m⟩ := List.mem_flatMap.mp m
    exact quotedChar_of_percent m

theorem notMem_percentEncoded {c : Char} (other : quotedChar c = false) (value : List Char) : c ∉ percentEncoded value := by
  intro m
  rw [quotedChar_of_mem m] at other
  cases other

theorem notQuoted_of_mark {c : Char} (marked : c ∈ urlMarks) : ¬ quotedChar c = true := by
  have other : urlMarks.all (fun mark => !quotedChar mark) = true := rfl
  rw [Bool.not_eq_true, ← Bool.not_eq_true']
  exact List.all_eq_true.mp other c marked

theorem percentEncoded_unmarked (value : List Char) : Unmarked (percentEncoded value) := fun _ m marked =>
  notQuoted_of_mark marked (quotedChar_of_mem m)

theorem quoteChar_cases (c : Char) : quoteChar c = [c] ∨ ∃ rest, quoteChar c = '%' :: rest := by
  unfold quoteChar
  split
  · exact .inl rfl
  · obtain ⟨byte, bytes, eq⟩ := List.exists_cons_of_ne_nil (String.utf8EncodeChar_ne_nil (c := c))
    rw [eq, List.flatMap_cons]
    exact .inr ⟨_, rfl⟩

theorem percentEncoded_ne_nil {value : List Char} (some' : value ≠ []) : percentEncoded value ≠ [] := by
  obtain ⟨c, cs, rfl⟩ := List.exists_cons_of_ne_nil some'
  rw [percentEncoded, List.flatMap_cons]
  rcases quoteChar_cases c with eq | ⟨rest, eq⟩
  all_goals
    rw [eq]
    exact List.cons_ne_nil _ _

/-- A text of dots is the quoted form of itself only. -/
theorem percentEncoded_dots {value : List Char} (dots : ∀ c ∈ percentEncoded value, c = '.') : percentEncoded value = value := by
  induction value with
  | nil => rfl
  | cons c cs ih =>
      rw [percentEncoded, List.flatMap_cons] at dots ⊢
      have rest := ih fun d m => dots d (List.mem_append_right _ m)
      rw [percentEncoded] at rest
      rw [rest]
      rcases quoteChar_cases c with eq | ⟨tail, eq⟩
      · rw [eq]
        rfl
      · rw [eq] at dots
        exact absurd (dots '%' List.mem_cons_self) (by decide)

/-- An accepted value gives a plain segment unless it is empty or a dot. -/
theorem plainPart_percentEncoded {lib : UrlLibrary} {name text : List Char}
    (accepted : lib.safePathParameterValue name (text.map .scalar) = .ok (text.map .scalar)) :
    PlainPart (percentEncoded text) ↔ text ≠ [] ∧ text ≠ ['.'] := by
  have twoDots : ¬ ['.', '.'] <:+: text := by
    intro dots
    unfold UrlLibrary.safePathParameterValue at accepted
    rw [map_shown] at accepted
    obtain ⟨parsed, -, ok⟩ := bind_eq_ok.mp accepted
    rw [if_pos (.inr (.inr (.inr (.inr (.inl dots)))))] at ok
    cases ok
  have dotted (eq : percentEncoded text = ['.'] ∨ percentEncoded text = ['.', '.']) : percentEncoded text = text := by
    refine percentEncoded_dots fun c m => ?_
    rcases eq with eq | eq
    all_goals
      rw [eq] at m
      simpa using m
  constructor
  · intro plain
    constructor
    · rintro rfl
      exact plain.filled rfl
    · rintro rfl
      exact plain.named rfl
  · rintro ⟨filled, named⟩
    refine ⟨percentEncoded_ne_nil filled, fun dot => ?_, fun dots => ?_, notMem_percentEncoded (by decide) text⟩
    · exact named ((dotted (.inl dot)).symm.trans dot)
    · exact twoDots ⟨[], [], ((dotted (.inr dots)).symm.trans dots).symm⟩

/-! ## Filling the placeholders -/

theorem whole_placeholder {name : List Char} (whole : '/' ∉ placeholder name) (new : List Char)
    (parts : List (List Char)) :
    replaceAll (placeholder name) new (slashed parts) = slashed (parts.map (replaceAll (placeholder name) new)) := by
  have some' : placeholder name ≠ [] := List.cons_ne_nil _ _
  have behind (part : List Char) (rest : List (List Char)) :
      replaceAll (placeholder name) new (part ++ slashed rest) =
        replaceAll (placeholder name) new part ++ slashed (rest.map (replaceAll (placeholder name) new)) := by
    induction rest generalizing part with
    | nil =>
        rw [slashed, List.flatMap_nil, List.append_nil]
        exact (List.append_nil _).symm
    | cons next rest ih =>
        rw [slashed, List.flatMap_cons, List.cons_append, replaceAll_append some' whole, List.map_cons, slashed,
          List.flatMap_cons, List.cons_append]
        exact congrArg _ (congrArg _ (ih next))
  cases parts with
  | nil => rfl
  | cons part rest => exact behind [] (part :: rest)

namespace Tool

theorem whole_parameter (tool : Tool) (name : List Char) (m : name ∈ tool.pathParameters) : '/' ∉ placeholder name :=
  tool.whole _ ((tool.listed name).mpr m)

/-- Every placeholder filled, one after another. -/
def fillAll (texts : List Char → List Char) (names : List (List Char)) (path : List Char) : List Char :=
  names.foldl (fun path name => replaceAll (placeholder name) (percentEncoded (texts name)) path) path

theorem fillAll_slashed {texts : List Char → List Char} {names : List (List Char)}
    (whole : ∀ name ∈ names, '/' ∉ placeholder name) (parts : List (List Char)) :
    fillAll texts names (slashed parts) = slashed (parts.map (fillAll texts names)) := by
  induction names generalizing parts with
  | nil => exact congrArg slashed (List.map_id parts).symm
  | cons name names ih =>
      have step (path : List Char) : fillAll texts (name :: names) path =
          fillAll texts names (replaceAll (placeholder name) (percentEncoded (texts name)) path) := rfl
      rw [step, whole_placeholder (whole name List.mem_cons_self), ih fun n m => whole n (List.mem_cons_of_mem _ m),
        List.map_map]
      rfl

theorem mem_fillAll {texts : List Char → List Char} {names : List (List Char)} {text : List Char} {c : Char}
    (m : c ∈ fillAll texts names text) : c ∈ text ∨ quotedChar c = true := by
  induction names generalizing text with
  | nil => exact .inl m
  | cons name names ih =>
      rcases ih m with filled | quoted
      · exact (mem_replaceAll filled).imp_right quotedChar_of_mem
      · exact .inr quoted

theorem fillAll_ne_nil {texts : List Char → List Char} {names : List (List Char)} {text : List Char}
    (values : ∀ name ∈ names, texts name ≠ []) (some' : text ≠ []) : fillAll texts names text ≠ [] := by
  induction names generalizing text with
  | nil => exact some'
  | cons name names ih =>
      have filled : replaceAll (placeholder name) (percentEncoded (texts name)) text ≠ [] :=
        replaceAll_ne_nil some' (percentEncoded_ne_nil (values name List.mem_cons_self))
      exact ih (fun n m => values n (List.mem_cons_of_mem _ m)) filled

theorem fillAll_absent {texts : List Char → List Char} {names : List (List Char)} {text : List Char}
    (absent : ∀ name ∈ names, ¬ placeholder name <:+: text) : fillAll texts names text = text := by
  induction names with
  | nil => rfl
  | cons name names ih =>
      have rest := ih fun n m => absent n (List.mem_cons_of_mem _ m)
      rw [fillAll, List.foldl_cons, replaceAll_absent (absent name List.mem_cons_self)]
      exact rest

theorem notMem_encoded_of_placeholder (value name : List Char) : ¬ placeholder name <:+: percentEncoded value := fun occurs =>
  notMem_percentEncoded (by decide) value (occurs.subset List.mem_cons_self)

/-- A text that filling leaves has no placeholder: each one filled takes a brace. -/
theorem absent_of_fillAll {texts : List Char → List Char} {names : List (List Char)} {text : List Char}
    (same : fillAll texts names text = text) : ∀ name ∈ names, ¬ placeholder name <:+: text := by
  have brace (value : List Char) : '\x7b' ∉ percentEncoded value := notMem_percentEncoded (by decide) value
  have fewer (names : List (List Char)) (text : List Char) :
      (fillAll texts names text).count '\x7b' ≤ text.count '\x7b' := by
    induction names generalizing text with
    | nil => exact Nat.le_refl _
    | cons name names ih => exact (ih _).trans (count_replaceAll List.mem_cons_self (brace _) text).1
  induction names with
  | nil => nofun
  | cons name names ih =>
      have later := fewer names (replaceAll (placeholder name) (percentEncoded (texts name)) text)
      have whole : fillAll texts names (replaceAll (placeholder name) (percentEncoded (texts name)) text) = text := same
      rw [whole] at later
      have absent : ¬ placeholder name <:+: text := absent_of_count List.mem_cons_self (brace _) later
      rw [replaceAll_absent absent] at whole
      intro n m
      rcases List.mem_cons.mp m with rfl | m
      · exact absent
      · exact ih whole n m

theorem placeholder_apart {name other : List Char} (plain : '\x7b' ∉ other ∧ '\x7d' ∉ other) (distinct : name ≠ other) :
    ¬ placeholder name <:+: placeholder other := by
  rintro ⟨front, rest, eq⟩
  cases front with
  | cons c front =>
      have tail := (List.cons.inj eq).2
      have m : '\x7b' ∈ other ++ ['\x7d'] :=
        tail ▸ List.mem_append_left _ (List.mem_append_right _ List.mem_cons_self)
      rcases List.mem_append.mp m with inside | last
      · exact plain.1 inside
      · exact absurd (List.mem_singleton.mp last) (by decide)
  | nil =>
      have tail : name ++ ['\x7d'] ++ rest = other ++ ['\x7d'] := (List.cons.inj eq).2
      rw [List.append_assoc] at tail
      have same := (List.append_cons_inj_of_notMem plain.2 List.not_mem_nil).mp tail.symm
      exact distinct same.1.symm

/-- Filling a segment of the template gives the value of its parameter. -/
theorem fillAll_segment (tool : Tool) (texts : List Char → List Char) {segment : Segment}
    (m : segment ∈ tool.template) : fillAll texts tool.pathParameters segment.text = segment.filled texts := by
  cases segment with
  | literal text => exact fillAll_absent (tool.apart text m)
  | parameter name =>
      have filled {names : List (List Char)} (listed : name ∈ names) (plain : '\x7b' ∉ name ∧ '\x7d' ∉ name) :
          fillAll texts names (placeholder name) = percentEncoded (texts name) := by
        induction names with
        | nil => exact absurd listed List.not_mem_nil
        | cons first names ih =>
            rw [fillAll, List.foldl_cons]
            by_cases same : first = name
            · subst same
              have once : replaceAll (placeholder first) (percentEncoded (texts first)) (placeholder first) =
                  percentEncoded (texts first) := by
                have step := replaceAll_occurrence (List.cons_ne_nil _ _ : placeholder first ≠ [])
                  (percentEncoded (texts first)) []
                rwa [List.append_nil, replaceAll_nil, List.append_nil] at step
              rw [once]
              exact fillAll_absent fun n _ => notMem_encoded_of_placeholder _ n
            · rw [replaceAll_absent (placeholder_apart plain same)]
              exact ih ((List.mem_cons.mp listed).resolve_left fun eq => same eq.symm)
      have listed := (tool.listed name).mp m
      exact filled listed (tool.plain name listed)

/-- The texts of the arguments. -/
def texts (arguments : List Char → List CodePoint) (name : List Char) : List Char := scalars (arguments name)

/-- Where filling succeeds, the first placeholder is found and its value has an encoding. -/
theorem fillPath_cons {lib : UrlLibrary} {arguments : List Char → List CodePoint} {name : List Char}
    {names : List (List Char)} {path filled : List Char}
    (accepted : lib.safePathParameterValue name (arguments name) = .ok (arguments name))
    (ok : fillPath lib arguments (name :: names) path = .ok filled) :
    placeholder name <:+: path ∧ Encodable (arguments name) ∧
      fillPath lib arguments names (replaceAll (placeholder name) (percentEncoded (texts arguments name)) path) =
        .ok filled := by
  unfold fillPath at ok
  split at ok
  · cases ok
  · next occurs =>
      rw [accepted] at ok
      obtain ⟨value, same, ok⟩ := bind_eq_ok.mp ok
      cases same
      obtain ⟨quoted, quotes, ok⟩ := bind_eq_ok.mp ok
      have encodable := encodable_of_quote quotes
      rw [← encodable.map_scalars, quote_map] at quotes
      cases quotes
      exact ⟨not_not.mp occurs, encodable, ok⟩

theorem fillPath_eq {lib : UrlLibrary} {arguments : List Char → List CodePoint} {names : List (List Char)}
    {path filled : List Char}
    (accepted : ∀ name ∈ names, lib.safePathParameterValue name (arguments name) = .ok (arguments name))
    (ok : fillPath lib arguments names path = .ok filled) :
    filled = fillAll (texts arguments) names path ∧ ∀ name ∈ names, Encodable (arguments name) := by
  induction names generalizing path with
  | nil => exact ⟨(Except.ok.inj ok).symm, nofun⟩
  | cons name names ih =>
      obtain ⟨-, encodable, rest⟩ := fillPath_cons (accepted name List.mem_cons_self) ok
      obtain ⟨same, others⟩ := ih (fun n m => accepted n (List.mem_cons_of_mem _ m)) rest
      exact ⟨same, List.forall_mem_cons.mpr ⟨encodable, others⟩⟩

/-- Placeholders are found in a path without marks, so they have none. -/
theorem fillPath_unmarked {lib : UrlLibrary} {arguments : List Char → List CodePoint} {names : List (List Char)}
    {path filled : List Char}
    (accepted : ∀ name ∈ names, lib.safePathParameterValue name (arguments name) = .ok (arguments name))
    (ok : fillPath lib arguments names path = .ok filled) (unmarked : Unmarked path) :
    ∀ name ∈ names, Unmarked (placeholder name) := by
  induction names generalizing path with
  | nil => nofun
  | cons name names ih =>
      obtain ⟨occurs, -, rest⟩ := fillPath_cons (accepted name List.mem_cons_self) ok
      have next : Unmarked (replaceAll (placeholder name) (percentEncoded (texts arguments name)) path) := fun c m =>
        (mem_replaceAll m).elim (unmarked c) (percentEncoded_unmarked _ c)
      intro n m
      rcases List.mem_cons.mp m with rfl | m
      · exact fun c inside => unmarked c (occurs.subset inside)
      · exact ih (fun n m => accepted n (List.mem_cons_of_mem _ m)) rest next n m

/-- Filling succeeds on a path that has every placeholder as a component. -/
theorem fillPath_ok {lib : UrlLibrary} {arguments : List Char → List CodePoint} {names : List (List Char)}
    (accepted : ∀ name ∈ names, lib.safePathParameterValue name (arguments name) = .ok (arguments name))
    (encodable : ∀ name ∈ names, Encodable (arguments name))
    (distinct : names.Nodup) (plain : ∀ name ∈ names, '\x7b' ∉ name ∧ '\x7d' ∉ name)
    (whole : ∀ name ∈ names, '/' ∉ placeholder name) {parts : List (List Char)}
    (present : ∀ name ∈ names, placeholder name ∈ parts) :
    fillPath lib arguments names (slashed parts) = .ok (fillAll (texts arguments) names (slashed parts)) := by
  induction names generalizing parts with
  | nil => rfl
  | cons name names ih =>
      obtain ⟨fresh, distinct⟩ := List.nodup_cons.mp distinct
      have occurs : placeholder name <:+: slashed parts := infix_slashed (present name List.mem_cons_self)
      have rest (n : List Char) (m : n ∈ names) : n ∈ name :: names := List.mem_cons_of_mem _ m
      have quotes : quote (arguments name) = .ok (percentEncoded (texts arguments name)) := by
        rw [← quote_map, texts, (encodable name List.mem_cons_self).map_scalars]
      rw [fillPath, if_neg (not_not.mpr occurs), accepted name List.mem_cons_self]
      dsimp only [bind, Except.bind]
      rw [quotes]
      dsimp only
      rw [fillAll, List.foldl_cons, whole_placeholder (whole name List.mem_cons_self)]
      refine ih (fun n m => accepted n (rest n m)) (fun n m => encodable n (rest n m)) distinct
        (fun n m => plain n (rest n m)) (fun n m => whole n (rest n m)) fun n m => ?_
      have other : name ≠ n := by
        rintro rfl
        exact fresh m
      exact List.mem_map.mpr ⟨placeholder n, present n (rest n m),
        replaceAll_absent (placeholder_apart (plain n (rest n m)) other) _⟩

end Tool

/-! ## Targets -/

def pathSegments (path : List Char) : List (List Char) := (components path).filter (· ≠ [])

/-- The segments of the prefix, then those of the template with its values. -/
def Tool.segments (tool : Tool) (ahead : List Char) (arguments : List Char → List CodePoint) : List (List Char) :=
  pathSegments ahead ++ tool.template.map (Segment.filled (texts arguments))

/-- The target is the path of these segments, and it is read as these segments. -/
structure Reaches (target : List Char) (segments : List (List Char)) : Prop where
  path : target = rooted segments
  read : pathSegments target = segments

/-- What a call meets so that its target has the segments of prefix and template. -/
structure Tool.Fillable (tool : Tool) (ahead : List Char) (arguments : List Char → List CodePoint) : Prop where
  values : ∀ name ∈ tool.pathParameters, arguments name ≠ [] ∧ arguments name ≠ [.scalar '.']
  encodable : ∀ name ∈ tool.pathParameters, Encodable (arguments name)
  literals : ∀ text, Segment.literal text ∈ tool.template → PlainPart text
  marks : Unmarked ahead ∧ Unmarked tool.path
  apart : ∀ name ∈ tool.pathParameters, ¬ placeholder name <:+: ahead

theorem pathSegments_slashed {parts : List (List Char)} (plain : ∀ part ∈ parts, PlainPart part) :
    pathSegments (slashed parts) = parts := by
  have kept := components_rooted plain
  unfold rooted at kept
  split at kept
  · next none => rw [none]; rfl
  · exact kept

theorem unmarked_slashed {parts : List (List Char)} : Unmarked (slashed parts) ↔ ∀ part ∈ parts, Unmarked part := by
  constructor
  · exact fun unmarked part m c n => unmarked c (List.mem_flatMap.mpr ⟨part, m, List.mem_cons_of_mem _ n⟩)
  · intro unmarked c m
    obtain ⟨part, n, m⟩ := List.mem_flatMap.mp m
    rcases List.mem_cons.mp m with rfl | m
    · decide
    · exact unmarked part n c m

theorem unmarked_rooted {parts : List (List Char)} : Unmarked (rooted parts) ↔ ∀ part ∈ parts, Unmarked part := by
  unfold rooted
  split
  · next none =>
      rw [none]
      refine ⟨fun _ => nofun, fun _ c m => ?_⟩
      rw [List.mem_singleton.mp m]
      decide
  · exact unmarked_slashed

theorem plainPart_placeholder {name : List Char} (whole : '/' ∉ placeholder name) : PlainPart (placeholder name) :=
  ⟨List.cons_ne_nil _ _, fun dot => absurd (List.cons.inj dot).1 (by decide),
    fun dots => absurd (List.cons.inj dots).1 (by decide), whole⟩

theorem safeRequestPath_rooted {lib : UrlLibrary} {apiPrefix : List Char} {front back : List (List Char)}
    (accepted : lib.safeApiPrefix apiPrefix = .ok (slashed front))
    (parts : ∀ part ∈ front ++ back, part ≠ [] ∧ '/' ∉ part ∧ Unmarked part) :
    lib.safeRequestPath apiPrefix (rooted back) = .ok (rooted ((front ++ back).foldl (normStep true) [])) := by
  have combined : slashed front ++ rooted back = slashed (front ++ rootComponents back) := by
    rw [rooted_eq_slashed, slashed, slashed, slashed, List.flatMap_append]
  -- The root adds one empty component, any other path none.
  have each (part : List Char) (m : part ∈ front ++ rootComponents back) : part = [] ∨ part ∈ front ++ back := by
    unfold rootComponents at m
    split at m
    · exact (List.mem_append.mp m).elim (fun n => .inr (List.mem_append_left _ n)) fun n => .inl (List.mem_singleton.mp n)
    · exact .inr m
  have opened (rest : List (List Char)) (eq : front ++ rootComponents back = [] :: rest) : rest = [] := by
    cases front with
    | cons part front => exact absurd (List.cons.inj eq).1 (parts part List.mem_cons_self).1
    | nil =>
        rw [List.nil_append] at eq
        unfold rootComponents at eq
        split at eq
        · exact (List.cons.inj eq).2.symm
        · exact absurd rfl (parts [] (eq ▸ List.mem_cons_self)).1
  have whole (part : List Char) (m : part ∈ front ++ rootComponents back) : '/' ∉ part := by
    rcases each part m with rfl | n
    · exact List.not_mem_nil
    · exact (parts part n).2.1
  have unmarked (part : List Char) (m : part ∈ front ++ rootComponents back) : Unmarked part := by
    rcases each part m with rfl | n
    · exact fun _ c => absurd c List.not_mem_nil
    · exact (parts part n).2.2
  rw [UrlLibrary.safeRequestPath_slashed accepted (rooted_absolute back) combined whole opened unmarked,
    List.foldl_append, List.foldl_append, foldl_rootComponents]

/-- Without a prefix. -/
theorem safeRequestPath_bare (lib : UrlLibrary) {parts : List (List Char)}
    (kept : ∀ part ∈ parts, part ≠ [] ∧ '/' ∉ part ∧ Unmarked part) :
    lib.safeRequestPath [] (rooted parts) = .ok (rooted (parts.foldl (normStep true) [])) :=
  safeRequestPath_rooted lib.safeApiPrefix_nil kept

theorem Tool.fillAll_rooted {texts : List Char → List Char} {names : List (List Char)}
    (whole : ∀ name ∈ names, '/' ∉ placeholder name) (parts : List (List Char)) :
    fillAll texts names (rooted parts) = rooted (parts.map (fillAll texts names)) := by
  have empty : fillAll texts names [] = [] :=
    fillAll_absent fun name _ occurs => absurd (List.infix_nil.mp occurs) (List.cons_ne_nil _ _)
  rw [rooted_eq_slashed, rooted_eq_slashed, fillAll_slashed whole]
  congr 1
  cases parts with
  | nil => exact congrArg (· :: []) empty
  | cons part parts => rfl

variable {lib : UrlLibrary} {tool : Tool} {apiPrefix effective ahead : List Char}
  {arguments : List Char → List CodePoint}

/-- Before it is filled, the path of a call has the segments of prefix and template. -/
theorem safeRequestPath_template {front : List (List Char)}
    (accepted : lib.safeApiPrefix effective = .ok (slashed front)) (plain : ∀ part ∈ front, PlainPart part)
    (literals : ∀ text, Segment.literal text ∈ tool.template → PlainPart text)
    (marks : Unmarked (slashed front) ∧ Unmarked tool.path) :
    lib.safeRequestPath effective tool.path = .ok (rooted (front ++ tool.template.map Segment.text)) := by
  have texts (part : List Char) (m : part ∈ front ++ tool.template.map Segment.text) : PlainPart part ∧ Unmarked part := by
    rcases List.mem_append.mp m with m | m
    · exact ⟨plain part m, unmarked_slashed.mp marks.1 part m⟩
    · refine ⟨?_, unmarked_rooted.mp marks.2 part m⟩
      obtain ⟨segment, n, rfl⟩ := List.mem_map.mp m
      cases segment with
      | literal text => exact literals text n
      | parameter name => exact plainPart_placeholder (tool.whole _ n)
  rw [Tool.path, safeRequestPath_rooted accepted fun part m =>
    ⟨(texts part m).1.filled, (texts part m).1.whole, (texts part m).2⟩,
    foldl_normStep_kept [] fun part m => (texts part m).1, List.nil_append]

theorem requestTarget_ok (selected : tool.effectivePrefix lib apiPrefix = .ok effective) {target : List Char} :
    tool.requestTarget lib apiPrefix arguments = .ok target ↔ ∃ resolved filled,
      lib.safeRequestPath effective tool.path = .ok resolved ∧
      Tool.fillPath lib arguments tool.pathParameters resolved = .ok filled ∧
      lib.safeRequestPath [] filled = .ok target := by
  rw [Tool.requestTarget, selected]
  dsimp only [bind, Except.bind]
  constructor
  · intro ok
    obtain ⟨resolved, first, ok⟩ := bind_eq_ok.mp ok
    obtain ⟨filled, second, third⟩ := bind_eq_ok.mp ok
    exact ⟨resolved, filled, first, second, third⟩
  · rintro ⟨resolved, filled, first, second, third⟩
    exact bind_eq_ok.mpr ⟨resolved, first, bind_eq_ok.mpr ⟨filled, second, third⟩⟩

/-- Filling the path before it is filled, part by part. -/
theorem Tool.fillAll_template (tool : Tool) (texts : List Char → List Char) (front : List (List Char)) :
    fillAll texts tool.pathParameters (rooted (front ++ tool.template.map Segment.text)) =
      rooted (front.map (fillAll texts tool.pathParameters) ++ tool.template.map (Segment.filled texts)) := by
  rw [fillAll_rooted tool.whole_parameter, List.map_append, List.map_map]
  congr 2
  exact List.map_congr_left fun segment m => tool.fillAll_segment texts m

theorem Tool.texts_ne_nil {name : List Char} (encodable : Encodable (arguments name)) (filled : arguments name ≠ []) :
    texts arguments name ≠ [] := by
  intro none
  have same := encodable.map_scalars
  rw [show scalars (arguments name) = [] from none] at same
  exact filled same.symm

theorem Tool.plainPart_argument {name : List Char} (encodable : Encodable (arguments name))
    (accepted : lib.safePathParameterValue name (arguments name) = .ok (arguments name)) :
    PlainPart (percentEncoded (texts arguments name)) ↔ arguments name ≠ [] ∧ arguments name ≠ [.scalar '.'] := by
  have same : arguments name = (texts arguments name).map .scalar := encodable.map_scalars.symm
  have injective : Function.Injective CodePoint.scalar := fun _ _ => CodePoint.scalar.inj
  rw [same] at accepted
  rw [plainPart_percentEncoded accepted, same]
  exact and_congr (List.map_eq_nil_iff.not.symm) (not_congr (List.map_injective_iff.mpr injective).eq_iff.symm)

section
variable {front : List (List Char)} (selected : tool.effectivePrefix lib apiPrefix = .ok effective)
  (accepted : lib.safeApiPrefix effective = .ok (slashed front)) (plain : ∀ part ∈ front, PlainPart part)
  (values : ∀ name ∈ tool.pathParameters, lib.safePathParameterValue name (arguments name) = .ok (arguments name))
include selected accepted plain values

theorem Tool.Fillable.reaches (fillable : tool.Fillable (slashed front) arguments) :
    ∃ target, tool.requestTarget lib apiPrefix arguments = .ok target ∧
      Reaches target (tool.segments (slashed front) arguments) := by
  obtain ⟨filled, encodable, literals, marks, apart⟩ := fillable
  have still : front.map (fillAll (texts arguments) tool.pathParameters) = front := by
    refine (List.map_congr_left fun part m => fillAll_absent fun name n occurs => ?_).trans (List.map_id front)
    exact apart name n (occurs.trans (infix_slashed m))
  have targets (part : List Char) (m : part ∈ front ++ tool.template.map (Segment.filled (texts arguments))) :
      PlainPart part ∧ Unmarked part := by
    rcases List.mem_append.mp m with m | m
    · exact ⟨plain part m, unmarked_slashed.mp marks.1 part m⟩
    · obtain ⟨segment, n, rfl⟩ := List.mem_map.mp m
      cases segment with
      | literal text => exact ⟨literals text n, unmarked_rooted.mp marks.2 text (List.mem_map_of_mem n)⟩
      | parameter name =>
          have listed := (tool.listed name).mp n
          exact ⟨(plainPart_argument (encodable name listed) (values name listed)).mpr (filled name listed),
            percentEncoded_unmarked _⟩
  have second : fillPath lib arguments tool.pathParameters (rooted (front ++ tool.template.map Segment.text)) =
      .ok (rooted (front ++ tool.template.map (Segment.filled (texts arguments)))) := by
    have template := tool.fillAll_template (texts arguments) front
    rw [still] at template
    rw [← template, rooted_eq_slashed]
    refine fillPath_ok values encodable tool.distinct tool.plain tool.whole_parameter fun name m => ?_
    have present : placeholder name ∈ front ++ tool.template.map Segment.text :=
      List.mem_append_right _ (List.mem_map.mpr ⟨.parameter name, (tool.listed name).mpr m, rfl⟩)
    rwa [rootComponents, if_neg (List.ne_nil_of_mem present)]
  have third : lib.safeRequestPath [] (rooted (front ++ tool.template.map (Segment.filled (texts arguments)))) =
      .ok (rooted (front ++ tool.template.map (Segment.filled (texts arguments)))) := by
    rw [safeRequestPath_bare lib fun part m =>
      ⟨(targets part m).1.filled, (targets part m).1.whole, (targets part m).2⟩,
      foldl_normStep_kept [] fun part m => (targets part m).1, List.nil_append]
  refine ⟨_, (requestTarget_ok selected).mpr ⟨_, _, safeRequestPath_template accepted plain literals marks, second, third⟩, ?_⟩
  rw [segments, pathSegments_slashed plain]
  exact ⟨rfl, components_rooted fun part m => (targets part m).1⟩

theorem Tool.Fillable.of_reaches {target : List Char} (ok : tool.requestTarget lib apiPrefix arguments = .ok target)
    (reaches : Reaches target (tool.segments (slashed front) arguments)) : tool.Fillable (slashed front) arguments := by
  obtain ⟨resolved, filled, first, second, third⟩ := (requestTarget_ok selected).mp ok
  obtain ⟨normal, rfl, kept⟩ := UrlLibrary.safeRequestPath_ok third
  have same : normal = front ++ tool.template.map (Segment.filled (texts arguments)) := by
    have read := reaches.read
    rwa [segments, pathSegments_slashed plain, pathSegments, components_rooted fun part m => (kept part m).1] at read
  subst same
  have each (segment : Segment) (m : segment ∈ tool.template) :
      PlainPart (segment.filled (texts arguments)) ∧ Unmarked (segment.filled (texts arguments)) :=
    kept _ (List.mem_append_right _ (List.mem_map_of_mem m))
  have literals (text : List Char) (m : .literal text ∈ tool.template) : PlainPart text := (each (.literal text) m).1
  have marks : Unmarked (slashed front) ∧ Unmarked tool.path := by
    refine ⟨unmarked_slashed.mpr fun part m => (kept part (List.mem_append_left _ m)).2, unmarked_rooted.mpr ?_⟩
    obtain ⟨parts, rfl, bare⟩ := UrlLibrary.safeRequestPath_ok first
    have names := fillPath_unmarked values second (unmarked_rooted.mpr fun part m => (bare part m).2)
    intro part m
    obtain ⟨segment, n, rfl⟩ := List.mem_map.mp m
    cases segment with
    | literal text => exact (each (.literal text) n).2
    | parameter name => exact names name ((tool.listed name).mp n)
  obtain ⟨rfl, encodable⟩ := fillPath_eq values second
  have filledValues (name : List Char) (m : name ∈ tool.pathParameters) :
      arguments name ≠ [] ∧ arguments name ≠ [.scalar '.'] :=
    (plainPart_argument (encodable name m) (values name m)).mp (each (.parameter name) ((tool.listed name).mpr m)).1
  rw [safeRequestPath_template accepted plain literals marks] at first
  cases first
  have parts (part : List Char) (m : part ∈ front.map (fillAll (texts arguments) tool.pathParameters) ++
      tool.template.map (Segment.filled (texts arguments))) : part ≠ [] ∧ '/' ∉ part ∧ Unmarked part := by
    rcases List.mem_append.mp m with m | m
    · obtain ⟨part, n, rfl⟩ := List.mem_map.mp m
      refine ⟨fillAll_ne_nil (fun name m => texts_ne_nil (encodable name m) (filledValues name m).1) (plain part n).filled, fun slash => ?_,
        fun c inside marked => ?_⟩
      · exact (mem_fillAll slash).elim (plain part n).whole nofun
      · exact (mem_fillAll inside).elim (fun own => unmarked_slashed.mp marks.1 part n c own marked)
          (notQuoted_of_mark marked)
    · obtain ⟨plain, bare⟩ := kept part (List.mem_append_right _ m)
      exact ⟨plain.filled, plain.whole, bare⟩
  rw [fillAll_template, safeRequestPath_bare lib parts] at third
  -- Normalising keeps as many components as there are, so it keeps them all.
  have normal := components_rooted fun part m => (kept part m).1
  rw [← Except.ok.inj third, components_rooted (normal_plain fun part m => (parts part m).2.1)] at normal
  have shorter := foldl_normStep_sublist true [] (front.map (fillAll (texts arguments) tool.pathParameters) ++
    tool.template.map (Segment.filled (texts arguments)))
  rw [normal, List.nil_append] at shorter
  have same := shorter.eq_of_length (by simp only [List.length_append, List.length_map])
  have still : fillAll (texts arguments) tool.pathParameters (slashed front) = slashed front := by
    rw [fillAll_slashed tool.whole_parameter, ← List.append_cancel_right same]
  exact ⟨filledValues, encodable, literals, marks, absent_of_fillAll still⟩
end

/-- Where the prefix and the values are accepted, the target of a call has the segments of
prefix and template exactly where the call is fillable. -/
theorem requestTarget_reaches_iff (lib : UrlLibrary) (tool : Tool) (apiPrefix effective ahead : List Char)
    (arguments : List Char → List CodePoint) (selected : tool.effectivePrefix lib apiPrefix = .ok effective)
    (accepted : lib.safeApiPrefix effective = .ok ahead)
    (values : ∀ name ∈ tool.pathParameters, lib.safePathParameterValue name (arguments name) = .ok (arguments name)) :
    (∃ target, tool.requestTarget lib apiPrefix arguments = .ok target ∧ Reaches target (tool.segments ahead arguments)) ↔
      tool.Fillable ahead arguments := by
  obtain ⟨front, rfl, plain⟩ := UrlLibrary.safeApiPrefix_ok accepted
  constructor
  · rintro ⟨target, ok, reaches⟩
    exact Tool.Fillable.of_reaches selected accepted plain values ok reaches
  · exact Tool.Fillable.reaches selected accepted plain values

/-! The route of one object: a filled identifier keeps it, a dot leads to the list of all. -/

def asciiUrls : UrlLibrary := ⟨Text.ascii, fun _ => true⟩

def objectTool : Tool where
  template := [.literal ['v', '1'], .literal ['o'], .parameter ['i', 'd']]
  pathParameters := [['i', 'd']]
  serverUrlOverride := none
  whole := by decide
  listed name := by simp
  distinct := List.nodup_singleton _
  plain := by decide
  apart text m name n := by
    cases List.mem_singleton.mp n
    rcases List.mem_cons.mp m with eq | m
    · cases eq
      decide
    · rcases List.mem_cons.mp m with eq | m
      · cases eq
        decide
      · cases List.mem_singleton.mp m

theorem requestTarget_reaches_iff_object :
    (∃ target, objectTool.requestTarget asciiUrls [] (fun _ => [.scalar 'x']) = .ok target ∧
      Reaches target (objectTool.segments [] fun _ => [.scalar 'x'])) ↔
        objectTool.Fillable [] fun _ => [.scalar 'x'] :=
  requestTarget_reaches_iff asciiUrls objectTool [] [] [] (fun _ => [.scalar 'x']) rfl rfl (by decide)

theorem dot_reaches_list : (∀ name ∈ objectTool.pathParameters,
      asciiUrls.safePathParameterValue name [.scalar '.'] = .ok [.scalar '.']) ∧
    objectTool.requestTarget asciiUrls [] (fun _ => [.scalar '.']) = .ok ['/', 'v', '1', '/', 'o'] ∧
    ¬ ∃ target, objectTool.requestTarget asciiUrls [] (fun _ => [.scalar '.']) = .ok target ∧
      Reaches target (objectTool.segments [] fun _ => [.scalar '.']) := by
  have target : objectTool.requestTarget asciiUrls [] (fun _ => [.scalar '.']) = .ok ['/', 'v', '1', '/', 'o'] := by
    decide
  refine ⟨by decide, target, ?_⟩
  rintro ⟨other, ok, reaches⟩
  rw [target] at ok
  cases ok
  exact absurd reaches.path (by decide)

/-- An accepted value that ends the call without a target. -/
theorem surrogate_raises : (∀ name ∈ objectTool.pathParameters,
      asciiUrls.safePathParameterValue name [.surrogate 0] = .ok [.surrogate 0]) ∧
    objectTool.requestTarget asciiUrls [] (fun _ => [.surrogate 0]) = .error .unicodeEncodeError :=
  ⟨by decide, by decide⟩

end I3x.Mcp
