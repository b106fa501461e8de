import Mathlib.Data.List.TakeWhile
import I3xServer.Container.Attempt
import I3xServer.Container.PathNames
import I3xServer.Domain.Text
import I3xServer.Mcp.ModelIndex

/-!
# Request paths

A request path is the prefix of the API, then a path behind it. Both are split like URLs,
checked and normalised; a value for a path is checked before it is filled in.
-/
namespace I3x.Mcp
open Container

/-! ## Splitting -/

/-- What splitting a URL relies on besides its characters. -/
structure UrlLibrary where
  text : Text
  checkNetloc : List Char → Bool

structure UrlParts where
  scheme : List Char
  netloc : List Char
  path : List Char
  query : List Char
  fragment : List Char
  deriving DecidableEq, Repr

/-- The characters that splitting removes anywhere in a URL. -/
def unsafeUrlBytes : List Char := ['\t', '\r', '\n']

/-- The characters that no path has once it is split off. -/
def urlMarks : List Char := ['?', '#'] ++ unsafeUrlBytes

def schemeChar (c : Char) : Bool := c.isAlphanum || c ∈ ['+', '-', '.']

def splitScheme (url : List Char) : List Char × List Char :=
  let name := url.takeWhile (· ≠ ':')
  if ':' ∈ url ∧ (name.head?.any Char.isAlpha) ∧ name.all schemeChar then
    (name.map Char.toLower, url.drop (name.length + 1))
  else ([], url)

def splitNetloc : List Char → Option (List Char) × List Char
  | '/' :: '/' :: rest => (some (rest.takeWhile (· ∉ ['/', '?', '#'])), rest.dropWhile (· ∉ ['/', '?', '#']))
  | url => (none, url)

/-- The text before a mark, and the text behind it. -/
def cut (mark : Char) (url : List Char) : List Char × List Char :=
  (url.takeWhile (· ≠ mark), (url.dropWhile (· ≠ mark)).drop 1)

namespace UrlLibrary

def urlsplit (lib : UrlLibrary) (url : List Char) : Option UrlParts :=
  let url := (url.dropWhile fun c => c.val ≤ 32).filter (· ∉ unsafeUrlBytes)
  let (scheme, url) := splitScheme url
  let (netloc, url) := splitNetloc url
  if netloc.all fun name => name = [] ∨ lib.checkNetloc name then
    let (url, fragment) := cut '#' url
    let (path, query) := cut '?' url
    some ⟨scheme, netloc.getD [], path, query, fragment⟩
  else none

def strip (lib : UrlLibrary) (value : List Char) : List Char := (lib.text.strip (String.ofList value)).toList

end UrlLibrary

/-! ## The checks -/

/-- A character of a value that JSON brings in, where half of a surrogate pair may stand alone. -/
inductive CodePoint where
  | scalar (c : Char)
  /-- U+D800 and those behind it. -/
  | surrogate (index : Fin 2048)
  deriving DecidableEq, Repr

/-- What the checks see: they have no rule for a surrogate, nor for U+FFFD. -/
def CodePoint.shown : CodePoint → Char
  | .scalar c => c
  | .surrogate _ => '\uFFFD'

def CodePoint.scalar? : CodePoint → Option Char
  | .scalar c => some c
  | .surrogate _ => none

inductive PathFailure where
  | http (error : HttpError)
  | valueError
  | unicodeEncodeError
  deriving DecidableEq, Repr

def internalError (message : String) : PathFailure := .http ⟨500, "Internal Error", message⟩

namespace UrlLibrary

def split (lib : UrlLibrary) (url : List Char) : Except PathFailure UrlParts :=
  match lib.urlsplit url with
  | none => .error .valueError
  | some parts => .ok parts

/-- The trailing slashes dropped. -/
def rstripSlashes (path : List Char) : List Char := (path.reverse.dropWhile (· = '/')).reverse

def safeApiPrefix (lib : UrlLibrary) (apiPrefix : List Char) : Except PathFailure (List Char) := do
  let parsed ← lib.split apiPrefix
  let apiPrefix := if parsed.scheme ≠ [] ∨ parsed.netloc ≠ [] then parsed.path else apiPrefix
  if apiPrefix = [] then .ok []
  else
    let stripped := lib.strip apiPrefix
    if stripped = [] then .ok []
    else
      let absolute := if ['/'] <+: stripped then stripped else '/' :: stripped
      if ['/', '/'] <+: absolute then .error (internalError "Invalid MCP API prefix")
      else
        let normalized := normpath absolute
        if normalized = ['.'] ∨ normalized = ['/'] ∨ normalized = [] then .ok []
        else if ¬ ['/'] <+: normalized ∨ ['/', '/'] <+: normalized then .error (internalError "Invalid MCP API prefix")
        else .ok (rstripSlashes normalized)

def safeRequestPath (lib : UrlLibrary) (apiPrefix toolPath : List Char) : Except PathFailure (List Char) := do
  let ahead ← lib.safeApiPrefix apiPrefix
  if ¬ ['/'] <+: toolPath then .error (internalError "Invalid MCP tool path")
  else
    let parsed ← lib.split (ahead ++ toolPath)
    if parsed.scheme ≠ [] ∨ parsed.netloc ≠ [] ∨ parsed.query ≠ [] ∨ parsed.fragment ≠ [] then
      .error (internalError "Invalid MCP request path")
    else if ¬ ['/'] <+: parsed.path ∨ ['/', '/'] <+: parsed.path then
      .error (internalError "Invalid MCP request path")
    else
      let normalized := normpath parsed.path
      if ¬ ['/'] <+: normalized ∨ ['/', '/'] <+: normalized then
        .error (internalError "Invalid MCP request path")
      else if normalized = ['/', '.', '.'] ∨ ['/', '.', '.', '/'] <+: normalized then
        .error (internalError "Invalid MCP request path")
      else .ok normalized

def safePathParameterValue (lib : UrlLibrary) (parameterName : List Char) (value : List CodePoint) :
    Except PathFailure (List CodePoint) := do
  let shown := value.map CodePoint.shown
  let parsed ← lib.split shown
  if parsed.scheme ≠ [] ∨ parsed.netloc ≠ [] ∨ '/' ∈ shown ∨ '\\' ∈ shown ∨ ['.', '.'] <:+: shown ∨
      '?' ∈ shown ∨ '#' ∈ shown ∨ lib.strip shown ≠ shown then
    .error (.http ⟨400, "Bad Request", "Invalid path parameter: " ++ String.ofList parameterName⟩)
  else .ok value

end UrlLibrary

/-! ## What splitting leaves -/

/-- A text that splitting a URL leaves whole. -/
def Unmarked (text : List Char) : Prop := ∀ c ∈ text, c ∉ urlMarks

theorem splitScheme_absolute (rest : List Char) : splitScheme ('/' :: rest) = ([], '/' :: rest) := by
  rw [splitScheme, if_neg]
  rintro ⟨-, letter, -⟩
  rw [List.takeWhile_cons_of_pos (by decide)] at letter
  cases letter

theorem splitNetloc_absolute {rest : List Char} (single : ¬ ['/', '/'] <+: '/' :: rest) :
    splitNetloc ('/' :: rest) = (none, '/' :: rest) := by
  cases rest with
  | nil => rfl
  | cons c cs =>
      have other : c ≠ '/' := by
        rintro rfl
        exact single ⟨cs, rfl⟩
      unfold splitNetloc
      split
      · next eq => exact absurd (List.cons.inj (List.cons.inj eq).2).1 other
      · rfl

theorem cut_absent {mark : Char} {url : List Char} (absent : mark ∉ url) : cut mark url = (url, []) := by
  have kept : ∀ c ∈ url, decide (c ≠ mark) = true := fun c m => decide_eq_true fun same => absent (same ▸ m)
  rw [cut, List.dropWhile_eq_nil_iff.mpr kept]
  congr 1
  exact List.takeWhile_eq_self_iff.mpr kept

theorem urlsplit_absolute (lib : UrlLibrary) {rest : List Char} (single : ¬ ['/', '/'] <+: '/' :: rest)
    (unmarked : Unmarked ('/' :: rest)) : lib.urlsplit ('/' :: rest) = some ⟨[], [], '/' :: rest, [], []⟩ := by
  have kept : ('/' :: rest).filter (· ∉ unsafeUrlBytes) = '/' :: rest :=
    List.filter_eq_self.mpr fun c m => decide_eq_true fun unsafe' => unmarked c m (List.mem_append_right _ unsafe')
  have absent (mark : Char) (marked : mark ∈ urlMarks) : mark ∉ '/' :: rest := fun m => unmarked mark m marked
  rw [UrlLibrary.urlsplit, List.dropWhile_cons_of_neg (by decide), kept, splitScheme_absolute]
  dsimp only
  rw [splitNetloc_absolute single]
  dsimp only
  rw [if_pos (by rfl), cut_absent (absent '#' (by decide))]
  dsimp only
  rw [cut_absent (absent '?' (by decide))]
  rfl

theorem splitScheme_subset (url : List Char) : (splitScheme url).2 ⊆ url := by
  unfold splitScheme
  dsimp only
  split
  · exact List.drop_subset _ _
  · exact List.Subset.refl _

theorem splitNetloc_subset (url : List Char) : (splitNetloc url).2 ⊆ url := by
  unfold splitNetloc
  split
  · exact fun c m => List.mem_cons_of_mem _ (List.mem_cons_of_mem _ ((List.dropWhile_sublist _).subset m))
  · exact List.Subset.refl _

theorem mem_cut {mark c : Char} {url : List Char} (m : c ∈ (cut mark url).1) : c ∈ url ∧ c ≠ mark := by
  refine ⟨(List.takeWhile_prefix _).subset m, ?_⟩
  rintro rfl
  exact absurd (List.mem_takeWhile_imp m) (by simp)

/-- What is left of a URL as its path has no mark. -/
theorem urlsplit_unmarked {lib : UrlLibrary} {url : List Char} {parts : UrlParts}
    (split : lib.urlsplit url = some parts) : Unmarked parts.path := by
  unfold UrlLibrary.urlsplit at split
  dsimp only at split
  split at split
  · cases split
    intro c m marked
    obtain ⟨first, query⟩ := mem_cut m
    obtain ⟨rest, fragment⟩ := mem_cut first
    have kept := (List.mem_filter.mp (splitScheme_subset _ (splitNetloc_subset _ rest))).2
    rcases List.mem_append.mp marked with mark | removed
    · rcases List.mem_pair.mp mark with rfl | rfl
      · exact query rfl
      · exact fragment rfl
    · exact of_decide_eq_true kept removed
  · cases split

theorem rstripSlashes_slashed {parts : List (List Char)} (plain : ∀ part ∈ parts, PlainPart part) :
    UrlLibrary.rstripSlashes (slashed parts) = slashed parts := by
  rcases List.eq_nil_or_concat' parts with rfl | ⟨front, last, rfl⟩
  · rfl
  · obtain ⟨filled, -, -, whole⟩ := plain last (List.mem_append_right _ (List.mem_singleton_self _))
    obtain ⟨body, c, rfl⟩ := (List.eq_nil_or_concat' last).resolve_left filled
    have kept : ¬ (fun d => decide (d = '/')) c = true := by
      rintro slash
      cases of_decide_eq_true slash
      exact whole (List.mem_append_right _ (List.mem_singleton_self _))
    have ends : slashed (front ++ [body ++ [c]]) = slashed front ++ '/' :: body ++ [c] := by
      simp [slashed]
    rw [ends, UrlLibrary.rstripSlashes, List.reverse_append, List.reverse_singleton, List.singleton_append,
      List.dropWhile_cons, if_neg kept, List.reverse_cons, List.reverse_reverse]

/-! ## What the checks accept -/

namespace UrlLibrary
variable {lib : UrlLibrary}

theorem safeApiPrefix_nil (lib : UrlLibrary) : lib.safeApiPrefix [] = .ok (slashed []) := rfl

theorem split_ok {url : List Char} {parts : UrlParts} (ok : lib.split url = .ok parts) : lib.urlsplit url = some parts := by
  unfold split at ok
  split at ok
  · cases ok
  · next eq =>
      cases ok
      exact eq

theorem safeApiPrefix_ok {apiPrefix ahead : List Char} (ok : lib.safeApiPrefix apiPrefix = .ok ahead) :
    ∃ parts, ahead = slashed parts ∧ ∀ part ∈ parts, PlainPart part := by
  have none (same : (Except.ok [] : Except PathFailure _) = .ok ahead) :
      ∃ parts, ahead = slashed parts ∧ ∀ part ∈ parts, PlainPart part :=
    ⟨[], (Except.ok.inj same).symm, nofun⟩
  obtain ⟨parsed, -, ok⟩ := bind_eq_ok.mp ok
  dsimp only at ok
  generalize (if parsed.scheme ≠ [] ∨ parsed.netloc ≠ [] then parsed.path else apiPrefix) = given at ok
  have absolute : ['/'] <+: if ['/'] <+: lib.strip given then lib.strip given else '/' :: lib.strip given := by
    split
    · assumption
    · exact ⟨_, rfl⟩
  generalize (if ['/'] <+: lib.strip given then lib.strip given else '/' :: lib.strip given) = stripped at ok absolute
  by_cases blank : given = [] ∨ lib.strip given = []
  · rcases blank with blank | blank
    · rw [if_pos blank] at ok
      exact none ok
    · rw [if_pos blank, ite_self] at ok
      exact none ok
  · rw [if_neg fun empty => blank (.inl empty), if_neg fun empty => blank (.inr empty)] at ok
    split at ok
    · cases ok
    · next single =>
        rw [normpath_absolute (leadingSlashes_single absolute single)] at ok
        have plain := normal_plain fun part (m : part ∈ components stripped) => (components_char m).1
        split at ok
        · exact none ok
        · next visible =>
            split at ok
            · cases ok
            · have some' := fun empty => visible (.inr (.inl (if_pos empty)))
              rw [rooted, if_neg some', rstripSlashes_slashed plain] at ok
              exact ⟨_, (Except.ok.inj ok).symm, plain⟩

/-- An accepted request path is normal, and has no mark. -/
theorem safeRequestPath_ok {apiPrefix toolPath target : List Char}
    (ok : lib.safeRequestPath apiPrefix toolPath = .ok target) :
    ∃ parts, target = rooted parts ∧ ∀ part ∈ parts, PlainPart part ∧ Unmarked part := by
  obtain ⟨ahead, -, ok⟩ := bind_eq_ok.mp ok
  split at ok
  · cases ok
  · obtain ⟨parsed, parsedFrom, ok⟩ := bind_eq_ok.mp ok
    have unmarked := urlsplit_unmarked (split_ok parsedFrom)
    split at ok
    · cases ok
    · split at ok
      · cases ok
      · next form =>
          obtain ⟨absolute, single⟩ := not_or.mp form
          rw [normpath_absolute (leadingSlashes_single (not_not.mp absolute) single)] at ok
          dsimp only at ok
          have plain := normal_plain fun part (m : part ∈ components parsed.path) => (components_char m).1
          split at ok
          · cases ok
          · split at ok
            · cases ok
            · refine ⟨_, (Except.ok.inj ok).symm, fun part m => ⟨plain part m, fun c n => ?_⟩⟩
              have source := (foldl_normStep_sublist true [] _).subset m
              exact unmarked c ((components_char source).2 c n)

/-- A request path of unmarked components is normalised only. -/
theorem safeRequestPath_slashed {apiPrefix ahead toolPath : List Char} {parts : List (List Char)}
    (accepted : lib.safeApiPrefix apiPrefix = .ok ahead) (absolute : ['/'] <+: toolPath)
    (combined : ahead ++ toolPath = slashed parts) (whole : ∀ part ∈ parts, '/' ∉ part)
    (opened : ∀ rest, parts = [] :: rest → rest = []) (unmarked : ∀ part ∈ parts, Unmarked part) :
    lib.safeRequestPath apiPrefix toolPath = .ok (rooted (parts.foldl (normStep true) [])) := by
  have single := slashed_single whole opened
  have some' : parts ≠ [] := by
    rintro rfl
    rw [(List.append_eq_nil_iff.mp combined).2] at absolute
    exact absurd absolute (by decide)
  obtain ⟨first, rest, eq⟩ := List.exists_cons_of_ne_nil some'
  have shape : slashed parts = '/' :: (first ++ slashed rest) := by rw [eq]; rfl
  have free : Unmarked (slashed parts) := by
    intro c m
    obtain ⟨part, n, m⟩ := List.mem_flatMap.mp m
    rcases List.mem_cons.mp m with rfl | m
    · decide
    · exact unmarked part n c m
  have plain := normal_plain whole
  have split : lib.split (slashed parts) = .ok ⟨[], [], slashed parts, [], []⟩ := by
    rw [shape] at single free ⊢
    rw [UrlLibrary.split, urlsplit_absolute lib single free]
  have start : ['/'] <+: slashed parts := ⟨_, shape.symm⟩
  have normal : normpath (slashed parts) = rooted (parts.foldl (normStep true) []) := by
    rw [normpath_absolute (leadingSlashes_single start single), components_slashed whole]
    rfl
  rw [safeRequestPath, accepted]
  dsimp only [bind, Except.bind]
  rw [if_neg (not_not.mpr absolute), combined, split]
  dsimp only
  rw [if_neg (by simp), if_neg (not_or.mpr ⟨not_not.mpr start, single⟩), normal,
    if_neg (not_or.mpr ⟨not_not.mpr (rooted_absolute _), rooted_single plain⟩), if_neg (rooted_downward plain)]

end UrlLibrary

end I3x.Mcp
