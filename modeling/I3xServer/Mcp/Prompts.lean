import I3xServer.Mcp.Messages
import Mathlib.Data.List.TakeWhile

/-!
# Prompts

A prompt is a template with placeholders. It is rendered in one pass: what a placeholder
gives way to is not looked at again.
-/
namespace I3x.Mcp
open Container

structure PromptDefinition where
  name : String
  description : String
  inputs : List String
  template : String
  deriving DecidableEq, Repr

abbrev PromptRegistry := Dict String PromptDefinition

/-! ## Templates -/

def nameStart (c : Char) : Bool := ('a' ≤ c && c ≤ 'z') || ('A' ≤ c && c ≤ 'Z') || c = '_'

def namePart (c : Char) : Bool := nameStart c || ('0' ≤ c && c ≤ '9')

/-- A placeholder at the front of a text: its name, and the text behind it. -/
def placeholderAt (isSpace : Char → Bool) : List Char → Option (List Char × List Char)
  | '\x7b' :: '\x7b' :: text =>
      let text := text.dropWhile isSpace
      let name := text.takeWhile namePart
      match name, (text.dropWhile namePart).dropWhile isSpace with
      | first :: _, '\x7d' :: '\x7d' :: rest => if nameStart first then some (name, rest) else none
      | _, _ => none
  | _ => none

theorem placeholderAt_none {isSpace : Char → Bool} {c : Char} {rest : List Char} (plain : c ≠ '\x7b') :
    placeholderAt isSpace (c :: rest) = none := by
  unfold placeholderAt
  split
  · next same => exact absurd (List.cons.inj same).1 plain
  · rfl

/-- A placeholder is two opening braces, spaces, a name, spaces and two closing braces. -/
structure IsPlaceholder (isSpace : Char → Bool) (raw name : List Char) : Prop where
  named : ∃ c cs, name = c :: cs ∧ nameStart c = true ∧ ∀ d ∈ name, namePart d = true
  written : ∃ before after : List Char, (∀ c ∈ before ++ after, isSpace c = true) ∧
    raw = ['\x7b', '\x7b'] ++ before ++ name ++ after ++ ['\x7d', '\x7d']

/-- What is found at the front of a text is a placeholder. -/
theorem placeholderAt_form {isSpace : Char → Bool} {text name rest : List Char}
    (found : placeholderAt isSpace text = some (name, rest)) :
    ∃ raw, IsPlaceholder isSpace raw name ∧ text = raw ++ rest := by
  unfold placeholderAt at found
  split at found
  · rename_i inner
    dsimp only at found
    split at found
    · rename_i first further closed named ended
      split at found
      · rename_i start
        cases found
        refine ⟨_, ⟨⟨first, further, named, start, fun d inside => List.mem_takeWhile_imp inside⟩,
          inner.takeWhile isSpace, ((inner.dropWhile isSpace).dropWhile namePart).takeWhile isSpace, ?_, rfl⟩, ?_⟩
        · intro c inside
          rcases List.mem_append.mp inside with inside | inside
          · exact List.mem_takeWhile_imp inside
          · exact List.mem_takeWhile_imp inside
        · have behind : ['\x7d', '\x7d'] ++ rest = '\x7d' :: '\x7d' :: rest := rfl
          rw [List.append_assoc, behind, ← ended]
          simp only [List.append_assoc, List.takeWhile_append_dropWhile, List.cons_append, List.nil_append]
      · cases found
    · cases found
  · cases found

theorem placeholderAt_shorter {isSpace : Char → Bool} {text name rest : List Char}
    (found : placeholderAt isSpace text = some (name, rest)) : rest.length < text.length := by
  obtain ⟨raw, ⟨-, before, after, -, rfl⟩, rfl⟩ := placeholderAt_form found
  simp only [List.length_cons, List.length_append, List.length_nil]
  omega

section
variable {isSpace : Char → Bool} (solid : ∀ c, namePart c = true ∨ c = '\x7d' → isSpace c = false)
include solid

theorem namePart_of_space {c : Char} (space : isSpace c = true) : namePart c = false := by
  by_contra part
  rw [solid c (.inl (Bool.not_eq_false _ |>.mp part))] at space
  cases space

/-- A text that begins with a placeholder has one at its front, with nothing taken away from the name. -/
theorem IsPlaceholder.found {raw name : List Char} (form : IsPlaceholder isSpace raw name) (rest : List Char) :
    placeholderAt isSpace (raw ++ rest) = some (name, rest) := by
  obtain ⟨⟨first, further, rfl, start, parts⟩, before, after, spaces, rfl⟩ := form
  have closing : isSpace '\x7d' = false := solid _ (.inr rfl)
  have closing' : namePart '\x7d' = false := by decide
  have solidName : isSpace first = false := solid _ (.inl (parts _ List.mem_cons_self))
  have spacesBefore : ∀ c ∈ before, isSpace c = true := fun c m => spaces c (List.mem_append_left _ m)
  have spacesAfter : ∀ c ∈ after, isSpace c = true := fun c m => spaces c (List.mem_append_right _ m)
  -- The name ends where the spaces or the braces behind it begin.
  have ends : (after ++ '\x7d' :: '\x7d' :: rest).takeWhile namePart = [] ∧
      (after ++ '\x7d' :: '\x7d' :: rest).dropWhile namePart = after ++ '\x7d' :: '\x7d' :: rest := by
    cases after with
    | nil => simp [closing']
    | cons c after => simp [namePart_of_space solid (spacesAfter c List.mem_cons_self)]
  have text : ['\x7b', '\x7b'] ++ before ++ (first :: further) ++ after ++ ['\x7d', '\x7d'] ++ rest =
      '\x7b' :: '\x7b' :: (before ++ ((first :: further) ++ (after ++ '\x7d' :: '\x7d' :: rest))) := by simp
  have inner : (before ++ ((first :: further) ++ (after ++ '\x7d' :: '\x7d' :: rest))).dropWhile isSpace =
      (first :: further) ++ (after ++ '\x7d' :: '\x7d' :: rest) := by
    rw [List.dropWhile_append_of_pos spacesBefore]
    exact List.dropWhile_cons_of_neg (by simp [solidName])
  have behind : (after ++ '\x7d' :: '\x7d' :: rest).dropWhile isSpace = '\x7d' :: '\x7d' :: rest := by
    rw [List.dropWhile_append_of_pos spacesAfter]
    exact List.dropWhile_cons_of_neg (by simp [closing])
  rw [text, placeholderAt, inner, List.takeWhile_append_of_pos parts, List.dropWhile_append_of_pos parts, ends.1, ends.2,
    behind, List.append_nil]
  exact if_pos start

end

/-- The parameters of a prompt; `text` writes a value. -/
structure Parameters (V : Type) where
  get : String → Option V
  text : V → String

/-- The template with its placeholders replaced, from left to right; the name of the
first one without a value otherwise. -/
def renderTemplate {V : Type} (isSpace : Char → Bool) (parameters : Parameters V) :
    List Char → Except String (List Char)
  | [] => .ok []
  | c :: template =>
      match _found : placeholderAt isSpace (c :: template) with
      | some (name, rest) =>
          match parameters.get (String.ofList name) with
          | none => .error (String.ofList name)
          | some value =>
              (renderTemplate isSpace parameters rest).map fun rendered => (parameters.text value).toList ++ rendered
      | none => (renderTemplate isSpace parameters template).map fun rendered => c :: rendered
termination_by template => template.length
decreasing_by
  · exact placeholderAt_shorter _found
  · exact Nat.lt_succ_self _

/-! ## Execution -/

structure RenderedPrompt where
  prompt : PromptDefinition
  rendered : String
  deriving DecidableEq, Repr

def unknownPrompt (name : String) : HttpError := ⟨404, "Not Found", "Unknown prompt " ++ name⟩

def getPrompt (registry : Option PromptRegistry) (name : String) : Except HttpError PromptDefinition :=
  match registry.bind fun prompts => prompts.get? name with
  | none => .error (unknownPrompt name)
  | some prompt => .ok prompt

def missingInputs {V : Type} (prompt : PromptDefinition) (parameters : Parameters V) : List String :=
  prompt.inputs.filter fun input => (parameters.get input).isNone

def executePrompt {V : Type} (isSpace : Char → Bool) (registry : Option PromptRegistry) (name : String)
    (parameters : Parameters V) : Except HttpError RenderedPrompt :=
  (getPrompt registry name).bind fun prompt =>
    if missingInputs prompt parameters ≠ [] then
      .error ⟨400, "Bad Request", "Missing prompt inputs: " ++ ", ".intercalate (missingInputs prompt parameters)⟩
    else
      match renderTemplate isSpace parameters prompt.template.toList with
      | .error absent => .error ⟨400, "Bad Request", "Missing template variable: " ++ absent⟩
      | .ok rendered => .ok ⟨prompt, String.ofList rendered⟩

/-! ## The pieces of a template -/

inductive Piece where
  | literal (c : Char)
  | placeholder (raw name : List Char)

namespace Piece

def raw : Piece → List Char
  | .literal c => [c]
  | .placeholder raw _ => raw

/-- The name that the piece asks a value for. -/
def asks : Piece → Option String
  | .literal _ => none
  | .placeholder _ name => some (String.ofList name)

def filled {V : Type} (parameters : Parameters V) : Piece → List Char
  | .literal c => [c]
  | .placeholder _ name => ((parameters.get (String.ofList name)).map parameters.text).getD "" |>.toList

/-- A piece that asks for a value there is none of. -/
def lacks {V : Type} (parameters : Parameters V) (piece : Piece) : Option String :=
  piece.asks.filter fun name => (parameters.get name).isNone

end Piece

/-- The pieces of a template: nothing is lost, a placeholder has the form of one, and a
character is a piece only where no placeholder begins. -/
structure Pieces (isSpace : Char → Bool) (template : List Char) (pieces : List Piece) : Prop where
  whole : pieces.flatMap Piece.raw = template
  form : ∀ raw name, .placeholder raw name ∈ pieces → IsPlaceholder isSpace raw name
  leftmost : ∀ before c after, pieces = before ++ .literal c :: after →
    ∀ raw name rest, IsPlaceholder isSpace raw name → c :: after.flatMap Piece.raw ≠ raw ++ rest

namespace Pieces
variable {isSpace : Char → Bool} {template : List Char} {pieces : List Piece}

theorem nil (isSpace : Char → Bool) : Pieces isSpace [] [] := by
  refine ⟨rfl, fun raw name inside => absurd inside List.not_mem_nil, fun before c after split => ?_⟩
  exact absurd split.symm (List.append_ne_nil_of_right_ne_nil before (List.cons_ne_nil _ after))

theorem literal (rest : Pieces isSpace template pieces) {c : Char}
    (plain : ∀ raw name further, IsPlaceholder isSpace raw name → c :: template ≠ raw ++ further) : Pieces isSpace (c :: template) (.literal c :: pieces) where
  whole := congrArg (c :: ·) rest.whole
  form raw name inside := rest.form raw name ((List.mem_cons.mp inside).resolve_left fun same => by cases same)
  leftmost before d after split := by
    cases before with
    | nil =>
        obtain ⟨same, rfl⟩ := List.cons.inj split
        cases same
        rw [rest.whole]
        exact plain
    | cons piece before => exact rest.leftmost before d after (List.cons.inj split).2

theorem placeholder {raw name : List Char} (rest : Pieces isSpace template pieces)
    (form : IsPlaceholder isSpace raw name) : Pieces isSpace (raw ++ template) (.placeholder raw name :: pieces) where
  whole := congrArg (raw ++ ·) rest.whole
  form other asked inside := by
    rcases List.mem_cons.mp inside with same | later
    · cases same
      exact form
    · exact rest.form other asked later
  leftmost ahead c behind split := by
    cases ahead with
    | nil => cases split
    | cons piece ahead => exact rest.leftmost ahead c behind (List.cons.inj split).2

end Pieces

theorem renderTemplate_cons {V : Type} (isSpace : Char → Bool) (parameters : Parameters V) (c : Char)
    (template : List Char) : renderTemplate isSpace parameters (c :: template) =
      match placeholderAt isSpace (c :: template) with
      | some (name, rest) =>
          match parameters.get (String.ofList name) with
          | none => .error (String.ofList name)
          | some value =>
              (renderTemplate isSpace parameters rest).map fun rendered => (parameters.text value).toList ++ rendered
      | none => (renderTemplate isSpace parameters template).map fun rendered => c :: rendered := by
  rw [renderTemplate]
  split
  · rename_i name rest found
    simp only [found]
  · rename_i found
    simp only [found]

/-- Rendering fills the pieces of the template, which do not depend on the parameters. -/
theorem renderTemplate_pieces {isSpace : Char → Bool} (solid : ∀ c, namePart c = true ∨ c = '\x7d' → isSpace c = false)
    (template : List Char) :
    ∃ pieces, Pieces isSpace template pieces ∧ ∀ (V : Type) (parameters : Parameters V),
      renderTemplate isSpace parameters template =
        match pieces.findSome? (Piece.lacks parameters) with
        | some absent => .error absent
        | none => .ok (pieces.flatMap (Piece.filled parameters)) := by
  induction size : template.length using Nat.strong_induction_on generalizing template with
  | _ n ih =>
      subst size
      cases template with
      | nil => exact ⟨[], .nil isSpace, fun V parameters => by rw [renderTemplate]; rfl⟩
      | cons c template =>
          cases found : placeholderAt isSpace (c :: template) with
          | none =>
              obtain ⟨pieces, parsed, renders⟩ := ih template.length (Nat.lt_succ_self _) template rfl
              have plain (raw name further : List Char) (form : IsPlaceholder isSpace raw name) :
                  c :: template ≠ raw ++ further := by
                intro same
                rw [same, form.found solid further] at found
                cases found
              refine ⟨.literal c :: pieces, parsed.literal plain, fun V parameters => ?_⟩
              have given : Piece.lacks parameters (.literal c) = none := rfl
              rw [renderTemplate_cons, found, List.findSome?_cons, given]
              dsimp only
              rw [renders V parameters]
              cases pieces.findSome? (Piece.lacks parameters) with
              | none => rfl
              | some absent => rfl
          | some split =>
              obtain ⟨name, rest⟩ := split
              obtain ⟨pieces, parsed, renders⟩ := ih rest.length (placeholderAt_shorter found) rest rfl
              obtain ⟨raw, form, whole⟩ := placeholderAt_form found
              refine ⟨.placeholder raw name :: pieces, whole ▸ parsed.placeholder form, fun V parameters => ?_⟩
              rw [renderTemplate_cons, found, List.findSome?_cons]
              dsimp only
              cases value : parameters.get (String.ofList name) with
              | none =>
                  have lacking : Piece.lacks parameters (.placeholder raw name) = some (String.ofList name) := by
                    simp [Piece.lacks, Piece.asks, value]
                  rw [lacking]
              | some value =>
                  have given : Piece.lacks parameters (.placeholder raw name) = none := by
                    simp [Piece.lacks, Piece.asks, value]
                  rw [given]
                  dsimp only
                  rw [renders V parameters]
                  cases pieces.findSome? (Piece.lacks parameters) with
                  | none => simp [Except.map, Piece.filled, value]
                  | some absent => rfl

theorem missingInputs_eq_nil {V : Type} (prompt : PromptDefinition) (parameters : Parameters V) :
    missingInputs prompt parameters = [] ↔ ∀ input ∈ prompt.inputs, (parameters.get input).isSome = true := by
  simp only [missingInputs, List.filter_eq_nil_iff, Option.isNone_iff_eq_none, Option.isSome_iff_ne_none, ne_eq]

theorem findSome?_lacks {V : Type} (parameters : Parameters V) (pieces : List Piece) :
    pieces.findSome? (Piece.lacks parameters) = none ↔
      ∀ asked ∈ pieces.filterMap Piece.asks, (parameters.get asked).isSome = true := by
  simp only [List.findSome?_eq_none_iff, Piece.lacks, Option.filter_eq_none_iff, List.mem_filterMap,
    forall_exists_index, and_imp, Option.isNone_iff_eq_none, Option.isSome_iff_ne_none]
  constructor
  · exact fun none asked piece inside asks => none piece inside asked asks
  · exact fun given piece inside asked asks => given asked piece inside asks

/-- A prompt is rendered exactly if every input it declares and every placeholder of its
template has a value. The result is the template with these values in the place of the
placeholders; which parts of it are placeholders does not depend on the values. -/
theorem prompts_render {isSpace : Char → Bool} (solid : ∀ c, namePart c = true ∨ c = '\x7d' → isSpace c = false)
    {registry : PromptRegistry} {name : String} {prompt : PromptDefinition}
    (registered : registry.get? name = some prompt) :
    ∃ pieces, Pieces isSpace prompt.template.toList pieces ∧
      ∀ (V : Type) (parameters : Parameters V) (result : RenderedPrompt),
        executePrompt isSpace (some registry) name parameters = .ok result ↔
          (∀ asked ∈ prompt.inputs ++ pieces.filterMap Piece.asks, (parameters.get asked).isSome = true) ∧
            result = ⟨prompt, String.ofList (pieces.flatMap (Piece.filled parameters))⟩ := by
  obtain ⟨pieces, parsed, renders⟩ := renderTemplate_pieces solid prompt.template.toList
  refine ⟨pieces, parsed, fun V parameters result => ?_⟩
  have known : getPrompt (some registry) name = .ok prompt := by
    rw [getPrompt, Option.bind_some, registered]
  rw [executePrompt, known]
  simp only [Except.bind, List.forall_mem_append, renders V parameters]
  rw [← missingInputs_eq_nil, ← findSome?_lacks]
  by_cases complete : missingInputs prompt parameters = []
  · rw [if_neg (not_not.mpr complete)]
    cases lacking : pieces.findSome? (Piece.lacks parameters) with
    | none => simp only [complete, Except.ok.injEq, true_and, eq_comm]
    | some absent => simp
  · rw [if_pos complete]
    simp [complete]

theorem solid_asciiSpace (c : Char) (solid : namePart c = true ∨ c = '\x7d') : Text.asciiSpace c = false := by
  have printable : 48 ≤ c.val.toNat := by
    rcases solid with part | rfl
    · simp only [namePart, nameStart, Bool.or_eq_true, Bool.and_eq_true, decide_eq_true_eq, Char.le_def,
        UInt32.le_iff_toNat_le] at part
      rcases part with ((⟨least, -⟩ | ⟨least, -⟩) | rfl) | ⟨least, -⟩
      · exact Nat.le_trans (by decide) least
      · exact Nat.le_trans (by decide) least
      · decide
      · exact least
    · decide
  simp only [Text.asciiSpace, Bool.or_eq_false_iff, Bool.and_eq_false_iff, decide_eq_false_iff_not, UInt32.le_iff_toNat_le,
    ← UInt32.toNat_inj]
  simp only [UInt32.reduceToNat]
  omega

def inspectPrompt : PromptDefinition := ⟨"inspect", "Inspect asset", ["asset"], "Is \x7b\x7b asset\x7d\x7d up?"⟩

/-- One name has a value, and it looks like a placeholder. -/
def echoing : Parameters Unit :=
  ⟨fun name => if name = "asset" then some () else none, fun _ => "\x7b\x7bpump\x7d\x7d"⟩

/-- The value is put in the place of the placeholder, and is not taken for one. -/
theorem prompts_render_inspect : ∃ pieces, Pieces Text.asciiSpace inspectPrompt.template.toList pieces ∧
    executePrompt Text.asciiSpace (some (Dict.empty.set "inspect" inspectPrompt)) "inspect" echoing =
      .ok ⟨inspectPrompt, "Is \x7b\x7bpump\x7d\x7d up?"⟩ ∧
    String.ofList (pieces.flatMap (Piece.filled echoing)) = "Is \x7b\x7bpump\x7d\x7d up?" := by
  obtain ⟨pieces, parsed, renders⟩ := prompts_render solid_asciiSpace
    (show (Dict.empty.set "inspect" inspectPrompt).get? "inspect" = some inspectPrompt from rfl)
  have rendered : executePrompt Text.asciiSpace (some (Dict.empty.set "inspect" inspectPrompt)) "inspect" echoing =
      .ok ⟨inspectPrompt, "Is \x7b\x7bpump\x7d\x7d up?"⟩ := by
    have template : inspectPrompt.template.toList =
        ['I', 's', ' ', '\x7b', '\x7b', ' ', 'a', 's', 's', 'e', 't', '\x7d', '\x7d', ' ', 'u', 'p', '?'] := by decide
    have found (rest : List Char) : placeholderAt Text.asciiSpace
        ('\x7b' :: '\x7b' :: ' ' :: 'a' :: 's' :: 's' :: 'e' :: 't' :: '\x7d' :: '\x7d' :: rest) =
          some ("asset".toList, rest) := rfl
    have literal {c : Char} (plain : c ≠ '\x7b') (rest : List Char) : renderTemplate Text.asciiSpace echoing (c :: rest) =
        (renderTemplate Text.asciiSpace echoing rest).map fun rendered => c :: rendered := by
      rw [renderTemplate_cons, placeholderAt_none plain]
    have empty : renderTemplate Text.asciiSpace echoing [] = .ok [] := by rw [renderTemplate]
    have text : renderTemplate Text.asciiSpace echoing inspectPrompt.template.toList =
        .ok "Is \x7b\x7bpump\x7d\x7d up?".toList := by
      have asked : echoing.get (String.ofList "asset".toList) = some () := rfl
      have behind : renderTemplate Text.asciiSpace echoing [' ', 'u', 'p', '?'] = .ok [' ', 'u', 'p', '?'] := by
        rw [literal (by decide), literal (by decide), literal (by decide), literal (by decide), empty]
        rfl
      rw [template, literal (by decide), literal (by decide), literal (by decide), renderTemplate_cons, found]
      dsimp only
      rw [asked, behind]
      rfl
    have given : missingInputs inspectPrompt echoing = [] := rfl
    simp [executePrompt, getPrompt, Except.bind, given, text]
  obtain ⟨-, same⟩ := (renders Unit echoing _).mp rendered
  exact ⟨pieces, parsed, rendered, (congrArg RenderedPrompt.rendered same).symm⟩

end I3x.Mcp
