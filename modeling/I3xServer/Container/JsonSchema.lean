import I3xServer.Container.Parallel
import Mathlib.Data.Rat.Defs
import Mathlib.Tactic.Common

/-!
# JSON values and the schemas that describe them

The keywords that constrain a value, each a field that may be absent, and the
validator that reads them. A reference leads to another schema, so the validator
descends to a given depth; a value is accepted if it is so at every depth from
some depth on.
-/
namespace Container

abbrev Chars := List Char

inductive JsonValue where
  | null
  | boolean (value : Bool)
  | number (value : ℚ)
  | text (value : Chars)
  | array (items : List JsonValue)
  | object (members : List (Chars × JsonValue))

inductive JsonType where
  | null
  | boolean
  | integer
  | number
  | string
  | array
  | object
  deriving DecidableEq, Repr

/-- A whole number is an integer, however it is written; a truth value is not. -/
def JsonType.describes : JsonType → JsonValue → Bool
  | .null, .null => true
  | .boolean, .boolean _ => true
  | .integer, .number q => q.den = 1
  | .number, .number _ => true
  | .string, .text _ => true
  | .array, .array _ => true
  | .object, .object _ => true
  | _, _ => false

/-- The `type` keyword: one type, or a list of them. -/
inductive TypeKeyword where
  | one (type : JsonType)
  | several (types : List JsonType)
  deriving DecidableEq

def TypeKeyword.types : TypeKeyword → List JsonType
  | .one type => [type]
  | .several types => types

def TypeKeyword.allows (keyword : TypeKeyword) (v : JsonValue) : Bool := keyword.types.any (·.describes v)

/-- The entries of `enum` and the value of `const`. -/
inductive JsonConstant where
  | integer (value : Int)
  | text (value : Chars)
  deriving DecidableEq

def JsonConstant.equals : JsonConstant → JsonValue → Bool
  | .integer i, .number q => q = i
  | .text t, .text u => t = u
  | _, _ => false

structure Schema where
  type : Option TypeKeyword := none
  enum : Option (List JsonConstant) := none
  const : Option JsonConstant := none
  minimum : Option Int := none
  maximum : Option Int := none
  format : Option Chars := none
  items : Option Schema := none
  properties : List (Chars × Schema) := []
  required : List Chars := []
  /-- False exactly if `additionalProperties` is. -/
  additionalProperties : Bool := true
  anyOf : Option (List Schema) := none
  oneOf : Option (List Schema) := none
  ref : Option Chars := none
  title : Option Chars := none
  contentEncoding : Option Chars := none
  /-- The remaining keywords, which no validator reads. -/
  notes : List (Chars × List Chars) := []

namespace Schema

/-- What a validator is given beside the schema: the definitions a reference can
name, and the formats it knows. -/
structure Context where
  definition : Chars → Option Schema
  wellFormatted : Chars → Chars → Bool

/-- The keywords that need no descent. -/
def flat (context : Context) (s : Schema) (v : JsonValue) : Bool :=
  s.type.all (·.allows v) &&
  s.enum.all (fun entries => entries.any (·.equals v)) &&
  s.const.all (·.equals v) &&
  (match v with
    | .number q => s.minimum.all (fun low => (low : ℚ) ≤ q) && s.maximum.all (fun high => q ≤ (high : ℚ))
    | .text t => s.format.all (context.wellFormatted · t)
    | .object members =>
        s.required.all (fun name => members.any (·.1 = name)) &&
          (s.additionalProperties || members.all fun m => s.properties.any (·.1 = m.1))
    | _ => true)

def accepts (context : Context) : Nat → Schema → JsonValue → Bool
  | 0, _, _ => false
  | depth + 1, s, v =>
      s.flat context v &&
      (match v with
        | .array items => s.items.all fun item => items.all (accepts context depth item)
        | .object members =>
            s.properties.all fun p => members.all fun m => m.1 ≠ p.1 || accepts context depth p.2 m.2
        | _ => true) &&
      s.anyOf.all (fun branches => branches.any (accepts context depth · v)) &&
      s.oneOf.all (fun branches => branches.countP (accepts context depth · v) = 1) &&
      -- a reference that names nothing cannot be resolved, and validation fails
      s.ref.all (fun ref => (context.definition ref).any (accepts context depth · v))

def Accepts (context : Context) (s : Schema) (v : JsonValue) : Prop :=
  ∃ enough, ∀ depth ≥ enough, s.accepts context depth v = true

def Refuses (context : Context) (s : Schema) (v : JsonValue) : Prop :=
  ∀ depth, s.accepts context depth v = false

/-- What becomes of the value beyond some depth. -/
def Settles (context : Context) (s : Schema) (v : JsonValue) : Bool → Prop
  | true => s.Accepts context v
  | false => s.Refuses context v

variable {context : Context} {s t : Schema} {v : JsonValue}

attribute [local simp] accepts

theorem Refuses.not_accepts (refuses : s.Refuses context v) : ¬ s.Accepts context v := by
  rintro ⟨enough, accepts⟩
  have accepted := accepts enough le_rfl
  rw [refuses enough] at accepted
  cases accepted

theorem Settles.accepts_iff {verdict : Bool} (settles : s.Settles context v verdict) :
    s.Accepts context v ↔ verdict = true := by
  cases verdict with
  | true => exact iff_of_true settles rfl
  | false => exact iff_of_false settles.not_accepts nofun

/-- A schema that accepts at each depth what another accepts there. -/
theorem Accepts.of_depth (weaker : ∀ depth, s.accepts context depth v = true → t.accepts context depth v = true)
    (accepts : s.Accepts context v) : t.Accepts context v := by
  obtain ⟨enough, accepts⟩ := accepts
  exact ⟨enough, fun depth deep => weaker depth (accepts depth deep)⟩

theorem Refuses.of_flat (refuses : s.flat context v = false) : s.Refuses context v := by
  intro depth
  cases depth with
  | zero => rfl
  | succ depth => simp only [accepts, refuses, Bool.false_and]

/-- Allowing more types refuses nothing that was accepted. -/
theorem accepts_type {keyword : Option TypeKeyword} (wider : s.type.all (·.allows v) → keyword.all (·.allows v))
    {depth : Nat} (accepted : s.accepts context depth v = true) :
    ({ s with type := keyword } : Schema).accepts context depth v = true := by
  cases depth with
  | zero => cases accepted
  | succ depth =>
      simp only [accepts, flat, Bool.and_eq_true] at accepted ⊢
      obtain ⟨⟨⟨⟨⟨⟨⟨types, enum⟩, const⟩, flat⟩, members⟩, anyOf⟩, oneOf⟩, ref⟩ := accepted
      exact ⟨⟨⟨⟨⟨⟨⟨wider types, enum⟩, const⟩, flat⟩, members⟩, anyOf⟩, oneOf⟩, ref⟩

/-- A schema without branches and references settles at once what becomes of null. -/
theorem Settles.of_flat (anyOf : s.anyOf = none) (oneOf : s.oneOf = none) (ref : s.ref = none) :
    s.Settles context .null (s.flat context .null) := by
  cases verdict : s.flat context .null with
  | false => exact Refuses.of_flat verdict
  | true =>
      refine ⟨1, fun depth deep => ?_⟩
      obtain ⟨depth, rfl⟩ := Nat.exists_eq_add_of_le' deep
      simp [verdict, anyOf, oneOf, ref]

/-- A reference refuses what all that it can lead to refuses. -/
theorem Refuses.ref {ref : Chars} (each : ∀ d, context.definition ref = some d → d.Refuses context v) :
    ({ ref := some ref } : Schema).Refuses context v := by
  intro depth
  cases depth with
  | zero => rfl
  | succ depth =>
      have unresolved : (context.definition ref).any (Schema.accepts context depth · v) = false := by
        cases found : context.definition ref with
        | none => rfl
        | some d => exact each d found depth
      simp [unresolved]

/-! ## Branches -/

@[simp] theorem accepts_zero : s.accepts context 0 v = false := rfl

theorem accepts_anyOf (branches : List Schema) (depth : Nat) :
    ({ anyOf := some branches } : Schema).accepts context (depth + 1) v =
      branches.any (·.accepts context depth v) := by
  cases v <;> simp [flat]

theorem Accepts.anyOf {branches : List Schema} (mem : s ∈ branches) (accepts : s.Accepts context v) :
    ({ anyOf := some branches } : Schema).Accepts context v := by
  obtain ⟨enough, accepts⟩ := accepts
  refine ⟨enough + 1, fun depth deep => ?_⟩
  obtain ⟨depth, rfl⟩ := Nat.exists_eq_add_of_le' (Nat.le_trans (Nat.le_add_left 1 enough) deep)
  rw [accepts_anyOf, List.any_eq_true]
  exact ⟨s, mem, accepts depth (Nat.le_of_succ_le_succ deep)⟩

theorem Accepts.anyOf_mono {branches more : List Schema} (subset : branches ⊆ more)
    (accepts : ({ anyOf := some branches } : Schema).Accepts context v) :
    ({ anyOf := some more } : Schema).Accepts context v := by
  refine accepts.of_depth fun depth accepted => ?_
  cases depth with
  | zero => cases accepted
  | succ depth =>
      rw [accepts_anyOf, List.any_eq_true] at accepted ⊢
      obtain ⟨branch, mem, accepted⟩ := accepted
      exact ⟨branch, subset mem, accepted⟩

theorem Accepts.of_anyOf_single (accepts : ({ anyOf := some [s] } : Schema).Accepts context v) :
    s.Accepts context v := by
  obtain ⟨enough, accepts⟩ := accepts
  refine ⟨enough, fun depth deep => ?_⟩
  have accepted := accepts (depth + 1) (Nat.le_succ_of_le deep)
  simpa only [accepts_anyOf, List.any_cons, List.any_nil, Bool.or_false] using accepted

theorem Refuses.anyOf {branches : List Schema} (each : ∀ s ∈ branches, s.Refuses context v) :
    ({ anyOf := some branches } : Schema).Refuses context v := by
  intro depth
  cases depth with
  | zero => rfl
  | succ depth =>
      rw [accepts_anyOf, List.any_eq_false]
      intro s mem
      simp [each s mem depth]

/-- Branches that each settle what becomes of a value settle it together. -/
theorem Settles.anyOf {α : Type} {xs : List α} {branches : List Schema} {verdict : α → Bool}
    (each : List.Forall₂ (fun x s => s.Settles context v (verdict x)) xs branches) :
    ({ anyOf := some branches } : Schema).Settles context v (xs.any verdict) := by
  cases all : xs.any verdict with
  | true =>
      obtain ⟨x, mem, holds⟩ := List.any_eq_true.mp all
      obtain ⟨s, branch, settles⟩ := exists_of_forall₂ each mem
      rw [holds] at settles
      exact Accepts.anyOf branch settles
  | false =>
      refine Refuses.anyOf fun s branch => ?_
      obtain ⟨x, mem, settles⟩ := exists_of_forall₂ each.flip branch
      have refused : verdict x = false := by simpa using List.any_eq_false.mp all x mem
      change s.Settles context v (verdict x) at settles
      rwa [refused] at settles

end Schema
end Container
