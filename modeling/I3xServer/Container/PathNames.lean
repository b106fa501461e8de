import Mathlib.Data.List.Infix
import Mathlib.Tactic.Common

/-!
# Path names

Paths as texts between slashes, and their normal form: no empty component, no single
dot, and each double dot taken back with the component before it.
-/
namespace Container

/-- The texts between the slashes. -/
def components : List Char → List (List Char)
  | [] => [[]]
  | c :: cs =>
      if c = '/' then [] :: components cs
      else
        match components cs with
        | [] => [[c]]
        | first :: rest => (c :: first) :: rest

/-- A path of components, each behind a slash. -/
def slashed (parts : List (List Char)) : List Char := parts.flatMap fun part => '/' :: part

/-- The same, where the path without components is the root. -/
def rooted (parts : List (List Char)) : List Char := if parts = [] then ['/'] else slashed parts

def normStep (absolute : Bool) (stack : List (List Char)) (part : List Char) : List (List Char) :=
  if part = [] ∨ part = ['.'] then stack
  else if part ≠ ['.', '.'] ∨ (absolute = false ∧ stack = []) ∨ stack.getLast? = some ['.', '.'] then stack ++ [part]
  else stack.dropLast

/-- The slashes that a path keeps at its start: none, one, or exactly two. -/
def leadingSlashes : List Char → Nat
  | '/' :: '/' :: '/' :: _ => 1
  | '/' :: '/' :: _ => 2
  | '/' :: _ => 1
  | _ => 0

/-- The POSIX normal form of a path. -/
def normpath (path : List Char) : List Char :=
  if path = [] then ['.']
  else
    let slashes := leadingSlashes path
    let parts := (components path).foldl (normStep (decide (slashes ≠ 0))) []
    let normal := List.replicate slashes '/' ++ ['/'].intercalate parts
    if normal = [] then ['.'] else normal

/-- A component that normalising keeps. -/
structure PlainPart (part : List Char) : Prop where
  filled : part ≠ []
  named : part ≠ ['.']
  downward : part ≠ ['.', '.']
  whole : '/' ∉ part

/-! ## Components -/

theorem components_append {part : List Char} (whole : '/' ∉ part) (path : List Char) :
    components (part ++ '/' :: path) = part :: components path := by
  induction part with
  | nil => rw [List.nil_append, components, if_pos rfl]
  | cons c cs ih =>
      obtain ⟨head, tail⟩ := not_or.mp (fun either => whole (List.mem_cons.mpr either))
      rw [List.cons_append, components, if_neg fun same => head same.symm, ih tail]

theorem components_whole {part : List Char} (whole : '/' ∉ part) : components part = [part] := by
  induction part with
  | nil => rfl
  | cons c cs ih =>
      obtain ⟨head, tail⟩ := not_or.mp (fun either => whole (List.mem_cons.mpr either))
      rw [components, if_neg fun same => head same.symm, ih tail]

theorem components_slashed {parts : List (List Char)} (whole : ∀ part ∈ parts, '/' ∉ part) :
    components (slashed parts) = [] :: parts := by
  have behind (part : List Char) (rest : List (List Char)) (whole : ∀ p ∈ part :: rest, '/' ∉ p) :
      components (part ++ slashed rest) = part :: rest := by
    induction rest generalizing part with
    | nil =>
        rw [slashed, List.flatMap_nil, List.append_nil]
        exact components_whole (whole part List.mem_cons_self)
    | cons next rest ih =>
        rw [slashed, List.flatMap_cons, List.cons_append, components_append (whole part List.mem_cons_self)]
        exact congrArg (part :: ·) (ih next fun p m => whole p (List.mem_cons_of_mem _ m))
  cases parts with
  | nil => rfl
  | cons part rest =>
      rw [slashed, List.flatMap_cons, List.cons_append, components, if_pos rfl]
      exact congrArg ([] :: ·) (behind part rest whole)

theorem components_char {path part : List Char} (m : part ∈ components path) : '/' ∉ part ∧ ∀ c ∈ part, c ∈ path := by
  induction path generalizing part with
  | nil =>
      cases List.mem_singleton.mp m
      exact ⟨List.not_mem_nil, nofun⟩
  | cons c cs ih =>
      rw [components] at m
      split at m
      · rcases List.mem_cons.mp m with rfl | later
        · exact ⟨List.not_mem_nil, nofun⟩
        · exact ⟨(ih later).1, fun d n => List.mem_cons_of_mem _ ((ih later).2 d n)⟩
      · next other =>
          split at m
          · cases List.mem_singleton.mp m
            refine ⟨fun n => other (List.mem_singleton.mp n).symm, fun d n => ?_⟩
            cases List.mem_singleton.mp n
            exact List.mem_cons_self
          · next first rest eq =>
              rw [eq] at ih
              rcases List.mem_cons.mp m with rfl | later
              · obtain ⟨whole, chars⟩ := ih List.mem_cons_self
                refine ⟨fun n => (List.mem_cons.mp n).elim (fun same => other same.symm) whole, fun d n => ?_⟩
                exact (List.mem_cons.mp n).elim (fun same => same ▸ List.mem_cons_self)
                  fun n => List.mem_cons_of_mem _ (chars d n)
              · obtain ⟨whole, chars⟩ := ih (List.mem_cons_of_mem _ later)
                exact ⟨whole, fun d n => List.mem_cons_of_mem _ (chars d n)⟩

theorem infix_slashed {part : List Char} {parts : List (List Char)} (m : part ∈ parts) : part <:+: slashed parts := by
  obtain ⟨front, back, eq⟩ := List.append_of_mem m
  refine ⟨slashed front ++ ['/'], slashed back, ?_⟩
  rw [eq]
  simp [slashed]

/-! ## Normal forms -/

/-- Normalising keeps some of the components, in order. -/
theorem foldl_normStep_sublist (absolute : Bool) (stack parts : List (List Char)) :
    (parts.foldl (normStep absolute) stack).Sublist (stack ++ parts) := by
  induction parts generalizing stack with
  | nil => rw [List.append_nil, List.foldl_nil]
  | cons part parts ih =>
      rw [List.foldl_cons]
      have here : (normStep absolute stack part).Sublist (stack ++ [part]) := by
        unfold normStep
        split
        · exact List.sublist_append_left _ _
        · split
          · exact List.Sublist.refl _
          · exact (List.dropLast_sublist _).trans (List.sublist_append_left _ _)
      have whole := (ih (normStep absolute stack part)).trans (here.append_right parts)
      rwa [List.append_assoc] at whole

/-- What an absolute path keeps is plain. -/
theorem foldl_normStep_plain {stack parts : List (List Char)} (plain : ∀ part ∈ stack, PlainPart part)
    (whole : ∀ part ∈ parts, '/' ∉ part) : ∀ part ∈ parts.foldl (normStep true) stack, PlainPart part := by
  induction parts generalizing stack with
  | nil => exact plain
  | cons part parts ih =>
      rw [List.foldl_cons]
      refine ih ?_ fun p m => whole p (List.mem_cons_of_mem _ m)
      unfold normStep
      split
      · exact plain
      · next kept =>
          split
          · next named =>
              have downward : part ≠ ['.', '.'] := by
                rcases named with other | ⟨same, -⟩ | last
                · exact other
                · cases same
                · exact absurd rfl (plain _ (List.mem_of_getLast? last)).downward
              intro p m
              rcases List.mem_append.mp m with old | new
              · exact plain p old
              · cases List.mem_singleton.mp new
                exact ⟨fun empty => kept (.inl empty), fun dot => kept (.inr dot), downward, whole _ List.mem_cons_self⟩
          · exact fun p m => plain p ((List.dropLast_sublist _).subset m)

theorem normal_plain {parts : List (List Char)} (whole : ∀ part ∈ parts, '/' ∉ part) :
    ∀ part ∈ parts.foldl (normStep true) [], PlainPart part := foldl_normStep_plain nofun whole

theorem foldl_normStep_kept {absolute : Bool} (stack : List (List Char)) {parts : List (List Char)}
    (plain : ∀ part ∈ parts, PlainPart part) : parts.foldl (normStep absolute) stack = stack ++ parts := by
  induction parts generalizing stack with
  | nil => rw [List.append_nil, List.foldl_nil]
  | cons part parts ih =>
      obtain ⟨filled, named, downward, -⟩ := plain part List.mem_cons_self
      have step : normStep absolute stack part = stack ++ [part] := by
        rw [normStep, if_neg fun either => either.elim filled named, if_pos (.inl downward)]
      rw [List.foldl_cons, step, ih _ fun p m => plain p (List.mem_cons_of_mem _ m), List.append_assoc]
      rfl

theorem rooted_eq (parts : List (List Char)) : rooted parts = '/' :: ['/'].intercalate parts := by
  unfold rooted
  split
  · next none => rw [none]; rfl
  · next some' =>
      obtain ⟨part, rest, rfl⟩ := List.exists_cons_of_ne_nil some'
      clear some'
      rw [slashed, List.flatMap_cons, List.cons_append]
      congr 1
      induction rest generalizing part with
      | nil => simp [List.intercalate]
      | cons next rest ih =>
          rw [List.flatMap_cons, List.cons_append, ih next]
          simp [List.intercalate]

/-- A path with one slash at its start: its normal form is that of its components. -/
theorem normpath_absolute {path : List Char} (absolute : leadingSlashes path = 1) :
    normpath path = rooted ((components path).foldl (normStep true) []) := by
  have some' : path ≠ [] := by
    rintro rfl
    cases absolute
  rw [normpath, if_neg some', absolute, rooted_eq]
  dsimp only
  rw [if_neg]
  · rfl
  · exact nofun

theorem components_rooted {parts : List (List Char)} (plain : ∀ part ∈ parts, PlainPart part) :
    (components (rooted parts)).filter (· ≠ []) = parts := by
  have keep : parts.filter (· ≠ []) = parts :=
    List.filter_eq_self.mpr fun part m => decide_eq_true (plain part m).filled
  unfold rooted
  split
  · next none => rw [none]; rfl
  · rw [components_slashed fun part m => (plain part m).whole, List.filter_cons_of_neg (by simp), keep]

/-! ## Rooted paths -/

theorem leadingSlashes_single {path : List Char} (absolute : ['/'] <+: path) (single : ¬ ['/', '/'] <+: path) :
    leadingSlashes path = 1 := by
  obtain ⟨rest, rfl⟩ := absolute
  cases rest with
  | nil => rfl
  | cons c cs =>
      have other : c ≠ '/' := by
        rintro rfl
        exact single ⟨cs, rfl⟩
      rw [List.singleton_append]
      unfold leadingSlashes
      split
      · next eq => exact absurd (List.cons.inj (List.cons.inj eq).2).1 other
      · next eq => exact absurd (List.cons.inj (List.cons.inj eq).2).1 other
      · rfl
      · next none => exact absurd rfl (none (c :: cs))

theorem rooted_absolute (parts : List (List Char)) : ['/'] <+: rooted parts := by
  rw [rooted_eq]
  exact ⟨_, rfl⟩

theorem slashed_single {parts : List (List Char)} (whole : ∀ part ∈ parts, '/' ∉ part)
    (opened : ∀ rest, parts = [] :: rest → rest = []) : ¬ ['/', '/'] <+: slashed parts := by
  rintro ⟨rest, eq⟩
  have split := congrArg components eq.symm
  rw [components_slashed whole] at split
  change _ = components ([] ++ '/' :: ([] ++ '/' :: rest)) at split
  rw [components_append List.not_mem_nil, components_append List.not_mem_nil] at split
  have parts' := (List.cons.inj split).2
  subst parts'
  have none : components rest = [] := opened _ rfl
  cases rest with
  | nil => cases none
  | cons c cs =>
      rw [components] at none
      split at none
      · cases none
      · split at none <;> cases none

theorem rooted_single {parts : List (List Char)} (plain : ∀ part ∈ parts, PlainPart part) :
    ¬ ['/', '/'] <+: rooted parts := by
  unfold rooted
  split
  · decide
  · refine slashed_single (fun part m => (plain part m).whole) fun rest eq => ?_
    exact absurd rfl (plain [] (eq ▸ List.mem_cons_self)).filled

/-- A normal path does not go above its root. -/
theorem rooted_downward {parts : List (List Char)} (plain : ∀ part ∈ parts, PlainPart part) :
    ¬ (rooted parts = ['/', '.', '.'] ∨ ['/', '.', '.', '/'] <+: rooted parts) := by
  have first (rest : List (List Char)) (eq : components (rooted parts) = [] :: ['.', '.'] :: rest) : False := by
    have kept := components_rooted plain
    rw [eq] at kept
    have m : ['.', '.'] ∈ parts := kept ▸ List.mem_filter.mpr ⟨List.mem_cons_of_mem _ List.mem_cons_self, rfl⟩
    exact (plain _ m).downward rfl
  rintro (eq | ⟨rest, eq⟩)
  · exact first [] (by rw [eq]; rfl)
  · refine first (components rest) ?_
    rw [← eq]
    change components ([] ++ '/' :: (['.', '.'] ++ '/' :: rest)) = _
    rw [components_append List.not_mem_nil, components_append (by decide)]

/-- The components of a rooted path, where the root has an empty one. -/
def rootComponents (parts : List (List Char)) : List (List Char) := if parts = [] then [[]] else parts

theorem rooted_eq_slashed (parts : List (List Char)) : rooted parts = slashed (rootComponents parts) := by
  unfold rooted rootComponents
  split <;> rfl

theorem foldl_rootComponents (stack parts : List (List Char)) :
    (rootComponents parts).foldl (normStep true) stack = parts.foldl (normStep true) stack := by
  unfold rootComponents
  split
  · next none => rw [none]; rfl
  · rfl

end Container
