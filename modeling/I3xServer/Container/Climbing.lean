import I3xServer.Container.Forest

/-!
# Climbing to the top

A loop that follows a parent function and gives up where it meets itself or a missing
member. It ends for every parent function with finitely many values, reaches the top
of a chain, and gives up exactly where there is none.
-/
namespace Container
variable {α : Type}

/-- How a climb ends: at the top or at a member known before, with the members passed;
broken; or cut off. -/
inductive Way (α : Type) where
  | reached (chain : List α)
  | broken
  | exhausted
  deriving DecidableEq, Repr

def Way.passing (a : α) : Way α → Way α
  | .reached chain => .reached (a :: chain)
  | .broken => .broken
  | .exhausted => .exhausted

section
variable [DecidableEq α] (parent : α → Option α) (known missing : α → Bool)

def climb : Nat → List α → Option α → Way α
  | _, _, none => .reached []
  | 0, _, some a => if known a then .reached [] else .exhausted
  | fuel + 1, visited, some a =>
      if known a then .reached []
      else if a ∈ visited ∨ missing a then .broken
      else (climb fuel (a :: visited) (parent a)).passing a

/-- A member from which a chain of present members leads to the top. -/
def Grounded (a : α) : Prop := ∃ chain, Climbs parent a chain ∧ ∀ b ∈ chain, missing b = false

end

variable [DecidableEq α] {parent : α → Option α} {known missing : α → Bool}

attribute [local simp] climb

theorem climb_known {a : α} (old : known a = true) (fuel : Nat) (visited : List α) :
    climb parent known missing (fuel + 1) visited (some a) = .reached [] := by
  simp [old]

theorem climb_on {a : α} {visited : List α} (new : ¬ known a = true) (free : ¬ (a ∈ visited ∨ missing a = true))
    (fuel : Nat) : climb parent known missing (fuel + 1) visited (some a) =
      (climb parent known missing fuel (a :: visited) (parent a)).passing a := by
  simp [new, free]

omit [DecidableEq α] in
theorem Grounded.of_parent {a : α} (present : missing a = false)
    (above : ∀ p, parent a = some p → Grounded parent missing p) : Grounded parent missing a := by
  cases up : parent a with
  | none => exact ⟨[a], .top up, fun b m => List.mem_singleton.mp m ▸ present⟩
  | some p =>
      obtain ⟨chain, climbs, inside⟩ := above p up
      exact ⟨a :: chain, .up up climbs, fun b m => (List.mem_cons.mp m).elim (fun same => same ▸ present) (inside b)⟩

/-- A climb that ends has passed grounded members only, if those known before are grounded. -/
theorem climb_reached (sound : ∀ a, known a = true → Grounded parent missing a) {fuel : Nat} {visited chain : List α}
    {current : Option α} (ended : climb parent known missing fuel visited current = .reached chain) :
    (∀ a, current = some a → Grounded parent missing a) ∧ ∀ b ∈ chain, Grounded parent missing b := by
  induction fuel generalizing visited chain current with
  | zero =>
      cases current with
      | none => cases ended; exact ⟨nofun, nofun⟩
      | some a =>
          rw [climb] at ended
          split at ended
          · next old =>
              cases ended
              exact ⟨fun b same => Option.some.inj same ▸ sound a old, nofun⟩
          · cases ended
  | succ fuel ih =>
      cases current with
      | none => cases ended; exact ⟨nofun, nofun⟩
      | some a =>
          rw [climb] at ended
          split at ended
          · next old =>
              cases ended
              exact ⟨fun b same => Option.some.inj same ▸ sound a old, nofun⟩
          · split at ended
            · cases ended
            · next new =>
                cases further : climb parent known missing fuel (a :: visited) (parent a) with
                | reached rest =>
                    rw [further] at ended
                    cases ended
                    obtain ⟨above, passed⟩ := ih further
                    have present : missing a = false := by
                      cases eq : missing a with
                      | false => rfl
                      | true => exact absurd (.inr eq) new
                    have here := Grounded.of_parent present above
                    exact ⟨fun b same => Option.some.inj same ▸ here,
                      fun b m => (List.mem_cons.mp m).elim (fun same => same ▸ here) (passed b)⟩
                | broken => rw [further] at ended; cases ended
                | exhausted => rw [further] at ended; cases ended

/-- Along a chain of present members the climb passes a first part of the chain, all of
it if nothing is known before. -/
theorem climb_of_climbs {a : α} {chain : List α} (climbs : Climbs parent a chain)
    (inside : ∀ b ∈ chain, missing b = false) {fuel : Nat} (enough : chain.length ≤ fuel) {visited : List α}
    (fresh : ∀ b ∈ chain, b ∉ visited) :
    ∃ passed, climb parent known missing fuel visited (some a) = .reached passed ∧ passed <+: chain ∧
      ((∀ b, known b = false) → passed = chain) := by
  induction climbs generalizing fuel visited with
  | @top a none =>
      obtain ⟨fuel, rfl⟩ : ∃ n, fuel = n + 1 := Nat.exists_eq_add_of_le' enough
      have free : ¬ (a ∈ visited ∨ missing a = true) := by
        rw [inside a (List.mem_singleton_self a)]
        exact fun either => either.elim (fresh a (List.mem_singleton_self a)) nofun
      by_cases old : known a = true
      · rw [climb_known old]
        exact ⟨[], rfl, List.nil_prefix, fun unknown => absurd old (by rw [unknown a]; exact nofun)⟩
      · rw [climb_on old free, none]
        exact ⟨[a], by cases fuel <;> rfl, List.prefix_refl _, fun _ => rfl⟩
  | @up a p rest up climbs ih =>
      have whole : Climbs parent a (a :: rest) := .up up climbs
      obtain ⟨fuel, rfl⟩ : ∃ n, fuel = n + 1 := Nat.exists_eq_add_of_le' (Nat.le_trans (Nat.succ_le_succ (Nat.zero_le _)) enough)
      have free : ¬ (a ∈ visited ∨ missing a = true) := by
        rw [inside a List.mem_cons_self]
        exact fun either => either.elim (fresh a List.mem_cons_self) nofun
      by_cases old : known a = true
      · rw [climb_known old]
        exact ⟨[], rfl, List.nil_prefix, fun unknown => absurd old (by rw [unknown a]; exact nofun)⟩
      · rw [climb_on old free, up]
        have other : ∀ b ∈ rest, b ∉ a :: visited := by
          intro b m again
          rcases List.mem_cons.mp again with rfl | before
          · exact (List.nodup_cons.mp whole.nodup).1 m
          · exact fresh b (List.mem_cons_of_mem _ m) before
        obtain ⟨passed, ended, first, all⟩ := ih (fun b m => inside b (List.mem_cons_of_mem _ m))
          (Nat.le_of_succ_le_succ enough) other
        rw [ended]
        exact ⟨a :: passed, rfl, List.cons_prefix_cons.mpr ⟨rfl, first⟩, fun unknown => by rw [all unknown]⟩

/-- The climb is not cut off while the fuel exceeds the number of members not visited. -/
theorem climb_ne_exhausted {members : Finset α} (closed : ∀ a p, parent a = some p → p ∈ members ∨ missing p = true)
    {fuel : Nat} {visited : List α} {current : Option α} (enough : (members \ visited.toFinset).card < fuel)
    (start : ∀ a, current = some a → a ∈ members ∨ missing a = true) :
    climb parent known missing fuel visited current ≠ .exhausted := by
  induction fuel generalizing visited current with
  | zero => omega
  | succ fuel ih =>
      cases current with
      | none => exact nofun
      | some a =>
          rw [climb]
          split
          · exact nofun
          · split
            · exact nofun
            · next new =>
                have fresh : a ∈ members \ visited.toFinset := by
                  rw [Finset.mem_sdiff, List.mem_toFinset]
                  exact ⟨(start a rfl).resolve_right fun gone => new (.inr gone), fun old => new (.inl old)⟩
                have fewer : (members \ (a :: visited).toFinset).card < fuel := by
                  have smaller : members \ (a :: visited).toFinset ⊆ (members \ visited.toFinset).erase a := by
                    intro b m
                    simp only [List.toFinset_cons, Finset.mem_sdiff, Finset.mem_insert, not_or] at m
                    rw [Finset.mem_erase, Finset.mem_sdiff]
                    exact ⟨m.2.1, m.1, m.2.2⟩
                  have less := Finset.card_le_card smaller
                  rw [Finset.card_erase_of_mem fresh] at less
                  have positive := Finset.card_pos.mpr ⟨a, fresh⟩
                  omega
                have further := ih fewer (closed a)
                cases eq : climb parent known missing fuel (a :: visited) (parent a) with
                | reached => exact nofun
                | broken => exact nofun
                | exhausted => exact absurd eq further

/-- Present members alone are passed, so the chain is no longer than their number. -/
theorem Climbs.length_le {members : Finset α} (closed : ∀ a p, parent a = some p → p ∈ members ∨ missing p = true)
    {a : α} {chain : List α} (climbs : Climbs parent a chain) (start : a ∈ members ∨ missing a = true)
    (inside : ∀ b ∈ chain, missing b = false) : chain.length ≤ members.card := by
  have within : chain.toFinset ⊆ members := by
    intro b m
    rw [List.mem_toFinset] at m
    have present : ¬ missing b = true := by
      rw [inside b m]
      exact nofun
    rcases climbs.mem m with rfl | above
    · exact start.resolve_right present
    · obtain ⟨c, -, up⟩ := Relation.TransGen.tail'_iff.mp above
      exact (closed c b up).resolve_right present
  rw [← List.toFinset_card_of_nodup climbs.nodup]
  exact Finset.card_le_card within

/-- A climb without missing members is broken on a cycle, if the members visited lie
below the current one. -/
theorem climb_broken {fuel : Nat} {visited : List α} {current : Option α}
    (below : ∀ b ∈ visited, ∀ a, current = some a → Relation.TransGen (ParentOf parent) b a)
    (ended : climb parent known (fun _ => false) fuel visited current = .broken) :
    ∃ a b, current = some a ∧ Relation.ReflTransGen (ParentOf parent) a b ∧ Relation.TransGen (ParentOf parent) b b := by
  induction fuel generalizing visited current with
  | zero =>
      cases current with
      | none => cases ended
      | some a =>
          rw [climb] at ended
          split at ended <;> cases ended
  | succ fuel ih =>
      cases current with
      | none => cases ended
      | some a =>
          rw [climb] at ended
          split at ended
          · cases ended
          · split at ended
            · next again =>
                have old : a ∈ visited := again.resolve_right nofun
                exact ⟨a, a, rfl, .refl, below a old a rfl⟩
            · cases further : climb parent known (fun _ => false) fuel (a :: visited) (parent a) with
              | reached => rw [further] at ended; cases ended
              | exhausted => rw [further] at ended; cases ended
              | broken =>
                  have deeper : ∀ b ∈ a :: visited, ∀ p, parent a = some p → Relation.TransGen (ParentOf parent) b p := by
                    intro b m p up
                    rcases List.mem_cons.mp m with rfl | old
                    · exact .single up
                    · exact .tail (below b old a rfl) up
                  obtain ⟨p, b, up, reach, cycle⟩ := ih deeper further
                  exact ⟨a, b, rfl, .head up reach, cycle⟩

omit [DecidableEq α] in
theorem Climbs.mem_iff {a : α} {chain : List α} (climbs : Climbs parent a chain) (b : α) :
    b ∈ chain ↔ b = a ∨ Relation.TransGen (ParentOf parent) a b := by
  refine ⟨climbs.mem, fun above => ?_⟩
  induction climbs with
  | @top a none =>
      rcases above with rfl | above
      · exact List.mem_singleton_self _
      · obtain ⟨p, up, -⟩ := Relation.TransGen.head'_iff.mp above
        rw [ParentOf, none] at up
        cases up
  | @up a p rest up _ ih =>
      rcases above with rfl | above
      · exact List.mem_cons_self
      · obtain ⟨q, up', reach⟩ := Relation.TransGen.head'_iff.mp above
        rw [ParentOf, up, Option.some.injEq] at up'
        subst up'
        exact List.mem_cons_of_mem _ (ih (Relation.reflTransGen_iff_eq_or_transGen.mp reach))

/-- Without missing members, a member is grounded unless it leads to a cycle. -/
theorem grounded_iff {members : Finset α} (closed : ∀ a p, parent a = some p → p ∈ members) {a : α} :
    Grounded parent (fun _ => false) a ↔
      ¬ ∃ b, Relation.ReflTransGen (ParentOf parent) a b ∧ Relation.TransGen (ParentOf parent) b b := by
  constructor
  · rintro ⟨chain, climbs, -⟩ ⟨b, reach, cycle⟩
    rcases Relation.reflTransGen_iff_eq_or_transGen.mp reach with rfl | above
    · exact climbs.not_above_itself cycle
    · obtain ⟨rest, climbs', -⟩ := climbs.shorter above
      exact climbs'.not_above_itself cycle
  · intro none
    have goes : climb parent (fun _ => false) (fun _ => false) ((insert a members).card + 1) [] (some a) ≠ .exhausted :=
      climb_ne_exhausted (fun b p up => .inl (Finset.mem_insert_of_mem (closed b p up)))
        (Nat.lt_succ_of_le (Finset.card_le_card Finset.sdiff_subset))
        fun b same => .inl (Option.some.inj same ▸ Finset.mem_insert_self _ _)
    cases ended : climb parent (fun _ => false) (fun _ => false) ((insert a members).card + 1) [] (some a) with
    | reached chain => exact (climb_reached nofun ended).1 a rfl
    | broken =>
        obtain ⟨b, c, same, reach, cycle⟩ := climb_broken nofun ended
        cases same
        exact absurd ⟨c, reach, cycle⟩ none
    | exhausted => exact absurd ended goes

/-- A climb past the visited members passes the chain to the top if there is one, and
is broken if there is none. -/
theorem climb_eq {members : Finset α} (closed : ∀ a p, parent a = some p → p ∈ members ∨ missing p = true)
    {fuel : Nat} (enough : members.card < fuel) {visited : List α} {a : α} (start : a ∈ members ∨ missing a = true) :
    (∀ chain, Climbs parent a chain → (∀ b ∈ chain, missing b = false) → (∀ b ∈ chain, b ∉ visited) →
      climb parent (fun _ => false) missing fuel visited (some a) = .reached chain) ∧
    (¬ Grounded parent missing a → climb parent (fun _ => false) missing fuel visited (some a) = .broken) := by
  constructor
  · intro chain climbs inside fresh
    have short := climbs.length_le closed start inside
    obtain ⟨passed, ended, -, all⟩ := @climb_of_climbs α _ parent (fun _ => false) missing a chain climbs inside fuel
      (Nat.le_trans short (Nat.le_of_lt enough)) visited fresh
    rw [ended, all fun _ => rfl]
  · intro none
    have fewer : (members \ visited.toFinset).card < fuel :=
      Nat.lt_of_le_of_lt (Finset.card_le_card Finset.sdiff_subset) enough
    have goes : climb parent (fun _ => false) missing fuel visited (some a) ≠ .exhausted :=
      climb_ne_exhausted closed fewer fun b same => Option.some.inj same ▸ start
    cases ended : climb parent (fun _ => false) missing fuel visited (some a) with
    | reached chain => exact absurd ((climb_reached nofun ended).1 a rfl) none
    | broken => rfl
    | exhausted => exact absurd ended goes

end Container
