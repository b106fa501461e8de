import I3xServer.Coroutine.Logic
import Mathlib.Algebra.BigOperators.Group.Finset.Basic

/-!
# Invariants that ignore queue positions

Most invariants read only the state, the history and which tasks are suspended
with which ghosts. For them a view reduces to a multiset of entries, suspension
adds one entry wherever it happens, and the rules lose the lock bookkeeping.
-/
namespace Coroutine
variable {σ L N Q C O G α β : Type} {R : Q → Type}

abbrev History (N Q : Type) (R : Q → Type) (C O : Type) := List (Event N Q R C O)

/-- The events noted by one update, newest first. -/
def noted (t : Tag C) (ns : List N) : History N Q R C O := (ns.map (Event.noted t)).reverse

section
variable [DecidableEq L] [Fintype L]

namespace View

/-- All suspended tasks. -/
def bag (v : View σ L N Q R C O G) : Multiset (Entry C G) :=
  (∑ l, (↑(v.queue l) : Multiset (Entry C G))) + v.idle

theorem bag_update (v : View σ L N Q R C O G) (l : L) (e : Entry C G) (es : List (Entry C G))
    (h : (↑es : Multiset (Entry C G)) = e ::ₘ ↑(v.queue l)) :
    ({ v with queue := Function.update v.queue l es } : View σ L N Q R C O G).bag = e ::ₘ v.bag := by
  have split : ∀ q : L → List (Entry C G), (∑ l', (↑(q l') : Multiset (Entry C G))) =
      ↑(q l) + ∑ l' ∈ Finset.univ.erase l, (↑(q l') : Multiset (Entry C G)) := fun q =>
    (Finset.add_sum_erase Finset.univ (fun l' => (↑(q l') : Multiset (Entry C G)))
      (Finset.mem_univ l)).symm
  have rest : ∑ l' ∈ Finset.univ.erase l, (↑(Function.update v.queue l es l') : Multiset (Entry C G)) =
      ∑ l' ∈ Finset.univ.erase l, (↑(v.queue l') : Multiset (Entry C G)) := by
    refine Finset.sum_congr rfl fun l' m => ?_
    rw [Function.update_of_ne (Finset.ne_of_mem_erase m)]
  simp only [bag]
  rw [split, split v.queue, Function.update_self, rest, h, Multiset.cons_add, Multiset.cons_add]

@[simp] theorem bag_enqueue (v : View σ L N Q R C O G) (l : L) (e : Entry C G) :
    (v.enqueue l e).bag = e ::ₘ v.bag := by
  refine v.bag_update l e _ ?_
  rw [← Multiset.coe_add, Multiset.coe_singleton, Multiset.add_comm, Multiset.singleton_add]

@[simp] theorem bag_ahead (v : View σ L N Q R C O G) (l : L) (e : Entry C G) :
    (v.ahead l e).bag = e ::ₘ v.bag := v.bag_update l e _ rfl

omit [DecidableEq L] in
@[simp] theorem bag_park (v : View σ L N Q R C O G) (e : Entry C G) :
    (v.park e).bag = e ::ₘ v.bag := Multiset.add_cons _ _ _

omit [DecidableEq L] in
@[simp] theorem bag_withMachine (v : View σ L N Q R C O G) (m : Machine σ L N Q R C O) :
    (v.withMachine m).bag = v.bag := rfl

omit [DecidableEq L] in
theorem mem_bag (v : View σ L N Q R C O G) (e : Entry C G) : e ∈ v.bag ↔ v.Present e := by
  simp only [bag, Multiset.mem_add, Multiset.mem_sum, Finset.mem_univ, true_and, Multiset.mem_coe,
    Present]

end View

variable (mayReply : σ → σ → (q : Q) → R q → Prop)
  (J : σ → History N Q R C O → Multiset (Entry C G) → Prop) (t : Tag C)

def Unordered (v : View σ L N Q R C O G) : Prop := J v.state v.history v.bag

/-- The invariant as the running task sees it when it could suspend with ghost `g`. -/
def Carries (g : G) (v : View σ L N Q R C O G) : Prop := J v.state v.history (⟨t, g⟩ ::ₘ v.bag)

/-- The invariant does not look at requests and replies. -/
structure Quiet : Prop where
  requested : ∀ s h B t q, J s h B → J s (.requested t q :: h) B
  replied : ∀ s h B t q r, J s h B → J s (.replied t q r :: h) B

variable {mayReply J t}

theorem unordered_enqueue (v : View σ L N Q R C O G) (l : L) (g : G) :
    Unordered J (v.enqueue l ⟨t, g⟩) ↔ Carries J t g v := by
  rw [Unordered, View.bag_enqueue]; rfl

theorem unordered_ahead (v : View σ L N Q R C O G) (l : L) (g : G) :
    Unordered J (v.ahead l ⟨t, g⟩) ↔ Carries J t g v := by
  rw [Unordered, View.bag_ahead]; rfl

omit [DecidableEq L] in
theorem unordered_park (v : View σ L N Q R C O G) (g : G) :
    Unordered J (v.park ⟨t, g⟩) ↔ Carries J t g v := by
  rw [Unordered, View.bag_park]; rfl

/-- A task keeps its ghost through a program whose every act keeps the invariant. -/
theorem Carries.stable {g : G} {T : Program.Memory N Q R → σ → List N → σ → Prop} (quiet : Quiet J)
    (act : ∀ m s h B ns s', J s h (⟨t, g⟩ ::ₘ B) → T m s ns s' → J s' (noted t ns ++ h) (⟨t, g⟩ ::ₘ B)) :
    Stable mayReply (Unordered J : View σ L N Q R C O G → Prop) t T (fun _ => Carries J t g) where
  act m v _ _ h moves := act m v.state v.history v.bag _ _ h moves
  unlock _ _ _ h := h
  lock _ _ l h := ⟨g, (unordered_enqueue _ l g).mpr h, fun v' _ h' => (unordered_ahead v' l g).mp h'⟩
  request _ _ q h :=
    ⟨g, (unordered_park _ g).mpr (quiet.requested _ _ _ t q h), fun v' _ _ h' =>
      quiet.replied _ _ _ _ _ _ ((unordered_park v' g).mp h')⟩

theorem wp_acquire_unordered {post : Unit → View σ L N Q R C O G → Prop} (l : L)
    {v : View σ L N Q R C O G} (g : G) (parked : Carries J t g v)
    (resume : ∀ v' : View σ L N Q R C O G, Carries J t g v' → post () v') :
    wp mayReply (Unordered J) t post (.acquire l) v := by
  refine ⟨g, (unordered_enqueue v l g).mpr parked, fun v' _ inv => resume _ ?_⟩
  exact (unordered_ahead v' l g).mp inv

theorem wp_locked_unordered {post : α → View σ L N Q R C O G → Prop} (l : L)
    (f : σ → α × σ × List N) {v : View σ L N Q R C O G} (g : G) (parked : Carries J t g v)
    (resume : ∀ v' : View σ L N Q R C O G, Carries J t g v' →
      ∀ w : View σ L N Q R C O G, w.state = (f v'.state).2.1 →
        w.history = noted t (f v'.state).2.2 ++ v'.history → w.bag = v'.bag →
        post (f v'.state).1 w) :
    wp mayReply (Unordered J) t post (.locked l f) v :=
  wp_locked l f g ((unordered_enqueue v l g).mpr parked) fun v' _ inv =>
    resume v' ((unordered_ahead v' l g).mp inv) _ rfl rfl rfl

end
end Coroutine
