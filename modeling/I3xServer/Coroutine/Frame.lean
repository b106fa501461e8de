import I3xServer.Coroutine.Named

/-!
# Framing

What a program keeps on its way can be added to what is known of it. The added
fact reads the shared state and the history only, so it needs no ghosts; the
specification it is added to is used as it stands. Likewise for what is known of
every answer of a program.
-/
namespace Coroutine
variable {σ L N Q C O G α β : Type} {R : Q → Type}

namespace Program
variable {F : σ → History N Q R C O → Prop} {t : Tag C}

/-- Every act and every exchange of the program keeps the fact, whatever the outside does. -/
def Keeps (F : σ → History N Q R C O → Prop) (t : Tag C) : Program σ L N Q R α → Prop
  | .ret _ => True
  | .act f log k => ∀ s, (∀ h, F s h → F (f s) (noted t (log s) ++ h)) ∧ (k s).Keeps F t
  | .lock _ k => k.Keeps F t
  | .unlock _ k => k.Keeps F t
  | .request q k => (∀ s h, F s h → F s (.requested t q :: h)) ∧
      ∀ r, (∀ s h, F s h → F s (.replied t q r :: h)) ∧ (k r).Keeps F t

/-- Every answer of the program is in `P`. -/
def Answers (P : α → Prop) : Program σ L N Q R α → Prop
  | .ret a => P a
  | .act _ _ k => ∀ s, (k s).Answers P
  | .lock _ k => k.Answers P
  | .unlock _ k => k.Answers P
  | .request _ k => ∀ r, (k r).Answers P

/-- Every request of the program is in `P`. -/
def Asks (P : Q → Prop) : Program σ L N Q R α → Prop
  | .ret _ => True
  | .act _ _ k => ∀ s, (k s).Asks P
  | .lock _ k => k.Asks P
  | .unlock _ k => k.Asks P
  | .request q k => P q ∧ ∀ r, (k r).Asks P

theorem Answers.bind {P : β → Prop} {p : Program σ L N Q R α} {g : α → Program σ L N Q R β}
    (h : ∀ a, (g a).Answers P) : (p.bind g).Answers P := by
  induction p with
  | ret a => exact h a
  | act f log k ih => exact ih
  | lock l k ih => exact ih
  | unlock l k ih => exact ih
  | request q k ih => exact ih

theorem Asks.bind {P : Q → Prop} {p : Program σ L N Q R α} {g : α → Program σ L N Q R β} (first : p.Asks P)
    (h : ∀ a, (g a).Asks P) : (p.bind g).Asks P := by
  induction p with
  | ret a => exact h a
  | act f log k ih => exact fun s => ih s (first s)
  | lock l k ih => exact ih first
  | unlock l k ih => exact ih first
  | request q k ih => exact ⟨first.1, fun r => ih r (first.2 r)⟩

theorem Asks.any (p : Program σ L N Q R α) : p.Asks fun _ => True := by
  induction p with
  | ret a => trivial
  | act f log k ih => exact ih
  | lock l k ih => exact ih
  | unlock l k ih => exact ih
  | request q k ih => exact ⟨trivial, ih⟩

theorem Asks.ask {P : Q → Prop} {q : Q} (may : P q) : (Program.ask q : Program σ L N Q R (R q)).Asks P :=
  ⟨may, fun _ => trivial⟩

theorem Asks.locked {P : Q → Prop} (l : L) (f : σ → α × σ × List N) :
    (Program.locked l f : Program σ L N Q R α).Asks P := fun _ => trivial

/-- A fact that the updates of a relation keep is kept by a program that stays
within it and asks only what the fact bears. -/
theorem Keeps.of_within {T : Memory N Q R → σ → List N → σ → Prop} {P : Q → Prop}
    (act : ∀ m s ns s' h, F s h → T m s ns s' → F s' (noted t ns ++ h))
    (requested : ∀ q s h, P q → F s h → F s (.requested t q :: h))
    (replied : ∀ q r s h, P q → F s h → F s (.replied t q r :: h))
    {p : Program σ L N Q R α} {m : Memory N Q R} (inside : p.WithinFrom T m) (asks : p.Asks P) :
    p.Keeps F t := by
  induction p generalizing m with
  | ret a => trivial
  | act f log k ih => exact fun s => ⟨fun h holds => act m s _ _ h holds (inside s).1, ih s (inside s).2 (asks s)⟩
  | lock l k ih => exact ih inside asks
  | unlock l k ih => exact ih inside asks
  | request q k ih =>
      refine ⟨fun s h => requested q s h asks.1, fun r => ⟨fun s h => replied q r s h asks.1, ?_⟩⟩
      exact ih r (inside r) (asks.2 r)

end Program

section
variable [DecidableEq L] [Fintype L] {mayReply : σ → σ → (q : Q) → R q → Prop}
  {J : σ → History N Q R C O → Multiset (Entry C G) → Prop} {F : σ → History N Q R C O → Prop} {t : Tag C}

/-- The invariant together with a fact about state and history. -/
def Framed (J : σ → History N Q R C O → Multiset (Entry C G) → Prop) (F : σ → History N Q R C O → Prop)
    (s : σ) (h : History N Q R C O) (B : Multiset (Entry C G)) : Prop := J s h B ∧ F s h

omit [DecidableEq L] in
theorem named_framed {v : View σ L N Q R C O G} :
    Named (Framed J F) v ↔ Named J v ∧ F v.state v.history :=
  ⟨fun ⟨distinct, holds⟩ => ⟨⟨distinct, holds.1⟩, holds.2⟩, fun ⟨⟨distinct, holds⟩, fact⟩ => ⟨distinct, holds, fact⟩⟩

omit [DecidableEq L] in
theorem runs_framed {g : G} {v : View σ L N Q R C O G} :
    Runs (Framed J F) t g v ↔ Runs J t g v ∧ F v.state v.history :=
  ⟨fun ⟨running, holds⟩ => ⟨⟨running, holds.1⟩, holds.2⟩, fun ⟨⟨running, holds⟩, fact⟩ => ⟨running, holds, fact⟩⟩

/-- The frame rule. -/
theorem wp_frame {post : α → View σ L N Q R C O G → Prop} {p : Program σ L N Q R α}
    {v : View σ L N Q R C O G} (h : wp mayReply (Named J) t post p v) (keeps : p.Keeps F t)
    (fact : F v.state v.history) :
    wp mayReply (Named (Framed J F)) t (fun a w => post a w ∧ F w.state w.history) p v := by
  induction p generalizing v with
  | ret a => exact ⟨h, fact⟩
  | act f log k ih => exact ih _ h (keeps v.state).2 ((keeps v.state).1 _ fact)
  | unlock l k ih => exact ih h keeps fact
  | lock l k ih =>
      obtain ⟨g, parked, resume⟩ := h
      refine ⟨g, named_framed.mpr ⟨parked, fact⟩, fun v' free named => ?_⟩
      obtain ⟨named, fact'⟩ := named_framed.mp named
      exact ih (resume v' free named) keeps fact'
  | request q k ih =>
      obtain ⟨g, parked, resume⟩ := h
      refine ⟨g, named_framed.mpr ⟨parked, keeps.1 _ _ fact⟩, fun v' r may named => ?_⟩
      obtain ⟨named, fact'⟩ := named_framed.mp named
      exact ih r (resume v' r may named) (keeps.2 r).2 ((keeps.2 r).1 _ _ fact')

omit [DecidableEq L] [Fintype L] in
theorem wp_answers {I : View σ L N Q R C O G → Prop} [DecidableEq L] {P : α → Prop}
    {post : α → View σ L N Q R C O G → Prop} {p : Program σ L N Q R α} {v : View σ L N Q R C O G}
    (h : wp mayReply I t post p v) (answers : p.Answers P) :
    wp mayReply I t (fun a w => post a w ∧ P a) p v := by
  induction p generalizing v with
  | ret a => exact ⟨h, answers⟩
  | act f log k ih => exact ih _ h (answers _)
  | unlock l k ih => exact ih h answers
  | lock l k ih =>
      obtain ⟨g, parked, resume⟩ := h
      exact ⟨g, parked, fun v' free inv => ih (resume v' free inv) answers⟩
  | request q k ih =>
      obtain ⟨g, parked, resume⟩ := h
      exact ⟨g, parked, fun v' r may inv => ih r (resume v' r may inv) (answers r)⟩

end
end Coroutine
