import Mathlib.Data.List.Induction

/-! # Families of runs

    A deterministic step function takes in a list of events that depend on
    a parameter: one run for each value of it.  An observation does not
    depend on the parameter if all runs of the family look the same after
    every event.  The unwinding rule finds out exactly when: with a relation
    that ties the runs together it is enough to look at one event. -/

namespace Unwinding

universe u v w x

variable {σ : Type u} {ε : Type v} {κ : Type w} {ο : Type x}

/-- The state after the events, for each value of the parameter. -/
def family (step : σ → ε → σ) (vary : κ → ε → ε) (s : σ) (es : List ε) (k : κ) : σ :=
  (es.map (vary k)).foldl step s

/-- After every event all runs look the same. -/
def Indistinguishable (step : σ → ε → σ) (vary : κ → ε → ε) (obs : σ → ο) (s : σ)
    (es : List ε) : Prop :=
  ∀ pre, pre <+: es → ∀ k k',
    obs (family step vary s pre k) = obs (family step vary s pre k')

/-- Every event meets the condition, which may depend on the events before. -/
def Everywhere (ok : List ε → ε → Prop) (es : List ε) : Prop :=
  ∀ pre e, pre ++ [e] <+: es → ok pre e

section

variable {step : σ → ε → σ} {vary : κ → ε → ε} {obs : σ → ο} {s : σ} {es : List ε} {e : ε}
  {ok : List ε → ε → Prop}

theorem family_snoc (k : κ) : family step vary s (es ++ [e]) k =
    step (family step vary s es k) (vary k e) := by
  unfold family
  rw [List.map_append, List.foldl_append]
  rfl

theorem everywhere_snoc : Everywhere ok (es ++ [e]) ↔ Everywhere ok es ∧ ok es e := by
  constructor
  · intro h
    exact ⟨fun pre e' hpre => h pre e' (hpre.trans (List.prefix_append ..)),
      h es e (List.prefix_refl _)⟩
  · intro ⟨h, hlast⟩ pre e' hpre
    rcases List.prefix_concat_iff.mp hpre with heq | hpre
    · obtain ⟨rfl, he⟩ := List.append_inj' heq rfl
      cases he
      exact hlast
    · exact h pre e' hpre

theorem indistinguishable_snoc : Indistinguishable step vary obs s (es ++ [e]) ↔
    Indistinguishable step vary obs s es ∧ ∀ k k',
      obs (step (family step vary s es k) (vary k e)) =
        obs (step (family step vary s es k') (vary k' e)) := by
  constructor
  · intro h
    constructor
    · intro pre hpre
      exact h pre (hpre.trans (List.prefix_append ..))
    · intro k k'
      have hlast := h _ (List.prefix_refl _) k k'
      rwa [family_snoc, family_snoc] at hlast
  · intro ⟨h, hlast⟩ pre hpre k k'
    rcases List.prefix_concat_iff.mp hpre with rfl | hpre
    · rw [family_snoc, family_snoc]
      exact hlast k k'
    · exact h pre hpre k k'

/-- **Unwinding.** `Rel` holds of the family at the start and is kept by the
    events that meet the condition; and as long as it holds, these are the
    events after which all runs look the same.  Then the runs look the same
    throughout exactly if all events meet the condition. -/
theorem indistinguishable_iff {Rel : List ε → (κ → σ) → Prop} (hinit : Rel [] fun _ => s)
    (hkeep : ∀ es e runs, Rel es runs → ok es e →
      Rel (es ++ [e]) fun k => step (runs k) (vary k e))
    (hlooks : ∀ es e runs, Rel es runs →
      ((∀ k k', obs (step (runs k) (vary k e)) = obs (step (runs k') (vary k' e))) ↔ ok es e)) :
    Indistinguishable step vary obs s es ↔ Everywhere ok es := by
  have hrel : ∀ es, Everywhere ok es → Rel es (family step vary s es) := by
    intro es
    induction es using List.reverseRecOn with
    | nil =>
      intro _
      exact hinit
    | append_singleton es e ih =>
      intro h
      obtain ⟨hbefore, hlast⟩ := everywhere_snoc.mp h
      have hnext := hkeep es e _ (ih hbefore) hlast
      simpa only [← family_snoc] using hnext
  induction es using List.reverseRecOn with
  | nil =>
    constructor
    · intro _ pre e hpre
      exact absurd (List.prefix_nil.mp hpre) (List.append_ne_nil_of_right_ne_nil _ (by simp))
    · intro _ pre hpre k k'
      rw [List.prefix_nil.mp hpre]
      rfl
  | append_singleton es e ih =>
    rw [indistinguishable_snoc, everywhere_snoc]
    constructor
    · intro ⟨hbefore, hlast⟩
      have hok := ih.mp hbefore
      exact ⟨hok, (hlooks es e _ (hrel es hok)).mp hlast⟩
    · intro ⟨hok, hlast⟩
      exact ⟨ih.mpr hok, (hlooks es e _ (hrel es hok)).mpr hlast⟩

end

end Unwinding
