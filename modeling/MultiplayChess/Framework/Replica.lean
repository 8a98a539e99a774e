import Mathlib.Data.List.Basic

/-! # Replicas

    A replica follows a source by the news it gets from it: a reset to some
    state, or an update to apply.  A replica that has taken in a prefix of
    one reset and the updates after it, in order, is where the source was
    after as many updates. -/

namespace Replica

universe u v w

variable {σ : Type u} {υ : Type v}

inductive News (σ : Type u) (υ : Type v) where
  | reset (s : σ)
  | update (a : υ)

/-- The news is an update. -/
def News.is_update : News σ υ → Bool
  | .reset _ => false
  | .update _ => true

/-- Take in one piece of news. -/
def News.apply (step : σ → υ → σ) (s : σ) : News σ υ → σ
  | .reset s₀ => s₀
  | .update a => step s a

/-- Take in news one after the other. -/
def follow (step : σ → υ → σ) (s : σ) (news : List (News σ υ)) : σ :=
  news.foldl (News.apply step) s

@[simp] theorem follow_append (step : σ → υ → σ) (s : σ) (news news' : List (News σ υ)) :
    follow step s (news ++ news') = follow step (follow step s news) news' :=
  List.foldl_append

theorem follow_updates (step : σ → υ → σ) (s : σ) (us : List υ) :
    follow step s (us.map .update) = us.foldl step s := by
  unfold follow
  rw [List.foldl_map]
  rfl

/-- **A replica lags, but does not drift.** -/
theorem follow_prefix {step : σ → υ → σ} {news : List (News σ υ)} {s₀ : σ} {us : List υ}
    (h : news <+: .reset s₀ :: us.map .update) (hne : news ≠ []) (s : σ) :
    ∃ k, k ≤ us.length ∧ news = .reset s₀ :: (us.take k).map .update ∧
      follow step s news = (us.take k).foldl step s₀ := by
  cases news with
  | nil => exact absurd rfl hne
  | cons n news =>
    obtain ⟨rfl, htail⟩ := List.cons_prefix_cons.mp h
    have htake := List.prefix_iff_eq_take.mp htail
    rw [← List.map_take] at htake
    refine ⟨news.length, ?_, by rw [← htake], ?_⟩
    · have := htail.length_le
      rwa [List.length_map] at this
    · show follow step s₀ news = _
      rw [← follow_updates, ← htake]

/-- A reset is not counted as an update. -/
theorem countP_is_update (s : σ) (us : List υ) :
    (News.reset s :: us.map .update).countP News.is_update = us.length := by
  rw [List.countP_cons_of_neg (by exact Bool.false_ne_true), List.countP_map]
  exact List.countP_eq_length.mpr fun _ _ => rfl

/-- A replica that updates with its own encoding `enc` of each update stays
    with the source, if the encodings of an update all do the same. -/
theorem foldl_congr₂ {υ' : Type w} {step : σ → υ → σ} {step' : σ → υ' → σ} {R : υ' → υ → Prop}
    (hstep : ∀ s a' a, R a' a → step' s a' = step s a) {as' : List υ'} {as : List υ}
    (h : List.Forall₂ R as' as) (s : σ) : as'.foldl step' s = as.foldl step s := by
  induction h generalizing s with
  | nil => rfl
  | cons hR _ ih =>
    rw [List.foldl_cons, List.foldl_cons, hstep _ _ _ hR]
    exact ih _

/-! ## Histories

    A reader of the news may keep the updates themselves, one by one. -/

/-- The news, read with the history `ms` in mind, end with another one.  A
    reset begins a new history; an update adds the entry that `R` reads from
    it, and every history reached is one of `P`. -/
inductive Recounts {μ : Type w} (R : υ → μ → Prop) (P : List μ → Prop) :
    List μ → List (News σ υ) → List μ → Prop where
  | nil {ms : List μ} : Recounts R P ms [] ms
  | reset {s : σ} {ms ms' : List μ} {news : List (News σ υ)} :
      Recounts R P [] news ms' → Recounts R P ms (.reset s :: news) ms'
  | update {a : υ} {m : μ} {ms ms' : List μ} {news : List (News σ υ)} :
      R a m → P (ms ++ [m]) → Recounts R P (ms ++ [m]) news ms' →
      Recounts R P ms (.update a :: news) ms'

section histories

variable {μ : Type w} {R : υ → μ → Prop} {P Q : List μ → Prop} {ms ms' ms'' : List μ}
  {news news' : List (News σ υ)}

theorem Recounts.append (h : Recounts R P ms news ms') (h' : Recounts R P ms' news' ms'') :
    Recounts R P ms (news ++ news') ms'' := by
  induction h with
  | nil => exact h'
  | reset _ ih => exact .reset (ih h')
  | update ha hm _ ih => exact .update ha hm (ih h')

theorem Recounts.mono (hPQ : ∀ ms, P ms → Q ms) (h : Recounts R P ms news ms') :
    Recounts R Q ms news ms' := by
  induction h with
  | nil => exact .nil
  | reset _ ih => exact .reset ih
  | update ha hm _ ih => exact .update ha (hPQ _ hm) ih

end histories

end Replica
