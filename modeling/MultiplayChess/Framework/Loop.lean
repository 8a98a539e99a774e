import Mathlib.Data.List.Basic
import Mathlib.Data.List.Induction

/-! # Fallible steps and loops

    Inversion of a sequence of fallible steps, and the rules for a loop
    over the slots of a table whose round `i` touches slot `i` only. -/

namespace Loop

universe u v w

variable {ε : Type u} {σ ι : Type v} {α : Type w}

/-- A sequence of two steps succeeds iff both do. -/
theorem bind_eq_ok {β γ : Type v} {x : Except ε β} {f : β → Except ε γ} {c : γ} :
    (x >>= f) = .ok c ↔ ∃ b, x = .ok b ∧ f b = .ok c := by
  cases x with
  | error e =>
    constructor
    · intro h
      cases h
    · intro ⟨_, h, _⟩
      cases h
  | ok b =>
    refine ⟨fun h => ⟨b, rfl, h⟩, ?_⟩
    intro ⟨b', hb, h⟩
    cases hb
    exact h

/-- A sequence of two steps fails in the first or, behind it, in the
    second. -/
theorem bind_eq_error {β γ : Type v} {x : Except ε β} {f : β → Except ε γ} {e : ε} :
    (x >>= f) = .error e ↔ x = .error e ∨ ∃ b, x = .ok b ∧ f b = .error e := by
  cases x with
  | error e' =>
    constructor
    · intro h
      cases h
      exact .inl rfl
    · intro h
      rcases h with h | ⟨_, h, _⟩
      · cases h
        rfl
      · cases h
  | ok b =>
    constructor
    · intro h
      exact .inr ⟨b, rfl, h⟩
    · intro h
      rcases h with h | ⟨b', hb, h⟩
      · cases h
      · cases hb
        exact h

theorem map_eq_error {β γ : Type v} {g : β → γ} {x : Except ε β} {e : ε} :
    x.map g = .error e ↔ x = .error e := by
  cases x with
  | error e' =>
    constructor
    · intro h
      cases h
      rfl
    · intro h
      cases h
      rfl
  | ok b =>
    constructor
    · intro h
      cases h
    · intro h
      cases h

theorem map_eq_ok {β γ : Type v} {g : β → γ} {x : Except ε β} {c : γ} :
    x.map g = .ok c ↔ ∃ b, x = .ok b ∧ g b = c := by
  cases x with
  | error e =>
    constructor
    · intro h
      cases h
    · intro ⟨_, h, _⟩
      cases h
  | ok b =>
    constructor
    · intro h
      cases h
      exact ⟨b, rfl, rfl⟩
    · intro ⟨b', hb, hc⟩
      cases hb
      exact congrArg Except.ok hc

theorem toOption_eq_some {β : Type v} {x : Except ε β} {b : β} :
    x.toOption = some b ↔ x = .ok b := by
  cases x with
  | error e =>
    constructor
    · intro h
      cases h
    · intro h
      cases h
  | ok b' =>
    constructor
    · intro h
      cases h
      rfl
    · intro h
      cases h
      rfl

/-- A loop fails in one of its rounds, with the rounds before it done. -/
theorem foldlM_eq_error {f : σ → ι → Except ε σ} {e : ε} {l : List ι} : ∀ {s : σ},
    l.foldlM f s = .error e ↔ ∃ done i todo t, l = done ++ i :: todo ∧
      done.foldlM f s = .ok t ∧ f t i = .error e := by
  induction l with
  | nil =>
    intro s
    constructor
    · intro h
      cases h
    · intro ⟨done, i, todo, _, hl, _⟩
      cases done with
      | nil => cases hl
      | cons _ _ => cases hl
  | cons i l ih =>
    intro s
    rw [List.foldlM_cons, bind_eq_error]
    constructor
    · intro h
      rcases h with h | ⟨t, ht, h⟩
      · exact ⟨[], i, l, s, rfl, rfl, h⟩
      · obtain ⟨done, j, todo, u, hl, hdone, hj⟩ := ih.mp h
        use i :: done, j, todo, u
        rw [hl]
        exact ⟨rfl, by rw [List.foldlM_cons]; exact bind_eq_ok.mpr ⟨t, ht, hdone⟩, hj⟩
    · intro ⟨done, j, todo, u, hl, hdone, hj⟩
      cases done with
      | nil =>
        cases hl
        cases hdone
        exact .inl hj
      | cons k done =>
        cases hl
        rw [List.foldlM_cons] at hdone
        obtain ⟨t, ht, hdone⟩ := bind_eq_ok.mp hdone
        exact .inr ⟨t, ht, ih.mpr ⟨done, j, todo, u, rfl, hdone, hj⟩⟩

/-- **Loop rule.** What holds before the first round, and after each round
    of the items done so far, holds of all items at the end. -/
theorem foldlM_prefix {f : σ → ι → Except ε σ} {P : List ι → σ → Prop} {l : List ι}
    (hstep : ∀ done i todo s s', l = done ++ i :: todo → P done s → f s i = .ok s' →
      P (done ++ [i]) s') {s s' : σ} (hs : P [] s) (h : l.foldlM f s = .ok s') : P l s' := by
  have hrest : ∀ (todo done : List ι) (t : σ), l = done ++ todo → P done t →
      todo.foldlM f t = .ok s' → P l s' := by
    intro todo
    induction todo with
    | nil =>
      intro done t hl ht h
      cases h
      rw [hl, List.append_nil]
      exact ht
    | cons i todo ih =>
      intro done t hl ht h
      obtain ⟨u, hu, h⟩ := bind_eq_ok.mp h
      have hl' : l = (done ++ [i]) ++ todo := by
        rw [hl, List.append_assoc]
        rfl
      exact ih (done ++ [i]) u hl' (hstep done i todo t u hl ht hu) h
  exact hrest l [] s rfl hs h

/-- What every round of the loop keeps holds at its end. -/
theorem foldlM_invariant {f : σ → ι → Except ε σ} {P : σ → Prop} {l : List ι}
    (hstep : ∀ s i s', P s → f s i = .ok s' → P s') {s s' : σ} (hs : P s)
    (h : l.foldlM f s = .ok s') : P s' :=
  foldlM_prefix (P := fun _ => P) (fun _ i _ s s' _ => hstep s i s') hs h

/-- A loop over different slots that only touches the slot it visits finds
    each slot as it was before the loop. -/
theorem foldlM_visit {f : σ → ι → Except ε σ} (view : σ → ι → α)
    (hother : ∀ s i s' j, f s i = .ok s' → j ≠ i → view s' j = view s j)
    {P : List ι → σ → Prop} {l : List ι} (hnodup : l.Nodup) {s s' : σ}
    (hstep : ∀ done i t t', i ∉ done → view t i = view s i → P done t → f t i = .ok t' →
      P (done ++ [i]) t')
    (hs : P [] s) (h : l.foldlM f s = .ok s') : P l s' := by
  have hdone := foldlM_prefix (l := l)
    (P := fun done t => (∀ j, j ∉ done → view t j = view s j) ∧ P done t) ?_ ?_ h
  · exact hdone.2
  · intro done i todo t t' hl ⟨huntouched, hP⟩ hround
    rw [hl] at hnodup
    have hi : i ∉ done := by
      intro hmem
      exact (List.nodup_append.mp hnodup).2.2 i hmem i (List.mem_cons_self ..) rfl
    constructor
    · intro j hj
      rw [List.mem_append, List.mem_singleton, not_or] at hj
      rw [hother t i t' j hround hj.2]
      exact huntouched j hj.1
    · exact hstep done i t t' hi (huntouched i hi) hP hround
  · exact ⟨fun _ _ => rfl, hs⟩

/-- If round `i` relates the old and the new content of slot `i` and leaves
    the other slots alone, then so does the loop for every slot it visits. -/
theorem foldlM_slots [DecidableEq ι] {f : σ → ι → Except ε σ} (view : σ → ι → α)
    {R : ι → α → α → Prop}
    (hown : ∀ s i s', f s i = .ok s' → R i (view s i) (view s' i))
    (hother : ∀ s i s' j, f s i = .ok s' → j ≠ i → view s' j = view s j) :
    ∀ {l : List ι} {s s' : σ}, l.Nodup → l.foldlM f s = .ok s' →
      (∀ i ∈ l, R i (view s i) (view s' i)) ∧ ∀ i, i ∉ l → view s' i = view s i := by
  intro l
  induction l with
  | nil =>
    intro s s' _ h
    cases h
    exact ⟨fun i hi => absurd hi List.not_mem_nil, fun _ _ => rfl⟩
  | cons i l ih =>
    intro s s' hnodup h
    obtain ⟨t, ht, h⟩ := bind_eq_ok.mp h
    obtain ⟨hi, hnodup⟩ := List.nodup_cons.mp hnodup
    -- the rest of the loop does not visit slot `i` again
    obtain ⟨hin, hout⟩ := ih hnodup h
    constructor
    · intro k hk
      -- the first slot is only touched now, the others only later
      by_cases hki : k = i
      · subst hki
        rw [hout k hi]
        exact hown s k t ht
      · have hkl : k ∈ l := (List.mem_cons.mp hk).resolve_left hki
        rw [← hother s i t k ht hki]
        exact hin k hkl
    · intro k hk
      rw [List.mem_cons, not_or] at hk
      rw [hout k hk.2, hother s i t k ht hk.1]

/-- A loop whose round `i` only needs slot `i` succeeds if each of its
    rounds would as the first one. -/
theorem foldlM_isOk_iff {f : σ → ι → Except ε σ} (view : σ → ι → α)
    (hother : ∀ s i s' j, f s i = .ok s' → j ≠ i → view s' j = view s j)
    (hown : ∀ s t i, view s i = view t i → (∃ s', f s i = .ok s') → ∃ t', f t i = .ok t') :
    ∀ {l : List ι} {s : σ}, l.Nodup →
      ((∃ s', l.foldlM f s = .ok s') ↔ ∀ i ∈ l, ∃ s', f s i = .ok s') := by
  intro l
  induction l with
  | nil =>
    intro s _
    exact ⟨fun _ _ hi => absurd hi List.not_mem_nil, fun _ => ⟨s, rfl⟩⟩
  | cons i l ih =>
    intro s hnodup
    obtain ⟨hi, hnodup⟩ := List.nodup_cons.mp hnodup
    constructor
    · intro ⟨s', h⟩ k hk
      obtain ⟨t, ht, h⟩ := bind_eq_ok.mp h
      rcases List.mem_cons.mp hk with rfl | hk
      · exact ⟨t, ht⟩
      · -- the first round has left the slot of this one alone
        have hki : k ≠ i := fun heq => hi (heq ▸ hk)
        exact hown t s k (hother s i t k ht hki) ((ih hnodup).mp ⟨s', h⟩ k hk)
    · intro h
      obtain ⟨t, ht⟩ := h i (List.mem_cons_self ..)
      have hrest : ∀ k ∈ l, ∃ t', f t k = .ok t' := by
        intro k hk
        have hki : k ≠ i := fun heq => hi (heq ▸ hk)
        exact hown s t k (hother s i t k ht hki).symm (h k (List.mem_cons_of_mem _ hk))
      obtain ⟨s', hs'⟩ := (ih hnodup).mpr hrest
      exact ⟨s', bind_eq_ok.mpr ⟨t, ht, hs'⟩⟩

/-! ## What holds in every round -/

/-- In every round the loop comes to, `P` holds of the state before it and
    its item. -/
def Throughout (f : σ → ι → Except ε σ) (P : σ → ι → Prop) (s : σ) (l : List ι) : Prop :=
  ∀ done i todo t, l = done ++ i :: todo → done.foldlM f s = .ok t → P t i

/-- A loop does not fail with `e` iff none of its rounds does. -/
theorem foldlM_ne_error_iff {f : σ → ι → Except ε σ} {e : ε} {s : σ} {l : List ι} :
    l.foldlM f s ≠ .error e ↔ Throughout f (fun t i => f t i ≠ .error e) s l := by
  rw [Ne, foldlM_eq_error]
  constructor
  · intro h done i todo t hl hdone hi
    exact h ⟨done, i, todo, t, hl, hdone, hi⟩
  · intro h ⟨done, i, todo, t, hl, hdone, hi⟩
    exact h done i todo t hl hdone hi

/-- A property that keeps an invariant is replaced in every round by one
    that is equivalent under the invariant. -/
theorem Throughout.congr {f : σ → ι → Except ε σ} {I : σ → Prop} {P Q : σ → ι → Prop}
    (hkeep : ∀ t i t', I t → P t i → f t i = .ok t' → I t')
    (hiff : ∀ t i, I t → (P t i ↔ Q t i)) {s : σ} (hs : I s) {l : List ι} :
    Throughout f P s l ↔ Throughout f Q s l := by
  -- either property carries the invariant through the rounds before
  have reach : ∀ {R : σ → ι → Prop}, (∀ t i, I t → R t i → P t i) → Throughout f R s l →
      ∀ done todo t, l = done ++ todo → done.foldlM f s = .ok t → I t := by
    intro R hR hall done
    induction done using List.reverseRecOn with
    | nil =>
      intro todo t _ ht
      cases ht
      exact hs
    | append_singleton done i ih =>
      intro todo t hl ht
      rw [List.foldlM_append] at ht
      obtain ⟨u, hu, ht⟩ := bind_eq_ok.mp ht
      obtain ⟨t', ht', hlast⟩ := bind_eq_ok.mp ht
      cases hlast
      have hl' : l = done ++ i :: todo := by
        rw [hl, List.append_assoc]
        rfl
      have hI : I u := ih (i :: todo) u hl' hu
      exact hkeep u i t hI (hR u i hI (hall done i todo u hl' hu)) ht'
  constructor
  · intro hall done i todo t hl ht
    have hI := reach (fun _ _ _ h => h) hall done (i :: todo) t hl ht
    exact (hiff t i hI).mp (hall done i todo t hl ht)
  · intro hall done i todo t hl ht
    have hI := reach (fun t i hI h => (hiff t i hI).mpr h) hall done (i :: todo) t hl ht
    exact (hiff t i hI).mpr (hall done i todo t hl ht)

end Loop
