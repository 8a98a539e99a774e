import Mathlib.Algebra.BigOperators.Group.Finset.Basic
import Mathlib.Algebra.Order.BigOperators.Group.Finset
import Mathlib.Data.Fintype.Card
import Mathlib.Tactic.Ring

/-! # Counting

    How many slots of a table are in use, how many steps have gone since the
    last event of a history, and how many are left to a process that spends
    a potential. -/

/-! ## Tables of slots

    A table whose slots carry a flag that says whether the slot is in use,
    and the number of slots in use.  A counter kept beside such a table is
    right if it moves by one with every flag that changes. -/

namespace Slots

universe u

variable {ι : Type u} [Fintype ι]

/-- The number of slots in use. -/
def used (flag : ι → Bool) : Nat :=
  (Finset.univ.filter fun i => flag i = true).card

theorem used_le (flag : ι → Bool) : used flag ≤ Fintype.card ι :=
  Finset.card_filter_le ..

/-- Nothing is in use. -/
theorem used_eq_zero {flag : ι → Bool} (h : ∀ i, flag i = false) : used flag = 0 := by
  apply Finset.card_eq_zero.mpr (Finset.filter_eq_empty_iff.mpr ?_)
  intro i _ hi
  rw [h i] at hi
  cases hi

/-- At most one slot is in use if and only if any two slots in use are the
    same. -/
theorem used_le_one_iff {flag : ι → Bool} :
    used flag ≤ 1 ↔ ∀ i j, flag i = true → flag j = true → i = j := by
  unfold used
  rw [Finset.card_le_one]
  constructor
  · intro h i j hi hj
    exact h i (Finset.mem_filter.mpr ⟨Finset.mem_univ i, hi⟩) j
      (Finset.mem_filter.mpr ⟨Finset.mem_univ j, hj⟩)
  · intro h i hi j hj
    exact h i j (Finset.mem_filter.mp hi).2 (Finset.mem_filter.mp hj).2

variable [DecidableEq ι]

/-- A free slot that is put in use adds one. -/
theorem used_set {flag : ι → Bool} {i : ι} (h : flag i = false) :
    used (Function.update flag i true) = used flag + 1 := by
  have hnew : (Finset.univ.filter fun j => Function.update flag i true j = true) =
      insert i (Finset.univ.filter fun j => flag j = true) := by
    ext j
    by_cases hj : j = i
    · subst hj
      simp
    · simp [hj]
  unfold used
  rw [hnew, Finset.card_insert_of_notMem]
  intro hi
  rw [(Finset.mem_filter.mp hi).2] at h
  cases h

/-- A slot that is freed takes one away. -/
theorem used_clear (flag : ι → Bool) {i : ι} (h : flag i = true) :
    used flag = used (Function.update flag i false) + 1 := by
  have hback : Function.update (Function.update flag i false) i true = flag := by
    rw [Function.update_idem, ← h, Function.update_eq_self]
  rw [← used_set (Function.update_self ..), hback]

end Slots

/-! ## Steps since the last event

    Step number `i` of a history may be an event.  After `n` steps the
    last event lies `k` steps back if these `k` steps are quiet and the one
    before them, if there is one, is an event.  A counter that events reset
    and that quiet steps advance holds this number. -/

namespace SinceLast

/-- Of the first `n` steps the last `k` exist and none of them is an event. -/
def Quiet (ev : Nat → Prop) (n k : Nat) : Prop :=
  k ≤ n ∧ ∀ i, n - k ≤ i → i < n → ¬ ev i

end SinceLast

/-- After `n` steps the last event, or the start, lies `k` steps back. -/
structure SinceLast (ev : Nat → Prop) (n k : Nat) : Prop where
  quiet : SinceLast.Quiet ev n k
  event : k < n → ev (n - k - 1)

namespace SinceLast

variable {ev ev' : Nat → Prop} {n k l : Nat}

theorem start : SinceLast ev 0 0 where
  quiet := ⟨Nat.le_refl 0, fun i _ hi => absurd hi (Nat.not_lt_zero i)⟩
  event := by
    intro h
    omega

/-- An event resets the count. -/
theorem reset (h : ev n) : SinceLast ev (n + 1) 0 where
  quiet := ⟨Nat.zero_le _, fun i _ _ => by omega⟩
  event := by
    intro _
    exact h

/-- A quiet step advances it. -/
theorem advance (h : SinceLast ev n k) (hn : ¬ ev n) : SinceLast ev (n + 1) (k + 1) where
  quiet := by
    obtain ⟨hle, hquiet⟩ := h.quiet
    constructor
    · omega
    · intro i hlow hhigh
      by_cases hi : i = n
      · rw [hi]
        exact hn
      · exact hquiet i (by omega) (by omega)
  event := by
    intro hk
    have hev := h.event (by omega)
    rwa [show n + 1 - (k + 1) - 1 = n - k - 1 by omega]

/-- The count reads the steps taken so far only. -/
theorem congr (h : SinceLast ev n k) (hev : ∀ i, i < n → (ev i ↔ ev' i)) :
    SinceLast ev' n k where
  quiet := by
    obtain ⟨hle, hquiet⟩ := h.quiet
    constructor
    · exact hle
    · intro i hlow hhigh hi
      exact hquiet i hlow hhigh ((hev i hhigh).mpr hi)
  event := by
    intro hk
    exact (hev _ (by omega)).mp (h.event hk)

/-- The count is at least `l` iff the last `l` steps exist and are quiet. -/
theorem le_iff (h : SinceLast ev n k) : l ≤ k ↔ Quiet ev n l := by
  constructor
  · intro hl
    obtain ⟨hle, hquiet⟩ := h.quiet
    constructor
    · omega
    · intro i hlow hhigh
      exact hquiet i (by omega) hhigh
  · intro ⟨hle, hquiet⟩
    rcases Nat.lt_or_ge k l with hlt | hge
    · -- the event before the count would lie among the `l` quiet steps
      exact absurd (h.event (by omega)) (hquiet (n - k - 1) (by omega) (by omega))
    · exact hge

/-- There is only one count. -/
theorem unique (h : SinceLast ev n k) (h' : SinceLast ev n l) : k = l := by
  apply Nat.le_antisymm
  · exact h'.le_iff.mpr h.quiet
  · exact h.le_iff.mpr h'.quiet

end SinceLast

/-! ## Budgets

    A process advances a clock at every step and may go on only while the
    clock stays below a cap.  It can set the clock back to zero, but each
    time it has to give up some of a potential that never grows.  What such
    a process may still do is bounded: a full round of the clock for each
    unit of the potential, and the rest of the present round.

    The potential of a set of sites is the sum of what stands on them;
    moving what stands on one site to another changes only two summands. -/

namespace Budget

/-- The steps left before the clock reaches the cap for good. -/
def left (cap potential clock : Nat) : Nat :=
  cap * potential + (cap - 1 - clock)

section left

variable {cap potential potential' clock : Nat}

/-- Advancing the clock never adds to the budget. -/
theorem left_advance_le : left cap potential (clock + 1) ≤ left cap potential clock := by
  unfold left
  omega

/-- Advancing the clock to a value below the cap costs one step. -/
theorem left_advance (h : clock + 1 < cap) :
    left cap potential (clock + 1) + 1 = left cap potential clock := by
  unfold left
  omega

/-- Setting the clock back costs at least one step. -/
theorem left_reset (hcap : 0 < cap) (h : potential' < potential) :
    left cap potential' 0 + 1 ≤ left cap potential clock := by
  have hround : cap * (potential' + 1) ≤ cap * potential := Nat.mul_le_mul_left cap h
  rw [Nat.mul_add, Nat.mul_one] at hround
  unfold left
  omega

/-- The budget grows with the potential. -/
theorem left_mono (h : potential' ≤ potential) :
    left cap potential' clock ≤ left cap potential clock := by
  have hround : cap * potential' ≤ cap * potential := Nat.mul_le_mul_left cap h
  unfold left
  omega

end left

/-- What leaves `s` and arrives at `d` is all that a move adds anywhere. -/
theorem sum_moved {ι : Type*} [DecidableEq ι] {S : Finset ι} {f f' : ι → Nat} {s d : ι}
    (hs : s ∈ S) (hd : d ∈ S) (hne : s ≠ d) (hleft : f' s = 0)
    (hrest : ∀ q ∈ S, q ≠ s → q ≠ d → f' q ≤ f q) :
    S.sum f' + f s + f d ≤ S.sum f + f' d := by
  -- the sites `s` and `d` stand apart from the others
  have hd' : d ∈ S.erase s := Finset.mem_erase.mpr ⟨hne.symm, hd⟩
  have hothers : ((S.erase s).erase d).sum f' ≤ ((S.erase s).erase d).sum f := by
    apply Finset.sum_le_sum
    intro q hq
    obtain ⟨hqd, hq⟩ := Finset.mem_erase.mp hq
    obtain ⟨hqs, hqS⟩ := Finset.mem_erase.mp hq
    exact hrest q hqS hqs hqd
  have hf : f s + (f d + ((S.erase s).erase d).sum f) = S.sum f := by
    rw [Finset.add_sum_erase _ _ hd', Finset.add_sum_erase _ _ hs]
  have hf' : f' s + (f' d + ((S.erase s).erase d).sum f') = S.sum f' := by
    rw [Finset.add_sum_erase _ _ hd', Finset.add_sum_erase _ _ hs]
  omega

end Budget
