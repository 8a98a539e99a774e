import Mathlib.Algebra.BigOperators.Group.Finset.Piecewise

/-! # Stopwatches

    A stopwatch with several sides, one of which is running.  Next to the
    time each side has run in total it keeps the time of the current lap.

    An account that is only settled from time to time, by charging the
    running side for all the time since it was settled last, agrees with
    the stopwatch exactly if in that time no other side has run. -/

namespace Timing

universe u v

/-- `since` is the reading up to which `total` and `lap` count. -/
structure Stopwatch (α : Type u) (τ : Type v) where
  running : α
  since : τ
  total : α → τ
  lap : α → τ

namespace Stopwatch

variable {α : Type u} {τ : Type v} [AddCommGroup τ]

def start (a : α) (now : τ) : Stopwatch α τ :=
  { running := a, since := now, total := fun _ => 0, lap := fun _ => 0 }

/-- The account `charged` was settled at `last`: it agrees with the
    stopwatch but for the current lap, which began at `last`. -/
structure Settled [Fintype α] (w : Stopwatch α τ) (charged : α → τ) (last : τ) : Prop where
  charged_add : ∀ a, charged a + w.lap a = w.total a
  sum_lap : ∑ a, w.lap a = w.since - last

theorem settled_start [Fintype α] (a : α) (now : τ) :
    (start a now).Settled (fun _ => 0) now where
  charged_add := fun _ => add_zero 0
  sum_lap := by
    show ∑ _ : α, (0 : τ) = now - now
    rw [Finset.sum_const_zero, sub_self]

variable [DecidableEq α]

/-- Count up to `now`. -/
def advance (w : Stopwatch α τ) (now : τ) : Stopwatch α τ :=
  { w with
    since := now
    total := fun a => w.total a + if a = w.running then now - w.since else 0
    lap := fun a => w.lap a + if a = w.running then now - w.since else 0 }

/-- From `now` on `a` is running. -/
def switch (w : Stopwatch α τ) (now : τ) (a : α) : Stopwatch α τ :=
  { w.advance now with running := a }

/-- At `now` a new lap begins. -/
def new_lap (w : Stopwatch α τ) (now : τ) : Stopwatch α τ :=
  { w.advance now with lap := fun _ => 0 }

variable [Fintype α]

section settled

variable {w : Stopwatch α τ} {charged : α → τ} {last : τ}

/-- Time that passes and a change of sides leave the account as it is. -/
theorem Settled.switch (h : w.Settled charged last) (now : τ) (a : α) :
    (w.switch now a).Settled charged last where
  charged_add := by
    intro b
    show charged b + (w.lap b + _) = w.total b + _
    rw [← add_assoc, h.charged_add]
  sum_lap := by
    show ∑ b, (w.lap b + if b = w.running then now - w.since else 0) = now - last
    rw [Finset.sum_add_distrib, h.sum_lap, Finset.sum_ite_eq' Finset.univ w.running,
      if_pos (Finset.mem_univ _)]
    exact sub_add_sub_cancel' ..

/-- **Settling an account.** Charging `d` to the running side makes the
    account agree with the stopwatch exactly if `d` is the time since the
    account was settled and no other side has run in that time. -/
theorem Settled.charge_iff (h : w.Settled charged last) (now d : τ) :
    (∀ a, (charged a + if a = w.running then d else 0) = (w.advance now).total a) ↔
      d = now - last ∧ ∀ a, a ≠ w.running → w.lap a = 0 := by
  have hsum : ∑ a, w.lap a + (now - w.since) = now - last := by
    rw [h.sum_lap]
    exact sub_add_sub_cancel' ..
  have htotal : ∀ a, (w.advance now).total a =
      charged a + (w.lap a + if a = w.running then now - w.since else 0) := by
    intro a
    show w.total a + _ = _
    rw [← add_assoc, h.charged_add]
  constructor
  · intro heq
    have hcharge : ∀ a, (if a = w.running then d else 0) =
        w.lap a + if a = w.running then now - w.since else 0 := by
      intro a
      have := heq a
      rw [htotal] at this
      exact add_left_cancel this
    constructor
    · -- the charges and the lap have the same sum
      have := Finset.sum_congr rfl fun a (_ : a ∈ Finset.univ) => hcharge a
      rw [Finset.sum_add_distrib, Finset.sum_ite_eq' Finset.univ w.running,
        Finset.sum_ite_eq' Finset.univ w.running, if_pos (Finset.mem_univ _),
        if_pos (Finset.mem_univ _), hsum] at this
      exact this
    · intro a ha
      have := hcharge a
      rw [if_neg ha, if_neg ha, add_zero] at this
      exact this.symm
  · intro ⟨hd, hlap⟩ a
    rw [htotal]
    congr 1
    by_cases ha : a = w.running
    · -- the running side has the whole lap
      rw [if_pos ha, if_pos ha, hd, ← hsum, ha]
      congr 1
      exact Finset.sum_eq_single w.running (fun b _ hb => hlap b hb)
        (fun hnot => absurd (Finset.mem_univ _) hnot)
    · rw [if_neg ha, if_neg ha, hlap a ha, add_zero]

/-- An account that agrees with the stopwatch is settled. -/
theorem Settled.new_lap {charged' : α → τ} (now : τ)
    (h : ∀ a, charged' a = (w.advance now).total a) : (w.new_lap now).Settled charged' now where
  charged_add := by
    intro a
    show charged' a + 0 = _
    rw [add_zero, h]
    rfl
  sum_lap := by
    show ∑ _ : α, (0 : τ) = now - now
    rw [Finset.sum_const_zero, sub_self]

end settled

end Stopwatch

end Timing
