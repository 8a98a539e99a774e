import Mathlib.Logic.Function.Iterate

/-! # Walking until blocked

    The loop `while (inside p) { if (found p) return true; if (blocked p)
    break; p = next p; }` with a bound on the number of rounds, and what it
    computes: the walk succeeds exactly when some point of the orbit is
    found, with every point up to it inside and none before it found or
    blocked. -/

namespace Walk

universe u

variable {α : Type u}

/-- At most `n` rounds of the walk from `p`. -/
def meets (inside found blocked : α → Bool) (next : α → α) : Nat → α → Bool
  | 0, _ => false
  | n + 1, p =>
    if inside p then
      if found p then true
      else if blocked p then false
      else meets inside found blocked next n (next p)
    else false

variable {inside found blocked : α → Bool} {next : α → α}

/-- The walk succeeds iff the orbit meets a found point before it is
    blocked and before it leaves. -/
theorem meets_iff (n : Nat) (p : α) :
    meets inside found blocked next n p = true ↔
      ∃ k < n, found (next^[k] p) = true ∧ (∀ j ≤ k, inside (next^[j] p) = true) ∧
        ∀ j < k, found (next^[j] p) = false ∧ blocked (next^[j] p) = false := by
  induction n generalizing p with
  | zero => simp [meets]
  | succ n ih =>
    constructor
    · intro h
      unfold meets at h
      split at h
      case isFalse => cases h
      case isTrue hin =>
      split at h
      case isTrue hfound =>
        -- found at once: only the square itself has been visited
        refine ⟨0, Nat.succ_pos n, hfound, ?_, ?_⟩
        · intro j hj
          obtain rfl : j = 0 := Nat.le_zero.mp hj
          exact hin
        · intro j hj
          exact absurd hj (Nat.not_lt_zero j)
      case isFalse hfound =>
      split at h
      case isTrue => cases h
      case isFalse hblocked =>
        -- nothing here, so the rest of the walk meets it one step later
        obtain ⟨k, hk, hf, hins, hbef⟩ := (ih (next p)).mp h
        refine ⟨k + 1, Nat.succ_lt_succ hk, hf, ?_, ?_⟩
        · intro j hj
          cases j with
          | zero => exact hin
          | succ j => exact hins j (Nat.le_of_succ_le_succ hj)
        · intro j hj
          cases j with
          | zero => exact ⟨by simpa using hfound, by simpa using hblocked⟩
          | succ j => exact hbef j (Nat.lt_of_succ_lt_succ hj)
    · intro ⟨k, hk, hf, hins, hbef⟩
      -- the first square is inside in any case
      have hin : inside p = true := hins 0 (Nat.zero_le k)
      unfold meets
      rw [if_pos hin]
      cases k with
      | zero =>
        have hfound : found p = true := hf
        rw [if_pos hfound]
      | succ k =>
        -- the first square neither ends nor blocks the walk
        obtain ⟨hfound, hblocked⟩ := hbef 0 (Nat.succ_pos k)
        have hfound' : found p = false := hfound
        have hblocked' : blocked p = false := hblocked
        rw [if_neg (by simp [hfound']), if_neg (by simp [hblocked'])]
        refine (ih (next p)).mpr ⟨k, Nat.lt_of_succ_lt_succ hk, hf, ?_, ?_⟩
        · intro j hj
          exact hins (j + 1) (Nat.succ_le_succ hj)
        · intro j hj
          exact hbef (j + 1) (Nat.succ_lt_succ hj)

/-- If a walk that starts inside has left after `n` rounds, more rounds
    change nothing: the bound of the loop is never what ends it. -/
theorem meets_enough (n : Nat) (p : α)
    (hleave : inside p = true → inside (next^[n] p) = false) (m : Nat) (hm : n ≤ m) :
    meets inside found blocked next m p = meets inside found blocked next n p := by
  rw [Bool.eq_iff_iff, meets_iff, meets_iff]
  constructor
  · intro ⟨k, _, hf, hins, hbef⟩
    have hkn : k < n := by
      by_contra hge
      have hin := hins n (Nat.le_of_not_lt hge)
      rw [hleave (hins 0 (Nat.zero_le k))] at hin
      cases hin
    exact ⟨k, hkn, hf, hins, hbef⟩
  · intro ⟨k, hk, h⟩
    exact ⟨k, Nat.lt_of_lt_of_le hk hm, h⟩

end Walk
