import MultiplayChess.Server.System

/-! # One game under the timer

    What `check_game_timeouts` does to one game: a tick that comes at least
    100 ms after the last update charges the side to move for the time in
    between, and ends the game if that takes the rest of its time. -/

namespace MultiplayChess

open Loop

/-- The time a team has left, in ms. -/
def ActiveGame.time_remaining (g : ActiveGame) : Team → Int
  | .white => g.white_time_remaining
  | .black => g.black_time_remaining

/-- A tick at `now` updates the game. -/
def Updates (now : Int) (g : ActiveGame) : Prop :=
  g.is_active = true ∧ 100 ≤ now - g.last_timer_check_ms

/-- What an updating tick at `now` takes from the side to move. -/
def charge_at (now : Int) (g : ActiveGame) : Int :=
  to_int32 (now - g.last_timer_check_ms)

/-- A tick at `now` takes the rest of the time of the side to move. -/
def RunsOut (now : Int) (g : ActiveGame) : Prop :=
  100 ≤ now - g.last_timer_check_ms ∧
    g.time_remaining g.game_state.side_to_move ≤ charge_at now g

instance (now : Int) (g : ActiveGame) : Decidable (Updates now g) :=
  inferInstanceAs (Decidable (_ ∧ _))

instance (now : Int) (g : ActiveGame) : Decidable (RunsOut now g) :=
  inferInstanceAs (Decidable (_ ∧ _))

/-- The game after an updating tick. -/
structure Charged (now : Int) (g g' : ActiveGame) (timeout : Option Team) : Prop where
  checked : g'.last_timer_check_ms = now
  timeout_eq : timeout = if RunsOut now g then some g.game_state.side_to_move else none
  mover : g'.time_remaining g.game_state.side_to_move =
    if RunsOut now g then 0
    else g.time_remaining g.game_state.side_to_move - charge_at now g
  other : g'.time_remaining g.game_state.side_to_move.other =
    g.time_remaining g.game_state.side_to_move.other

theorem checked_sub_ok {bits : Nat} {a b c : Int} (h : checked_sub bits a b = .ok c) :
    c = a - b := by
  unfold checked_sub at h
  split at h <;> cases h
  rfl

theorem charge_ok {remaining since left : Int} {timeout : Bool}
    (h : charge remaining since = .ok (left, timeout)) :
    left = (if remaining ≤ to_int32 since then 0 else remaining - to_int32 since) ∧
      timeout = decide (remaining ≤ to_int32 since) := by
  unfold charge at h
  obtain ⟨rest, hrest, h⟩ := bind_eq_ok.mp h
  obtain rfl := checked_sub_ok hrest
  by_cases hout : remaining ≤ to_int32 since
  · rw [if_pos (show remaining - to_int32 since ≤ 0 by omega)] at h
    cases h
    exact ⟨(if_pos hout).symm, (decide_eq_true hout).symm⟩
  · rw [if_neg (show ¬ remaining - to_int32 since ≤ 0 by omega)] at h
    cases h
    exact ⟨(if_neg hout).symm, (decide_eq_false hout).symm⟩

/-- **One game, one tick.** The tick leaves the game alone, or it charges
    the side to move. -/
theorem check_game_timeout_spec {now : Int} {g g' : ActiveGame} {timeout : Option Team}
    (h : check_game_timeout now g = .ok (g', timeout)) :
    (¬ Updates now g ∧ g' = g ∧ timeout = none) ∨
      (Updates now g ∧ Charged now g g' timeout) := by
  unfold check_game_timeout at h
  cases hactive : g.is_active with
  | false =>
    rw [hactive] at h
    cases h
    refine .inl ⟨?_, rfl, rfl⟩
    intro hup
    rw [hup.1] at hactive
    cases hactive
  | true =>
    rw [hactive] at h
    obtain ⟨since, hsince, h⟩ := bind_eq_ok.mp h
    obtain rfl := checked_sub_ok hsince
    split at h
    · rename_i hshort
      cases h
      refine .inl ⟨?_, rfl, rfl⟩
      intro hup
      exact absurd hup.2 (by omega)
    · rename_i hlong
      have hup : Updates now g := ⟨hactive, by omega⟩
      refine .inr ⟨hup, ?_⟩
      have hout : RunsOut now g ↔ g.time_remaining g.game_state.side_to_move ≤ charge_at now g :=
        ⟨fun h => h.2, fun h => ⟨hup.2, h⟩⟩
      -- only the clock of the side to move is charged
      cases hside : g.game_state.side_to_move with
      | white =>
        rw [hside] at h hout
        obtain ⟨⟨left, timeout⟩, hcharge, h⟩ := bind_eq_ok.mp h
        obtain ⟨hleft, htimeout⟩ := charge_ok hcharge
        cases h
        refine ⟨rfl, ?_, ?_, ?_⟩
        · simp only [htimeout, hside, hout, decide_eq_true_eq]
          rfl
        · simp only [hside, hout]
          exact hleft
        · rw [hside]
          rfl
      | black =>
        rw [hside] at h hout
        obtain ⟨⟨left, timeout⟩, hcharge, h⟩ := bind_eq_ok.mp h
        obtain ⟨hleft, htimeout⟩ := charge_ok hcharge
        cases h
        refine ⟨rfl, ?_, ?_, ?_⟩
        · simp only [htimeout, hside, hout, decide_eq_true_eq]
          rfl
        · simp only [hside, hout]
          exact hleft
        · rw [hside]
          rfl

/-- Who runs out of time is the side to move of an active game. -/
theorem check_game_timeout_loser {now : Int} {g g' : ActiveGame} {loser : Team}
    (h : check_game_timeout now g = .ok (g', some loser)) :
    g.is_active = true ∧ g.game_state.side_to_move = loser ∧ RunsOut now g := by
  rcases check_game_timeout_spec h with ⟨_, _, hnone⟩ | ⟨hup, hcharged⟩
  · cases hnone
  · have heq := hcharged.timeout_eq
    by_cases hrun : RunsOut now g
    · rw [if_pos hrun] at heq
      exact ⟨hup.1, (Option.some.inj heq).symm, hrun⟩
    · rw [if_neg hrun] at heq
      cases heq

/-- A tick ends exactly the games of the players whose time it takes. -/
theorem Ticked.still_active {now : Int} {g g' : ActiveGame} (h : Ticked now g g')
    (hactive : g.is_active = true) (hrun : ¬ RunsOut now g) : g'.is_active = true := by
  obtain ⟨timed, timeout, hcheck, rfl⟩ := h
  have hframe := check_game_timeout_frame hcheck
  have hnone : timeout = none := by
    rcases check_game_timeout_spec hcheck with ⟨_, _, hnone⟩ | ⟨_, hcharged⟩
    · exact hnone
    · rw [hcharged.timeout_eq, if_neg hrun]
  rw [if_pos hnone, hframe]
  exact hactive

end MultiplayChess
