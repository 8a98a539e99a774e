import MultiplayChess.Common.Endings
import MultiplayChess.Server.Conservation
import MultiplayChess.Server.Failures

/-! # No game goes on forever

    The server ends a game by the fifty-move rule when it has told the mover
    of the hundredth quiet ply.  As every other ply takes something off the
    board or a pawn closer to its last rank, the moves it acknowledges in
    one game are bounded.  Moves whose acknowledgement could not be sent are
    played all the same, and are counted apart.  And while the clocks are
    looked at, a game cannot outlive the time on them. -/

namespace MultiplayChess

open LTS
open Chess (Move)

/-! ## Counting the failed acknowledgements -/

/-- The first send attempted in a handler run succeeds. -/
def Event.first_send : Event → Bool
  | .message _ _ env => env.sends 0
  | .disconnect _ env => env.sends 0
  | .tick env => env.sends 0

/-- For every slot, the accepted moves of its game whose acknowledgement,
    the first send of the handler, failed. -/
abbrev Unacknowledged := Fin max_active_games → Nat

def Unacknowledged.next (lost : Unacknowledged) (s : Recorded) (l : Event × List Sent)
    (s' : Recorded) : Unacknowledged :=
  fun i =>
    if (s.mgr.active_games i).is_active = false ∧ (s'.mgr.active_games i).is_active = true then 0
    else
      match accepted s.mgr l.1 with
      | some (j, _) => if j = i ∧ l.1.first_send = false then lost i + 1 else lost i
      | none => lost i

/-- The recorded server that also counts these moves. -/
def counted_server : System (Recorded × Unacknowledged) (Event × List Sent) :=
  recorded_server.with_ghost Unacknowledged.next

/-! ## One step -/

section step

variable {s s' : Recorded} {lost : Unacknowledged} {e : Event} {out : List Sent}
  {i : Fin max_active_games}

/-- The record and the count of a game that the step does not start. -/
theorem record_of_not_started (lost : Unacknowledged) (out : List Sent)
    (hrecord : s'.record = s.record.next s.mgr e s'.mgr)
    (hold : ¬ ((s.mgr.active_games i).is_active = false ∧
      (s'.mgr.active_games i).is_active = true)) :
    ((∀ m, accepted s.mgr e ≠ some (i, m)) →
      s'.record i = s.record i ∧ lost.next s (e, out) s' i = lost i) ∧
    (∀ m, accepted s.mgr e = some (i, m) →
      s'.record i = s.record i ++ [(e.fd, m)] ∧
        lost.next s (e, out) s' i = if e.first_send = false then lost i + 1 else lost i) := by
  rw [hrecord]
  unfold Record.next Unacknowledged.next
  rw [if_neg hold, if_neg hold]
  constructor
  · intro hother
    cases hacc : accepted s.mgr e with
    | none => exact ⟨rfl, rfl⟩
    | some p =>
      obtain ⟨j, m⟩ := p
      have hji : j ≠ i := by
        rintro rfl
        exact hother m hacc
      simp [hji]
  · intro m hacc
    simp [hacc]

/-- The record and the count of a game that the step starts. -/
theorem record_of_started (lost : Unacknowledged) (out : List Sent)
    (hrecord : s'.record = s.record.next s.mgr e s'.mgr)
    (hnew : (s.mgr.active_games i).is_active = false ∧
      (s'.mgr.active_games i).is_active = true) :
    s'.record i = [] ∧ lost.next s (e, out) s' i = 0 := by
  rw [hrecord]
  unfold Record.next Unacknowledged.next
  rw [if_pos hnew, if_pos hnew]
  exact ⟨rfl, rfl⟩

/-- The position after an accepted move. -/
theorem SlotChange.position_played {mgr : MatchManager} {g g' : ActiveGame} {m : Move}
    (h : SlotChange mgr e i g g') (hacc : accepted mgr e = some (i, m)) :
    g'.game_state = apply_move g.game_state m.sx m.sy m.dx m.dy := by
  cases h with
  | kept hother _ => exact absurd hacc (hother m)
  | ticked he _ =>
    rw [he] at hacc
    cases hacc
  | started he _ _ _ _ _ =>
    rw [he] at hacc
    cases hacc
  | played _ hacc' hg =>
    rw [hacc, Option.some.injEq, Prod.mk.injEq] at hacc'
    obtain ⟨_, rfl⟩ := hacc'
    rcases hg with hg | hg <;> rw [hg] <;> rfl

/-- An acknowledged move after which the game goes on did not bring the
    fifty-move rule about. -/
theorem not_fifty_of_acknowledged {mgr mgr' : MatchManager} {m : Move} (hids : IdsOk mgr)
    (hstep : server.step mgr (e, out) mgr') (hacc : accepted mgr e = some (i, m))
    (hsent : e.first_send = true) (hactive : (mgr'.active_games i).is_active = true) :
    is_fifty_move_rule (apply_move (mgr.active_games i).game_state m.sx m.sy m.dx m.dy) =
      false := by
  obtain ⟨fd, req, env, _, rfl, _, _, _⟩ := accepted_spec hacc
  obtain ⟨o, ho, rfl, _⟩ := message_step_ok hstep
  cases ho
  have hseen := seen_through_of_sent hids hacc hsent
  -- the game was not removed, so its position is not over
  have hgoes : game_over (game_after mgr env i m).game_state = false := by
    by_contra hover
    rw [Bool.not_eq_false] at hover
    rw [hseen.removed_iff.mpr hover] at hactive
    cases hactive
  unfold game_over at hgoes
  simp only [Bool.or_eq_false_iff] at hgoes
  exact hgoes.2

end step

/-! ## Every run -/

/-- The moves played and those left are covered by what the start position
    allows and the moves that were not acknowledged. -/
structure WithinBudget (g : ActiveGame) (played lost : Nat) : Prop where
  played_le : played ≤ 12700 + lost
  left_le : g.is_active = true → played + moves_left g.game_state ≤ 12699 + lost

theorem WithinBudget.congr {g g' : ActiveGame} {played lost : Nat} (h : WithinBudget g played lost)
    (hstate : g'.game_state = g.game_state)
    (hactive : g'.is_active = true → g.is_active = true) : WithinBudget g' played lost where
  played_le := h.played_le
  left_le := by
    intro hg'
    rw [hstate]
    exact h.left_le (hactive hg')

/-- A new game has the whole budget before it. -/
theorem WithinBudget.fresh {env : Env} {old game : ActiveGame} {w : WaitingPlayer} {fd : Int}
    {player_id id : CString} (h : new_game env old w fd player_id id = .ok game) :
    WithinBudget game 0 0 where
  played_le := Nat.zero_le _
  left_le := by
    intro _
    rw [(run_fold (Conducted.fresh h).run).1]
    show 0 + moves_left (init_startpos .zero) ≤ 12699
    rw [moves_left_start]

/-- An accepted move is paid for, or counted as not acknowledged. -/
theorem WithinBudget.play {mgr mgr' : MatchManager} {e : Event} {out : List Sent}
    {i : Fin max_active_games} {m : Move} {r : List (Int × Move)} {lost : Nat}
    (h : WithinBudget (mgr.active_games i) r.length lost) (hids : IdsOk mgr)
    (hconducted : Conducted (mgr.active_games i) r) (hstep : server.step mgr (e, out) mgr')
    (hacc : accepted mgr e = some (i, m)) :
    WithinBudget (mgr'.active_games i) (r.length + 1)
      (if e.first_send = false then lost + 1 else lost) := by
  obtain ⟨_, _, _, _, _, hfind, _, hcheck⟩ := accepted_spec hacc
  have hleft := h.left_le (find_game_spec hfind).1
  obtain ⟨hle, hlt⟩ := Run.moves_left_after hconducted.run (check_move_ok hcheck).2.2.2
  have hstate := ((step_change hstep).slot i).position_played hacc
  constructor
  · split <;> omega
  · intro hactive
    rw [hstate]
    by_cases hsent : e.first_send = false
    · rw [if_pos hsent]
      omega
    · have hgoes := hlt (not_fifty_of_acknowledged hids hstep hacc
        (Bool.not_eq_false _ ▸ hsent) hactive)
      rw [if_neg hsent]
      omega

/-- All games, active or over. -/
def AllWithinBudget (s : Recorded × Unacknowledged) : Prop :=
  ∀ i, WithinBudget (s.1.mgr.active_games i) (s.1.record i).length (s.2 i)

/-- **The step lemma.** -/
theorem AllWithinBudget.step {s s' : Recorded × Unacknowledged} {e : Event} {out : List Sent}
    (h : AllWithinBudget s) (hids : IdsOk s.1.mgr) (hconducted : AllConducted s.1)
    (hstep : counted_server.step s (e, out) s') : AllWithinBudget s' := by
  obtain ⟨s, lost⟩ := s
  obtain ⟨s', lost'⟩ := s'
  obtain ⟨hrec, hlost⟩ := hstep
  obtain rfl : lost' = lost.next s (e, out) s' := hlost
  obtain ⟨hserver, hrecord⟩ := recorded_step hrec
  intro i
  simp only at hserver hrecord hids ⊢
  have hi : WithinBudget (s.mgr.active_games i) (s.record i).length (lost i) := h i
  have hslot := (step_change hserver).slot i
  by_cases hnew : (s.mgr.active_games i).is_active = false ∧
      (s'.mgr.active_games i).is_active = true
  · obtain ⟨hr, hl⟩ := record_of_started lost out hrecord hnew
    obtain ⟨_, _, _, _, _, _, hgame⟩ := hslot.starts hnew.1 hnew.2
    rw [hr, hl]
    exact .fresh hgame
  · have hactive : (s'.mgr.active_games i).is_active = true →
        (s.mgr.active_games i).is_active = true := by
      intro hnow
      by_contra hnot
      exact hnew ⟨Bool.not_eq_true _ ▸ hnot, hnow⟩
    obtain ⟨hother, hplayed⟩ := record_of_not_started lost out hrecord hnew
    by_cases hacc : ∃ m, accepted s.mgr e = some (i, m)
    · obtain ⟨m, hm⟩ := hacc
      obtain ⟨_, _, _, _, _, hfind, _, _⟩ := accepted_spec hm
      obtain ⟨hr, hl⟩ := hplayed m hm
      rw [hr, hl, List.length_append, List.length_singleton]
      exact hi.play hids (hconducted i (find_game_spec hfind).1) hserver hm
    · have hnone : ∀ m, accepted s.mgr e ≠ some (i, m) := fun m hm => hacc ⟨m, hm⟩
      obtain ⟨hr, hl⟩ := hother hnone
      rw [hr, hl]
      by_cases hnow : (s'.mgr.active_games i).is_active = true
      · exact hi.congr (hslot.position (hactive hnow) hnone) hactive
      · exact ⟨hi.played_le, fun h => absurd h hnow⟩

/-- **The run lemma.** -/
theorem Run.all_within_budget {s : Recorded × Unacknowledged} {ls : List (Event × List Sent)}
    (hrun : Run counted_server (.initial, fun _ => 0) ls s) :
    AllWithinBudget s ∧ Run recorded_server .initial ls s.1 := by
  induction hrun with
  | nil =>
    refine ⟨fun i => ⟨Nat.zero_le _, fun hactive => ?_⟩, .nil⟩
    cases hactive
  | snoc _ _ hstep ih =>
    obtain ⟨hbudget, hrec⟩ := ih
    have hids := Run.ids_ok (Run.of_recorded hrec)
    exact ⟨hbudget.step hids (Run.all_conducted hrec) hstep, hrec.snoc hstep.1⟩

/-- **Every game is bounded.** In every run of the server no game goes on
    for more than 12700 moves, those not counted whose acknowledgement could
    not be sent; and an active game can still be played for at most
    `moves_left` moves before the fifty-move rule ends it. -/
theorem games_are_bounded {s : Recorded} {lost : Unacknowledged} {ls : List (Event × List Sent)}
    (hrun : Run counted_server (.initial, fun _ => 0) ls (s, lost)) (i : Fin max_active_games) :
    (s.record i).length ≤ 12700 + lost i ∧
      ((s.mgr.active_games i).is_active = true →
        (s.record i).length + moves_left (s.mgr.active_games i).game_state ≤ 12699 + lost i) := by
  have hi := (Run.all_within_budget hrun).1 i
  exact ⟨hi.played_le, hi.left_le⟩

/-- White's first move leaves the opened game within its bounds. -/
theorem games_are_bounded_opening :
    ∃ ls s lost, Run counted_server (.initial, fun _ => 0) ls (s, lost) ∧
      s.record 0 = [(6, ⟨4, 1, 4, 3⟩)] ∧
      1 + moves_left (s.mgr.active_games 0).game_state ≤ 12699 + lost 0 := by
  obtain ⟨⟨ls, s⟩, hrun, hs⟩ := Option.map_eq_some_iff.mp opening_recorded
  rw [Prod.mk.injEq] at hs
  obtain ⟨hactive, hrecord⟩ := hs
  obtain ⟨lost, hcounted⟩ := RunWhere.with_ghost Unacknowledged.next (exec_run hrun) fun _ => 0
  have hbound := (games_are_bounded hcounted 0).2 hactive
  rw [hrecord] at hbound
  exact ⟨ls, s, lost, hcounted, hrecord, hbound⟩

/-! ## The time of a game -/

/-- The time limit of the games in the table. -/
def Limited (mgr : MatchManager) : Prop :=
  ∀ i, (mgr.active_games i).is_active = true →
    (mgr.active_games i).time_limit_per_player = default_game_time_limit * 1000

theorem limit_of_new_game {env : Env} {old game : ActiveGame} {w : WaitingPlayer} {fd : Int}
    {player_id id : CString} (h : new_game env old w fd player_id id = .ok game) :
    game.time_limit_per_player = default_game_time_limit * 1000 := by
  unfold new_game at h
  simp only at h
  obtain ⟨_, _, h⟩ := Loop.bind_eq_ok.mp h
  obtain ⟨_, _, h⟩ := Loop.bind_eq_ok.mp h
  obtain ⟨_, _, h⟩ := Loop.bind_eq_ok.mp h
  cases h
  rfl

theorem Limited.step {mgr mgr' : MatchManager} {e : Event} {out : List Sent} (h : Limited mgr)
    (hstep : server.step mgr (e, out) mgr') : Limited mgr' := by
  intro i hactive
  cases (step_change hstep).slot i with
  | kept _ hg =>
    have hsame := not_ended hg hactive
    rw [hsame] at hactive ⊢
    exact h i hactive
  | ticked _ hticked =>
    rw [hticked.limit]
    exact h i (hticked.frame.2.2.2.2 hactive)
  | started _ _ _ _ _ hnew => exact limit_of_new_game hnew
  | played _ hacc hg =>
    -- a move does not touch the limit
    obtain ⟨_, _, _, _, _, hfind, _, _⟩ := accepted_spec hacc
    rw [not_ended hg hactive]
    exact h i (find_game_spec hfind).1

/-- An active game that has just been looked at was updated at most 99 ms
    ago. -/
theorem Ticked.just_checked {now : Int} {g g' : ActiveGame} (h : Ticked now g g')
    (hactive : g'.is_active = true) : now - g'.last_timer_check_ms < 100 := by
  rcases h.cases_active hactive with ⟨hno_update, rfl⟩ | ⟨_, _, hcharged⟩
  · by_contra hlate
    exact hno_update ⟨hactive, by omega⟩
  · rw [hcharged.checked]
    omega

/-- **No game outlives its clocks.** In every run whose updating ticks come
    less than `2 ^ 31` ms after the last update: a game that is still active
    after a tick was created at most the time of both clocks ago, give or
    take the 100 ms between two updates, whatever has been played and
    however the clock of the machine was set. -/
theorem no_game_outlives_its_clocks {ls : List (Event × List Sent)} {created : CreationTimes}
    {s s' : MatchManager × CreationTimes} {env : Env} {out : List Sent}
    (hrun : RunWhere dated (fun s => Gapped s.1) (init_match_manager, created) ls s)
    (hgap : Gapped s.1 (.tick env, out)) (hstep : dated.step s (.tick env, out) s')
    {i : Fin max_active_games} (hactive : (s'.1.active_games i).is_active = true) :
    env.ms 0 - s'.2 i < 2 * (default_game_time_limit * 1000) + 100 := by
  have hall : AllConserved s ∧ Limited s.1 := by
    apply hrun.invariant (P := fun s => AllConserved s ∧ Limited s.1)
    · intro s l s' ⟨hconserved, hlimited⟩ hok hstep
      exact ⟨hconserved.step hok hstep, hlimited.step hstep.1⟩
    · refine ⟨all_conserved_init created, ?_⟩
      intro j hj
      cases hj
  obtain ⟨hshared, hpositive, _⟩ := hall.1.step hgap hstep i hactive
  have hlimit := hall.2.step hstep.1 i hactive
  have hchecked : env.ms 0 - (s'.1.active_games i).last_timer_check_ms < 100 := by
    obtain ⟨o, ho, hmgr, _⟩ := tick_step_ok hstep.1
    rw [← hmgr] at hactive ⊢
    exact ((check_game_timeouts_slots ho).1 i).just_checked hactive
  -- neither clock has run out
  have hwhite := hpositive .white
  have hblack := hpositive .black
  unfold ActiveGame.deducted at hshared
  omega

theorem stepped_clock_ticks :
    (exec (guarded (fun mgr l => gapped mgr l.1) server_run) init_match_manager stepped_clock).bind
      (fun r => (server_run r.2 (.tick (.at_ms 605))).map fun r' =>
        (gapped r.2 (.tick (.at_ms 605)), (r'.1.active_games 0).is_active)) =
          some (true, true) := by
  decide +kernel

/-- The game that has seen the clock go back, after one more tick. -/
theorem no_game_outlives_its_clocks_stepped_clock :
    ∃ (ls : List (Event × List Sent)) (s s' : MatchManager × CreationTimes) (out : List Sent),
      RunWhere dated (fun s => Gapped s.1) (init_match_manager, fun _ => 0) ls s ∧
      dated.step s (.tick (.at_ms 605), out) s' ∧ (s'.1.active_games 0).is_active = true ∧
      (Env.at_ms 605).ms 0 - s'.2 0 < 2 * (default_game_time_limit * 1000) + 100 := by
  obtain ⟨⟨ls, mgr⟩, hrun, hnext⟩ := Option.bind_eq_some_iff.mp stepped_clock_ticks
  obtain ⟨⟨mgr', out⟩, hserver, hfacts⟩ := Option.map_eq_some_iff.mp hnext
  obtain ⟨hgap, hactive⟩ := Prod.mk.inj hfacts
  have hwhere : RunWhere server Gapped init_match_manager ls mgr :=
    exec_runWhere gapped_sound hrun
  obtain ⟨created, hdated⟩ := hwhere.with_ghost CreationTimes.next (fun _ => 0)
  have hgap : Gapped mgr (.tick (.at_ms 605), out) := gapped_sound mgr _ hgap
  have hstep : dated.step (mgr, created) (.tick (.at_ms 605), out)
      (mgr', created.next mgr (.tick (.at_ms 605), out) mgr') := ⟨hserver, rfl⟩
  exact ⟨ls, _, _, out, hdated, hstep, hactive,
    no_game_outlives_its_clocks hdated hgap hstep hactive⟩

end MultiplayChess
