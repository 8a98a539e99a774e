import MultiplayChess.Framework.Counting
import MultiplayChess.Server.Interleaving

/-! # The representation invariant of the match manager

    `waiting_count` and `active_game_count` are the numbers of active
    entries of the two tables, the ids of the active games differ, and at
    most one player waits.  This holds also while the timer thread runs
    between the critical sections of the move handler. -/

namespace MultiplayChess

open LTS Loop
open Slots (used used_le used_set used_clear)

/-! ## Counters -/

def MatchManager.waiting_flags (mgr : MatchManager) (i : Fin max_waiting_players) : Bool :=
  (mgr.waiting_players i).is_active

def MatchManager.game_flags (mgr : MatchManager) (i : Fin max_active_games) : Bool :=
  (mgr.active_games i).is_active

/-- The counters count the active entries, and at most one player waits. -/
structure Counted (mgr : MatchManager) : Prop where
  waiting : mgr.waiting_count = used mgr.waiting_flags
  games : mgr.active_game_count = used mgr.game_flags
  one_waiting : used mgr.waiting_flags ≤ 1

section operations

variable {mgr : MatchManager}

theorem waiting_flags_set_waiting (mgr : MatchManager) (i : Fin max_waiting_players)
    (w : WaitingPlayer) :
    (mgr.set_waiting i w).waiting_flags = Function.update mgr.waiting_flags i w.is_active := by
  funext j
  exact Function.apply_update (fun _ => WaitingPlayer.is_active) mgr.waiting_players i w j

theorem game_flags_set_game (mgr : MatchManager) (i : Fin max_active_games) (g : ActiveGame) :
    (mgr.set_game i g).game_flags = Function.update mgr.game_flags i g.is_active := by
  funext j
  exact Function.apply_update (fun _ => ActiveGame.is_active) mgr.active_games i g j

/-- A game that is overwritten by one with the same flag. -/
theorem Counted.set_game (h : Counted mgr) {i : Fin max_active_games} {g : ActiveGame}
    (hg : g.is_active = (mgr.active_games i).is_active) : Counted (mgr.set_game i g) := by
  have hflags : (mgr.set_game i g).game_flags = mgr.game_flags := by
    rw [game_flags_set_game, hg]
    exact Function.update_eq_self ..
  refine ⟨h.waiting, ?_, h.one_waiting⟩
  rw [hflags]
  exact h.games

/-- A move is no end of the game. -/
theorem Counted.play (h : Counted mgr) (i : Fin max_active_games)
    (now from_x from_y to_x to_y : Int) :
    Counted (mgr.set_game i ((mgr.active_games i).play now from_x from_y to_x to_y)) := by
  apply h.set_game
  unfold ActiveGame.play
  rfl

/-- Every `active_game_count--` belongs to a game that was active. -/
theorem Counted.end_game (h : Counted mgr) {i : Fin max_active_games}
    (hactive : (mgr.active_games i).is_active = true) : Counted (mgr.end_game i) := by
  have hflags : (mgr.end_game i).game_flags = Function.update mgr.game_flags i false :=
    game_flags_set_game ..
  refine ⟨h.waiting, ?_, h.one_waiting⟩
  have hcount := used_clear mgr.game_flags hactive
  have hgames := h.games
  rw [hflags]
  show mgr.active_game_count - 1 = _
  omega

/-- Every `waiting_count--` belongs to an entry that was active. -/
theorem Counted.leave_queue (h : Counted mgr) {i : Fin max_waiting_players}
    (hactive : (mgr.waiting_players i).is_active = true) : Counted (mgr.leave_queue i) := by
  have hflags : (mgr.leave_queue i).waiting_flags = Function.update mgr.waiting_flags i false :=
    waiting_flags_set_waiting ..
  have hcount := used_clear mgr.waiting_flags hactive
  have hwaiting := h.waiting
  have hone := h.one_waiting
  refine ⟨?_, h.games, ?_⟩
  · rw [hflags]
    show mgr.waiting_count - 1 = _
    omega
  · rw [hflags]
    omega

theorem Counted.remove_game (h : Counted mgr) (id : CString) : Counted (remove_game mgr id) := by
  unfold MultiplayChess.remove_game
  split
  · rename_i i hi
    have hfound := find_slot_eq_some hi
    rw [Bool.and_eq_true] at hfound
    exact h.end_game hfound.1
  · exact h

/-- A player is queued only if nobody waits. -/
theorem Counted.enqueue (h : Counted mgr) (hnone : ∀ k, (mgr.waiting_players k).is_active = false)
    (i : Fin max_waiting_players) {w : WaitingPlayer} (hw : w.is_active = true) :
    Counted { mgr.set_waiting i w with waiting_count := mgr.waiting_count + 1 } := by
  have hzero : used mgr.waiting_flags = 0 := Slots.used_eq_zero hnone
  have hflags : (mgr.set_waiting i w).waiting_flags = Function.update mgr.waiting_flags i true := by
    rw [waiting_flags_set_waiting, hw]
  have hcount : used (mgr.set_waiting i w).waiting_flags = used mgr.waiting_flags + 1 := by
    rw [hflags]
    exact used_set (hnone i)
  have hwaiting := h.waiting
  refine ⟨?_, h.games, ?_⟩
  · show mgr.waiting_count + 1 = used (mgr.set_waiting i w).waiting_flags
    omega
  · show used (mgr.set_waiting i w).waiting_flags ≤ 1
    omega

/-- A started game takes a free slot and the place of a waiting player. -/
theorem Counted.start (h : Counted mgr) {i : Fin max_waiting_players} {j : Fin max_active_games}
    {game : ActiveGame} (hwaits : (mgr.waiting_players i).is_active = true)
    (hfree : (mgr.active_games j).is_active = false) (hgame : game.is_active = true)
    (counter : Int) :
    Counted { (mgr.set_game j game).leave_queue i with
      active_game_count := mgr.active_game_count + 1
      counter := counter } := by
  have hflags : (mgr.set_game j game).game_flags = Function.update mgr.game_flags j true := by
    rw [game_flags_set_game, hgame]
  have hcount : used (mgr.set_game j game).game_flags = used mgr.game_flags + 1 := by
    rw [hflags]
    exact used_set hfree
  have hgames := h.games
  obtain ⟨hwaiting, _, hone⟩ := h.leave_queue hwaits
  refine ⟨hwaiting, ?_, hone⟩
  show mgr.active_game_count + 1 = used (mgr.set_game j game).game_flags
  omega

/-- One round of the timer loop. -/
theorem Counted.check_slot {env : Env} {now : Int} {st st' : MatchManager × List Sent}
    {i : Fin max_active_games} (h : Counted st.1) (hround : check_slot env now st i = .ok st') :
    Counted st'.1 := by
  obtain ⟨game, timeout, hcheck, ⟨rfl, rfl⟩ | ⟨loser, rfl, rfl⟩⟩ := check_slot_cases hround
  · apply h.set_game
    rw [check_game_timeout_frame hcheck]
  · have hactive := (check_game_timeout_loser hcheck).1
    have hsame : game.is_active = (st.1.active_games i).is_active := by
      rw [check_game_timeout_frame hcheck]
    refine (h.set_game hsame).end_game ?_
    rw [set_game_self, hsame, hactive]

end operations

/-- **The step lemma of the atomic server.** -/
theorem Counted.step {mgr mgr' : MatchManager} {e : Event} {out : List Sent} (h : Counted mgr)
    (hstep : server.step mgr (e, out) mgr') : Counted mgr' := by
  cases step_change hstep with
  | quiet _ _ => exact h
  | enqueue _ hnone => exact h.enqueue hnone _ rfl
  | start _ hw hfree _ hnew =>
    exact h.start (find_slot_eq_some hw) hfree (new_game_spec hnew).1 _
  | leave _ hactive _ => exact h.leave_queue hactive
  | finish _ hfind => exact h.end_game (find_game_spec hfind).1
  | play _ hmgr =>
    rcases hmgr with rfl | rfl
    · exact h.play ..
    · exact (h.play ..).remove_game _
  | tick _ _ _ =>
    -- what a tick does to the counter only its loop tells
    obtain ⟨o, ho, rfl, _⟩ := tick_step_ok hstep
    unfold check_game_timeouts at ho
    obtain ⟨⟨mgr', out'⟩, hloop, ho⟩ := bind_eq_ok.mp ho
    cases ho
    exact foldlM_invariant (P := fun st : MatchManager × List Sent => Counted st.1)
      (fun _ _ _ => Counted.check_slot) h hloop

theorem counted_init : Counted init_match_manager := by
  have hwaiting : used init_match_manager.waiting_flags = 0 := Slots.used_eq_zero fun _ => rfl
  have hgames : used init_match_manager.game_flags = 0 := Slots.used_eq_zero fun _ => rfl
  refine ⟨?_, ?_, ?_⟩
  · rw [hwaiting]
    rfl
  · rw [hgames]
    rfl
  · rw [hwaiting]
    exact Nat.zero_le 1

/-! ## Both threads -/

/-- The counters are right, the ids of the active games differ, and no
    active game has the id of the game the move handler is about to
    remove. -/
structure Represented (s : Sched) : Prop where
  counted : Counted s.mgr
  ids : IdsOk s.mgr
  own_id : ∀ i, (∃ fd req, s.pc = .found fd req i) ∨ s.pc = .ended i →
    ∀ j, (s.mgr.active_games j).is_active = true →
      (s.mgr.active_games j).game_id = (s.mgr.active_games i).game_id → j = i

/-- A move changes no id and no flag. -/
theorem game_after_same (mgr : MatchManager) (env : Env) (m : Chess.Move)
    (i j : Fin max_active_games) :
    ((mgr.set_game i (game_after mgr env i m)).active_games j).is_active =
        (mgr.active_games j).is_active ∧
      ((mgr.set_game i (game_after mgr env i m)).active_games j).game_id =
        (mgr.active_games j).game_id := by
  by_cases hji : j = i
  · subst hji
    rw [set_game_self]
    exact ⟨rfl, rfl⟩
  · rw [set_game_ne mgr _ hji]
    exact ⟨rfl, rfl⟩

/-- **The step lemma of the two threads.** -/
theorem Represented.step {s s' : Sched} {l : Act × List Sent} (h : Represented s)
    (hstep : sched.step s l s') : Represented s' := by
  have hchange := sched_step_change hstep
  refine ⟨?_, (hchange.ids h.ids).1, ?_⟩
  · cases hchange with
    | event _ _ hserver => exact h.counted.step hserver
    | lookup _ _ _ => exact h.counted
    | rejected _ _ _ => exact h.counted
    | performed _ _ _ _ => exact h.counted.play ..
    | remove _ => exact h.counted.remove_game _
  · cases hchange with
    | @event e out mgr' hwho _ hserver =>
      intro i hpc j hactive hids
      rcases hwho with ⟨env, rfl⟩ | hidle
      · -- a tick keeps the ids and starts no game
        obtain ⟨_, _, hidi, _, _⟩ := (tick_step_slots hserver i).frame
        obtain ⟨_, _, hidj, _, hwas⟩ := (tick_step_slots hserver j).frame
        apply h.own_id i hpc j (hwas hactive) ?_
        rw [← hidi, ← hidj]
        exact hids
      · simp only [hidle] at hpc
        rcases hpc with ⟨_, _, hpc⟩ | hpc <;> cases hpc
    | lookup _ _ hpc' =>
      intro i hpc j hactive hids
      rcases hpc' with rfl | ⟨k, hfind, rfl⟩
      · rcases hpc with ⟨_, _, hpc⟩ | hpc <;> cases hpc
      · rcases hpc with ⟨_, _, hpc⟩ | hpc
        · cases hpc
          exact h.ids.distinct j i hactive (find_game_spec hfind).1 hids
        · cases hpc
    | rejected _ _ _ =>
      intro i hpc
      rcases hpc with ⟨_, _, hpc⟩ | hpc <;> cases hpc
    | @performed fd req k env m out pc' hfound _ _ hpc' =>
      intro i hpc j hactive hids
      have hi : i = k := by
        rcases hpc' with rfl | rfl
        · rcases hpc with ⟨_, _, hpc⟩ | hpc <;> cases hpc
        · rcases hpc with ⟨_, _, hpc⟩ | hpc
          · cases hpc
          · exact (Pc.ended.inj hpc).symm
      subst hi
      obtain ⟨hflag, hid⟩ := game_after_same s.mgr env m i j
      apply h.own_id i (.inl ⟨fd, req, hfound⟩) j (hflag.symm.trans hactive) ?_
      rw [← hid, ← (game_after_same s.mgr env m i i).2]
      exact hids
    | remove _ =>
      intro i hpc
      rcases hpc with ⟨_, _, hpc⟩ | hpc <;> cases hpc

theorem represented_initial : Represented .initial where
  counted := counted_init
  ids := ids_ok_init
  own_id := by
    intro i hpc
    rcases hpc with ⟨_, _, hpc⟩ | hpc <;> cases hpc

/-- `remove_game` in the move handler ends the game of the handler, or
    nothing if the timer thread has ended it already. -/
theorem Represented.remove_game_eq {s : Sched} (h : Represented s) {i : Fin max_active_games}
    (hpc : s.pc = .ended i) :
    remove_game s.mgr (s.mgr.active_games i).game_id =
      if (s.mgr.active_games i).is_active then s.mgr.end_game i else s.mgr := by
  by_cases hactive : (s.mgr.active_games i).is_active = true
  · rw [if_pos hactive]
    exact h.ids.remove_game_eq hactive
  · rw [if_neg hactive]
    unfold remove_game
    split
    · rename_i j hj
      have hfound := find_slot_eq_some hj
      rw [Bool.and_eq_true, beq_iff_eq] at hfound
      have hji := h.own_id i (.inr hpc) j hfound.1 hfound.2
      rw [hji] at hfound
      exact absurd hfound.1 hactive
    · rfl

/-- A request is told that the queue is full only if everybody waits. -/
theorem queue_full {mgr mgr' : MatchManager} {env : Env} {fd : Int} {player_id : CString}
    {result : MatchResult} (h : add_player_to_matching mgr env fd player_id = .ok (mgr', result))
    (hfull : result.error_message = "Matching queue is full".toList) :
    (∀ i, (mgr.waiting_players i).is_active = false) ∧
      ∀ i, (mgr.waiting_players i).is_active = true := by
  unfold add_player_to_matching at h
  split at h
  · split at h
    · simp only at h
      obtain ⟨⟨_, _⟩, _, h⟩ := bind_eq_ok.mp h
      obtain ⟨_, _, h⟩ := bind_eq_ok.mp h
      cases h
      cases hfull
    · cases h
      exact absurd hfull (show "No available game slots".toList ≠ "Matching queue is full".toList by
        decide)
  · rename_i hnone
    split at h
    · obtain ⟨_, _, h⟩ := bind_eq_ok.mp h
      cases h
      cases hfull
    · rename_i hfree
      -- nobody was found waiting, and no slot was found free
      exact ⟨find_slot_eq_none hnone, free_slot_eq_none hfree⟩

/-- **The representation invariant.** In every state the two threads can
    reach the counters are the numbers of active entries, within the sizes
    of the tables; the ids of the active games differ, so that
    `remove_game` ends the game it is meant to end; at most one player
    waits, so that the queue is never full. -/
theorem match_manager_represented {ls : List (Act × List Sent)} {s : Sched}
    (h : Run sched .initial ls s) :
    (s.mgr.waiting_count = used s.mgr.waiting_flags ∧
      0 ≤ s.mgr.waiting_count ∧ s.mgr.waiting_count ≤ 100) ∧
    (s.mgr.active_game_count = used s.mgr.game_flags ∧
      0 ≤ s.mgr.active_game_count ∧ s.mgr.active_game_count ≤ 50) ∧
    (∀ i j, (s.mgr.active_games i).is_active = true → (s.mgr.active_games j).is_active = true →
      (s.mgr.active_games i).game_id = (s.mgr.active_games j).game_id → i = j) ∧
    (∀ i, (s.mgr.active_games i).is_active = true →
      remove_game s.mgr (s.mgr.active_games i).game_id = s.mgr.end_game i) ∧
    (∀ i, s.pc = .ended i → remove_game s.mgr (s.mgr.active_games i).game_id =
      if (s.mgr.active_games i).is_active then s.mgr.end_game i else s.mgr) ∧
    (∀ i j, (s.mgr.waiting_players i).is_active = true →
      (s.mgr.waiting_players j).is_active = true → i = j) ∧
    (∀ env fd player_id mgr' result,
      add_player_to_matching s.mgr env fd player_id = .ok (mgr', result) →
      result.error_message ≠ "Matching queue is full".toList) := by
  have hrep : Represented s :=
    h.invariant (fun _ _ _ hs _ hstep => hs.step hstep) represented_initial
  have hids := hrep.ids
  obtain ⟨hwaiting, hgames, hone⟩ := hrep.counted
  have hwaiting_le : used s.mgr.waiting_flags ≤ 100 :=
    (used_le _).trans_eq (Fintype.card_fin _)
  have hgames_le : used s.mgr.game_flags ≤ 50 := (used_le _).trans_eq (Fintype.card_fin _)
  refine ⟨⟨hwaiting, ?_, ?_⟩, ⟨hgames, ?_, ?_⟩, hids.distinct, fun _ => hids.remove_game_eq,
    fun _ => hrep.remove_game_eq, Slots.used_le_one_iff.mp hone, ?_⟩
  · omega
  · omega
  · omega
  · omega
  · intro env fd player_id mgr' result hadd hfull
    -- a slot would have to be active and free at once
    obtain ⟨hnone, hall⟩ := queue_full hadd hfull
    have := hall 0
    rw [hnone 0] at this
    cases this

/-- The mate with ticks, before the game is removed. -/
theorem before_removal :
    (exec sched_run .initial (before_mate ++ [.lookup 5 ⟨"d8".toList, "h4".toList⟩ (.calm 1),
        .event (.tick (.calm 2)), .check (.calm 3)])).map
      (fun r => (r.2.mgr.active_games 0).is_active) = some true := by
  decide +kernel

theorem match_manager_represented_before_removal :
    ∃ ls s, Run sched .initial ls s ∧ (s.mgr.active_games 0).is_active = true ∧
      s.mgr.active_game_count = used s.mgr.game_flags ∧
      remove_game s.mgr (s.mgr.active_games 0).game_id = s.mgr.end_game 0 := by
  obtain ⟨⟨ls, s⟩, hrun, hactive⟩ := Option.map_eq_some_iff.mp before_removal
  have hrep := match_manager_represented (exec_run hrun)
  exact ⟨ls, s, exec_run hrun, hactive, hrep.2.1.1, hrep.2.2.2.1 0 hactive⟩

end MultiplayChess
