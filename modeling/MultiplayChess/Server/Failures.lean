import MultiplayChess.Server.Record
import MultiplayChess.Server.GameIds
import MultiplayChess.Server.Places

/-! # Failing sends

    An accepted move is performed before the first send.  If that send, the
    success response, fails, the move handler returns at once: the move
    stays on the server's board, but the opponent is not told and a game
    that is over stays in the table.  If it succeeds, the handler goes
    through to its end whatever the other sends do. -/

namespace MultiplayChess

open LTS
open Chess (Move)

/-- The position ends the game: checkmate, stalemate or the fifty-move
    rule. -/
def game_over (G : Game) : Bool :=
  is_checkmate G || is_stalemate G || is_fifty_move_rule G

theorem game_end_isSome (G : Game) : (game_end G).isSome = game_over G := by
  unfold game_end game_over
  by_cases hmate : is_checkmate G = true
  · simp [hmate]
  · by_cases hstale : is_stalemate G = true
    · simp [hmate, hstale]
    · by_cases hfifty : is_fifty_move_rule G = true
      · simp [hmate, hstale, hfifty]
      · simp [hmate, hstale, hfifty]

/-- The game in slot `i` right after the move `m` was applied. -/
def game_after (mgr : MatchManager) (env : Env) (i : Fin max_active_games) (m : Move) :
    ActiveGame :=
  (mgr.active_games i).play (env.ms 0) m.sx m.sy m.dx m.dy

/-- The handler run `o` sees the accepted move `m` through: it attempts the
    broadcast to the opponent, with the evaluation of the new position, and
    the game is out of the table iff that position ends it. -/
structure SeenThrough (mgr : MatchManager) (env : Env) (fd : Int) (i : Fin max_active_games)
    (m : Move) (o : Outcome) : Prop where
  broadcast : ∃ s ∈ o.out, ∃ b, s.msg = .move_broadcast b ∧
    (∃ team, (mgr.active_games i).fd_of team = fd ∧ s.fd = (mgr.active_games i).fd_of team.other) ∧
    b.game_id = (mgr.active_games i).game_id ∧
    b.game_ends = game_over (game_after mgr env i m).game_state ∧
    (b.winner_team, b.end_type) =
      (game_end (game_after mgr env i m).game_state).getD (.unspecified, .unknown)
  removed_iff : (o.mgr.active_games i).is_active = false ↔
    game_over (game_after mgr env i m).game_state = true

/-- What the handler owes to an accepted move: it sees it through, or takes
    it back. -/
def SeenThroughOrUndone (mgr : MatchManager) (env : Env) (fd : Int) (i : Fin max_active_games)
    (m : Move) (o : Outcome) : Prop :=
  SeenThrough mgr env fd i m o ∨
    (o.mgr.active_games i).game_state = (mgr.active_games i).game_state

section handler

variable {mgr : MatchManager} {env : Env} {fd : Int} {req : MoveRequest}
  {i : Fin max_active_games} {m : Move}

/-- The handler run of an accepted request. -/
theorem handle_move_accepted (hacc : accepted mgr (.message fd (.move req) env) = some (i, m)) :
    ∃ team, (mgr.active_games i).fd_of team = fd ∧
      (mgr.active_games i).game_state.side_to_move = team ∧
      (let game := game_after mgr env i m
       let run := announce_move (mgr.set_game i game) env fd req team game
       handle_move_message mgr env fd req =
         if run.2 then { run.1 with mgr := remove_game (mgr.set_game i game) game.game_id }
         else run.1) := by
  obtain ⟨fd', req', env', team, he, hfind, hteam, hcheck⟩ := accepted_spec hacc
  cases he
  refine ⟨team, player_team_fd hteam, (check_move_ok hcheck).1, ?_⟩
  unfold handle_move_message move_in_game
  simp only [hfind, hteam, hcheck, announce_move_mgr, set_game_self]
  rfl

/-- The response to an accepted move. -/
def success_response (game : ActiveGame) (team : Team) : ServerMessage :=
  .move_res
    { game_id := game.game_id
      player_id := game.player_id team
      success := true
      message := "Move successful".toList
      updated_fen := fen_placeholder game.game_state }

/-- The first send fails: the handler stops. -/
theorem announce_move_failed (mgr : MatchManager) (req : MoveRequest) (team : Team)
    (game : ActiveGame) (h : env.sends 0 = false) :
    announce_move mgr env fd req team game =
      (⟨mgr, [⟨fd, success_response game team, false⟩], false⟩, false) := by
  unfold announce_move send_move_success send_server_message success_response
  simp [h]

/-- The first send succeeds: the handler goes through to its end. -/
theorem announce_move_sent (mgr : MatchManager) (req : MoveRequest) (team : Team)
    (game : ActiveGame) (h : env.sends 0 = true) :
    announce_move mgr env fd req team game =
      (⟨mgr, [⟨fd, success_response game team, true⟩,
        ⟨game.fd_of team.other, .move_broadcast
          (move_broadcast game (game.player_id team) req (env.timestamp 0)), env.sends 1⟩,
        ⟨fd, .move_broadcast
          (move_broadcast game (game.player_id team) req (env.timestamp 1)), env.sends 2⟩], true⟩,
      (game_end game.game_state).isSome) := by
  unfold announce_move send_move_success send_server_message success_response
  simp [h]

theorem game_after_fd_of (team : Team) :
    (game_after mgr env i m).fd_of team = (mgr.active_games i).fd_of team := by
  cases team <;> rfl

/-- With the first send successful the move is seen through, whatever the
    other sends do. -/
theorem seen_through_of_sent (hids : IdsOk mgr)
    (hacc : accepted mgr (.message fd (.move req) env) = some (i, m))
    (hsent : env.sends 0 = true) :
    SeenThrough mgr env fd i m (handle_move_message mgr env fd req) := by
  obtain ⟨team, hfd, _, hrun⟩ := handle_move_accepted hacc
  obtain ⟨_, _, _, _, _, hfind, _, _⟩ := accepted_spec hacc
  have hactive := (find_game_spec hfind).1
  rw [hrun, announce_move_sent _ _ _ _ hsent, game_end_isSome]
  constructor
  · refine ⟨⟨(game_after mgr env i m).fd_of team.other, .move_broadcast (move_broadcast
      (game_after mgr env i m) ((game_after mgr env i m).player_id team) req (env.timestamp 0)),
      env.sends 1⟩, ?_, _, rfl, ⟨team, hfd, game_after_fd_of _⟩, rfl, game_end_isSome _, rfl⟩
    split <;> simp
  · -- the ids differ, so the game that is removed is this one
    have hids' : IdsOk (mgr.set_game i (game_after mgr env i m)) :=
      hids.step (.play hacc (.inl rfl))
    have hactive' : ((mgr.set_game i (game_after mgr env i m)).active_games i).is_active =
        true := by
      rw [set_game_self]
      exact hactive
    have hremove := hids'.remove_game_eq hactive'
    rw [set_game_self] at hremove
    by_cases hover : game_over (game_after mgr env i m).game_state = true
    · rw [if_pos hover, hremove]
      simp only [hover, iff_true]
      rw [end_game_self]
    · rw [if_neg hover]
      simp only [set_game_self]
      have hstill : (game_after mgr env i m).is_active = true := hactive
      simp [hover, hstill]

/-- With the first send failed the move is neither seen through nor taken
    back. -/
theorem not_seen_through_of_failed {h : List Move}
    (hf : Following (mgr.active_games i).game_state h)
    (hacc : accepted mgr (.message fd (.move req) env) = some (i, m))
    (hfailed : env.sends 0 = false) :
    ¬ SeenThroughOrUndone mgr env fd i m (handle_move_message mgr env fd req) := by
  obtain ⟨team, _, _, hrun⟩ := handle_move_accepted hacc
  obtain ⟨_, _, _, _, _, _, _, hcheck⟩ := accepted_spec hacc
  have hlegal := (check_move_ok hcheck).2.2.2
  rw [hrun, announce_move_failed _ _ _ _ hfailed]
  simp only [if_neg Bool.false_ne_true]
  intro hlaw
  rcases hlaw with hseen | hundone
  · obtain ⟨s, hs, b, hb, _⟩ := hseen.broadcast
    obtain rfl := List.mem_singleton.mp hs
    cases hb
  · -- the side to move has changed
    have hturn := hf.tracks.turn
    have hturn' := (hf.step hlegal).tracks.turn
    simp only [set_game_self] at hundone
    have hsame : apply_move (mgr.active_games i).game_state m.sx m.sy m.dx m.dy =
        (mgr.active_games i).game_state := hundone
    rw [hsame, hturn] at hturn'
    simp only [positionOf, List.length_append, List.length_singleton, turnAfter_succ] at hturn'
    exact Team.ne_other _ hturn'

end handler

/-- The position of an active game has come about by legal moves. -/
theorem Run.following_game {mgr : MatchManager} {ls : List (Event × List Sent)}
    (hrun : Run server init_match_manager ls mgr) {i : Fin max_active_games}
    (hactive : (mgr.active_games i).is_active = true) :
    ∃ h, Following (mgr.active_games i).game_state h := by
  obtain ⟨r, hr⟩ := recorded_of_run hrun
  exact ⟨_, Run.following (Run.all_conducted hr i hactive).run⟩

/-- **Accepted moves and failing sends.** In every reachable state and for
    every accepted move request the handler sees the move through, or takes
    it back, exactly if its first send, the success response, succeeds. -/
theorem accepted_move_seen_through_iff {mgr : MatchManager} {ls : List (Event × List Sent)}
    (hrun : Run server init_match_manager ls mgr) {env : Env} {fd : Int} {req : MoveRequest}
    {i : Fin max_active_games} {m : Move}
    (hacc : accepted mgr (.message fd (.move req) env) = some (i, m)) :
    SeenThroughOrUndone mgr env fd i m (handle_move_message mgr env fd req) ↔
      env.sends 0 = true := by
  obtain ⟨_, _, _, _, _, hfind, _, _⟩ := accepted_spec hacc
  obtain ⟨h, hf⟩ := Run.following_game hrun (find_game_spec hfind).1
  constructor
  · intro hlaw
    by_contra hfailed
    rw [Bool.not_eq_true] at hfailed
    exact not_seen_through_of_failed hf hacc hfailed hlaw
  · intro hsent
    exact .inl (seen_through_of_sent (Run.ids_ok hrun) hacc hsent)

/-- The environment in which the first send of a handler run fails. -/
def Env.first_send_fails : Env :=
  { Env.calm 0 with sends := fun k => k != 0 }

/-- The players of a game that has just begun. -/
theorem two_requests_accept :
    (exec server_run init_match_manager two_requests).map
      (fun r => (accepted r.2 (.message 6 (.move ⟨"e2".toList, "e4".toList⟩) (.calm 0)),
        accepted r.2 (.message 6 (.move ⟨"e2".toList, "e4".toList⟩) .first_send_fails))) =
      some (some (0, ⟨4, 1, 4, 3⟩), some (0, ⟨4, 1, 4, 3⟩)) := by
  decide +kernel

theorem accepted_move_seen_through_opening :
    ∃ ls mgr, Run server init_match_manager ls mgr ∧
      SeenThroughOrUndone mgr (.calm 0) 6 0 ⟨4, 1, 4, 3⟩
        (handle_move_message mgr (.calm 0) 6 ⟨"e2".toList, "e4".toList⟩) := by
  obtain ⟨⟨ls, mgr⟩, hrun, hacc⟩ := Option.map_eq_some_iff.mp two_requests_accept
  rw [Prod.mk.injEq] at hacc
  exact ⟨ls, mgr, exec_run hrun, (accepted_move_seen_through_iff (exec_run hrun) hacc.1).mpr rfl⟩

/-- When the response to White's first move cannot be sent, the move stays
    and Black is not told. -/
theorem accepted_move_seen_through_broken :
    ¬ ∀ (ls : List (Event × List Sent)) (mgr : MatchManager) (env : Env) (fd : Int)
      (req : MoveRequest) (i : Fin max_active_games) (m : Move),
      Run server init_match_manager ls mgr →
      accepted mgr (.message fd (.move req) env) = some (i, m) →
      SeenThroughOrUndone mgr env fd i m (handle_move_message mgr env fd req) := by
  intro hall
  obtain ⟨⟨ls, mgr⟩, hrun, hacc⟩ := Option.map_eq_some_iff.mp two_requests_accept
  rw [Prod.mk.injEq] at hacc
  obtain ⟨_, _, _, _, _, hfind, _, _⟩ := accepted_spec hacc.2
  obtain ⟨h, hf⟩ := Run.following_game (exec_run hrun) (find_game_spec hfind).1
  exact not_seen_through_of_failed hf hacc.2 rfl (hall _ _ _ _ _ _ _ (exec_run hrun) hacc.2)

end MultiplayChess
