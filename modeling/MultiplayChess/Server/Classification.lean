import MultiplayChess.Server.Failures
import MultiplayChess.Common.Endings

/-! # How a move is classified

    After an accepted move the handler tells both players whether the
    opponent is in check, whether the game is over, who won and why.  In
    every game the server conducts this is what chess says of the new
    position and of the moves played. -/

namespace MultiplayChess

open LTS
open Chess (Move Position InCheck CanMove Checkmate Stalemate)

/-- The last hundred plies of the game had no pawn move and no capture. -/
def FiftyMoves (h : List Move) : Prop :=
  SinceLast.Quiet (IrreversiblePly (init_startpos .zero) h) h.length 100

/-- What the broadcast `b` of a move of `mover` says is what chess says of
    the position `p` after the moves `h`. -/
structure Classifies (p : Position) (h : List Move) (mover : Team) (b : MoveBroadcast) :
    Prop where
  is_check : b.is_check = true ↔ InCheck p.board p.turn
  checked : InCheck p.board p.turn → b.checked_team = p.turn.proto
  unchecked : ¬ InCheck p.board p.turn → b.checked_team = .unspecified
  game_ends : b.game_ends = true ↔ ¬ CanMove p h ∨ FiftyMoves h
  winner_iff : b.winner_team ≠ .unspecified ↔ Checkmate p h
  winner : Checkmate p h → b.winner_team = mover.proto
  checkmate : Checkmate p h → b.end_type = .checkmate
  stalemate : Stalemate p h → b.end_type = .stalemate
  draw : CanMove p h → FiftyMoves h → b.end_type = .draw
  unknown : CanMove p h → ¬ FiftyMoves h → b.end_type = .unknown

/-! ## One evaluation -/

section evaluation

variable {G : Game} {h : List Move}

theorem proto_ne_unspecified (t : Team) : t.proto ≠ .unspecified := by
  cases t <;> decide

theorem game_end_checkmate (hmate : is_checkmate G = true) :
    game_end G = some (G.side_to_move.other.proto, .checkmate) :=
  if_pos hmate

theorem game_end_stalemate (hmate : is_checkmate G = false) (hstale : is_stalemate G = true) :
    game_end G = some (.unspecified, .stalemate) := by
  unfold game_end
  rw [hmate, if_neg Bool.false_ne_true, if_pos hstale]

/-- The fifty-move rule comes last. -/
theorem game_end_can_move (hmate : is_checkmate G = false) (hstale : is_stalemate G = false) :
    game_end G = if is_fifty_move_rule G then some (.unspecified, .draw) else none := by
  unfold game_end
  rw [hmate, hstale, if_neg Bool.false_ne_true, if_neg Bool.false_ne_true]

/-- Only a checkmate has a winner. -/
theorem game_end_winner_iff :
    ((game_end G).getD (.unspecified, .unknown)).1 ≠ .unspecified ↔ is_checkmate G = true := by
  constructor
  · intro hwinner
    by_contra hno
    rw [Bool.not_eq_true] at hno
    apply hwinner
    cases hstale : is_stalemate G with
    | true =>
      rw [game_end_stalemate hno hstale]
      rfl
    | false =>
      rw [game_end_can_move hno hstale]
      split <;> rfl
  · intro hmate
    rw [game_end_checkmate hmate]
    exact proto_ne_unspecified _

/-- **The evaluation** of a position that accepted moves led to. -/
theorem classifies_of_run (hrun : Run rules (init_startpos .zero) h G) (game : ActiveGame)
    (hgame : game.game_state = G) (player_id : CString) (req : MoveRequest)
    (timestamp : Option Int) :
    Classifies (positionOf G h) h G.side_to_move.other
      (move_broadcast game player_id req timestamp) := by
  subst hgame
  have hf := Run.following hrun
  have hcheck := hf.is_in_check_iff
  have hmate := hf.is_checkmate_iff
  have hstale := hf.is_stalemate_iff
  have hfifty := Run.is_fifty_move_rule_iff hrun
  have hmoves := Following.checkmate_or_stalemate_iff (positionOf game.game_state h) h
  -- who can move is neither mated nor stalemated
  have hnot : CanMove (positionOf game.game_state h) h →
      is_checkmate game.game_state = false ∧ is_stalemate game.game_state = false := by
    intro hcan
    rw [← Bool.not_eq_true, ← Bool.not_eq_true, hmate, hstale]
    exact ⟨fun hc => hc.2 hcan, fun hc => hc.2 hcan⟩
  have hturn := hf.tracks.turn
  constructor
  case is_check => exact hcheck
  case checked =>
    intro hin
    rw [← hcheck] at hin
    show (if is_in_check _ _ = true then _ else _) = _
    rw [if_pos hin, hturn]
  case unchecked =>
    intro hin
    rw [← hcheck] at hin
    exact if_neg hin
  case game_ends =>
    show (game_end game.game_state).isSome = true ↔ _
    rw [game_end_isSome, ← hmoves, ← hmate, ← hstale]
    unfold game_over FiftyMoves
    rw [Bool.or_eq_true, Bool.or_eq_true, hfifty]
  case winner_iff => exact game_end_winner_iff.trans hmate
  case winner =>
    intro hm
    show ((game_end game.game_state).getD _).1 = _
    rw [game_end_checkmate (hmate.mpr hm)]
    rfl
  case checkmate =>
    intro hm
    show ((game_end game.game_state).getD _).2 = _
    rw [game_end_checkmate (hmate.mpr hm)]
    rfl
  case stalemate =>
    intro hs
    have hno : is_checkmate game.game_state = false := by
      rw [← Bool.not_eq_true, hmate]
      exact fun hm => hs.1 hm.1
    show ((game_end game.game_state).getD _).2 = _
    rw [game_end_stalemate hno (hstale.mpr hs)]
    rfl
  case draw =>
    intro hcan hquiet
    show ((game_end game.game_state).getD _).2 = _
    rw [game_end_can_move (hnot hcan).1 (hnot hcan).2, if_pos (hfifty.mpr hquiet)]
    rfl
  case unknown =>
    intro hcan hquiet
    show ((game_end game.game_state).getD _).2 = _
    rw [game_end_can_move (hnot hcan).1 (hnot hcan).2, if_neg (mt hfifty.mp hquiet)]
    rfl

end evaluation

/-! ## The handler -/

/-- The handler run `o` of the move `m` of `mover` in slot `i`: both players
    get the broadcast `b` but for its time stamp, `b` classifies the new
    position, and the game is out of the table iff `b` says that it ends. -/
structure MoveClassified (s : Recorded) (env : Env) (fd : Int) (i : Fin max_active_games)
    (m : Move) (mover : Team) (b : MoveBroadcast) (o : Outcome) : Prop where
  requester : (s.mgr.active_games i).fd_of mover = fd
  turn : (s.mgr.active_games i).game_state.side_to_move = mover
  sends : ∃ response t t', o.out = [⟨fd, response, true⟩,
    ⟨(s.mgr.active_games i).fd_of mover.other,
      .move_broadcast { b with move_timestamp := t }, true⟩,
    ⟨fd, .move_broadcast { b with move_timestamp := t' }, true⟩]
  classifies : Classifies
    (positionOf (game_after s.mgr env i m).game_state (moves_of (s.record i) ++ [m]))
    (moves_of (s.record i) ++ [m]) mover b
  removed_iff : (o.mgr.active_games i).is_active = false ↔ b.game_ends = true

/-- **Classification.** In every run of the server, for every move request
    it accepts and if all sends succeed, both players are told what chess
    says of the new position, and the game leaves the table iff it is
    over. -/
theorem accepted_move_classified {s : Recorded} {ls : List (Event × List Sent)}
    (hrun : Run recorded_server .initial ls s) {env : Env} {fd : Int} {req : MoveRequest}
    {i : Fin max_active_games} {m : Move}
    (hacc : accepted s.mgr (.message fd (.move req) env) = some (i, m))
    (hsends : ∀ k, env.sends k = true) :
    ∃ mover b, MoveClassified s env fd i m mover b (handle_move_message s.mgr env fd req) := by
  obtain ⟨_, _, _, _, _, hfind, _, hcheck⟩ := accepted_spec hacc
  obtain ⟨team, hfd, hturn, hhandler⟩ := handle_move_accepted hacc
  have hconducted := Run.all_conducted hrun i (find_game_spec hfind).1
  have hlegal := (check_move_ok hcheck).2.2.2
  -- the game with the new move is a game of chess
  have hplayed : Run rules (init_startpos .zero) (moves_of (s.record i) ++ [m])
      (game_after s.mgr env i m).game_state := hconducted.run.snoc ⟨hlegal, rfl⟩
  have hside : (game_after s.mgr env i m).game_state.side_to_move.other = team := by
    have hpiece := (is_move_legal_eq_true_iff ..).mp hlegal
    obtain ⟨⟨_, q, hq, _⟩, _⟩ := hpiece
    show (apply_move (s.mgr.active_games i).game_state m.sx m.sy m.dx m.dy).side_to_move.other = _
    rw [apply_move_side hq, Team.other_other, hturn]
  have hseen := seen_through_of_sent (Run.ids_ok (Run.of_recorded hrun)) hacc (hsends 0)
  let game := game_after s.mgr env i m
  let b := move_broadcast game (game.player_id team) req none
  have hclass := classifies_of_run hplayed game rfl (game.player_id team) req none
  rw [hside] at hclass
  refine ⟨team, b, hfd, hturn, ?_, hclass, ?_⟩
  · refine ⟨success_response game team, env.timestamp 0, env.timestamp 1, ?_⟩
    rw [hhandler, announce_move_sent _ _ _ _ (hsends 0), hsends 1, hsends 2]
    split <;> rfl
  · rw [hseen.removed_iff, ← game_end_isSome]
    rfl

/-- White has opened the diagonal to its king; Black's queen mates. -/
def diagonal_open : List Event :=
  [.message 5 (.match_game "ann".toList) (.calm 0),
    .message 6 (.match_game "bob".toList) (.calm 0),
    .message 6 (.move ⟨"f2".toList, "f3".toList⟩) (.calm 0),
    .message 5 (.move ⟨"e7".toList, "e5".toList⟩) (.calm 0),
    .message 6 (.move ⟨"g2".toList, "g4".toList⟩) (.calm 0)]

theorem diagonal_open_accepted : (exec recorded_run .initial diagonal_open).map
    (fun r => accepted r.2.mgr (.message 5 (.move ⟨"d8".toList, "h4".toList⟩) (.calm 0))) =
      some (some (0, ⟨3, 7, 7, 3⟩)) := by
  decide +kernel

theorem accepted_move_classified_mate :
    ∃ ls s, Run recorded_server .initial ls s ∧ ∃ mover b,
      MoveClassified s (.calm 0) 5 0 ⟨3, 7, 7, 3⟩ mover b
        (handle_move_message s.mgr (.calm 0) 5 ⟨"d8".toList, "h4".toList⟩) := by
  obtain ⟨⟨ls, s⟩, hrun, hacc⟩ := Option.map_eq_some_iff.mp diagonal_open_accepted
  exact ⟨ls, s, exec_run hrun, accepted_move_classified (exec_run hrun) hacc (fun _ => rfl)⟩

end MultiplayChess
