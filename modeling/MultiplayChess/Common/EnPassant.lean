import MultiplayChess.Common.Effects

/-! # En passant

    `apply_move` captures for every pawn that lands on the en passant
    target; it looks neither at the direction of the step nor at what
    stands beside it.  That the capture is always the one of the rules
    follows from what the target is: the square the last double step
    passed, between the pawn that made it and the rank it came from. -/

namespace MultiplayChess

open Chess (Move Position Sound PseudoLegal PawnMoves EnPassantSquare forward_cases)
open LTS

/-! ## The target -/

/-- Nothing stands on the square. -/
def Vacant (ps : PieceState) : Prop :=
  ps.is_dead = true ∧ ps.piece = none

/-- A pawn of the team stands on the square. -/
def LivePawn (ps : PieceState) (team : Team) : Prop :=
  ps.is_dead = false ∧ ps.team = team ∧ ps.piece = some (piece_table team .pawn)

/-- The target is the square a pawn of the side not to move has passed. -/
structure TargetPassed (G : Game) : Prop where
  file : 0 ≤ G.en_passant_x ∧ G.en_passant_x < 8
  rank : (G.en_passant_y = 2 ∧ G.side_to_move = .black) ∨
    (G.en_passant_y = 5 ∧ G.side_to_move = .white)
  target : Vacant (G.board.get G.en_passant_y G.en_passant_x)
  /-- behind it, where the double step began -/
  origin : Vacant
    (G.board.get (G.en_passant_y - pawn_dir G.side_to_move.other) G.en_passant_x)
  /-- in front of it, where the double step ended -/
  pawn : LivePawn (G.board.get (G.en_passant_y + pawn_dir G.side_to_move.other) G.en_passant_x)
    G.side_to_move.other

/-- There is no target, or it has just been passed. -/
def TargetSound (G : Game) : Prop :=
  (G.en_passant_x = -1 ∧ G.en_passant_y = -1) ∨ TargetPassed G

/-- What the en passant branch does to an accepted move: the pawn in front
    of the target goes, and nothing else. -/
structure CapturesPassed (G : Game) (m : Move) : Prop where
  diagonal : (m.dx - m.sx).natAbs = 1 ∧ m.dy = m.sy + pawn_dir G.side_to_move
  /-- the branch writes to the square in front of the target -/
  front : m.dx = G.en_passant_x ∧ m.sy = G.en_passant_y + pawn_dir G.side_to_move.other
  captured : LivePawn (G.board.get m.sy m.dx) G.side_to_move.other
  branch : ∀ p x y, FiresEnPassant G p m.dx m.dy →
    (capture_en_passant G p m.sy m.dx m.dy).board.get y x =
      if x = m.dx ∧ y = m.sy then (G.board.get m.sy m.dx).kill else G.board.get y x
  removed : Vacant ((apply_move G m.sx m.sy m.dx m.dy).board.get m.sy m.dx)
  mover : LivePawn ((apply_move G m.sx m.sy m.dx m.dy).board.get m.dy m.dx) G.side_to_move
  source : Vacant ((apply_move G m.sx m.sy m.dx m.dy).board.get m.sy m.sx)
  rest : ∀ x y, ¬ (x = m.sx ∧ y = m.sy) → ¬ (x = m.dx ∧ y = m.dy) → ¬ (x = m.dx ∧ y = m.sy) →
    (apply_move G m.sx m.sy m.dx m.dy).board.get y x = G.board.get y x

section target

variable {G : Game} {p : Position} {k : PieceType} {m : Move}

theorem Tracks.vacant_iff (h : Tracks G p) (x y : Int) :
    Vacant (G.board.get y x) ↔ p.board x y = none := by
  rw [h.empty_iff]
  constructor
  · intro hvacant
    exact hvacant.1
  · intro hdead
    exact ⟨hdead, (h.board_ok x y).dead_iff.mp hdead⟩

theorem Tracks.livePawn_iff (h : Tracks G p) (x y : Int) (team : Team) :
    LivePawn (G.board.get y x) team ↔ p.board x y = some ⟨team, .pawn⟩ :=
  (h.man_iff x y team .pawn).symm

/-- **The target of a sound position.** -/
theorem Tracks.target_sound (h : Tracks G p) (hs : Sound p) : TargetSound G := by
  have hf := forward_cases p.turn.other
  rcases h.target with ⟨l, hl, hdouble, hx, hy⟩ | ⟨_, hx, hy⟩
  · -- the last move was a double step
    obtain ⟨hrank, horigin, hpassed⟩ := hs.double l hl hdouble
    obtain ⟨hpawn, hfile, hend⟩ := hdouble
    have hon := hs.on_board _ _ _ hpawn
    right
    constructor
    · rw [hx]
      exact hon.1
    · rw [h.turn, hy, hrank]
      cases p.turn with
      | white => exact .inr ⟨rfl, rfl⟩
      | black => exact .inl ⟨rfl, rfl⟩
    · rw [h.vacant_iff, hx, hy, hfile]
      exact hpassed
    · rw [h.vacant_iff, h.turn, pawn_dir_eq, hx, hy, hfile, Int.add_sub_cancel]
      exact horigin
    · rw [h.livePawn_iff, h.turn, pawn_dir_eq, hx, hy, Int.add_assoc, ← Int.two_mul, ← hend]
      exact hpawn
  · exact .inl ⟨hx, hy⟩

/-! ## The capture -/

/-- A pawn of the rules that leaves its file steps diagonally. -/
theorem PseudoLegal.pawn_diagonal (hp : PseudoLegal p ⟨p.turn, .pawn⟩ m) (hfile : m.dx ≠ m.sx) :
    (m.dx - m.sx).natAbs = 1 ∧ m.dy = m.sy + Chess.forward p.turn := by
  have hmoves : PawnMoves p.board p.last p.turn m := hp.moves
  have hstrikes : Chess.PawnStrikes p.turn m := by
    cases hmoves with
    | step hx _ _ => exact absurd hx hfile
    | double hx _ _ _ _ => exact absurd hx hfile
    | capture _ hstrike _ _ => exact hstrike
    | enPassant hstrike _ => exact hstrike
  obtain ⟨hy, hx⟩ := hstrikes
  exact ⟨by omega, hy⟩

/-- A pawn that captures en passant stays a pawn. -/
theorem PseudoLegal.enPassant_stays (hs : Sound p)
    (hep : EnPassantSquare p.board p.last p.turn m.dx m.dy) : m.dy ≠ Chess.lastRank p.turn := by
  obtain ⟨l, hl, hdouble, _, hy⟩ := hep
  have hrank := (hs.double l hl hdouble).1
  have hf := forward_cases p.turn
  have hfo := forward_cases p.turn.other
  rw [Chess.forward_other] at hy hfo
  omega

/-- **The capture.** The branch does what the rules do. -/
theorem Tracks.captures_passed (h : Tracks G p) (hs : Sound p)
    (hp : PseudoLegal p ⟨p.turn, k⟩ m)
    (hfires : FiresEnPassant G (piece_table p.turn k) m.dx m.dy) : CapturesPassed G m := by
  have heffect := h.effect hs hp
  have hep := (h.fires_iff_isEnPassant hs hp).mp hfires
  obtain ⟨rfl, hsquare⟩ := (h.fires_iff hp).mp hfires
  obtain ⟨_, hx, hy⟩ := hfires
  have hdiag := PseudoLegal.pawn_diagonal hp hep.2.1
  have hfront : m.sy = G.en_passant_y + pawn_dir G.side_to_move.other := by
    rw [h.turn, pawn_dir_eq, Chess.forward_other, ← hy]
    omega
  obtain ⟨_, hremoved⟩ := heffect.passed hep
  constructor
  · rw [h.turn, pawn_dir_eq]
    exact hdiag
  · exact ⟨hx, hfront⟩
  · rw [h.livePawn_iff, h.turn]
    exact h.passed_pawn hs hp hep
  · intro q x y hq
    rw [capture_en_passant_get ⟨hp.dst_on.1, hp.src_on.2⟩]
    simp only [hq, true_and]
  · exact hremoved
  · rw [h.get_after hs hp, if_pos ⟨rfl, rfl⟩, h.landed_eq hs hp,
      if_neg (fun hc => PseudoLegal.enPassant_stays hs hsquare hc.2), h.turn]
    exact ⟨rfl, rfl, rfl⟩
  · exact heffect.source
  · intro x y hsrc hdst hpass
    exact heffect.rest x y hsrc hdst fun hc => hpass hc.2

end target

/-! ## Games -/

/-- **En passant.** After any sequence of accepted moves there is either no
    target, or the target is empty, the square behind it is empty, and the
    pawn of the side not to move that has passed it stands in front.  In
    every accepted move the en passant branch fires for a diagonal step
    only, and it removes that pawn and no other piece. -/
theorem en_passant_sound {G₀ G : Game} {h : List Move}
    (hrun : Run rules (init_startpos G₀) h G) :
    TargetSound G ∧ ∀ m p, is_move_legal G m.sx m.sy m.dx m.dy = true →
      (G.board.get m.sy m.sx).piece = some p → FiresEnPassant G p m.dx m.dy →
      CapturesPassed G m := by
  have hf := Run.following hrun
  constructor
  · exact hf.tracks.target_sound hf.sound
  · intro m p hlegal hpiece hfires
    obtain ⟨⟨t, k⟩, hp, _⟩ := (hf.legal_iff m).mp hlegal
    obtain rfl : t = (positionOf G h).turn := hp.own
    rw [(hf.tracks.source hp).2.2] at hpiece
    cases hpiece
    exact hf.tracks.captures_passed hf.sound hp hfires

/-- Black's pawn passes the white one that has come to its fifth rank. -/
def passing_game : List Move := [⟨4, 1, 4, 3⟩, ⟨0, 6, 0, 5⟩, ⟨4, 3, 4, 4⟩, ⟨3, 6, 3, 4⟩]

theorem passing_game_captures : (replay (init_startpos .zero) passing_game).map (fun G =>
    is_move_legal G 4 4 3 5 && decide ((G.board.get 4 4).piece = some white_pawn) &&
      decide (FiresEnPassant G white_pawn 3 5)) = some true := by
  decide +kernel

theorem en_passant_sound_passing_game : ∃ G, Run rules (init_startpos .zero) passing_game G ∧
    CapturesPassed G ⟨4, 4, 3, 5⟩ := by
  obtain ⟨G, hG, hfacts⟩ := Option.map_eq_some_iff.mp passing_game_captures
  rw [Bool.and_eq_true, Bool.and_eq_true, decide_eq_true_eq, decide_eq_true_eq] at hfacts
  obtain ⟨⟨hlegal, hpiece⟩, hfires⟩ := hfacts
  exact ⟨G, replay_run hG, (en_passant_sound (replay_run hG)).2 ⟨4, 4, 3, 5⟩ white_pawn hlegal
    hpiece hfires⟩

end MultiplayChess
