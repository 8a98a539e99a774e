import MultiplayChess.Common.Board

/-! # What `apply_move` does

    The stages of `apply_move` one by one, then the whole: which squares
    change and what the other fields become.  The move need not be legal;
    it must only have two different squares of the board, not be shaped
    like castling, and not capture en passant along its own file or rank. -/

namespace MultiplayChess

open Chess (OnBoard)

/-- What stands on the destination after the move: promoted on the back
    ranks if it is a pawn, and marked as moved. -/
def PieceState.landed (ps : PieceState) (p : Piece) (dy : Int) : PieceState :=
  { ps with
    piece := if p.type = .pawn ∧ (dy = 7 ∨ dy = 0) then some (get_default_queen ps.team)
      else some p
    has_moved := true }

/-! ## The stages -/

section stages

variable (G : Game) (p : Piece) (sx sy dx dy : Int)

@[simp] theorem count_halfmove_board : (count_halfmove G p dx dy).board = G.board := by
  unfold count_halfmove; split <;> rfl

@[simp] theorem count_halfmove_side :
    (count_halfmove G p dx dy).side_to_move = G.side_to_move := by
  unfold count_halfmove; split <;> rfl

@[simp] theorem firesEnPassant_count_halfmove :
    FiresEnPassant (count_halfmove G p dx dy) p dx dy ↔ FiresEnPassant G p dx dy := by
  unfold count_halfmove; split <;> rfl

@[simp] theorem capture_en_passant_side :
    (capture_en_passant G p sy dx dy).side_to_move = G.side_to_move := by
  unfold capture_en_passant; split <;> rfl

@[simp] theorem move_piece_side :
    (move_piece G sx sy dx dy).side_to_move = G.side_to_move := rfl

@[simp] theorem castle_rook_side : (castle_rook G sx dx dy).side_to_move = G.side_to_move := by
  unfold castle_rook; split <;> rfl

@[simp] theorem drop_king_rights_board : (drop_king_rights G dx dy).board = G.board := by
  unfold drop_king_rights; split <;> [split <;> rfl; rfl]

@[simp] theorem drop_king_rights_side :
    (drop_king_rights G dx dy).side_to_move = G.side_to_move := by
  unfold drop_king_rights; split <;> [split <;> rfl; rfl]

@[simp] theorem drop_rook_rights_board :
    (drop_rook_rights G sx sy dx dy).board = G.board := by
  unfold drop_rook_rights; split <;> [split <;> rfl; rfl]

@[simp] theorem drop_rook_rights_side :
    (drop_rook_rights G sx sy dx dy).side_to_move = G.side_to_move := by
  unfold drop_rook_rights; split <;> [split <;> rfl; rfl]

@[simp] theorem set_en_passant_board : (set_en_passant G sy dx dy).board = G.board := by
  unfold set_en_passant; split <;> rfl

@[simp] theorem set_en_passant_side :
    (set_en_passant G sy dx dy).side_to_move = G.side_to_move := by
  unfold set_en_passant; split <;> rfl

@[simp] theorem promote_side : (promote G dx dy).side_to_move = G.side_to_move := by
  unfold promote; split <;> rfl

@[simp] theorem capture_en_passant_clock :
    (capture_en_passant G p sy dx dy).halfmove_clock = G.halfmove_clock := by
  unfold capture_en_passant; split <;> rfl

@[simp] theorem castle_rook_clock :
    (castle_rook G sx dx dy).halfmove_clock = G.halfmove_clock := by
  unfold castle_rook; split <;> rfl

@[simp] theorem drop_king_rights_clock :
    (drop_king_rights G dx dy).halfmove_clock = G.halfmove_clock := by
  unfold drop_king_rights; split <;> [split <;> rfl; rfl]

@[simp] theorem drop_rook_rights_clock :
    (drop_rook_rights G sx sy dx dy).halfmove_clock = G.halfmove_clock := by
  unfold drop_rook_rights; split <;> [split <;> rfl; rfl]

@[simp] theorem set_en_passant_clock :
    (set_en_passant G sy dx dy).halfmove_clock = G.halfmove_clock := by
  unfold set_en_passant; split <;> rfl

@[simp] theorem promote_clock : (promote G dx dy).halfmove_clock = G.halfmove_clock := by
  unfold promote; split <;> rfl

@[simp] theorem promote_en_passant_x : (promote G dx dy).en_passant_x = G.en_passant_x := by
  unfold promote; split <;> rfl

@[simp] theorem promote_en_passant_y : (promote G dx dy).en_passant_y = G.en_passant_y := by
  unfold promote; split <;> rfl

end stages

section squares

variable {G : Game} {p : Piece} {sx sy dx dy : Int}

theorem capture_en_passant_get (hon : OnBoard dx sy) (x y : Int) :
    (capture_en_passant G p sy dx dy).board.get y x =
      if FiresEnPassant G p dx dy ∧ x = dx ∧ y = sy then (G.board.get sy dx).kill
      else G.board.get y x := by
  unfold capture_en_passant
  by_cases hf : FiresEnPassant G p dx dy
  · rw [if_pos hf, Board.get_set hon]
    simp only [hf, true_and]
  · rw [if_neg hf, if_neg (fun h => hf h.1)]

theorem move_piece_get (hs : OnBoard sx sy) (hd : OnBoard dx dy)
    (hne : ¬ (sx = dx ∧ sy = dy)) (x y : Int) :
    (move_piece G sx sy dx dy).board.get y x =
      if x = dx ∧ y = dy then G.board.get sy sx
      else if x = sx ∧ y = sy then (G.board.get sy sx).kill
      else G.board.get y x := by
  unfold move_piece
  simp only [Board.get_set hs, Board.get_set hd, if_neg hne]
  by_cases hxd : x = dx ∧ y = dy
  · have hxs : ¬ (x = sx ∧ y = sy) := by
      rintro ⟨rfl, rfl⟩
      exact hne hxd
    rw [if_pos hxd, if_pos hxd, if_neg hxs]
  · rw [if_neg hxd, if_neg hxd]

theorem castle_rook_of_not_castling
    (h : type_at G dx dy = some .king → (dx - sx).natAbs ≠ 2) : castle_rook G sx dx dy = G := by
  unfold castle_rook
  rw [if_neg]
  intro ⟨hk, h2⟩
  exact h hk h2

theorem promote_get (hd : OnBoard dx dy) (x y : Int) :
    (promote G dx dy).board.get y x =
      if x = dx ∧ y = dy ∧ type_at G dx dy = some .pawn ∧ (dy = 7 ∨ dy = 0) then
        { G.board.get dy dx with
          piece := some (get_default_queen (G.board.get dy dx).team) }
      else G.board.get y x := by
  unfold promote
  by_cases h : type_at G dx dy = some .pawn ∧ (dy = 7 ∨ dy = 0)
  · rw [if_pos h]
    simp only [Board.get_set hd, h, and_true]
  · rw [if_neg h, if_neg (fun hc => h hc.2.2)]

theorem finish_move_get (hd : OnBoard dx dy) (x y : Int) :
    (finish_move G dx dy).board.get y x =
      if x = dx ∧ y = dy then { G.board.get dy dx with has_moved := true }
      else G.board.get y x :=
  Board.get_set hd

theorem type_at_of_get {x y : Int} {ps : PieceState} (h : G.board.get y x = ps) :
    type_at G x y = ps.piece.map Piece.type := by
  unfold type_at
  rw [h]

end squares

/-! ## The whole move -/

/-- The moves described below. -/
structure Plain (G : Game) (p : Piece) (sx sy dx dy : Int) : Prop where
  src_on : OnBoard sx sy
  dst_on : OnBoard dx dy
  src_ne_dst : ¬ (sx = dx ∧ sy = dy)
  piece : (G.board.get sy sx).piece = some p
  not_castling : p.type = .king → (dx - sx).natAbs ≠ 2
  en_passant : FiresEnPassant G p dx dy → dx ≠ sx ∧ dy ≠ sy

section whole

variable {G : Game} {p : Piece} {sx sy dx dy : Int}

/-- The game once the piece has moved, before castling rights are touched. -/
def moved_game (G : Game) (p : Piece) (sx sy dx dy : Int) : Game :=
  move_piece (capture_en_passant (count_halfmove G p dx dy) p sy dx dy) sx sy dx dy

theorem Plain.moved_get (h : Plain G p sx sy dx dy) (x y : Int) :
    (moved_game G p sx sy dx dy).board.get y x =
      if x = dx ∧ y = dy then G.board.get sy sx
      else if x = sx ∧ y = sy then (G.board.get sy sx).kill
      else if FiresEnPassant G p dx dy ∧ x = dx ∧ y = sy then (G.board.get sy dx).kill
      else G.board.get y x := by
  have hcorner : OnBoard dx sy := ⟨h.dst_on.1, h.src_on.2⟩
  -- the captured pawn stands neither on the source nor on the destination
  have hsrc : ¬ (FiresEnPassant G p dx dy ∧ sx = dx ∧ True) := by
    intro ⟨hf, hx, _⟩
    exact (h.en_passant hf).1 hx.symm
  unfold moved_game
  rw [move_piece_get h.src_on h.dst_on h.src_ne_dst]
  simp only [capture_en_passant_get hcorner, firesEnPassant_count_halfmove,
    count_halfmove_board, hsrc, if_false]

/-- The destination holds the moved piece. -/
theorem Plain.moved_dst (h : Plain G p sx sy dx dy) :
    (moved_game G p sx sy dx dy).board.get dy dx = G.board.get sy sx := by
  rw [h.moved_get, if_pos ⟨rfl, rfl⟩]

theorem Plain.moved_type (h : Plain G p sx sy dx dy) :
    type_at (moved_game G p sx sy dx dy) dx dy = some p.type := by
  rw [type_at_of_get h.moved_dst, h.piece]
  rfl

theorem type_at_congr {G H : Game} (h : G.board = H.board) (x y : Int) :
    type_at G x y = type_at H x y := by
  unfold type_at
  rw [h]

/-- The castling branch is not taken. -/
theorem Plain.apply_move_eq (h : Plain G p sx sy dx dy) :
    apply_move G sx sy dx dy =
      finish_move (promote (set_en_passant (drop_rook_rights (drop_king_rights
        (moved_game G p sx sy dx dy) dx dy) sx sy dx dy) sy dx dy) dx dy) dx dy := by
  have hcastle : castle_rook (moved_game G p sx sy dx dy) sx dx dy =
      moved_game G p sx sy dx dy := by
    apply castle_rook_of_not_castling
    intro hk
    rw [h.moved_type, Option.some.injEq] at hk
    exact h.not_castling hk
  unfold apply_move
  simp only [h.piece]
  show finish_move (promote (set_en_passant (drop_rook_rights (drop_king_rights
    (castle_rook (moved_game G p sx sy dx dy) sx dx dy) dx dy) sx sy dx dy) sy dx dy) dx dy)
    dx dy = _
  rw [hcastle]

/-- **The board after a move.** -/
theorem Plain.apply_move_get (h : Plain G p sx sy dx dy) (x y : Int) :
    (apply_move G sx sy dx dy).board.get y x =
      if x = dx ∧ y = dy then (G.board.get sy sx).landed p dy
      else if x = sx ∧ y = sy then (G.board.get sy sx).kill
      else if FiresEnPassant G p dx dy ∧ x = dx ∧ y = sy then (G.board.get sy dx).kill
      else G.board.get y x := by
  rw [h.apply_move_eq, finish_move_get h.dst_on, promote_get h.dst_on, promote_get h.dst_on]
  have htype : type_at (set_en_passant (drop_rook_rights (drop_king_rights
      (moved_game G p sx sy dx dy) dx dy) sx sy dx dy) sy dx dy) dx dy = some p.type := by
    rw [← h.moved_type]
    apply type_at_congr
    simp
  simp only [set_en_passant_board, drop_rook_rights_board, drop_king_rights_board, htype,
    h.moved_dst, true_and, Option.some.injEq]
  by_cases hxd : x = dx ∧ y = dy
  · rw [if_pos hxd, if_pos hxd]
    unfold PieceState.landed
    by_cases hprom : p.type = .pawn ∧ (dy = 7 ∨ dy = 0)
    · rw [if_pos hprom, if_pos hprom]
    · rw [if_neg hprom, if_neg hprom, ← h.piece]
  · rw [if_neg hxd, if_neg hxd, if_neg (fun hc => hxd ⟨hc.1, hc.2.1⟩), h.moved_get, if_neg hxd]

/-- The turn passes, whatever the move. -/
theorem apply_move_side (h : (G.board.get sy sx).piece = some p) :
    (apply_move G sx sy dx dy).side_to_move = G.side_to_move.other := by
  unfold apply_move
  rw [h]
  show (if _ = Team.white then Team.black else Team.white) = _
  simp only [promote_side, set_en_passant_side, drop_rook_rights_side, drop_king_rights_side,
    castle_rook_side, move_piece_side, capture_en_passant_side, count_halfmove_side]
  cases G.side_to_move <;> rfl

/-- Pawn moves and moves to a live square reset the halfmove clock. -/
theorem apply_move_clock (h : (G.board.get sy sx).piece = some p) :
    (apply_move G sx sy dx dy).halfmove_clock =
      if p.type = .pawn ∨ (G.board.get dy dx).is_dead = false then 0
      else G.halfmove_clock + 1 := by
  have hcount : (count_halfmove G p dx dy).halfmove_clock =
      if p.type = .pawn ∨ (G.board.get dy dx).is_dead = false then 0
      else G.halfmove_clock + 1 := by
    unfold count_halfmove
    split <;> rfl
  unfold apply_move
  rw [h]
  show (promote _ dx dy).halfmove_clock = _
  -- no later stage writes the clock
  rw [promote_clock, set_en_passant_clock, drop_rook_rights_clock, drop_king_rights_clock,
    castle_rook_clock]
  show (capture_en_passant _ p sy dx dy).halfmove_clock = _
  rw [capture_en_passant_clock, hcount]

/-- Without a piece to move nothing happens. -/
theorem apply_move_empty (h : (G.board.get sy sx).piece = none) :
    apply_move G sx sy dx dy = G := by
  unfold apply_move
  rw [h]

theorem Plain.apply_move_side (h : Plain G p sx sy dx dy) :
    (apply_move G sx sy dx dy).side_to_move = G.side_to_move.other :=
  MultiplayChess.apply_move_side h.piece

/-- The en passant target after the move. -/
theorem Plain.apply_move_target (h : Plain G p sx sy dx dy) :
    ((apply_move G sx sy dx dy).en_passant_x, (apply_move G sx sy dx dy).en_passant_y) =
      if p.type = .pawn ∧ (dy - sy).natAbs = 2 then (dx, (sy + dy).tdiv 2) else (-1, -1) := by
  have htype : type_at (drop_rook_rights (drop_king_rights
      (moved_game G p sx sy dx dy) dx dy) sx sy dx dy) dx dy = some p.type := by
    rw [← h.moved_type]
    apply type_at_congr
    simp
  rw [h.apply_move_eq]
  show ((promote _ dx dy).en_passant_x, (promote _ dx dy).en_passant_y) = _
  rw [promote_en_passant_x, promote_en_passant_y]
  unfold set_en_passant
  rw [htype]
  simp only [Option.some.injEq]
  split <;> rfl

end whole

end MultiplayChess
