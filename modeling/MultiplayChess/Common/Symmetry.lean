import MultiplayChess.Chess.Mirror
import MultiplayChess.Common.Games
import MultiplayChess.Common.Unvalidated

/-! # Colour symmetry

    White and Black have their own offset tables, directions, corners and
    castling flags in the code.  Mirroring a game top to bottom and
    exchanging the colours commutes with everything the rules compute, so
    the two halves say the same. -/

namespace MultiplayChess

open Chess (OnBoard Man Placement Move AtMostOne Strikes Attacked InCheck mirror forward)

/-! ## The mirrored game -/

/-- The piece of the other colour. -/
def PieceState.flip (ps : PieceState) : PieceState :=
  { ps with
    piece := ps.piece.map fun p => piece_table ps.team.other p.type
    team := ps.team.other }

def Board.flip (b : Board) : Board :=
  fun y x => (b y.rev x).flip

/-- The game seen from the other side, with the colours exchanged. -/
def Game.flip (G : Game) : Game where
  board := G.board.flip
  side_to_move := G.side_to_move.other
  halfmove_clock := G.halfmove_clock
  white_can_castle_kingside := G.black_can_castle_kingside
  white_can_castle_queenside := G.black_can_castle_queenside
  black_can_castle_kingside := G.white_can_castle_kingside
  black_can_castle_queenside := G.white_can_castle_queenside
  en_passant_x := G.en_passant_x
  -- no target stays no target
  en_passant_y := if G.en_passant_x = -1 ∧ G.en_passant_y = -1 then -1 else 7 - G.en_passant_y

@[simp] theorem PieceState.flip_is_dead (ps : PieceState) : ps.flip.is_dead = ps.is_dead := rfl

@[simp] theorem PieceState.flip_team (ps : PieceState) : ps.flip.team = ps.team.other := rfl

@[simp] theorem PieceState.flip_has_moved (ps : PieceState) :
    ps.flip.has_moved = ps.has_moved := rfl

@[simp] theorem PieceState.flip_kill (ps : PieceState) : ps.kill.flip = ps.flip.kill := rfl

@[simp] theorem Game.flip_board (G : Game) : G.flip.board = G.board.flip := rfl

@[simp] theorem Game.flip_side (G : Game) : G.flip.side_to_move = G.side_to_move.other := rfl

theorem Team.other_beq_other (s t : Team) : (s.other == t.other) = (s == t) := by
  cases s <;> cases t <;> rfl

theorem Team.other_inj {s t : Team} : s.other = t.other ↔ s = t := by
  cases s <;> cases t <;> simp [Team.other]

/-- The piece type is kept. -/
theorem PieceState.flip_type (ps : PieceState) :
    ps.flip.piece.map Piece.type = ps.piece.map Piece.type := by
  unfold PieceState.flip
  rw [Option.map_map]
  congr 1
  funext p
  exact piece_table_type _ _

theorem PieceState.Ok.flip {ps : PieceState} (h : ps.Ok) : ps.flip.Ok where
  dead_iff := by
    rw [PieceState.flip_is_dead, h.dead_iff]
    exact Option.map_eq_none_iff.symm
  table := by
    intro q hq
    obtain ⟨p, _, rfl⟩ := Option.map_eq_some_iff.mp hq
    rw [piece_table_type]
    rfl

section board

variable {b : Board} {x y : Int}

theorem onBoard_flip : OnBoard x (7 - y) ↔ OnBoard x y := by
  unfold OnBoard
  omega

/-- Reading the mirrored board. -/
theorem Board.get_flip (h : OnBoard x y) : b.flip.get (7 - y) x = (b.get y x).flip := by
  rw [Board.get_on (onBoard_flip.mpr h), Board.get_on h]
  unfold Board.flip
  congr 2
  obtain ⟨_, hy0, hy8⟩ := h
  apply Fin.ext
  simp only [Fin.val_rev]
  omega

theorem Board.flip_get (h : OnBoard x y) : b.flip.get y x = (b.get (7 - y) x).flip := by
  rw [← Board.get_flip (onBoard_flip.mpr h), Int.sub_sub_self]

/-- Off the board everything is dead on either side. -/
theorem Board.get_flip_is_dead : (b.flip.get (7 - y) x).is_dead = (b.get y x).is_dead := by
  by_cases h : OnBoard x y
  · rw [Board.get_flip h, PieceState.flip_is_dead]
  · rw [Board.get_off h, Board.get_off (mt onBoard_flip.mp h)]

theorem Board.flip_set (v : PieceState) : (b.set y x v).flip = b.flip.set (7 - y) x v.flip := by
  funext y' x'
  have hrev : ((y'.rev : Fin 8) : Int) = 7 - (y' : Int) := by
    rw [Fin.val_rev]
    have := y'.isLt
    omega
  unfold Board.flip Board.set
  have hsame : ((y'.rev : Fin 8) : Int) = y ↔ (y' : Int) = 7 - y := by omega
  simp only [hsame]
  split <;> rfl

/-- The placement is mirrored. -/
theorem placement_flip (G : Game) : placement G.flip = mirror (placement G) := by
  funext x y
  unfold placement mirror
  by_cases h : OnBoard x y
  · rw [Game.flip_board, Board.flip_get h]
    unfold PieceState.man
    cases hd : (G.board.get (7 - y) x).is_dead with
    | true => simp [hd]
    | false =>
      simp only [PieceState.flip_is_dead, hd, Bool.false_eq_true, if_false]
      simp [PieceState.flip, Function.comp_def, Man.swap, Option.map_map]
  · simp only [Board.get_off h, Board.get_off (mt onBoard_flip.mp h)]
    rfl

theorem BoardOk.flip {G : Game} (h : BoardOk G) : BoardOk G.flip := by
  intro x y
  by_cases hon : OnBoard x y
  · rw [Game.flip_board, Board.flip_get hon]
    exact (h x (7 - y)).flip
  · rw [Board.get_off hon]
    exact .empty

/-- The type on a square, on or off the board. -/
theorem type_at_flip (G : Game) (x y : Int) : type_at G.flip x (7 - y) = type_at G x y := by
  unfold type_at
  by_cases h : OnBoard x y
  · rw [Game.flip_board, Board.get_flip h, PieceState.flip_type]
  · rw [Board.get_off h, Board.get_off (mt onBoard_flip.mp h)]

end board

/-! ## Attacks and check -/

/-- At most one king of each colour. -/
def OneKing (G : Game) : Prop :=
  ∀ t, AtMostOne (placement G) ⟨t, .king⟩

theorem OneKing.flip {G : Game} (h : OneKing G) : OneKing G.flip := by
  intro t
  have hmirror := (h t.other).mirror
  rw [placement_flip]
  simpa [Man.swap] using hmirror

/-- The king search starts at the other end, but finds the same king. -/
theorem is_in_check_flip {G : Game} (hok : BoardOk G) (hking : OneKing G) (t : Team) :
    is_in_check G.flip t.other = is_in_check G t := by
  rw [Bool.eq_iff_iff, is_in_check_iff_of_atMostOne hok.flip (hking.flip t.other),
    is_in_check_iff_of_atMostOne hok (hking t), placement_flip]
  exact Chess.inCheck_mirror_iff

/-! ## Kings do not multiply -/

section kings

variable {G H : Game} {p : Piece} {sx sy dx dy : Int}

@[simp] theorem PieceState.man_kill (ps : PieceState) : ps.kill.man = none := rfl

theorem OneKing.of_sub (h : OneKing G) (hsub : ∀ x y t,
    placement H x y = some ⟨t, .king⟩ → placement G x y = some ⟨t, .king⟩) : OneKing H := by
  intro t x y x' y' hk hk'
  exact h t x y x' y' (hsub x y t hk) (hsub x' y' t hk')

/-- A man goes from one square to another, or vanishes where both are the
    same. -/
theorem OneKing.of_transfer (h : OneKing G) (fx fy tx ty : Int) (hmove : ∀ x y,
    placement H x y = if x = fx ∧ y = fy then none else if x = tx ∧ y = ty then placement G fx fy
      else placement G x y) : OneKing H := by
  intro t x y x' y' hk hk'
  -- each king after stood on the source, if it is on the destination, or where it is
  have hback : ∀ {x y}, placement H x y = some ⟨t, .king⟩ → ¬ (x = fx ∧ y = fy) ∧
      ((x = tx ∧ y = ty ∧ placement G fx fy = some ⟨t, .king⟩) ∨
        placement G x y = some ⟨t, .king⟩) := by
    intro x y hking
    rw [hmove] at hking
    split at hking
    · cases hking
    · rename_i hsrc
      split at hking
      · rename_i hdst
        exact ⟨hsrc, .inl ⟨hdst.1, hdst.2, hking⟩⟩
      · exact ⟨hsrc, .inr hking⟩
  obtain ⟨hsrc, hfrom⟩ := hback hk
  obtain ⟨hsrc', hfrom'⟩ := hback hk'
  rcases hfrom with ⟨hx, hy, hman⟩ | hman <;> rcases hfrom' with ⟨hx', hy', hman'⟩ | hman'
  · exact ⟨hx'.trans hx.symm, hy'.trans hy.symm⟩
  · exact absurd (h t fx fy x' y' hman hman') hsrc'
  · exact absurd (h t fx fy x y hman' hman) hsrc
  · exact h t x y x' y' hman hman'

theorem OneKing.captured (h : OneKing G) (hs : OnBoard sx sy) (hd : OnBoard dx dy) :
    OneKing (capture_en_passant G p sy dx dy) := by
  have hcap : OnBoard dx sy := ⟨hd.1, hs.2⟩
  apply h.of_sub
  intro x y t hk
  unfold placement at hk
  rw [capture_en_passant_get hcap] at hk
  split at hk
  · cases hk
  · exact hk

theorem OneKing.moved (h : OneKing G) (hs : OnBoard sx sy) (hd : OnBoard dx dy) :
    OneKing (move_piece G sx sy dx dy) := by
  apply h.of_transfer sx sy dx dy
  intro x y
  unfold placement move_piece
  simp only [Board.get_set hs, Board.get_set hd, apply_ite PieceState.man, PieceState.man_kill]

theorem OneKing.castled (h : OneKing G) (hs : OnBoard sx sy) (hd : OnBoard dx dy) :
    OneKing (castle_rook G sx dx dy) := by
  unfold castle_rook
  by_cases hcastle : type_at G dx dy = some .king ∧ (dx - sx).natAbs = 2
  · rw [if_pos hcastle]
    have hfrom : OnBoard (if dx > sx then 7 else 0) dy := rook_from_on hd
    have hto := rook_to_on hs hd hcastle.2
    apply h.of_transfer (if dx > sx then 7 else 0) dy (if dx > sx then dx - 1 else dx + 1) dy
    intro x y
    unfold placement
    simp only [Board.get_set hfrom, Board.get_set hto, apply_ite PieceState.man,
      PieceState.man_kill]
  · rw [if_neg hcastle]
    exact h

/-- What stands on a promotion square afterwards is a queen. -/
theorem OneKing.promoted (h : OneKing G) (hd : OnBoard dx dy) : OneKing (promote G dx dy) := by
  apply h.of_sub
  intro x y t hk
  unfold placement at hk
  rw [promote_get hd] at hk
  split at hk
  · unfold PieceState.man at hk
    split at hk
    · cases hk
    · simp [get_default_queen] at hk
  · exact hk

theorem OneKing.finished (h : OneKing G) (hd : OnBoard dx dy) : OneKing (finish_move G dx dy) := by
  apply h.of_sub
  intro x y t hk
  unfold placement at hk
  rw [finish_move_get hd] at hk
  split at hk
  · rename_i hdst
    obtain ⟨rfl, rfl⟩ := hdst
    exact hk
  · exact hk

theorem OneKing.congr (h : OneKing G) (hboard : G.board = H.board) : OneKing H := by
  apply h.of_sub
  intro x y t hk
  unfold placement at hk ⊢
  rw [hboard]
  exact hk

/-- No move, legal or not, makes a second king. -/
theorem OneKing.applied (h : OneKing G) (hs : OnBoard sx sy) (hd : OnBoard dx dy) :
    OneKing (apply_move G sx sy dx dy) := by
  unfold apply_move
  split
  · exact h
  · rename_i p _
    have hcount : OneKing (count_halfmove G p dx dy) := h.congr (by simp)
    have hmoved : OneKing (castle_rook (move_piece (capture_en_passant
        (count_halfmove G p dx dy) p sy dx dy) sx sy dx dy) sx dx dy) :=
      ((hcount.captured hs hd).moved hs hd).castled hs hd
    apply OneKing.finished _ hd
    apply OneKing.promoted _ hd
    exact hmoved.congr (by simp)

end kings

/-! ## Applying a move -/

section stages

variable {G : Game} {p q : Piece} {sx sy dx dy : Int}

theorem count_halfmove_flip (hpq : q.type = p.type) :
    count_halfmove G.flip q dx (7 - dy) = (count_halfmove G p dx dy).flip := by
  unfold count_halfmove
  rw [hpq, Game.flip_board, Board.get_flip_is_dead]
  split <;> rfl

theorem firesEnPassant_flip (hpq : q.type = p.type) (hd : OnBoard dx dy) :
    FiresEnPassant G.flip q dx (7 - dy) ↔ FiresEnPassant G p dx dy := by
  have hx := hd.1
  unfold FiresEnPassant Game.flip
  simp only [hpq]
  -- a square of the board is not `(-1, -1)`
  by_cases hnone : G.en_passant_x = -1 ∧ G.en_passant_y = -1
  · have hoff : dx ≠ G.en_passant_x := by omega
    simp only [hoff, false_and, and_false]
  · have hrank : 7 - dy = 7 - G.en_passant_y ↔ dy = G.en_passant_y := by omega
    rw [if_neg hnone, hrank]

theorem capture_en_passant_flip (hpq : q.type = p.type) (hs : OnBoard sx sy)
    (hd : OnBoard dx dy) :
    capture_en_passant G.flip q (7 - sy) dx (7 - dy) =
      (capture_en_passant G p sy dx dy).flip := by
  have hcap : OnBoard dx sy := ⟨hd.1, hs.2⟩
  unfold capture_en_passant
  simp only [firesEnPassant_flip hpq hd]
  split
  · rw [Game.flip_board, Board.get_flip hcap, ← PieceState.flip_kill, ← Board.flip_set]
    rfl
  · rfl

theorem move_piece_flip (hs : OnBoard sx sy) :
    move_piece G.flip sx (7 - sy) dx (7 - dy) = (move_piece G sx sy dx dy).flip := by
  unfold move_piece
  simp only [Game.flip_board, Board.get_flip hs, ← Board.flip_set, ← PieceState.flip_kill]
  rfl

theorem castle_rook_flip (hd : OnBoard dx dy) :
    castle_rook G.flip sx dx (7 - dy) = (castle_rook G sx dx dy).flip := by
  have hfrom : OnBoard (if dx > sx then 7 else 0) dy := rook_from_on hd
  unfold castle_rook
  rw [type_at_flip]
  split
  · simp only [Game.flip_board, Board.get_flip hfrom, ← Board.flip_set, ← PieceState.flip_kill]
    rfl
  · rfl

theorem drop_king_rights_flip (hd : OnBoard dx dy) :
    drop_king_rights G.flip dx (7 - dy) = (drop_king_rights G dx dy).flip := by
  unfold drop_king_rights
  rw [type_at_flip, Game.flip_board, Board.get_flip hd, PieceState.flip_team]
  split
  · cases (G.board.get dy dx).team with
    | white => rfl
    | black => rfl
  · rfl

/-- The corners of one colour are the mirrored corners of the other. -/
theorem drop_rook_rights_flip (hd : OnBoard dx dy) :
    drop_rook_rights G.flip sx (7 - sy) dx (7 - dy) =
      (drop_rook_rights G sx sy dx dy).flip := by
  have hrank7 : 7 - sy = 7 ↔ sy = 0 := by omega
  have hrank0 : 7 - sy = 0 ↔ sy = 7 := by omega
  unfold drop_rook_rights
  rw [type_at_flip, Game.flip_board, Board.get_flip hd, PieceState.flip_team,
    PieceState.flip_has_moved]
  split
  · cases (G.board.get dy dx).team with
    | white =>
      simp only [Team.other, hrank7]
      rfl
    | black =>
      simp only [Team.other, hrank0]
      rfl
  · rfl

/-- Two ranks apart, the mean of two ranks is a whole number. -/
theorem set_en_passant_flip (hs : OnBoard sx sy) (hd : OnBoard dx dy) :
    set_en_passant G.flip (7 - sy) dx (7 - dy) = (set_en_passant G sy dx dy).flip := by
  have hsy := hs.2
  have hdy := hd.2
  have hx : ¬ (dx = -1) := by
    have := hd.1
    omega
  unfold set_en_passant
  rw [type_at_flip, show 7 - dy - (7 - sy) = -(dy - sy) by omega, Int.natAbs_neg]
  split
  · rename_i hdouble
    have hmean : (7 - sy + (7 - dy)).tdiv 2 = 7 - (sy + dy).tdiv 2 := by
      rw [Int.tdiv_eq_ediv_of_nonneg (by omega), Int.tdiv_eq_ediv_of_nonneg (by omega)]
      omega
    unfold Game.flip
    simp only [hmean, hx, false_and, if_false]
  · rfl

theorem promote_flip (hd : OnBoard dx dy) :
    promote G.flip dx (7 - dy) = (promote G dx dy).flip := by
  have hlast : 7 - dy = 7 ∨ 7 - dy = 0 ↔ dy = 7 ∨ dy = 0 := by omega
  unfold promote
  rw [type_at_flip]
  simp only [hlast]
  split
  · have hqueen : ({ (G.board.get dy dx).flip with
          piece := some (get_default_queen (G.board.get dy dx).flip.team) } : PieceState) =
        PieceState.flip { G.board.get dy dx with
          piece := some (get_default_queen (G.board.get dy dx).team) } := by
      simp [PieceState.flip, get_default_queen]
    simp only [Game.flip_board, Board.get_flip hd]
    rw [hqueen, ← Board.flip_set]
    rfl
  · rfl

theorem finish_move_flip (hd : OnBoard dx dy) :
    finish_move G.flip dx (7 - dy) = (finish_move G dx dy).flip := by
  have hside : (if G.flip.side_to_move = .white then Team.black else .white) =
      (if G.side_to_move = .white then Team.black else .white).other := by
    rw [Game.flip_side]
    cases G.side_to_move <;> rfl
  have hmoved : ({ (G.board.get dy dx).flip with has_moved := true } : PieceState) =
      PieceState.flip { G.board.get dy dx with has_moved := true } := rfl
  unfold finish_move
  rw [hside]
  simp only [Game.flip_board, Board.get_flip hd, hmoved, ← Board.flip_set]
  rfl

/-- **Applying a move** commutes with the mirror, for any move between
    squares of the board. -/
theorem apply_move_flip (hs : OnBoard sx sy) (hd : OnBoard dx dy) :
    apply_move G.flip sx (7 - sy) dx (7 - dy) = (apply_move G sx sy dx dy).flip := by
  unfold apply_move
  rw [Game.flip_board, Board.get_flip hs]
  cases hp : (G.board.get sy sx).piece with
  | none => simp [PieceState.flip, hp]
  | some p =>
    have hq : (G.board.get sy sx).flip.piece =
        some (piece_table (G.board.get sy sx).team.other p.type) := by
      simp [PieceState.flip, hp]
    have htype := piece_table_type (G.board.get sy sx).team.other p.type
    rw [hq]
    simp only [count_halfmove_flip htype, capture_en_passant_flip htype hs hd,
      move_piece_flip hs, castle_rook_flip hd, drop_king_rights_flip hd,
      drop_rook_rights_flip hd, set_en_passant_flip hs hd, promote_flip hd, finish_move_flip hd]

end stages

/-! ## Legality -/

section legality

variable {G : Game} {t : Team} {k : PieceType} {sx sy dx dy : Int}

/-- A pawn's tests, one by one. -/
theorem movement_ok_pawn_flip (hs : OnBoard sx sy) (hd : OnBoard dx dy) :
    movement_ok G.flip (piece_table t.other .pawn) sx (7 - sy) dx (7 - dy) =
      movement_ok G (piece_table t .pawn) sx sy dx dy := by
  have hdir : pawn_dir (G.board.get sy sx).team.other = -pawn_dir (G.board.get sy sx).team := by
    simp only [pawn_dir_eq, Chess.forward_other]
  -- the rank passed over in a double step
  have hmid : 7 - sy + -pawn_dir (G.board.get sy sx).team =
      7 - (sy + pawn_dir (G.board.get sy sx).team) := by omega
  have hone : 7 - dy - (7 - sy) = -pawn_dir (G.board.get sy sx).team ↔
      dy - sy = pawn_dir (G.board.get sy sx).team := by omega
  have htwo : 7 - dy - (7 - sy) = 2 * -pawn_dir (G.board.get sy sx).team ↔
      dy - sy = 2 * pawn_dir (G.board.get sy sx).team := by omega
  have htarget : (G.flip.en_passant_x = dx ∧ G.flip.en_passant_y = 7 - dy) ↔
      (G.en_passant_x = dx ∧ G.en_passant_y = dy) := by
    have hfires := firesEnPassant_flip (G := G) (p := piece_table t .pawn)
      (q := piece_table t .pawn) rfl hd
    unfold FiresEnPassant at hfires
    simpa only [piece_table_type, true_and, eq_comm] using hfires
  rw [Bool.eq_iff_iff]
  unfold movement_ok
  simp only [piece_table_type, Game.flip_board, Board.get_flip hs, Board.get_flip hd,
    PieceState.flip_team, PieceState.flip_has_moved, PieceState.flip_is_dead, hdir, hmid,
    Board.get_flip_is_dead, bne, Team.other_beq_other, Bool.or_eq_true, Bool.and_eq_true,
    decide_eq_true_eq, hone, htwo, and_assoc, htarget]

/-- The movement switch says the same of the mirrored move. -/
theorem movement_ok_flip (hok : BoardOk G) (hs : OnBoard sx sy) (hd : OnBoard dx dy) :
    movement_ok G.flip (piece_table t.other k) sx (7 - sy) dx (7 - dy) =
      movement_ok G (piece_table t k) sx sy dx dy := by
  by_cases hk : k = .pawn
  · subst hk
    exact movement_ok_pawn_flip hs hd
  · rw [Bool.eq_iff_iff, movement_ok_strikes hok.flip hk, movement_ok_strikes hok hk,
      placement_flip]
    exact Chess.strikes_mirror_iff (c := ⟨t, k⟩)

/-- The tests before the self-check test. -/
theorem reachesSelfCheck_flip (hok : BoardOk G) (hs : OnBoard sx sy) (hd : OnBoard dx dy) :
    ReachesSelfCheck G.flip sx (7 - sy) dx (7 - dy) ↔ ReachesSelfCheck G sx sy dx dy := by
  unfold ReachesSelfCheck
  simp only [in_board_iff, onBoard_flip, hs, hd, and_self, true_and, Game.flip_board,
    Board.get_flip hs, Board.get_flip hd, PieceState.flip_is_dead, PieceState.flip_team,
    Game.flip_side, Team.other_inj]
  have hdst : (G.board.get dy dx).flip.piece = none ↔ (G.board.get dy dx).piece = none :=
    Option.map_eq_none_iff
  cases hp : (G.board.get sy sx).piece with
  | none => simp [PieceState.flip, hp]
  | some p =>
    have hq : (G.board.get sy sx).flip.piece =
        some (piece_table (G.board.get sy sx).team.other p.type) := by
      simp [PieceState.flip, hp]
    have htable : piece_table (G.board.get sy sx).team p.type = p :=
      ((hok sx sy).table p hp).symm
    have hmove : movement_ok G.flip (piece_table (G.board.get sy sx).team.other p.type) sx
        (7 - sy) dx (7 - dy) = movement_ok G p sx sy dx dy := by
      rw [movement_ok_flip hok hs hd, htable]
    simp only [hq, Option.some.injEq, exists_eq_left', Ne, hdst, hmove]

/-- **Legality** is the same on the mirrored board. -/
theorem is_move_legal_flip (hok : BoardOk G) (hking : OneKing G) (hs : OnBoard sx sy)
    (hd : OnBoard dx dy) :
    is_move_legal G.flip sx (7 - sy) dx (7 - dy) = is_move_legal G sx sy dx dy := by
  have hcheck := is_in_check_flip (hok.applied sx sy dx dy) (hking.applied hs hd)
    (G.board.get sy sx).team
  rw [Bool.eq_iff_iff, is_move_legal_eq_true_iff, is_move_legal_eq_true_iff,
    reachesSelfCheck_flip hok hs hd, apply_move_flip hs hd, Game.flip_board, Board.get_flip hs,
    PieceState.flip_team, hcheck]

/-- There is a legal move on the mirrored board if there is one. -/
theorem has_legal_move_flip (hok : BoardOk G) (hking : OneKing G) :
    has_legal_move G.flip = has_legal_move G := by
  rw [Bool.eq_iff_iff, has_legal_move_iff, has_legal_move_iff]
  constructor
  · rintro ⟨sx, sy, dx, dy, hlegal⟩
    obtain ⟨⟨hon, _⟩, _⟩ := (is_move_legal_eq_true_iff ..).mp hlegal
    rw [in_board_iff, in_board_iff] at hon
    refine ⟨sx, 7 - sy, dx, 7 - dy, ?_⟩
    rwa [← is_move_legal_flip hok hking (onBoard_flip.mpr hon.1) (onBoard_flip.mpr hon.2),
      Int.sub_sub_self, Int.sub_sub_self]
  · rintro ⟨sx, sy, dx, dy, hlegal⟩
    obtain ⟨⟨hon, _⟩, _⟩ := (is_move_legal_eq_true_iff ..).mp hlegal
    rw [in_board_iff, in_board_iff] at hon
    exact ⟨sx, 7 - sy, dx, 7 - dy, by rwa [is_move_legal_flip hok hking hon.1 hon.2]⟩

end legality

/-- **Colour symmetry.** On every well formed board with at most one king of
    each colour, legality, the effect of a move, check, checkmate and
    stalemate commute with the mirror. -/
theorem colour_symmetry {G : Game} (hok : BoardOk G) (hking : OneKing G) :
    (∀ m : Move, OnBoard m.sx m.sy → OnBoard m.dx m.dy →
      is_move_legal G.flip m.flip.sx m.flip.sy m.flip.dx m.flip.dy =
        is_move_legal G m.sx m.sy m.dx m.dy ∧
      apply_move G.flip m.flip.sx m.flip.sy m.flip.dx m.flip.dy =
        (apply_move G m.sx m.sy m.dx m.dy).flip) ∧
    (∀ t, is_in_check G.flip t.other = is_in_check G t) ∧
    is_checkmate G.flip = is_checkmate G ∧
    is_stalemate G.flip = is_stalemate G := by
  have hcheck := is_in_check_flip hok hking
  have hmoves := has_legal_move_flip hok hking
  constructor
  · intro m hs hd
    exact ⟨is_move_legal_flip hok hking hs hd, apply_move_flip hs hd⟩
  · refine ⟨hcheck, ?_, ?_⟩
    · unfold is_checkmate
      rw [Game.flip_side, hcheck, hmoves]
    · unfold is_stalemate
      rw [Game.flip_side, hcheck, hmoves]

theorem start_oneKing (G₀ : Game) : OneKing (init_startpos G₀) := by
  intro t
  rw [start_placement]
  exact (start_king t).atMostOne

/-- White's first pawn move, seen from the other side. -/
theorem colour_symmetry_start :
    is_move_legal (init_startpos .zero).flip 4 6 4 4 =
      is_move_legal (init_startpos .zero) 4 1 4 3 :=
  ((colour_symmetry (start_board_ok .zero) (start_oneKing .zero)).1 ⟨4, 1, 4, 3⟩
    (by decide) (by decide)).1

end MultiplayChess
