import MultiplayChess.Common.Movement
import MultiplayChess.Common.ApplyMove

/-! # The code follows the rules

    Related states stay related: if `G` stands for the position `p` and the
    man `c` may make the move `m` in `p`, then `apply_move` takes `G` to a
    game that stands for `p.play c m`.  With the movement switch and the
    check test this decides legality: `is_move_legal` accepts exactly the
    legal moves. -/

namespace MultiplayChess

open Chess (OnBoard Man Position Move Sound PseudoLegal Legal PawnMoves Moves DoubleStep
  EnPassantSquare InCheck after promoted forward pawnRank lastRank forward_cases)

section step

variable {G : Game} {p : Position} {k : PieceType} {m : Move}

/-- The source square of a move that may be made. -/
theorem Tracks.source (h : Tracks G p) (hp : PseudoLegal p ⟨p.turn, k⟩ m) :
    (G.board.get m.sy m.sx).is_dead = false ∧ (G.board.get m.sy m.sx).team = p.turn ∧
      (G.board.get m.sy m.sx).piece = some (piece_table p.turn k) :=
  (h.man_iff m.sx m.sy p.turn k).mp hp.man

/-- The code's en passant condition is the one of the rules. -/
theorem Tracks.fires_iff (h : Tracks G p) (hp : PseudoLegal p ⟨p.turn, k⟩ m) :
    FiresEnPassant G (piece_table p.turn k) m.dx m.dy ↔
      k = .pawn ∧ EnPassantSquare p.board p.last p.turn m.dx m.dy := by
  rw [← h.target_iff hp.dst_on, eq_comm (b := m.dx), eq_comm (b := m.dy)]
  unfold FiresEnPassant
  rw [piece_table_type]

/-- A pawn that goes to the en passant square steps diagonally: behind that
    square, seen from the pawn, stands the pawn it captures. -/
theorem PseudoLegal.enPassant_diagonal (hs : Sound p) (hp : PseudoLegal p ⟨p.turn, .pawn⟩ m)
    (hep : EnPassantSquare p.board p.last p.turn m.dx m.dy) : m.dx ≠ m.sx ∧ m.dy ≠ m.sy := by
  have hempty := hs.enPassant_empty hep
  obtain ⟨l, hl, hd, hx, hy⟩ := hep
  have hrank := (hs.double l hl hd).1
  obtain ⟨hpawn, _, hly⟩ := hd
  have hf := forward_cases p.turn
  have hfo := forward_cases p.turn.other
  rw [Chess.forward_other] at hy hly hfo
  have hmoves : PawnMoves p.board p.last p.turn m := hp.moves
  cases hmoves with
  | step hmx hmy _ =>
    -- the source would be the square of the pawn that made the double step
    have hsx : m.sx = l.dx := by omega
    have hsy : m.sy = l.dy := by omega
    have hman := hp.man
    rw [hsx, hsy, hpawn] at hman
    exact absurd (congrArg Man.team (Option.some.inj hman)) (Team.other_ne _)
  | double _ _ _ _ _ => omega
  | capture e _ he _ =>
    rw [hempty] at he
    cases he
  | enPassant hstrike _ =>
    have hy' := hstrike.1
    have hx' := hstrike.2
    omega

/-- A move of the rules is one that the board lemmas describe. -/
theorem Tracks.plain (h : Tracks G p) (hs : Sound p) (hp : PseudoLegal p ⟨p.turn, k⟩ m) :
    Plain G (piece_table p.turn k) m.sx m.sy m.dx m.dy where
  src_on := hp.src_on
  dst_on := hp.dst_on
  src_ne_dst := hp.src_ne_dst
  piece := (h.source hp).2.2
  not_castling := by
    intro hk
    rw [piece_table_type] at hk
    subst hk
    -- a king of the rules steps one file at most
    have hstep : (m.dx - m.sx).natAbs ≤ 1 := hp.moves.1
    omega
  en_passant := by
    intro hf
    obtain ⟨rfl, hep⟩ := (h.fires_iff hp).mp hf
    exact PseudoLegal.enPassant_diagonal hs hp hep

/-- The code captures en passant exactly when the rules do. -/
theorem Tracks.fires_iff_after (h : Tracks G p) (hs : Sound p)
    (hp : PseudoLegal p ⟨p.turn, k⟩ m) :
    FiresEnPassant G (piece_table p.turn k) m.dx m.dy ↔
      k = .pawn ∧ m.dx ≠ m.sx ∧ p.board m.dx m.dy = none := by
  rw [h.fires_iff hp]
  constructor
  · rintro ⟨rfl, hep⟩
    exact ⟨rfl, (PseudoLegal.enPassant_diagonal hs hp hep).1, hs.enPassant_empty hep⟩
  · rintro ⟨rfl, hdiag, hempty⟩
    exact ⟨rfl, (hp.enPassant_captures rfl hdiag hempty).1⟩

/-- A pawn lands past its initial rank, and on a back rank only if that is
    its last one. -/
theorem PseudoLegal.pawn_lands (hs : Sound p) (hp : PseudoLegal p ⟨p.turn, .pawn⟩ m) :
    m.dy ≠ pawnRank p.turn ∧ ((m.dy = 7 ∨ m.dy = 0) ↔ m.dy = lastRank p.turn) := by
  have hfrom := hs.pawns m.sx m.sy p.turn hp.man
  have hadv := Moves.pawn_advances (show PawnMoves p.board p.last p.turn m from hp.moves)
  have hf := forward_cases p.turn
  omega

/-- The code promotes exactly when the rules do. -/
theorem Tracks.landed_man (h : Tracks G p) (hs : Sound p)
    (hp : PseudoLegal p ⟨p.turn, k⟩ m) :
    ((G.board.get m.sy m.sx).landed (piece_table p.turn k) m.dy).man =
      some (promoted ⟨p.turn, k⟩ m.dy) := by
  obtain ⟨hlive, hteam, _⟩ := h.source hp
  have hprom : (k = .pawn ∧ (m.dy = 7 ∨ m.dy = 0)) ↔ (k = .pawn ∧ m.dy = lastRank p.turn) := by
    constructor
    · rintro ⟨rfl, hy⟩
      exact ⟨rfl, (PseudoLegal.pawn_lands hs hp).2.mp hy⟩
    · rintro ⟨rfl, hy⟩
      exact ⟨rfl, (PseudoLegal.pawn_lands hs hp).2.mpr hy⟩
  unfold PieceState.man PieceState.landed promoted
  simp only [hlive, hteam, piece_table_type, hprom]
  by_cases hq : k = .pawn ∧ m.dy = lastRank p.turn
  · simp [hq, get_default_queen]
  · simp [hq]

/-- The placement after `apply_move` is the one after the move. -/
theorem Tracks.placement_after (h : Tracks G p) (hs : Sound p)
    (hp : PseudoLegal p ⟨p.turn, k⟩ m) :
    MultiplayChess.placement (apply_move G m.sx m.sy m.dx m.dy) =
      after p.board ⟨p.turn, k⟩ m := by
  funext x y
  unfold MultiplayChess.placement after
  rw [(h.plain hs hp).apply_move_get]
  simp only [h.fires_iff_after hs hp]
  -- destination, source, captured pawn, and the rest of the board
  by_cases hd : x = m.dx ∧ y = m.dy
  · rw [if_pos hd, if_pos hd]
    exact h.landed_man hs hp
  · rw [if_neg hd, if_neg hd]
    by_cases hsrc : x = m.sx ∧ y = m.sy
    · rw [if_pos hsrc, if_pos hsrc]
      rfl
    · rw [if_neg hsrc, if_neg hsrc]
      split
      · rfl
      · exact h.board_eq x y

theorem Tracks.landed_ok (h : Tracks G p) (hp : PseudoLegal p ⟨p.turn, k⟩ m) :
    ((G.board.get m.sy m.sx).landed (piece_table p.turn k) m.dy).Ok := by
  obtain ⟨hlive, hteam, _⟩ := h.source hp
  unfold PieceState.landed
  constructor
  · simp only [hlive, Bool.false_eq_true, false_iff]
    split <;> simp
  · intro q hq
    simp only [hteam] at hq ⊢
    split at hq <;> cases hq <;> simp [get_default_queen]

theorem Tracks.board_ok_after (h : Tracks G p) (hs : Sound p)
    (hp : PseudoLegal p ⟨p.turn, k⟩ m) : BoardOk (apply_move G m.sx m.sy m.dx m.dy) := by
  intro x y
  rw [(h.plain hs hp).apply_move_get]
  split
  · exact h.landed_ok hp
  · split
    · exact .kill _
    · split
      · exact .kill _
      · exact h.board_ok x y

theorem Tracks.unmoved_after (h : Tracks G p) (hs : Sound p)
    (hp : PseudoLegal p ⟨p.turn, k⟩ m) (x y : Int) (t : Team)
    (hpawn : after p.board ⟨p.turn, k⟩ m x y = some ⟨t, .pawn⟩) :
    ((apply_move G m.sx m.sy m.dx m.dy).board.get y x).has_moved = false ↔ y = pawnRank t := by
  rw [(h.plain hs hp).apply_move_get]
  simp only [h.fires_iff_after hs hp]
  unfold after at hpawn
  by_cases hd : x = m.dx ∧ y = m.dy
  · -- the pawn that just moved has left its initial rank
    rw [if_pos hd, Option.some.injEq] at hpawn
    rw [if_pos hd]
    unfold promoted at hpawn
    split at hpawn
    · cases hpawn
    · cases hpawn
      rw [hd.2]
      have := (PseudoLegal.pawn_lands hs hp).1
      simp [PieceState.landed, this]
  · -- any other pawn stood there before, and its square was not touched
    rw [if_neg hd] at hpawn ⊢
    split at hpawn
    · cases hpawn
    · rename_i hsrc
      rw [if_neg hsrc]
      split at hpawn
      · cases hpawn
      · rename_i hep
        rw [if_neg hep]
        exact h.unmoved x y t hpawn

/-- The pawn that stands on the destination after a move moved itself. -/
theorem PseudoLegal.moved_pawn {t : Team} (h : after p.board ⟨p.turn, k⟩ m m.dx m.dy =
    some ⟨t, .pawn⟩) : k = .pawn ∧ t = p.turn := by
  rw [Chess.after_dst, Option.some.injEq] at h
  unfold promoted at h
  split at h
  · cases h
  · cases h
    exact ⟨rfl, rfl⟩

theorem Tracks.target_after (h : Tracks G p) (hs : Sound p)
    (hp : PseudoLegal p ⟨p.turn, k⟩ m) :
    TargetOf (p.play ⟨p.turn, k⟩ m) (apply_move G m.sx m.sy m.dx m.dy).en_passant_x
      (apply_move G m.sx m.sy m.dx m.dy).en_passant_y := by
  have htarget := (h.plain hs hp).apply_move_target
  rw [piece_table_type] at htarget
  have hf := forward_cases p.turn
  by_cases hdouble : k = .pawn ∧ (m.dy - m.sy).natAbs = 2
  · rw [if_pos hdouble, Prod.mk.injEq] at htarget
    obtain ⟨rfl, habs⟩ := hdouble
    have hmoves : PawnMoves p.board p.last p.turn m := hp.moves
    -- two ranks at once are a double step
    have hmove : m.dx = m.sx ∧ m.dy = m.sy + 2 * forward p.turn ∧ m.sy = pawnRank p.turn := by
      cases hmoves with
      | step _ hy _ => omega
      | double hx hy hrank _ _ => exact ⟨hx, hy, hrank⟩
      | capture _ hstrike _ _ => have := hstrike.1; omega
      | enPassant hstrike _ => have := hstrike.1; omega
    obtain ⟨hx, hy, hrank⟩ := hmove
    -- a double step does not end on a last rank
    have hstays : promoted ⟨p.turn, .pawn⟩ m.dy = ⟨p.turn, .pawn⟩ := by
      unfold promoted
      rw [if_neg]
      intro ⟨_, hlast⟩
      simp only at hlast
      omega
    refine .double m rfl ⟨?_, hx, ?_⟩ htarget.1 ?_
    · show after p.board _ m m.dx m.dy = some ⟨p.turn.other.other, .pawn⟩
      rw [Team.other_other, Chess.after_dst, hstays]
    · show m.dy = m.sy + 2 * forward p.turn.other.other
      rw [Team.other_other]
      exact hy
    · show _ = m.sy + forward p.turn.other.other
      -- the code's target is the mean of the two ranks
      have hnonneg : 0 ≤ m.sy + m.dy := by omega
      rw [Team.other_other, htarget.2, Int.tdiv_eq_ediv_of_nonneg hnonneg]
      omega
  · -- no double step, no target
    rw [if_neg hdouble, Prod.mk.injEq] at htarget
    refine .none ?_ htarget.1 htarget.2
    intro l hl hd
    obtain rfl : m = l := Option.some.inj hl
    obtain ⟨hpawn, _, hy⟩ := hd
    simp only [Position.play, Team.other_other] at hpawn hy
    obtain ⟨rfl, _⟩ := PseudoLegal.moved_pawn hpawn
    exact hdouble ⟨rfl, by omega⟩

/-- **The move preserves the relation.** -/
theorem Tracks.play (h : Tracks G p) (hs : Sound p) (hp : PseudoLegal p ⟨p.turn, k⟩ m) :
    Tracks (apply_move G m.sx m.sy m.dx m.dy) (p.play ⟨p.turn, k⟩ m) where
  board_ok := h.board_ok_after hs hp
  placement := h.placement_after hs hp
  turn := by rw [(h.plain hs hp).apply_move_side, h.turn]; rfl
  unmoved := h.unmoved_after hs hp
  target := h.target_after hs hp

end step

/-! ## Legality -/

section legality

variable {G : Game} {p : Position}

/-- `is_move_legal` gets as far as the self-check test. -/
def ReachesSelfCheck (G : Game) (sx sy dx dy : Int) : Prop :=
  (in_board sx sy = true ∧ in_board dx dy = true) ∧
  ∃ q, (G.board.get sy sx).piece = some q ∧
    (G.board.get sy sx).is_dead = false ∧
    (G.board.get sy sx).team = G.side_to_move ∧
    ¬ ((G.board.get dy dx).is_dead = false ∧ (G.board.get dy dx).piece ≠ none ∧
      (G.board.get dy dx).team = G.side_to_move) ∧
    movement_ok G q sx sy dx dy = true

/-- The tests of `is_move_legal` before the self-check test. -/
theorem Tracks.pseudoLegal_iff (h : Tracks G p) (hs : Sound p) (m : Move) :
    (∃ k, PseudoLegal p ⟨p.turn, k⟩ m) ↔ ReachesSelfCheck G m.sx m.sy m.dx m.dy := by
  unfold ReachesSelfCheck
  rw [in_board_iff, in_board_iff, h.turn]
  constructor
  · intro ⟨k, hp⟩
    obtain ⟨hlive, hteam, hpiece⟩ := h.source hp
    refine ⟨⟨hp.src_on, hp.dst_on⟩, _, hpiece, hlive, hteam, ?_, ?_⟩
    · -- what stands on the destination is no man of the mover
      intro ⟨hdlive, _, hdteam⟩
      obtain ⟨k', _, hman⟩ := (h.board_ok m.dx m.dy).exists_man hdlive
      rw [h.board_eq, hdteam] at hman
      exact hp.not_own _ hman rfl
    · exact (movement_ok_iff h hs hp.dst_on hp.man).mpr hp.moves
  · intro ⟨⟨hsrc, hdst⟩, q, hpiece, hlive, hteam, hown, hmove⟩
    have hq := (h.board_ok m.sx m.sy).table q hpiece
    rw [hteam] at hq
    rw [hq] at hpiece hmove
    -- a live square of the mover with a piece pointer is a man of the mover
    have hman : p.board m.sx m.sy = some ⟨p.turn, q.type⟩ :=
      (h.man_iff m.sx m.sy _ _).mpr ⟨hlive, hteam, hpiece⟩
    refine ⟨q.type, hsrc, hdst, hman, rfl, ?_, ?_⟩
    · rintro ⟨t, k'⟩ he rfl
      obtain ⟨hdlive, hdteam, hdpiece⟩ := (h.man_iff m.dx m.dy _ _).mp he
      exact hown ⟨hdlive, by rw [hdpiece]; exact Option.some_ne_none _, hdteam⟩
    · exact (movement_ok_iff h hs hdst hman).mp hmove

/-- The branches of `is_move_legal` as one condition. -/
theorem is_move_legal_eq_true_iff (G : Game) (sx sy dx dy : Int) :
    is_move_legal G sx sy dx dy = true ↔ ReachesSelfCheck G sx sy dx dy ∧
      is_in_check (apply_move G sx sy dx dy) (G.board.get sy sx).team = false := by
  unfold is_move_legal ReachesSelfCheck
  -- one case for each test of the source, in its order
  by_cases hon : in_board sx sy = true ∧ in_board dx dy = true
  · rw [if_neg (by simp [hon.1, hon.2])]
    cases hpiece : (G.board.get sy sx).piece with
    | none => simp [hpiece]
    | some q =>
      simp only [hon, hpiece, Option.some.injEq, exists_eq_left', true_and, and_self]
      by_cases hsrc : (G.board.get sy sx).is_dead = false ∧
          (G.board.get sy sx).team = G.side_to_move
      · rw [if_neg (by simp [hsrc.1, hsrc.2])]
        simp only [hsrc, true_and]
        by_cases hown : (G.board.get dy dx).is_dead = false ∧
            (G.board.get dy dx).piece ≠ none ∧ (G.board.get dy dx).team = G.side_to_move
        · rw [if_pos (by simp [hown.1, hown.2.2, Option.isSome_iff_ne_none, hown.2.1])]
          simp [hown]
        · rw [if_neg (by simpa [Option.isSome_iff_ne_none, and_assoc] using hown)]
          simp only [hown, not_false_eq_true, true_and]
          by_cases hmove : movement_ok G q sx sy dx dy = true
          · simp [hmove]
          · simp [hmove]
      · have hbad : ((G.board.get sy sx).is_dead || (G.board.get sy sx).team != G.side_to_move) =
            true := by
          cases hd : (G.board.get sy sx).is_dead <;> simp_all
        rw [if_pos hbad]
        simp only [Bool.false_eq_true, false_iff]
        intro ⟨⟨hlive, hteam, _⟩, _⟩
        exact hsrc ⟨hlive, hteam⟩
  · have hoff : (!in_board sx sy || !in_board dx dy) = true := by
      cases hb : in_board sx sy <;> simp_all
    rw [if_pos hoff]
    simp [hon]

/-- The four loops find a legal move iff there is one; the squares they
    skip have none. -/
theorem has_legal_move_iff (G : Game) :
    has_legal_move G = true ↔ ∃ sx sy dx dy, is_move_legal G sx sy dx dy = true := by
  unfold has_legal_move
  simp only [List.any_eq_true, mem_files]
  constructor
  · rintro ⟨sx, _, sy, _, h⟩
    split at h
    · cases h
    · simp only [List.any_eq_true] at h
      obtain ⟨dx, _, dy, _, hlegal⟩ := h
      exact ⟨sx, sy, dx, dy, hlegal⟩
  · rintro ⟨sx, sy, dx, dy, hlegal⟩
    obtain ⟨⟨hon, q, hpiece, hlive, hteam, _⟩, _⟩ := (is_move_legal_eq_true_iff ..).mp hlegal
    rw [in_board_iff, in_board_iff] at hon
    refine ⟨sx, hon.1.1, sy, hon.1.2, ?_⟩
    rw [if_neg (by simp [hlive, hpiece, hteam])]
    simp only [List.any_eq_true, mem_files]
    exact ⟨dx, hon.2.1, dy, hon.2.2, hlegal⟩

/-- The self-check test after a move that may be made. -/
theorem Tracks.self_check_iff (h : Tracks G p) (hs : Sound p) {k : PieceType} {m : Move}
    (hp : PseudoLegal p ⟨p.turn, k⟩ m) :
    is_in_check (apply_move G m.sx m.sy m.dx m.dy) p.turn = true ↔
      InCheck (after p.board ⟨p.turn, k⟩ m) p.turn := by
  rw [← h.placement_after hs hp]
  apply is_in_check_iff (h.board_ok_after hs hp)
  -- the mover still has its king
  rw [h.placement_after hs hp]
  exact hs.after_kings hp p.turn

/-- **Legality.** `is_move_legal` accepts exactly the legal moves. -/
theorem Tracks.is_move_legal_iff (h : Tracks G p) (hs : Sound p) (m : Move) :
    is_move_legal G m.sx m.sy m.dx m.dy = true ↔ Legal p m := by
  rw [is_move_legal_eq_true_iff, ← h.pseudoLegal_iff hs m]
  constructor
  · intro ⟨⟨k, hp⟩, hsafe⟩
    rw [(h.source hp).2.1] at hsafe
    refine ⟨_, hp, ?_⟩
    rw [← h.self_check_iff hs hp, hsafe]
    exact Bool.false_ne_true
  · intro ⟨⟨t, k⟩, hp, hsafe⟩
    obtain rfl : t = p.turn := hp.own
    rw [← h.self_check_iff hs hp, Bool.not_eq_true] at hsafe
    rw [(h.source hp).2.1]
    exact ⟨⟨k, hp⟩, hsafe⟩

end legality

end MultiplayChess
