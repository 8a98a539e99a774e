import MultiplayChess.Common.Effects

/-! # Castling rights

    A castling right should say that the king and the rook of that wing
    stand at home and have never moved.  Moves of the king and of the rook
    withdraw it; a capture on the rook's corner does not. -/

namespace MultiplayChess

open Chess (OnBoard Man Position Move Sound PseudoLegal Wing backRankOf)
open LTS

/-- The castling right of a team and wing. -/
def Game.can_castle (G : Game) : Team → Wing → Bool
  | .white, .kingside => G.white_can_castle_kingside
  | .white, .queenside => G.white_can_castle_queenside
  | .black, .kingside => G.black_can_castle_kingside
  | .black, .queenside => G.black_can_castle_queenside

/-- A man of team `t` that has never moved stands on `(x, y)`. -/
def UnmovedAt (G : Game) (t : Team) (k : PieceType) (x y : Int) : Prop :=
  G.board.get y x =
    { piece := some (piece_table t k), team := t, is_dead := false, has_moved := false }

instance (G : Game) (t : Team) (k : PieceType) (x y : Int) : Decidable (UnmovedAt G t k x y) :=
  inferInstanceAs (Decidable (_ = _))

/-- Who may castle by the flags has king and rook at home, both unmoved. -/
def RightsHeld (G : Game) : Prop :=
  ∀ t w, G.can_castle t w = true →
    UnmovedAt G t .king 4 (backRankOf t) ∧ UnmovedAt G t .rook w.corner (backRankOf t)

/-- The move does not go to a corner whose castling right is still set. -/
def SparesCorners (G : Game) (m : Move) : Prop :=
  ∀ t w, G.can_castle t w = true → ¬ (m.dx = w.corner ∧ m.dy = backRankOf t)

/-! ## The rights after a move -/

section stages

variable (G : Game) (p : Piece) (sx sy dx dy : Int) (t : Team) (w : Wing)

@[simp] theorem count_halfmove_can_castle :
    (count_halfmove G p dx dy).can_castle t w = G.can_castle t w := by
  unfold count_halfmove
  cases t <;> cases w <;> split <;> rfl

@[simp] theorem capture_en_passant_can_castle :
    (capture_en_passant G p sy dx dy).can_castle t w = G.can_castle t w := by
  unfold capture_en_passant
  cases t <;> cases w <;> split <;> rfl

@[simp] theorem move_piece_can_castle :
    (move_piece G sx sy dx dy).can_castle t w = G.can_castle t w := by
  cases t <;> cases w <;> rfl

@[simp] theorem set_en_passant_can_castle :
    (set_en_passant G sy dx dy).can_castle t w = G.can_castle t w := by
  unfold set_en_passant
  cases t <;> cases w <;> split <;> rfl

@[simp] theorem promote_can_castle :
    (promote G dx dy).can_castle t w = G.can_castle t w := by
  unfold promote
  cases t <;> cases w <;> split <;> rfl

@[simp] theorem finish_move_can_castle :
    (finish_move G dx dy).can_castle t w = G.can_castle t w := by
  cases t <;> cases w <;> rfl

/-- A king that moves loses the rights of its team. -/
theorem drop_king_rights_can_castle :
    (drop_king_rights G dx dy).can_castle t w = true ↔ G.can_castle t w = true ∧
      ¬ (type_at G dx dy = some .king ∧ (G.board.get dy dx).team = t) := by
  unfold drop_king_rights
  by_cases hk : type_at G dx dy = some .king
  · rw [if_pos hk]
    cases hteam : (G.board.get dy dx).team <;> cases t <;> cases w <;> simp [Game.can_castle, hk]
  · rw [if_neg hk]
    simp [hk]

/-- A rook that leaves its corner for the first time loses that wing's
    right. -/
theorem drop_rook_rights_can_castle :
    (drop_rook_rights G sx sy dx dy).can_castle t w = true ↔ G.can_castle t w = true ∧
      ¬ ((type_at G dx dy = some .rook ∧ (G.board.get dy dx).has_moved = false) ∧
        (G.board.get dy dx).team = t ∧ sx = w.corner ∧ sy = backRankOf t) := by
  unfold drop_rook_rights
  by_cases hr : type_at G dx dy = some .rook ∧ (G.board.get dy dx).has_moved = false
  · rw [if_pos hr]
    cases hteam : (G.board.get dy dx).team <;> cases t <;> cases w <;>
      simp [Game.can_castle, hr, Wing.corner, backRankOf] <;> tauto
  · rw [if_neg hr]
    simp [hr]

end stages

/-- **The rights after a move.** Only the mover's rights are withdrawn. -/
theorem Plain.can_castle_after {G : Game} {p : Piece} {sx sy dx dy : Int}
    (h : Plain G p sx sy dx dy) (t : Team) (w : Wing) :
    (apply_move G sx sy dx dy).can_castle t w = true ↔ G.can_castle t w = true ∧
      ¬ ((G.board.get sy sx).team = t ∧ (p.type = .king ∨
        (p.type = .rook ∧ (G.board.get sy sx).has_moved = false ∧
          sx = w.corner ∧ sy = backRankOf t))) := by
  have htype : type_at (drop_king_rights (moved_game G p sx sy dx dy) dx dy) dx dy =
      some p.type := by
    rw [← h.moved_type]
    apply type_at_congr
    simp
  have hmoved : (moved_game G p sx sy dx dy).can_castle t w = G.can_castle t w := by
    unfold moved_game
    simp
  rw [h.apply_move_eq, finish_move_can_castle, promote_can_castle, set_en_passant_can_castle,
    drop_rook_rights_can_castle, drop_king_rights_can_castle, htype, h.moved_type,
    drop_king_rights_board, h.moved_dst, hmoved]
  simp only [Option.some.injEq]
  tauto

/-! ## The invariant -/

section step

variable {G : Game} {p : Position} {k : PieceType} {m : Move} {t : Team} {w : Wing}

theorem UnmovedAt.man {x y : Int} (h : UnmovedAt G t k x y) :
    placement G x y = some ⟨t, k⟩ := by
  unfold placement
  rw [h]
  simp [PieceState.man]

/-- A man that does not move and is not captured stays unmoved. -/
theorem Tracks.unmovedAt_after (h : Tracks G p) (hs : Sound p)
    (hp : PseudoLegal p ⟨p.turn, k⟩ m) {x y : Int} {k' : PieceType} (hk' : k' ≠ .pawn)
    (hman : UnmovedAt G t k' x y) (hsrc : ¬ (x = m.sx ∧ y = m.sy))
    (hdst : ¬ (x = m.dx ∧ y = m.dy)) :
    UnmovedAt (apply_move G m.sx m.sy m.dx m.dy) t k' x y := by
  have hpass : ¬ (IsEnPassant G m ∧ x = m.dx ∧ y = m.sy) := by
    -- only a pawn is captured en passant
    rintro ⟨hep, rfl, rfl⟩
    have hpawn := h.passed_pawn hs hp hep
    rw [← h.placement, hman.man] at hpawn
    exact hk' (congrArg Man.kind (Option.some.inj hpawn))
  unfold UnmovedAt
  rw [h.get_after hs hp, if_neg hdst, if_neg hsrc, if_neg hpass]
  exact hman

/-- The piece an unmoved man at the source of a move is. -/
theorem Tracks.unmovedAt_source (h : Tracks G p) (hp : PseudoLegal p ⟨p.turn, k⟩ m)
    {k' : PieceType} (hman : UnmovedAt G t k' m.sx m.sy) : t = p.turn ∧ k = k' := by
  have hsame := hman.man
  rw [h.placement, hp.man, Option.some.injEq, Man.mk.injEq] at hsame
  exact ⟨hsame.1.symm, hsame.2⟩

/-- A right that survives a move was set before, and its king and rook did
    not move. -/
theorem Tracks.right_kept (h : Tracks G p) (hs : Sound p) (hp : PseudoLegal p ⟨p.turn, k⟩ m)
    (hr : RightsHeld G)
    (hright : (apply_move G m.sx m.sy m.dx m.dy).can_castle t w = true) :
    G.can_castle t w = true ∧ ¬ (4 = m.sx ∧ backRankOf t = m.sy) ∧
      ¬ (w.corner = m.sx ∧ backRankOf t = m.sy) := by
  obtain ⟨hbefore, hnot⟩ := ((h.plain hs hp).can_castle_after t w).mp hright
  obtain ⟨hking, hrook⟩ := hr t w hbefore
  have hteam := (h.source hp).2.1
  rw [piece_table_type] at hnot
  refine ⟨hbefore, ?_, ?_⟩
  · rintro ⟨hx, hy⟩
    rw [hx, hy] at hking
    obtain ⟨rfl, rfl⟩ := h.unmovedAt_source hp hking
    exact hnot ⟨hteam, .inl rfl⟩
  · rintro ⟨hx, hy⟩
    rw [hx, hy] at hrook
    obtain ⟨rfl, rfl⟩ := h.unmovedAt_source hp hrook
    have hunmoved : (G.board.get m.sy m.sx).has_moved = false := by rw [hrook]
    exact hnot ⟨hteam, .inr ⟨rfl, hunmoved, hx.symm, hy.symm⟩⟩

/-- **One move.** The rights stay held exactly if the move spares the
    corners whose right is set. -/
theorem Tracks.rightsHeld_step_iff (h : Tracks G p) (hs : Sound p)
    (hp : PseudoLegal p ⟨p.turn, k⟩ m) (hr : RightsHeld G) :
    RightsHeld (apply_move G m.sx m.sy m.dx m.dy) ↔ SparesCorners G m := by
  constructor
  · rintro hafter t w hright ⟨hx, hy⟩
    have hrook := (hr t w hright).2
    -- the mover captures that rook, so it is of the other team
    have hother : p.turn ≠ t := by
      have hman := hrook.man
      rw [h.placement, ← hx, ← hy] at hman
      exact (hp.not_own _ hman).symm
    have hkept : (apply_move G m.sx m.sy m.dx m.dy).can_castle t w = true := by
      apply ((h.plain hs hp).can_castle_after t w).mpr
      refine ⟨hright, ?_⟩
      rw [(h.source hp).2.1]
      exact fun hc => hother hc.1
    -- but what stands on the corner now has moved
    have hcorner := (hafter t w hkept).2
    unfold UnmovedAt at hcorner
    rw [← hx, ← hy, h.get_after hs hp, if_pos ⟨rfl, rfl⟩, h.landed_eq hs hp] at hcorner
    exact absurd (congrArg PieceState.has_moved hcorner) (by simp)
  · intro hspares t w hright
    obtain ⟨hbefore, hking_src, hrook_src⟩ := h.right_kept hs hp hr hright
    obtain ⟨hking, hrook⟩ := hr t w hbefore
    have hking_dst : ¬ (4 = m.dx ∧ backRankOf t = m.dy) := by
      rintro ⟨hx, hy⟩
      have hman := hking.man
      rw [h.placement, hx, hy] at hman
      exact hs.no_king_capture hp hman rfl
    have hrook_dst : ¬ (w.corner = m.dx ∧ backRankOf t = m.dy) := by
      rintro ⟨hx, hy⟩
      exact hspares t w hbefore ⟨hx.symm, hy.symm⟩
    exact ⟨h.unmovedAt_after hs hp (by decide) hking hking_src hking_dst,
      h.unmovedAt_after hs hp (by decide) hrook hrook_src hrook_dst⟩

end step

/-! ## Games -/

theorem start_rightsHeld (G₀ : Game) : RightsHeld (init_startpos G₀) := by
  rw [init_startpos_eq G₀ .zero]
  intro t w _
  cases t <;> cases w <;> decide +kernel

/-- **Castling rights.** In all positions of a game the rights are held
    exactly if no accepted move of it goes to a corner whose right is still
    set. -/
theorem rights_held_iff (G₀ G : Game) (h : List Move) :
    RunWhere rules (rules.Keeps RightsHeld) (init_startpos G₀) h G ↔
      RunWhere rules SparesCorners (init_startpos G₀) h G := by
  apply RunWhere.keeps_iff (I := fun h G => Following G h)
  case hinit => exact .start G₀
  case hs => exact start_rightsHeld G₀
  case hkeep =>
    rintro h G m _ hf _ ⟨hlegal, rfl⟩
    exact hf.step hlegal
  case hstep =>
    rintro h G m _ hf hr ⟨hlegal, rfl⟩
    obtain ⟨⟨t, k⟩, hp, _⟩ := (hf.legal_iff m).mp hlegal
    obtain rfl : t = (positionOf G h).turn := hp.own
    exact hf.tracks.rightsHeld_step_iff hf.sound hp hr

/-- The white bishop goes to g2 and takes the rook on a8. -/
def bishop_takes_rook : List Move :=
  [⟨6, 1, 6, 2⟩, ⟨1, 6, 1, 5⟩, ⟨5, 0, 6, 1⟩, ⟨0, 6, 0, 5⟩, ⟨6, 1, 0, 7⟩]

theorem bishop_takes_rook_right :
    (replay (init_startpos .zero) bishop_takes_rook).map (fun G =>
      G.can_castle .black .queenside && !decide (UnmovedAt G .black .rook 0 7)) = some true := by
  decide +kernel

/-- Black keeps the right to castle with a rook that is gone. -/
theorem rights_not_held :
    ¬ ∀ (G₀ G : Game) (h : List Move), Run rules (init_startpos G₀) h G → RightsHeld G := by
  intro hall
  obtain ⟨G, hG, hcheck⟩ := Option.map_eq_some_iff.mp bishop_takes_rook_right
  rw [Bool.and_eq_true, Bool.not_eq_true', decide_eq_false_iff_not] at hcheck
  obtain ⟨hright, hgone⟩ := hcheck
  exact hgone (hall .zero G bishop_takes_rook (replay_run hG) .black .queenside hright).2

end MultiplayChess
