import MultiplayChess.Common.Refinement
import MultiplayChess.Common.Utils
import MultiplayChess.Framework.System

/-! # Games from the start position

    The runs of `is_move_legal` and `apply_move` from `init_startpos`, and
    the invariant of these runs: the game stands for the chess position
    that its board and the moves played so far describe, and that position
    is sound.  From the relation it also follows that every such run is a
    game of chess. -/

namespace MultiplayChess

open Chess (OnBoard Man Position Move Sound PseudoLegal Legal InCheck ExactlyOne)
open LTS

/-- Moves that `is_move_legal` accepts, performed by `apply_move`. -/
def rules : System Game Move where
  init G := ∃ G₀, G = init_startpos G₀
  step G m G' :=
    is_move_legal G m.sx m.sy m.dx m.dy = true ∧ G' = apply_move G m.sx m.sy m.dx m.dy

/-- White moves first and the teams alternate. -/
def turnAfter (n : Nat) : Team :=
  if n % 2 = 0 then .white else .black

theorem turnAfter_succ (n : Nat) : turnAfter (n + 1) = (turnAfter n).other := by
  unfold turnAfter
  by_cases h : n % 2 = 0
  · rw [if_pos h, if_neg (by omega)]
    rfl
  · rw [if_neg h, if_pos (by omega)]
    rfl

/-- The chess position of the board of `G` after the moves `h`. -/
def positionOf (G : Game) (h : List Move) : Position :=
  { board := placement G, turn := turnAfter h.length, last := h.getLast? }

/-! ## The start position -/

/-- The FEN of the start position overwrites every field. -/
theorem init_startpos_eq (G H : Game) : init_startpos G = init_startpos H := rfl

instance (ps : PieceState) : Decidable ps.Ok :=
  decidable_of_iff ((ps.is_dead = true ↔ ps.piece = none) ∧
      ∀ p ∈ ps.piece, p = piece_table ps.team p.type)
    ⟨fun h => ⟨h.1, h.2⟩, fun h => ⟨h.1, h.2⟩⟩

/-- The start array, square by square: well formed, unmoved and set up. -/
theorem start_squares : ∀ y x : Fin 8,
    ((init_startpos .zero).board y x).Ok ∧
      ((init_startpos .zero).board y x).has_moved = false ∧
      ((init_startpos .zero).board y x).man = Chess.start.board (x : Nat) (y : Nat) := by
  decide +kernel

theorem start_board_off {x y : Int} (h : ¬ OnBoard x y) : Chess.start.board x y = none := by
  unfold OnBoard at h
  unfold Chess.start
  simp only
  by_cases hx : 0 ≤ x ∧ x < 8
  · have hy : y ≠ 1 ∧ y ≠ 6 ∧ y ≠ 0 ∧ y ≠ 7 := by omega
    simp [hx, hy]
  · rw [if_neg hx]

theorem start_board_ok (G : Game) : BoardOk (init_startpos G) := by
  intro x y
  by_cases hon : OnBoard x y
  · rw [Board.get_on hon]
    exact (start_squares _ _).1
  · rw [Board.get_off hon]
    exact .empty

theorem start_placement (G : Game) : placement (init_startpos G) = Chess.start.board := by
  funext x y
  unfold placement
  by_cases hon : OnBoard x y
  · rw [Board.get_on hon, init_startpos_eq G .zero, (start_squares _ _).2.2]
    obtain ⟨⟨hx, _⟩, hy, _⟩ := hon
    simp only [Int.toNat_of_nonneg hx, Int.toNat_of_nonneg hy]
  · rw [Board.get_off hon, start_board_off hon]
    rfl

theorem start_unmoved (G : Game) {x y : Int} (hon : OnBoard x y) :
    ((init_startpos G).board.get y x).has_moved = false := by
  rw [Board.get_on hon]
  exact (start_squares _ _).2.1

/-- A man of the start position stands on a back rank or is a pawn on its
    initial rank. -/
theorem start_man {x y : Int} {t : Team} {k : PieceType}
    (h : Chess.start.board x y = some ⟨t, k⟩) :
    (0 ≤ x ∧ x < 8) ∧ ((k = .pawn ∧ y = Chess.pawnRank t) ∨
      (y = Chess.backRankOf t ∧ Chess.backRank x = some k)) := by
  unfold Chess.start at h
  simp only at h
  by_cases hx : 0 ≤ x ∧ x < 8
  · -- the four ranks with men one after the other
    refine ⟨hx, ?_⟩
    rw [if_pos hx] at h
    split at h
    · cases h
      exact .inl ⟨rfl, by assumption⟩
    · split at h
      · cases h
        exact .inl ⟨rfl, by assumption⟩
      · split at h
        · obtain ⟨k', hk, heq⟩ := Option.map_eq_some_iff.mp h
          cases heq
          exact .inr ⟨by assumption, hk⟩
        · split at h
          · obtain ⟨k', hk, heq⟩ := Option.map_eq_some_iff.mp h
            cases heq
            exact .inr ⟨by assumption, hk⟩
          · cases h
  · rw [if_neg hx] at h
    cases h

theorem backRank_ne_pawn (x : Int) : Chess.backRank x ≠ some .pawn := by
  unfold Chess.backRank
  split_ifs <;> simp

theorem backRank_king {x : Int} (h : Chess.backRank x = some .king) : x = 4 := by
  unfold Chess.backRank at h
  split_ifs at h <;> simp_all

/-- The start array stands for the start position. -/
theorem start_tracks (G : Game) : Tracks (init_startpos G) Chess.start where
  board_ok := start_board_ok G
  placement := start_placement G
  turn := rfl
  unmoved := by
    intro x y t hpawn
    have hon : OnBoard x y := by
      by_contra hoff
      rw [start_board_off hoff] at hpawn
      cases hpawn
    rw [start_unmoved G hon]
    rcases (start_man hpawn).2 with ⟨_, hy⟩ | ⟨_, hback⟩
    · simp [hy]
    · exact absurd hback (backRank_ne_pawn x)
  target := by
    refine .none ?_ rfl rfl
    intro l hl
    cases hl

theorem start_king (t : Team) : ExactlyOne Chess.start.board ⟨t, .king⟩ := by
  refine ⟨4, Chess.backRankOf t, ?_, ?_⟩
  · cases t <;> rfl
  · intro x y h
    rcases (start_man h).2 with ⟨hk, _⟩ | ⟨hy, hback⟩
    · cases hk
    · exact ⟨backRank_king hback, hy⟩

/-- The start position is sound. -/
theorem start_sound : Sound Chess.start where
  on_board := by
    intro x y c hc
    by_contra hoff
    rw [start_board_off hoff] at hc
    cases hc
  pawns := by
    intro x y t hpawn
    rcases (start_man hpawn).2 with ⟨_, hy⟩ | ⟨_, hback⟩
    · cases t <;> simp only [Chess.pawnRank] at hy <;> omega
    · exact absurd hback (backRank_ne_pawn x)
  kings := start_king
  safe := by
    have hquiet : is_in_check (init_startpos .zero) .black = false := by decide +kernel
    have hking := start_king .black
    rw [← start_placement .zero] at hking ⊢
    rw [show Chess.start.turn.other = .black from rfl,
      ← is_in_check_iff (start_board_ok .zero) hking, hquiet]
    exact Bool.false_ne_true
  double := by
    intro l hl
    cases hl

/-! ## Every run -/

/-- What every run from the start position keeps. -/
structure Following (G : Game) (h : List Move) : Prop where
  tracks : Tracks G (positionOf G h)
  sound : Sound (positionOf G h)

theorem Following.start (G : Game) : Following (init_startpos G) [] := by
  have hpos : positionOf (init_startpos G) [] = Chess.start := by
    unfold positionOf
    rw [start_placement]
    rfl
  constructor
  · rw [hpos]
    exact start_tracks G
  · rw [hpos]
    exact start_sound

/-- The position after an accepted move is the one the rules lead to. -/
theorem Following.position_play {G : Game} {h : List Move} (hf : Following G h)
    {m : Move} {k : PieceType} (hp : PseudoLegal (positionOf G h) ⟨turnAfter h.length, k⟩ m) :
    positionOf (apply_move G m.sx m.sy m.dx m.dy) (h ++ [m]) =
      (positionOf G h).play ⟨turnAfter h.length, k⟩ m := by
  unfold positionOf Position.play
  rw [hf.tracks.placement_after hf.sound hp]
  simp only [List.length_append, List.length_singleton, turnAfter_succ,
    List.getLast?_append, List.getLast?_singleton, Option.some_or]
  rfl

/-- Legality in a run. -/
theorem Following.legal_iff {G : Game} {h : List Move} (hf : Following G h) (m : Move) :
    is_move_legal G m.sx m.sy m.dx m.dy = true ↔ Legal (positionOf G h) m :=
  hf.tracks.is_move_legal_iff hf.sound m

/-- An accepted move keeps the invariant. -/
theorem Following.step {G : Game} {h : List Move} (hf : Following G h) {m : Move}
    (hlegal : is_move_legal G m.sx m.sy m.dx m.dy = true) :
    Following (apply_move G m.sx m.sy m.dx m.dy) (h ++ [m]) := by
  obtain ⟨⟨t, k⟩, hp, hsafe⟩ := (hf.legal_iff m).mp hlegal
  obtain rfl : t = turnAfter h.length := hp.own
  constructor
  · rw [hf.position_play hp]
    exact hf.tracks.play hf.sound hp
  · rw [hf.position_play hp]
    exact hf.sound.play hp hsafe

/-- **Every run** from the start position keeps the invariant. -/
theorem Run.following {G₀ G : Game} {h : List Move} (hrun : Run rules (init_startpos G₀) h G) :
    Following G h := by
  induction hrun with
  | nil => exact .start G₀
  | snoc _ _ hstep ih =>
    obtain ⟨hlegal, rfl⟩ := hstep
    exact ih.step hlegal

/-! ## Replaying moves -/

/-- Play a list of moves, as far as they are accepted. -/
def replay (G : Game) : List Move → Option Game
  | [] => some G
  | m :: ms =>
    if is_move_legal G m.sx m.sy m.dx m.dy then
      replay (apply_move G m.sx m.sy m.dx m.dy) ms
    else none

theorem replay_run {ms : List Move} : ∀ {G G' : Game}, replay G ms = some G' →
    Run rules G ms G' := by
  induction ms with
  | nil =>
    intro G G' h
    obtain rfl : G = G' := Option.some.inj h
    exact .nil
  | cons m ms ih =>
    intro G G' h
    unfold replay at h
    by_cases hm : is_move_legal G m.sx m.sy m.dx m.dy = true
    · rw [if_pos hm] at h
      exact RunWhere.cons trivial ⟨hm, rfl⟩ (ih h)
    · rw [if_neg hm] at h
      cases h

end MultiplayChess
