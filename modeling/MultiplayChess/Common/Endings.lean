import MultiplayChess.Common.Effects
import MultiplayChess.Common.Legality
import MultiplayChess.Framework.Counting
import MultiplayChess.Chess.Endings
import MultiplayChess.Chess.Progress

/-! # The end of a game

    The tests for the end of a game in every position accepted moves lead
    to.  The halfmove clock is the number of plies since the last pawn move
    or capture, and so the fifty-move test asks whether the last hundred
    plies had neither; `is_checkmate` and `is_stalemate` decide checkmate
    and stalemate of chess.  And the fifty-move rule and the progress of the
    men bound every game. -/

namespace MultiplayChess

open Chess (Position Move Sound PseudoLegal InCheck CanMove Checkmate Stalemate potential)
open LTS

/-! ## The halfmove clock -/

/-- A pawn move (a promotion is one) or a capture. -/
def IsIrreversible (G : Game) (m : Move) : Prop :=
  IsPawnMove G m ∨ IsCapture G m

instance (G : Game) (m : Move) : Decidable (IsIrreversible G m) :=
  inferInstanceAs (Decidable (_ ∨ _))

/-- The game after the first `i` moves of `h`. -/
def game_at (G : Game) (h : List Move) (i : Nat) : Game :=
  (h.take i).foldl (fun G m => apply_move G m.sx m.sy m.dx m.dy) G

/-- Ply `i` of the game `h` from `G` is a pawn move or a capture. -/
def IrreversiblePly (G : Game) (h : List Move) (i : Nat) : Prop :=
  ∃ m, h[i]? = some m ∧ IsIrreversible (game_at G h i) m

/-! ## One move -/

/-- An en passant capture is a pawn move, so the code need not test for it. -/
theorem Tracks.clock_after {G : Game} {p : Position} (h : Tracks G p) {k : PieceType} {m : Move}
    (hp : PseudoLegal p ⟨p.turn, k⟩ m) :
    (apply_move G m.sx m.sy m.dx m.dy).halfmove_clock =
      if IsIrreversible G m then 0 else G.halfmove_clock + 1 := by
  have hpawn := h.isPawnMove_iff hp
  have hsame : (k = .pawn ∨ (G.board.get m.dy m.dx).is_dead = false) ↔ IsIrreversible G m := by
    rw [← hpawn]
    constructor
    · rintro (hk | hlive)
      · exact .inl hk
      · exact .inr (.inl hlive)
    · rintro (hk | hlive | hep)
      · exact .inl hk
      · exact .inr hlive
      · exact .inl hep.1
  rw [apply_move_clock (h.source hp).2.2, piece_table_type]
  simp only [hsame]

/-! ## The whole game -/

section history

variable {G : Game} {h : List Move} {m : Move}

theorem game_at_append {i : Nat} (hi : i ≤ h.length) :
    game_at G (h ++ [m]) i = game_at G h i := by
  unfold game_at
  rw [List.take_append_of_le_length hi]

/-- The plies played stay what they were. -/
theorem irreversiblePly_append {i : Nat} (hi : i < h.length) :
    IrreversiblePly G h i ↔ IrreversiblePly G (h ++ [m]) i := by
  unfold IrreversiblePly
  rw [game_at_append (Nat.le_of_lt hi), List.getElem?_append_left hi]

theorem Run.game_at_length {G : Game} (hrun : Run rules G h G') :
    game_at G h h.length = G' := by
  induction hrun with
  | nil => rfl
  | snoc _ _ hstep ih =>
    obtain ⟨_, rfl⟩ := hstep
    rw [← ih]
    unfold game_at
    rw [List.take_length, List.take_length, List.foldl_concat]

/-- The last ply. -/
theorem irreversiblePly_last {G' : Game} (hrun : Run rules G h G') :
    IrreversiblePly G (h ++ [m]) h.length ↔ IsIrreversible G' m := by
  unfold IrreversiblePly
  rw [game_at_append (Nat.le_refl _), Run.game_at_length hrun, List.getElem?_concat_length]
  simp

end history

/-- **The clock counts.** After any sequence of accepted moves the halfmove
    clock is the number of plies since the last pawn move or capture, or
    since the start. -/
theorem Run.halfmove_clock {G₀ G : Game} {h : List Move}
    (hrun : Run rules (init_startpos G₀) h G) :
    ∃ n : Nat, G.halfmove_clock = n ∧
      SinceLast (IrreversiblePly (init_startpos G₀) h) h.length n := by
  induction hrun with
  | nil => exact ⟨0, rfl, .start⟩
  | @snoc G G' h m hrun _ hstep ih =>
    obtain ⟨hlegal, rfl⟩ := hstep
    obtain ⟨n, hn, hsince⟩ := ih
    have hf := Run.following hrun
    obtain ⟨⟨t, k⟩, hp, _⟩ := (hf.legal_iff m).mp hlegal
    obtain rfl : t = (positionOf G h).turn := hp.own
    have hclock := hf.tracks.clock_after hp
    have hlast : IrreversiblePly (init_startpos G₀) (h ++ [m]) h.length ↔ IsIrreversible G m :=
      irreversiblePly_last hrun
    -- what the count says of the earlier plies holds with one more ply played
    have hsince' : SinceLast (IrreversiblePly (init_startpos G₀) (h ++ [m])) h.length n :=
      hsince.congr fun i hi => irreversiblePly_append hi
    rw [List.length_append, List.length_singleton]
    by_cases hirr : IsIrreversible G m
    · rw [if_pos hirr] at hclock
      exact ⟨0, hclock, .reset (hlast.mpr hirr)⟩
    · rw [if_neg hirr, hn] at hclock
      exact ⟨n + 1, hclock, hsince'.advance (mt hlast.mp hirr)⟩

/-- The fifty-move test asks whether the last hundred plies were quiet. -/
theorem Run.is_fifty_move_rule_iff {G₀ G : Game} {h : List Move}
    (hrun : Run rules (init_startpos G₀) h G) :
    is_fifty_move_rule G = true ↔
      SinceLast.Quiet (IrreversiblePly (init_startpos G₀) h) h.length 100 := by
  obtain ⟨c, hc, hsince⟩ := Run.halfmove_clock hrun
  rw [← hsince.le_iff]
  unfold is_fifty_move_rule
  rw [hc, decide_eq_true_eq]
  exact Nat.ofNat_le_cast

/-- **The halfmove clock and the fifty-move rule.** After any sequence of
    accepted moves the clock is the number of plies since the last pawn move
    or capture; the fifty-move test holds iff at least a hundred plies were
    played and the last hundred had neither. -/
theorem halfmove_clock_counts {G₀ G : Game} {h : List Move}
    (hrun : Run rules (init_startpos G₀) h G) :
    (∀ n : Nat, SinceLast (IrreversiblePly (init_startpos G₀) h) h.length n ↔
      G.halfmove_clock = n) ∧
    (is_fifty_move_rule G = true ↔
      SinceLast.Quiet (IrreversiblePly (init_startpos G₀) h) h.length 100) := by
  obtain ⟨c, hc, hsince⟩ := Run.halfmove_clock hrun
  constructor
  · intro n
    rw [hc, Nat.cast_inj]
    constructor
    · exact hsince.unique
    · rintro rfl
      exact hsince
  · exact Run.is_fifty_move_rule_iff hrun

theorem open_game_clock :
    (replay (init_startpos .zero) open_game).map Game.halfmove_clock = some 2 := by
  decide +kernel

/-- Two knight moves after the two pawn moves. -/
theorem halfmove_clock_counts_open_game :
    SinceLast (IrreversiblePly (init_startpos .zero) open_game) 4 2 := by
  obtain ⟨G, hG, hclock⟩ := Option.map_eq_some_iff.mp open_game_clock
  exact ((halfmove_clock_counts (replay_run hG)).1 2).mpr hclock

/-! ## Checkmate and stalemate

    The exhaustive searches never try to castle, but whoever may castle has
    another move. -/

namespace Following

variable {G : Game} {h : List Move}

theorem is_in_check_iff (hf : Following G h) :
    is_in_check G G.side_to_move = true ↔
      InCheck (positionOf G h).board (positionOf G h).turn := by
  rw [hf.tracks.turn]
  exact MultiplayChess.is_in_check_iff hf.tracks.board_ok (hf.one_king _)

theorem has_legal_move_iff (hf : Following G h) :
    has_legal_move G = true ↔ CanMove (positionOf G h) h := by
  rw [MultiplayChess.has_legal_move_iff, hf.sound.canMove_iff]
  constructor
  · rintro ⟨sx, sy, dx, dy, hlegal⟩
    exact ⟨⟨sx, sy, dx, dy⟩, (hf.legal_iff ⟨sx, sy, dx, dy⟩).mp hlegal⟩
  · rintro ⟨m, hm⟩
    exact ⟨m.sx, m.sy, m.dx, m.dy, (hf.legal_iff m).mpr hm⟩

theorem is_checkmate_iff (hf : Following G h) :
    is_checkmate G = true ↔ Checkmate (positionOf G h) h := by
  unfold is_checkmate Checkmate
  rw [← hf.is_in_check_iff, ← hf.has_legal_move_iff]
  cases is_in_check G G.side_to_move <;> simp

theorem is_stalemate_iff (hf : Following G h) :
    is_stalemate G = true ↔ Stalemate (positionOf G h) h := by
  unfold is_stalemate Stalemate
  rw [← hf.is_in_check_iff, ← hf.has_legal_move_iff]
  cases is_in_check G G.side_to_move <;> simp

/-- Without a move it is one or the other. -/
theorem checkmate_or_stalemate_iff (p : Position) (h : List Move) :
    Checkmate p h ∨ Stalemate p h ↔ ¬ CanMove p h := by
  unfold Checkmate Stalemate
  by_cases hcheck : InCheck p.board p.turn
  · simp only [hcheck, true_and, not_true_eq_false, false_and, or_false]
  · simp only [hcheck, false_and, not_false_eq_true, true_and, false_or]

end Following

/-! ## The moves a game has left

    A position has a round of a hundred plies for each unit of its
    potential, and what the halfmove clock leaves of the present round. -/

/-- The accepted moves that may still lead to positions in which the
    fifty-move rule does not end the game. -/
def moves_left (G : Game) : Nat :=
  Budget.left 100 (potential (placement G)) G.halfmove_clock.toNat

theorem moves_left_start (G : Game) : moves_left (init_startpos G) = 12699 := by
  unfold moves_left
  rw [start_placement, Chess.start_potential]
  rfl

section move

variable {G₀ G : Game} {h : List Move} {m : Move}

/-- A pawn moves or a man stands on the destination. -/
theorem Tracks.irreversible {p : Position} {k : PieceType} (ht : Tracks G p)
    (hp : PseudoLegal p ⟨p.turn, k⟩ m) (hirr : IsIrreversible G m) :
    k = .pawn ∨ p.board m.dx m.dy ≠ none := by
  rcases hirr with hpawn | hlive | hep
  · exact .inl ((ht.isPawnMove_iff hp).mp hpawn)
  · right
    rw [Ne, ht.empty_iff, hlive]
    exact Bool.false_ne_true
  · exact .inl ((ht.isPawnMove_iff hp).mp hep.1)

/-- **What an accepted move costs.** It never adds to the moves left, and it
    takes one away unless the fifty-move rule ends the game. -/
theorem Run.moves_left_after (hrun : Run rules (init_startpos G₀) h G)
    (hlegal : is_move_legal G m.sx m.sy m.dx m.dy = true) :
    moves_left (apply_move G m.sx m.sy m.dx m.dy) ≤ moves_left G ∧
      (is_fifty_move_rule (apply_move G m.sx m.sy m.dx m.dy) = false →
        moves_left (apply_move G m.sx m.sy m.dx m.dy) + 1 ≤ moves_left G) := by
  have hf := Run.following hrun
  obtain ⟨n, hn, _⟩ := Run.halfmove_clock hrun
  obtain ⟨⟨t, k⟩, hp, _⟩ := (hf.legal_iff m).mp hlegal
  obtain rfl : t = (positionOf G h).turn := hp.own
  have hclock := hf.tracks.clock_after hp
  unfold moves_left is_fifty_move_rule
  have hboard : (positionOf G h).board = placement G := rfl
  rw [hf.tracks.placement_after hf.sound hp, hclock, hn, hboard]
  by_cases hirr : IsIrreversible G m
  · -- the clock goes back, at the cost of some potential
    have hspent := hf.sound.potential_lt hp (hf.tracks.irreversible hp hirr)
    have hreset : Budget.left 100 (potential (Chess.after (placement G) _ m)) 0 + 1 ≤
        Budget.left 100 (potential (placement G)) n := Budget.left_reset (by omega) hspent
    rw [if_pos hirr]
    constructor
    · exact Nat.le_of_succ_le hreset
    · intro _
      exact hreset
  · -- the clock advances
    have hkept : Budget.left 100 (potential (Chess.after (placement G) _ m)) n ≤
        Budget.left 100 (potential (placement G)) n := Budget.left_mono (hf.sound.potential_le hp)
    have hnext : (n + 1 : Int).toNat = n + 1 := rfl
    rw [if_neg hirr, hnext, Int.toNat_natCast]
    constructor
    · exact Nat.le_trans Budget.left_advance_le hkept
    · intro hfifty
      have hbelow : n + 1 < 100 := by
        rw [decide_eq_false_iff_not] at hfifty
        omega
      rw [Budget.left_advance hbelow]
      exact hkept

end move

end MultiplayChess
