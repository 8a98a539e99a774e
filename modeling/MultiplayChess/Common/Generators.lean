import MultiplayChess.Common.Games

/-! # Two ways to find an attacker

    `is_square_attacked` walks the rays outwards from each piece; the
    movement switch of `is_move_legal` derives the line from the two
    squares and scans the gap.  On a square with a live enemy the two find
    the same pieces, on every well formed board, whatever the other fields
    of the game say. -/

namespace MultiplayChess

open Chess (OnBoard Man Move Strikes Attacked)

section generators

variable {G : Game} {t : Team} {x y : Int}

/-- A live square is on the board. -/
theorem on_board_of_live (h : (G.board.get y x).is_dead = false) : OnBoard x y := by
  by_contra hoff
  rw [Board.get_off hoff] at h
  cases h

/-- A pawn may go to an enemy's square exactly where it strikes; the flag
    of its first move and the en passant target play no part. -/
theorem movement_ok_pawn_captures {sx sy : Int} (hsrc : (G.board.get sy sx).team = t)
    (hlive : (G.board.get y x).is_dead = false) (hteam : (G.board.get y x).team = t.other) :
    movement_ok G (piece_table t .pawn) sx sy x y = true ↔
      Strikes (placement G) ⟨t, .pawn⟩ sx sy x y := by
  unfold movement_ok Strikes
  simp only [piece_table_type, hsrc, hlive, hteam, pawn_dir_eq, Bool.and_false, Bool.false_or,
    Bool.false_and, Bool.or_false, Bool.not_false, Bool.true_and, Bool.and_eq_true,
    decide_eq_true_eq, bne_iff_ne, ne_eq, Team.other_ne, not_false_eq_true, and_true]
  omega

/-- The movement switch accepts a capture exactly where the piece strikes. -/
theorem movement_ok_captures (hok : BoardOk G) {k : PieceType} {sx sy : Int}
    (hsrc : (G.board.get sy sx).team = t) (hlive : (G.board.get y x).is_dead = false)
    (hteam : (G.board.get y x).team = t.other) :
    movement_ok G (piece_table t k) sx sy x y = true ↔
      Strikes (placement G) ⟨t, k⟩ sx sy x y := by
  by_cases hk : k = .pawn
  · subst hk
    exact movement_ok_pawn_captures hsrc hlive hteam
  · exact movement_ok_strikes hok hk

/-- **The generators agree.** On a well formed board a square with a live
    piece of the other colour is attacked by `t` iff, with `t` to move, some
    piece of `t` passes every test of `is_move_legal` before the self-check
    for the move to that square. -/
theorem is_square_attacked_iff_reaches (hok : BoardOk G)
    (hlive : (G.board.get y x).is_dead = false) (hteam : (G.board.get y x).team = t.other) :
    is_square_attacked G x y t = true ↔
      ∃ sx sy, ReachesSelfCheck { G with side_to_move := t } sx sy x y := by
  have hon := on_board_of_live hlive
  rw [is_square_attacked_iff hok hon]
  constructor
  · rintro ⟨sx, sy, ⟨t', k⟩, hman, rfl, hstrikes⟩
    obtain ⟨hsrc_live, hsrc_team, hpiece⟩ := ((hok sx sy).man_eq_some_iff t' k).mp hman
    refine ⟨sx, sy, ⟨?_, ?_⟩, _, hpiece, hsrc_live, hsrc_team, ?_, ?_⟩
    · exact (in_board_iff sx sy).mpr (placement_on_board hman)
    · exact (in_board_iff x y).mpr hon
    · -- the destination is an enemy's
      rintro ⟨_, _, hown⟩
      exact Team.other_ne t' (hteam.symm.trans hown)
    · exact (movement_ok_captures hok hsrc_team hlive hteam).mpr hstrikes
  · rintro ⟨sx, sy, _, q, hpiece, hsrc_live, hsrc_team, _, hmove⟩
    have hq := (hok sx sy).table q hpiece
    have hsrc : (G.board.get sy sx).team = t := hsrc_team
    rw [hsrc] at hq
    rw [hq] at hpiece hmove
    have hman : placement G sx sy = some ⟨t, q.type⟩ :=
      ((hok sx sy).man_eq_some_iff t q.type).mpr ⟨hsrc_live, hsrc, hpiece⟩
    exact ⟨sx, sy, _, hman, rfl, (movement_ok_captures hok hsrc hlive hteam).mp hmove⟩

end generators

/-- The pawns on e4 and d5 face each other. -/
def center_pawns : List Move := [⟨4, 1, 4, 3⟩, ⟨3, 6, 3, 4⟩]

theorem center_pawns_attacked :
    (replay (init_startpos .zero) center_pawns).map (fun G =>
      (is_square_attacked G 3 4 .white, (G.board.get 4 3).is_dead, (G.board.get 4 3).team)) =
        some (true, false, Team.white.other) := by
  decide +kernel

/-- White's pawn may take. -/
theorem is_square_attacked_iff_reaches_center :
    ∃ G, replay (init_startpos .zero) center_pawns = some G ∧
      ∃ sx sy, ReachesSelfCheck { G with side_to_move := .white } sx sy 3 4 := by
  obtain ⟨G, hG, hcheck⟩ := Option.map_eq_some_iff.mp center_pawns_attacked
  rw [Prod.mk.injEq, Prod.mk.injEq] at hcheck
  obtain ⟨hattacked, hlive, hteam⟩ := hcheck
  have hok := (Run.following (replay_run hG)).tracks.board_ok
  exact ⟨G, hG, (is_square_attacked_iff_reaches hok hlive hteam).mp hattacked⟩

end MultiplayChess
