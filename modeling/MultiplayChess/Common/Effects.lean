import MultiplayChess.Common.Games
import MultiplayChess.Framework.Counting

/-! # What an accepted move changes

    The effect of `apply_move` on a game that accepted moves led to, for a
    move that `is_move_legal` accepts: which squares change, what is
    captured, and how the turn, the en passant target and the halfmove
    clock go on. -/

namespace MultiplayChess

open Chess (OnBoard Man Position Move Sound PseudoLegal PawnMoves forward forward_cases lastRank)
open LTS

/-! ## Kinds of moves -/

/-- The move moves a pawn. -/
def IsPawnMove (G : Game) (m : Move) : Prop :=
  type_at G m.sx m.sy = some .pawn

/-- The pawn goes two ranks along its file. -/
def IsDoubleStep (G : Game) (m : Move) : Prop :=
  IsPawnMove G m ∧ m.dx = m.sx ∧ m.dy = m.sy + 2 * pawn_dir G.side_to_move

/-- A pawn leaves its file for an empty square. -/
def IsEnPassant (G : Game) (m : Move) : Prop :=
  IsPawnMove G m ∧ m.dx ≠ m.sx ∧ (G.board.get m.dy m.dx).is_dead = true

/-- The destination is occupied, or the move captures en passant. -/
def IsCapture (G : Game) (m : Move) : Prop :=
  (G.board.get m.dy m.dx).is_dead = false ∨ IsEnPassant G m

instance (G : Game) (m : Move) : Decidable (IsPawnMove G m) :=
  inferInstanceAs (Decidable (_ = _))

instance (G : Game) (m : Move) : Decidable (IsDoubleStep G m) :=
  inferInstanceAs (Decidable (_ ∧ _))

instance (G : Game) (m : Move) : Decidable (IsEnPassant G m) :=
  inferInstanceAs (Decidable (_ ∧ _))

instance (G : Game) (m : Move) : Decidable (IsCapture G m) :=
  inferInstanceAs (Decidable (_ ∨ _))

/-- The man on `(x, y)`, not the one that moves, is gone after the move. -/
def Disappears (G : Game) (m : Move) (x y : Int) : Prop :=
  ¬ (x = m.sx ∧ y = m.sy) ∧ placement G x y ≠ none ∧
    placement (apply_move G m.sx m.sy m.dx m.dy) x y ≠ placement G x y

/-- The effect of the move `m` on the game `G`, which it leads to `G'`. -/
structure MoveEffect (G : Game) (m : Move) (G' : Game) : Prop where
  /-- the source becomes empty -/
  source : (G'.board.get m.sy m.sx).is_dead = true ∧ (G'.board.get m.sy m.sx).piece = none
  /-- the piece arrives, a pawn on its last rank as a queen -/
  destination : ∃ p, (G.board.get m.sy m.sx).piece = some p ∧
    G'.board.get m.dy m.dx =
      { piece := some (if p.type = .pawn ∧ m.dy = lastRank G.side_to_move then
          piece_table G.side_to_move .queen else p),
        team := G.side_to_move, is_dead := false, has_moved := true }
  /-- an enemy pawn captured en passant leaves its square -/
  passed : IsEnPassant G m → placement G m.dx m.sy = some ⟨G.side_to_move.other, .pawn⟩ ∧
    (G'.board.get m.sy m.dx).is_dead = true ∧ (G'.board.get m.sy m.dx).piece = none
  /-- every other square keeps all it has -/
  rest : ∀ x y, ¬ (x = m.sx ∧ y = m.sy) → ¬ (x = m.dx ∧ y = m.dy) →
    ¬ (IsEnPassant G m ∧ x = m.dx ∧ y = m.sy) → G'.board.get y x = G.board.get y x
  /-- at most one man disappears -/
  one : ∀ x y x' y', Disappears G m x y → Disappears G m x' y' → x' = x ∧ y' = y
  /-- it is an enemy and not the king -/
  enemy : ∀ x y, Disappears G m x y →
    ∃ k, k ≠ .king ∧ placement G x y = some ⟨G.side_to_move.other, k⟩
  /-- and it disappears exactly in captures -/
  capture : (∃ x y, Disappears G m x y) ↔ IsCapture G m
  side : G'.side_to_move = G.side_to_move.other
  target : (G'.en_passant_x, G'.en_passant_y) =
    if IsDoubleStep G m then (m.sx, m.sy + pawn_dir G.side_to_move) else (-1, -1)

/-! ## Moves that may be made -/

section effect

variable {G : Game} {p : Position} {k : PieceType} {m : Move}

theorem Tracks.isPawnMove_iff (h : Tracks G p) (hp : PseudoLegal p ⟨p.turn, k⟩ m) :
    IsPawnMove G m ↔ k = .pawn := by
  unfold IsPawnMove
  rw [type_at_of_get rfl, (h.source hp).2.2, Option.map_some, piece_table_type, Option.some.injEq]

/-- The code captures en passant exactly in en passant moves. -/
theorem Tracks.fires_iff_isEnPassant (h : Tracks G p) (hs : Sound p)
    (hp : PseudoLegal p ⟨p.turn, k⟩ m) :
    FiresEnPassant G (piece_table p.turn k) m.dx m.dy ↔ IsEnPassant G m := by
  rw [h.fires_iff_after hs hp, h.empty_iff, ← h.isPawnMove_iff hp]
  rfl

/-- Two ranks at once are a double step. -/
theorem Tracks.isDoubleStep_iff (h : Tracks G p) (hp : PseudoLegal p ⟨p.turn, k⟩ m) :
    IsDoubleStep G m ↔ k = .pawn ∧ (m.dy - m.sy).natAbs = 2 := by
  unfold IsDoubleStep
  rw [h.isPawnMove_iff hp, h.turn, pawn_dir_eq]
  have hf := forward_cases p.turn
  constructor
  · rintro ⟨rfl, _, hy⟩
    exact ⟨rfl, by omega⟩
  · rintro ⟨rfl, habs⟩
    have hmoves : PawnMoves p.board p.last p.turn m := hp.moves
    cases hmoves with
    | step _ hy _ => omega
    | double hx hy _ _ _ => exact ⟨rfl, hx, hy⟩
    | capture _ hstrike _ _ => have := hstrike.1; omega
    | enPassant hstrike _ => have := hstrike.1; omega

/-- The board after the move, square by square. -/
theorem Tracks.get_after (h : Tracks G p) (hs : Sound p) (hp : PseudoLegal p ⟨p.turn, k⟩ m)
    (x y : Int) :
    (apply_move G m.sx m.sy m.dx m.dy).board.get y x =
      if x = m.dx ∧ y = m.dy then
        (G.board.get m.sy m.sx).landed (piece_table p.turn k) m.dy
      else if x = m.sx ∧ y = m.sy then (G.board.get m.sy m.sx).kill
      else if IsEnPassant G m ∧ x = m.dx ∧ y = m.sy then (G.board.get m.sy m.dx).kill
      else G.board.get y x := by
  rw [(h.plain hs hp).apply_move_get]
  simp only [h.fires_iff_isEnPassant hs hp]

theorem Tracks.source_after (h : Tracks G p) (hs : Sound p)
    (hp : PseudoLegal p ⟨p.turn, k⟩ m) :
    (apply_move G m.sx m.sy m.dx m.dy).board.get m.sy m.sx = (G.board.get m.sy m.sx).kill := by
  rw [h.get_after hs hp, if_neg hp.src_ne_dst, if_pos ⟨rfl, rfl⟩]

/-- The piece lands as itself or, on the mover's last rank, as a queen. -/
theorem Tracks.landed_eq (h : Tracks G p) (hs : Sound p) (hp : PseudoLegal p ⟨p.turn, k⟩ m) :
    (G.board.get m.sy m.sx).landed (piece_table p.turn k) m.dy =
      { piece := some (if k = .pawn ∧ m.dy = lastRank p.turn then piece_table p.turn .queen
          else piece_table p.turn k),
        team := p.turn, is_dead := false, has_moved := true } := by
  obtain ⟨hlive, hteam, _⟩ := h.source hp
  unfold PieceState.landed
  rw [piece_table_type, hlive, hteam]
  by_cases hk : k = .pawn
  · subst hk
    -- a pawn reaches no other back rank than its last one
    have hlast := (PseudoLegal.pawn_lands hs hp).2
    by_cases hy : m.dy = lastRank p.turn
    · rw [if_pos ⟨rfl, hlast.mpr hy⟩, if_pos ⟨rfl, hy⟩]
      rfl
    · rw [if_neg (fun hc => hy (hlast.mp hc.2)), if_neg (fun hc => hy hc.2)]
  · simp [hk]

/-- The square passed in an en passant move is neither end of the move. -/
theorem Tracks.passed_after (h : Tracks G p) (hs : Sound p) (hp : PseudoLegal p ⟨p.turn, k⟩ m)
    (hep : IsEnPassant G m) :
    (apply_move G m.sx m.sy m.dx m.dy).board.get m.sy m.dx = (G.board.get m.sy m.dx).kill := by
  have hfires := (h.fires_iff_isEnPassant hs hp).mpr hep
  have hdiag := (h.plain hs hp).en_passant hfires
  rw [h.get_after hs hp, if_neg (fun hc => hdiag.2 hc.2.symm), if_neg (fun hc => hdiag.1 hc.1),
    if_pos ⟨hep, rfl, rfl⟩]

/-- An enemy pawn stands where an en passant move captures. -/
theorem Tracks.passed_pawn (h : Tracks G p) (hs : Sound p) (hp : PseudoLegal p ⟨p.turn, k⟩ m)
    (hep : IsEnPassant G m) : p.board m.dx m.sy = some ⟨p.turn.other, .pawn⟩ := by
  obtain ⟨hpawn, hdiag, hempty⟩ :=
    (h.fires_iff_after hs hp).mp ((h.fires_iff_isEnPassant hs hp).mpr hep)
  exact (hp.enPassant_captures hpawn hdiag hempty).2

/-- What disappears is the man on the destination or the pawn captured en
    passant. -/
theorem Tracks.disappears_iff (h : Tracks G p) (hs : Sound p)
    (hp : PseudoLegal p ⟨p.turn, k⟩ m) (x y : Int) :
    Disappears G m x y ↔
      ((G.board.get m.dy m.dx).is_dead = false ∧ x = m.dx ∧ y = m.dy) ∨
        (IsEnPassant G m ∧ x = m.dx ∧ y = m.sy) := by
  have hep : IsEnPassant G m ↔ k = .pawn ∧ m.dx ≠ m.sx ∧ p.board m.dx m.dy = none :=
    (h.fires_iff_isEnPassant hs hp).symm.trans (h.fires_iff_after hs hp)
  have hlive : (G.board.get m.dy m.dx).is_dead = false ↔ p.board m.dx m.dy ≠ none := by
    rw [Ne, h.empty_iff, Bool.not_eq_true]
  unfold Disappears
  rw [h.placement_after hs hp, h.placement, hlive, hep]
  constructor
  · intro ⟨hsrc, hman, hgone⟩
    by_cases hdst : x = m.dx ∧ y = m.dy
    · obtain ⟨rfl, rfl⟩ := hdst
      exact .inl ⟨hman, rfl, rfl⟩
    · -- off the destination only the en passant branch takes a man away
      by_cases hpass : (k = .pawn ∧ m.dx ≠ m.sx ∧ p.board m.dx m.dy = none) ∧ x = m.dx ∧ y = m.sy
      · exact .inr hpass
      · exact absurd (Chess.after_keep hdst hsrc hpass) hgone
  · rintro (⟨hman, rfl, rfl⟩ | ⟨hep', rfl, rfl⟩)
    · refine ⟨fun hc => hp.src_ne_dst ⟨hc.1.symm, hc.2.symm⟩, hman, ?_⟩
      obtain ⟨e, he⟩ := Option.ne_none_iff_exists'.mp hman
      rw [Chess.after_dst, he]
      intro hsame
      -- the mover's man stands where an enemy stood
      have henemy := hp.enemy he
      rw [← Option.some.inj hsame, Chess.promoted_team] at henemy
      exact Team.ne_other _ henemy
    · obtain ⟨hpawn, hdiag, hempty⟩ := hep'
      have hcap := (hp.enPassant_captures hpawn hdiag hempty).2
      have hne : m.sy ≠ m.dy := by
        intro hy
        rw [hy, hempty] at hcap
        cases hcap
      refine ⟨fun hc => hdiag hc.1, by rw [hcap]; exact Option.some_ne_none _, ?_⟩
      unfold Chess.after
      rw [if_neg (fun hc => hne hc.2), if_neg (fun hc => hdiag hc.1),
        if_pos ⟨⟨hpawn, hdiag, hempty⟩, rfl, rfl⟩, hcap]
      exact Option.some_ne_none _ ∘ Eq.symm

/-- An en passant move goes to an empty square, so one man disappears at
    most. -/
theorem Tracks.disappears_unique (h : Tracks G p) (hs : Sound p)
    (hp : PseudoLegal p ⟨p.turn, k⟩ m) {x y x' y' : Int} (hd : Disappears G m x y)
    (hd' : Disappears G m x' y') : x' = x ∧ y' = y := by
  rw [h.disappears_iff hs hp] at hd hd'
  rcases hd with ⟨hlive, rfl, rfl⟩ | ⟨hep, rfl, rfl⟩
  · rcases hd' with ⟨_, rfl, rfl⟩ | ⟨hep', rfl, rfl⟩
    · exact ⟨rfl, rfl⟩
    · rw [hep'.2.2] at hlive
      cases hlive
  · rcases hd' with ⟨hlive', rfl, rfl⟩ | ⟨_, rfl, rfl⟩
    · rw [hep.2.2] at hlive'
      cases hlive'
    · exact ⟨rfl, rfl⟩

/-- What disappears is an enemy and not the king. -/
theorem Tracks.disappears_enemy (h : Tracks G p) (hs : Sound p)
    (hp : PseudoLegal p ⟨p.turn, k⟩ m) {x y : Int} (hd : Disappears G m x y) :
    ∃ k', k' ≠ .king ∧ p.board x y = some ⟨p.turn.other, k'⟩ := by
  rcases (h.disappears_iff hs hp x y).mp hd with ⟨hlive, rfl, rfl⟩ | ⟨hep, rfl, rfl⟩
  · have hman : p.board m.dx m.dy ≠ none := by
      rw [Ne, h.empty_iff, hlive]
      exact Bool.false_ne_true
    obtain ⟨⟨t, k'⟩, he⟩ := Option.ne_none_iff_exists'.mp hman
    obtain rfl : t = p.turn.other := hp.enemy he
    exact ⟨k', hs.no_king_capture hp he, he⟩
  · exact ⟨.pawn, by decide, h.passed_pawn hs hp hep⟩

/-- The square behind a double step may be entered en passant. -/
theorem Tracks.target_set (h : Tracks G p) (hs : Sound p) (hp : PseudoLegal p ⟨p.turn, k⟩ m) :
    ((apply_move G m.sx m.sy m.dx m.dy).en_passant_x,
      (apply_move G m.sx m.sy m.dx m.dy).en_passant_y) =
        if IsDoubleStep G m then (m.sx, m.sy + pawn_dir G.side_to_move) else (-1, -1) := by
  have htarget := (h.plain hs hp).apply_move_target
  have hdouble := h.isDoubleStep_iff hp
  rw [piece_table_type] at htarget
  rw [htarget]
  by_cases hd : IsDoubleStep G m
  · rw [if_pos (hdouble.mp hd), if_pos hd]
    obtain ⟨_, hx, hy⟩ := hd
    have hsy := hp.src_on.2
    have hdy := hp.dst_on.2
    -- the mean of the two ranks is the rank between them
    rw [hx, Int.tdiv_eq_ediv_of_nonneg (by omega), hy]
    congr 1
    omega
  · rw [if_neg (mt hdouble.mpr hd), if_neg hd]

/-- **The effect of a move.** -/
theorem Tracks.effect (h : Tracks G p) (hs : Sound p) (hp : PseudoLegal p ⟨p.turn, k⟩ m) :
    MoveEffect G m (apply_move G m.sx m.sy m.dx m.dy) where
  source := by
    rw [h.source_after hs hp]
    exact ⟨rfl, rfl⟩
  destination := by
    refine ⟨piece_table p.turn k, (h.source hp).2.2, ?_⟩
    rw [h.get_after hs hp, if_pos ⟨rfl, rfl⟩, h.landed_eq hs hp, piece_table_type, h.turn]
  passed := by
    intro hep
    rw [h.passed_after hs hp hep, h.turn, h.placement]
    exact ⟨h.passed_pawn hs hp hep, rfl, rfl⟩
  rest := by
    intro x y hsrc hdst hpass
    rw [h.get_after hs hp, if_neg hdst, if_neg hsrc, if_neg hpass]
  one := by
    intro x y x' y' hd hd'
    exact h.disappears_unique hs hp hd hd'
  enemy := by
    intro x y hd
    rw [h.turn, h.placement]
    exact h.disappears_enemy hs hp hd
  capture := by
    simp only [h.disappears_iff hs hp]
    constructor
    · rintro ⟨x, y, ⟨hlive, _, _⟩ | ⟨hep, _, _⟩⟩
      · exact .inl hlive
      · exact .inr hep
    · rintro (hlive | hep)
      · exact ⟨m.dx, m.dy, .inl ⟨hlive, rfl, rfl⟩⟩
      · exact ⟨m.dx, m.sy, .inr ⟨hep, rfl, rfl⟩⟩
  side := (h.plain hs hp).apply_move_side
  target := h.target_set hs hp

end effect

/-- **Frame and effect of every move of a game.** After any sequence of
    accepted moves an accepted move changes the game as `MoveEffect` says. -/
theorem accepted_move_effect {G₀ G : Game} {h : List Move}
    (hrun : Run rules (init_startpos G₀) h G) {m : Move}
    (hlegal : is_move_legal G m.sx m.sy m.dx m.dy = true) :
    MoveEffect G m (apply_move G m.sx m.sy m.dx m.dy) := by
  have hf := Run.following hrun
  obtain ⟨⟨t, k⟩, hp, _⟩ := (hf.legal_iff m).mp hlegal
  obtain rfl : t = (positionOf G h).turn := hp.own
  exact hf.tracks.effect hf.sound hp

/-- White's first pawn step has this effect. -/
theorem accepted_move_effect_first :
    MoveEffect (init_startpos .zero) ⟨4, 1, 4, 3⟩ (apply_move (init_startpos .zero) 4 1 4 3) := by
  have hfirst : is_move_legal (init_startpos .zero) 4 1 4 3 = true := by decide +kernel
  exact @accepted_move_effect .zero (init_startpos .zero) [] .nil ⟨4, 1, 4, 3⟩ hfirst

end MultiplayChess
