import MultiplayChess.Chess.Rules
import Mathlib.Tactic.Ring

/-! # Sound positions

    What every position of a game satisfies and every legal move keeps: men
    stand on the board, pawns stay between the back ranks, each side has
    one king, the side that just moved is not in check, and the squares a
    double step passed are empty.  That no king is ever captured is not one
    of the rules; it follows from the last two. -/

namespace MultiplayChess.Chess

/-- Exactly one man `c` stands on the board. -/
def ExactlyOne (b : Placement) (c : Man) : Prop :=
  ∃ x y, b x y = some c ∧ ∀ x' y', b x' y' = some c → x' = x ∧ y' = y

/-- At most one man `c` stands on the board. -/
def AtMostOne (b : Placement) (c : Man) : Prop :=
  ∀ x y x' y', b x y = some c → b x' y' = some c → x' = x ∧ y' = y

theorem ExactlyOne.atMostOne {b : Placement} {c : Man} (h : ExactlyOne b c) : AtMostOne b c := by
  obtain ⟨x₀, y₀, _, honly⟩ := h
  intro x y x' y' hc hc'
  obtain ⟨rfl, rfl⟩ := honly x y hc
  exact honly x' y' hc'

structure Sound (p : Position) : Prop where
  on_board : ∀ x y c, p.board x y = some c → OnBoard x y
  pawns : ∀ x y t, p.board x y = some ⟨t, .pawn⟩ → 1 ≤ y ∧ y ≤ 6
  kings : ∀ t, ExactlyOne p.board ⟨t, .king⟩
  safe : ¬ InCheck p.board p.turn.other
  double : ∀ l, p.last = some l → DoubleStep p.board p.turn.other l →
    l.sy = pawnRank p.turn.other ∧ p.board l.sx l.sy = none ∧
      p.board l.sx (l.sy + forward p.turn.other) = none

variable {p : Position} {c : Man} {m : Move}

theorem PseudoLegal.src_ne_dst (h : PseudoLegal p c m) : ¬ (m.sx = m.dx ∧ m.sy = m.dy) := by
  intro ⟨hx, hy⟩
  have hman := h.man
  rw [hx, hy] at hman
  exact h.not_own c hman h.own

/-- A capture takes an enemy man. -/
theorem PseudoLegal.enemy (h : PseudoLegal p c m) {e : Man}
    (he : p.board m.dx m.dy = some e) : e.team = p.turn.other :=
  Team.eq_other_of_ne (h.not_own e he)

/-- The square an en passant move goes to is empty. -/
theorem Sound.enPassant_empty (hs : Sound p) {x y : Int}
    (h : EnPassantSquare p.board p.last p.turn x y) : p.board x y = none := by
  obtain ⟨l, hl, hd, rfl, rfl⟩ := h
  have hsq := (hs.double l hl hd).2.2
  rwa [← hd.2.1] at hsq

/-- **No king is captured.** The enemy king would have been in check with
    the move of its opponent to come. -/
theorem Sound.no_king_capture (hs : Sound p) (h : PseudoLegal p c m) {e : Man}
    (he : p.board m.dx m.dy = some e) : e.kind ≠ .king := by
  intro hk
  have hteam := h.enemy he
  obtain ⟨t, k⟩ := e
  simp only at hk hteam
  subst hk hteam
  apply hs.safe ⟨m.dx, m.dy, he, m.sx, m.sy, c, h.man, ?_, h.moves.strikes_of_occupied he⟩
  rw [Team.other_other]
  exact h.own

/-- An en passant capture takes the pawn that made the double step. -/
theorem PseudoLegal.enPassant_captures (h : PseudoLegal p c m)
    (hc : c.kind = .pawn) (hdiag : m.dx ≠ m.sx) (hempty : p.board m.dx m.dy = none) :
    EnPassantSquare p.board p.last p.turn m.dx m.dy ∧
      p.board m.dx m.sy = some ⟨p.turn.other, .pawn⟩ := by
  have hmoves := h.moves
  unfold Moves at hmoves
  rw [hc] at hmoves
  cases hmoves with
  | step hx _ _ => exact absurd hx hdiag
  | double hx _ _ _ _ => exact absurd hx hdiag
  | capture e _ he _ => rw [hempty] at he; cases he
  | enPassant hstrike hep =>
    rw [h.own] at hep hstrike
    refine ⟨hep, ?_⟩
    obtain ⟨l, hl, ⟨hpawn, hlx, hly⟩, hx, hy⟩ := hep
    have hsy : m.sy = l.dy := by
      have := hstrike.1
      rw [forward_other] at hly hy
      omega
    rw [hx, hsy]
    exact hpawn

/-! ## The move keeps soundness -/

theorem Sound.after_on_board (hs : Sound p) (h : PseudoLegal p c m) (x y : Int) (e : Man)
    (he : after p.board c m x y = some e) : OnBoard x y := by
  rcases after_elsewhere he with ⟨rfl, rfl, _⟩ | ⟨_, _, hold⟩
  · exact h.dst_on
  · exact hs.on_board x y e hold

/-- A pawn's move takes it forward. -/
theorem Moves.pawn_advances {b : Placement} {last : Option Move} {t : Team}
    (h : PawnMoves b last t m) :
    m.dy = m.sy + forward t ∨ m.dy = m.sy + 2 * forward t := by
  cases h with
  | step _ hy _ => exact .inl hy
  | double _ hy _ _ _ => exact .inr hy
  | capture _ hs _ _ => exact .inl hs.1
  | enPassant hs _ => exact .inl hs.1

theorem Sound.after_pawns (hs : Sound p) (h : PseudoLegal p c m) (x y : Int) (t : Team)
    (he : after p.board c m x y = some ⟨t, .pawn⟩) : 1 ≤ y ∧ y ≤ 6 := by
  rcases after_elsewhere he with ⟨rfl, rfl, hprom⟩ | ⟨_, _, hold⟩
  · -- the pawn just moved: it advanced and was not promoted
    unfold promoted at hprom
    split at hprom
    · cases hprom
    · rename_i hnot
      subst hprom
      have hlast : m.dy ≠ lastRank t := fun hy => hnot ⟨rfl, hy⟩
      have hfrom := hs.pawns m.sx m.sy t h.man
      have hon := h.dst_on.2
      have hadv := Moves.pawn_advances (show PawnMoves p.board p.last t m from h.moves)
      rcases forward_cases t with ⟨hf, _, hl⟩ | ⟨hf, _, hl⟩ <;>
        rw [hf] at hadv <;> rw [hl] at hlast <;> omega
  · exact hs.pawns x y t hold

/-- A king that does not move itself stays where it is. -/
theorem Sound.king_stays (hs : Sound p) (h : PseudoLegal p c m) {t : Team} {x y : Int}
    (hking : p.board x y = some ⟨t, .king⟩) (hsrc : ¬ (x = m.sx ∧ y = m.sy)) :
    after p.board c m x y = some ⟨t, .king⟩ := by
  have hdst : ¬ (x = m.dx ∧ y = m.dy) := by
    intro ⟨hx, hy⟩
    rw [hx, hy] at hking
    exact hs.no_king_capture h hking rfl
  have hep : ¬ ((c.kind = .pawn ∧ m.dx ≠ m.sx ∧ p.board m.dx m.dy = none) ∧
      x = m.dx ∧ y = m.sy) := by
    -- what is captured en passant is a pawn
    intro ⟨⟨hc, hdiag, hempty⟩, hx, hy⟩
    have hpawn := (h.enPassant_captures hc hdiag hempty).2
    rw [hx, hy, hpawn] at hking
    cases hking
  rw [after_keep hdst hsrc hep]
  exact hking

/-- Kings neither disappear nor multiply. -/
theorem Sound.after_kings (hs : Sound p) (h : PseudoLegal p c m) (t : Team) :
    ExactlyOne (after p.board c m) ⟨t, .king⟩ := by
  obtain ⟨x, y, hking, honly⟩ := hs.kings t
  by_cases hmoved : c = ⟨t, .king⟩
  · -- the king itself moved
    refine ⟨m.dx, m.dy, by simp [hmoved], ?_⟩
    intro x' y' he
    rcases after_elsewhere he with ⟨hx, hy, _⟩ | ⟨_, hsrc, hold⟩
    · exact ⟨hx, hy⟩
    · have hman := h.man
      rw [hmoved] at hman
      obtain ⟨hx, hy⟩ := honly x' y' hold
      obtain ⟨hx', hy'⟩ := honly m.sx m.sy hman
      exact absurd ⟨hx.trans hx'.symm, hy.trans hy'.symm⟩ hsrc
  · -- another man moved
    have hsrc : ¬ (x = m.sx ∧ y = m.sy) := by
      rintro ⟨rfl, rfl⟩
      rw [h.man] at hking
      exact hmoved (Option.some.inj hking)
    refine ⟨x, y, hs.king_stays h hking hsrc, ?_⟩
    intro x' y' he
    rcases after_elsewhere he with ⟨_, _, hprom⟩ | ⟨_, _, hold⟩
    · exact absurd ((promoted_king_iff c m.dy t).mp hprom.symm) hmoved
    · exact honly x' y' hold

/-- After a double step the pawn's origin and the square passed over are
    empty. -/
theorem PseudoLegal.after_double (h : PseudoLegal p c m)
    (hd : DoubleStep (after p.board c m) p.turn m) :
    m.sy = pawnRank p.turn ∧ after p.board c m m.sx m.sy = none ∧
      after p.board c m m.sx (m.sy + forward p.turn) = none := by
  obtain ⟨hpawn, hx, hy⟩ := hd
  have hsrc : after p.board c m m.sx m.sy = none := after_src p.board c m h.src_ne_dst
  rw [after_dst, Option.some.injEq] at hpawn
  unfold promoted at hpawn
  split at hpawn
  · exact absurd (congrArg Man.kind hpawn) (by simp)
  · have hf := forward_cases p.turn
    have hmoves : PawnMoves p.board p.last p.turn m := by
      have hm := h.moves
      rw [hpawn] at hm
      exact hm
    have hmid : p.board m.sx (m.sy + forward p.turn) = none ∧ m.sy = pawnRank p.turn := by
      cases hmoves with
      | step _ hy' _ => omega
      | double _ _ hrank hmid _ => exact ⟨hmid, hrank⟩
      | capture _ hs _ _ => have := hs.1; omega
      | enPassant hs _ => have := hs.1; omega
    refine ⟨hmid.2, hsrc, ?_⟩
    rw [after_keep (by omega) (by omega) (by intro ⟨⟨_, hdiag, _⟩, _⟩; exact hdiag hx)]
    exact hmid.1

/-- **A legal move keeps soundness.** -/
theorem Sound.play (hs : Sound p) (h : PseudoLegal p c m)
    (hsafe : ¬ InCheck (after p.board c m) p.turn) : Sound (p.play c m) where
  on_board := hs.after_on_board h
  pawns := hs.after_pawns h
  kings := hs.after_kings h
  safe := by
    show ¬ InCheck (after p.board c m) p.turn.other.other
    rw [Team.other_other]
    exact hsafe
  double := by
    intro l hl hd
    obtain rfl : m = l := Option.some.inj hl
    simp only [Position.play, Team.other_other] at hd ⊢
    exact h.after_double hd

end MultiplayChess.Chess
