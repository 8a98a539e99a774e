import MultiplayChess.Chess.Soundness

/-! # The end of a game

    Checkmate and stalemate, castling included, and the argument that a
    search without castling finds the same: whoever may castle may also
    step with the king towards the rook. -/

namespace MultiplayChess.Chess

/-- The side to move has a move, castling included. -/
def CanMove (p : Position) (h : List Move) : Prop :=
  (∃ m, Legal p m) ∨ ∃ w, MayCastle p.board h p.turn w

def Checkmate (p : Position) (h : List Move) : Prop :=
  InCheck p.board p.turn ∧ ¬ CanMove p h

def Stalemate (p : Position) (h : List Move) : Prop :=
  ¬ InCheck p.board p.turn ∧ ¬ CanMove p h

/-! ## The squares a king leaves and enters -/

section step

variable {b : Placement} {c e : Man} {m : Move} {sx sy : Int}

/-- A direction is not nowhere. -/
theorem Diagonal.ne_zero {ux uy : Int} (h : Diagonal ux uy) : ¬ (ux = 0 ∧ uy = 0) := by
  have := h.1
  omega

theorem Straight.ne_zero {ux uy : Int} (h : Straight ux uy) : ¬ (ux = 0 ∧ uy = 0) := by
  unfold Straight at h
  omega

/-- A line that is open once the king has moved was open before, or the king
    stood on it and the line led up to its square. -/
theorem OpenLine.of_after {dir : Int → Int → Prop} (hdir : ∀ ux uy, dir ux uy → ¬ (ux = 0 ∧ uy = 0))
    (hc : c.kind ≠ .pawn) (h : OpenLine (after b c m) dir sx sy m.dx m.dy) :
    OpenLine b dir sx sy m.dx m.dy ∨ OpenLine b dir sx sy m.sx m.sy := by
  obtain ⟨ux, uy, n, hu, hn, hx, hy, hempty⟩ := h
  have hne := hdir ux uy hu
  -- a square of the line that is empty afterwards and not the source was empty before
  have hbefore : ∀ k : Int, 0 < k → k < n → ¬ (sx + k * ux = m.sx ∧ sy + k * uy = m.sy) →
      b (sx + k * ux) (sy + k * uy) = none := by
    intro k h0 hk hsrc
    have hnone := hempty k h0 hk
    unfold after at hnone
    split at hnone
    · cases hnone
    · rw [if_neg (fun hep => hc hep.1.1)] at hnone
      exact hnone
  by_cases hthrough : ∃ k : Int, (0 < k ∧ k < n) ∧ sx + k * ux = m.sx ∧ sy + k * uy = m.sy
  · obtain ⟨k, ⟨h0, hk⟩, hkx, hky⟩ := hthrough
    refine .inr ⟨ux, uy, k, hu, h0, hkx.symm, hky.symm, ?_⟩
    intro j hj0 hj
    apply hbefore j hj0 (by omega)
    rintro ⟨hjx, hjy⟩
    -- different steps are different squares
    have hux : (j - k) * ux = 0 := by
      rw [Int.sub_mul]
      omega
    have huy : (j - k) * uy = 0 := by
      rw [Int.sub_mul]
      omega
    have hjk : j - k ≠ 0 := by omega
    exact hne ⟨(Int.mul_eq_zero.mp hux).resolve_left hjk, (Int.mul_eq_zero.mp huy).resolve_left hjk⟩
  · refine .inl ⟨ux, uy, n, hu, hn, hx, hy, ?_⟩
    intro k h0 hk
    apply hbefore k h0 hk
    intro hsrc
    exact hthrough ⟨k, ⟨h0, hk⟩, hsrc⟩

/-- What attacks the king's new square attacked that square before or, past
    the king, the king itself. -/
theorem Strikes.of_after (hc : c.kind ≠ .pawn) (h : Strikes (after b c m) e sx sy m.dx m.dy) :
    Strikes b e sx sy m.dx m.dy ∨ Strikes b e sx sy m.sx m.sy := by
  obtain ⟨t, k⟩ := e
  cases k with
  | pawn => exact .inl h
  | knight => exact .inl h
  | king => exact .inl h
  | bishop => exact OpenLine.of_after (fun _ _ => Diagonal.ne_zero) hc h
  | rook => exact OpenLine.of_after (fun _ _ => Straight.ne_zero) hc h
  | queen =>
    rcases h with h | h
    · rcases OpenLine.of_after (fun _ _ => Diagonal.ne_zero) hc h with h | h
      · exact .inl (.inl h)
      · exact .inr (.inl h)
    · rcases OpenLine.of_after (fun _ _ => Straight.ne_zero) hc h with h | h
      · exact .inl (.inr h)
      · exact .inr (.inr h)

end step

variable {p : Position} {m : Move} {w : Wing} {h : List Move}

/-- A king that stands on an unattacked square may step to another one. -/
theorem Sound.king_step (hs : Sound p) (hp : PseudoLegal p ⟨p.turn, .king⟩ m)
    (hfrom : ¬ Attacked p.board p.turn.other m.sx m.sy)
    (hto : ¬ Attacked p.board p.turn.other m.dx m.dy) : Legal p m := by
  refine ⟨_, hp, ?_⟩
  rintro ⟨x, y, hking, sx, sy, e, he, hteam, hstrikes⟩
  -- the king in check is the one that stepped
  obtain ⟨x₀, y₀, _, honly⟩ := hs.after_kings hp p.turn
  have hdst : after p.board ⟨p.turn, .king⟩ m m.dx m.dy = some ⟨p.turn, .king⟩ := by
    rw [after_dst, (promoted_king_iff _ _ _).mpr rfl]
  obtain ⟨rfl, rfl⟩ := honly x y hking
  obtain ⟨hx, hy⟩ := honly m.dx m.dy hdst
  rw [← hx, ← hy] at hstrikes
  have hold : p.board sx sy = some e := by
    rcases after_elsewhere he with ⟨_, _, heq⟩ | ⟨_, _, hold⟩
    · rw [heq, promoted_team] at hteam
      exact absurd hteam (Team.ne_other _)
    · exact hold
  rcases hstrikes.of_after (show PieceType.king ≠ .pawn by decide) with hnew | hpast
  · exact hto ⟨sx, sy, e, hold, hteam, hnew⟩
  · exact hfrom ⟨sx, sy, e, hold, hteam, hpast⟩

theorem backRankOf_on_board (t : Team) : 0 ≤ backRankOf t ∧ backRankOf t < 8 := by
  cases t <;> decide

theorem Wing.transit_between (w : Wing) : w.Between w.transit := by
  cases w
  · exact ⟨by decide, by decide⟩
  · exact ⟨by decide, by decide⟩

theorem Wing.transit_on_board (w : Wing) : 0 ≤ w.transit ∧ w.transit < 8 := by
  cases w <;> decide

/-- Next to the king. -/
theorem Wing.transit_near (w : Wing) : (w.transit - 4).natAbs ≤ 1 ∧ w.transit ≠ 4 := by
  cases w <;> decide

/-- **Castling is never the only move.** Who may castle may step towards the
    rook instead. -/
theorem MayCastle.legal_step (hs : Sound p) (hm : MayCastle p.board h p.turn w) :
    Legal p ⟨4, backRankOf p.turn, w.transit, backRankOf p.turn⟩ := by
  have hempty := hm.clear w.transit w.transit_between
  apply hs.king_step
  · constructor
    case src_on => exact ⟨(by decide : (0 : Int) ≤ 4 ∧ (4 : Int) < 8), backRankOf_on_board p.turn⟩
    case dst_on => exact ⟨w.transit_on_board, backRankOf_on_board p.turn⟩
    case man => exact hm.king_home
    case own => rfl
    case not_own =>
      intro e he
      rw [hempty] at he
      cases he
    case moves =>
      obtain ⟨hnear, hne⟩ := w.transit_near
      refine ⟨hnear, ?_, fun hc => hne hc.1⟩
      show (backRankOf p.turn - backRankOf p.turn).natAbs ≤ 1
      rw [Int.sub_self]
      decide
  · exact hm.start_safe
  · exact hm.transit_safe

/-- The search may leave castling out. -/
theorem Sound.canMove_iff (hs : Sound p) (h : List Move) : CanMove p h ↔ ∃ m, Legal p m := by
  constructor
  · rintro (hlegal | ⟨w, hm⟩)
    · exact hlegal
    · exact ⟨_, hm.legal_step hs⟩
  · exact .inl

end MultiplayChess.Chess
