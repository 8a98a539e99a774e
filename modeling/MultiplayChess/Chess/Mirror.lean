import MultiplayChess.Chess.Soundness

/-! # The mirrored board

    Turning the board top to bottom and exchanging the colours changes
    nothing in chess: men attack on the mirrored board what they attacked,
    and a king is in check if it was. -/

namespace MultiplayChess.Chess

def Man.swap (c : Man) : Man :=
  ⟨c.team.other, c.kind⟩

@[simp] theorem Man.swap_swap (c : Man) : c.swap.swap = c := by
  simp [Man.swap]

/-- The placement seen from the other side, with the colours exchanged. -/
def mirror (b : Placement) : Placement :=
  fun x y => (b x (7 - y)).map Man.swap

/-- The move on the mirrored board. -/
def Move.flip (m : Move) : Move :=
  ⟨m.sx, 7 - m.sy, m.dx, 7 - m.dy⟩

section mirror

variable {b : Placement} {c : Man} {t : Team} {x y sx sy dx dy : Int}

theorem mirror_rank (b : Placement) (x y : Int) : mirror b x (7 - y) = (b x y).map Man.swap := by
  unfold mirror
  rw [Int.sub_sub_self]

theorem mirror_mirror (b : Placement) : mirror (mirror b) = b := by
  funext x y
  unfold mirror
  rw [Int.sub_sub_self, Option.map_map]
  simp [Function.comp_def]

theorem mirror_of_some (h : b x y = some c) : mirror b x (7 - y) = some c.swap := by
  rw [mirror_rank, h]
  rfl

theorem of_mirror_swap (h : mirror b x y = some c.swap) : b x (7 - y) = some c := by
  have hback := mirror_of_some h
  rwa [mirror_mirror, Man.swap_swap] at hback

theorem forward_other_rank (t : Team) (y : Int) :
    7 - y + forward t.other = 7 - (y + forward t) := by
  rw [forward_other]
  omega

theorem OpenLine.mirror {dir : Int → Int → Prop} (hdir : ∀ ux uy, dir ux uy → dir ux (-uy))
    (h : OpenLine b dir sx sy dx dy) :
    OpenLine (mirror b) dir sx (7 - sy) dx (7 - dy) := by
  obtain ⟨ux, uy, n, hu, hn, hx, hy, hempty⟩ := h
  refine ⟨ux, -uy, n, hdir ux uy hu, hn, hx, ?_, ?_⟩
  · rw [hy, Int.mul_neg]
    omega
  · intro k h0 hk
    rw [Int.mul_neg, show 7 - sy + -(k * uy) = 7 - (sy + k * uy) by omega, mirror_rank,
      hempty k h0 hk]
    rfl

theorem Diagonal.mirror (ux uy : Int) (h : Diagonal ux uy) : Diagonal ux (-uy) := by
  obtain ⟨hx, hy⟩ := h
  exact ⟨hx, by omega⟩

theorem Straight.mirror (ux uy : Int) (h : Straight ux uy) : Straight ux (-uy) := by
  unfold Straight at h ⊢
  omega

theorem Strikes.mirror (h : Strikes b c sx sy dx dy) :
    Strikes (mirror b) c.swap sx (7 - sy) dx (7 - dy) := by
  obtain ⟨t, k⟩ := c
  cases k with
  | pawn =>
    obtain ⟨hy, hx⟩ := h
    refine ⟨?_, hx⟩
    show 7 - dy = 7 - sy + forward t.other
    rw [forward_other_rank, hy]
  | knight =>
    unfold Strikes at h ⊢
    simp only [Man.swap] at h ⊢
    omega
  | bishop => exact OpenLine.mirror Diagonal.mirror h
  | rook => exact OpenLine.mirror Straight.mirror h
  | queen =>
    rcases h with h | h
    · exact .inl (OpenLine.mirror Diagonal.mirror h)
    · exact .inr (OpenLine.mirror Straight.mirror h)
  | king =>
    unfold Strikes at h ⊢
    simp only [Man.swap] at h ⊢
    omega

/-- Mirroring twice gives the board back, so each fact about the mirror is
    an equivalence. -/
theorem strikes_mirror_iff :
    Strikes (mirror b) c.swap sx (7 - sy) dx (7 - dy) ↔ Strikes b c sx sy dx dy := by
  constructor
  · intro h
    have hback := h.mirror
    rwa [mirror_mirror, Man.swap_swap, Int.sub_sub_self, Int.sub_sub_self] at hback
  · exact Strikes.mirror

theorem Attacked.mirror (h : Attacked b t x y) : Attacked (mirror b) t.other x (7 - y) := by
  obtain ⟨sx, sy, c, hc, rfl, hstrikes⟩ := h
  exact ⟨sx, 7 - sy, c.swap, mirror_of_some hc, rfl, hstrikes.mirror⟩

theorem InCheck.mirror (h : InCheck b t) : InCheck (mirror b) t.other := by
  obtain ⟨x, y, hking, hattacked⟩ := h
  exact ⟨x, 7 - y, mirror_of_some hking, hattacked.mirror⟩

theorem inCheck_mirror_iff : InCheck (mirror b) t.other ↔ InCheck b t := by
  constructor
  · intro h
    have hback := h.mirror
    rwa [mirror_mirror, Team.other_other] at hback
  · exact InCheck.mirror

theorem AtMostOne.mirror (h : AtMostOne b c) : AtMostOne (mirror b) c.swap := by
  intro x y x' y' hc hc'
  have hsame := h x (7 - y) x' (7 - y') (of_mirror_swap hc) (of_mirror_swap hc')
  exact ⟨hsame.1, by omega⟩

end mirror

end MultiplayChess.Chess
