import MultiplayChess.Chess.Soundness
import MultiplayChess.Framework.Counting
import Mathlib.Data.Fintype.Prod
import Mathlib.Data.Finset.Image

/-! # Progress

    Pawns do not go back and men that are captured do not return.  The
    potential of a placement counts the men that can still be captured and
    the ranks their pawns have before them; no move adds to it, and every
    pawn move and every capture takes from it. -/

namespace MultiplayChess.Chess

/-! ## The potential of a placement -/

/-- What a man on rank `y` adds: one if it can be captured, and for a pawn
    the ranks it has to go. -/
def Man.worth (c : Man) (y : Int) : Nat :=
  match c.kind with
  | .king => 0
  | .pawn => 1 + (lastRank c.team - y).natAbs
  | _ => 1

/-- The worth of what stands on a square. -/
def worth_on (b : Placement) (q : Int × Int) : Nat :=
  match b q.1 q.2 with
  | some c => c.worth q.2
  | none => 0

/-- The squares of the board. -/
def squares : Finset (Int × Int) :=
  Finset.univ.image fun q : Fin 8 × Fin 8 => ((q.1 : Int), (q.2 : Int))

def potential (b : Placement) : Nat :=
  squares.sum (worth_on b)

theorem mem_squares {x y : Int} : (x, y) ∈ squares ↔ OnBoard x y := by
  unfold squares OnBoard
  rw [Finset.mem_image]
  constructor
  · rintro ⟨⟨i, j⟩, _, hq⟩
    rw [Prod.mk.injEq] at hq
    omega
  · intro ⟨⟨hx, hx'⟩, hy, hy'⟩
    refine ⟨(⟨x.toNat, by omega⟩, ⟨y.toNat, by omega⟩), Finset.mem_univ _, ?_⟩
    rw [Prod.mk.injEq]
    exact ⟨Int.toNat_of_nonneg hx, Int.toNat_of_nonneg hy⟩

/-- Sixteen pawns with six ranks to go and thirty men besides the kings. -/
theorem start_potential : potential start.board = 126 := by
  decide +kernel

/-! ## Moves -/

section moves

variable {p : Position} {c : Man} {m : Move}

theorem worth_on_some {b : Placement} {x y : Int} {e : Man} (h : b x y = some e) :
    worth_on b (x, y) = e.worth y := by
  unfold worth_on
  simp only [h]

theorem worth_on_none {b : Placement} {x y : Int} (h : b x y = none) :
    worth_on b (x, y) = 0 := by
  unfold worth_on
  simp only [h]

/-- Whatever can be captured counts. -/
theorem Man.worth_pos {e : Man} (h : e.kind ≠ .king) (y : Int) : 0 < e.worth y := by
  unfold Man.worth
  split
  · rename_i hk
    exact absurd hk h
  · omega
  · exact Nat.one_pos

/-- Other men are worth the same wherever they stand. -/
theorem Man.worth_of_ne_pawn {e : Man} (h : e.kind ≠ .pawn) (y y' : Int) :
    e.worth y = e.worth y' := by
  unfold Man.worth
  split
  · rfl
  · rename_i hk
    exact absurd hk h
  · rfl

/-- A pawn's move takes it closer to its last rank, where it becomes a
    queen. -/
theorem Sound.pawn_spends (hs : Sound p) (h : PseudoLegal p c m) (hc : c.kind = .pawn) :
    (promoted c m.dy).worth m.dy < c.worth m.sy := by
  obtain ⟨t, k⟩ := c
  obtain rfl : k = .pawn := hc
  have hfrom := hs.pawns m.sx m.sy t h.man
  have hto := h.dst_on.2
  have hadv := Moves.pawn_advances (show PawnMoves p.board p.last t m from h.moves)
  have hpawn : (Man.mk t .pawn).worth m.sy = 1 + (lastRank t - m.sy).natAbs := rfl
  rw [hpawn]
  unfold promoted
  split
  · -- the queen counts one, the pawn before its last step two
    have hqueen : (Man.mk t .queen).worth m.dy = 1 := rfl
    simp only [hqueen]
    rcases forward_cases t with ⟨_, _, hl⟩ | ⟨_, _, hl⟩ <;> rw [hl] <;> omega
  · have hpawn' : (Man.mk t .pawn).worth m.dy = 1 + (lastRank t - m.dy).natAbs := rfl
    rw [hpawn']
    rcases forward_cases t with ⟨hf, _, hl⟩ | ⟨hf, _, hl⟩ <;> rw [hf] at hadv <;> rw [hl] <;> omega

/-- What arrives is worth no more than what left. -/
theorem Sound.arrives_le (hs : Sound p) (h : PseudoLegal p c m) :
    (promoted c m.dy).worth m.dy ≤ c.worth m.sy := by
  by_cases hc : c.kind = .pawn
  · exact Nat.le_of_lt (hs.pawn_spends h hc)
  · have hsame : promoted c m.dy = c := by
      unfold promoted
      rw [if_neg (fun hboth => hc hboth.1)]
    rw [hsame, Man.worth_of_ne_pawn hc m.dy m.sy]

/-- Off the two ends of the move nothing is added. -/
theorem after_worth_le {b : Placement} {q : Int × Int} (hs : q ≠ (m.sx, m.sy))
    (hd : q ≠ (m.dx, m.dy)) : worth_on (after b c m) q ≤ worth_on b q := by
  obtain ⟨x, y⟩ := q
  have hs' : ¬ (x = m.sx ∧ y = m.sy) := fun hc => hs (Prod.ext hc.1 hc.2)
  have hd' : ¬ (x = m.dx ∧ y = m.dy) := fun hc => hd (Prod.ext hc.1 hc.2)
  cases hafter : after b c m x y with
  | none =>
    rw [worth_on_none hafter]
    exact Nat.zero_le _
  | some e =>
    -- a man standing there after the move stood there before
    rcases after_elsewhere hafter with ⟨hx, hy, _⟩ | ⟨_, _, hold⟩
    · exact absurd ⟨hx, hy⟩ hd'
    · rw [worth_on_some hafter, worth_on_some hold]

/-- **The account of a move.** What left, what stood on the destination and
    all the rest cover what is there afterwards. -/
theorem PseudoLegal.potential_after (h : PseudoLegal p c m) :
    potential (after p.board c m) + c.worth m.sy + worth_on p.board (m.dx, m.dy) ≤
      potential p.board + (promoted c m.dy).worth m.dy := by
  have hne : (m.sx, m.sy) ≠ (m.dx, m.dy) := by
    intro heq
    rw [Prod.mk.injEq] at heq
    exact h.src_ne_dst heq
  have hrest : ∀ q ∈ squares, q ≠ (m.sx, m.sy) → q ≠ (m.dx, m.dy) →
      worth_on (after p.board c m) q ≤ worth_on p.board q := by
    intro q _ hqs hqd
    exact after_worth_le hqs hqd
  have hsum := Budget.sum_moved (mem_squares.mpr h.src_on) (mem_squares.mpr h.dst_on) hne
    (worth_on_none (after_src p.board c m h.src_ne_dst)) hrest
  rw [worth_on_some h.man, worth_on_some (after_dst p.board c m)] at hsum
  exact hsum

/-- No move adds to the potential. -/
theorem Sound.potential_le (hs : Sound p) (h : PseudoLegal p c m) :
    potential (after p.board c m) ≤ potential p.board := by
  have hafter := h.potential_after
  have harrives := hs.arrives_le h
  omega

/-- Pawn moves and captures take from it. -/
theorem Sound.potential_lt (hs : Sound p) (h : PseudoLegal p c m)
    (hirr : c.kind = .pawn ∨ p.board m.dx m.dy ≠ none) :
    potential (after p.board c m) < potential p.board := by
  have hafter := h.potential_after
  rcases hirr with hc | hocc
  · have hspends := hs.pawn_spends h hc
    omega
  · obtain ⟨e, he⟩ := Option.ne_none_iff_exists'.mp hocc
    -- the captured man is not the king
    have hpos := e.worth_pos (hs.no_king_capture h he) m.dy
    have harrives := hs.arrives_le h
    rw [worth_on_some he] at hafter
    omega

end moves

end MultiplayChess.Chess
