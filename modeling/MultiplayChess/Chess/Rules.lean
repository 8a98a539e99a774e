import MultiplayChess.Common.Piece
import Mathlib.Tactic.Common

/-! # Chess

    The game itself, stated without reference to the code: what a man
    attacks, how it may move, what a move does to the placement of men and
    which moves are legal.  The castling law stands apart at the end; before
    it a king moves one step.

    A placement says which man stands on file `x`, rank `y`.  Whether a
    capture is en passant is read off the move played before. -/

namespace MultiplayChess.Chess

/-- A chess man. -/
structure Man where
  team : Team
  kind : PieceType
  deriving DecidableEq, Repr

/-- Which man stands on file `x`, rank `y`. -/
abbrev Placement := Int → Int → Option Man

/-- A move from file `sx`, rank `sy` to file `dx`, rank `dy`. -/
structure Move where
  sx : Int
  sy : Int
  dx : Int
  dy : Int
  deriving DecidableEq, Repr

def OnBoard (x y : Int) : Prop :=
  (0 ≤ x ∧ x < 8) ∧ 0 ≤ y ∧ y < 8

instance (x y : Int) : Decidable (OnBoard x y) :=
  inferInstanceAs (Decidable (_ ∧ _))

/-- The direction of a team's pawns. -/
def forward : Team → Int
  | .white => 1
  | .black => -1

/-- The rank a team's pawns start on. -/
def pawnRank : Team → Int
  | .white => 1
  | .black => 6

/-- The rank a team's pawns are promoted on. -/
def lastRank : Team → Int
  | .white => 7
  | .black => 0

/-- The rank a team's king and rooks start on. -/
def backRankOf : Team → Int
  | .white => 0
  | .black => 7

@[simp] theorem forward_other (t : Team) : forward t.other = -forward t := by
  cases t <;> rfl

theorem forward_cases (t : Team) :
    (forward t = 1 ∧ pawnRank t = 1 ∧ lastRank t = 7) ∨
      (forward t = -1 ∧ pawnRank t = 6 ∧ lastRank t = 0) := by
  cases t <;> simp [forward, pawnRank, lastRank]

/-! ## Attacks -/

def Diagonal (ux uy : Int) : Prop :=
  (ux = 1 ∨ ux = -1) ∧ (uy = 1 ∨ uy = -1)

def Straight (ux uy : Int) : Prop :=
  (ux = 0 ∧ (uy = 1 ∨ uy = -1)) ∨ (uy = 0 ∧ (ux = 1 ∨ ux = -1))

/-- The destination lies on a line of the given directions and every square
    strictly in between is empty. -/
def OpenLine (b : Placement) (dir : Int → Int → Prop) (sx sy dx dy : Int) : Prop :=
  ∃ ux uy n : Int, dir ux uy ∧ 0 < n ∧ dx = sx + n * ux ∧ dy = sy + n * uy ∧
    ∀ k : Int, 0 < k → k < n → b (sx + k * ux) (sy + k * uy) = none

/-- The man `m` standing on `(sx, sy)` attacks `(dx, dy)`. -/
def Strikes (b : Placement) (m : Man) (sx sy dx dy : Int) : Prop :=
  match m.kind with
  | .pawn => dy = sy + forward m.team ∧ (dx = sx - 1 ∨ dx = sx + 1)
  | .knight =>
    ((dx - sx).natAbs = 1 ∧ (dy - sy).natAbs = 2) ∨
      ((dx - sx).natAbs = 2 ∧ (dy - sy).natAbs = 1)
  | .king => (dx - sx).natAbs ≤ 1 ∧ (dy - sy).natAbs ≤ 1 ∧ ¬ (dx = sx ∧ dy = sy)
  | .bishop => OpenLine b Diagonal sx sy dx dy
  | .rook => OpenLine b Straight sx sy dx dy
  | .queen => OpenLine b Diagonal sx sy dx dy ∨ OpenLine b Straight sx sy dx dy

/-- Some man of team `t` attacks `(x, y)`. -/
def Attacked (b : Placement) (t : Team) (x y : Int) : Prop :=
  ∃ sx sy m, b sx sy = some m ∧ m.team = t ∧ Strikes b m sx sy x y

/-- The king of team `t` is attacked. -/
def InCheck (b : Placement) (t : Team) : Prop :=
  ∃ x y, b x y = some ⟨t, .king⟩ ∧ Attacked b t.other x y

/-! ## Movement -/

/-- `l` was a double step of a pawn of team `t`, now standing on the
    destination of `l`. -/
def DoubleStep (b : Placement) (t : Team) (l : Move) : Prop :=
  b l.dx l.dy = some ⟨t, .pawn⟩ ∧ l.dx = l.sx ∧ l.dy = l.sy + 2 * forward t

/-- The square a double step passes over. -/
def PassedOver (t : Team) (l : Move) (x y : Int) : Prop :=
  x = l.dx ∧ y = l.sy + forward t

/-- The move played last was an enemy pawn's double step past `(x, y)`. -/
def EnPassantSquare (b : Placement) (last : Option Move) (t : Team) (x y : Int) : Prop :=
  ∃ l, last = some l ∧ DoubleStep b t.other l ∧ PassedOver t.other l x y

/-- The diagonal step of a pawn. -/
def PawnStrikes (t : Team) (m : Move) : Prop :=
  m.dy = m.sy + forward t ∧ (m.dx = m.sx - 1 ∨ m.dx = m.sx + 1)

/-- How a pawn of team `t` may move. -/
inductive PawnMoves (b : Placement) (last : Option Move) (t : Team) (m : Move) : Prop where
  | step : m.dx = m.sx → m.dy = m.sy + forward t → b m.dx m.dy = none → PawnMoves b last t m
  | double : m.dx = m.sx → m.dy = m.sy + 2 * forward t → m.sy = pawnRank t →
      b m.sx (m.sy + forward t) = none → b m.dx m.dy = none → PawnMoves b last t m
  | capture (e : Man) : PawnStrikes t m → b m.dx m.dy = some e → e.team = t.other →
      PawnMoves b last t m
  | enPassant : PawnStrikes t m → EnPassantSquare b last t m.dx m.dy → PawnMoves b last t m

/-- The movement rule of the man `c`. -/
def Moves (b : Placement) (last : Option Move) (c : Man) (m : Move) : Prop :=
  match c.kind with
  | .pawn => PawnMoves b last c.team m
  | _ => Strikes b c m.sx m.sy m.dx m.dy

/-- What becomes of the man `c` on rank `y`: pawns are promoted to queens
    on their last rank. -/
def promoted (c : Man) (y : Int) : Man :=
  if c.kind = .pawn ∧ y = lastRank c.team then ⟨c.team, .queen⟩ else c

/-- The placement after the man `c` made the move `m`.  A pawn that steps
    diagonally onto an empty square captures the pawn beside it. -/
def after (b : Placement) (c : Man) (m : Move) : Placement := fun x y =>
  if x = m.dx ∧ y = m.dy then some (promoted c m.dy)
  else if x = m.sx ∧ y = m.sy then none
  else if (c.kind = .pawn ∧ m.dx ≠ m.sx ∧ b m.dx m.dy = none) ∧ x = m.dx ∧ y = m.sy then none
  else b x y

/-- A position: the placement, the team to move and the move played last. -/
structure Position where
  board : Placement
  turn : Team
  last : Option Move

/-- The man `c` may make the move `m`, self-check aside. -/
structure PseudoLegal (p : Position) (c : Man) (m : Move) : Prop where
  src_on : OnBoard m.sx m.sy
  dst_on : OnBoard m.dx m.dy
  man : p.board m.sx m.sy = some c
  own : c.team = p.turn
  not_own : ∀ e, p.board m.dx m.dy = some e → e.team ≠ p.turn
  moves : Moves p.board p.last c m

/-- **The rules.** A move is legal if a man of the side to move may make it
    and its king is not attacked afterwards. -/
def Legal (p : Position) (m : Move) : Prop :=
  ∃ c, PseudoLegal p c m ∧ ¬ InCheck (after p.board c m) p.turn

/-- The position after the man `c` made the move `m`. -/
def Position.play (p : Position) (c : Man) (m : Move) : Position :=
  { board := after p.board c m, turn := p.turn.other, last := some m }

/-! ## The start position -/

def backRank (x : Int) : Option PieceType :=
  if x = 0 ∨ x = 7 then some .rook
  else if x = 1 ∨ x = 6 then some .knight
  else if x = 2 ∨ x = 5 then some .bishop
  else if x = 3 then some .queen
  else if x = 4 then some .king
  else none

/-- The standard start position. -/
def start : Position where
  board x y :=
    if 0 ≤ x ∧ x < 8 then
      if y = 1 then some ⟨.white, .pawn⟩
      else if y = 6 then some ⟨.black, .pawn⟩
      else if y = 0 then (backRank x).map (Man.mk .white)
      else if y = 7 then (backRank x).map (Man.mk .black)
      else none
    else none
  turn := .white
  last := none

/-! ## Small facts -/

@[simp] theorem promoted_king_iff (c : Man) (y : Int) (t : Team) :
    promoted c y = ⟨t, .king⟩ ↔ c = ⟨t, .king⟩ := by
  obtain ⟨t', k⟩ := c
  unfold promoted
  split
  · rename_i h
    simp_all
  · rfl

@[simp] theorem promoted_team (c : Man) (y : Int) : (promoted c y).team = c.team := by
  unfold promoted
  split <;> rfl

@[simp] theorem after_dst (b : Placement) (c : Man) (m : Move) :
    after b c m m.dx m.dy = some (promoted c m.dy) := by
  simp [after]

/-- The square left behind is empty. -/
theorem after_src (b : Placement) (c : Man) (m : Move) (hne : ¬ (m.sx = m.dx ∧ m.sy = m.dy)) :
    after b c m m.sx m.sy = none := by
  simp [after, hne]

/-- A man standing elsewhere after the move stood there before. -/
theorem after_elsewhere {b : Placement} {c : Man} {m : Move} {x y : Int} {e : Man}
    (h : after b c m x y = some e) :
    (x = m.dx ∧ y = m.dy ∧ e = promoted c m.dy) ∨
      (¬ (x = m.dx ∧ y = m.dy) ∧ ¬ (x = m.sx ∧ y = m.sy) ∧ b x y = some e) := by
  unfold after at h
  split at h
  · rename_i hd
    exact .inl ⟨hd.1, hd.2, (Option.some.inj h).symm⟩
  · rename_i hd
    split at h
    · cases h
    · rename_i hs
      split at h
      · cases h
      · exact .inr ⟨hd, hs, h⟩

/-- A man that is not on the source, not on the destination and not
    captured en passant stays. -/
theorem after_keep {b : Placement} {c : Man} {m : Move} {x y : Int}
    (hd : ¬ (x = m.dx ∧ y = m.dy)) (hs : ¬ (x = m.sx ∧ y = m.sy))
    (he : ¬ ((c.kind = .pawn ∧ m.dx ≠ m.sx ∧ b m.dx m.dy = none) ∧ x = m.dx ∧ y = m.sy)) :
    after b c m x y = b x y := by
  unfold after
  rw [if_neg hd, if_neg hs, if_neg he]

/-- Every movement rule that captures is an attack. -/
theorem Moves.strikes_of_occupied {b : Placement} {last : Option Move} {c e : Man} {m : Move}
    (h : Moves b last c m) (hocc : b m.dx m.dy = some e) :
    Strikes b c m.sx m.sy m.dx m.dy := by
  obtain ⟨t, k⟩ := c
  cases k with
  | pawn =>
    cases h with
    | step _ _ hnone => rw [hnone] at hocc; cases hocc
    | double _ _ _ _ hnone => rw [hnone] at hocc; cases hocc
    | capture _ hs _ _ => exact hs
    | enPassant hs _ => exact hs
  | knight => exact h
  | bishop => exact h
  | rook => exact h
  | queen => exact h
  | king => exact h

/-! ## The castling law

    When a king may castle, read off the placement and the moves played
    since the start position.  That a king or a rook has never moved means
    that no move left its initial square; a rook may also have been
    captured there, so no move may have gone to its corner either. -/

/-- The two sides a king castles to. -/
inductive Wing where
  | kingside
  | queenside
  deriving DecidableEq, Repr

/-- The file of the wing's rook. -/
def Wing.corner : Wing → Int
  | .kingside => 7
  | .queenside => 0

/-- The file the king crosses; the rook ends up there. -/
def Wing.transit : Wing → Int
  | .kingside => 5
  | .queenside => 3

/-- The file the king goes to. -/
def Wing.destination : Wing → Int
  | .kingside => 6
  | .queenside => 2

/-- The file strictly lies between the king's file and the corner. -/
def Wing.Between (w : Wing) (x : Int) : Prop :=
  match w with
  | .kingside => 4 < x ∧ x < 7
  | .queenside => 0 < x ∧ x < 4

/-- The king's two-square move. -/
def castlingMove (t : Team) (w : Wing) : Move :=
  ⟨4, backRankOf t, w.destination, backRankOf t⟩

/-- Team `t` may castle to the wing `w` on the placement `b` after the
    moves `h`. -/
structure MayCastle (b : Placement) (h : List Move) (t : Team) (w : Wing) : Prop where
  king_home : b 4 (backRankOf t) = some ⟨t, .king⟩
  king_unmoved : ∀ l ∈ h, ¬ (l.sx = 4 ∧ l.sy = backRankOf t)
  rook_home : b w.corner (backRankOf t) = some ⟨t, .rook⟩
  rook_unmoved : ∀ l ∈ h, ¬ (l.sx = w.corner ∧ l.sy = backRankOf t) ∧
    ¬ (l.dx = w.corner ∧ l.dy = backRankOf t)
  clear : ∀ x, w.Between x → b x (backRankOf t) = none
  start_safe : ¬ Attacked b t.other 4 (backRankOf t)
  transit_safe : ¬ Attacked b t.other w.transit (backRankOf t)
  destination_safe : ¬ Attacked b t.other w.destination (backRankOf t)

/-- What castling leaves behind on the king's rank. -/
structure Castled (b : Placement) (t : Team) (w : Wing) : Prop where
  king : b w.destination (backRankOf t) = some ⟨t, .king⟩
  rook : b w.transit (backRankOf t) = some ⟨t, .rook⟩
  corner : b w.corner (backRankOf t) = none

theorem castlingMove_two_files (t : Team) (w : Wing) :
    ((castlingMove t w).dx - (castlingMove t w).sx).natAbs = 2 := by
  cases w <;> rfl

end MultiplayChess.Chess
