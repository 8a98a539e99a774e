import Mathlib.Logic.Basic

/-! # Pieces

    `common/types.h`, `common/piece.h` and `common/piece.c`: teams, piece
    types, the offset tables and the state of one square.  A `piece_t *`
    is the table entry it points to, `NULL` is `none`. -/

namespace MultiplayChess

/-- `team_t`. -/
inductive Team where
  | white
  | black
  deriving DecidableEq, Repr

/-- `1 - team`. -/
def Team.other : Team → Team
  | .white => .black
  | .black => .white

@[simp] theorem Team.other_other (t : Team) : t.other.other = t := by cases t <;> rfl

@[simp] theorem Team.other_ne (t : Team) : t.other ≠ t := by cases t <;> decide

@[simp] theorem Team.ne_other (t : Team) : t ≠ t.other := by cases t <;> decide

theorem Team.eq_other_of_ne {s t : Team} (h : s ≠ t) : s = t.other := by
  cases s <;> cases t <;> simp_all [Team.other]

/-- `piece_type_t`. -/
inductive PieceType where
  | pawn
  | knight
  | bishop
  | rook
  | queen
  | king
  deriving DecidableEq, Repr

/-- `offset_t`. -/
structure Offset where
  x : Int
  y : Int
  deriving DecidableEq, Repr

/-- `piece_t`. -/
structure Piece where
  name : String
  type : PieceType
  offsets : List Offset
  offset_len : Nat
  deriving DecidableEq, Repr

/-- `piecestate_t`: what one square of the board holds. -/
structure PieceState where
  piece : Option Piece
  team : Team
  is_dead : Bool
  has_moved : Bool
  deriving DecidableEq, Repr

/-- What `clear_board` writes to every square. -/
def PieceState.empty : PieceState :=
  { piece := none, team := .white, is_dead := true, has_moved := false }

/-! ## The piece tables -/

def king_offsets : List Offset :=
  [⟨1, 0⟩, ⟨1, 1⟩, ⟨0, 1⟩, ⟨-1, 1⟩, ⟨-1, 0⟩, ⟨-1, -1⟩, ⟨0, -1⟩, ⟨1, -1⟩]

def rook_offsets : List Offset := [⟨1, 0⟩, ⟨0, 1⟩, ⟨-1, 0⟩, ⟨0, -1⟩]

def bishop_offsets : List Offset := [⟨1, 1⟩, ⟨-1, 1⟩, ⟨-1, -1⟩, ⟨1, -1⟩]

def knight_offsets : List Offset :=
  [⟨1, 2⟩, ⟨2, 1⟩, ⟨2, -1⟩, ⟨1, -2⟩, ⟨-1, -2⟩, ⟨-2, -1⟩, ⟨-2, 1⟩, ⟨-1, 2⟩]

def white_king : Piece := ⟨"White King", .king, king_offsets, 8⟩
def white_queen : Piece := ⟨"White Queen", .queen, king_offsets, 8⟩
def white_rook : Piece := ⟨"White Rook", .rook, rook_offsets, 4⟩
def white_bishop : Piece := ⟨"White Bishop", .bishop, bishop_offsets, 4⟩
def white_knight : Piece := ⟨"White Knight", .knight, knight_offsets, 8⟩
def white_pawn : Piece := ⟨"White Pawn", .pawn, [⟨0, 0⟩], 0⟩

def black_king : Piece := ⟨"Black King", .king, king_offsets, 8⟩
def black_queen : Piece := ⟨"Black Queen", .queen, king_offsets, 8⟩
def black_rook : Piece := ⟨"Black Rook", .rook, rook_offsets, 4⟩
def black_bishop : Piece := ⟨"Black Bishop", .bishop, bishop_offsets, 4⟩
def black_knight : Piece := ⟨"Black Knight", .knight, knight_offsets, 8⟩
def black_pawn : Piece := ⟨"Black Pawn", .pawn, [⟨0, 0⟩], 0⟩

/-- `piece_table[team][type]`. -/
def piece_table : Team → PieceType → Piece
  | .white, .pawn => white_pawn
  | .white, .knight => white_knight
  | .white, .bishop => white_bishop
  | .white, .rook => white_rook
  | .white, .queen => white_queen
  | .white, .king => white_king
  | .black, .pawn => black_pawn
  | .black, .knight => black_knight
  | .black, .bishop => black_bishop
  | .black, .rook => black_rook
  | .black, .queen => black_queen
  | .black, .king => black_king

/-- The promotion piece. -/
def get_default_queen (team : Team) : Piece :=
  piece_table team .queen

@[simp] theorem piece_table_type (t : Team) (k : PieceType) : (piece_table t k).type = k := by
  cases t <;> cases k <;> rfl

/-- The offsets the loops over `offset_len` visit. -/
def Piece.moves (p : Piece) : List Offset :=
  p.offsets.take p.offset_len

end MultiplayChess
