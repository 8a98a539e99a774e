import MultiplayChess.Common.Piece
import MultiplayChess.Framework.Walk

/-! # The rules of the game

    `common/rule.h` and `common/rule.c`.  The board is an 8 by 8 array of
    square states, indexed rank first as in the source; coordinates are the
    `int`s of the source, so every access goes through `Board.get`, whose
    value off the board is never used by a guarded access. -/

namespace MultiplayChess

/-- `in_board`. -/
def in_board (x y : Int) : Bool :=
  0 ≤ x && x < 8 && 0 ≤ y && y < 8

/-- `piecestate_t board[BOARD_SIZE][BOARD_SIZE]`. -/
abbrev Board := Fin 8 → Fin 8 → PieceState

/-- Read `board[y][x]`. -/
def Board.get (b : Board) (y x : Int) : PieceState :=
  if h : (0 ≤ x ∧ x < 8) ∧ 0 ≤ y ∧ y < 8 then
    b ⟨y.toNat, by omega⟩ ⟨x.toNat, by omega⟩
  else .empty

/-- Write `board[y][x]`. -/
def Board.set (b : Board) (y x : Int) (v : PieceState) : Board :=
  fun y' x' => if (y' : Int) = y ∧ (x' : Int) = x then v else b y' x'

/-- `game_t`, without the fields `is_check`, `is_checkmate`,
    `is_stalemate` and `fullmove_number` that nothing reads. -/
structure Game where
  board : Board
  side_to_move : Team
  halfmove_clock : Int
  white_can_castle_kingside : Bool
  white_can_castle_queenside : Bool
  black_can_castle_kingside : Bool
  black_can_castle_queenside : Bool
  en_passant_x : Int
  en_passant_y : Int

/-- The `int`s the loops `for (int i = 0; i < 8; i++)` visit. -/
def files : List Int := [0, 1, 2, 3, 4, 5, 6, 7]

/-- The direction a team's pawns advance. -/
def pawn_dir (team : Team) : Int :=
  if team = .white then 1 else -1

/-! ## Attacks -/

/-- The `while (in_board(nx, ny))` loop of a sliding piece.  Eight rounds
    leave the board along any of the offsets. -/
def slides_to (G : Game) (o : Offset) (nx ny x y : Int) : Bool :=
  Walk.meets (fun p => in_board p.1 p.2) (fun p => p.1 == x && p.2 == y)
    (fun p => !(G.board.get p.2 p.1).is_dead) (fun p => (p.1 + o.x, p.2 + o.y)) 8 (nx, ny)

/-- The `switch` of `is_square_attacked` on the piece standing on `(i, j)`. -/
def piece_attacks (G : Game) (by_team : Team) (p : Piece) (i j x y : Int) : Bool :=
  match p.type with
  | .pawn => j + pawn_dir by_team == y && (i - 1 == x || i + 1 == x)
  | .knight | .king => p.moves.any fun o => i + o.x == x && j + o.y == y
  | .bishop | .rook | .queen => p.moves.any fun o => slides_to G o (i + o.x) (j + o.y) x y

/-- Is the square `(x, y)` attacked by `by_team`? -/
def is_square_attacked (G : Game) (x y : Int) (by_team : Team) : Bool :=
  files.any fun i => files.any fun j =>
    let ps := G.board.get j i
    match ps.piece with
    | none => false
    | some p => !ps.is_dead && ps.team == by_team && piece_attacks G by_team p i j x y

/-! ## Check -/

/-- The king search of `is_in_check`: files first, then ranks. -/
def find_king (G : Game) (team : Team) : Option (Int × Int) :=
  (files.flatMap fun x => files.map fun y => (x, y)).find? fun p =>
    let ps := G.board.get p.2 p.1
    match ps.piece with
    | none => false
    | some q => !ps.is_dead && ps.team == team && q.type == .king

/-- Is the king of `team` attacked?  A team without a king is not in check. -/
def is_in_check (G : Game) (team : Team) : Bool :=
  match find_king G team with
  | none => false
  | some (king_x, king_y) => is_square_attacked G king_x king_y team.other

/-! ## Applying a move

    `apply_move` rewrites the game in stages; each stage is one paragraph
    of the source and reads the board as the previous one left it. -/

/-- Fifty-move counter. -/
def count_halfmove (G : Game) (p : Piece) (dx dy : Int) : Game :=
  if p.type = .pawn ∨ (G.board.get dy dx).is_dead = false then
    { G with halfmove_clock := 0 }
  else { G with halfmove_clock := G.halfmove_clock + 1 }

/-- `is_dead = 1; piece = NULL`. -/
def PieceState.kill (ps : PieceState) : PieceState :=
  { ps with is_dead := true, piece := none }

/-- A pawn goes to the en passant target. -/
def FiresEnPassant (G : Game) (p : Piece) (dx dy : Int) : Prop :=
  p.type = .pawn ∧ dx = G.en_passant_x ∧ dy = G.en_passant_y

instance (G : Game) (p : Piece) (dx dy : Int) : Decidable (FiresEnPassant G p dx dy) :=
  inferInstanceAs (Decidable (_ ∧ _))

/-- En passant capture. -/
def capture_en_passant (G : Game) (p : Piece) (sy dx dy : Int) : Game :=
  if FiresEnPassant G p dx dy then
    { G with board := G.board.set sy dx (G.board.get sy dx).kill }
  else G

/-- `*dst = *src`, then the source square dies. -/
def move_piece (G : Game) (sx sy dx dy : Int) : Game :=
  let moved := G.board.set dy dx (G.board.get sy sx)
  { G with board := moved.set sy sx (moved.get sy sx).kill }

/-- The type of the piece on a square, if its pointer is not `NULL`. -/
def type_at (G : Game) (x y : Int) : Option PieceType :=
  (G.board.get y x).piece.map Piece.type

/-- The rook of a castling move. -/
def castle_rook (G : Game) (sx dx dy : Int) : Game :=
  if type_at G dx dy = some .king ∧ (dx - sx).natAbs = 2 then
    -- kingside the rook comes from the h-file, queenside from the a-file
    let rook_from_x : Int := if dx > sx then 7 else 0
    let rook_to_x := if dx > sx then dx - 1 else dx + 1
    let rook := G.board.get dy rook_from_x
    let moved := G.board.set dy rook_to_x rook
    { G with board := moved.set dy rook_from_x (moved.get dy rook_from_x).kill }
  else G

/-- A king move loses both castling rights of its team. -/
def drop_king_rights (G : Game) (dx dy : Int) : Game :=
  if type_at G dx dy = some .king then
    match (G.board.get dy dx).team with
    | .white => { G with white_can_castle_kingside := false, white_can_castle_queenside := false }
    | .black => { G with black_can_castle_kingside := false, black_can_castle_queenside := false }
  else G

/-- The first move of a rook from its corner loses that wing's right. -/
def drop_rook_rights (G : Game) (sx sy dx dy : Int) : Game :=
  if type_at G dx dy = some .rook ∧ (G.board.get dy dx).has_moved = false then
    match (G.board.get dy dx).team with
    | .white =>
      { G with
        white_can_castle_queenside :=
          if sx = 0 ∧ sy = 0 then false else G.white_can_castle_queenside
        white_can_castle_kingside :=
          if sx = 7 ∧ sy = 0 then false else G.white_can_castle_kingside }
    | .black =>
      { G with
        black_can_castle_queenside :=
          if sx = 0 ∧ sy = 7 then false else G.black_can_castle_queenside
        black_can_castle_kingside :=
          if sx = 7 ∧ sy = 7 then false else G.black_can_castle_kingside }
  else G

/-- The en passant target after the move. -/
def set_en_passant (G : Game) (sy dx dy : Int) : Game :=
  if type_at G dx dy = some .pawn ∧ (dy - sy).natAbs = 2 then
    { G with en_passant_x := dx, en_passant_y := (sy + dy).tdiv 2 }
  else { G with en_passant_x := -1, en_passant_y := -1 }

/-- Automatic promotion to a queen. -/
def promote (G : Game) (dx dy : Int) : Game :=
  if type_at G dx dy = some .pawn ∧ (dy = 7 ∨ dy = 0) then
    let dst := G.board.get dy dx
    { G with board := G.board.set dy dx { dst with piece := some (get_default_queen dst.team) } }
  else G

/-- `dst->has_moved = true` and the change of side. -/
def finish_move (G : Game) (dx dy : Int) : Game :=
  { G with
    board := G.board.set dy dx { G.board.get dy dx with has_moved := true }
    side_to_move := if G.side_to_move = .white then .black else .white }

/-- Apply a move without validating it. -/
def apply_move (G : Game) (sx sy dx dy : Int) : Game :=
  match (G.board.get sy sx).piece with
  | none => G
  | some p =>
    let G := count_halfmove G p dx dy
    let G := capture_en_passant G p sy dx dy
    -- from here on the stages read the destination square
    let G := move_piece G sx sy dx dy
    let G := castle_rook G sx dx dy
    let G := drop_king_rights G dx dy
    let G := drop_rook_rights G sx sy dx dy
    let G := set_en_passant G sy dx dy
    let G := promote G dx dy
    finish_move G dx dy

/-! ## Legality -/

/-- The values of `x` in `for (int x = from; x != stop; x += step)`, at
    most eight of them. -/
def step_range (step stop : Int) : Nat → Int → List Int
  | 0, _ => []
  | n + 1, x => if x = stop then [] else x :: step_range step stop n (x + step)

/-- The castling branch of the king's moves. -/
def castling_ok (G : Game) (src : PieceState) (sx sy dx : Int) : Bool :=
  let ks := decide (dx - sx > 0)
  let can := match src.team with
    | .white => if ks then G.white_can_castle_kingside else G.white_can_castle_queenside
    | .black => if ks then G.black_can_castle_kingside else G.black_can_castle_queenside
  -- the squares between, then the squares the king crosses
  let step : Int := if ks then 1 else -1
  can && (step_range step dx 8 (sx + step)).all (fun x => (G.board.get sy x).is_dead) &&
    (step_range step (dx + step) 8 sx).all fun x => !is_square_attacked G x sy src.team.other

/-- `align` of the sliding pieces, with C's truncating division. -/
def aligned (o : Offset) (rx ry : Int) : Bool :=
  let dd := if o.x ≠ 0 then rx.tdiv o.x else ry.tdiv o.y
  if o.x = 0 then rx = 0 && ry.tdiv o.y > 0
  else if o.y = 0 then ry = 0 && rx.tdiv o.x > 0
  else rx.tmod o.x = 0 && ry.tmod o.y = 0 && dd = ry.tdiv o.y && dd > 0

/-- The distance `dd` along an offset. -/
def slide_distance (o : Offset) (rx ry : Int) : Int :=
  if o.x ≠ 0 then rx.tdiv o.x else ry.tdiv o.y

/-- The `blocked` loop: a live piece strictly between source and destination. -/
def slide_blocked (G : Game) (o : Offset) (sx sy dd : Int) : Bool :=
  (List.range (dd - 1).toNat).any fun s =>
    !(G.board.get (sy + o.y * (s + 1)) (sx + o.x * (s + 1))).is_dead

/-- The movement `switch` of `is_move_legal`. -/
def movement_ok (G : Game) (p : Piece) (sx sy dx dy : Int) : Bool :=
  let src := G.board.get sy sx
  let dst := G.board.get dy dx
  let rx := dx - sx
  let ry := dy - sy
  match p.type with
  | .pawn =>
    let dir := pawn_dir src.team
    -- one step, two steps from the initial rank, capture or en passant
    (rx = 0 && ry = dir && dst.is_dead) ||
    (rx = 0 && ry = 2 * dir && !src.has_moved && dst.is_dead &&
      (G.board.get (sy + dir) sx).is_dead) ||
    (rx.natAbs = 1 && ry = dir &&
      (!dst.is_dead && dst.team != src.team ||
        (dst.is_dead && G.en_passant_x = dx && G.en_passant_y = dy)))
  | .knight | .king =>
    match p.moves.find? (fun o => o.x = rx && o.y = ry) with
    | none => false
    | some _ =>
      -- no offset of a king is two files wide, so this test never holds
      if p.type = .king ∧ rx.natAbs = 2 ∧ ry = 0 then castling_ok G src sx sy dx else true
  | .bishop | .rook | .queen =>
    p.moves.any fun o =>
      aligned o rx ry && !slide_blocked G o sx sy (slide_distance o rx ry)

/-- Is the move from `(sx, sy)` to `(dx, dy)` legal for the side to move? -/
def is_move_legal (G : Game) (sx sy dx dy : Int) : Bool :=
  if !in_board sx sy || !in_board dx dy then false
  else
    let src := G.board.get sy sx
    let dst := G.board.get dy dx
    match src.piece with
    | none => false
    | some p =>
      if src.is_dead || src.team != G.side_to_move then false
      else if !dst.is_dead && dst.piece.isSome && dst.team == G.side_to_move then false
      else if !movement_ok G p sx sy dx dy then false
      -- the self-check test plays the move on a copy of the game
      else !is_in_check (apply_move G sx sy dx dy) src.team

/-! ## End of the game -/

/-- The four nested loops of `is_checkmate` and `is_stalemate`: does the
    side to move have a legal move? -/
def has_legal_move (G : Game) : Bool :=
  files.any fun sx => files.any fun sy =>
    let src := G.board.get sy sx
    if src.is_dead || src.piece.isNone || src.team != G.side_to_move then false
    else files.any fun dx => files.any fun dy => is_move_legal G sx sy dx dy

def is_checkmate (G : Game) : Bool :=
  if !is_in_check G G.side_to_move then false else !has_legal_move G

def is_stalemate (G : Game) : Bool :=
  if is_in_check G G.side_to_move then false else !has_legal_move G

def is_fifty_move_rule (G : Game) : Bool :=
  G.halfmove_clock ≥ 100

end MultiplayChess
