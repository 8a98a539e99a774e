import MultiplayChess.Common.Rule
import Mathlib.Algebra.Group.Int.Defs
import Mathlib.Algebra.Group.Nat.Defs

/-! # Setting up positions

    `common/utils.c`: the empty board, the FEN parser and the start
    position.  A C string is the list of its characters before the
    terminator.  A write of the parser outside the board array has no
    defined meaning; `fen_parse` is `none` there. -/

namespace MultiplayChess

/-- A C string. -/
abbrev CString := List Char

def clear_board (G : Game) : Game :=
  { G with board := fun _ _ => .empty }

/-- The tokens `strtok(s, " ")` yields; `cur` is the token being read,
    reversed. -/
def strtok (cur : CString) : CString → List CString
  | [] => if cur = [] then [] else [cur.reverse]
  | c :: cs =>
    if c = ' ' then
      if cur = [] then strtok [] cs else cur.reverse :: strtok [] cs
    else strtok (c :: cur) cs

/-- The piece letters of the placement field. -/
def piece_of_letter : Char → Option PieceType
  | 'k' => some .king
  | 'q' => some .queen
  | 'r' => some .rook
  | 'b' => some .bishop
  | 'n' => some .knight
  | 'p' => some .pawn
  | _ => none

/-- `*p - '0'`. -/
def digit_value (c : Char) : Int :=
  (c.toNat : Int) - 48

theorem digit_bounds {c : Char} (h : c.isDigit = true) : 48 ≤ c.toNat ∧ c.toNat ≤ 57 := by
  unfold Char.isDigit at h
  simp only [Bool.and_eq_true, decide_eq_true_eq, ge_iff_le, UInt32.le_iff_toNat_le] at h
  exact h

/-- The loop over the placement field.  The flag is `false` where the
    source returns on an unknown letter. -/
def parse_placement (b : Board) (x y : Int) : CString → Option (Board × Bool)
  | [] => some (b, true)
  | c :: cs =>
    if y < 0 then some (b, true)
    else if c = '/' then parse_placement b 0 (y - 1) cs
    else if c.isDigit then parse_placement b (x + digit_value c) y cs
    else
      let team : Team := if c.isUpper then .white else .black
      -- an unknown letter ends the parsing, one off the board is undefined
      match piece_of_letter c.toLower with
      | none => some (b, false)
      | some type =>
        if in_board x y then
          let ps : PieceState :=
            { piece := some (piece_table team type), team := team,
              is_dead := false, has_moved := false }
          parse_placement (b.set y x ps) (x + 1) y cs
        else none

/-- `isspace`. -/
def isspace (c : Char) : Bool :=
  c == ' ' || (9 ≤ c.toNat && c.toNat ≤ 13)

/-- The conversion `(int32_t)`, which is that to `int` as well. -/
def to_int32 (n : Int) : Int :=
  n.bmod (2 ^ 32)

/-- The digits of `strtol`. -/
def strtol_digits (acc : Int) : CString → Int
  | [] => acc
  | c :: cs => if c.isDigit then strtol_digits (10 * acc + digit_value c) cs else acc

/-- `strtol` with base 10: a number that is too large becomes the `long`
    next to it. -/
def strtol : CString → Int
  | [] => 0
  | c :: cs =>
    if isspace c then strtol cs
    else if c = '-' then max (-2 ^ 63) (-strtol_digits 0 cs)
    else if c = '+' then min (2 ^ 63 - 1) (strtol_digits 0 cs)
    else min (2 ^ 63 - 1) (strtol_digits 0 (c :: cs))

/-- `atoi`: the conversion `(int)` of what `strtol` reads. -/
def atoi (nptr : CString) : Int :=
  to_int32 (strtol nptr)

/-- One field of the FEN.  The flag is `false` where the source returns. -/
def fen_field (G : Game) (fld : Nat) (tok : CString) : Option (Game × Bool) :=
  match fld with
  | 0 => (parse_placement G.board 0 7 tok).map fun r => ({ G with board := r.1 }, r.2)
  | 1 => some ({ G with side_to_move := if tok.head? = some 'b' then .black else .white }, true)
  | 2 =>
    some ({ G with
      white_can_castle_kingside := tok.contains 'K'
      white_can_castle_queenside := tok.contains 'Q'
      black_can_castle_kingside := tok.contains 'k'
      black_can_castle_queenside := tok.contains 'q' }, true)
  | 3 =>
    match tok with
    | '-' :: _ => some ({ G with en_passant_x := -1, en_passant_y := -1 }, true)
    | c :: d :: _ =>
      if c.isAlpha && d.isDigit then
        let file := (c.toLower.toNat : Int) - 97
        let rank := (d.toNat : Int) - 49
        if in_board file rank then
          some ({ G with en_passant_x := file, en_passant_y := rank }, true)
        else some (G, false)
      else some (G, false)
    | _ => some (G, false)
  | 4 => some ({ G with halfmove_clock := atoi tok }, true)
  | _ => some (G, true)

/-- The `while (tok && fld < 6)` loop. -/
def fen_fields (G : Game) (fld : Nat) : List CString → Option (Game × Bool)
  | [] => some (G, decide (5 ≤ fld))
  | tok :: toks =>
    if fld < 6 then
      match fen_field G fld tok with
      | none => none
      | some (G', false) => some (G', false)
      | some (G', true) => fen_fields G' (fld + 1) toks
    else some (G, decide (5 ≤ fld))

/-- Parse a FEN into `G`; the flag is the return value. -/
def fen_parse (G : Game) (fen : CString) : Option (Game × Bool) :=
  fen_fields (clear_board G) 0 (strtok [] fen)

/-- `"rnbqkbnr/pppppppp/8/8/8/8/PPPPPPPP/RNBQKBNR w KQkq - 0 1"`. -/
def starting_fen : CString :=
  "rnbqkbnr/pppppppp/8/8/8/8/PPPPPPPP/RNBQKBNR w KQkq - 0 1".toList

/-- Zero-initialised memory. -/
def Game.zero : Game :=
  { board := fun _ _ => { piece := none, team := .white, is_dead := false, has_moved := false },
    side_to_move := .white, halfmove_clock := 0,
    white_can_castle_kingside := false, white_can_castle_queenside := false,
    black_can_castle_kingside := false, black_can_castle_queenside := false,
    en_passant_x := 0, en_passant_y := 0 }

/-- Set up the standard start position. -/
def init_startpos (G : Game) : Game :=
  match fen_parse G starting_fen with
  | some (G', _) => G'
  | none => G

end MultiplayChess
