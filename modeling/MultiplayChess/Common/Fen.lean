import MultiplayChess.Common.Board
import MultiplayChess.Common.Utils

/-! # FEN

    The standard text of a position in its six fields, written down from
    the position itself, and the proof that `fen_parse` reads every such
    text back. -/

namespace MultiplayChess

open Chess (OnBoard Man)

/-! ## The text -/

/-- What a FEN tells, without the number of the move. -/
structure Setup where
  /-- rank first -/
  board : Fin 8 → Fin 8 → Option Man
  side_to_move : Team
  white_can_castle_kingside : Bool
  white_can_castle_queenside : Bool
  black_can_castle_kingside : Bool
  black_can_castle_queenside : Bool
  /-- file and rank -/
  en_passant : Option (Fin 8 × Fin 8)
  halfmove_clock : Nat
  int_range : halfmove_clock < 2 ^ 31

/-- The letter of a man; White's are capitals. -/
def man_letter (c : Man) : Char :=
  let letter := match c.kind with
    | .king => 'k'
    | .queen => 'q'
    | .rook => 'r'
    | .bishop => 'b'
    | .knight => 'n'
    | .pawn => 'p'
  match c.team with
  | .white => letter.toUpper
  | .black => letter

/-- The length of a run of empty squares. -/
def gap_text (gap : Nat) : CString :=
  if gap = 0 then [] else [Nat.digitChar gap]

/-- A rank from some file on, with `gap` empty squares before it still to be
    written. -/
def rank_text (gap : Nat) : List (Option Man) → CString
  | [] => gap_text gap
  | none :: squares => rank_text (gap + 1) squares
  | some c :: squares => gap_text gap ++ man_letter c :: rank_text 0 squares

def Setup.rank (s : Setup) (y : Nat) : List (Option Man) :=
  List.ofFn (s.board (Fin.ofNat 8 y))

/-- The ranks from `y` down to the first. -/
def Setup.ranks_text (s : Setup) : Nat → CString
  | 0 => rank_text 0 (s.rank 0)
  | y + 1 => rank_text 0 (s.rank (y + 1)) ++ '/' :: s.ranks_text y

def side_text : Team → CString
  | .white => ['w']
  | .black => ['b']

def Setup.castling_letters (s : Setup) : CString :=
  (if s.white_can_castle_kingside then ['K'] else []) ++
    (if s.white_can_castle_queenside then ['Q'] else []) ++
    (if s.black_can_castle_kingside then ['k'] else []) ++
    (if s.black_can_castle_queenside then ['q'] else [])

def Setup.castling_text (s : Setup) : CString :=
  if s.castling_letters = [] then ['-'] else s.castling_letters

def file_letter (x : Fin 8) : Char :=
  Char.ofNat (97 + x)

def rank_digit (y : Fin 8) : Char :=
  Char.ofNat (49 + y)

def square_text : Option (Fin 8 × Fin 8) → CString
  | none => ['-']
  | some (x, y) => [file_letter x, rank_digit y]

/-- The six fields. -/
def Setup.fen (s : Setup) (fullmove_number : Nat) : CString :=
  s.ranks_text 7 ++ ' ' :: (side_text s.side_to_move ++ ' ' :: (s.castling_text ++
    ' ' :: (square_text s.en_passant ++ ' ' :: (Nat.toDigits 10 s.halfmove_clock ++
      ' ' :: Nat.toDigits 10 fullmove_number))))

/-! ## The game -/

/-- A square with a man that has not moved, or without one. -/
def PieceState.setup : Option Man → PieceState
  | none => .empty
  | some c =>
    { piece := some (piece_table c.team c.kind), team := c.team,
      is_dead := false, has_moved := false }

/-- The game in that position. -/
def Setup.game (s : Setup) : Game where
  board := fun y x => .setup (s.board y x)
  side_to_move := s.side_to_move
  halfmove_clock := s.halfmove_clock
  white_can_castle_kingside := s.white_can_castle_kingside
  white_can_castle_queenside := s.white_can_castle_queenside
  black_can_castle_kingside := s.black_can_castle_kingside
  black_can_castle_queenside := s.black_can_castle_queenside
  en_passant_x := match s.en_passant with
    | none => -1
    | some (x, _) => x
  en_passant_y := match s.en_passant with
    | none => -1
    | some (_, y) => y

/-! ## Tokens -/

theorem strtok_space {cur : CString} (hcur : cur ≠ []) (rest : CString) :
    strtok cur (' ' :: rest) = cur.reverse :: strtok [] rest := by
  rw [strtok, if_pos rfl, if_neg hcur]

theorem strtok_char {c : Char} (hc : c ≠ ' ') (cur rest : CString) :
    strtok cur (c :: rest) = strtok (c :: cur) rest := by
  rw [strtok, if_neg hc]

/-- A word before a blank is a token. -/
theorem strtok_word {w : CString} (hw : ' ' ∉ w) : ∀ {cur : CString} (rest : CString),
    cur ≠ [] ∨ w ≠ [] → strtok cur (w ++ ' ' :: rest) = (cur.reverse ++ w) :: strtok [] rest := by
  induction w with
  | nil =>
    intro cur rest hne
    have hcur : cur ≠ [] := by simpa using hne
    rw [List.nil_append, List.append_nil, strtok_space hcur]
  | cons c w ih =>
    intro cur rest _
    rw [List.mem_cons, not_or] at hw
    rw [List.cons_append, strtok_char (Ne.symm hw.1),
      ih hw.2 rest (.inl (List.cons_ne_nil c cur)), List.reverse_cons, List.append_assoc]
    simp only [List.singleton_append]

/-- The last token ends with the text. -/
theorem strtok_last {w : CString} (hw : ' ' ∉ w) : ∀ {cur : CString},
    cur ≠ [] ∨ w ≠ [] → strtok cur w = [cur.reverse ++ w] := by
  induction w with
  | nil =>
    intro cur hne
    have hcur : cur ≠ [] := by simpa using hne
    rw [List.append_nil, strtok, if_neg hcur]
  | cons c w ih =>
    intro cur _
    rw [List.mem_cons, not_or] at hw
    rw [strtok_char (Ne.symm hw.1), ih hw.2 (.inl (List.cons_ne_nil c cur)),
      List.reverse_cons, List.append_assoc]
    simp only [List.singleton_append]

/-! ## The placement field -/

/-- What the letter of a man is to the parser. -/
theorem man_letter_read (c : Man) : man_letter c ≠ '/' ∧ man_letter c ≠ ' ' ∧
    (man_letter c).isDigit = false ∧ ((man_letter c).isUpper = true ↔ c.team = .white) ∧
    piece_of_letter (man_letter c).toLower = some c.kind := by
  obtain ⟨t, k⟩ := c
  cases t <;> cases k <;> decide

/-- What the digit of a run is to the parser. -/
theorem gap_digit_read : ∀ gap < 9, Nat.digitChar gap ≠ '/' ∧ Nat.digitChar gap ≠ ' ' ∧
    (Nat.digitChar gap).isDigit = true ∧ digit_value (Nat.digitChar gap) = (gap : Nat) := by
  decide

/-- The parser writes men only; empty squares are what they were. -/
def put_square (b : Board) (y x : Int) : Option Man → Board
  | none => b
  | some c => b.set y x (.setup (some c))

/-- The parser's writes for one rank from file `x` on. -/
def put_rank (b : Board) (y x : Int) : List (Option Man) → Board
  | [] => b
  | square :: squares => put_rank (put_square b y x square) y (x + 1) squares

section placement

variable {y : Int}

/-- A run of empty squares moves the parser on. -/
theorem parse_gap (hy : 0 ≤ y ∧ y < 8) {gap : Nat} (hgap : gap < 9) (b : Board) (x : Int)
    (rest : CString) :
    parse_placement b x y (gap_text gap ++ rest) = parse_placement b (x + gap) y rest := by
  unfold gap_text
  by_cases h0 : gap = 0
  · rw [if_pos h0, h0, List.nil_append, Nat.cast_zero, Int.add_zero]
  · obtain ⟨hslash, _, hdigit, hvalue⟩ := gap_digit_read gap hgap
    rw [if_neg h0, List.singleton_append, parse_placement, if_neg (by omega), if_neg hslash,
      if_pos hdigit, hvalue]

/-- A letter puts a man on the board. -/
theorem parse_letter (hy : 0 ≤ y ∧ y < 8) {x : Int} (hx : 0 ≤ x ∧ x < 8) (c : Man) (b : Board)
    (rest : CString) :
    parse_placement b x y (man_letter c :: rest) =
      parse_placement (b.set y x (.setup (some c))) (x + 1) y rest := by
  obtain ⟨hslash, _, hdigit, hupper, hletter⟩ := man_letter_read c
  have hon : in_board x y = true := (in_board_iff x y).mpr ⟨hx, hy⟩
  have hteam : (if (man_letter c).isUpper = true then Team.white else Team.black) = c.team := by
    cases ht : c.team with
    | white => rw [if_pos (hupper.mpr ht)]
    | black =>
      rw [if_neg]
      intro hc
      rw [hupper.mp hc] at ht
      cases ht
  rw [parse_placement, if_neg (by omega), if_neg hslash, hdigit]
  simp only [Bool.false_eq_true, if_false, hletter, hteam, hon, if_true]
  rfl

/-- A whole rank. -/
theorem parse_rank (hy : 0 ≤ y ∧ y < 8) (squares : List (Option Man)) :
    ∀ (b : Board) (x : Int) (gap : Nat), 0 ≤ x → x + gap + squares.length ≤ 8 → ∀ rest : CString,
      parse_placement b x y (rank_text gap squares ++ rest) =
        parse_placement (put_rank b y (x + gap) squares) (x + gap + squares.length) y rest := by
  induction squares with
  | nil =>
    intro b x gap hx hlen rest
    rw [List.length_nil] at hlen ⊢
    rw [Nat.cast_zero, Int.add_zero]
    exact parse_gap hy (by omega) b x rest
  | cons square squares ih =>
    intro b x gap hx hlen rest
    rw [List.length_cons] at hlen ⊢
    push_cast at hlen ⊢
    cases square with
    | none =>
      -- the run grows by one
      have hrun := ih b x (gap + 1) hx (by push_cast; omega) rest
      push_cast at hrun
      have hfile : x + ((gap : Int) + 1) = x + gap + 1 := by omega
      have hend : x + (gap : Int) + 1 + squares.length = x + gap + (squares.length + 1) := by omega
      rw [rank_text, hrun, put_rank, put_square, hfile, hend]
    | some c =>
      have hletter : 0 ≤ x + gap ∧ x + gap < 8 := by omega
      have hrest := ih (b.set y (x + gap) (.setup (some c))) (x + gap + 1) 0 (by omega)
        (by push_cast; omega) rest
      rw [rank_text, List.append_assoc, parse_gap hy (by omega), List.cons_append,
        parse_letter hy hletter, hrest, put_rank, put_square]
      simp only [Nat.cast_zero, Int.add_zero]
      congr 1
      omega

end placement

/-- The parser's writes for the ranks from `y` down. -/
def Setup.put_ranks (s : Setup) (b : Board) : Nat → Board
  | 0 => put_rank b 0 0 (s.rank 0)
  | y + 1 => s.put_ranks (put_rank b ((y : Int) + 1) 0 (s.rank (y + 1))) y

theorem Setup.length_rank (s : Setup) (y : Nat) : (s.rank y).length = 8 :=
  List.length_ofFn

/-- The placement field. -/
theorem Setup.parse_ranks (s : Setup) {y : Nat} (hy : y < 8) : ∀ b : Board,
    parse_placement b 0 y (s.ranks_text y) = some (s.put_ranks b y, true) := by
  induction y with
  | zero =>
    intro b
    have hlen := s.length_rank 0
    have hrank := parse_rank (y := 0) (by decide) (s.rank 0) b 0 0 (by decide)
      (by rw [hlen]; decide) []
    rw [List.append_nil] at hrank
    exact hrank
  | succ y ih =>
    intro b
    have hlen := s.length_rank (y + 1)
    have hrank := parse_rank (y := (y : Int) + 1) (by omega) (s.rank (y + 1)) b 0 0 (by decide)
      (by rw [hlen]; decide) ('/' :: s.ranks_text y)
    -- the separator ends the rank
    rw [Setup.ranks_text, Nat.cast_succ, hrank, parse_placement, if_neg (by omega), if_pos rfl,
      Int.add_sub_cancel, ih (by omega)]
    rfl

theorem put_square_apply (b : Board) (y x : Int) (square : Option Man) (y' x' : Fin 8) :
    put_square b y x square y' x' =
      if (y' : Int) = y ∧ (x' : Int) = x then
        square.elim (b y' x') (fun c => .setup (some c))
      else b y' x' := by
  cases square with
  | none => simp [put_square]
  | some c => rfl

/-- What a rank's writes leave on a square. -/
theorem put_rank_apply {y : Int} {squares : List (Option Man)} : ∀ {b : Board} {x : Nat}
    (y' x' : Fin 8), put_rank b y x squares y' x' =
      if (y' : Int) = y ∧ x ≤ x' then
        (squares[(x' : Nat) - x]?.join).elim (b y' x') (fun c => .setup (some c))
      else b y' x' := by
  induction squares with
  | nil =>
    intro b x y' x'
    simp [put_rank]
  | cons square squares ih =>
    intro b x y' x'
    have hnext : ((x : Int) + 1) = ((x + 1 : Nat) : Int) := by
      push_cast
      rfl
    rw [put_rank, hnext, ih, put_square_apply]
    -- the squares of the rank before, at and after the first one
    by_cases hy : (y' : Int) = y
    · rcases Nat.lt_trichotomy x x' with hlt | heq | hgt
      · have hget : (square :: squares)[(x' : Nat) - x]? = squares[(x' : Nat) - (x + 1)]? := by
          rw [show (x' : Nat) - x = (x' : Nat) - (x + 1) + 1 by omega, List.getElem?_cons_succ]
        rw [if_pos ⟨hy, hlt⟩, if_neg (by omega), if_pos ⟨hy, Nat.le_of_lt hlt⟩, hget]
      · have hget : (square :: squares)[(x' : Nat) - x]? = some square := by
          rw [heq, Nat.sub_self, List.getElem?_cons_zero]
        rw [if_neg (by omega), if_pos ⟨hy, by omega⟩, if_pos ⟨hy, Nat.le_of_eq heq⟩, hget]
        rfl
      · rw [if_neg (by omega), if_neg (by omega), if_neg (by omega)]
    · rw [if_neg (by omega), if_neg (by omega), if_neg (by omega)]

theorem Setup.put_rank_apply (s : Setup) (y : Nat) (b : Board) (y' x' : Fin 8) :
    put_rank b y 0 (s.rank y) y' x' =
      if (y' : Nat) = y then (s.board y' x').elim (b y' x') (fun c => .setup (some c))
      else b y' x' := by
  have hsquares : (s.rank y)[(x' : Nat) - 0]? = some (s.board (Fin.ofNat 8 y) x') := by
    unfold Setup.rank
    rw [Nat.sub_zero, List.getElem?_ofFn, dif_pos x'.isLt]
  have hzero : (0 : Int) = ((0 : Nat) : Int) := rfl
  rw [hzero, MultiplayChess.put_rank_apply, hsquares]
  by_cases h : (y' : Nat) = y
  · have hrank : Fin.ofNat 8 y = y' := by
      apply Fin.ext
      simp only [Fin.val_ofNat, ← h]
      exact Nat.mod_eq_of_lt y'.isLt
    rw [if_pos ⟨by omega, Nat.zero_le _⟩, if_pos h, hrank]
    rfl
  · rw [if_neg (by omega), if_neg h]

/-- The ranks written so far. -/
theorem Setup.put_ranks_apply (s : Setup) {y : Nat} (hy : y < 8) : ∀ (b : Board) (y' x' : Fin 8),
    s.put_ranks b y y' x' =
      if (y' : Nat) ≤ y then (s.board y' x').elim (b y' x') (fun c => .setup (some c))
      else b y' x' := by
  induction y with
  | zero =>
    intro b y' x'
    have hrank := s.put_rank_apply 0 b y' x'
    rw [Setup.put_ranks]
    simp only [Nat.le_zero]
    exact hrank
  | succ y ih =>
    intro b y' x'
    have hrank := s.put_rank_apply (y + 1) b y' x'
    rw [Nat.cast_succ] at hrank
    rw [Setup.put_ranks, ih (by omega), hrank]
    by_cases htop : (y' : Nat) = y + 1
    · rw [if_neg (by omega), if_pos htop, if_pos (by omega)]
    · rw [if_neg htop]
      have hle : (y' : Nat) ≤ y ↔ (y' : Nat) ≤ y + 1 := by omega
      simp only [hle]

/-- On an empty board the placement field sets up the board of the text. -/
theorem Setup.put_ranks_empty (s : Setup) (G : Game) :
    s.put_ranks (clear_board G).board 7 = s.game.board := by
  funext y x
  rw [s.put_ranks_apply (by decide), if_pos (by have := y.isLt; omega)]
  show (s.board y x).elim PieceState.empty (fun c => .setup (some c)) =
      PieceState.setup (s.board y x)
  cases s.board y x with
  | none => rfl
  | some c => rfl

/-! ## The other fields -/

section fields

variable (s : Setup)

theorem Setup.side_read (G : Game) :
    fen_field G 1 (side_text s.side_to_move) =
      some ({ G with side_to_move := s.side_to_move }, true) := by
  cases ht : s.side_to_move with
  | white => rfl
  | black => rfl

/-- A letter stands in the castling field iff the right is there. -/
theorem Setup.castling_read (G : Game) :
    fen_field G 2 s.castling_text = some ({ G with
      white_can_castle_kingside := s.white_can_castle_kingside
      white_can_castle_queenside := s.white_can_castle_queenside
      black_can_castle_kingside := s.black_can_castle_kingside
      black_can_castle_queenside := s.black_can_castle_queenside }, true) := by
  unfold Setup.castling_text Setup.castling_letters
  cases s.white_can_castle_kingside <;> cases s.white_can_castle_queenside <;>
    cases s.black_can_castle_kingside <;> cases s.black_can_castle_queenside <;> rfl

theorem file_letter_read : ∀ x : Fin 8, file_letter x ≠ '-' ∧ file_letter x ≠ ' ' ∧
    (file_letter x).isAlpha = true ∧ ((file_letter x).toLower.toNat : Int) - 97 = (x : Nat) := by
  decide

theorem rank_digit_read : ∀ y : Fin 8, rank_digit y ≠ ' ' ∧ (rank_digit y).isDigit = true ∧
    ((rank_digit y).toNat : Int) - 49 = (y : Nat) := by
  decide

theorem Setup.en_passant_read (G : Game) :
    fen_field G 3 (square_text s.en_passant) = some ({ G with
      en_passant_x := s.game.en_passant_x
      en_passant_y := s.game.en_passant_y }, true) := by
  unfold Setup.game
  cases s.en_passant with
  | none => rfl
  | some square =>
    obtain ⟨x, y⟩ := square
    obtain ⟨hdash, _, halpha, hx⟩ := file_letter_read x
    obtain ⟨_, hdigit, hy⟩ := rank_digit_read y
    have hon : in_board (x : Nat) (y : Nat) = true := by
      rw [in_board_iff]
      have := x.isLt
      have := y.isLt
      exact ⟨by omega, by omega⟩
    have hboth : ((file_letter x).isAlpha && (rank_digit y).isDigit) = true := by
      rw [halpha, hdigit]
      rfl
    simp only [square_text, fen_field]
    rw [if_pos hboth, hx, hy, if_pos hon]

/-! ### Numbers -/

theorem strtol_digits_eq {cs : CString} : ∀ (acc : Nat), (∀ c ∈ cs, c.isDigit = true) →
    strtol_digits acc cs = (Nat.ofDigitChars 10 cs acc : Nat) := by
  induction cs with
  | nil =>
    intro acc _
    rw [Nat.ofDigitChars_nil]
    rfl
  | cons c cs ih =>
    intro acc hdigits
    rw [List.forall_mem_cons] at hdigits
    have hlow := (digit_bounds hdigits.1).1
    have hzero : '0'.toNat = 48 := rfl
    -- the value so far, one digit on
    have hacc : 10 * (acc : Int) + digit_value c =
        ((10 * acc + (c.toNat - '0'.toNat) : Nat) : Int) := by
      unfold digit_value
      omega
    rw [strtol_digits, if_pos hdigits.1, hacc, ih _ hdigits.2, Nat.ofDigitChars_cons]

/-- What `printf` writes of a number, `strtol` reads. -/
theorem strtol_toDigits {n : Nat} (hn : n < 2 ^ 31) : strtol (Nat.toDigits 10 n) = n := by
  have hdigits : ∀ c ∈ Nat.toDigits 10 n, c.isDigit = true := by
    intro c hc
    exact Nat.isDigit_of_mem_toDigits (by decide) (by decide) hc
  have hvalue : strtol_digits 0 (Nat.toDigits 10 n) = n := by
    have heq := strtol_digits_eq 0 hdigits
    rwa [Nat.ofDigitChars_ten_toDigits] at heq
  cases htext : Nat.toDigits 10 n with
  | nil => exact absurd htext Nat.toDigits_ne_nil
  | cons c cs =>
    rw [htext] at hdigits hvalue
    have hdigit := hdigits c (List.mem_cons_self ..)
    have hlow := (digit_bounds hdigit).1
    have hne : ∀ d : Char, d.toNat < 48 → c ≠ d := by
      rintro d hd rfl
      omega
    have hspace : isspace c = false := by
      unfold isspace
      rw [beq_false_of_ne (hne ' ' (by decide)), Bool.false_or, Bool.and_eq_false_iff,
        decide_eq_false_iff_not, decide_eq_false_iff_not]
      right
      omega
    rw [strtol, if_neg (by rw [hspace]; decide), if_neg (hne '-' (by decide)),
      if_neg (hne '+' (by decide)), hvalue]
    omega

/-- The conversion leaves the numbers of an `int` alone. -/
theorem atoi_toDigits {n : Nat} (hn : n < 2 ^ 31) : atoi (Nat.toDigits 10 n) = n := by
  unfold atoi to_int32
  rw [strtol_toDigits hn]
  exact Int.bmod_eq_of_le (by omega) (by omega)

end fields

/-! ## No field holds a blank -/

section blanks

theorem blank_not_mem_gap {gap : Nat} (hgap : gap < 9) : ' ' ∉ gap_text gap := by
  unfold gap_text
  split
  · exact List.not_mem_nil
  · rw [List.mem_singleton]
    exact Ne.symm (gap_digit_read gap hgap).2.1

theorem blank_not_mem_rank {squares : List (Option Man)} : ∀ {gap : Nat},
    gap + squares.length < 9 → ' ' ∉ rank_text gap squares := by
  induction squares with
  | nil =>
    intro gap hlen
    exact blank_not_mem_gap hlen
  | cons square squares ih =>
    intro gap hlen
    rw [List.length_cons] at hlen
    cases square with
    | none => exact ih (by omega)
    | some c =>
      rw [rank_text, List.mem_append, List.mem_cons]
      rintro (hgap | hletter | hrest)
      · exact blank_not_mem_gap (by omega) hgap
      · exact (man_letter_read c).2.1 hletter.symm
      · exact ih (by omega) hrest

theorem Setup.blank_not_mem_ranks (s : Setup) (y : Nat) : ' ' ∉ s.ranks_text y := by
  have hrank : ∀ y, ' ' ∉ rank_text 0 (s.rank y) := by
    intro y
    exact blank_not_mem_rank (by rw [s.length_rank]; decide)
  induction y with
  | zero => exact hrank 0
  | succ y ih =>
    rw [Setup.ranks_text, List.mem_append, List.mem_cons]
    rintro (htop | hslash | hrest)
    · exact hrank (y + 1) htop
    · exact absurd hslash (by decide)
    · exact ih hrest

theorem rank_text_ne_nil {squares : List (Option Man)} : ∀ {gap : Nat},
    0 < gap + squares.length → rank_text gap squares ≠ [] := by
  induction squares with
  | nil =>
    intro gap hlen
    have hgap : gap ≠ 0 := by
      rw [List.length_nil] at hlen
      omega
    rw [rank_text, gap_text, if_neg hgap]
    exact List.cons_ne_nil _ _
  | cons square squares ih =>
    intro gap _
    cases square with
    | none => exact ih (by omega)
    | some c => exact List.append_ne_nil_of_right_ne_nil _ (List.cons_ne_nil _ _)

theorem Setup.ranks_ne_nil (s : Setup) (y : Nat) : s.ranks_text y ≠ [] := by
  cases y with
  | zero => exact rank_text_ne_nil (by rw [s.length_rank]; decide)
  | succ y => exact List.append_ne_nil_of_right_ne_nil _ (List.cons_ne_nil _ _)

theorem side_text_word (t : Team) : ' ' ∉ side_text t ∧ side_text t ≠ [] := by
  cases t <;> decide

theorem Setup.castling_text_word (s : Setup) : ' ' ∉ s.castling_text ∧ s.castling_text ≠ [] := by
  unfold Setup.castling_text Setup.castling_letters
  cases s.white_can_castle_kingside <;> cases s.white_can_castle_queenside <;>
    cases s.black_can_castle_kingside <;> cases s.black_can_castle_queenside <;> decide

theorem square_text_word (square : Option (Fin 8 × Fin 8)) :
    ' ' ∉ square_text square ∧ square_text square ≠ [] := by
  cases square with
  | none => decide
  | some square =>
    obtain ⟨x, y⟩ := square
    have hx := (file_letter_read x).2.1
    have hy := (rank_digit_read y).1
    simp [square_text, hx.symm, hy.symm]

theorem number_word (n : Nat) : ' ' ∉ Nat.toDigits 10 n ∧ Nat.toDigits 10 n ≠ [] := by
  constructor
  · intro hblank
    have hdigit := Nat.isDigit_of_mem_toDigits (b := 10) (by decide) (by decide) hblank
    exact absurd hdigit (by decide)
  · exact Nat.toDigits_ne_nil

end blanks

/-- The six tokens of the text. -/
theorem Setup.tokens (s : Setup) (n : Nat) :
    strtok [] (s.fen n) = [s.ranks_text 7, side_text s.side_to_move, s.castling_text,
      square_text s.en_passant, Nat.toDigits 10 s.halfmove_clock, Nat.toDigits 10 n] := by
  obtain ⟨hside, hside'⟩ := side_text_word s.side_to_move
  obtain ⟨hcastling, hcastling'⟩ := s.castling_text_word
  obtain ⟨hsquare, hsquare'⟩ := square_text_word s.en_passant
  obtain ⟨hclock, hclock'⟩ := number_word s.halfmove_clock
  obtain ⟨hn, hn'⟩ := number_word n
  unfold Setup.fen
  rw [strtok_word (s.blank_not_mem_ranks 7) _ (.inr (s.ranks_ne_nil 7)),
    strtok_word hside _ (.inr hside'), strtok_word hcastling _ (.inr hcastling'),
    strtok_word hsquare _ (.inr hsquare'), strtok_word hclock _ (.inr hclock'),
    strtok_last hn (.inr hn')]
  rfl

/-- **The parser inverts the text.** For every position, `fen_parse` reads
    its FEN, whatever the number of the move and whatever the game was
    before, and sets up exactly that position. -/
theorem fen_parse_fen (s : Setup) (fullmove_number : Nat) (G : Game) :
    fen_parse G (s.fen fullmove_number) = some (s.game, true) := by
  have hboard : ∀ G : Game, fen_field (clear_board G) 0 (s.ranks_text 7) =
      some ({ G with board := s.game.board }, true) := by
    intro G
    have hranks := s.parse_ranks (y := 7) (by decide) (clear_board G).board
    rw [s.put_ranks_empty] at hranks
    show (parse_placement (clear_board G).board 0 7 (s.ranks_text 7)).map _ = _
    have hseven : ((7 : Nat) : Int) = 7 := rfl
    rw [hseven] at hranks
    rw [hranks]
    rfl
  have hclock : ∀ G : Game, fen_field G 4 (Nat.toDigits 10 s.halfmove_clock) =
      some ({ G with halfmove_clock := s.halfmove_clock }, true) := by
    intro G
    show some ({ G with halfmove_clock := atoi (Nat.toDigits 10 s.halfmove_clock) }, true) = _
    rw [atoi_toDigits s.int_range]
  unfold fen_parse
  rw [s.tokens]
  -- field by field
  simp only [fen_fields, hboard, s.side_read, s.castling_read, s.en_passant_read, hclock]
  rfl

/-- The standard start position, whose text is that of `init_startpos`. -/
def Setup.start : Setup where
  board y x := Chess.start.board (x : Nat) (y : Nat)
  side_to_move := .white
  white_can_castle_kingside := true
  white_can_castle_queenside := true
  black_can_castle_kingside := true
  black_can_castle_queenside := true
  en_passant := none
  halfmove_clock := 0
  int_range := by decide

example : Setup.start.fen 1 = starting_fen := by decide +kernel

end MultiplayChess
