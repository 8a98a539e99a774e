import MultiplayChess.Client.Screens
import MultiplayChess.Framework.Painting

/-! # The board on the screen

    `calculate_possible_moves` and `draw_chess_board` of
    `client/ui/game_screen.c`.  What is drawn can be read back: the labels
    beside a square are its name, the text in it is the man that stands
    there, and a click on any place of it is a click on that square. -/

namespace MultiplayChess

open Chess (OnBoard Man)
open Painting

/-- `BOARD_LABEL_Y`. -/
def board_label_y : Int := 2

/-- `BOARD_WIDTH`. -/
def board_width : Int := square_w * board_size + board_label_x * 2

/-- `BOARD_HEIGHT`. -/
def board_height : Int := square_h * board_size + board_label_y * 2

/-- The colour pairs of the squares. -/
inductive ColorPair where
  | selected_square
  | check_king
  | cursor_square
  | capture_move
  | possible_move
  | board_black
  | board_white
  deriving DecidableEq, Repr

/-- `A_BOLD` and `A_DIM`. -/
inductive Emphasis where
  | normal
  | bold
  | dim
  deriving DecidableEq, Repr

/-- The attributes that are on while a text is printed. -/
structure Attr where
  color : Option ColorPair
  blink : Bool
  emphasis : Emphasis
  deriving DecidableEq, Repr

/-- No attribute is on. -/
def Attr.plain : Attr := ⟨none, false, .normal⟩

/-- The two `switch`es of `get_piece_unicode`. -/
def piece_label : Team → PieceType → CString
  | .white, .king => "W KNG".toList
  | .white, .queen => "W QUE".toList
  | .white, .rook => "W ROK".toList
  | .white, .bishop => "W BIS".toList
  | .white, .knight => "W KNT".toList
  | .white, .pawn => "W PAW".toList
  | .black, .king => "B KNG".toList
  | .black, .queen => "B QUE".toList
  | .black, .rook => "B ROK".toList
  | .black, .bishop => "B BIS".toList
  | .black, .knight => "B KNT".toList
  | .black, .pawn => "B PAW".toList

/-- `get_piece_unicode`. -/
def get_piece_unicode (piece : Option Piece) (team : Team) : CString :=
  match piece with
  | none => " ".toList
  | some p => piece_label team p.type

/-! ## Possible moves -/

/-- The arrays `possible_moves` and `capture_moves`, indexed rank first. -/
structure MoveMarks where
  possible_moves : Int → Int → Bool
  capture_moves : Int → Int → Bool

/-- The arrays after `memset`. -/
def MoveMarks.cleared : MoveMarks where
  possible_moves _ _ := false
  capture_moves _ _ := false

/-- The man on the square can be captured by the selected one. -/
def is_target (selected_piece target_piece : PieceState) : Bool :=
  target_piece.piece.isSome && !target_piece.is_dead &&
    decide (target_piece.team ≠ selected_piece.team)

/-- `calculate_possible_moves`: what its loops write at `[dy][dx]`. -/
def calculate_possible_moves (game : Game) (selected_x selected_y : Int) (piece_selected : Bool) :
    MoveMarks :=
  let selected_piece := game.board.get selected_y selected_x
  if !piece_selected then .cleared
  else if selected_piece.piece.isNone || selected_piece.is_dead then .cleared
  else
    let accepts (dx dy : Int) : Bool :=
      decide (¬ (selected_x = dx ∧ selected_y = dy)) &&
        is_move_legal game selected_x selected_y dx dy
    { possible_moves := fun dy dx =>
        accepts dx dy && !is_target selected_piece (game.board.get dy dx)
      capture_moves := fun dy dx =>
        accepts dx dy && is_target selected_piece (game.board.get dy dx) }

namespace Client

/-! ## Drawing -/

/-- `get_cursor_position`. -/
def get_cursor_position (client : Client) : Int × Int :=
  if client.cursor_x < 0 ∨ client.cursor_x ≥ 8 ∨ client.cursor_y < 0 ∨ client.cursor_y ≥ 8 then
    (0, 0)
  else (client.cursor_x, client.cursor_y)

/-- The cursor is on the displayed square. -/
def is_cursor (client : Client) (row col : Int) : Bool :=
  client.cursor_mode && decide (client.get_cursor_position = (col, row))

/-- A king whose team is mated, or else in check. -/
def check_king (game : Game) (piece : PieceState) : Bool × Bool :=
  if piece.piece.any (fun p => p.type = .king) && !piece.is_dead then
    if is_checkmate game then
      (false, decide (piece.team = game.side_to_move) && is_in_check game piece.team)
    else (is_in_check game piece.team, false)
  else (false, false)

/-- The colour of a displayed square, and whether it blinks. -/
def square_color (client : Client) (marks : MoveMarks) (row col : Int) : ColorPair × Bool :=
  let game := client.state.game_state.game
  let actual := client.actual_square col row
  let king := check_king game (game.board.get actual.2 actual.1)
  if client.piece_selected && decide (client.selected_x = actual.1) &&
      decide (client.selected_y = actual.2) then
    (.selected_square, false)
  else if king.2 then (.check_king, true)
  else if king.1 then (.check_king, false)
  else if client.is_cursor row col then (.cursor_square, false)
  else if marks.capture_moves actual.2 actual.1 then (.capture_move, false)
  else if marks.possible_moves actual.2 actual.1 then (.possible_move, false)
  else if (row + col) % 2 = 0 then (.board_black, false)
  else (.board_white, false)

/-- The middle line of a displayed square: own men are bold, those of the
    opponent dim. -/
def square_text (client : Client) (row col : Int) : CString × Emphasis :=
  let actual := client.actual_square col row
  let piece := client.state.game_state.game.board.get actual.2 actual.1
  if piece.piece.isSome && !piece.is_dead then
    (" ".toList ++ get_piece_unicode piece.piece piece.team ++ " ".toList,
      if piece.team = client.state.game_state.local_team then .bold else .dim)
  else if client.is_cursor row col then ("   *   ".toList, .normal)
  else ("       ".toList, .normal)

/-- The three lines of a displayed square. -/
def draw_square (client : Client) (marks : MoveMarks) (row col : Int) : List (Print Attr) :=
  let y := 2 + row * square_h
  let x := board_label_x + col * square_w
  let color := client.square_color marks row col
  let text := client.square_text row col
  [⟨y, x, "       ".toList, ⟨color.1, color.2, .normal⟩⟩,
    ⟨y + 1, x, text.1, ⟨color.1, color.2, text.2⟩⟩,
    ⟨y + 2, x, "       ".toList, ⟨color.1, color.2, .normal⟩⟩]

/-- The number beside a displayed row. -/
def display_rank (client : Client) (row : Int) : Int :=
  if client.state.game_state.local_team = .black then row + 1 else 8 - row

/-- The number on the left of a displayed row. -/
def left_rank (client : Client) (row : Int) : Print Attr :=
  ⟨2 + row * square_h + 1, 1, (toString (client.display_rank row)).toList ++ " ".toList, .plain⟩

/-- The number on the right. -/
def right_rank (client : Client) (row : Int) : Print Attr :=
  ⟨2 + row * square_h + 1, board_width - 2, (toString (client.display_rank row)).toList, .plain⟩

/-- The squares of a displayed row, between its numbers. -/
def draw_row (client : Client) (marks : MoveMarks) (row : Int) : List (Print Attr) :=
  [client.left_rank row] ++ files.flatMap (client.draw_square marks row) ++ [client.right_rank row]

/-- The letters of the files. -/
def file_letters (client : Client) : CString :=
  if client.state.game_state.local_team = .black then
    "   h      g      f      e      d      c      b      a".toList
  else "   a      b      c      d      e      f      g      h".toList

/-- The letters above the board. -/
def top_letters (client : Client) : Print Attr :=
  ⟨1, board_label_y, "  ".toList ++ client.file_letters, .plain⟩

/-- The letters below the board. -/
def bottom_letters (client : Client) : Print Attr :=
  ⟨board_height - 2, board_label_x, client.file_letters, .plain⟩

/-- `draw_chess_board`: the prints into its window, without the border. -/
def draw_chess_board (client : Client) (marks : MoveMarks) : List (Print Attr) :=
  [client.top_letters] ++ files.flatMap (client.draw_row marks) ++ [client.bottom_letters]

/-- The part of `draw_game_screen` that draws the board. -/
def draw_board (client : Client) : List (Print Attr) :=
  client.draw_chess_board (calculate_possible_moves client.state.game_state.game
    client.selected_x client.selected_y client.piece_selected)

/-! ## Where things are drawn -/

/-- The place of a displayed square in the window of the board. -/
def square_rect (row col : Int) : Rect :=
  ⟨2 + row * 3, 4 + col * 7, 2 + row * 3 + 3, 4 + col * 7 + 7⟩

section places

variable {client : Client} {marks : MoveMarks} {row col y x : Int}

theorem piece_label_length (t : Team) (k : PieceType) : (piece_label t k).length = 5 := by
  cases t <;> cases k <;> rfl

theorem square_text_length (client : Client) (row col : Int) :
    (client.square_text row col).1.length = 7 := by
  unfold square_text
  simp only
  split
  · rename_i hlive
    rw [Bool.and_eq_true] at hlive
    obtain ⟨p, hp⟩ := Option.isSome_iff_exists.mp hlive.1
    rw [hp, List.length_append, List.length_append, get_piece_unicode, piece_label_length]
    rfl
  · split <;> rfl

theorem draw_square_within : Within (square_rect row col) (client.draw_square marks row col) := by
  have hlen := square_text_length client row col
  have hblank : ("       ".toList).length = 7 := rfl
  intro p hp
  simp only [draw_square, List.mem_cons, List.not_mem_nil, or_false] at hp
  unfold square_rect
  rcases hp with rfl | rfl | rfl
  · simp only [hblank, square_h, square_w, board_label_x]
    omega
  · simp only [hlen, square_h, square_w, board_label_x]
    omega
  · simp only [hblank, square_h, square_w, board_label_x]
    omega

/-- A displayed row shows a rank, and a displayed column a file. -/
theorem actual_square_on_board (hcol : col ∈ files) (hrow : row ∈ files) :
    OnBoard (client.actual_square col row).1 (client.actual_square col row).2 := by
  rw [mem_files] at hcol hrow
  unfold actual_square OnBoard
  split
  · simp only
    omega
  · simp only
    omega

/-- The square that shows the square that is shown. -/
theorem actual_square_twice : client.actual_square (client.actual_square x y).1
    (client.actual_square x y).2 = (x, y) := by
  unfold actual_square
  split
  · simp
  · simp

theorem digit_of_rank : ∀ n ∈ files, (toString (n + 1)).toList = [Char.ofNat (49 + n).toNat] := by
  decide

theorem rank_text (client : Client) (col : Int) (hrow : row ∈ files) :
    (toString (client.display_rank row)).toList =
      [Char.ofNat (49 + (client.actual_square col row).2).toNat] := by
  have hactual : client.display_rank row = (client.actual_square col row).2 + 1 := by
    unfold display_rank actual_square
    split
    · rfl
    · show 8 - row = 7 - row + 1
      omega
  have hmem : (client.actual_square col row).2 ∈ files := by
    rw [mem_files] at hrow ⊢
    unfold actual_square
    split <;> simp only <;> omega
  rw [hactual, digit_of_rank _ hmem]

/-- The place of a displayed row. -/
def row_rect (row : Int) : Rect :=
  ⟨2 + row * 3, 1, 2 + row * 3 + 3, 63⟩

theorem in_square_iff : (square_rect row col).Contains y x ↔
    2 + row * 3 ≤ y ∧ y < 2 + row * 3 + 3 ∧ 4 + col * 7 ≤ x ∧ x < 4 + col * 7 + 7 :=
  Iff.rfl

theorem in_row_iff : (row_rect row).Contains y x ↔
    2 + row * 3 ≤ y ∧ y < 2 + row * 3 + 3 ∧ 1 ≤ x ∧ x < 63 :=
  Iff.rfl

theorem left_rank_length (hrow : row ∈ files) : (client.left_rank row).text.length = 2 := by
  unfold left_rank
  rw [rank_text _ 0 hrow]
  rfl

theorem right_rank_length (hrow : row ∈ files) : (client.right_rank row).text.length = 1 := by
  unfold right_rank
  rw [rank_text _ 0 hrow]
  rfl

theorem rank_place : 2 + row * square_h + 1 = 3 + row * 3 := by
  unfold square_h
  omega

theorem draw_row_within (hrow : row ∈ files) :
    Within (row_rect row) (client.draw_row marks row) := by
  apply Within.append
  · apply Within.append
    · intro p hp
      obtain rfl := List.mem_singleton.mp hp
      rw [left_rank_length hrow]
      show 2 + row * 3 ≤ 2 + row * 3 + 1 ∧ 2 + row * 3 + 1 < 2 + row * 3 + 3 ∧ (1 : Int) ≤ 1 ∧
        (1 : Int) + (2 : Nat) ≤ 63
      omega
    · apply Within.flatMap
      intro col hcol
      rw [mem_files] at hcol
      apply draw_square_within.mono
      all_goals simp only [row_rect, square_rect]
      all_goals omega
  · intro p hp
    obtain rfl := List.mem_singleton.mp hp
    rw [right_rank_length hrow]
    show 2 + row * 3 ≤ 2 + row * 3 + 1 ∧ 2 + row * 3 + 1 < 2 + row * 3 + 3 ∧ (1 : Int) ≤ 62 ∧
      (62 : Int) + (1 : Nat) ≤ 63
    omega

/-- Only one of the rows is seen at a place beside or in it. -/
theorem seen_row (hrow : row ∈ files) (hin : (row_rect row).Contains y x) :
    seen (client.draw_chess_board marks) y x = seen (client.draw_row marks row) y x := by
  rw [in_row_iff] at hin
  have hrow' := (mem_files row).mp hrow
  have hrows : seen (files.flatMap (client.draw_row marks)) y x =
      seen (client.draw_row marks row) y x := by
    apply seen_flatMap hrow
    intro row' hother hne
    apply (draw_row_within hother).seen_outside
    rw [in_row_iff]
    omega
  have htop : client.top_letters.puts y x = none := by
    apply puts_beside
    show y ≠ 1 ∨ _
    omega
  have hbottom : client.bottom_letters.puts y x = none := by
    apply puts_beside
    show y ≠ 26 ∨ _
    omega
  unfold draw_chess_board
  rw [seen_append, seen_append, hrows, seen_singleton, seen_singleton, htop, hbottom,
    Option.or_none, Option.none_or]

/-- In a displayed square the square is seen. -/
theorem seen_square (hrow : row ∈ files) (hcol : col ∈ files)
    (hin : (square_rect row col).Contains y x) :
    seen (client.draw_chess_board marks) y x = seen (client.draw_square marks row col) y x := by
  rw [in_square_iff] at hin
  have hcol' := (mem_files col).mp hcol
  have hsquares : seen (files.flatMap (client.draw_square marks row)) y x =
      seen (client.draw_square marks row col) y x := by
    apply seen_flatMap hcol
    intro col' _ hne
    apply draw_square_within.seen_outside
    rw [in_square_iff]
    omega
  have hleft : (client.left_rank row).puts y x = none := by
    apply puts_beside
    rw [left_rank_length hrow]
    show _ ∨ _ ∨ 1 + ((2 : Nat) : Int) ≤ x
    omega
  have hright : (client.right_rank row).puts y x = none := by
    apply puts_beside
    show _ ∨ x < 62 ∨ _
    omega
  rw [seen_row hrow (in_row_iff.mpr (by omega))]
  unfold draw_row
  rw [seen_append, seen_append, hsquares, seen_singleton, seen_singleton, hleft, hright,
    Option.or_none, Option.none_or]

/-! ## Colours -/

/-- All of a square is in its colour. -/
theorem seen_in_square (hin : (square_rect row col).Contains y x) :
    ∃ c e, seen (client.draw_square marks row col) y x =
      some (c,
        ⟨(client.square_color marks row col).1, (client.square_color marks row col).2, e⟩) := by
  rw [in_square_iff] at hin
  have hlen := square_text_length client row col
  have hx : x = board_label_x + col * square_w + ((x - (4 + col * 7)).toNat : Int) := by
    unfold board_label_x square_w
    omega
  have hindex : (x - (4 + col * 7)).toNat < 7 := by omega
  have hblank : ∀ n < 7, ("       ".toList)[n]? = some ' ' := by decide
  simp only [draw_square, seen, Option.none_or]
  have hy : y = 2 + row * square_h ∨ y = 2 + row * square_h + 1 ∨ y = 2 + row * square_h + 2 := by
    unfold square_h
    omega
  rcases hy with rfl | rfl | rfl
  · rw [puts_beside (.inl (by show _ ≠ _ + 2; omega)),
      puts_beside (.inl (by show _ ≠ _ + 1; omega)),
      puts_at rfl hx, hblank _ hindex]
    exact ⟨_, _, rfl⟩
  · rw [puts_beside (.inl (by show _ + 1 ≠ _ + 2; omega)), puts_at rfl hx,
      List.getElem?_eq_getElem (by rw [hlen]; exact hindex)]
    exact ⟨_, _, rfl⟩
  · rw [puts_at rfl hx, hblank _ hindex]
    exact ⟨_, _, rfl⟩

/-- The colour at a place of the screen, as far as the board is drawn there. -/
def color_at (client : Client) (x y : Int) : Option ColorPair :=
  (seen client.draw_board (y - 2) (x - 2)).bind fun c => c.2.color

/-! ## Reading the board -/

/-- The numbers beside a row. -/
theorem seen_rank (hrow : row ∈ files) (hx : x = 1 ∨ x = 62) :
    (seen (client.draw_chess_board marks) (3 + row * 3) x).map Prod.fst =
      some (Char.ofNat (49 + (client.actual_square col row).2).toNat) := by
  have hin : (row_rect row).Contains (3 + row * 3) x := by
    rw [in_row_iff]
    omega
  have hsquares : seen (files.flatMap (client.draw_square marks row)) (3 + row * 3) x = none := by
    apply seen_flatMap_none
    intro col' hcol'
    apply draw_square_within.seen_outside
    rw [in_square_iff]
    rw [mem_files] at hcol'
    omega
  rw [seen_row hrow hin]
  unfold draw_row
  rw [seen_append, seen_append, hsquares, Option.none_or, seen_singleton, seen_singleton]
  rcases hx with rfl | rfl
  · have hright : (client.right_rank row).puts (3 + row * 3) 1 = none := by
      apply puts_beside
      show _ ∨ (1 : Int) < 62 ∨ _
      omega
    have hleft : (client.left_rank row).puts (3 + row * 3) 1 =
        ((client.left_rank row).text[0]?).map fun c => (c, .plain) := puts_at rank_place.symm rfl
    rw [hright, hleft, Option.none_or]
    unfold left_rank
    rw [rank_text _ col hrow]
    rfl
  · have hright : (client.right_rank row).puts (3 + row * 3) 62 =
        ((client.right_rank row).text[0]?).map fun c => (c, .plain) := puts_at rank_place.symm rfl
    rw [hright]
    unfold right_rank
    rw [rank_text _ col hrow]
    rfl

theorem letters_of_files : ∀ col ∈ files,
    ("   a      b      c      d      e      f      g      h".toList)[(col * 7 + 3).toNat]? =
        some (Char.ofNat (97 + col).toNat) ∧
      ("   h      g      f      e      d      c      b      a".toList)[(col * 7 + 3).toNat]? =
        some (Char.ofNat (97 + (7 - col)).toNat) := by
  decide

theorem file_letters_at (client : Client) (row : Int) (hcol : col ∈ files) :
    client.file_letters[(col * 7 + 3).toNat]? =
    some (Char.ofNat (97 + (client.actual_square col row).1).toNat) := by
  unfold file_letters actual_square
  split
  · exact (letters_of_files col hcol).2
  · exact (letters_of_files col hcol).1

/-- The letters above and below a column. -/
theorem seen_file (hcol : col ∈ files) (hy : y = 1 ∨ y = 26) :
    (seen (client.draw_chess_board marks) y (7 + col * 7)).map Prod.fst =
      some (Char.ofNat (97 + (client.actual_square col row).1).toNat) := by
  have hcol' := (mem_files col).mp hcol
  have hletter := file_letters_at client row hcol
  have hrows : seen (files.flatMap (client.draw_row marks)) y (7 + col * 7) = none := by
    apply seen_flatMap_none
    intro row hrow
    apply (draw_row_within hrow).seen_outside
    rw [in_row_iff]
    rw [mem_files] at hrow
    omega
  unfold draw_chess_board
  rw [seen_append, seen_append, hrows, Option.none_or, seen_singleton, seen_singleton]
  rcases hy with rfl | rfl
  · have hbottom : client.bottom_letters.puts 1 (7 + col * 7) = none := by
      apply puts_beside
      show (1 : Int) ≠ 26 ∨ _
      omega
    have hx : 7 + col * 7 = 2 + ((2 + (col * 7 + 3).toNat : Nat) : Int) := by omega
    have htop : client.top_letters.puts 1 (7 + col * 7) =
        (client.top_letters.text[2 + (col * 7 + 3).toNat]?).map fun c => (c, .plain) :=
      puts_at rfl hx
    have hindex : client.top_letters.text[2 + (col * 7 + 3).toNat]? =
        client.file_letters[(col * 7 + 3).toNat]? := by
      rw [Nat.add_comm]
      rfl
    rw [hbottom, htop, hindex, hletter]
    rfl
  · have hx : 7 + col * 7 = 4 + ((col * 7 + 3).toNat : Int) := by omega
    have hbottom : client.bottom_letters.puts 26 (7 + col * 7) =
        (client.file_letters[(col * 7 + 3).toNat]?).map fun c => (c, .plain) := puts_at rfl hx
    rw [hbottom, hletter]
    rfl

/-- The middle line of a square. -/
theorem seen_middle (i : Nat) :
    seen (client.draw_square marks row col) (3 + row * 3) (4 + col * 7 + i) =
      ((client.square_text row col).1[i]?).map fun c =>
        (c, ⟨(client.square_color marks row col).1, (client.square_color marks row col).2,
          (client.square_text row col).2⟩) := by
  have hfirst : 3 + row * 3 ≠ 2 + row * square_h := by
    rw [← rank_place]
    omega
  have hlast : 3 + row * 3 ≠ 2 + row * square_h + 2 := by
    rw [← rank_place]
    omega
  have hx : 4 + col * 7 + i = board_label_x + col * square_w + i := rfl
  simp only [draw_square, seen, Option.none_or]
  rw [puts_beside (.inl hlast), puts_at rank_place.symm hx, puts_beside (.inl hfirst),
    Option.or_none, Option.none_or]

/-- The text of a man. -/
def man_label (c : Man) : CString :=
  " ".toList ++ piece_label c.team c.kind ++ " ".toList

/-- The kinds of men. -/
def men : List Man :=
  [Team.white, Team.black].flatMap fun t =>
    [PieceType.king, .queen, .rook, .bishop, .knight, .pawn].map fun k => ⟨t, k⟩

/-- The man the text in a square names. -/
def read_man (text : List (Option Char)) : Option Man :=
  men.find? fun c => text = (man_label c).map some

theorem read_man_label (t : Team) (k : PieceType) :
    read_man ((man_label ⟨t, k⟩).map some) = some ⟨t, k⟩ := by
  cases t <;> cases k <;> decide

/-- A blank square names no man. -/
theorem read_man_blank : read_man ("       ".toList.map some) = none ∧
    read_man ("   *   ".toList.map some) = none := by
  decide

theorem read_square_text : read_man ((client.square_text row col).1.map some) =
    placement client.state.game_state.game (client.actual_square col row).1
      (client.actual_square col row).2 := by
  unfold placement PieceState.man square_text
  simp only
  split
  · rename_i hlive
    rw [Bool.and_eq_true, Bool.not_eq_true'] at hlive
    obtain ⟨p, hp⟩ := Option.isSome_iff_exists.mp hlive.1
    rw [hp, hlive.2]
    exact read_man_label _ _
  · rename_i hlive
    have hnobody : ∀ ps : PieceState, ¬ (ps.piece.isSome && !ps.is_dead) = true →
        (if ps.is_dead = true then none else ps.piece.map fun p => (⟨ps.team, p.type⟩ : Man)) =
          none := by
      intro ps hps
      cases hdead : ps.is_dead <;> cases hpiece : ps.piece <;> simp_all
    rw [hnobody _ hlive]
    split
    · exact read_man_blank.2
    · exact read_man_blank.1

/-- What the texts in and beside a displayed square say: the man in it and
    its name. -/
structure Reads (client : Client) (window : List (Print Attr)) (row col bx bY : Int) : Prop where
  man : read_man (text_at window (3 + row * 3) (4 + col * 7) 7) =
    placement client.state.game_state.game bx bY
  above : (seen window 1 (7 + col * 7)).map Prod.fst = (coordinate bx bY)[0]?
  below : (seen window 26 (7 + col * 7)).map Prod.fst = (coordinate bx bY)[0]?
  left : (seen window (3 + row * 3) 1).map Prod.fst = (coordinate bx bY)[1]?
  right : (seen window (3 + row * 3) 62).map Prod.fst = (coordinate bx bY)[1]?

theorem draw_chess_board_reads (client : Client) (marks : MoveMarks) (hrow : row ∈ files)
    (hcol : col ∈ files) :
    Reads client (client.draw_chess_board marks) row col (client.actual_square col row).1
      (client.actual_square col row).2 where
  man := by
    have htext : text_at (client.draw_chess_board marks) (3 + row * 3) (4 + col * 7)
        (client.square_text row col).1.length = (client.square_text row col).1.map some := by
      apply text_at_eq
      intro i hi
      rw [square_text_length] at hi
      rw [seen_square hrow hcol (in_square_iff.mpr (by omega))]
      exact seen_middle i
    rw [square_text_length] at htext
    rw [htext, read_square_text]
  above := seen_file hcol (.inl rfl)
  below := seen_file hcol (.inr rfl)
  left := seen_rank hrow (.inl rfl)
  right := seen_rank hrow (.inr rfl)

/-- A click is one on a square exactly if it is in the place where that
    square is drawn.  The window of the board is at the place (2, 2). -/
theorem coord_to_board_pos_iff {board_x board_y : Int} :
    client.coord_to_board_pos x y = some (board_x, board_y) ↔
      OnBoard board_x board_y ∧
        (square_rect (client.actual_square board_x board_y).2
          (client.actual_square board_x board_y).1).Contains (y - 2) (x - 2) := by
  rw [in_square_iff]
  unfold coord_to_board_pos actual_square OnBoard board_label_x square_w square_h board_size
  simp only
  constructor
  · intro h
    split at h
    · cases h
    · split at h
      · cases h
      · split at h
        · cases h
          rename_i hblack
          rw [if_pos hblack]
          omega
        · cases h
          rename_i hwhite
          rw [if_neg hwhite]
          omega
  · intro ⟨hon, hin⟩
    split at hin
    · rename_i hblack
      rw [if_neg (by omega), if_neg (by omega), if_pos hblack, Option.some.injEq, Prod.mk.injEq]
      omega
    · rename_i hwhite
      rw [if_neg (by omega), if_neg (by omega), if_neg hwhite, Option.some.injEq, Prod.mk.injEq]
      omega

theorem displayed_in_files (client : Client) {board_x board_y : Int}
    (hon : OnBoard board_x board_y) :
    (client.actual_square board_x board_y).2 ∈ files ∧
      (client.actual_square board_x board_y).1 ∈ files := by
  obtain ⟨hx, hy⟩ := hon
  rw [mem_files, mem_files]
  unfold actual_square
  split
  · simp only
    omega
  · simp only
    omega

/-- The colour a click sees. -/
theorem color_at_square {board_x board_y : Int}
    (hat : client.coord_to_board_pos x y = some (board_x, board_y)) :
    client.color_at x y = some (client.square_color (calculate_possible_moves
      client.state.game_state.game client.selected_x client.selected_y client.piece_selected)
        (client.actual_square board_x board_y).2 (client.actual_square board_x board_y).1).1 := by
  obtain ⟨hon, hin⟩ := coord_to_board_pos_iff.mp hat
  obtain ⟨hrow, hcol⟩ := displayed_in_files client hon
  unfold color_at draw_board
  rw [seen_square hrow hcol hin]
  obtain ⟨c, e, hseen⟩ := seen_in_square hin
  rw [hseen]
  rfl

/-- **The board can be read.** For each square of the board there is one
    place in the board's own window where it is drawn: the man in it is the
    one on the board, the letters above and below and the numbers on both
    sides are its name, and exactly the clicks in that place are clicks on
    it.  The help line and the dialogs, which may cover the window, are not
    part of it. -/
theorem board_can_be_read (client : Client) {board_x board_y : Int}
    (hon : OnBoard board_x board_y) :
    ∃ row col, row ∈ files ∧ col ∈ files ∧
      Reads client client.draw_board row col board_x board_y ∧
      ∀ x y, client.coord_to_board_pos x y = some (board_x, board_y) ↔
        (square_rect row col).Contains (y - 2) (x - 2) := by
  obtain ⟨hrow, hcol⟩ := displayed_in_files client hon
  refine ⟨_, _, hrow, hcol, ?_, fun x y => ?_⟩
  · have hreads := draw_chess_board_reads client (calculate_possible_moves
      client.state.game_state.game client.selected_x client.selected_y client.piece_selected)
        hrow hcol
    rw [actual_square_twice] at hreads
    exact hreads
  · rw [coord_to_board_pos_iff]
    exact and_iff_right hon

/-- The place of e1 on the board of a new client. -/
theorem board_can_be_read_e1 : placement init_client.state.game_state.game 4 0 =
      some ⟨.white, .king⟩ ∧
    ∃ row col, row ∈ files ∧ col ∈ files ∧
      Reads init_client init_client.draw_board row col 4 0 ∧
      ∀ x y, init_client.coord_to_board_pos x y = some (4, 0) ↔
        (square_rect row col).Contains (y - 2) (x - 2) := by
  have hon : OnBoard 4 0 := by decide
  exact ⟨by decide +kernel, board_can_be_read init_client hon⟩

end places

end Client

end MultiplayChess
