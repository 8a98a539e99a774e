import MultiplayChess.Server.Message

/-! # The state of the client

    `client/game_state.h`, `client/game_state.c` and the part of
    `client/client_state.h` the message handlers work on.  The lists of
    chat messages and of PGN moves stand for the arrays with their counts;
    the time stamps of chat messages, which only the screen shows, and the
    debug output are left out. -/

namespace MultiplayChess

/-- `MAX_CHAT_MESSAGES`. -/
def max_chat_messages : Nat := 50

/-- `MAX_PGN_MOVES`. -/
def max_pgn_moves : Nat := 512

/-- `MAX_COORD_STR`. -/
def max_coord_str : Nat := 6

/-- `MAX_PLAYER_NAME_LENGTH`. -/
def max_player_name_length : Nat := 32

structure ChatMessage where
  sender : CString
  message : CString
  deriving DecidableEq, Repr

/-- `game_state_t`. -/
structure GameState where
  game : Game
  chat_messages : List ChatMessage
  local_player : CString
  opponent_player : CString
  local_team : Team
  game_in_progress : Bool
  game_start_time : Int
  white_time_remaining : Int
  black_time_remaining : Int
  last_timer_update : Int
  white_time_at_last_sync : Int
  black_time_at_last_sync : Int
  opponent_disconnected : Bool
  opponent_disconnect_message : CString
  white_in_check : Bool
  black_in_check : Bool
  pgn_moves : List CString
  pgn_result : CString

inductive Screen where
  | main
  | matching
  | game
  deriving DecidableEq, Repr

/-- `client_state_t`.  `saved` collects the states `write_pgn` has written
    to a file. -/
structure ClientState where
  username : CString
  current_screen : Screen
  game_state : GameState
  dialog_active : Bool
  resign_result_dialog_pending : Bool
  resign_result_title : CString
  resign_result_message : CString
  game_end_dialog_pending : Bool
  game_end_message : CString
  screen_update_requested : Bool
  saved : List GameState

/-- Whether `mkdir` leaves a directory, and whether `fopen` opens the file
    to be written in it. -/
structure FileEnv where
  mkdir : Bool
  fopen : Bool

/-- What a handler run of the client observes: the results of its
    successive calls of `time`, not counting those for chat time stamps and
    file names, and the file system. -/
structure ClientEnv where
  time : Nat → Int
  files : FileEnv

/-- `strncpy` into a buffer of `size` bytes whose last byte is the
    terminator. -/
def strncpy (size : Nat) (s : CString) : CString :=
  s.take (size - 1)

/-! ## The position -/

/-- `reset_game_to_starting_position`. -/
def reset_game_to_starting_position (game : Game) : Game :=
  match fen_parse game starting_fen with
  | some (game', _) => game'
  | none => game

/-- `reset_game_for_player`: the same for both teams. -/
def reset_game_for_player (game : Game) (_player_team : Team) : Game :=
  match fen_parse game starting_fen with
  | some (game', _) => game'
  | none => game

/-- `init_game`: whatever the memory held before is cleared. -/
def init_game (_game : Game) : Game :=
  { reset_game_to_starting_position (clear_board .zero) with
    side_to_move := .white
    halfmove_clock := 0
    white_can_castle_kingside := true
    white_can_castle_queenside := true
    black_can_castle_kingside := true
    black_can_castle_queenside := true
    en_passant_x := -1
    en_passant_y := -1 }

/-- `init_game_state`. -/
def init_game_state : GameState where
  game := init_game .zero
  chat_messages := []
  local_player := []
  opponent_player := []
  local_team := .white
  game_in_progress := false
  game_start_time := 0
  white_time_remaining := 600
  black_time_remaining := 600
  last_timer_update := 0
  white_time_at_last_sync := 600
  black_time_at_last_sync := 600
  opponent_disconnected := false
  opponent_disconnect_message := []
  white_in_check := false
  black_in_check := false
  pgn_moves := []
  pgn_result := "*".toList

/-- `init_client_state`. -/
def init_client_state : ClientState where
  username := []
  current_screen := .main
  game_state := init_game_state
  dialog_active := false
  resign_result_dialog_pending := false
  resign_result_title := []
  resign_result_message := []
  game_end_dialog_pending := false
  game_end_message := []
  screen_update_requested := false
  saved := []

/-- `apply_move_from_server`: no rule is checked. -/
def apply_move_from_server (game : Game) (src dst : CString) : Game × Bool :=
  match src, dst with
  | [src_file, src_rank], [dst_file, dst_rank] =>
    let from_x : Int := src_file.toNat - 97
    let from_y : Int := src_rank.toNat - 49
    let to_x : Int := dst_file.toNat - 97
    let to_y : Int := dst_rank.toNat - 49
    if from_x < 0 ∨ from_x ≥ 8 ∨ from_y < 0 ∨ from_y ≥ 8 ∨
        to_x < 0 ∨ to_x ≥ 8 ∨ to_y < 0 ∨ to_y ≥ 8 then (game, false)
    else (apply_move game from_x from_y to_x to_y, true)
  | _, _ => (game, false)

/-! ## Chat, clocks and PGN -/

/-- `add_chat_message`: a full list loses its oldest message. -/
def add_chat_message (state : GameState) (sender message : CString) : GameState :=
  let kept :=
    if state.chat_messages.length ≥ max_chat_messages then state.chat_messages.drop 1
    else state.chat_messages
  { state with
    chat_messages := kept ++ [{ sender := strncpy max_player_name_length sender
                                message := strncpy 256 message }] }

/-- `sync_timer_from_server`. -/
def sync_timer_from_server (state : GameState) (white_time black_time move_time : Int) :
    GameState :=
  { state with
    white_time_remaining := white_time
    black_time_remaining := black_time
    game_start_time := move_time
    last_timer_update := move_time
    white_time_at_last_sync := white_time
    black_time_at_last_sync := black_time }

/-- The result tag of a game the team has won. -/
def won_by : Team → CString
  | .white => "1-0".toList
  | .black => "0-1".toList

/-- The result `save_current_game` works out. -/
def pgn_result_of (state : GameState) : CString :=
  if is_checkmate state.game then
    if state.game.side_to_move = state.local_team then won_by state.local_team.other
    else won_by state.local_team
  else if is_stalemate state.game then "1/2-1/2".toList
  else if state.opponent_disconnected then won_by state.local_team
  else "*".toList

/-- `save_current_game`: the state afterwards and the one that is written,
    if any.  That `write_pgn` has failed is only logged. -/
def save_current_game (files : FileEnv) (state : GameState) : GameState × Option GameState :=
  if state.pgn_moves = [] then (state, none)
  else if !files.mkdir then (state, none)
  else
    let state := { state with pgn_result := pgn_result_of state }
    (state, if files.fopen then some state else none)

/-- `save_current_game` on the state of the client. -/
def ClientState.save (client : ClientState) (files : FileEnv) : ClientState :=
  let r := save_current_game files client.game_state
  { client with game_state := r.1, saved := client.saved ++ r.2.toList }

/-- `add_chat_message_safe`. -/
def ClientState.chat (client : ClientState) (sender message : CString) : ClientState :=
  { client with game_state := add_chat_message client.game_state sender message }

end MultiplayChess
