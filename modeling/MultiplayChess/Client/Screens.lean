import MultiplayChess.Client.Replay

/-! # Screens, keys and dialogs

    The main thread of the client: `client/main.c`, `client/ui/` and the
    part of `client/client_network.c` it calls.  A blocking prompt (the
    username, the choice of a replay file) is one step with what the user
    enters.  Windows are left out, except for the texts of the dialogs that
    have been drawn. -/

namespace MultiplayChess

/-- `BOARD_SIZE`. -/
def board_size : Int := 8

/-- `BOARD_LABEL_X`. -/
def board_label_x : Int := 4

/-- `SQUARE_W`. -/
def square_w : Int := 7

/-- `SQUARE_H`. -/
def square_h : Int := 3

/-- What `getch` returns; for a mouse event with the place and whether the
    first button was clicked. -/
inductive Key where
  | char (c : Char)
  | up
  | down
  | left
  | right
  | backspace
  | mouse (x y : Int) (clicked : Bool)
  | other
  deriving DecidableEq, Repr

/-- The escape key. -/
def esc : Char := Char.ofNat 27

/-- The client: what the network thread and the main thread share, the rest
    of `client_state_t`, the static variables of `ui/input.c` and the replay
    that is running.  `outbox` collects the messages sent, `drawn` the
    dialogs with title and text. -/
structure Client where
  state : ClientState
  connected : Bool
  connection_lost : Bool
  disconnect_message : CString
  selected_x : Int
  selected_y : Int
  piece_selected : Bool
  chat_input_mode : Bool
  chat_input_buffer : CString
  resign_dialog_active : Bool
  match_start_time : Int
  cursor_x : Int
  cursor_y : Int
  cursor_mode : Bool
  replay : Option ReplayState
  outbox : List ClientMessage
  drawn : List (CString × CString)

/-- `init_client_state`. -/
def init_client : Client where
  state := init_client_state
  connected := false
  connection_lost := false
  disconnect_message := []
  selected_x := -1
  selected_y := -1
  piece_selected := false
  chat_input_mode := false
  chat_input_buffer := []
  resign_dialog_active := false
  match_start_time := 0
  cursor_x := 0
  cursor_y := 0
  cursor_mode := false
  replay := none
  outbox := []
  drawn := []

/-- What the handling of a key observes: whether `send_client_message`
    succeeds, the time, the file system, and what the user enters in the
    prompts: a name, and the text of the file that is opened for a replay,
    `some none` if it cannot be opened. -/
structure KeyEnv where
  send : Bool
  time : Int
  files : FileEnv
  username : CString
  file : Option (Option CString)

namespace Client

/-- `add_chat_message_safe`. -/
def chat (client : Client) (sender message : String) : Client :=
  { client with state := client.state.chat sender.toList message.toList }

def goto (client : Client) (screen : Screen) : Client :=
  { client with state := { client.state with current_screen := screen } }

/-- `send_client_message`, where it succeeds. -/
def post (client : Client) (msg : ClientMessage) : Client :=
  { client with outbox := client.outbox ++ [msg] }

/-! ## Requests -/

/-- `parse_chess_coordinate_network`. -/
def parse_chess_coordinate_network (coord : CString) : Option (Int × Int) :=
  match coord with
  | [file, rank] =>
    if file < 'a' || file > 'h' || rank < '1' || rank > '8' then none
    else some ((file.toNat : Int) - 97, (rank.toNat : Int) - 49)
  | _ => none

/-- `send_move_request`; the flag is the result 0. -/
def send_move_request (client : Client) (env : KeyEnv) (src dst : CString) : Client × Bool :=
  if !client.connected then (client.chat "System" "Cannot send move: not connected", false)
  else if (parse_chess_coordinate_network src).isNone then
    (client.chat "System" "Invalid source coordinate", false)
  else if (parse_chess_coordinate_network dst).isNone then
    (client.chat "System" "Invalid destination coordinate", false)
  else if !env.send then (client.chat "System" "Failed to send move request", false)
  else (client.post (.move { from_coord := src, to_coord := dst }), true)

/-- `send_chat_message`. -/
def send_chat_message (client : Client) (env : KeyEnv) (message : CString) : Client :=
  if !client.connected then client.chat "System" "Cannot send message: not connected"
  else if message = [] || !env.send then client
  else client.post (.chat message)

/-- `send_resign_request`; the flag is the result 0. -/
def send_resign_request (client : Client) (env : KeyEnv) : Client × Bool :=
  if !client.connected then (client, false)
  else if !env.send then (client.chat "System" "Failed to send resignation request", false)
  else (client.post (.resign client.state.username), true)

/-- `get_username_dialog`; the flag says whether a name was entered. -/
def get_username_dialog (client : Client) (input : CString) : Client × Bool :=
  if input.take 30 = [] then (client, false)
  else ({ client with state := { client.state with username := strncpy 32 (input.take 30) } }, true)

/-- `start_matching`. -/
def start_matching (client : Client) (env : KeyEnv) : Client :=
  let client := { client.goto .matching with match_start_time := env.time }
  if client.connected && env.send then client.post (.match_game client.state.username)
  else client.goto .main

/-- `cancel_matching`, as one step.  The source writes the screen after the
    send without a lock, so that a start message which the network thread
    handles in between can be overwritten as well. -/
def cancel_matching (client : Client) (env : KeyEnv) : Client :=
  let client :=
    if client.connected && env.send then client.post (.cancel_match client.state.username)
    else client
  client.goto .main

/-! ## The board -/

/-- The name of a square. -/
def coordinate (x y : Int) : CString :=
  [Char.ofNat (97 + x).toNat, Char.ofNat (49 + y).toNat]

/-- The square a displayed column and row show; a player sees the own men
    at the bottom. -/
def actual_square (client : Client) (col row : Int) : Int × Int :=
  if client.state.game_state.local_team = .black then (7 - col, row) else (col, 7 - row)

/-- `coord_to_board_pos`. -/
def coord_to_board_pos (client : Client) (screen_x screen_y : Int) : Option (Int × Int) :=
  let chess_rel_x := screen_x - 2 - board_label_x
  let chess_rel_y := screen_y - 2 - 2
  if chess_rel_x < 0 ∨ chess_rel_y < 0 then none
  else if chess_rel_x ≥ square_w * board_size ∨ chess_rel_y ≥ square_h * board_size then none
  else some (client.actual_square (chess_rel_x / square_w) (chess_rel_y / square_h))

/-- `handle_board_click`. -/
def handle_board_click (client : Client) (env : KeyEnv) (board_x board_y : Int) : Client :=
  let game := client.state.game_state.game
  let local_team := client.state.game_state.local_team
  if !client.piece_selected then
    -- the first click: a man of the own team, at the own turn
    let piece := game.board.get board_y board_x
    if piece.piece.isSome && !piece.is_dead then
      if game.side_to_move ≠ local_team then
        client.chat "System" ("Not your turn! Current: " ++
          if game.side_to_move = .white then "White" else "Black")
      else if piece.team ≠ local_team then client.chat "System" "That's not your piece!"
      else
        { client with selected_x := board_x, selected_y := board_y, piece_selected := true }.chat
          "System" "Piece selected. Click destination."
    else client
  else if board_x = client.selected_x ∧ board_y = client.selected_y then
    { client with piece_selected := false }.chat "System" "Selection cancelled."
  else if client.selected_x < 0 ∨ client.selected_x ≥ 8 ∨
      client.selected_y < 0 ∨ client.selected_y ≥ 8 then
    { client with piece_selected := false }.chat "System" "Invalid selection, cancelled."
  else
    let sent := client.send_move_request env (coordinate client.selected_x client.selected_y)
      (coordinate board_x board_y)
    -- a move that is not sent leaves the man selected
    if sent.2 then { sent.1 with piece_selected := false }
    else sent.1.chat "System" "Failed to send move request."

/-- `handle_mouse_input`. -/
def handle_mouse_input (client : Client) (env : KeyEnv) (x y : Int) (clicked : Bool) : Client :=
  if clicked && client.state.current_screen == .game then
    match client.coord_to_board_pos x y with
    | some (board_x, board_y) => client.handle_board_click env board_x board_y
    | none => client
  else client

/-- Arrow keys: the first one also shows the cursor, in the corner. -/
def move_cursor (client : Client) (dx dy : Int) : Client :=
  let client :=
    if client.cursor_mode then client
    else { client with cursor_mode := true, cursor_x := 0, cursor_y := 0 }
  -- at the border the cursor stays where it is
  let x := client.cursor_x + dx
  let y := client.cursor_y + dy
  { client with
    cursor_x := if 0 ≤ x ∧ x < board_size then x else client.cursor_x
    cursor_y := if 0 ≤ y ∧ y < board_size then y else client.cursor_y }

/-- `handle_keyboard_board_input`; the flag says whether the key is used
    up. -/
def handle_keyboard_board_input (client : Client) (env : KeyEnv) (ch : Key) : Client × Bool :=
  if client.state.current_screen ≠ .game then (client, false)
  else
    match ch with
    | .up => (client.move_cursor 0 (-1), true)
    | .down => (client.move_cursor 0 1, true)
    | .left => (client.move_cursor (-1) 0, true)
    | .right => (client.move_cursor 1 0, true)
    | .char c =>
      if c = ' ' ∨ c = '\n' ∨ c = '\r' then
        if client.cursor_mode then
          let square := client.actual_square client.cursor_x client.cursor_y
          (client.handle_board_click env square.1 square.2, true)
        else (client, false)
      else if c = esc then
        if client.piece_selected then ({ client with piece_selected := false }, true)
        else if client.cursor_mode then ({ client with cursor_mode := false }, true)
        -- the escape key never reaches the menu
        else (client, true)
      else (client, false)
    | _ => (client, false)

/-! ## The chat line -/

/-- `enable_chat_input`. -/
def enable_chat_input (client : Client) : Client :=
  { client with chat_input_mode := true, chat_input_buffer := [] }

/-- `disable_chat_input`. -/
def disable_chat_input (client : Client) : Client :=
  { client with chat_input_mode := false, chat_input_buffer := [] }

/-- `handle_chess_notation`. -/
def handle_chess_notation (client : Client) (env : KeyEnv) (notation_text : CString) : Client :=
  if client.state.current_screen ≠ .game then client
  else
    match notation_text with
    | [sx, sy, dx, dy] =>
      let from_x : Int := sx.toNat - 97
      let from_y : Int := sy.toNat - 49
      let to_x : Int := dx.toNat - 97
      let to_y : Int := dy.toNat - 49
      let game := client.state.game_state.game
      let piece := game.board.get from_y from_x
      if from_x < 0 ∨ from_x ≥ 8 ∨ from_y < 0 ∨ from_y ≥ 8 ∨
          to_x < 0 ∨ to_x ≥ 8 ∨ to_y < 0 ∨ to_y ≥ 8 then
        client.chat "System" "Invalid coordinates"
      else if piece.piece.isNone || piece.is_dead then
        client.chat "System" "No piece at source position"
      else if game.side_to_move ≠ client.state.game_state.local_team then
        client.chat "System" "Not your turn!"
      else
        let sent := client.send_move_request env [sx, sy] [dx, dy]
        if sent.2 then sent.1 else sent.1.chat "System" "Failed to send move request."
    | _ => client.chat "System" "Use format: e2e4 (from-to)"

/-- `handle_chat_input`. -/
def handle_chat_input (client : Client) (env : KeyEnv) (ch : Key) : Client :=
  if !client.chat_input_mode then client
  else
    match ch with
    | .backspace => { client with chat_input_buffer := client.chat_input_buffer.dropLast }
    | .char c =>
      if c = '\n' ∨ c = '\r' then
        let client :=
          if client.chat_input_buffer = [] then client
          -- a move can be typed as well
          else if client.chat_input_buffer.take 5 = "move:".toList then
            client.handle_chess_notation env
              ((client.chat_input_buffer.drop 5).dropWhile fun c => c == ' ')
          else client.send_chat_message env client.chat_input_buffer
        client.disable_chat_input
      else if c = esc then client.disable_chat_input
      else if c.toNat = 8 ∨ c.toNat = 127 then
        { client with chat_input_buffer := client.chat_input_buffer.dropLast }
      else if 32 ≤ c.toNat ∧ c.toNat ≤ 126 ∧ client.chat_input_buffer.length < 255 then
        { client with chat_input_buffer := client.chat_input_buffer ++ [c] }
      else client
    | _ => client

/-! ## Dialogs -/

/-- `handle_resign_dialog_input`. -/
def handle_resign_dialog_input (client : Client) (env : KeyEnv) (ch : Key) : Client :=
  match ch with
  | .char c =>
    if c = 'y' ∨ c = 'Y' then
      let sent := { client with resign_dialog_active := false }.send_resign_request env
      if sent.2 then sent.1.chat "System" "Resignation request sent."
      else sent.1.chat "System" "Failed to send resignation request."
    else if c = 'n' ∨ c = 'N' ∨ c = esc then { client with resign_dialog_active := false }
    else client
  | _ => client

/-- `draw_dialog`, whose `newwin` is taken to succeed; flag and text are set
    in one step. -/
def draw_dialog (client : Client) (title message : CString) : Client :=
  { client with
    state := { client.state with dialog_active := true }
    drawn := client.drawn ++ [(title, message)] }

/-- What the main loop does when the user acknowledges a dialog. -/
def acknowledge_dialog (client : Client) : Client :=
  let client := { client with state := { client.state with dialog_active := false } }
  -- which dialog was open is not known: the first flag that is set goes
  if client.connection_lost then { client with connection_lost := false }.goto .main
  else if client.state.game_state.opponent_disconnected then
    { client with
      state := { client.state with
        game_state := { client.state.game_state with opponent_disconnected := false } } }.goto .main
  else client.goto .main

/-- The dialogs the main loop shows at the end of a turn. -/
def show_pending_dialog (client : Client) : Client :=
  if client.state.dialog_active then client
  -- the flags of the first and the third dialog stay until the user answers
  else if client.connection_lost then
    client.draw_dialog "Connection Lost".toList client.disconnect_message
  else if client.state.resign_result_dialog_pending then
    { client with state := { client.state with resign_result_dialog_pending := false } }.draw_dialog
      client.state.resign_result_title client.state.resign_result_message
  else if client.state.game_state.opponent_disconnected then
    client.draw_dialog "Opponent Disconnected".toList
      client.state.game_state.opponent_disconnect_message
  else if client.state.game_end_dialog_pending then
    { client with state := { client.state with game_end_dialog_pending := false } }.draw_dialog
      "Game Over".toList client.state.game_end_message
  else client

/-! ## The game goes on

    No key but the one that opens a replay changes the game itself: a move
    is only asked for. -/

/-- The position, and the replay that shows it. -/
def shown (client : Client) : Game × Option ReplayState :=
  (client.state.game_state.game, client.replay)

/-- What the keys leave alone: the game but for the chat, the flag of a lost
    opponent and the result, and the replay. -/
def untouched (client : Client) : GameState × Option ReplayState :=
  ({ client.state.game_state with
      chat_messages := []
      opponent_disconnected := false
      pgn_result := [] }, client.replay)

theorem shown_of_untouched {client client' : Client} (h : client'.untouched = client.untouched) :
    client'.shown = client.shown :=
  congrArg (fun u : GameState × Option ReplayState => (u.1.game, u.2)) h

/-- The client without what the handlers of the board and of the chat line
    write. -/
def beyond_input (client : Client) : Client :=
  { client with
    state := { client.state with
      game_state := { client.state.game_state with chat_messages := [] } }
    selected_x := -1
    selected_y := -1
    piece_selected := false
    chat_input_mode := false
    chat_input_buffer := []
    cursor_x := 0
    cursor_y := 0
    cursor_mode := false
    outbox := [] }

/-- The client without what the keys write while no dialog is open, a replay
    and the end of the program apart. -/
def beyond_keys (client : Client) : Client :=
  { client with
    state := { client.state with
      username := []
      current_screen := .main
      game_state := { client.state.game_state with chat_messages := [], pgn_result := [] }
      saved := [] }
    selected_x := -1
    selected_y := -1
    piece_selected := false
    chat_input_mode := false
    chat_input_buffer := []
    resign_dialog_active := false
    match_start_time := 0
    cursor_x := 0
    cursor_y := 0
    cursor_mode := false
    outbox := [] }

theorem beyond_keys_of_beyond_input {client client' : Client}
    (h : client'.beyond_input = client.beyond_input) :
    client'.beyond_keys = client.beyond_keys := by
  have hview := congrArg beyond_keys h
  exact hview

theorem untouched_of_beyond_keys {client client' : Client}
    (h : client'.beyond_keys = client.beyond_keys) : client'.untouched = client.untouched := by
  have hview := congrArg untouched h
  exact hview

variable {client : Client} {env : KeyEnv}

theorem save_beyond_keys (files : FileEnv) :
    { client with state := client.state.save files }.beyond_keys = client.beyond_keys := by
  obtain ⟨_, _, hsave⟩ := save_eq client.state files
  rw [hsave]
  rfl

theorem send_move_request_beyond_input (src dst : CString) :
    (client.send_move_request env src dst).1.beyond_input = client.beyond_input := by
  unfold send_move_request
  repeat' split
  all_goals rfl

theorem send_chat_message_beyond_input (message : CString) :
    (client.send_chat_message env message).beyond_input = client.beyond_input := by
  unfold send_chat_message
  repeat' split
  all_goals rfl

theorem send_resign_request_beyond_input :
    (client.send_resign_request env).1.beyond_input = client.beyond_input := by
  unfold send_resign_request
  repeat' split
  all_goals rfl

theorem get_username_dialog_beyond_keys (input : CString) :
    (client.get_username_dialog input).1.beyond_keys = client.beyond_keys := by
  unfold get_username_dialog
  split <;> rfl

theorem start_matching_beyond_keys :
    (client.start_matching env).beyond_keys = client.beyond_keys := by
  unfold start_matching
  simp only
  split <;> rfl

theorem cancel_matching_beyond_keys :
    (client.cancel_matching env).beyond_keys = client.beyond_keys := by
  unfold cancel_matching
  simp only
  split <;> rfl

theorem handle_board_click_beyond_input (board_x board_y : Int) :
    (client.handle_board_click env board_x board_y).beyond_input = client.beyond_input := by
  unfold handle_board_click
  simp only
  split
  · -- nothing is selected
    repeat' split
    all_goals rfl
  · split
    · rfl
    · split
      · rfl
      · split
        · exact send_move_request_beyond_input ..
        · exact send_move_request_beyond_input ..

theorem handle_mouse_input_beyond_input (x y : Int) (clicked : Bool) :
    (client.handle_mouse_input env x y clicked).beyond_input = client.beyond_input := by
  unfold handle_mouse_input
  split
  · split
    · exact handle_board_click_beyond_input ..
    · rfl
  · rfl

theorem move_cursor_beyond_input (dx dy : Int) :
    (client.move_cursor dx dy).beyond_input = client.beyond_input := by
  unfold move_cursor
  simp only
  split <;> rfl

theorem handle_keyboard_board_input_beyond_input (ch : Key) :
    (client.handle_keyboard_board_input env ch).1.beyond_input = client.beyond_input := by
  unfold handle_keyboard_board_input
  split
  · rfl
  · split
    · exact move_cursor_beyond_input ..
    · exact move_cursor_beyond_input ..
    · exact move_cursor_beyond_input ..
    · exact move_cursor_beyond_input ..
    · split
      · split
        · exact handle_board_click_beyond_input ..
        · rfl
      · repeat' split
        all_goals rfl
    · rfl

theorem handle_chess_notation_beyond_input (notation_text : CString) :
    (client.handle_chess_notation env notation_text).beyond_input = client.beyond_input := by
  unfold handle_chess_notation
  split
  · rfl
  · split
    · simp only
      split
      · rfl
      · split
        · rfl
        · split
          · rfl
          · split
            · exact send_move_request_beyond_input ..
            · exact send_move_request_beyond_input ..
    · rfl

theorem handle_chat_input_beyond_input (ch : Key) :
    (client.handle_chat_input env ch).beyond_input = client.beyond_input := by
  unfold handle_chat_input
  split
  · rfl
  · split
    · rfl
    · split
      · -- the line is sent
        simp only
        show Client.beyond_input (if _ then _ else _) = _
        split
        · rfl
        · split
          · exact handle_chess_notation_beyond_input _
          · exact send_chat_message_beyond_input _
      · repeat' split
        all_goals rfl
    · rfl

theorem handle_resign_dialog_input_beyond_keys (ch : Key) :
    (client.handle_resign_dialog_input env ch).beyond_keys = client.beyond_keys := by
  have hsent :
      ({ client with resign_dialog_active := false }.send_resign_request env).1.beyond_keys =
      client.beyond_keys :=
    (beyond_keys_of_beyond_input (send_resign_request_beyond_input)).trans rfl
  unfold handle_resign_dialog_input
  split
  · split
    · simp only
      split
      · exact hsent
      · exact hsent
    · split <;> rfl
  · rfl

@[simp] theorem acknowledge_dialog_untouched :
    client.acknowledge_dialog.untouched = client.untouched := by
  unfold acknowledge_dialog
  simp only
  repeat' split
  all_goals rfl

@[simp] theorem show_pending_dialog_untouched :
    client.show_pending_dialog.untouched = client.untouched := by
  unfold show_pending_dialog
  repeat' split
  all_goals rfl

end Client

end MultiplayChess
