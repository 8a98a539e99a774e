import MultiplayChess.Client.Screens
import MultiplayChess.Framework.System

/-! # Sessions

    The client as a transition system: the network thread handles messages
    and loses the connection at any time, the main thread handles keys,
    shows dialogs and counts the clocks down, or runs a replay.  The steps
    of the two threads interleave freely; what one turn of a loop does
    between two looks at the shared state is one step. -/

namespace MultiplayChess

open LTS

/-! ## The replay loop -/

namespace Client

/-- `start_replay` up to its loop. -/
def start_replay (client : Client) (file : Option CString) : Client :=
  let moves := load_moves file
  if moves = [] then client
  else
    { client with
      state := { client.state with
        game_state := { client.state.game_state with
          game := reset_game_to_starting_position client.state.game_state.game } }
      replay := some
        { moves := moves, current_move := -1, auto_play := false, last_auto_play_time := ⟨0, 0⟩ } }

/-- Go to another move: the position is built again.  This is one step; a
    message that the network thread handles while `replay_to_move` is under
    way comes before or after it. -/
def show_move (client : Client) (replay : ReplayState) (target_move : Int) : Client :=
  { client with
    state := { client.state with
      game_state := { client.state.game_state with
        game := replay_to_move replay target_move client.state.game_state.game } }
    replay := some { replay with current_move := target_move } }

/-- The automatic step at the beginning of a turn of the replay loop; `now`
    and `later` are the two readings of the clock. -/
def auto_play (client : Client) (replay : ReplayState) (now later : Timeval) : Client :=
  if replay.auto_play && replay.current_move < replay.moves.length - 1 &&
      time_diff_ms replay.last_auto_play_time now ≥ 500 then
    client.show_move { replay with last_auto_play_time := later } (replay.current_move + 1)
  else client

/-- The key leaves the replay. -/
def leaves_replay (ch : Key) : Bool :=
  ch = .char 'q' || ch = .char 'Q' || ch = .char esc

/-- The key handling of the replay loop. -/
def handle_replay_key (client : Client) (replay : ReplayState) (now : Timeval)
    (ch : Key) : Client :=
  if leaves_replay ch then { client with replay := none }
  else if ch = .up ∧ replay.current_move ≥ 0 then
    client.show_move { replay with auto_play := false } (replay.current_move - 1)
  else if (ch = .down ∨ ch = .char '\n') ∧ replay.current_move < replay.moves.length - 1 then
    client.show_move { replay with auto_play := false } (replay.current_move + 1)
  else if ch = .char ' ' then
    { client with replay := some { replay with
        auto_play := !replay.auto_play
        last_auto_play_time := if replay.auto_play then replay.last_auto_play_time else now } }
  else client

/-! ## The main loop -/

/-- The keys of the main screen; without a result the program ends. -/
def handle_main_key (client : Client) (env : KeyEnv) (ch : Key) : Option Client :=
  match ch with
  | .char '1' =>
    let named := client.get_username_dialog env.username
    -- an empty name leaves the screen as it is
    some (if named.2 then named.1.start_matching env else named.1)
  | .char '2' =>
    -- the list of files can be left without a choice
    match env.file with
    | some file => some (client.start_replay file)
    | none => some client
  | .char '3' => none
  | .char 'q' => none
  | .char 'Q' => none
  | _ => some client

/-- The keys of the matching screen. -/
def handle_matching_key (client : Client) (env : KeyEnv) (ch : Key) : Client :=
  if ch = .char esc ∨ ch = .char 'c' ∨ ch = .char 'C' then client.cancel_matching env else client

/-- The keys of the game screen the board has not used up. -/
def handle_game_menu_key (client : Client) (env : KeyEnv) (ch : Key) : Client :=
  -- these keys come before the chat line
  match ch with
  | .char '1' => if client.resign_dialog_active then client
    else { client with resign_dialog_active := true }
  | .char '2' =>
    { client with state := client.state.chat client.state.username "offers a draw.".toList }
  | .char '3' => { client with state := client.state.save env.files }
  | .char '4' => client.goto .main
  | .char 'q' => client.goto .main
  | .char 'Q' => client.goto .main
  | ch =>
    if ch = .char esc then if client.chat_input_mode then client.disable_chat_input else client
    else if ch = .char '\n' ∨ ch = .char '\r' then
      if client.chat_input_mode then client.handle_chat_input env ch
      else if client.cursor_mode then client
      else client.enable_chat_input
    else if client.chat_input_mode then client.handle_chat_input env ch
    else client

/-- The keys of the game screen. -/
def handle_game_key (client : Client) (env : KeyEnv) (ch : Key) : Client :=
  -- the prompt to resign, then the chat line, then the board
  if client.resign_dialog_active then client.handle_resign_dialog_input env ch
  else if client.chat_input_mode then client.handle_game_menu_key env ch
  else
    let board := client.handle_keyboard_board_input env ch
    if board.2 then board.1 else board.1.handle_game_menu_key env ch

/-- The input handling of the main loop; without a result the program
    ends. -/
def handle_key (client : Client) (env : KeyEnv) (ch : Key) : Option Client :=
  if client.state.dialog_active then
    -- while a dialog is open all other keys are lost
    if ch = .char '\n' ∨ ch = .char '\r' ∨ ch = .char ' ' then some client.acknowledge_dialog
    else some client
  else
    match ch with
    | .mouse x y clicked => some (client.handle_mouse_input env x y clicked)
    | ch =>
      match client.state.current_screen with
      | .main => client.handle_main_key env ch
      | .matching => some (client.handle_matching_key env ch)
      | .game => some (client.handle_game_key env ch)

/-- `update_game_timer`. -/
def update_game_timer (state : GameState) (now : Int) : GameState :=
  if !state.game_in_progress then state
  else if state.last_timer_update = 0 then { state with last_timer_update := now }
  else if now - state.last_timer_update < 1 then state
  else if state.game.side_to_move = .white then
    { state with
      white_time_remaining :=
        max 0 (state.white_time_remaining - to_int32 (now - state.last_timer_update))
      last_timer_update := now }
  else
    { state with
      black_time_remaining :=
        max 0 (state.black_time_remaining - to_int32 (now - state.last_timer_update))
      last_timer_update := now }

/-! ## The network thread -/

/-- A message arrives. -/
def receive (client : Client) (env : ClientEnv) (msg : ServerMessage) : Client :=
  { client with state := dispatch_server_message client.state env msg }

/-- `receive_server_message` returns null.  The text and the flags are set
    in one step. -/
def lose_connection (client : Client) : Client :=
  let client := { client with connected := false }
  if client.state.current_screen = .game then
    { client with
      connection_lost := true
      disconnect_message := "Connection lost".toList
      state := { client.state with screen_update_requested := true } }
  else client

/-- `start_reconnect` after `connect` has succeeded: a ping that cannot be
    sent closes the socket again. -/
def reconnect (client : Client) (send : Bool) : Client :=
  if send then { client with connected := true }.post (.ping "Reconnection ping".toList)
  else { client with connected := false }

/-- The key closes an open dialog. -/
def closes_dialog (ch : Key) : Bool :=
  ch = .char '\n' || ch = .char '\r' || ch = .char ' '

theorem closes_dialog_iff {ch : Key} : closes_dialog ch = true ↔
    ch = .char '\n' ∨ ch = .char '\r' ∨ ch = .char ' ' := by
  simp [closes_dialog, or_assoc]

/-! ## Who changes the game

    A message, the menu that opens a replay, and the replay itself. -/

/-- The client without the position and the replay that shows it. -/
def beyond_replay (client : Client) : Client :=
  { client with
    state := { client.state with game_state := { client.state.game_state with game := .zero } }
    replay := none }

section shown

variable {client client' : Client} {env : KeyEnv} {ch : Key} {replay : ReplayState}

/-- A replay opens at the start position, before its first move. -/
def Opened (client' : Client) : Prop :=
  ∃ replay : ReplayState, replay.current_move = -1 ∧
    client'.shown = (init_startpos .zero, some replay)

/-- The replay goes on: it shows the position of its current move, or
    leaves index and position alone. -/
def Continued (client : Client) (replay : ReplayState) (client' : Client) : Prop :=
  ∃ replay' : ReplayState, client'.replay = some replay' ∧ replay'.moves = replay.moves ∧
    (client'.state.game_state.game = position_at replay'.moves replay'.current_move ∨
      client'.state.game_state.game = client.state.game_state.game ∧
        replay'.current_move = replay.current_move)

/-- A replay opens on the board of the game; nothing else of it is
    touched. -/
def Opens (client client' : Client) : Prop :=
  ∃ replay : ReplayState, replay.current_move = -1 ∧
    client'.untouched = ({ client.untouched.1 with game := init_startpos .zero }, some replay)

theorem Opens.opened (h : Opens client client') : Opened client' := by
  obtain ⟨replay, hstart, huntouched⟩ := h
  exact ⟨replay, hstart,
    congrArg (fun u : GameState × Option ReplayState => (u.1.game, u.2)) huntouched⟩

theorem start_replay_untouched (file : Option CString) :
    (client.start_replay file).untouched = client.untouched ∨
      Opens client (client.start_replay file) := by
  unfold start_replay
  simp only
  split
  · exact .inl rfl
  · exact .inr ⟨_, rfl, rfl⟩

theorem start_replay_beyond_replay (file : Option CString) :
    (client.start_replay file).beyond_replay = client.beyond_replay := by
  unfold start_replay
  simp only
  split <;> rfl

theorem auto_play_beyond_replay (now later : Timeval) :
    (client.auto_play replay now later).beyond_replay = client.beyond_replay := by
  unfold auto_play
  split <;> rfl

theorem handle_replay_key_beyond_replay (now : Timeval) :
    (client.handle_replay_key replay now ch).beyond_replay = client.beyond_replay := by
  unfold handle_replay_key
  repeat' split
  all_goals rfl

theorem handle_main_key_beyond_keys (h : client.handle_main_key env ch = some client') :
    client'.beyond_keys = client.beyond_keys ∨ ∃ file, client' = client.start_replay file := by
  unfold handle_main_key at h
  split at h
  · -- the name is entered, and the search begins
    cases h
    apply Or.inl
    split
    · exact start_matching_beyond_keys.trans (get_username_dialog_beyond_keys _)
    · exact get_username_dialog_beyond_keys _
  · split at h
    · cases h
      exact .inr ⟨_, rfl⟩
    · cases h
      exact .inl rfl
  · cases h
  · cases h
  · cases h
  · cases h
    exact .inl rfl

theorem handle_matching_key_beyond_keys :
    (client.handle_matching_key env ch).beyond_keys = client.beyond_keys := by
  unfold handle_matching_key
  split
  · exact cancel_matching_beyond_keys
  · rfl

theorem handle_game_menu_key_beyond_keys :
    (client.handle_game_menu_key env ch).beyond_keys = client.beyond_keys := by
  unfold handle_game_menu_key
  split
  · split <;> rfl
  · rfl
  · exact save_beyond_keys _
  · rfl
  · rfl
  · rfl
  · -- the chat line
    split
    · split <;> rfl
    · split
      · split
        · exact beyond_keys_of_beyond_input (handle_chat_input_beyond_input _)
        · split <;> rfl
      · split
        · exact beyond_keys_of_beyond_input (handle_chat_input_beyond_input _)
        · rfl

theorem handle_game_key_beyond_keys :
    (client.handle_game_key env ch).beyond_keys = client.beyond_keys := by
  unfold handle_game_key
  split
  · exact handle_resign_dialog_input_beyond_keys _
  · split
    · exact handle_game_menu_key_beyond_keys
    · simp only
      split
      · exact beyond_keys_of_beyond_input (handle_keyboard_board_input_beyond_input _)
      · exact handle_game_menu_key_beyond_keys.trans
          (beyond_keys_of_beyond_input (handle_keyboard_board_input_beyond_input _))

/-- What `handle_key` does: the user acknowledges a dialog, opens a replay, or
    stays within what the keys write. -/
theorem handle_key_cases (h : client.handle_key env ch = some client') :
    client.state.dialog_active = true ∧ closes_dialog ch = true ∧
        client' = client.acknowledge_dialog ∨
      (∃ file, client' = client.start_replay file) ∨
      client'.beyond_keys = client.beyond_keys := by
  unfold handle_key at h
  split at h
  · rename_i hactive
    split at h
    · rename_i hcloses
      cases h
      exact .inl ⟨hactive, closes_dialog_iff.mpr hcloses, rfl⟩
    · cases h
      exact .inr (.inr rfl)
  · apply Or.inr
    split at h
    · cases h
      exact .inr (beyond_keys_of_beyond_input (handle_mouse_input_beyond_input ..))
    · split at h
      · exact (handle_main_key_beyond_keys h).symm
      · cases h
        exact .inr handle_matching_key_beyond_keys
      · cases h
        exact .inr handle_game_key_beyond_keys

/-- **A key** leaves the game alone, unless it opens a replay. -/
theorem handle_key_untouched (h : client.handle_key env ch = some client') :
    client'.untouched = client.untouched ∨ Opens client client' := by
  rcases handle_key_cases h with ⟨_, _, rfl⟩ | ⟨file, rfl⟩ | hbeyond
  · exact .inl acknowledge_dialog_untouched
  · exact start_replay_untouched file
  · exact .inl (untouched_of_beyond_keys hbeyond)

/-- **A message** changes the position by its news and never the replay. -/
theorem receive_shown (env : ClientEnv) (msg : ServerMessage) :
    (client.receive env msg).shown =
      (Replica.follow client_step client.state.game_state.game (news_of msg).toList,
        client.replay) := by
  show (_, _) = (_, _)
  rw [← dispatch_game client.state env msg]
  rfl

@[simp] theorem lose_connection_untouched :
    client.lose_connection.untouched = client.untouched := by
  unfold lose_connection
  simp only
  split <;> rfl

@[simp] theorem reconnect_untouched (send : Bool) :
    (client.reconnect send).untouched = client.untouched := by
  unfold reconnect
  split <;> rfl

/-- The timer writes the clocks only. -/
theorem update_game_timer_eq (state : GameState) (now : Int) :
    ∃ white black update, update_game_timer state now =
      { state with
        white_time_remaining := white
        black_time_remaining := black
        last_timer_update := update } := by
  unfold update_game_timer
  repeat' split
  all_goals exact ⟨_, _, _, rfl⟩

@[simp] theorem update_game_timer_game (state : GameState) (now : Int) :
    (update_game_timer state now).game = state.game := by
  obtain ⟨_, _, _, htimer⟩ := update_game_timer_eq state now
  rw [htimer]

@[simp] theorem update_game_timer_in_progress (state : GameState) (now : Int) :
    (update_game_timer state now).game_in_progress = state.game_in_progress := by
  obtain ⟨_, _, _, htimer⟩ := update_game_timer_eq state now
  rw [htimer]

/-- Out of a game the clocks stand still. -/
theorem update_game_timer_stopped {state : GameState} (h : state.game_in_progress = false)
    (now : Int) : update_game_timer state now = state := by
  unfold update_game_timer
  rw [h]
  rfl

theorem Continued.refl (h : client.replay = some replay) : Continued client replay client :=
  ⟨replay, h, rfl, .inr ⟨rfl, rfl⟩⟩

theorem show_move_continued {replay' : ReplayState} (hmoves : replay'.moves = replay.moves)
    (k : Int) : Continued client replay (client.show_move replay' k) :=
  ⟨_, rfl, hmoves, .inl (replay_to_move_eq _ _ _)⟩

theorem auto_play_continued (h : client.replay = some replay) (now later : Timeval) :
    Continued client replay (client.auto_play replay now later) := by
  unfold auto_play
  split
  · apply show_move_continued
    rfl
  · exact .refl h

/-- **A key of the replay** leaves it, or the replay goes on. -/
theorem handle_replay_key_continued (h : client.replay = some replay)
    (hstays : leaves_replay ch = false) (now : Timeval) :
    Continued client replay (client.handle_replay_key replay now ch) := by
  unfold handle_replay_key
  rw [if_neg (by rw [hstays]; exact Bool.false_ne_true)]
  split
  · exact show_move_continued rfl _
  · split
    · exact show_move_continued rfl _
    · split
      · -- the automatic steps start or stop; the move stays
        exact ⟨_, rfl, rfl, .inr ⟨rfl, rfl⟩⟩
      · exact .refl h

end shown

end Client

/-! ## The system -/

/-- What happens to a client. -/
inductive ClientEvent where
  /-- The network thread receives a message. -/
  | message (env : ClientEnv) (msg : ServerMessage)
  /-- The network thread finds the connection closed. -/
  | lost
  /-- The network thread has connected again. -/
  | connected (send : Bool)
  /-- The main loop handles a key. -/
  | key (env : KeyEnv) (ch : Key)
  /-- The main loop shows a dialog that is due. -/
  | dialog
  /-- The main loop counts down the clocks; the game screen it has seen at the
      beginning of its turn may have gone since. -/
  | timer (now : Int)
  /-- The terminal has changed its size, possibly below the minimum. -/
  | resize (too_small : Bool)
  /-- The replay loop moves on by itself. -/
  | auto_play (now later : Timeval)
  /-- The replay loop handles a key. -/
  | replay_key (now : Timeval) (ch : Key)

/-- One step.  The main loop stands still while a replay runs. -/
def Client.step (client : Client) : ClientEvent → Option Client
  | .message env msg => some (client.receive env msg)
  | .lost => some client.lose_connection
  | .connected send => some (client.reconnect send)
  | .key env ch =>
    match client.replay with
    | none => client.handle_key env ch
    | some _ => none
  | .dialog =>
    match client.replay with
    | none => some client.show_pending_dialog
    | some _ => none
  | .timer now =>
    match client.replay with
    | none =>
      some { client with state := { client.state with
        game_state := Client.update_game_timer client.state.game_state now } }
    | some _ => none
  | .resize too_small =>
    match client.replay with
    | none =>
      some { client with state := { client.state with
        dialog_active := client.state.dialog_active || too_small } }
    | some _ => none
  | .auto_play now later =>
    match client.replay with
    | none => none
    | some replay => some (client.auto_play replay now later)
  | .replay_key now ch =>
    match client.replay with
    | none => none
    | some replay => some (client.handle_replay_key replay now ch)

/-! ### The steps of the two loops -/

section loops

variable {client client' : Client}

theorem step_key {env : KeyEnv} {ch : Key} : client.step (.key env ch) = some client' ↔
    client.replay = none ∧ client.handle_key env ch = some client' := by
  unfold Client.step
  cases client.replay with
  | none => simp
  | some replay => simp

theorem step_dialog : client.step .dialog = some client' ↔
    client.replay = none ∧ client.show_pending_dialog = client' := by
  unfold Client.step
  cases client.replay with
  | none => simp
  | some replay => simp

theorem step_timer {now : Int} : client.step (.timer now) = some client' ↔
    client.replay = none ∧ { client with state := { client.state with
      game_state := Client.update_game_timer client.state.game_state now } } = client' := by
  unfold Client.step
  cases client.replay with
  | none => simp
  | some replay => simp

theorem step_resize {too_small : Bool} : client.step (.resize too_small) = some client' ↔
    client.replay = none ∧ { client with state := { client.state with
      dialog_active := client.state.dialog_active || too_small } } = client' := by
  unfold Client.step
  cases client.replay with
  | none => simp
  | some replay => simp

theorem step_auto_play {now later : Timeval} :
    client.step (.auto_play now later) = some client' ↔
      ∃ replay, client.replay = some replay ∧ client.auto_play replay now later = client' := by
  unfold Client.step
  cases client.replay with
  | none => simp
  | some replay => simp

theorem step_replay_key {now : Timeval} {ch : Key} :
    client.step (.replay_key now ch) = some client' ↔
      ∃ replay, client.replay = some replay ∧
        client.handle_replay_key replay now ch = client' := by
  unfold Client.step
  cases client.replay with
  | none => simp
  | some replay => simp

end loops

/-- The client, from its start. -/
def session : System Client ClientEvent where
  init client := client = init_client
  step client e client' := client.step e = some client'

/-- A successful execution of a list of events is a run. -/
theorem session_run {es : List ClientEvent} {client client' : Client}
    (h : es.foldlM Client.step client = some client') : Run session client es client' :=
  foldlM_run (fun _ _ _ hstep => hstep) h

end MultiplayChess
