import MultiplayChess.Client.State
import MultiplayChess.Framework.Replica
import MultiplayChess.Common.Games

/-! # The message handlers of the client

    `client/handlers/`: what the network thread does with each message of
    the server.  An unpacked message carries the submessage of its case and
    its strings are never null. -/

namespace MultiplayChess

open Replica

/-! ## Handlers -/

/-- The time limit the client assumes if the server names none. -/
def default_client_time : Int := 600

def handle_match_game_response (client : ClientState) (env : ClientEnv)
    (res : MatchGameResponse) : ClientState :=
  if res.success then
    -- without a team the player is only queued
    if res.assigned_team = .unspecified then client
    else
      let client := client.chat "System".toList "Match found! Game starting...".toList
      let local_team : Team := if res.assigned_team = .black then .black else .white
      let white_time :=
        if res.time_limit_per_player > 0 then res.white_time_remaining else default_client_time
      let black_time :=
        if res.time_limit_per_player > 0 then res.black_time_remaining else default_client_time
      -- a server without a start time leaves it to the own clock
      let start := res.game_start_time.getD (env.time 1)
      { client with
        current_screen := .game
        screen_update_requested := true
        game_state :=
          { client.game_state with
            opponent_player := strncpy max_player_name_length res.opponent_name
            local_player := strncpy max_player_name_length client.username
            local_team := local_team
            game_in_progress := true
            game :=
              { reset_game_for_player (init_game client.game_state.game) local_team with
                side_to_move := .white }
            white_time_remaining := white_time
            black_time_remaining := black_time
            game_start_time := start
            last_timer_update := start
            white_time_at_last_sync := white_time
            black_time_at_last_sync := black_time
            pgn_moves := []
            pgn_result := "*".toList } }
  else { client.chat "System".toList res.message with current_screen := .main }

def handle_move_response (client : ClientState) (res : MoveResponse) : ClientState :=
  if res.success then { client with screen_update_requested := true }
  else client.chat "System".toList (snprintf 256 ("Move failed: ".toList ++ res.message))

/-- The move as the PGN list records it. -/
def pgn_move (b : MoveBroadcast) : CString :=
  snprintf max_coord_str (b.from_coord ++ b.to_coord)

/-- Record a move, unless the list is full or the last entry is the same. -/
def record_move (state : GameState) (b : MoveBroadcast) : GameState :=
  if state.pgn_moves.length < max_pgn_moves then
    if state.pgn_moves.getLast? = some (pgn_move b) then state
    else { state with pgn_moves := state.pgn_moves ++ [pgn_move b] }
  else state

def update_check_flags (state : GameState) (b : MoveBroadcast) : GameState :=
  if b.is_check then
    match b.checked_team with
    | .white => { state with white_in_check := true, black_in_check := false }
    | .black => { state with white_in_check := false, black_in_check := true }
    | .unspecified => state
  else { state with white_in_check := false, black_in_check := false }

def sync_clocks (state : GameState) (env : ClientEnv) (b : MoveBroadcast) : GameState :=
  if b.white_time_remaining ≥ 0 ∧ b.black_time_remaining ≥ 0 then
    sync_timer_from_server state b.white_time_remaining b.black_time_remaining
      (b.move_timestamp.getD (env.time 0))
  else state

def winner_text : ProtoTeam → CString
  | .white => "White wins".toList
  | .black => "Black wins".toList
  | .unspecified => "Draw".toList

def end_type_text : GameEndType → CString
  | .checkmate => "checkmate".toList
  | .stalemate => "stalemate".toList
  | .draw => "draw".toList
  | .resign => "resignation".toList
  | .disconnect => "disconnection".toList
  | .timeout => "timeout".toList
  | .unknown => "unknown reason".toList

/-- The first half of `handle_move_broadcast`: the board and what is shown
    with it. -/
def apply_broadcast (client : ClientState) (env : ClientEnv) (b : MoveBroadcast) : ClientState :=
  let client := client.chat "Game".toList
    (snprintf 256 (b.player_id ++ " moved ".toList ++ b.from_coord ++ " -> ".toList ++ b.to_coord))
  let applied := apply_move_from_server client.game_state.game b.from_coord b.to_coord
  if applied.2 then
    let state := record_move { client.game_state with game := applied.1 } b
    { client with
      game_state := sync_clocks (update_check_flags state b) env b
      screen_update_requested := true }
  else
    client.chat "System".toList "Failed to update board state - invalid move coordinates".toList

/-- The second half: the end of the game. -/
def finish_game (client : ClientState) (env : ClientEnv) (b : MoveBroadcast) : ClientState :=
  let end_msg := snprintf 256 ("Game Over: ".toList ++ winner_text b.winner_team ++ " by ".toList ++
    end_type_text b.end_type)
  let client := (client.chat "Game".toList end_msg).save env.files
  { client with
    game_state := { client.game_state with game_in_progress := false }
    game_end_dialog_pending := true
    game_end_message := strncpy 256 end_msg
    screen_update_requested := true }

def handle_move_broadcast (client : ClientState) (env : ClientEnv) (b : MoveBroadcast) :
    ClientState :=
  let client := apply_broadcast client env b
  -- the end counts even where the move could not be played
  if b.game_ends then finish_game client env b else client

def handle_resign_response (client : ClientState) (res : ResignResponse) : ClientState :=
  if res.success then
    client.chat "System".toList "Resignation successful. Game will end shortly.".toList
  else client.chat "System".toList (snprintf 256 ("Resignation failed: ".toList ++ res.message))

def handle_resign_broadcast (client : ClientState) (env : ClientEnv) (b : ResignBroadcast) :
    ClientState :=
  let i_resigned : Bool := b.player_id == client.username
  let client := client.chat "System".toList
    (if i_resigned then "You resigned the game.".toList
      else "Opponent resigned the game. You win!".toList)
  let result :=
    if i_resigned then won_by client.game_state.local_team.other
    else won_by client.game_state.local_team
  let client :=
    -- saving works the result out again
    { client with game_state := { client.game_state with pgn_result := result } }.save env.files
  { client with
    game_state := { client.game_state with game_in_progress := false }
    resign_result_dialog_pending := true
    resign_result_title :=
      if i_resigned then "Game Over - Resignation".toList else "Game Over - Victory".toList
    resign_result_message :=
      if i_resigned then "You resigned the game.\nYou lose by resignation!".toList
      else "Opponent resigned the game.\nYou win by resignation!".toList
    screen_update_requested := true }

def end_reason : GameEndType → CString
  | .disconnect => "opponent disconnected".toList
  | .resign => "resignation".toList
  | .checkmate => "checkmate".toList
  | .stalemate => "stalemate".toList
  | .draw => "draw".toList
  | .timeout => "timeout".toList
  | .unknown => "unknown reason".toList

/-- The flag of a lost opponent also stands for any other end. -/
def handle_game_end_broadcast (client : ClientState) (b : GameEndBroadcast) : ClientState :=
  let winner := if b.winner_team = .white then "White".toList else "Black".toList
  let state :=
    { client.game_state with
      opponent_disconnect_message :=
        snprintf 256 ("Game ended by ".toList ++ end_reason b.end_type ++
        ".\n".toList ++ winner ++ " team wins the game!".toList)
      opponent_disconnected := true }
  { client with
    game_state := add_chat_message state "System".toList (snprintf 256
      ("Game ended by ".toList ++ end_reason b.end_type ++ ". ".toList ++ winner ++
        " team wins!".toList))
    screen_update_requested := true }

def handle_chat_broadcast (client : ClientState) (b : ChatBroadcast) : ClientState :=
  { client.chat b.player_id b.message with screen_update_requested := true }

def handle_cancel_match_response (client : ClientState) (res : CancelMatchResponse) : ClientState :=
  client.chat "System".toList
    (if res.success then "Matching cancelled successfully".toList else res.message)

def handle_echo_response (client : ClientState) (message : CString) : ClientState :=
  client.chat "Server".toList (snprintf 256 ("Echo: ".toList ++ message))

/-- The error is shown in the chat and in a dialog. -/
def handle_error_response (client : ClientState) (res : ErrorResponse) : ClientState :=
  { client.chat "System".toList (snprintf 256 ("Error: ".toList ++ res.message)) with
    dialog_active := true }

/-- `dispatch_server_message`. -/
def dispatch_server_message (client : ClientState) (env : ClientEnv) :
    ServerMessage → ClientState
  | .ping_res _ => client
  | .echo_res message => handle_echo_response client message
  | .match_game_res res => handle_match_game_response client env res
  | .cancel_match_res res => handle_cancel_match_response client res
  | .chat_broadcast b => handle_chat_broadcast client b
  | .game_end b => handle_game_end_broadcast client b
  | .error res => handle_error_response client res
  | .move_res res => handle_move_response client res
  | .move_broadcast b => handle_move_broadcast client env b
  | .resign_res res => handle_resign_response client res
  | .resign_broadcast b => handle_resign_broadcast client env b

/-- The loop of the network thread over the messages it receives. -/
def client_run (client : ClientState) (msgs : List (ClientEnv × ServerMessage)) : ClientState :=
  msgs.foldl (fun client m => dispatch_server_message client m.1 m.2) client

/-! ## The position of the client -/

/-- The message starts a game. -/
def starts_game : ServerMessage → Bool
  | .match_game_res res => res.success && res.assigned_team != .unspecified
  | _ => false

/-- What a message tells the client about the position: a start response
    resets it, a `MoveBroadcast` updates it. -/
def news_of : ServerMessage → Option (News Game (CString × CString))
  | .match_game_res res =>
    if starts_game (.match_game_res res) then some (.reset (init_startpos .zero)) else none
  | .move_broadcast b => some (.update (b.from_coord, b.to_coord))
  | _ => none

theorem starts_game_iff {res : MatchGameResponse} : starts_game (.match_game_res res) = true ↔
    res.success = true ∧ res.assigned_team ≠ .unspecified := by
  simp [starts_game]

theorem news_of_start {res : MatchGameResponse} (h : starts_game (.match_game_res res) = true) :
    news_of (.match_game_res res) = some (.reset (init_startpos .zero)) :=
  if_pos h

theorem news_of_no_start {res : MatchGameResponse}
    (h : ¬ starts_game (.match_game_res res) = true) : news_of (.match_game_res res) = none :=
  if_neg h

/-- Take in the coordinates of a move. -/
def client_step (G : Game) (u : CString × CString) : Game :=
  (apply_move_from_server G u.1 u.2).1

/-- Server and client set up the same position. -/
theorem client_start (G : Game) (team : Team) :
    { reset_game_for_player (init_game G) team with side_to_move := .white } =
      init_startpos .zero := rfl

@[simp] theorem chat_game (client : ClientState) (sender message : CString) :
    (client.chat sender message).game_state.game = client.game_state.game := rfl

/-- Saving writes the result and the file only. -/
theorem save_eq (client : ClientState) (files : FileEnv) :
    ∃ result saved, client.save files =
      { client with
        game_state := { client.game_state with pgn_result := result }
        saved := saved } := by
  unfold ClientState.save save_current_game
  split
  · exact ⟨_, _, rfl⟩
  · split <;> exact ⟨_, _, rfl⟩

@[simp] theorem save_game (client : ClientState) (files : FileEnv) :
    (client.save files).game_state.game = client.game_state.game := by
  obtain ⟨_, _, hsave⟩ := save_eq client files
  rw [hsave]

/-- The messages that leave a line in the chat at most, as far as the game
    goes. -/
def only_chats : ServerMessage → Bool
  | .match_game_res res => !starts_game (.match_game_res res)
  | .move_broadcast _ => false
  | .resign_broadcast _ => false
  | .game_end _ => false
  | _ => true

theorem starts_of_not_only_chats {res : MatchGameResponse}
    (h : ¬ only_chats (.match_game_res res) = true) : starts_game (.match_game_res res) = true := by
  by_contra hno_start
  exact h ((Bool.not_eq_true' _).mpr (Bool.eq_false_of_not_eq_true hno_start))

theorem news_of_only_chats {msg : ServerMessage} (h : only_chats msg = true) :
    news_of msg = none := by
  cases msg with
  | match_game_res res =>
    apply news_of_no_start
    rw [Bool.not_eq_true]
    exact (Bool.not_eq_true' _).mp h
  | move_broadcast b => cases h
  | _ => rfl

theorem dispatch_only_chats {msg : ServerMessage} (h : only_chats msg = true)
    (client : ClientState) (env : ClientEnv) :
    ∃ messages, (dispatch_server_message client env msg).game_state =
      { client.game_state with chat_messages := messages } := by
  cases msg with
  | match_game_res res =>
    have hno_start : ¬ starts_game (.match_game_res res) = true := by
      rw [Bool.not_eq_true]
      exact (Bool.not_eq_true' _).mp h
    show ∃ messages, (handle_match_game_response client env res).game_state = _
    unfold handle_match_game_response
    split
    · rename_i hsuccess
      rw [if_pos (by_contra fun hteam => hno_start (starts_game_iff.mpr ⟨hsuccess, hteam⟩))]
      exact ⟨_, rfl⟩
    · exact ⟨_, rfl⟩
  | move_res res =>
    show ∃ messages, (handle_move_response client res).game_state = _
    unfold handle_move_response
    split <;> exact ⟨_, rfl⟩
  | resign_res res =>
    show ∃ messages, (handle_resign_response client res).game_state = _
    unfold handle_resign_response
    split <;> exact ⟨_, rfl⟩
  | move_broadcast b => cases h
  | resign_broadcast b => cases h
  | game_end b => cases h
  | ping_res message => exact ⟨_, rfl⟩
  | echo_res message => exact ⟨_, rfl⟩
  | cancel_match_res res => exact ⟨_, rfl⟩
  | chat_broadcast b => exact ⟨_, rfl⟩
  | error res => exact ⟨_, rfl⟩

/-- Only the list of moves changes, and it is not empty afterwards. -/
theorem record_move_eq (state : GameState) (b : MoveBroadcast) :
    ∃ moves, moves ≠ [] ∧ record_move state b = { state with pgn_moves := moves } := by
  unfold record_move
  split
  · split
    · rename_i hlast
      refine ⟨state.pgn_moves, ?_, rfl⟩
      intro hnil
      rw [hnil] at hlast
      cases hlast
    · exact ⟨_, List.append_ne_nil_of_right_ne_nil _ (List.cons_ne_nil _ _), rfl⟩
  · rename_i hfull
    refine ⟨state.pgn_moves, ?_, rfl⟩
    intro hnil
    rw [hnil] at hfull
    exact hfull (by decide)

/-- Only the check flags change. -/
theorem update_check_flags_eq (state : GameState) (b : MoveBroadcast) :
    ∃ white black, update_check_flags state b =
      { state with white_in_check := white, black_in_check := black } := by
  unfold update_check_flags
  split
  · split <;> exact ⟨_, _, rfl⟩
  · exact ⟨_, _, rfl⟩

/-- Only the clocks change. -/
theorem sync_clocks_eq (state : GameState) (env : ClientEnv) (b : MoveBroadcast) :
    ∃ white black start update white_sync black_sync, sync_clocks state env b =
      { state with
        white_time_remaining := white
        black_time_remaining := black
        game_start_time := start
        last_timer_update := update
        white_time_at_last_sync := white_sync
        black_time_at_last_sync := black_sync } := by
  unfold sync_clocks
  split <;> exact ⟨_, _, _, _, _, _, rfl⟩

/-- A move that is not taken in leaves the position alone. -/
theorem apply_move_from_server_rejected {G : Game} {src dst : CString}
    (h : (apply_move_from_server G src dst).2 = false) :
    (apply_move_from_server G src dst).1 = G := by
  unfold apply_move_from_server at h ⊢
  split at h
  · simp only at h ⊢
    split at h
    · rename_i hout
      rw [if_pos hout]
    · cases h
  · rfl

/-- The state of the game after the first half of a move broadcast, as far
    as the second half and the saved game depend on it. -/
structure Applied (client client' : ClientState) (b : MoveBroadcast) : Prop where
  game : client'.game_state.game = client_step client.game_state.game (b.from_coord, b.to_coord)
  local_team : client'.game_state.local_team = client.game_state.local_team
  disconnected : client'.game_state.opponent_disconnected = client.game_state.opponent_disconnected
  result : client'.game_state.pgn_result = client.game_state.pgn_result
  moves : client'.game_state.pgn_moves = [] →
    client.game_state.pgn_moves = [] ∧
      (apply_move_from_server client.game_state.game b.from_coord b.to_coord).2 = false
  saved : client'.saved = client.saved
  local_player : client'.game_state.local_player = client.game_state.local_player
  opponent_player : client'.game_state.opponent_player = client.game_state.opponent_player

/-- What is shown with the board leaves the rest of the game alone. -/
theorem shown_with_board (state : GameState) (env : ClientEnv) (b : MoveBroadcast) :
    let state' := sync_clocks (update_check_flags (record_move state b) b) env b
    state'.game = state.game ∧ state'.local_team = state.local_team ∧
      state'.opponent_disconnected = state.opponent_disconnected ∧
      state'.pgn_result = state.pgn_result ∧ state'.pgn_moves ≠ [] ∧
      state'.local_player = state.local_player ∧
      state'.opponent_player = state.opponent_player := by
  obtain ⟨moves, hne, hmoves⟩ := record_move_eq state b
  obtain ⟨_, _, hflags⟩ := update_check_flags_eq (record_move state b) b
  obtain ⟨_, _, _, _, _, _, hclocks⟩ :=
    sync_clocks_eq (update_check_flags (record_move state b) b) env b
  simp only
  rw [hclocks, hflags, hmoves]
  exact ⟨rfl, rfl, rfl, rfl, hne, rfl, rfl⟩

theorem apply_broadcast_applied (client : ClientState) (env : ClientEnv) (b : MoveBroadcast) :
    Applied client (apply_broadcast client env b) b := by
  unfold apply_broadcast
  simp only
  split
  · obtain ⟨hgame, hteam, hdisconnected, hresult, hmoves, hnames⟩ := shown_with_board
      { (client.chat "Game".toList (snprintf 256 (b.player_id ++ " moved ".toList ++
          b.from_coord ++ " -> ".toList ++ b.to_coord))).game_state with
        game := (apply_move_from_server client.game_state.game b.from_coord b.to_coord).1 } env b
    exact ⟨hgame, hteam, hdisconnected, hresult, fun h => absurd h hmoves, rfl, hnames.1, hnames.2⟩
  · rename_i hrejected
    rw [Bool.not_eq_true] at hrejected
    exact ⟨(apply_move_from_server_rejected hrejected).symm, rfl, rfl, rfl,
      fun h => ⟨h, hrejected⟩, rfl, rfl, rfl⟩

theorem handle_move_broadcast_game (client : ClientState) (env : ClientEnv) (b : MoveBroadcast) :
    (handle_move_broadcast client env b).game_state.game =
      client_step client.game_state.game (b.from_coord, b.to_coord) := by
  have happly := (apply_broadcast_applied client env b).game
  unfold handle_move_broadcast finish_game
  simp only
  split
  · rw [save_game, chat_game, happly]
  · exact happly

theorem handle_resign_broadcast_game (client : ClientState) (env : ClientEnv)
    (b : ResignBroadcast) :
    (handle_resign_broadcast client env b).game_state.game = client.game_state.game := by
  unfold handle_resign_broadcast
  simp only [save_game, chat_game]

/-- **What a message does to the position.** -/
theorem dispatch_game (client : ClientState) (env : ClientEnv) (msg : ServerMessage) :
    (dispatch_server_message client env msg).game_state.game =
      follow client_step client.game_state.game (news_of msg).toList := by
  by_cases hchat : only_chats msg = true
  · obtain ⟨messages, hstate⟩ := dispatch_only_chats hchat client env
    rw [hstate, news_of_only_chats hchat]
    rfl
  · cases msg with
    | match_game_res res =>
      have hstart := starts_of_not_only_chats hchat
      obtain ⟨hsuccess, hteam⟩ := starts_game_iff.mp hstart
      show (handle_match_game_response client env res).game_state.game = _
      unfold handle_match_game_response
      rw [if_pos hsuccess, if_neg hteam, news_of_start hstart]
      exact client_start _ _
    | move_broadcast b => exact handle_move_broadcast_game client env b
    | resign_broadcast b => exact handle_resign_broadcast_game client env b
    | game_end b => rfl
    | _ => exact absurd rfl hchat

/-- **The client is a replica.** Its position follows the news it has
    received. -/
theorem client_run_game (client : ClientState) (msgs : List (ClientEnv × ServerMessage)) :
    (client_run client msgs).game_state.game =
      follow client_step client.game_state.game ((msgs.map Prod.snd).filterMap news_of) := by
  induction msgs generalizing client with
  | nil => rfl
  | cons m msgs ih =>
    show (client_run (dispatch_server_message client m.1 m.2) msgs).game_state.game = _
    rw [ih, dispatch_game, List.map_cons, List.filterMap_cons]
    cases news_of m.2 with
    | none => rfl
    | some n => rfl

end MultiplayChess
