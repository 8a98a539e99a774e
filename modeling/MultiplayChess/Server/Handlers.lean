import MultiplayChess.Server.MatchManager

/-! # The message handlers

    `server/handlers/` and `handle_client_message` of
    `server/server_network.c`.  A handler run is one function of the tables
    and the environment; the move handler is cut where it takes and releases
    the mutex, so that the timer thread can be placed in between. -/

namespace MultiplayChess

/-! ## Small handlers -/

def handle_ping_message (mgr : MatchManager) (env : Env) (fd : Int) : Outcome :=
  let sent := send_server_message env [] fd (.ping_res "Pong from server!".toList)
  ⟨mgr, sent.1, sent.2⟩

def handle_echo_message (mgr : MatchManager) (env : Env) (fd : Int) (message : CString) :
    Outcome :=
  let sent := send_server_message env [] fd (.echo_res message)
  ⟨mgr, sent.1, sent.2⟩

def handle_unknown_message (mgr : MatchManager) (env : Env) (fd : Int) : Outcome :=
  let sent := send_error_response env [] fd 400 "Unsupported message type".toList
  ⟨mgr, sent.1, sent.2⟩

/-- The chat goes to White first, and to Black only if that send succeeds. -/
def handle_chat_message (mgr : MatchManager) (env : Env) (fd : Int) (message : CString) :
    Outcome :=
  match find_game_by_player_fd mgr fd with
  | none => ⟨mgr, [], false⟩
  | some i =>
    let game := mgr.active_games i
    let sender_id :=
      if game.white_player_fd == fd then game.white_player_id else game.black_player_id
    let msg : ServerMessage := .chat_broadcast { player_id := sender_id, message := message }
    -- both players get the message, the sender too
    let white := send_server_message env [] game.white_player_fd msg
    if white.2 then
      let black := send_server_message env white.1 game.black_player_fd msg
      ⟨mgr, black.1, black.2⟩
    else ⟨mgr, white.1, false⟩

def handle_cancel_match_message (mgr : MatchManager) (env : Env) (fd : Int)
    (player_id : CString) : Outcome :=
  if player_id = [] then
    let sent := send_error_response env [] fd 2 "Player ID is required".toList
    ⟨mgr, sent.1, sent.2⟩
  else
    -- who is not in the queue is told so, without an error
    let removed := remove_player_from_matching mgr fd
    let sent := send_server_message env [] fd (.cancel_match_res
      { player_id := player_id, success := removed.2,
        message := if removed.2 then "Matching cancelled successfully".toList
          else "Player not in matching queue".toList })
    ⟨removed.1, sent.1, sent.2⟩

/-! ## Matching -/

/-- The start message for one of the two players. -/
def start_response (game : ActiveGame) (timestamp : Option Int) (game_id : CString)
    (assigned_team : ProtoTeam) (opponent_name : CString) : ServerMessage :=
  .match_game_res
    { success := true
      message := "Match found! Game starting...".toList
      game_id := game_id
      assigned_team := assigned_team
      opponent_name := opponent_name
      time_limit_per_player := game.time_limit_per_player.tdiv 1000
      white_time_remaining := game.white_time_remaining.tdiv 1000
      black_time_remaining := game.black_time_remaining.tdiv 1000
      game_start_time := timestamp }

/-- The start timestamp, unless its allocation fails. -/
def start_timestamp (env : Env) (k : Nat) (game : ActiveGame) : Option Int :=
  (env.timestamp k).map fun _ => game.game_start_time

/-- The opposite protobuf team, as the handler computes it. -/
def opposite (t : ProtoTeam) : ProtoTeam :=
  if t = .white then .black else .white

/-- Announce a started game: to the requester, and to the opponent if that
    send succeeds.  The game is looked up again by the fd. -/
def announce_start (mgr : MatchManager) (env : Env) (fd : Int) (result : MatchResult) : Outcome :=
  match find_game_by_player_fd mgr fd with
  | none => ⟨mgr, [], false⟩
  | some i =>
    let game := mgr.active_games i
    let first := send_server_message env [] fd (start_response game (start_timestamp env 0 game)
      result.game_id result.assigned_team result.opponent_name)
    if first.2 && result.opponent_fd ≥ 0 then
      -- the result of this send is only logged
      let current_player_name :=
        if game.white_player_fd == fd then game.white_player_id else game.black_player_id
      let second := send_server_message env first.1 result.opponent_fd (start_response game
        (start_timestamp env 1 game) result.game_id (opposite result.assigned_team)
        current_player_name)
      ⟨mgr, second.1, first.2⟩
    else ⟨mgr, first.1, first.2⟩

def handle_match_game_message (mgr : MatchManager) (env : Env) (fd : Int)
    (player_id : CString) : Except Fault Outcome :=
  if player_id = [] then
    let sent := send_error_response env [] fd 2 "Player ID is required".toList
    .ok ⟨mgr, sent.1, sent.2⟩
  else do
    let (mgr, result) ← add_player_to_matching mgr env fd player_id
    match result.status with
    | .waiting =>
      let sent := send_server_message env [] fd (.match_game_res
        { success := true, message := "Waiting for opponent...".toList,
          game_id := result.game_id })
      .ok ⟨mgr, sent.1, sent.2⟩
    | .game_started => .ok (announce_start mgr env fd result)
    | .error =>
      let sent := send_error_response env [] fd 3 result.error_message
      .ok ⟨mgr, sent.1, sent.2⟩

/-! ## Resigning -/

/-- `handle_resign_message`. -/
def handle_resign_message (mgr : MatchManager) (env : Env) (fd : Int) (player_id : CString) :
    Except Fault Outcome :=
  match find_game_by_player_fd mgr fd with
  | none =>
    let sent := send_error_response env [] fd 404 "You are not in any active game".toList
    .ok ⟨mgr, sent.1, sent.2⟩
  | some i => do
    let game := mgr.active_games i
    let is_white := game.white_player_fd == fd
    let opponent_fd := if is_white then game.black_player_fd else game.white_player_fd
    let game_id ← strcpy 64 game.game_id
    -- the name of the opponent is copied for the log line
    let _ ← strcpy 64 (if is_white then game.black_player_id else game.white_player_id)
    let response := send_server_message env [] fd (.resign_res
      { game_id := game_id, player_id := player_id, success := true,
        message := "Resignation successful".toList })
    let msg : ServerMessage := .resign_broadcast
      { game_id := game_id, player_id := player_id,
        winner_team := if is_white then .black else .white }
    -- a client without a connection is left out; failures are only logged
    let own := send_server_message env response.1 fd msg
    let out := if opponent_fd ≥ 0 then (send_server_message env own.1 opponent_fd msg).1 else own.1
    .ok ⟨mgr.end_game i, out, true⟩

/-! ## Moving -/

/-- `parse_chess_coordinate`. -/
def parse_chess_coordinate (coord : CString) : Option (Int × Int) :=
  match coord with
  | [file, rank] =>
    if file < 'a' || file > 'h' || rank < '1' || rank > '8' then none
    else some ((file.toNat : Int) - 97, (rank.toNat : Int) - 49)
  | _ => none

def send_move_error (env : Env) (out : List Sent) (fd : Int)
    (game_id player_id error_msg : CString) :
    List Sent × Bool :=
  send_server_message env out fd (.move_res
    { game_id := game_id, player_id := player_id, success := false, message := error_msg })

def send_move_success (env : Env) (out : List Sent) (fd : Int)
    (game_id player_id updated_fen : CString) : List Sent × Bool :=
  send_server_message env out fd (.move_res
    { game_id := game_id, player_id := player_id, success := true,
      message := "Move successful".toList, updated_fen := updated_fen })

/-- How a position ends the game: winner and type, if it does. -/
def game_end (G : Game) : Option (ProtoTeam × GameEndType) :=
  if is_checkmate G then some (G.side_to_move.other.proto, .checkmate)
  else if is_stalemate G then some (.unspecified, .stalemate)
  else if is_fifty_move_rule G then some (.unspecified, .draw)
  else none

/-- The `MoveBroadcast` that `broadcast_move_with_state` packs. -/
def move_broadcast (game : ActiveGame) (player_id : CString) (req : MoveRequest)
    (timestamp : Option Int) : MoveBroadcast :=
  let G := game.game_state
  let is_check := is_in_check G G.side_to_move
  let ending := (game_end G).getD (.unspecified, .unknown)
  { game_id := game.game_id
    player_id := player_id
    from_coord := req.from_coord
    to_coord := req.to_coord
    game_ends := (game_end G).isSome
    winner_team := ending.1
    end_type := ending.2
    is_check := is_check
    checked_team := if is_check then G.side_to_move.proto else .unspecified
    white_time_remaining := game.white_time_remaining.tdiv 1000
    black_time_remaining := game.black_time_remaining.tdiv 1000
    move_timestamp := timestamp }

/-- `move_%d_to_%d`. -/
def fen_placeholder (G : Game) : CString :=
  snprintf 256 ("move_".toList ++ decimal G.halfmove_clock ++ "_to_".toList ++
    decimal (if G.side_to_move = .white then 0 else 1))

/-- `apply_move` on the game and the time stamp of the move. -/
def ActiveGame.play (g : ActiveGame) (now from_x from_y to_x to_y : Int) : ActiveGame :=
  { g with
    game_state := apply_move g.game_state from_x from_y to_x to_y
    last_move_time_ms := now }

/-- The tests of the move handler on the game of the requester: the squares
    of the move, or the error text. -/
def check_move (G : Game) (player_team : Team) (req : MoveRequest) :
    Except CString ((Int × Int) × (Int × Int)) :=
  if G.side_to_move ≠ player_team then .error "It's not your turn".toList
  else
    match parse_chess_coordinate req.from_coord with
    | none => .error "Invalid source coordinate".toList
    | some src =>
      match parse_chess_coordinate req.to_coord with
      | none => .error "Invalid destination coordinate".toList
      | some dst =>
        if is_move_legal G src.1 src.2 dst.1 dst.2 then .ok (src, dst)
        else .error "Illegal move".toList

/-- Which colour the handler takes the requester for. -/
def player_team (game : ActiveGame) (fd : Int) : Option Team :=
  if game.white_player_fd == fd then some .white
  else if game.black_player_fd == fd then some .black
  else none

/-- What follows the applied move: the response, the evaluation and the two
    broadcasts.  The flag says whether the handler goes on to `remove_game`. -/
def announce_move (mgr : MatchManager) (env : Env) (fd : Int) (req : MoveRequest)
    (team : Team) (game : ActiveGame) : Outcome × Bool :=
  let player_id := game.player_id team
  let success := send_move_success env [] fd game.game_id player_id
    (fen_placeholder game.game_state)
  -- the move stays played, and the end of the game is not looked for
  if !success.2 then (⟨mgr, success.1, false⟩, false)
  else
    let opponent := send_server_message env success.1 (game.fd_of team.other)
      (.move_broadcast (move_broadcast game player_id req (env.timestamp 0)))
    let requester := send_server_message env opponent.1 fd
      (.move_broadcast (move_broadcast game player_id req (env.timestamp 1)))
    (⟨mgr, requester.1, true⟩, (game_end game.game_state).isSome)

/-- The move handler from the lookup of the game to `remove_game`. -/
def move_in_game (mgr : MatchManager) (env : Env) (fd : Int) (req : MoveRequest)
    (i : Fin max_active_games) : Outcome × Bool :=
  let game := mgr.active_games i
  match player_team game fd with
  | none =>
    let sent := send_move_error env [] fd game.game_id []
      "Internal error: player not found in game".toList
    (⟨mgr, sent.1, sent.2⟩, false)
  | some team =>
    match check_move game.game_state team req with
    | .error msg =>
      let sent := send_move_error env [] fd game.game_id (game.player_id team) msg
      (⟨mgr, sent.1, sent.2⟩, false)
    | .ok (src, dst) =>
      -- the move is played before anybody is told
      let game := game.play (env.ms 0) src.1 src.2 dst.1 dst.2
      announce_move (mgr.set_game i game) env fd req team game

/-- `handle_move_message`. -/
def handle_move_message (mgr : MatchManager) (env : Env) (fd : Int) (req : MoveRequest) :
    Outcome :=
  match find_game_by_player_fd mgr fd with
  | none =>
    let sent := send_move_error env [] fd [] [] "You are not in an active game".toList
    ⟨mgr, sent.1, sent.2⟩
  | some i =>
    let run := move_in_game mgr env fd req i
    -- the game is looked up by its id, as the mutex was free in between
    if run.2 then
      { run.1 with mgr := remove_game run.1.mgr (run.1.mgr.active_games i).game_id }
    else run.1

/-! ## Dispatching -/

def dispatch_client_message (mgr : MatchManager) (env : Env) (fd : Int) :
    ClientMessage → Except Fault Outcome
  | .ping _ => .ok (handle_ping_message mgr env fd)
  | .echo message => .ok (handle_echo_message mgr env fd message)
  | .match_game player_id => handle_match_game_message mgr env fd player_id
  | .cancel_match player_id => .ok (handle_cancel_match_message mgr env fd player_id)
  | .chat message => .ok (handle_chat_message mgr env fd message)
  | .move req => .ok (handle_move_message mgr env fd req)
  | .resign player_id => handle_resign_message mgr env fd player_id
  | .unknown => .ok (handle_unknown_message mgr env fd)

/-- The error response `handle_client_message` adds when a handler fails;
    every negative result of a handler is `-1`. -/
def report_error (env : Env) (fd : Int) (run : Outcome) : Outcome :=
  if run.ok then run
  else
    { run with
      out := (send_error_response env run.out fd 1
        "An error occurred while processing the request".toList).1 }

/-- `handle_client_message`; without a message the client is gone. -/
def handle_client_message (mgr : MatchManager) (env : Env) (fd : Int) :
    Option ClientMessage → Except Fault Outcome
  | none => handle_player_disconnect mgr env fd
  | some msg => (dispatch_client_message mgr env fd msg).map (report_error env fd)

end MultiplayChess
