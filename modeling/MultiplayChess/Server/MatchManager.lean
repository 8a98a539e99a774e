import MultiplayChess.Server.Message
import Mathlib.Data.Fin.Tuple.Basic
import Mathlib.Logic.Function.Basic

/-! # The match manager

    `server/match_manager.h` and `server/match_manager.c`: the table of
    waiting players, the table of games and the operations on them.  Each
    operation holds the mutex, so it is one function of the tables. -/

namespace MultiplayChess

/-- `MAX_WAITING_PLAYERS`. -/
abbrev max_waiting_players : Nat := 100

/-- `MAX_ACTIVE_GAMES`. -/
abbrev max_active_games : Nat := 50

instance : @NeZero Nat Zero.ofOfNat0 max_active_games := ⟨Nat.succ_ne_zero 49⟩

/-- `GAME_ID_LENGTH`. -/
def game_id_length : Nat := 32

/-- `DEFAULT_GAME_TIME_LIMIT`, in seconds. -/
def default_game_time_limit : Int := 600

structure WaitingPlayer where
  fd : Int
  player_id : CString
  wait_start_time : Int
  is_active : Bool

structure ActiveGame where
  game_id : CString
  white_player_fd : Int
  black_player_fd : Int
  white_player_id : CString
  black_player_id : CString
  game_start_time : Int
  is_active : Bool
  game_state : Game
  time_limit_per_player : Int
  white_time_remaining : Int
  black_time_remaining : Int
  last_move_time_ms : Int
  last_timer_check_ms : Int

/-- `MatchManager`, with the `static int counter` of `generate_game_id`. -/
structure MatchManager where
  waiting_players : Fin max_waiting_players → WaitingPlayer
  active_games : Fin max_active_games → ActiveGame
  waiting_count : Int
  active_game_count : Int
  counter : Int

def WaitingPlayer.zero : WaitingPlayer :=
  { fd := 0, player_id := [], wait_start_time := 0, is_active := false }

def ActiveGame.zero : ActiveGame :=
  { game_id := [], white_player_fd := 0, black_player_fd := 0, white_player_id := [],
    black_player_id := [], game_start_time := 0, is_active := false, game_state := .zero,
    time_limit_per_player := 0, white_time_remaining := 0, black_time_remaining := 0,
    last_move_time_ms := 0, last_timer_check_ms := 0 }

/-- `init_match_manager`: `memset` to zero. -/
def init_match_manager : MatchManager :=
  { waiting_players := fun _ => .zero, active_games := fun _ => .zero,
    waiting_count := 0, active_game_count := 0, counter := 1 }

/-- The fd is one of the two seats of the game. -/
def ActiveGame.seats (g : ActiveGame) (fd : Int) : Bool :=
  g.white_player_fd == fd || g.black_player_fd == fd

/-- The fd seated for a team. -/
def ActiveGame.fd_of (g : ActiveGame) : Team → Int
  | .white => g.white_player_fd
  | .black => g.black_player_fd

/-- Overwrite one slot of the game table. -/
def MatchManager.set_game (mgr : MatchManager) (i : Fin max_active_games) (g : ActiveGame) :
    MatchManager :=
  { mgr with active_games := Function.update mgr.active_games i g }

/-- Overwrite one slot of the waiting table. -/
def MatchManager.set_waiting (mgr : MatchManager) (i : Fin max_waiting_players)
    (w : WaitingPlayer) : MatchManager :=
  { mgr with waiting_players := Function.update mgr.waiting_players i w }

/-- `is_active = false; active_game_count--`. -/
def MatchManager.end_game (mgr : MatchManager) (i : Fin max_active_games) : MatchManager :=
  { mgr.set_game i { mgr.active_games i with is_active := false } with
    active_game_count := mgr.active_game_count - 1 }

/-- `is_active = false; waiting_count--`. -/
def MatchManager.leave_queue (mgr : MatchManager) (i : Fin max_waiting_players) :
    MatchManager :=
  { mgr.set_waiting i { mgr.waiting_players i with is_active := false } with
    waiting_count := mgr.waiting_count - 1 }

/-! ## Matching -/

inductive MatchStatus where
  | waiting
  | game_started
  | error
  deriving DecidableEq, Repr

/-- `MatchResult`; the pointers into the tables are the texts they point to. -/
structure MatchResult where
  status : MatchStatus
  game_id : CString := []
  assigned_team : ProtoTeam := .unspecified
  opponent_fd : Int := -1
  opponent_name : CString := []
  error_message : CString := []

/-- The text of a game id: `game_%ld_%d` in `GAME_ID_LENGTH + 1` bytes. -/
def game_id_text (time counter : Int) : CString :=
  snprintf (game_id_length + 1)
    ("game_".toList ++ decimal (time.tmod 100000) ++ '_' :: decimal counter)

/-- `generate_game_id`: the text and the counter after `counter++`. -/
def generate_game_id (time counter : Int) : Except Fault (CString × Int) :=
  if counter < 2 ^ 31 - 1 then .ok (game_id_text time counter, counter + 1)
  else .error .int_overflow

/-- The game set up between the waiting player `w` and the player who just
    arrived, in a slot that held `old`. -/
def new_game (env : Env) (old : ActiveGame) (w : WaitingPlayer) (fd : Int)
    (player_id game_id : CString) : Except Fault ActiveGame := do
  -- the parity of the clock draws the colours
  let current_is_white : Bool := (env.time 0).tmod 2 == 0
  let game_id ← strcpy (game_id_length + 1) game_id
  let white_player_id ← strcpy 64 (if current_is_white then player_id else w.player_id)
  let black_player_id ← strcpy 64 (if current_is_white then w.player_id else player_id)
  .ok
    { game_id := game_id
      white_player_fd := if current_is_white then fd else w.fd
      black_player_fd := if current_is_white then w.fd else fd
      white_player_id := white_player_id
      black_player_id := black_player_id
      game_start_time := env.time 2
      is_active := true
      game_state := init_startpos old.game_state
      time_limit_per_player := default_game_time_limit * 1000
      white_time_remaining := default_game_time_limit * 1000
      black_time_remaining := default_game_time_limit * 1000
      last_move_time_ms := env.ms 0
      last_timer_check_ms := env.ms 1 }

/-- The first active waiting entry. -/
def first_waiting (mgr : MatchManager) : Option (Fin max_waiting_players) :=
  Fin.find? fun i => (mgr.waiting_players i).is_active

/-- `add_player_to_matching`. -/
def add_player_to_matching (mgr : MatchManager) (env : Env) (fd : Int) (player_id : CString) :
    Except Fault (MatchManager × MatchResult) :=
  -- nobody asks whether the entry, or a game, is one of the same fd
  match first_waiting mgr with
  | some i =>
    match Fin.find? fun j => !(mgr.active_games j).is_active with
    | some j => do
      let w := mgr.waiting_players i
      let (id, counter) ← generate_game_id (env.time 1) mgr.counter
      let game ← new_game env (mgr.active_games j) w fd player_id id
      let team : Team := if (env.time 0).tmod 2 == 0 then .white else .black
      .ok ({ (mgr.set_game j game).leave_queue i with
              active_game_count := mgr.active_game_count + 1
              counter := counter },
        { status := .game_started
          game_id := game.game_id
          assigned_team := team.proto
          opponent_fd := game.fd_of team.other
          opponent_name := w.player_id })
    | none => .ok (mgr, { status := .error, error_message := "No available game slots".toList })
  | none =>
    match Fin.find? fun i => !(mgr.waiting_players i).is_active with
    | some i => do
      let player_id ← strcpy 64 player_id
      .ok ({ mgr.set_waiting i
              { fd := fd, player_id := player_id, wait_start_time := env.time 0,
                is_active := true } with
              waiting_count := mgr.waiting_count + 1 },
        { status := .waiting })
    | none => .ok (mgr, { status := .error, error_message := "Matching queue is full".toList })

/-- `remove_player_from_matching`; the flag is `false` for `-1`. -/
def remove_player_from_matching (mgr : MatchManager) (fd : Int) : MatchManager × Bool :=
  match Fin.find? fun i =>
      (mgr.waiting_players i).is_active && (mgr.waiting_players i).fd == fd with
  | some i => (mgr.leave_queue i, true)
  | none => (mgr, false)

/-- `find_game_by_player_fd`. -/
def find_game_by_player_fd (mgr : MatchManager) (fd : Int) : Option (Fin max_active_games) :=
  Fin.find? fun i => (mgr.active_games i).is_active && (mgr.active_games i).seats fd

/-- `remove_game`. -/
def remove_game (mgr : MatchManager) (game_id : CString) : MatchManager :=
  match Fin.find? fun i =>
    (mgr.active_games i).is_active && (mgr.active_games i).game_id == game_id with
  | some i => mgr.end_game i
  | none => mgr

/-! ## Ending games -/

/-- What a handler run leaves: the tables, the attempted sends and whether
    the result is not negative. -/
structure Outcome where
  mgr : MatchManager
  out : List Sent
  ok : Bool

/-- `handle_player_disconnect`. -/
def handle_player_disconnect (mgr : MatchManager) (env : Env) (fd : Int) :
    Except Fault Outcome :=
  match Fin.find? fun i =>
      (mgr.waiting_players i).is_active && (mgr.waiting_players i).fd == fd with
  -- the game of a player who also waits goes on
  | some i => .ok ⟨mgr.leave_queue i, [], true⟩
  | none =>
    match find_game_by_player_fd mgr fd with
    | some i => do
      let game := mgr.active_games i
      let is_white := game.white_player_fd == fd
      let opponent_fd := if is_white then game.black_player_fd else game.white_player_fd
      let player_id ← strcpy 64 (if is_white then game.white_player_id else game.black_player_id)
      let sent := send_server_message env [] opponent_fd (.game_end
        { game_id := game.game_id, player_id := player_id,
          winner_team := if is_white then .black else .white, end_type := .disconnect })
      .ok ⟨mgr.end_game i, sent.1, true⟩
    | none => .ok ⟨mgr, [], false⟩

/-- `send_timeout_game_end_broadcast`. -/
def send_timeout_game_end_broadcast (env : Env) (out : List Sent) (game : ActiveGame)
    (timeout_player_id : CString) (winner_team : ProtoTeam) : List Sent :=
  let msg : ServerMessage := .game_end
    { game_id := game.game_id, player_id := timeout_player_id, winner_team := winner_team,
      end_type := .timeout }
  let out := (send_server_message env out game.white_player_fd msg).1
  (send_server_message env out game.black_player_fd msg).1

/-- The clock of the side to move after an updating tick, and whether the
    side ran out of time. -/
def charge (remaining since : Int) : Except Fault (Int × Bool) := do
  let remaining ← checked_sub 32 remaining (to_int32 since)
  .ok (if remaining ≤ 0 then (0, true) else (remaining, false))

/-- The body of the loop of `check_game_timeouts` up to the broadcast: the
    game and the team that ran out of time. -/
def check_game_timeout (now : Int) (game : ActiveGame) :
    Except Fault (ActiveGame × Option Team) :=
  if !game.is_active then .ok (game, none)
  else do
    let since ← checked_sub 64 now game.last_timer_check_ms
    -- less than 100 ms are left for the next tick
    if since < 100 then .ok (game, none)
    else
      -- the whole interval goes to the side whose turn it is now
      match game.game_state.side_to_move with
      | .white => do
        let (remaining, timeout) ← charge game.white_time_remaining since
        .ok ({ game with white_time_remaining := remaining, last_timer_check_ms := now },
          if timeout then some .white else none)
      | .black => do
        let (remaining, timeout) ← charge game.black_time_remaining since
        .ok ({ game with black_time_remaining := remaining, last_timer_check_ms := now },
          if timeout then some .black else none)

/-- The id of the player seated for a team. -/
def ActiveGame.player_id (g : ActiveGame) : Team → CString
  | .white => g.white_player_id
  | .black => g.black_player_id

/-- One round of the loop of `check_game_timeouts`. -/
def check_slot (env : Env) (now : Int) (st : MatchManager × List Sent)
    (i : Fin max_active_games) : Except Fault (MatchManager × List Sent) := do
  let (game, timeout) ← check_game_timeout now (st.1.active_games i)
  let mgr := st.1.set_game i game
  match timeout with
  | none => .ok (mgr, st.2)
  | some loser =>
    .ok (mgr.end_game i,
      send_timeout_game_end_broadcast env st.2 game (game.player_id loser) loser.other.proto)

/-- `check_game_timeouts`. -/
def check_game_timeouts (mgr : MatchManager) (env : Env) : Except Fault Outcome := do
  let (mgr, out) ← (List.finRange max_active_games).foldlM (check_slot env (env.ms 0)) (mgr, [])
  .ok ⟨mgr, out, true⟩

end MultiplayChess
