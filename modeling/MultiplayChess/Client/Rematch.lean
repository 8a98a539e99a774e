import MultiplayChess.Client.Session

/-! # One game after another

    A start response sets up the next game.  It should not matter what the
    client did before: the state of the new game should be that of a client
    that was just started.  The handler resets the board, the clocks and
    the list of moves, but none of the flags the prompts, the dialogs and
    the check marks hang on; so the games are independent exactly if these
    were clear already. -/

namespace MultiplayChess

open LTS

/-! ## The state of a game -/

/-- The state that belongs to one game. -/
structure PerGame where
  game : Game
  local_player : CString
  opponent_player : CString
  local_team : Team
  game_in_progress : Bool
  game_start_time : Int
  white_time_remaining : Int
  black_time_remaining : Int
  last_timer_update : Int
  white_time_at_last_sync : Int
  black_time_at_last_sync : Int
  pgn_moves : List CString
  pgn_result : CString
  white_in_check : Bool
  black_in_check : Bool
  /-- The selected square. -/
  selection : Option (Int × Int)
  resign_dialog_active : Bool
  opponent_disconnected : Bool
  resign_result_dialog_pending : Bool
  game_end_dialog_pending : Bool

def Client.per_game (client : Client) : PerGame where
  game := client.state.game_state.game
  local_player := client.state.game_state.local_player
  opponent_player := client.state.game_state.opponent_player
  local_team := client.state.game_state.local_team
  game_in_progress := client.state.game_state.game_in_progress
  game_start_time := client.state.game_state.game_start_time
  white_time_remaining := client.state.game_state.white_time_remaining
  black_time_remaining := client.state.game_state.black_time_remaining
  last_timer_update := client.state.game_state.last_timer_update
  white_time_at_last_sync := client.state.game_state.white_time_at_last_sync
  black_time_at_last_sync := client.state.game_state.black_time_at_last_sync
  pgn_moves := client.state.game_state.pgn_moves
  pgn_result := client.state.game_state.pgn_result
  white_in_check := client.state.game_state.white_in_check
  black_in_check := client.state.game_state.black_in_check
  selection :=
    if client.piece_selected then some (client.selected_x, client.selected_y) else none
  resign_dialog_active := client.resign_dialog_active
  opponent_disconnected := client.state.game_state.opponent_disconnected
  resign_result_dialog_pending := client.state.resign_result_dialog_pending
  game_end_dialog_pending := client.state.game_end_dialog_pending

/-- A client that was just started, after its user has entered a name. -/
def fresh_client (username : CString) : Client :=
  { init_client with state := { init_client_state with username := username } }

/-- The new game depends on the response and the username only, and is that
    of a fresh client. -/
def Independent (client : Client) (res : MatchGameResponse) : Prop :=
  ∀ env env', (client.receive env (.match_game_res res)).per_game =
    ((fresh_client client.state.username).receive env' (.match_game_res res)).per_game

/-- Nothing is left of earlier games that a start does not reset. -/
structure Cleared (client : Client) : Prop where
  white_in_check : client.state.game_state.white_in_check = false
  black_in_check : client.state.game_state.black_in_check = false
  piece_selected : client.piece_selected = false
  resign_dialog_active : client.resign_dialog_active = false
  opponent_disconnected : client.state.game_state.opponent_disconnected = false
  resign_result_dialog_pending : client.state.resign_result_dialog_pending = false
  game_end_dialog_pending : client.state.game_end_dialog_pending = false

/-! ## The start of a game -/

/-- The game the start response sets up; `time` is the clock of the client
    and the flags are those of the client before. -/
def started_game (username : CString) (res : MatchGameResponse) (time : Int)
    (before : PerGame) : PerGame :=
  let local_team : Team := if res.assigned_team = .black then .black else .white
  let white_time :=
    if res.time_limit_per_player > 0 then res.white_time_remaining else default_client_time
  let black_time :=
    if res.time_limit_per_player > 0 then res.black_time_remaining else default_client_time
  { before with
    game := init_startpos .zero
    local_player := strncpy max_player_name_length username
    opponent_player := strncpy max_player_name_length res.opponent_name
    local_team := local_team
    game_in_progress := true
    game_start_time := res.game_start_time.getD time
    white_time_remaining := white_time
    black_time_remaining := black_time
    last_timer_update := res.game_start_time.getD time
    white_time_at_last_sync := white_time
    black_time_at_last_sync := black_time
    pgn_moves := []
    pgn_result := "*".toList }

/-- **What a start sets.** -/
theorem receive_start_per_game {res : MatchGameResponse}
    (hstart : starts_game (.match_game_res res) = true) (client : Client) (env : ClientEnv) :
    (client.receive env (.match_game_res res)).per_game =
      started_game client.state.username res (env.time 1) client.per_game := by
  have hsuccess := starts_game_iff.mp hstart
  have hrun : handle_match_game_response client.state env res = _ :=
    (if_pos hsuccess.1).trans (if_neg hsuccess.2)
  show ({ client with
    state := handle_match_game_response client.state env res } : Client).per_game = _
  rw [hrun]
  rfl

/-- **Independence.** -/
theorem independent_iff {res : MatchGameResponse}
    (hstart : starts_game (.match_game_res res) = true) (client : Client) :
    Independent client res ↔ Cleared client ∧ res.game_start_time.isSome = true := by
  unfold Independent
  simp only [receive_start_per_game hstart]
  constructor
  · intro h
    constructor
    · -- with the same clock on both sides only the flags are left
      have hflags := h ⟨fun _ => 0, true, true⟩ ⟨fun _ => 0, true, true⟩
      exact {
        white_in_check := congrArg PerGame.white_in_check hflags
        black_in_check := congrArg PerGame.black_in_check hflags
        piece_selected := by
          have hselection := congrArg PerGame.selection hflags
          by_contra hselected
          rw [Bool.not_eq_false] at hselected
          have hsome : (started_game client.state.username res 0 client.per_game).selection =
              some (client.selected_x, client.selected_y) := if_pos hselected
          cases hsome.symm.trans hselection
        resign_dialog_active := congrArg PerGame.resign_dialog_active hflags
        opponent_disconnected := congrArg PerGame.opponent_disconnected hflags
        resign_result_dialog_pending := congrArg PerGame.resign_result_dialog_pending hflags
        game_end_dialog_pending := congrArg PerGame.game_end_dialog_pending hflags }
    · -- without a start time in the response the clock of the client shows
      have htime :=
        congrArg PerGame.game_start_time (h ⟨fun _ => 0, true, true⟩ ⟨fun _ => 1, true, true⟩)
      cases hnone : res.game_start_time with
      | some t => rfl
      | none =>
        have hclocks : res.game_start_time.getD 0 = res.game_start_time.getD 1 := htime
        rw [hnone] at hclocks
        cases hclocks
  · intro ⟨hclear, htime⟩ env env'
    obtain ⟨t, ht⟩ := Option.isSome_iff_exists.mp htime
    have hselection : client.per_game.selection = none :=
      if_neg (by rw [hclear.piece_selected]; decide)
    have hflags : ∀ time, started_game client.state.username res time client.per_game =
        started_game client.state.username res time
          (fresh_client client.state.username).per_game := by
      intro time
      unfold started_game
      simp only [PerGame.mk.injEq, true_and]
      exact ⟨hclear.white_in_check, hclear.black_in_check, hselection,
        hclear.resign_dialog_active, hclear.opponent_disconnected,
        hclear.resign_result_dialog_pending, hclear.game_end_dialog_pending⟩
    rw [hflags]
    unfold started_game
    rw [ht]
    rfl

/-! ## Two sessions -/

/-- The response that seats `bob` as White. -/
def bob_starts : MatchGameResponse where
  game_id := "game_0_1".toList
  success := true
  message := "Match found! Game starting...".toList
  assigned_team := .white
  opponent_name := "ann".toList
  time_limit_per_player := 600
  game_start_time := some 0
  white_time_remaining := 600
  black_time_remaining := 600

theorem independent_bob_starts : Independent (fresh_client "bob".toList) bob_starts :=
  (independent_iff rfl _).mpr ⟨⟨rfl, rfl, rfl, rfl, rfl, rfl, rfl⟩, rfl⟩

/-- The user `bob`, whose messages get through. -/
def bob_types : KeyEnv where
  send := true
  time := 0
  files := ⟨true, true⟩
  username := "bob".toList
  file := none

/-- `bob` opens the prompt to resign, but `ann` resigns first; the dialog
    that says so takes him back to the main screen. -/
def prompt_left_open : List ClientEvent :=
  [.connected true, .key bob_types (.char '1'),
    .message ⟨fun _ => 0, true, true⟩ (.match_game_res bob_starts), .key bob_types (.char '1'),
    .message ⟨fun _ => 0, true, true⟩ (.resign_broadcast
      { game_id := "game_0_1".toList, player_id := "ann".toList, winner_team := .white }),
    .dialog, .key bob_types (.char '\n')]

theorem prompt_left_open_state : (prompt_left_open.foldlM Client.step init_client).map
    (fun client => (client.resign_dialog_active, client.state.current_screen,
      client.state.dialog_active)) = some (true, .main, false) := by
  decide +kernel

/-- His next game opens with the prompt. -/
theorem independent_broken :
    ¬ ∀ (es : List ClientEvent) (client : Client) (res : MatchGameResponse),
      Run session init_client es client → starts_game (.match_game_res res) = true →
      res.game_start_time.isSome = true → Independent client res := by
  intro hall
  obtain ⟨client, hrun, hstate⟩ := Option.map_eq_some_iff.mp prompt_left_open_state
  have hclear := ((independent_iff rfl client).mp
    (hall _ client bob_starts (session_run hrun) rfl rfl)).1
  rw [hclear.resign_dialog_active] at hstate
  cases hstate

end MultiplayChess
