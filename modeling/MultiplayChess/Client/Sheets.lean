import MultiplayChess.Client.Bookkeeping
import MultiplayChess.Client.InTouch
import MultiplayChess.Client.Navigation

/-! # Sheets

    The moves and the names a client has written down, and those in the files
    it has saved: what a message and what each step of the main thread does
    to them.  A property of the sheet that no message breaks is a property
    of every file. -/

namespace MultiplayChess

open LTS Loop Replica
open Chess (Move OnBoard)

/-! ## What goes into a file -/

/-- The moves and the names in a file. -/
structure Sheet where
  moves : List CString
  local_player : CString
  opponent_player : CString

def GameState.sheet (state : GameState) : Sheet where
  moves := state.pgn_moves
  local_player := state.local_player
  opponent_player := state.opponent_player

/-- The sheet of the client and those in its files are all of `P`, and the
    results are results of a game. -/
structure Keeps (P : Sheet → Prop) (client : ClientState) : Prop where
  sheet : P client.game_state.sheet
  result : client.game_state.pgn_result ∈ pgn_results
  saved : ∀ state ∈ client.saved,
    P state.sheet ∧ state.pgn_result ∈ pgn_results ∧ state.pgn_moves ≠ []

section keeps

variable {P Q : Sheet → Prop} {client client' : ClientState} {env : ClientEnv} {msg : ServerMessage}

theorem Keeps.mono (hPQ : ∀ sheet, P sheet → Q sheet) (h : Keeps P client) : Keeps Q client where
  sheet := hPQ _ h.sheet
  result := h.result
  saved := fun state hstate => ⟨hPQ _ (h.saved state hstate).1, (h.saved state hstate).2⟩

theorem Keeps.congr (h : Keeps P client)
    (hsheet : client'.game_state.sheet = client.game_state.sheet)
    (hresult : client'.game_state.pgn_result = client.game_state.pgn_result)
    (hsaved : client'.saved = client.saved) : Keeps P client' where
  sheet := by
    rw [hsheet]
    exact h.sheet
  result := by
    rw [hresult]
    exact h.result
  saved := by
    rw [hsaved]
    exact h.saved

/-- A file is added at most, with the sheet of the client in it. -/
theorem Keeps.save (h : Keeps P client) (files : FileEnv) : Keeps P (client.save files) := by
  unfold ClientState.save save_current_game
  split
  · exact h.congr rfl rfl (List.append_nil _)
  · rename_i hmoves
    split
    · exact h.congr rfl rfl (List.append_nil _)
    · refine ⟨h.sheet, pgn_result_of_mem _, ?_⟩
      intro state hstate
      rcases List.mem_append.mp hstate with hstate | hstate
      · exact h.saved state hstate
      · cases hopen : files.fopen with
        | false =>
          simp only [hopen] at hstate
          cases hstate
        | true =>
          simp only [hopen] at hstate
          obtain rfl := List.mem_singleton.mp hstate
          exact ⟨h.sheet, pgn_result_of_mem _, hmoves⟩

@[simp] theorem save_sheet (client : ClientState) (files : FileEnv) :
    (client.save files).game_state.sheet = client.game_state.sheet := by
  obtain ⟨_, _, hsave⟩ := save_eq client files
  rw [hsave]
  rfl

/-- Messages that bring no news leave the sheet alone. -/
theorem dispatch_sheet (hnews : news_of msg = none) :
    (dispatch_server_message client env msg).game_state.sheet = client.game_state.sheet := by
  by_cases hchat : only_chats msg = true
  · obtain ⟨messages, hstate⟩ := dispatch_only_chats hchat client env
    rw [hstate]
    rfl
  · cases msg with
    | match_game_res res =>
      rw [news_of_start (starts_of_not_only_chats hchat)] at hnews
      cases hnews
    | move_broadcast b => cases hnews
    | resign_broadcast b => exact save_sheet _ _
    | game_end b => rfl
    | _ => exact absurd rfl hchat

@[simp] theorem sync_clocks_sheet (state : GameState) (env : ClientEnv) (b : MoveBroadcast) :
    (sync_clocks state env b).sheet = state.sheet := by
  obtain ⟨_, _, _, _, _, _, hclocks⟩ := sync_clocks_eq state env b
  rw [hclocks]
  rfl

@[simp] theorem update_check_flags_sheet (state : GameState) (b : MoveBroadcast) :
    (update_check_flags state b).sheet = state.sheet := by
  obtain ⟨_, _, hflags⟩ := update_check_flags_eq state b
  rw [hflags]
  rfl

/-- Whether a move is recorded depends on the list alone. -/
theorem record_move_sheet {state state' : GameState} (h : state'.sheet = state.sheet)
    (b : MoveBroadcast) : (record_move state' b).sheet = (record_move state b).sheet := by
  obtain ⟨hmoves, hlocal, hopponent⟩ := Sheet.mk.inj h
  unfold record_move
  rw [hmoves]
  split
  · split
    · exact h
    · show Sheet.mk _ _ _ = Sheet.mk _ _ _
      rw [hlocal, hopponent]
  · exact h

/-- The first half of a move broadcast writes the list of the moves. -/
theorem apply_broadcast_sheet {b : MoveBroadcast} {m : Move}
    (hm : Decodes (b.from_coord, b.to_coord) m) :
    (apply_broadcast client env b).game_state.sheet = (record_move client.game_state b).sheet := by
  have hmove := hm.apply client.game_state.game
  simp only at hmove
  unfold apply_broadcast
  simp only [chat_game, hmove, if_true, sync_clocks_sheet, update_check_flags_sheet]
  apply record_move_sheet
  rfl

theorem move_broadcast_sheet {b : MoveBroadcast} :
    (dispatch_server_message client env (.move_broadcast b)).game_state.sheet =
      (apply_broadcast client env b).game_state.sheet := by
  show (handle_move_broadcast client env b).game_state.sheet = _
  unfold handle_move_broadcast
  simp only
  split
  · exact save_sheet _ _
  · rfl

/-- A message keeps what the sheet after it keeps. -/
theorem Keeps.dispatch (h : Keeps P client)
    (hsheet : P (dispatch_server_message client env msg).game_state.sheet) :
    Keeps P (dispatch_server_message client env msg) := by
  have hresult := dispatch_result_mem env msg h.result
  have hrest : ∀ {client' : ClientState}, client'.saved = client.saved →
      client' = dispatch_server_message client env msg → Keeps P client' := by
    rintro client' hsaved rfl
    exact ⟨hsheet, hresult, by rw [hsaved]; exact h.saved⟩
  cases msg with
  | match_game_res res =>
    apply hrest ?_ rfl
    show (handle_match_game_response client env res).saved = _
    unfold handle_match_game_response
    split
    · split <;> rfl
    · rfl
  | move_broadcast b =>
    have happlied := apply_broadcast_applied client env b
    rw [move_broadcast_sheet] at hsheet
    -- the move is written down, and nothing is saved yet
    have hkeeps : Keeps P (apply_broadcast client env b) := by
      refine ⟨hsheet, ?_, ?_⟩
      · rw [happlied.result]
        exact h.result
      · rw [happlied.saved]
        exact h.saved
    show Keeps P (handle_move_broadcast client env b)
    unfold handle_move_broadcast
    simp only
    split
    · -- the end of the game saves it
      have hchatted : Keeps P ((apply_broadcast client env b).chat "Game".toList
          (snprintf 256 ("Game Over: ".toList ++ winner_text b.winner_team ++ " by ".toList ++
            end_type_text b.end_type))) := hkeeps.congr rfl rfl rfl
      exact (hchatted.save env.files).congr rfl rfl rfl
    · exact hkeeps
  | resign_broadcast b =>
    have hsame : (dispatch_server_message client env (.resign_broadcast b)).game_state.sheet =
        client.game_state.sheet := dispatch_sheet rfl
    rw [hsame] at hsheet
    show Keeps P (handle_resign_broadcast client env b)
    unfold handle_resign_broadcast
    refine Keeps.congr (Keeps.save ?_ env.files) rfl rfl rfl
    refine ⟨hsheet, ?_, h.saved⟩
    simp only
    split
    · exact won_by_mem _
    · exact won_by_mem _
  | move_res res =>
    apply hrest ?_ rfl
    show (handle_move_response client res).saved = _
    unfold handle_move_response
    split <;> rfl
  | resign_res res =>
    apply hrest ?_ rfl
    show (handle_resign_response client res).saved = _
    unfold handle_resign_response
    split <;> rfl
  | _ => exact hrest rfl rfl

/-! ## The main thread -/

/-- What the handlers of the board and of the chat line leave alone. -/
theorem Keeps.of_beyond_input {client client' : Client} (h : Keeps P client.state)
    (hbeyond : client'.beyond_input = client.beyond_input) : Keeps P client'.state := by
  have hview := congrArg (fun c : Client =>
    (c.state.game_state.sheet, c.state.game_state.pgn_result, c.state.saved)) hbeyond
  obtain ⟨hsheet, hrest⟩ := Prod.mk.inj hview
  obtain ⟨hresult, hsaved⟩ := Prod.mk.inj hrest
  exact h.congr hsheet hresult hsaved

theorem Keeps.resign_dialog {client : Client} {env : KeyEnv} {ch : Key} (h : Keeps P client.state) :
    Keeps P (client.handle_resign_dialog_input env ch).state := by
  have hsent : Keeps P (({ client with resign_dialog_active := false }.send_resign_request
      env).1).state := by
    apply Keeps.of_beyond_input ?_ Client.send_resign_request_beyond_input
    exact h
  unfold Client.handle_resign_dialog_input
  split
  · split
    · simp only
      split
      · exact hsent.congr rfl rfl rfl
      · exact hsent.congr rfl rfl rfl
    · split
      · exact h
      · exact h
  · exact h

/-- The menu of the game saves when the user asks for it. -/
theorem Keeps.game_menu {client : Client} {env : KeyEnv} {ch : Key} (h : Keeps P client.state) :
    Keeps P (client.handle_game_menu_key env ch).state := by
  have hchat : Keeps P (client.handle_chat_input env ch).state :=
    h.of_beyond_input (Client.handle_chat_input_beyond_input _)
  unfold Client.handle_game_menu_key
  split
  · split
    · exact h
    · exact h
  · exact h.congr rfl rfl rfl
  · exact h.save env.files
  · exact h.congr rfl rfl rfl
  · exact h.congr rfl rfl rfl
  · exact h.congr rfl rfl rfl
  · -- the chat line
    split
    · split
      · exact h
      · exact h
    · split
      · split
        · exact hchat
        · split
          · exact h
          · exact h
      · split
        · exact hchat
        · exact h

theorem Keeps.game_key {client : Client} {env : KeyEnv} {ch : Key} (h : Keeps P client.state) :
    Keeps P (client.handle_game_key env ch).state := by
  unfold Client.handle_game_key
  split
  · exact h.resign_dialog
  · split
    · exact h.game_menu
    · have hboard : Keeps P (client.handle_keyboard_board_input env ch).1.state :=
        h.of_beyond_input (Client.handle_keyboard_board_input_beyond_input _)
      simp only
      split
      · exact hboard
      · exact hboard.game_menu

theorem Keeps.start_matching {client : Client} {env : KeyEnv} (h : Keeps P client.state) :
    Keeps P (client.start_matching env).state := by
  unfold Client.start_matching
  simp only
  split
  · exact h.congr rfl rfl rfl
  · exact h.congr rfl rfl rfl

/-- A replay touches the position only. -/
theorem Keeps.start_replay {client : Client} (h : Keeps P client.state) (file : Option CString) :
    Keeps P (client.start_replay file).state := by
  unfold Client.start_replay
  simp only
  split
  · exact h
  · exact h.congr rfl rfl rfl

theorem Keeps.main_key {client client' : Client} {env : KeyEnv} {ch : Key}
    (h : Keeps P client.state)
    (hkey : client.handle_main_key env ch = some client') : Keeps P client'.state := by
  unfold Client.handle_main_key at hkey
  split at hkey
  · cases hkey
    have hnamed : Keeps P (client.get_username_dialog env.username).1.state := by
      unfold Client.get_username_dialog
      split
      · exact h
      · exact h.congr rfl rfl rfl
    split
    · exact hnamed.start_matching
    · exact hnamed
  · split at hkey
    · cases hkey
      exact h.start_replay _
    · cases hkey
      exact h
  · cases hkey
  · cases hkey
  · cases hkey
  · cases hkey
    exact h

theorem Keeps.key {client client' : Client} {env : KeyEnv} {ch : Key} (h : Keeps P client.state)
    (hkey : client.handle_key env ch = some client') : Keeps P client'.state := by
  unfold Client.handle_key at hkey
  split at hkey
  · split at hkey
    · cases hkey
      unfold Client.acknowledge_dialog
      simp only
      split
      · exact h.congr rfl rfl rfl
      · split
        · exact h.congr rfl rfl rfl
        · exact h.congr rfl rfl rfl
    · cases hkey
      exact h
  · split at hkey
    · cases hkey
      exact h.of_beyond_input (Client.handle_mouse_input_beyond_input ..)
    · split at hkey
      · exact h.main_key hkey
      · cases hkey
        unfold Client.handle_matching_key
        split
        · unfold Client.cancel_matching
          simp only
          split
          · exact h.congr rfl rfl rfl
          · exact h.congr rfl rfl rfl
        · exact h
      · cases hkey
        exact h.game_key

/-- **The main thread** keeps the sheet, and writes no other into a file. -/
theorem Keeps.step {client client' : Client} {e : ClientEvent} (h : Keeps P client.state)
    (hmain : e.of_main = true) (hstep : client.step e = some client') : Keeps P client'.state := by
  cases e with
  | message env msg => cases hmain
  | lost => cases hmain
  | connected send => cases hmain
  | key env ch => exact h.key (step_key.mp hstep).2
  | dialog =>
    obtain ⟨_, rfl⟩ := step_dialog.mp hstep
    unfold Client.show_pending_dialog
    repeat' split
    all_goals exact h.congr rfl rfl rfl
  | timer now =>
    obtain ⟨_, rfl⟩ := step_timer.mp hstep
    obtain ⟨_, _, _, htimer⟩ := Client.update_game_timer_eq client.state.game_state now
    simp only
    rw [htimer]
    exact h.congr rfl rfl rfl
  | resize too_small =>
    obtain ⟨_, rfl⟩ := step_resize.mp hstep
    exact h.congr rfl rfl rfl
  | auto_play now later =>
    obtain ⟨replay, _, rfl⟩ := step_auto_play.mp hstep
    unfold Client.auto_play
    split
    · exact h.congr rfl rfl rfl
    · exact h
  | replay_key now ch =>
    obtain ⟨replay, _, rfl⟩ := step_replay_key.mp hstep
    unfold Client.handle_replay_key
    repeat' split
    all_goals exact h.congr rfl rfl rfl

end keeps

theorem sheet_of_untouched {client client' : Client} (h : client'.untouched = client.untouched) :
    client'.state.game_state.sheet = client.state.game_state.sheet :=
  congrArg (fun u : GameState × Option ReplayState => u.1.sheet) h

theorem sheet_of_beyond_replay {client client' : Client}
    (h : client'.beyond_replay = client.beyond_replay) :
    client'.state.game_state.sheet = client.state.game_state.sheet := by
  have hview := congrArg (fun c : Client => c.state.game_state.sheet) h
  exact hview

/-- No step of the main thread changes the sheet. -/
theorem step_sheet {client client' : Client} {e : ClientEvent} (hmain : e.of_main = true)
    (hstep : client.step e = some client') :
    client'.state.game_state.sheet = client.state.game_state.sheet := by
  cases e with
  | message env msg => cases hmain
  | lost => cases hmain
  | connected send => cases hmain
  | key env ch =>
    rcases Client.handle_key_untouched (step_key.mp hstep).2 with huntouched | ⟨replay, _, hopens⟩
    · exact sheet_of_untouched huntouched
    · exact congrArg (fun u : GameState × Option ReplayState => u.1.sheet) hopens
  | dialog =>
    obtain ⟨_, rfl⟩ := step_dialog.mp hstep
    exact sheet_of_untouched Client.show_pending_dialog_untouched
  | timer now =>
    obtain ⟨_, rfl⟩ := step_timer.mp hstep
    obtain ⟨_, _, _, htimer⟩ := Client.update_game_timer_eq client.state.game_state now
    simp only
    rw [htimer]
    rfl
  | resize too_small =>
    obtain ⟨_, rfl⟩ := step_resize.mp hstep
    rfl
  | auto_play now later =>
    obtain ⟨replay, _, rfl⟩ := step_auto_play.mp hstep
    exact sheet_of_beyond_replay (Client.auto_play_beyond_replay now later)
  | replay_key now ch =>
    obtain ⟨replay, _, rfl⟩ := step_replay_key.mp hstep
    exact sheet_of_beyond_replay (Client.handle_replay_key_beyond_replay now)

end MultiplayChess
