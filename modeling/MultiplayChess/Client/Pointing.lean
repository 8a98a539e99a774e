import MultiplayChess.Client.Highlights

/-! # Pointing at squares

    The cursor and the selection of `client/ui/input.c`: whatever keys the
    user presses, the cursor stays on the board and so does the selected
    square.  Two clicks on the squares of a move, and the cursor keys that
    lead to them, ask for the same move. -/

namespace MultiplayChess

open LTS
open Chess (Move OnBoard Man)

/-! ## The cursor and the selection -/

/-- The cursor is on the board, and so is the selected square. -/
structure OnTheBoard (client : Client) : Prop where
  cursor : client.cursor_x ∈ files ∧ client.cursor_y ∈ files
  selected : client.piece_selected = true → OnBoard client.selected_x client.selected_y

section invariant

variable {client client' : Client} {env : KeyEnv} {ch : Key}

/-- The fields the invariant is about. -/
def Client.pointer (client : Client) : Int × Int × Bool × Int × Int :=
  (client.cursor_x, client.cursor_y, client.piece_selected, client.selected_x, client.selected_y)

theorem OnTheBoard.congr (h : OnTheBoard client) (hsame : client'.pointer = client.pointer) :
    OnTheBoard client' := by
  unfold Client.pointer at hsame
  simp only [Prod.mk.injEq] at hsame
  obtain ⟨hcx, hcy, hpiece, hsx, hsy⟩ := hsame
  refine ⟨?_, ?_⟩
  · rw [hcx, hcy]
    exact h.cursor
  · rw [hpiece, hsx, hsy]
    exact h.selected

/-- Without a selection the cursor is enough. -/
theorem OnTheBoard.unselected (h : OnTheBoard client) (hcx : client'.cursor_x = client.cursor_x)
    (hcy : client'.cursor_y = client.cursor_y) (hpiece : client'.piece_selected = false) :
    OnTheBoard client' := by
  refine ⟨?_, ?_⟩
  · rw [hcx, hcy]
    exact h.cursor
  · rw [hpiece]
    exact fun h => absurd h Bool.false_ne_true

theorem send_move_request_pointer (src dst : CString) :
    (client.send_move_request env src dst).1.pointer = client.pointer := by
  unfold Client.send_move_request
  repeat' split
  all_goals rfl

/-- A click on the board selects a square of it. -/
theorem OnTheBoard.click (h : OnTheBoard client) {bx bY : Int} (hon : OnBoard bx bY) :
    OnTheBoard (client.handle_board_click env bx bY) := by
  unfold Client.handle_board_click
  simp only
  split
  · split
    · split
      · exact h.congr rfl
      · split
        · exact h.congr rfl
        · exact ⟨h.cursor, fun _ => hon⟩
    · exact h
  · split
    · exact h.unselected rfl rfl rfl
    · split
      · exact h.unselected rfl rfl rfl
      · have hsent : (client.send_move_request env (Client.coordinate client.selected_x
            client.selected_y) (Client.coordinate bx bY)).1.pointer = client.pointer :=
          send_move_request_pointer _ _
        split
        · apply (h.congr hsent).unselected
          · rfl
          · rfl
          · rfl
        · exact h.congr hsent

theorem OnTheBoard.move_cursor (h : OnTheBoard client) (dx dy : Int) :
    OnTheBoard (client.move_cursor dx dy) := by
  have hkeep : ∀ {c d : Int}, c ∈ files →
      (if 0 ≤ c + d ∧ c + d < board_size then c + d else c) ∈ files := by
    intro c d hc
    split
    · rename_i hrange
      rw [mem_files]
      exact hrange
    · exact hc
  have hzero : (0 : Int) ∈ files := by decide
  unfold Client.move_cursor
  split
  · exact ⟨⟨hkeep h.cursor.1, hkeep h.cursor.2⟩, h.selected⟩
  · exact ⟨⟨hkeep hzero, hkeep hzero⟩, h.selected⟩

theorem OnTheBoard.board_key (h : OnTheBoard client) :
    OnTheBoard (client.handle_keyboard_board_input env ch).1 := by
  unfold Client.handle_keyboard_board_input
  split
  · exact h
  · split
    · exact h.move_cursor ..
    · exact h.move_cursor ..
    · exact h.move_cursor ..
    · exact h.move_cursor ..
    · split
      · split
        · exact h.click (Client.actual_square_on_board h.cursor.1 h.cursor.2)
        · exact h
      · split
        · split
          · exact h.unselected rfl rfl rfl
          · split
            · exact h.congr rfl
            · exact h
        · exact h
    · exact h

theorem handle_chess_notation_pointer (text : CString) :
    (client.handle_chess_notation env text).pointer = client.pointer := by
  unfold Client.handle_chess_notation
  split
  · rfl
  · split
    · rename_i sx sy dx dy
      have hsent : (client.send_move_request env [sx, sy] [dx, dy]).1.pointer = client.pointer :=
        send_move_request_pointer _ _
      simp only
      split
      · rfl
      · split
        · rfl
        · split
          · rfl
          · split
            · exact hsent
            · exact hsent
    · rfl

theorem handle_chat_input_pointer : (client.handle_chat_input env ch).pointer = client.pointer := by
  unfold Client.handle_chat_input
  split
  · rfl
  · split
    · rfl
    · split
      · simp only
        split
        · rfl
        · split
          · exact handle_chess_notation_pointer _
          · unfold Client.send_chat_message
            repeat' split
            all_goals rfl
      · repeat' split
        all_goals rfl
    · rfl

theorem handle_resign_dialog_input_pointer :
    (client.handle_resign_dialog_input env ch).pointer = client.pointer := by
  unfold Client.handle_resign_dialog_input Client.send_resign_request
  simp only
  repeat' split
  all_goals rfl

theorem handle_game_menu_key_pointer :
    (client.handle_game_menu_key env ch).pointer = client.pointer := by
  unfold Client.handle_game_menu_key
  repeat' split
  all_goals first | rfl | exact handle_chat_input_pointer

theorem OnTheBoard.game_key (h : OnTheBoard client) :
    OnTheBoard (client.handle_game_key env ch) := by
  unfold Client.handle_game_key
  split
  · exact h.congr handle_resign_dialog_input_pointer
  · split
    · exact h.congr handle_game_menu_key_pointer
    · simp only
      split
      · exact h.board_key
      · exact h.board_key.congr handle_game_menu_key_pointer

theorem start_matching_pointer : (client.start_matching env).pointer = client.pointer := by
  unfold Client.start_matching
  simp only
  split <;> rfl

theorem start_replay_pointer (file : Option CString) :
    (client.start_replay file).pointer = client.pointer := by
  unfold Client.start_replay
  simp only
  split <;> rfl

theorem handle_main_key_pointer (hkey : client.handle_main_key env ch = some client') :
    client'.pointer = client.pointer := by
  unfold Client.handle_main_key at hkey
  split at hkey
  · cases hkey
    have hnamed : (client.get_username_dialog env.username).1.pointer = client.pointer := by
      unfold Client.get_username_dialog
      split <;> rfl
    split
    · exact start_matching_pointer.trans hnamed
    · exact hnamed
  · split at hkey
    · cases hkey
      exact start_replay_pointer _
    · cases hkey
      rfl
  · cases hkey
  · cases hkey
  · cases hkey
  · cases hkey
    rfl

theorem handle_matching_key_pointer :
    (client.handle_matching_key env ch).pointer = client.pointer := by
  unfold Client.handle_matching_key Client.cancel_matching
  simp only
  repeat' split
  all_goals rfl

theorem OnTheBoard.key (h : OnTheBoard client) (hkey : client.handle_key env ch = some client') :
    OnTheBoard client' := by
  unfold Client.handle_key at hkey
  split at hkey
  · split at hkey
    · cases hkey
      apply h.congr
      unfold Client.acknowledge_dialog
      simp only
      repeat' split
      all_goals rfl
    · cases hkey
      exact h
  · split at hkey
    · cases hkey
      unfold Client.handle_mouse_input
      split
      · split
        · rename_i hat
          exact h.click (Client.coord_to_board_pos_iff.mp hat).1
        · exact h
      · exact h
    · split at hkey
      · exact h.congr (handle_main_key_pointer hkey)
      · cases hkey
        exact h.congr handle_matching_key_pointer
      · cases hkey
        exact h.game_key

/-- **The step lemma.** -/
theorem OnTheBoard.step {e : ClientEvent} (h : OnTheBoard client)
    (hstep : client.step e = some client') : OnTheBoard client' := by
  cases e with
  | message env msg =>
    cases hstep
    exact h.congr rfl
  | lost =>
    cases hstep
    apply h.congr
    unfold Client.lose_connection
    simp only
    split <;> rfl
  | connected send =>
    cases hstep
    apply h.congr
    unfold Client.reconnect
    split <;> rfl
  | key env ch => exact h.key (step_key.mp hstep).2
  | dialog =>
    obtain ⟨_, rfl⟩ := step_dialog.mp hstep
    apply h.congr
    unfold Client.show_pending_dialog
    repeat' split
    all_goals rfl
  | timer now =>
    obtain ⟨_, rfl⟩ := step_timer.mp hstep
    exact h.congr rfl
  | resize too_small =>
    obtain ⟨_, rfl⟩ := step_resize.mp hstep
    exact h.congr rfl
  | auto_play now later =>
    obtain ⟨replay, _, rfl⟩ := step_auto_play.mp hstep
    apply h.congr
    unfold Client.auto_play
    split <;> rfl
  | replay_key now ch =>
    obtain ⟨replay, _, rfl⟩ := step_replay_key.mp hstep
    apply h.congr
    unfold Client.handle_replay_key
    repeat' split
    all_goals rfl

/-- **In every session** the cursor and the selected square are on the
    board. -/
theorem session_on_the_board {es : List ClientEvent} (hrun : Run session init_client es client) :
    OnTheBoard client := by
  apply hrun.invariant
  · intro client e client' h _ hstep
    exact h.step hstep
  · refine ⟨by decide, fun h => ?_⟩
    cases h

end invariant

/-! ## Keys one after the other -/

/-- One key: a running replay takes it. -/
def press (env : KeyEnv) (now : Timeval) (client : Client) (ch : Key) : Option Client :=
  client.step (if client.replay.isSome then .replay_key now ch else .key env ch)

/-- The keys of a text. -/
def keys_of (text : CString) : List Key :=
  text.map .char

/-- Keys one after the other, with nothing else happening in between. -/
def type_keys (env : KeyEnv) (now : Timeval) (client : Client) (keys : List Key) : Option Client :=
  keys.foldlM (press env now) client

/-- The moves the client has asked for. -/
def asked (client : Client) : List MoveRequest :=
  client.outbox.filterMap fun
    | .move req => some req
    | _ => none

/-- The user is at the board of a game, and nothing is in the way of the
    keys. -/
structure AtBoard (client : Client) : Prop where
  screen : client.state.current_screen = .game
  dialog : client.state.dialog_active = false
  prompt : client.resign_dialog_active = false
  chat : client.chat_input_mode = false
  replay : client.replay = none
  connected : client.connected = true

section keys

variable {client client' : Client} {env : KeyEnv} {now : Timeval} {m : Move}

theorem type_keys_append (keys keys' : List Key) : type_keys env now client (keys ++ keys') =
    (type_keys env now client keys).bind fun client' => type_keys env now client' keys' := by
  exact List.foldlM_append

theorem type_keys_cons (ch : Key) (keys : List Key) : type_keys env now client (ch :: keys) =
    (press env now client ch).bind fun client' => type_keys env now client' keys := rfl

theorem press_of_no_replay (h : client.replay = none) (ch : Key) :
    press env now client ch = client.handle_key env ch := by
  unfold press Client.step
  rw [h]
  rfl

/-- On the game screen, without a dialog, the keys are the game's. -/
theorem press_game_key (hreplay : client.replay = none)
    (hdialog : client.state.dialog_active = false)
    (hscreen : client.state.current_screen = .game) {ch : Key}
    (hmouse : ∀ x y clicked, ch ≠ .mouse x y clicked) :
    press env now client ch = some (client.handle_game_key env ch) := by
  rw [press_of_no_replay hreplay]
  unfold Client.handle_key
  rw [if_neg (by rw [hdialog]; exact Bool.false_ne_true)]
  split
  · exact absurd rfl (hmouse _ _ _)
  · rw [hscreen]

/-- The board comes first, and the game menu takes what it leaves. -/
theorem AtBoard.press_key (h : AtBoard client) {ch : Key}
    (hmouse : ∀ x y clicked, ch ≠ .mouse x y clicked) :
    press env now client ch =
      some (if (client.handle_keyboard_board_input env ch).2
        then (client.handle_keyboard_board_input env ch).1
        else (client.handle_keyboard_board_input env ch).1.handle_game_menu_key env ch) := by
  rw [press_game_key h.replay h.dialog h.screen hmouse]
  unfold Client.handle_game_key
  rw [if_neg (by rw [h.prompt]; exact Bool.false_ne_true),
    if_neg (by rw [h.chat]; exact Bool.false_ne_true)]

/-- The board uses up the keys it knows. -/
theorem AtBoard.press_board (h : AtBoard client) {ch : Key}
    (hmouse : ∀ x y clicked, ch ≠ .mouse x y clicked)
    (hused : (client.handle_keyboard_board_input env ch).2 = true) :
    press env now client ch = some (client.handle_keyboard_board_input env ch).1 := by
  rw [h.press_key hmouse, if_pos hused]

theorem AtBoard.press_mouse (h : AtBoard client) {x y bx bY : Int}
    (hat : client.coord_to_board_pos x y = some (bx, bY)) :
    press env now client (.mouse x y true) = some (client.handle_board_click env bx bY) := by
  have hmouse : client.handle_mouse_input env x y true = client.handle_board_click env bx bY := by
    unfold Client.handle_mouse_input
    rw [h.screen, hat]
    rfl
  rw [press_of_no_replay h.replay]
  unfold Client.handle_key
  rw [if_neg (by rw [h.dialog]; exact Bool.false_ne_true)]
  exact congrArg some hmouse

/-! ## Two clicks -/

/-- The move is one of the user's own men, at the user's turn. -/
structure OwnMove (client : Client) (m : Move) : Prop where
  src : OnBoard m.sx m.sy
  dst : OnBoard m.dx m.dy
  moved : ¬ (m.dx = m.sx ∧ m.dy = m.sy)
  turn : client.state.game_state.game.side_to_move = client.state.game_state.local_team
  man : ∃ p, (client.state.game_state.game.board.get m.sy m.sx).piece = some p
  live : (client.state.game_state.game.board.get m.sy m.sx).is_dead = false
  own : (client.state.game_state.game.board.get m.sy m.sx).team = client.state.game_state.local_team

/-- The client after the first click. -/
def Client.selecting (client : Client) (m : Move) : Client :=
  { client with selected_x := m.sx, selected_y := m.sy, piece_selected := true }.chat
    "System" "Piece selected. Click destination."

/-- The first click selects the man. -/
theorem OwnMove.click (h : OwnMove client m) (hnone : client.piece_selected = false) :
    client.handle_board_click env m.sx m.sy = client.selecting m := by
  obtain ⟨p, hp⟩ := h.man
  unfold Client.handle_board_click
  simp only [hnone, hp, h.live]
  rw [if_pos (by rfl), if_pos (by rfl), if_neg (not_not.mpr h.turn), if_neg (not_not.mpr h.own)]
  rfl

theorem AtBoard.selecting (h : AtBoard client) (m : Move) : AtBoard (client.selecting m) :=
  ⟨h.screen, h.dialog, h.prompt, h.chat, h.replay, h.connected⟩

theorem asked_append {req : MoveRequest} (h : client'.outbox = client.outbox ++ [.move req]) :
    asked client' = asked client ++ [req] := by
  unfold asked
  rw [h, List.filterMap_append]
  rfl

/-- The second click asks for the move. -/
theorem AtBoard.second_click (h : AtBoard client) (hsend : env.send = true)
    (hsx : client.selected_x = m.sx) (hsy : client.selected_y = m.sy)
    (hselected : client.piece_selected = true) (hsrc : OnBoard m.sx m.sy) (hdst : OnBoard m.dx m.dy)
    (hmoved : ¬ (m.dx = m.sx ∧ m.dy = m.sy)) :
    asked (client.handle_board_click env m.dx m.dy) =
      asked client ++ [⟨Client.coordinate m.sx m.sy, Client.coordinate m.dx m.dy⟩] := by
  have houtbox := handle_board_click_outbox h.connected hsend hselected hdst
  rw [hsx, hsy, if_pos ⟨hsrc, hmoved⟩] at houtbox
  exact asked_append houtbox

/-! ## Steering the cursor -/

/-- The client with the cursor on a displayed square. -/
def Client.pointing (client : Client) (col row : Int) : Client :=
  { client with cursor_mode := true, cursor_x := col, cursor_y := row }

theorem AtBoard.pointing (h : AtBoard client) (col row : Int) : AtBoard (client.pointing col row) :=
  ⟨h.screen, h.dialog, h.prompt, h.chat, h.replay, h.connected⟩

/-- The key that moves the cursor by `(dx, dy)`. -/
inductive Arrow : Key → Int → Int → Prop where
  | up : Arrow .up 0 (-1)
  | down : Arrow .down 0 1
  | left : Arrow .left (-1) 0
  | right : Arrow .right 1 0

theorem AtBoard.press_arrow (h : AtBoard client) {ch : Key} {dx dy : Int}
    (harrow : Arrow ch dx dy) :
    press env now client ch = some (client.move_cursor dx dy) := by
  have hboard : client.handle_keyboard_board_input env ch = (client.move_cursor dx dy, true) := by
    unfold Client.handle_keyboard_board_input
    rw [if_neg (not_not.mpr h.screen)]
    cases harrow <;> rfl
  have hmouse : ∀ x y clicked, ch ≠ .mouse x y clicked := by
    cases harrow <;> exact fun _ _ _ => Key.noConfusion
  rw [h.press_board hmouse (by rw [hboard]), hboard]

/-- A coordinate of the cursor after a step: at the border it stays. -/
def clamp (c : Int) : Int :=
  max 0 (min 7 c)

theorem move_cursor_pointing {col row : Int} (hcol : col ∈ files) (hrow : row ∈ files) {dx dy : Int}
    (hdx : -1 ≤ dx ∧ dx ≤ 1) (hdy : -1 ≤ dy ∧ dy ≤ 1) :
    (client.pointing col row).move_cursor dx dy =
      client.pointing (clamp (col + dx)) (clamp (row + dy)) := by
  rw [mem_files] at hcol hrow
  have hclamp : ∀ {c d : Int}, 0 ≤ c ∧ c < 8 → -1 ≤ d ∧ d ≤ 1 →
      (if 0 ≤ c + d ∧ c + d < board_size then c + d else c) = clamp (c + d) := by
    intro c d hc hd
    unfold clamp board_size
    split <;> omega
  show client.pointing (if 0 ≤ col + dx ∧ col + dx < board_size then col + dx else col)
    (if 0 ≤ row + dy ∧ row + dy < board_size then row + dy else row) = _
  rw [hclamp hcol hdx, hclamp hrow hdy]

/-- The same arrow `n` times. -/
theorem AtBoard.press_arrows (h : AtBoard client) {ch : Key} {dx dy : Int} (harrow : Arrow ch dx dy)
    (n : Nat) {col row : Int} (hcol : col ∈ files) (hrow : row ∈ files) :
    type_keys env now (client.pointing col row) (List.replicate n ch) =
      some (client.pointing (clamp (col + n * dx)) (clamp (row + n * dy))) := by
  have hbounds : (-1 ≤ dx ∧ dx ≤ 1) ∧ -1 ≤ dy ∧ dy ≤ 1 := by
    cases harrow <;> decide
  induction n generalizing col row with
  | zero =>
    rw [mem_files] at hcol hrow
    have hcol' : clamp (col + (0 : Nat) * dx) = col := by
      unfold clamp
      omega
    have hrow' : clamp (row + (0 : Nat) * dy) = row := by
      unfold clamp
      omega
    rw [hcol', hrow']
    rfl
  | succ n ih =>
    have hmem : ∀ c, clamp c ∈ files := by
      intro c
      rw [mem_files]
      unfold clamp
      omega
    rw [List.replicate_succ, type_keys_cons, (h.pointing col row).press_arrow harrow,
      move_cursor_pointing hcol hrow hbounds.1 hbounds.2, Option.bind_some,
      ih (hmem _) (hmem _)]
    have hclamp : ∀ {c d : Int}, d = -1 ∨ d = 0 ∨ d = 1 → c ∈ files →
        clamp (clamp (c + d) + n * d) = clamp (c + (n + 1 : Nat) * d) := by
      intro c d hd hc
      rw [mem_files] at hc
      unfold clamp
      rcases hd with rfl | rfl | rfl <;> omega
    rw [hclamp (by cases harrow <;> decide) hcol, hclamp (by cases harrow <;> decide) hrow]

/-- The space bar and Enter choose the square of the cursor. -/
def Chooses (c : Char) : Prop :=
  c = ' ' ∨ c = '\n' ∨ c = '\r'

/-- The keys that bring the cursor to the displayed square, wherever it is,
    and choose the square with `c`. -/
def steer (c : Char) (square : Int × Int) : List Key :=
  List.replicate 8 .up ++ List.replicate 7 .left ++ List.replicate square.1.toNat .right ++
    List.replicate square.2.toNat .down ++ [.char c]

/-- The first arrow shows the cursor. -/
theorem AtBoard.press_up (h : AtBoard client) (env : KeyEnv) (now : Timeval)
    (hon : OnTheBoard client) :
    ∃ col row, col ∈ files ∧ row ∈ files ∧
      press env now client .up = some (client.pointing col row) := by
  rw [h.press_arrow .up]
  have hmoved := hon.move_cursor 0 (-1)
  refine ⟨_, _, hmoved.cursor.1, hmoved.cursor.2, ?_⟩
  unfold Client.move_cursor
  split
  · rename_i hmode
    unfold Client.pointing
    simp only [hmode]
  · rfl

/-- **Steering.** -/
theorem AtBoard.press_steer (h : AtBoard client) (env : KeyEnv) (now : Timeval)
    (hon : OnTheBoard client) {c : Char} (hchooses : Chooses c) {col row : Int}
    (hcol : col ∈ files) (hrow : row ∈ files) : type_keys env now client (steer c (col, row)) =
      some ((client.pointing col row).handle_board_click env
        (client.actual_square col row).1 (client.actual_square col row).2) := by
  obtain ⟨col₀, row₀, hcol₀, hrow₀, hup⟩ := h.press_up env now hon
  have hzero : (0 : Int) ∈ files := by decide
  have hchoice : press env now (client.pointing col row) (.char c) =
      some ((client.pointing col row).handle_board_click env
        (client.actual_square col row).1 (client.actual_square col row).2) := by
    have hboard : (client.pointing col row).handle_keyboard_board_input env (.char c) =
        ((client.pointing col row).handle_board_click env
          (client.actual_square col row).1 (client.actual_square col row).2, true) := by
      unfold Client.handle_keyboard_board_input
      rw [if_neg (not_not.mpr (h.pointing col row).screen)]
      exact if_pos hchooses
    rw [(h.pointing col row).press_board (fun _ _ _ => Key.noConfusion) (by rw [hboard]), hboard]
  have harrows : ∀ {ch : Key} {dx dy : Int}, Arrow ch dx dy → ∀ (n : Nat) (x y x' y' : Int),
      x ∈ files → y ∈ files → clamp (x + n * dx) = x' → clamp (y + n * dy) = y' →
      type_keys env now (client.pointing x y) (List.replicate n ch) =
        some (client.pointing x' y') := by
    rintro ch dx dy harrow n x y x' y' hx hy rfl rfl
    exact h.press_arrows harrow n hx hy
  have hc₀ := (mem_files _).mp hcol₀
  have hr₀ := (mem_files _).mp hrow₀
  have hc := (mem_files _).mp hcol
  have hr := (mem_files _).mp hrow
  -- first to the corner, wherever the cursor was
  have hups := harrows .up 7 col₀ row₀ col₀ 0 hcol₀ hrow₀ (by unfold clamp; omega)
    (by unfold clamp; omega)
  have hlefts := harrows .left 7 col₀ 0 0 0 hcol₀ hzero (by unfold clamp; omega)
    (by unfold clamp; omega)
  -- and from there to the square
  have hrights := harrows .right col.toNat 0 0 col 0 hzero hzero (by unfold clamp; omega)
    (by unfold clamp; omega)
  have hdowns := harrows .down row.toNat col 0 col row hcol hzero (by unfold clamp; omega)
    (by unfold clamp; omega)
  have hfirst : type_keys env now client (List.replicate 8 .up) =
      some (client.pointing col₀ 0) := by
    rw [List.replicate_succ, type_keys_cons, hup]
    exact hups
  unfold steer
  simp only [type_keys_append, hfirst, hlefts, hrights, hdowns, Option.bind_some]
  rw [type_keys_cons, hchoice]
  rfl

/-- The request for a move. -/
def move_request (m : Move) : MoveRequest :=
  ⟨Client.coordinate m.sx m.sy, Client.coordinate m.dx m.dy⟩

/-- **With the mouse.** -/
theorem AtBoard.enter_by_mouse (h : AtBoard client) (hsend : env.send = true)
    (hnone : client.piece_selected = false) (hmove : OwnMove client m) {x y x' y' : Int}
    (hsrc : client.coord_to_board_pos x y = some (m.sx, m.sy))
    (hdst : client.coord_to_board_pos x' y' = some (m.dx, m.dy)) :
    ∃ client', type_keys env now client [.mouse x y true, .mouse x' y' true] = some client' ∧
      asked client' = asked client ++ [move_request m] := by
  refine ⟨(client.selecting m).handle_board_click env m.dx m.dy, ?_, ?_⟩
  · rw [type_keys_cons, h.press_mouse hsrc, hmove.click hnone, Option.bind_some, type_keys_cons]
    have hdst' : (client.selecting m).coord_to_board_pos x' y' = some (m.dx, m.dy) := hdst
    rw [(h.selecting m).press_mouse hdst']
    rfl
  · exact (h.selecting m).second_click hsend rfl rfl rfl hmove.src hmove.dst hmove.moved

theorem OwnMove.pointing (h : OwnMove client m) (col row : Int) :
    OwnMove (client.pointing col row) m :=
  ⟨h.src, h.dst, h.moved, h.turn, h.man, h.live, h.own⟩

/-- A square of the board is displayed on the screen. -/
theorem shown_square (client : Client) {x y : Int} (hon : OnBoard x y) :
    (client.actual_square x y).1 ∈ files ∧ (client.actual_square x y).2 ∈ files := by
  obtain ⟨⟨hx, hx8⟩, hy, hy8⟩ := hon
  have hshown : OnBoard (client.actual_square x y).1 (client.actual_square x y).2 :=
    Client.actual_square_on_board ((mem_files x).mpr ⟨hx, hx8⟩) ((mem_files y).mpr ⟨hy, hy8⟩)
  obtain ⟨⟨ha, ha8⟩, hb, hb8⟩ := hshown
  exact ⟨(mem_files _).mpr ⟨ha, ha8⟩, (mem_files _).mpr ⟨hb, hb8⟩⟩

/-- **With the cursor.** -/
theorem AtBoard.enter_by_cursor (h : AtBoard client) (hon : OnTheBoard client)
    (hsend : env.send = true) (hnone : client.piece_selected = false) (hmove : OwnMove client m)
    {c c' : Char} (hc : Chooses c) (hc' : Chooses c') :
    ∃ client', type_keys env now client (steer c (client.actual_square m.sx m.sy) ++
        steer c' (client.actual_square m.dx m.dy)) = some client' ∧
      asked client' = asked client ++ [move_request m] := by
  obtain ⟨hcol, hrow⟩ := shown_square client hmove.src
  obtain ⟨hcol', hrow'⟩ := shown_square client hmove.dst
  have hfirst : type_keys env now client (steer c (client.actual_square m.sx m.sy)) =
      some ((client.pointing (client.actual_square m.sx m.sy).1
        (client.actual_square m.sx m.sy).2).selecting m) := by
    have hsteer := h.press_steer env now hon hc hcol hrow
    rw [Client.actual_square_twice] at hsteer
    exact hsteer.trans (congrArg some ((hmove.pointing _ _).click hnone))
  have hboard : AtBoard ((client.pointing (client.actual_square m.sx m.sy).1
      (client.actual_square m.sx m.sy).2).selecting m) := (h.pointing _ _).selecting m
  have hon' : OnTheBoard ((client.pointing (client.actual_square m.sx m.sy).1
      (client.actual_square m.sx m.sy).2).selecting m) := ⟨⟨hcol, hrow⟩, fun _ => hmove.src⟩
  have hsecond := hboard.press_steer env now hon' hc' hcol' hrow'
  rw [type_keys_append, hfirst, Option.bind_some]
  refine ⟨_, hsecond, ?_⟩
  have htarget : ((client.pointing (client.actual_square m.sx m.sy).1
      (client.actual_square m.sx m.sy).2).selecting m).actual_square
        (client.actual_square m.dx m.dy).1 (client.actual_square m.dx m.dy).2 = (m.dx, m.dy) :=
    Client.actual_square_twice
  rw [htarget]
  exact (hboard.pointing _ _).second_click hsend rfl rfl rfl hmove.src hmove.dst hmove.moved

end keys

end MultiplayChess
