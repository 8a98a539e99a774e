import MultiplayChess.Client.Linked

/-! # A running game

    As long as the game goes on at the server, the client should stay at the
    board until the user leaves it.  Four things take it away: a key that
    closes a dialog, whichever dialog it is; a key of the menu, typed into
    the chat line; the refusal of an earlier request; and a name that is
    entered in a prompt which was open when the game began. -/

namespace MultiplayChess

open LTS

/-! ## Leaving the board -/

/-- The key of the menu that leaves the game. -/
def leave_key (ch : Key) : Bool :=
  ch = .char '4' || ch = .char 'q' || ch = .char 'Q'

theorem leave_key_iff {ch : Key} : leave_key ch = true ↔
    ch = .char '4' ∨ ch = .char 'q' ∨ ch = .char 'Q' := by
  simp [leave_key, or_assoc]

namespace Client

/-- What the user types goes into the chat line of the game. -/
def typing (client : Client) : Bool :=
  client.state.current_screen == .game && !client.state.dialog_active &&
    !client.resign_dialog_active && client.chat_input_mode

/-- The key takes the user from the game to the main screen. -/
def leaves (client : Client) (ch : Key) : Bool :=
  if client.state.dialog_active then closes_dialog ch
  else !client.resign_dialog_active && leave_key ch

theorem typing_iff {client : Client} : client.typing = true ↔
    client.state.current_screen = .game ∧ client.state.dialog_active = false ∧
      client.resign_dialog_active = false ∧ client.chat_input_mode = true := by
  simp [typing, and_assoc]

section keys

variable {client client' : Client} {env : KeyEnv} {ch : Key}

/-- The user closes a dialog, types, or means to leave. -/
theorem leaves_cases (hgame : client.state.current_screen = .game)
    (h : client.leaves ch = true) :
    client.state.dialog_active = true ∧ closes_dialog ch = true ∨
      client.typing = true ∧ leave_key ch = true ∨
      (!client.state.dialog_active && !client.resign_dialog_active && !client.chat_input_mode &&
        leave_key ch) = true := by
  unfold leaves at h
  split at h
  · rename_i hactive
    exact .inl ⟨hactive, h⟩
  · rename_i hactive
    have hinactive := Bool.eq_false_iff.mpr hactive
    rw [Bool.and_eq_true, Bool.not_eq_true'] at h
    obtain ⟨hresign, hleave⟩ := h
    apply Or.inr
    cases hchat : client.chat_input_mode with
    | true => exact .inl ⟨typing_iff.mpr ⟨hgame, hinactive, hresign, hchat⟩, hleave⟩
    | false =>
      apply Or.inr
      rw [hinactive, hresign, hleave]
      rfl

/-- The screen, and whether the prompt to resign is open. -/
def view (client : Client) : Screen × Bool :=
  (client.state.current_screen, client.resign_dialog_active)

theorem view_of_beyond_input (h : client'.beyond_input = client.beyond_input) :
    client'.view = client.view := by
  have hview := congrArg view h
  exact hview

theorem handle_resign_dialog_input_screen :
    (client.handle_resign_dialog_input env ch).state.current_screen =
      client.state.current_screen := by
  have hsent : ({ client with resign_dialog_active := false }.send_resign_request
      env).1.state.current_screen = client.state.current_screen :=
    congrArg Prod.fst (view_of_beyond_input send_resign_request_beyond_input)
  unfold handle_resign_dialog_input
  split
  · split
    · simp only
      split
      · exact hsent
      · exact hsent
    · split <;> rfl
  · rfl

/-- **The menu** of the game screen.  It looks at the key before it looks at
    the chat line. -/
theorem handle_game_menu_key_view : (client.handle_game_menu_key env ch).view =
    (if leave_key ch then .main else client.state.current_screen,
      client.resign_dialog_active || ch = .char '1') := by
  unfold handle_game_menu_key
  split
  · -- the prompt to resign
    split
    · rename_i hopen
      simp [view, leave_key, hopen]
    · simp [view, leave_key]
  · simp [view, leave_key, ClientState.chat]
  · simp [view, leave_key, ClientState.save]
  · simp [view, leave_key, goto]
  · simp [view, leave_key, goto]
  · simp [view, leave_key, goto]
  · -- the other keys are for the chat line
    rename_i h1 _ _ h4 hq hQ
    have hstay : ∀ client' : Client, client'.beyond_input = client.beyond_input →
        client'.view = (if leave_key ch then .main else client.state.current_screen,
          client.resign_dialog_active || ch = .char '1') := by
      intro client' hbeyond
      have hleave : leave_key ch ≠ true := by
        rw [Ne, leave_key_iff]
        rintro (h | h | h)
        · exact h4 h
        · exact hq h
        · exact hQ h
      have hresign : ¬ ch = .char '1' := h1
      rw [view_of_beyond_input hbeyond, if_neg hleave]
      simp [view, hresign]
    split
    · split
      · exact hstay _ rfl
      · exact hstay _ rfl
    · split
      · split
        · exact hstay _ (handle_chat_input_beyond_input _)
        · split
          · exact hstay _ rfl
          · exact hstay _ rfl
      · split
        · exact hstay _ (handle_chat_input_beyond_input _)
        · exact hstay _ rfl

/-- The board has no use for the keys that leave. -/
theorem handle_keyboard_board_input_menu (hleave : leave_key ch = true) :
    client.handle_keyboard_board_input env ch = (client, false) := by
  unfold handle_keyboard_board_input
  rcases leave_key_iff.mp hleave with rfl | rfl | rfl
  · simp [esc]
  · simp [esc]
  · simp [esc]

/-- The keys of the game screen while the chat line is open. -/
theorem handle_game_key_typing (htyping : client.typing = true) :
    (client.handle_game_key env ch).view =
      (if leave_key ch then .main else .game, decide (ch = .char '1')) := by
  obtain ⟨hgame, _, hresign, hchat⟩ := typing_iff.mp htyping
  unfold handle_game_key
  rw [if_neg (by rw [hresign]; exact Bool.false_ne_true), if_pos hchat, handle_game_menu_key_view,
    hgame, hresign, Bool.false_or]

theorem handle_game_key_screen (hgame : client.state.current_screen = .game) :
    (client.handle_game_key env ch).state.current_screen =
      if !client.resign_dialog_active && leave_key ch then .main else .game := by
  have hmenu : ∀ client' : Client, client'.state.current_screen = .game →
      (client'.handle_game_menu_key env ch).state.current_screen =
        if leave_key ch then .main else .game := by
    intro client' hgame'
    rw [← hgame']
    exact congrArg Prod.fst handle_game_menu_key_view
  unfold handle_game_key
  split
  · rename_i hresign
    rw [handle_resign_dialog_input_screen, hgame, hresign]
    rfl
  · rename_i hresign
    rw [Bool.eq_false_iff.mpr hresign, Bool.not_false, Bool.true_and]
    split
    · exact hmenu client hgame
    · have hboard : (client.handle_keyboard_board_input env ch).1.state.current_screen = .game := by
        have hview : (client.handle_keyboard_board_input env ch).1.view = client.view :=
          view_of_beyond_input (handle_keyboard_board_input_beyond_input ch)
        exact (congrArg Prod.fst hview).trans hgame
      simp only
      split
      · -- a key the board has used up is none of the menu
        rename_i hused
        have hleave : leave_key ch ≠ true := by
          intro hleave
          rw [handle_keyboard_board_input_menu hleave] at hused
          cases hused
        rw [if_neg hleave]
        exact hboard
      · exact hmenu _ hboard

/-- What the game screen does with a key while no dialog is open. -/
theorem handle_key_game (hgame : client.state.current_screen = .game)
    (hinactive : client.state.dialog_active = false) (h : client.handle_key env ch = some client') :
    client'.view = client.view ∧ leave_key ch = false ∧ ch ≠ .char '1' ∨
      client' = client.handle_game_key env ch := by
  unfold handle_key at h
  rw [if_neg (by rw [hinactive]; exact Bool.false_ne_true)] at h
  split at h
  · cases h
    exact .inl ⟨view_of_beyond_input (handle_mouse_input_beyond_input ..), rfl, Key.noConfusion⟩
  · rw [hgame] at h
    cases h
    exact .inr rfl

/-- **A key** on the game screen. -/
theorem handle_key_screen (hgame : client.state.current_screen = .game)
    (h : client.handle_key env ch = some client') :
    client'.state.current_screen = if client.leaves ch then .main else .game := by
  unfold leaves
  by_cases hactive : client.state.dialog_active = true
  · rw [if_pos hactive]
    unfold handle_key at h
    rw [if_pos hactive] at h
    split at h
    · -- whatever the dialog has said, its end leads to the main screen
      rename_i hcloses
      cases h
      rw [if_pos (closes_dialog_iff.mpr hcloses)]
      unfold acknowledge_dialog
      simp only
      repeat' split
      all_goals rfl
    · rename_i hcloses
      cases h
      rw [if_neg fun hch => hcloses (closes_dialog_iff.mp hch)]
      exact hgame
  · rw [if_neg hactive]
    rcases handle_key_game hgame (Bool.eq_false_iff.mpr hactive) h with ⟨hview, hleave, _⟩ | rfl
    · rw [hleave, Bool.and_false]
      exact (congrArg Prod.fst hview).trans hgame
    · exact handle_game_key_screen hgame

/-- **A key for the chat line.** -/
theorem handle_key_typing (htyping : client.typing = true)
    (h : client.handle_key env ch = some client') :
    client'.view = (if leave_key ch then .main else .game, decide (ch = .char '1')) := by
  obtain ⟨hgame, hinactive, hresign, _⟩ := typing_iff.mp htyping
  rcases handle_key_game hgame hinactive h with ⟨hview, hleave, hmenu⟩ | rfl
  · rw [hview, hleave, decide_eq_false hmenu]
    exact Prod.ext hgame hresign
  · exact handle_game_key_typing htyping

theorem start_matching_screen : (client.start_matching env).state.current_screen ≠ .game := by
  unfold start_matching
  simp only
  split
  · exact Screen.noConfusion
  · exact Screen.noConfusion

/-- A name that is entered starts the search, whatever the screen is. -/
theorem handle_main_key_name (h : client.handle_main_key env (.char '1') = some client') :
    if env.username.take 30 = [] then client' = client
    else client'.state.current_screen ≠ .game := by
  unfold handle_main_key at h
  cases h
  unfold get_username_dialog
  split
  · rfl
  · exact start_matching_screen

end keys

/-! ### The other steps -/

section others

variable {client client' : Client}

theorem screen_of_beyond_replay (h : client'.beyond_replay = client.beyond_replay) :
    client'.state.current_screen = client.state.current_screen := by
  have hscreen := congrArg (fun client : Client => client.state.current_screen) h
  exact hscreen

theorem show_pending_dialog_screen :
    client.show_pending_dialog.state.current_screen = client.state.current_screen := by
  unfold show_pending_dialog
  repeat' split
  all_goals rfl

theorem lose_connection_screen :
    client.lose_connection.state.current_screen = client.state.current_screen := by
  unfold lose_connection
  simp only
  split <;> rfl

/-- Apart from the keys of the main loop nothing the main thread does changes
    the screen. -/
theorem step_screen {e : ClientEvent} (hmain : e.of_main = true)
    (hkey : ∀ env ch, e ≠ .key env ch) (hstep : client.step e = some client') :
    client'.state.current_screen = client.state.current_screen := by
  cases e with
  | message env msg => cases hmain
  | lost => cases hmain
  | connected send => cases hmain
  | key env ch => exact absurd rfl (hkey env ch)
  | dialog =>
    obtain ⟨_, rfl⟩ := step_dialog.mp hstep
    exact show_pending_dialog_screen
  | timer now =>
    obtain ⟨_, rfl⟩ := step_timer.mp hstep
    rfl
  | resize too_small =>
    obtain ⟨_, rfl⟩ := step_resize.mp hstep
    rfl
  | auto_play now later =>
    obtain ⟨replay, _, rfl⟩ := step_auto_play.mp hstep
    exact screen_of_beyond_replay (auto_play_beyond_replay now later)
  | replay_key now ch =>
    obtain ⟨replay, _, rfl⟩ := step_replay_key.mp hstep
    exact screen_of_beyond_replay (handle_replay_key_beyond_replay now)

end others

end Client

/-! ### Messages -/

/-- The message refuses a request for a game. -/
def refuses : ServerMessage → Bool
  | .match_game_res res => !res.success
  | _ => false

theorem handle_move_broadcast_screen (client : ClientState) (env : ClientEnv) (b : MoveBroadcast) :
    (handle_move_broadcast client env b).current_screen = client.current_screen := by
  have happly : (apply_broadcast client env b).current_screen = client.current_screen := by
    unfold apply_broadcast
    simp only
    split <;> rfl
  unfold handle_move_broadcast
  simp only
  split
  · exact happly
  · exact happly

/-- **A message** on the game screen. -/
theorem dispatch_screen {client : ClientState} (hgame : client.current_screen = .game)
    (env : ClientEnv) (msg : ServerMessage) :
    (dispatch_server_message client env msg).current_screen =
      if refuses msg then .main else .game := by
  cases msg with
  | match_game_res res =>
    show (handle_match_game_response client env res).current_screen = if !res.success then _ else _
    unfold handle_match_game_response
    cases res.success with
    | true =>
      show _ = Screen.game
      rw [if_pos rfl]
      split
      · exact hgame
      · rfl
    | false =>
      rw [if_neg Bool.false_ne_true]
      rfl
  | move_broadcast b => exact (handle_move_broadcast_screen client env b).trans hgame
  | resign_broadcast b => exact hgame
  | resign_res res =>
    show (handle_resign_response client res).current_screen = .game
    unfold handle_resign_response
    split <;> exact hgame
  | move_res res =>
    show (handle_move_response client res).current_screen = .game
    unfold handle_move_response
    split <;> exact hgame
  | _ => exact hgame

/-! ## The property -/

/-- The client is at the board, its connection is up, and the game it was
    told to start goes on at the server. -/
structure Running (s : Linked) : Prop where
  screen : s.client.state.current_screen = .game
  connected : s.client.connected = true
  active : ∃ j team, s.mgr.fd_at (.seat j team) = some s.fd ∧
    (s.mgr.active_games j).game_id = s.game_id

/-- The user leaves the game: a key of the menu, outside the chat line and
    without a dialog. -/
def leaves_on_purpose (s : Linked) : LinkedEvent → Bool
  | .main (.key _ ch) =>
    !s.client.state.dialog_active && !s.client.resign_dialog_active &&
      !s.client.chat_input_mode && leave_key ch
  | _ => false

/-- The user types into the chat line. -/
def types (s : Linked) : LinkedEvent → Bool
  | .main (.key _ _) => s.client.typing
  | _ => false

/-- A running game is left on purpose only, and what is typed into the chat
    line neither leaves the game nor asks whether to resign. -/
def StaysInGame (s : Linked) (e : LinkedEvent) : Prop :=
  linked.Keeps (fun s' =>
    (Running s → leaves_on_purpose s e = false → s'.client.state.current_screen = .game) ∧
      (types s e = true → s'.client.view = (.game, false))) s e

/-- The steps that go wrong. -/
def BreaksOff (s : Linked) : LinkedEvent → Prop
  | .main (.key _ ch) =>
    -- a dialog is closed, or a key of the menu typed
    Running s ∧ s.client.state.dialog_active = true ∧ Client.closes_dialog ch = true ∨
      s.client.typing = true ∧ (leave_key ch = true ∨ ch = .char '1')
  | .receive _ => Running s ∧ ∃ msg, s.on_the_way.head? = some msg ∧ refuses msg = true
  | .enter_name env => Running s ∧ env.username.take 30 ≠ []
  | _ => False

section property

variable {s s' : Linked}

/-- The next state is the only one. -/
theorem stays_in_game_step {e : LinkedEvent} (hstep : linked.step s e s') : StaysInGame s e ↔
    (Running s → leaves_on_purpose s e = false → s'.client.state.current_screen = .game) ∧
      (types s e = true → s'.client.view = (.game, false)) := by
  constructor
  · intro h
    exact h s' hstep
  · intro h t ht
    have hrun : linked_run s e = some s' := hstep
    have hrun' : linked_run s e = some t := ht
    cases hrun.symm.trans hrun'
    exact h

/-- Nothing is typed. -/
theorem stays_in_game_untyped {e : LinkedEvent} (hstep : linked.step s e s')
    (htypes : types s e = false) : StaysInGame s e ↔
      (Running s → leaves_on_purpose s e = false → s'.client.state.current_screen = .game) := by
  rw [stays_in_game_step hstep, htypes]
  simp

/-- A step that leaves the screen alone. -/
theorem stays_in_game_of_screen {e : LinkedEvent} (hstep : linked.step s e s')
    (hscreen : s'.client.state.current_screen = s.client.state.current_screen)
    (htypes : types s e = false) : StaysInGame s e := by
  rw [stays_in_game_untyped hstep htypes]
  intro hrunning _
  exact hscreen.trans hrunning.screen

/-- **A key of the main loop.** -/
theorem stays_in_game_key_iff {env : KeyEnv} {ch : Key}
    (hstep : linked.step s (.main (.key env ch)) s') :
    StaysInGame s (.main (.key env ch)) ↔ ¬ BreaksOff s (.main (.key env ch)) := by
  have hkey : s.client.handle_key env ch = some s'.client := (step_key.mp (main_cases hstep).2.1).2
  rw [stays_in_game_step hstep]
  constructor
  · intro ⟨hleft, htyped⟩ hbreaks
    rcases hbreaks with ⟨hrunning, hactive, hcloses⟩ | ⟨htyping, hmenu⟩
    · have hscreen := Client.handle_key_screen hrunning.screen hkey
      have hpurpose : leaves_on_purpose s (.main (.key env ch)) = false := by
        unfold leaves_on_purpose
        rw [hactive]
        rfl
      rw [hleft hrunning hpurpose] at hscreen
      unfold Client.leaves at hscreen
      rw [if_pos hactive, if_pos hcloses] at hscreen
      cases hscreen
    · have hview := Client.handle_key_typing htyping hkey
      rw [htyped htyping, Prod.mk.injEq] at hview
      rcases hmenu with hleave | hresign
      · rw [if_pos hleave] at hview
        cases hview.1
      · rw [decide_eq_true hresign] at hview
        cases hview.2
  · intro hbreaks
    constructor
    · intro hrunning hpurpose
      rw [Client.handle_key_screen hrunning.screen hkey]
      apply if_neg
      intro hleaves
      rcases Client.leaves_cases hrunning.screen hleaves with hclosed | htyped | hmenu
      · exact hbreaks (.inl ⟨hrunning, hclosed⟩)
      · exact hbreaks (.inr ⟨htyped.1, .inl htyped.2⟩)
      · cases hpurpose.symm.trans hmenu
    · intro htyping
      rw [Client.handle_key_typing htyping hkey]
      have hleave : leave_key ch ≠ true := fun h => hbreaks (.inr ⟨htyping, .inl h⟩)
      have hresign : ch ≠ .char '1' := fun h => hbreaks (.inr ⟨htyping, .inr h⟩)
      rw [if_neg hleave, decide_eq_false hresign]

/-- **A message.** -/
theorem stays_in_game_receive_iff {env : ClientEnv} (hstep : linked.step s (.receive env) s') :
    StaysInGame s (.receive env) ↔ ¬ BreaksOff s (.receive env) := by
  obtain ⟨msg, hhead, hclient, _⟩ := receive_cases hstep
  rw [stays_in_game_untyped hstep rfl, hclient]
  constructor
  · intro hleft ⟨hrunning, msg', hhead', hrefuses⟩
    cases hhead.symm.trans hhead'
    have hmain := (dispatch_screen hrunning.screen env msg).trans (if_pos hrefuses)
    cases hmain.symm.trans (hleft hrunning rfl)
  · intro hbreaks hrunning _
    exact (dispatch_screen hrunning.screen env msg).trans
      (if_neg fun hrefuses => hbreaks ⟨hrunning, msg, hhead, hrefuses⟩)

/-- **A name.** -/
theorem stays_in_game_name_iff {env : KeyEnv} (hstep : linked.step s (.enter_name env) s') :
    StaysInGame s (.enter_name env) ↔ ¬ BreaksOff s (.enter_name env) := by
  have hname := Client.handle_main_key_name (enter_name_cases hstep).1
  rw [stays_in_game_untyped hstep rfl]
  constructor
  · intro hleft ⟨hrunning, hnamed⟩
    rw [if_neg hnamed] at hname
    exact hname (hleft hrunning rfl)
  · intro hbreaks hrunning _
    rw [if_pos (not_not.mp fun hnamed => hbreaks ⟨hrunning, hnamed⟩)] at hname
    rw [hname]
    exact hrunning.screen

/-- **A step.** -/
theorem stays_in_game_iff {e : LinkedEvent} (hstep : linked.step s e s') :
    StaysInGame s e ↔ ¬ BreaksOff s e := by
  have hfine : ∀ {e : LinkedEvent}, linked.step s e s' → types s e = false → ¬ BreaksOff s e →
      s'.client.state.current_screen = s.client.state.current_screen →
      (StaysInGame s e ↔ ¬ BreaksOff s e) := by
    intro e hstep htypes hbreaks hscreen
    exact iff_of_true (stays_in_game_of_screen hstep hscreen htypes) hbreaks
  cases e with
  | server e =>
    apply hfine hstep rfl id
    rw [(serve_cases hstep).1]
  | lost =>
    apply hfine hstep rfl id
    cases hstep
    exact Client.lose_connection_screen
  | open_prompt =>
    apply hfine hstep rfl id
    rw [(open_prompt_cases hstep).1]
  | connect fd send =>
    -- a game does not run without a connection
    obtain ⟨hdown, _, _⟩ := connect_cases hstep
    apply iff_of_true ?_ id
    rw [stays_in_game_untyped hstep rfl]
    intro hrunning
    cases hdown.symm.trans hrunning.connected
  | receive env => exact stays_in_game_receive_iff hstep
  | enter_name env => exact stays_in_game_name_iff hstep
  | main e =>
    obtain ⟨hmain, hclient, _⟩ := main_cases hstep
    cases e with
    | key env ch => exact stays_in_game_key_iff hstep
    | message env msg => cases hmain
    | lost => cases hmain
    | connected send => cases hmain
    | _ => exact hfine hstep rfl id (Client.step_screen hmain (by intros; simp) hclient)

end property

/-- **Runs.** In exactly the runs without such a step every running game is
    left on purpose only. -/
theorem stays_in_game_run_iff (es : List LinkedEvent) (s : Linked) :
    RunWhere linked StaysInGame linked_init es s ↔
      RunWhere linked (fun s e => ¬ BreaksOff s e) linked_init es s := by
  apply RunWhere.where_iff (I := fun _ => True) trivial
  · intro _ _ _ _ _ _
    trivial
  · intro s e s' _ hstep
    exact stays_in_game_iff hstep

/-! ## A name in the chat -/

/-- `bob`, who is in a game, opens the chat line. -/
def bob_chats : List LinkedEvent :=
  bob_plays ++ [.main (.key bob_types (.char '\n'))]

/-- A `q`, the first letter of what he means to write. -/
def q_typed : LinkedEvent :=
  .main (.key bob_types (.char 'q'))

/-- The client plays White in the first game of the server. -/
def plays_white (s : Linked) : Bool :=
  s.client.state.current_screen == .game && s.client.connected &&
    s.mgr.fd_at (.seat 0 .white) == some s.fd && (s.mgr.active_games 0).game_id == s.game_id

theorem running_of_plays_white {s : Linked} (h : plays_white s = true) : Running s := by
  unfold plays_white at h
  rw [Bool.and_eq_true, Bool.and_eq_true, Bool.and_eq_true, beq_iff_eq, beq_iff_eq, beq_iff_eq] at h
  obtain ⟨⟨⟨hscreen, hconnected⟩, hseat⟩, hgame_id⟩ := h
  exact ⟨hscreen, hconnected, 0, .white, hseat, hgame_id⟩

/-- What becomes of the game with it. -/
def after_q (s : Linked) : Option (Bool × Bool × Screen) :=
  (linked_run s q_typed).map fun s' =>
    (plays_white s, leaves_on_purpose s q_typed, s'.client.state.current_screen)

theorem after_q_bob_chats : (bob_chats.foldlM linked_run linked_init).bind after_q =
    some (true, false, .main) := by
  decide +kernel

/-- He is back at the main screen, and his game goes on without him. -/
theorem stays_in_game_broken :
    ¬ ∀ (es : List LinkedEvent) (s : Linked) (e : LinkedEvent),
      Run linked linked_init es s → StaysInGame s e := by
  intro hall
  obtain ⟨s, hexec, hq⟩ := Option.bind_eq_some_iff.mp after_q_bob_chats
  obtain ⟨s', hstep, hseen⟩ := Option.map_eq_some_iff.mp hq
  obtain ⟨hplays, hseen'⟩ := Prod.mk.inj hseen
  obtain ⟨hpurpose, hmain⟩ := Prod.mk.inj hseen'
  have hrun : Run linked linked_init bob_chats s := foldlM_run (fun _ _ _ hstep => hstep) hexec
  have hgame := (hall bob_chats s q_typed hrun s' hstep).1 (running_of_plays_white hplays) hpurpose
  cases hmain.symm.trans hgame

end MultiplayChess
