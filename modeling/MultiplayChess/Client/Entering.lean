import MultiplayChess.Client.Pointing

/-! # Entering a move

    `client/ui/input.c`, `client/ui/chat.c` and the keys of the main loop: a
    move can be entered with the mouse, with the cursor keys, and by typing
    `move:` and the two squares into the chat line.  Mouse and cursor make
    the same request for every move.  The chat line does not: in it the
    digits of the game menu still choose from the menu, and a move with one
    of them in it is never asked for. -/

namespace MultiplayChess

open LTS
open Chess (Move OnBoard Man)

/-! ## The chat line -/

/-- The user is typing into the chat line, where `b` stands; since `origin`
    nothing has been asked for. -/
structure Composing (origin : Client) (b : CString) (client : Client) : Prop where
  screen : client.state.current_screen = .game
  dialog : client.state.dialog_active = false
  prompt : client.resign_dialog_active = false
  chat : client.chat_input_mode = true
  buffer : client.chat_input_buffer = b
  replay : client.replay = none
  connected : client.connected = true
  game : client.state.game_state.game = origin.state.game_state.game
  team : client.state.game_state.local_team = origin.state.game_state.local_team
  silent : asked client = asked origin

/-- The user types, but no longer into the chat line: a replay, another
    screen or the prompt to resign has the keys. -/
structure Astray (origin : Client) (client : Client) : Prop where
  place : client.replay.isSome = true ∨ client.state.dialog_active = false ∧
    (client.state.current_screen ≠ .game ∨ client.resign_dialog_active = true)
  silent : asked client = asked origin

/-- The chat line takes the character. -/
def plain (c : Char) : Bool :=
  decide (32 ≤ c.toNat) && decide (c.toNat ≤ 126) && !(['1', '2', '3', '4', 'q', 'Q'].contains c)

/-- The keys of the game menu that are digits. -/
def menu_digit (c : Char) : Bool :=
  ['1', '2', '3', '4'].contains c

section chat_line

variable {client client' : Client} {env : KeyEnv} {now : Timeval} {m : Move}
variable {origin : Client} {b : CString} {c : Char}

theorem Composing.press_char (h : Composing origin b client) (c : Char) :
    press env now client (.char c) = some (client.handle_game_menu_key env (.char c)) := by
  rw [press_game_key h.replay h.dialog h.screen fun _ _ _ => Key.noConfusion]
  unfold Client.handle_game_key
  rw [if_neg (by rw [h.prompt]; exact Bool.false_ne_true), if_pos h.chat]

theorem plain_iff : plain c = true ↔ 32 ≤ c.toNat ∧ c.toNat ≤ 126 ∧ c ≠ '1' ∧ c ≠ '2' ∧ c ≠ '3' ∧
    c ≠ '4' ∧ c ≠ 'q' ∧ c ≠ 'Q' := by
  simp [plain, and_assoc]

/-- The menu leaves all other characters to the chat line. -/
theorem Composing.menu_key (h : Composing origin b client) (hline : c ≠ '\n' ∧ c ≠ '\r' ∧ c ≠ esc)
    (hmenu : c ≠ '1' ∧ c ≠ '2' ∧ c ≠ '3' ∧ c ≠ '4' ∧ c ≠ 'q' ∧ c ≠ 'Q') :
    client.handle_game_menu_key env (.char c) = client.handle_chat_input env (.char c) := by
  obtain ⟨hnl, hcr, hesc⟩ := hline
  obtain ⟨h1, h2, h3, h4, hq, hQ⟩ := hmenu
  have hkey : ∀ {d : Char}, c ≠ d → ¬ Key.char c = Key.char d := by
    intro d hne heq
    exact hne (Key.char.inj heq)
  unfold Client.handle_game_menu_key
  split
  · rename_i heq
    exact absurd heq (hkey h1)
  · rename_i heq
    exact absurd heq (hkey h2)
  · rename_i heq
    exact absurd heq (hkey h3)
  · rename_i heq
    exact absurd heq (hkey h4)
  · rename_i heq
    exact absurd heq (hkey hq)
  · rename_i heq
    exact absurd heq (hkey hQ)
  · rw [if_neg (hkey hesc), if_neg (not_or.mpr ⟨hkey hnl, hkey hcr⟩), if_pos h.chat]

/-- A plain character is appended. -/
theorem Composing.press_plain (h : Composing origin b client) (env : KeyEnv) (now : Timeval)
    (hplain : plain c = true) (hroom : b.length < 255) :
    ∃ client', press env now client (.char c) = some client' ∧
      Composing origin (b ++ [c]) client' := by
  obtain ⟨hlow, hhigh, hmenu⟩ := plain_iff.mp hplain
  have hline : c ≠ '\n' ∧ c ≠ '\r' ∧ c ≠ esc := by
    refine ⟨?_, ?_, ?_⟩
    all_goals
      rintro rfl
      exact absurd hlow (by decide)
  refine ⟨{ client with chat_input_buffer := client.chat_input_buffer ++ [c] }, ?_, ?_⟩
  · rw [h.press_char, h.menu_key hline hmenu]
    unfold Client.handle_chat_input
    rw [if_neg (by rw [h.chat]; decide)]
    simp only
    rw [if_neg (not_or.mpr ⟨hline.1, hline.2.1⟩), if_neg hline.2.2, if_neg (by omega),
      if_pos ⟨hlow, hhigh, by rw [h.buffer]; exact hroom⟩]
  · exact ⟨h.screen, h.dialog, h.prompt, h.chat, by rw [← h.buffer], h.replay, h.connected, h.game,
      h.team, h.silent⟩

/-- A digit of the menu is not: the user stays in the chat line without it,
    or goes astray. -/
theorem Composing.press_digit (h : Composing origin b client) (env : KeyEnv) (now : Timeval)
    (hdigit : menu_digit c = true) :
    ∃ client', press env now client (.char c) = some client' ∧
      (Composing origin b client' ∨ Astray origin client') := by
  refine ⟨_, h.press_char c, ?_⟩
  unfold menu_digit at hdigit
  simp only [List.contains_cons, List.contains_nil, Bool.or_false, Bool.or_eq_true,
    beq_iff_eq] at hdigit
  rcases hdigit with rfl | rfl | rfl | rfl
  · -- the prompt to resign
    apply Or.inr
    have hmenu : client.handle_game_menu_key env (.char '1') =
        { client with resign_dialog_active := true } :=
      if_neg (by rw [h.prompt]; exact Bool.false_ne_true)
    rw [hmenu]
    exact ⟨.inr ⟨h.dialog, .inr rfl⟩, h.silent⟩
  · -- an offer of a draw
    exact .inl ⟨h.screen, h.dialog, h.prompt, h.chat, h.buffer, h.replay, h.connected, h.game,
      h.team, h.silent⟩
  · -- the game is saved
    apply Or.inl
    obtain ⟨_, _, hsave⟩ := save_eq client.state env.files
    have hmenu : client.handle_game_menu_key env (.char '3') =
        { client with state := client.state.save env.files } := rfl
    rw [hmenu, hsave]
    exact ⟨h.screen, h.dialog, h.prompt, h.chat, h.buffer, h.replay, h.connected, h.game,
      h.team, h.silent⟩
  · -- back to the main screen
    exact .inr ⟨.inr ⟨h.dialog, .inl Screen.noConfusion⟩, h.silent⟩

/-- No key of the board, of a prompt or of the replay. -/
def harmless (c : Char) : Bool :=
  !(['q', 'Q', esc, 'y', 'Y', 'n', 'N'].contains c)

theorem asked_of_beyond_replay (h : client'.beyond_replay = client.beyond_replay) :
    asked client' = asked client := by
  have houtbox := congrArg Client.outbox h
  exact congrArg (List.filterMap _) houtbox

theorem asked_post {msg : ClientMessage} (hmsg : ∀ req, msg ≠ .move req) :
    asked (client.post msg) = asked client := by
  unfold asked Client.post
  rw [List.filterMap_append]
  cases msg with
  | move req => exact absurd rfl (hmsg req)
  | _ => exact List.append_nil _

/-- The keys of the main screen. -/
theorem Astray.main_key (h : Astray origin client) (hdialog : client.state.dialog_active = false)
    (hscreen : client.state.current_screen = .main)
    (hkey : client.handle_main_key env (.char c) = some client') : Astray origin client' := by
  have hstays : ∀ {client₁ : Client}, client₁.state.dialog_active = false →
      client₁.state.current_screen ≠ .game → asked client₁ = asked client → Astray origin client₁ :=
    fun hd hs ha => ⟨.inr ⟨hd, .inl hs⟩, ha.trans h.silent⟩
  have hmain : client.state.current_screen ≠ .game := by
    rw [hscreen]
    exact Screen.noConfusion
  unfold Client.handle_main_key at hkey
  split at hkey
  · -- a name is asked for, and the search begins
    cases hkey
    unfold Client.get_username_dialog
    split
    · exact hstays hdialog hmain rfl
    · rw [if_pos rfl]
      unfold Client.start_matching
      simp only
      split
      · refine hstays hdialog Screen.noConfusion ?_
        exact asked_post fun _ => ClientMessage.noConfusion
      · exact hstays hdialog Screen.noConfusion rfl
  · split at hkey
    · cases hkey
      unfold Client.start_replay
      simp only
      split
      · exact hstays hdialog hmain rfl
      · exact ⟨.inl rfl, h.silent⟩
    · cases hkey
      exact h
  · cases hkey
  · cases hkey
  · cases hkey
  · cases hkey
    exact h

/-- Astray, nothing is asked for. -/
theorem Astray.press_char (h : Astray origin client) (hc : harmless c = true)
    (hpress : press env now client (.char c) = some client') : Astray origin client' := by
  unfold harmless at hc
  simp only [List.contains_cons, List.contains_nil, Bool.or_false, Bool.not_eq_true',
    Bool.or_eq_false_iff, beq_eq_false_iff_ne] at hc
  obtain ⟨hq, hQ, hesc, hy, hY, hn, hN⟩ := hc
  cases hreplay : client.replay with
  | some replay =>
    have hstep : client.step (.replay_key now (.char c)) = some client' := by
      unfold press at hpress
      rw [hreplay] at hpress
      exact hpress
    obtain ⟨_, hsome, rfl⟩ := step_replay_key.mp hstep
    cases hreplay.symm.trans hsome
    have hstays : Client.leaves_replay (.char c) = false := by
      simp [Client.leaves_replay, hq, hQ, hesc]
    obtain ⟨replay', hgoes_on, _⟩ := Client.handle_replay_key_continued hreplay hstays now
    refine ⟨.inl (by rw [hgoes_on]; rfl), ?_⟩
    exact (asked_of_beyond_replay (Client.handle_replay_key_beyond_replay now)).trans h.silent
  | none =>
    -- no replay: the keys go to the screen that is shown
    obtain ⟨hdialog, hplace⟩ := h.place.resolve_left (by rw [hreplay]; exact Bool.false_ne_true)
    rw [press_of_no_replay hreplay] at hpress
    unfold Client.handle_key at hpress
    rw [if_neg (by rw [hdialog]; exact Bool.false_ne_true)] at hpress
    simp only at hpress
    split at hpress
    · -- at the main screen a game or a replay may begin, or the program ends
      rename_i hscreen
      exact h.main_key hdialog hscreen hpress
    · cases hpress
      unfold Client.handle_matching_key Client.cancel_matching
      simp only
      split
      · split
        · refine ⟨.inr ⟨hdialog, .inl Screen.noConfusion⟩, Eq.trans ?_ h.silent⟩
          exact asked_post fun _ => ClientMessage.noConfusion
        · exact ⟨.inr ⟨hdialog, .inl Screen.noConfusion⟩, h.silent⟩
      · exact ⟨.inr ⟨hdialog, hplace⟩, h.silent⟩
    · rename_i hscreen
      have hprompt := hplace.resolve_left (not_not.mpr hscreen)
      cases hpress
      unfold Client.handle_game_key
      rw [if_pos hprompt]
      unfold Client.handle_resign_dialog_input
      simp only
      rw [if_neg (not_or.mpr ⟨hy, hY⟩), if_neg (not_or.mpr ⟨hn, not_or.mpr ⟨hN, hesc⟩⟩)]
      exact h

theorem Astray.type {text : CString} (h : Astray origin client)
    (htext : ∀ c ∈ text, harmless c = true)
    (htype : type_keys env now client (keys_of text) = some client') : Astray origin client' := by
  induction text generalizing client with
  | nil =>
    cases htype
    exact h
  | cons c text ih =>
    have hkeys : keys_of (c :: text) = .char c :: keys_of text := rfl
    rw [hkeys, type_keys_cons] at htype
    obtain ⟨client₁, hpress, hrest⟩ := Option.bind_eq_some_iff.mp htype
    exact ih (h.press_char (htext c (.head _)) hpress) (fun d hd => htext d (.tail _ hd)) hrest

/-- What is typed without digits of the menu arrives. -/
theorem Composing.type_plain {text : CString} (h : Composing origin b client) (env : KeyEnv)
    (now : Timeval) (htext : ∀ c ∈ text, plain c = true) (hroom : b.length + text.length ≤ 255) :
    ∃ client', type_keys env now client (keys_of text) = some client' ∧
      Composing origin (b ++ text) client' := by
  induction text generalizing b client with
  | nil => exact ⟨client, rfl, by rw [List.append_nil]; exact h⟩
  | cons c text ih =>
    rw [List.length_cons] at hroom
    obtain ⟨client₁, hpress, hcomposing⟩ := h.press_plain env now (htext c (.head _)) (by omega)
    obtain ⟨client', htype, hend⟩ := ih hcomposing (fun d hd => htext d (.tail _ hd)) (by
      rw [List.length_append, List.length_singleton]
      omega)
    refine ⟨client', ?_, by rw [List.append_cons]; exact hend⟩
    have hkeys : keys_of (c :: text) = .char c :: keys_of text := rfl
    rw [hkeys, type_keys_cons, hpress]
    exact htype

/-- Of what is typed with them, only the rest arrives, if anything does. -/
theorem Composing.type {text : CString} (h : Composing origin b client)
    (htext : ∀ c ∈ text, (plain c = true ∨ menu_digit c = true) ∧ harmless c = true)
    (hroom : b.length + text.length ≤ 255)
    (htype : type_keys env now client (keys_of text) = some client') :
    Composing origin (b ++ text.filter plain) client' ∨ Astray origin client' := by
  induction text generalizing b client with
  | nil =>
    cases htype
    rw [List.filter_nil, List.append_nil]
    exact .inl h
  | cons c text ih =>
    have hkeys : keys_of (c :: text) = .char c :: keys_of text := rfl
    rw [hkeys, type_keys_cons] at htype
    obtain ⟨client₁, hpress, hrest⟩ := Option.bind_eq_some_iff.mp htype
    have htext' : ∀ d ∈ text, (plain d = true ∨ menu_digit d = true) ∧ harmless d = true :=
      fun d hd => htext d (.tail _ hd)
    rw [List.length_cons] at hroom
    by_cases hplain : plain c = true
    · obtain ⟨client₂, hpress', hcomposing⟩ :=
        h.press_plain env now hplain (by omega)
      cases hpress'.symm.trans hpress
      rw [List.filter_cons_of_pos hplain, List.append_cons]
      exact ih hcomposing htext' (by
        rw [List.length_append, List.length_singleton]
        omega) hrest
    · have hdigit := (htext c (.head _)).1.resolve_left hplain
      obtain ⟨client₂, hpress', hafter⟩ := h.press_digit env now hdigit
      cases hpress'.symm.trans hpress
      rw [List.filter_cons_of_neg hplain]
      rcases hafter with hcomposing | hastray
      · exact ih hcomposing htext' (by omega) hrest
      · exact .inr (hastray.type (fun d hd => (htext' d hd).2) hrest)

/-- Enter: what follows `move:` is read as a move. -/
theorem Composing.press_enter {text : CString}
    (h : Composing origin ("move:".toList ++ text) client)
    (hblank : ∀ c ∈ text, c ≠ ' ') : press env now client (.char '\n') =
      some (client.handle_chess_notation env text).disable_chat_input := by
  have hdrop : text.dropWhile (fun c => c == ' ') = text := by
    cases text with
    | nil => rfl
    | cons c text =>
      apply List.dropWhile_cons_of_neg
      simpa using hblank c (.head _)
  have hchat : client.handle_chat_input env (.char '\n') =
      (client.handle_chess_notation env text).disable_chat_input := by
    unfold Client.handle_chat_input
    rw [if_neg (by rw [h.chat]; decide)]
    simp only
    have hsome : "move:".toList ++ text ≠ [] := List.append_ne_nil_of_left_ne_nil (by decide) _
    have htake : ("move:".toList ++ text).take 5 = "move:".toList := List.take_left' rfl
    have hrest : ("move:".toList ++ text).drop 5 = text := List.drop_left' rfl
    rw [if_pos (.inl trivial), h.buffer, if_neg hsome, if_pos htake, hrest, hdrop]
  rw [h.press_char]
  apply congrArg some
  have hmenu : client.handle_game_menu_key env (.char '\n') =
      if client.chat_input_mode then client.handle_chat_input env (.char '\n')
      else if client.cursor_mode then client else client.enable_chat_input := rfl
  rw [hmenu, if_pos h.chat, hchat]

/-- A text of another length is no move. -/
theorem Composing.notation_refused {text : CString} (h : Composing origin b client)
    (hlength : text.length ≠ 4) :
    asked (client.handle_chess_notation env text).disable_chat_input = asked origin := by
  unfold Client.handle_chess_notation
  rw [if_neg (not_not.mpr h.screen)]
  split
  · exact absurd rfl hlength
  · exact h.silent

theorem OwnMove.congr {client₁ : Client} (h : OwnMove origin m)
    (hgame : client₁.state.game_state.game = origin.state.game_state.game)
    (hteam : client₁.state.game_state.local_team = origin.state.game_state.local_team) :
    OwnMove client₁ m := by
  refine ⟨h.src, h.dst, h.moved, ?_, ?_, ?_, ?_⟩
  · rw [hgame, hteam]
    exact h.turn
  · rw [hgame]
    exact h.man
  · rw [hgame]
    exact h.live
  · rw [hgame, hteam]
    exact h.own

/-- The text of a move asks for it. -/
theorem Composing.notation_posts (h : Composing origin b client) (hsend : env.send = true)
    (hmove : OwnMove origin m) :
    asked (client.handle_chess_notation env (from_to m)).disable_chat_input =
      asked origin ++ [move_request m] := by
  have hown : OwnMove client m := hmove.congr h.game h.team
  obtain ⟨⟨⟨hsx, hsx8⟩, hsy, hsy8⟩, ⟨hdx, hdx8⟩, hdy, hdy8⟩ := And.intro hmove.src hmove.dst
  have hsent : client.send_move_request env
      [Char.ofNat (97 + m.sx).toNat, Char.ofNat (49 + m.sy).toNat]
      [Char.ofNat (97 + m.dx).toNat, Char.ofNat (49 + m.dy).toNat] =
        (client.post (request_of m), true) :=
    send_move_request_posts h.connected hsend hmove.src hmove.dst
  obtain ⟨p, hp⟩ := hown.man
  unfold from_to Client.coordinate Client.handle_chess_notation
  rw [if_neg (not_not.mpr h.screen)]
  simp only [List.cons_append, List.nil_append, file_read hsx hsx8, rank_read hsy hsy8,
    file_read hdx hdx8, rank_read hdy hdy8, hsent, hp, hown.live]
  rw [if_neg (by omega), if_neg (by exact Bool.false_ne_true), if_neg (not_not.mpr hown.turn),
    if_pos trivial, ← h.silent]
  exact asked_append rfl

end chat_line

/-! ## Three ways to enter a move -/

/-- What is typed for a move. -/
def notation_keys (m : Move) : List Key :=
  .char '\n' :: keys_of ("move:".toList ++ from_to m) ++ [.char '\n']

theorem file_typed : ∀ x ∈ files, plain (Char.ofNat (97 + x).toNat) = true ∧
    harmless (Char.ofNat (97 + x).toNat) = true ∧ Char.ofNat (97 + x).toNat ≠ ' ' := by
  decide

theorem rank_typed : ∀ y ∈ files, plain (Char.ofNat (49 + y).toNat) = decide (4 ≤ y) ∧
    menu_digit (Char.ofNat (49 + y).toNat) = decide (y < 4) ∧
    harmless (Char.ofNat (49 + y).toNat) = true ∧ Char.ofNat (49 + y).toNat ≠ ' ' := by
  decide

theorem prefix_typed : ∀ c ∈ "move:".toList, plain c = true ∧ harmless c = true := by
  have htext : "move:".toList = ['m', 'o', 'v', 'e', ':'] := rfl
  rw [htext]
  simp only [List.forall_mem_cons]
  exact ⟨by decide, by decide, by decide, by decide, by decide, nofun⟩

section entering

variable {client client' : Client} {env : KeyEnv} {now : Timeval} {m : Move}

/-- The characters of a move in the chat line: the files arrive, the ranks
    from the fifth on. -/
theorem OwnMove.typed (h : OwnMove client m) :
    (∀ c ∈ from_to m, (plain c = true ∨ menu_digit c = true) ∧ harmless c = true ∧ c ≠ ' ') ∧
      (4 ≤ m.sy ∧ 4 ≤ m.dy → ∀ c ∈ from_to m, plain c = true) ∧
      (¬ (4 ≤ m.sy ∧ 4 ≤ m.dy) → ((from_to m).filter plain).length ≠ 4) := by
  obtain ⟨hsrc, hdst⟩ := And.intro h.src h.dst
  obtain ⟨hsf, hsfh, hsfb⟩ := file_typed m.sx ((mem_files _).mpr hsrc.1)
  obtain ⟨hdf, hdfh, hdfb⟩ := file_typed m.dx ((mem_files _).mpr hdst.1)
  obtain ⟨hsr, hsd, hsrh, hsrb⟩ := rank_typed m.sy ((mem_files _).mpr hsrc.2)
  obtain ⟨hdr, hdd, hdrh, hdrb⟩ := rank_typed m.dy ((mem_files _).mpr hdst.2)
  have hrank : ∀ {y : Int}, plain (Char.ofNat (49 + y).toNat) = decide (4 ≤ y) →
      menu_digit (Char.ofNat (49 + y).toNat) = decide (y < 4) →
      plain (Char.ofNat (49 + y).toNat) = true ∨ menu_digit (Char.ofNat (49 + y).toNat) = true := by
    intro y hplain hdigit
    rw [hplain, hdigit, decide_eq_true_eq, decide_eq_true_eq]
    omega
  unfold from_to Client.coordinate
  simp only [List.cons_append, List.nil_append, List.forall_mem_cons]
  refine ⟨?_, ?_, ?_⟩
  · exact ⟨⟨.inl hsf, hsfh, hsfb⟩, ⟨hrank hsr hsd, hsrh, hsrb⟩, ⟨.inl hdf, hdfh, hdfb⟩,
      ⟨hrank hdr hdd, hdrh, hdrb⟩, nofun⟩
  · intro ⟨hsy, hdy⟩
    rw [hsr, hdr]
    exact ⟨hsf, decide_eq_true hsy, hdf, decide_eq_true hdy, nofun⟩
  · intro hlow
    rw [List.filter_cons_of_pos hsf, List.filter_cons, hsr]
    by_cases hsy : 4 ≤ m.sy
    · have hdy : ¬ 4 ≤ m.dy := fun hdy => hlow ⟨hsy, hdy⟩
      rw [if_pos (decide_eq_true hsy), List.filter_cons_of_pos hdf,
        List.filter_cons_of_neg (by rw [hdr, decide_eq_true_eq]; exact hdy)]
      exact (by decide : 3 ≠ 4)
    · have hrest := List.length_filter_le plain
        [Char.ofNat (97 + m.dx).toNat, Char.ofNat (49 + m.dy).toNat]
      rw [if_neg (by rw [decide_eq_true_eq]; exact hsy), List.length_cons]
      have htwo : [Char.ofNat (97 + m.dx).toNat, Char.ofNat (49 + m.dy).toNat].length = 2 := rfl
      omega

/-- Enter opens the chat line, unless the cursor is shown. -/
theorem AtBoard.open_chat (h : AtBoard client) (env : KeyEnv) (now : Timeval)
    (hcursor : client.cursor_mode = false) :
    press env now client (.char '\n') = some client.enable_chat_input ∧
      Composing client [] client.enable_chat_input := by
  refine ⟨?_, ⟨h.screen, h.dialog, h.prompt, rfl, rfl, h.replay, h.connected, rfl, rfl, rfl⟩⟩
  have hboard : client.handle_keyboard_board_input env (.char '\n') = (client, false) := by
    unfold Client.handle_keyboard_board_input
    rw [if_neg (not_not.mpr h.screen)]
    simp only
    rw [if_pos (.inr (.inl trivial)), if_neg (by rw [hcursor]; exact Bool.false_ne_true)]
  have hmenu : client.handle_game_menu_key env (.char '\n') =
      if client.chat_input_mode then client.handle_chat_input env (.char '\n')
      else if client.cursor_mode then client else client.enable_chat_input := rfl
  rw [h.press_key fun _ _ _ => Key.noConfusion, hboard, if_neg Bool.false_ne_true, hmenu,
    if_neg (by rw [h.chat]; exact Bool.false_ne_true),
    if_neg (by rw [hcursor]; exact Bool.false_ne_true)]

/-- **Through the chat line.** -/
theorem AtBoard.enter_by_notation (h : AtBoard client) (hcursor : client.cursor_mode = false)
    (hsend : env.send = true) (hmove : OwnMove client m) :
    (4 ≤ m.sy ∧ 4 ≤ m.dy → ∃ client', type_keys env now client (notation_keys m) = some client' ∧
        asked client' = asked client ++ [move_request m]) ∧
      (¬ (4 ≤ m.sy ∧ 4 ≤ m.dy) → ∀ client',
        type_keys env now client (notation_keys m) = some client' →
          asked client' = asked client) := by
  obtain ⟨hopen, hcomposing⟩ := h.open_chat env now hcursor
  obtain ⟨htyped, hhigh, hlow⟩ := hmove.typed
  have hkeys : type_keys env now client (notation_keys m) =
      (type_keys env now client.enable_chat_input (keys_of ("move:".toList ++ from_to m))).bind
        fun client' => press env now client' (.char '\n') := by
    unfold notation_keys
    rw [List.cons_append, type_keys_cons, hopen, Option.bind_some, type_keys_append]
    congr 1
    funext client'
    rw [type_keys_cons]
    cases press env now client' (.char '\n') <;> rfl
  have hlength : ([] : CString).length + ("move:".toList ++ from_to m).length ≤ 255 := by
    rw [List.length_append, from_to_length]
    decide
  rw [hkeys]
  constructor
  · intro hranks
    -- every character reaches the line
    have htext : ∀ c ∈ "move:".toList ++ from_to m, plain c = true := by
      intro c hc
      rcases List.mem_append.mp hc with hc | hc
      · exact (prefix_typed c hc).1
      · exact hhigh hranks c hc
    obtain ⟨client₁, htype, hcomposed⟩ := hcomposing.type_plain env now htext hlength
    rw [List.nil_append] at hcomposed
    rw [htype, Option.bind_some, hcomposed.press_enter fun c hc => (htyped c hc).2.2]
    exact ⟨_, rfl, hcomposed.notation_posts hsend hmove⟩
  · intro hranks client' htype
    obtain ⟨client₁, htype, henter⟩ := Option.bind_eq_some_iff.mp htype
    have htext : ∀ c ∈ "move:".toList ++ from_to m,
        (plain c = true ∨ menu_digit c = true) ∧ harmless c = true := by
      intro c hc
      rcases List.mem_append.mp hc with hc | hc
      · exact ⟨.inl (prefix_typed c hc).1, (prefix_typed c hc).2⟩
      · exact ⟨(htyped c hc).1, (htyped c hc).2.1⟩
    -- digits of the menu are missing, or have led away from the line
    have hafter := hcomposing.type htext hlength htype
    have hprefix : ("move:".toList ++ from_to m).filter plain =
        "move:".toList ++ (from_to m).filter plain := by
      rw [List.filter_append, List.filter_eq_self.mpr fun c hc => (prefix_typed c hc).1]
    rw [List.nil_append, hprefix] at hafter
    rcases hafter with hcomposed | hastray
    · rw [hcomposed.press_enter fun c hc => (htyped c (List.mem_filter.mp hc).1).2.2] at henter
      cases henter
      exact hcomposed.notation_refused (hlow hranks)
    · exact (hastray.press_char (by decide) henter).silent

/-- **Entering a move.** In every session, when the user is at the board with
    nothing selected and it is his turn, and messages can be sent: two clicks
    on any places of the two squares ask for a move of one of his men, and so
    do the cursor keys with the space bar or Enter, wherever the cursor is;
    typed into the chat line, which opens while the cursor is off, it is
    asked for exactly if both squares are on the ranks five to eight, as the
    game menu takes the other digits. -/
theorem moves_entered {es : List ClientEvent} (hrun : Run session init_client es client)
    (hboard : AtBoard client) (hnone : client.piece_selected = false) (hsend : env.send = true)
    (hmove : OwnMove client m) :
    (∀ x y x' y', client.coord_to_board_pos x y = some (m.sx, m.sy) →
      client.coord_to_board_pos x' y' = some (m.dx, m.dy) →
      ∃ client', type_keys env now client [.mouse x y true, .mouse x' y' true] = some client' ∧
        asked client' = asked client ++ [move_request m]) ∧
    (∀ c c', Chooses c → Chooses c' →
      ∃ client', type_keys env now client (steer c (client.actual_square m.sx m.sy) ++
          steer c' (client.actual_square m.dx m.dy)) = some client' ∧
        asked client' = asked client ++ [move_request m]) ∧
    (client.cursor_mode = false →
      (4 ≤ m.sy ∧ 4 ≤ m.dy →
        ∃ client', type_keys env now client (notation_keys m) = some client' ∧
          asked client' = asked client ++ [move_request m]) ∧
      (¬ (4 ≤ m.sy ∧ 4 ≤ m.dy) →
        ∀ client', type_keys env now client (notation_keys m) = some client' →
          asked client' = asked client)) :=
  ⟨fun _ _ _ _ hsrc hdst => hboard.enter_by_mouse hsend hnone hmove hsrc hdst,
    fun _ _ hc hc' => hboard.enter_by_cursor (session_on_the_board hrun) hsend hnone hmove hc hc',
    fun hcursor => hboard.enter_by_notation hcursor hsend hmove⟩

end entering

/-- `bob` has found a game, in which he is White. -/
def game_found : List ClientEvent :=
  [.connected true, .key bob_types (.char '1'),
    .message ⟨fun _ => 0, true, true⟩ (.match_game_res bob_starts)]

/-- The client of a player who may open with the king's pawn. -/
def may_open (client : Client) : Bool :=
  client.state.current_screen == .game && !client.state.dialog_active &&
    !client.resign_dialog_active && !client.chat_input_mode && client.replay.isNone &&
    client.connected && !client.piece_selected && !client.cursor_mode &&
    client.state.game_state.game.side_to_move == client.state.game_state.local_team &&
    (client.state.game_state.game.board.get 1 4).piece.isSome &&
    !(client.state.game_state.game.board.get 1 4).is_dead &&
    (client.state.game_state.game.board.get 1 4).team == client.state.game_state.local_team

theorem game_found_opens :
    (game_found.foldlM Client.step init_client).map may_open = some true := by
  decide +kernel

/-- He opens with e2e4 by the cursor, but cannot type it. -/
theorem moves_entered_opening : ∃ es client, Run session init_client es client ∧
    (∃ client', type_keys bob_types ⟨0, 0⟩ client (steer ' ' (client.actual_square 4 1) ++
        steer '\n' (client.actual_square 4 3)) = some client' ∧
      asked client' = asked client ++ [move_request ⟨4, 1, 4, 3⟩]) ∧
    ∀ client', type_keys bob_types ⟨0, 0⟩ client (notation_keys ⟨4, 1, 4, 3⟩) = some client' →
      asked client' = asked client := by
  obtain ⟨client, hexec, hopens⟩ := Option.map_eq_some_iff.mp game_found_opens
  have hrun := session_run hexec
  unfold may_open at hopens
  simp only [Bool.and_eq_true, beq_iff_eq, Bool.not_eq_true', Option.isNone_iff_eq_none] at hopens
  obtain ⟨⟨⟨⟨⟨⟨⟨⟨⟨⟨⟨hscreen, hdialog⟩, hprompt⟩, hchat⟩, hreplay⟩, hconnected⟩, hnone⟩, hcursor⟩,
    hturn⟩, hman⟩, hlive⟩, hown⟩ := hopens
  have hboard : AtBoard client := ⟨hscreen, hdialog, hprompt, hchat, hreplay, hconnected⟩
  have hmove : OwnMove client ⟨4, 1, 4, 3⟩ :=
    ⟨by decide, by decide, by decide, hturn, Option.isSome_iff_exists.mp hman, hlive, hown⟩
  have hsend : bob_types.send = true := rfl
  obtain ⟨_, hsteer, htype⟩ := moves_entered hrun hboard hnone hsend hmove
  exact ⟨_, client, hrun, hsteer ' ' '\n' (.inl rfl) (.inr (.inl rfl)),
    (htype hcursor).2 (by decide)⟩

end MultiplayChess
