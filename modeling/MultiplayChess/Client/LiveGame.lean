import MultiplayChess.Client.Rematch
import MultiplayChess.Common.ApplyMove

/-! # The live game and the replays

    The user may leave the board of a running game and watch a replay.
    Neither should disturb the other: back from the replay the board should
    be that of the moves broadcast so far, and the replay should show the
    position of its own current move.  Both use the same position, however,
    so a broadcast plays on the board of the replay, and what the replay
    leaves behind is the board of the game. -/

namespace MultiplayChess

open LTS Replica
open Chess (OnBoard)

/-! ## Moves that change a position -/

/-- There is a piece to move, from and to squares of the board. -/
def Touches (G : Game) (src dst : CString) : Prop :=
  ∃ src_file src_rank dst_file dst_rank : Char,
    src = [src_file, src_rank] ∧ dst = [dst_file, dst_rank] ∧
    OnBoard (src_file.toNat - 97) (src_rank.toNat - 49) ∧
    OnBoard (dst_file.toNat - 97) (dst_rank.toNat - 49) ∧
    (G.board.get (src_rank.toNat - 49) (src_file.toNat - 97)).piece.isSome = true

/-- Off the board: the test of `apply_move_from_server`. -/
theorem off_board_iff {sx sy dx dy : Int} :
    (sx < 0 ∨ sx ≥ 8 ∨ sy < 0 ∨ sy ≥ 8 ∨ dx < 0 ∨ dx ≥ 8 ∨ dy < 0 ∨ dy ≥ 8) ↔
      ¬ (OnBoard sx sy ∧ OnBoard dx dy) := by
  unfold OnBoard
  omega

/-- **A broadcast changes the position** exactly if it moves a piece: the
    turn passes then. -/
theorem client_step_eq_iff {G : Game} {src dst : CString} :
    client_step G (src, dst) = G ↔ ¬ Touches G src dst := by
  constructor
  · intro hsame ⟨sf, sr, df, dr, hsrc, hdst, hon, hon', hpiece⟩
    subst hsrc hdst
    -- a piece moves, so the other side is to move afterwards
    obtain ⟨p, hp⟩ := Option.isSome_iff_exists.mp hpiece
    have hstep : client_step G ([sf, sr], [df, dr]) =
        apply_move G (sf.toNat - 97) (sr.toNat - 49) (df.toNat - 97) (dr.toNat - 49) :=
      congrArg Prod.fst (if_neg (fun hoff => off_board_iff.mp hoff ⟨hon, hon'⟩))
    have hside : (client_step G ([sf, sr], [df, dr])).side_to_move = G.side_to_move.other := by
      rw [hstep]
      exact apply_move_side hp
    rw [hsame] at hside
    cases hG : G.side_to_move <;> rw [hG] at hside <;> cases hside
  · intro huntouched
    unfold client_step apply_move_from_server
    simp only
    split
    · rename_i sf sr df dr
      split
      · rfl
      · rename_i hin
        have hon := Classical.not_not.mp (fun h => hin (off_board_iff.mpr h))
        -- both squares are on the board, so the source is empty
        apply apply_move_empty
        rw [← Option.not_isSome_iff_eq_none]
        intro hpiece
        exact huntouched ⟨sf, sr, df, dr, rfl, rfl, hon.1, hon.2, hpiece⟩
    · rfl

/-! ## The moves of the live game -/

/-- The moves broadcast since the game started.  Without a game in progress
    a replay may take the board, and there is nothing to keep. -/
def live_moves (live : Option (List (CString × CString))) (client : Client) (e : ClientEvent)
    (client' : Client) : Option (List (CString × CString)) :=
  match e with
  | .message _ msg =>
    match news_of msg with
    | some (.reset _) => some []
    | some (.update u) => live.map (· ++ [u])
    | none => live
  | .key _ _ =>
    if client'.replay.isSome && !client.state.game_state.game_in_progress then none else live
  | _ => live

/-- The start position folded with the moves. -/
def live_position (moves : List (CString × CString)) : Game :=
  moves.foldl client_step (init_startpos .zero)

/-- A client and the moves of its live game. -/
abbrev Tracked : Type := Client × Option (List (CString × CString))

/-- The client with the moves of the live game as a history variable. -/
def tracked : System Tracked ClientEvent :=
  session.with_ghost live_moves

/-- Before the first game. -/
def tracked_init : Tracked := (init_client, none)

/-- The live game and the replay are undisturbed: with no replay on the
    screen the board is that of the broadcast moves, and a replay shows the
    position of its current move. -/
structure Undisturbed (s : Tracked) : Prop where
  live : s.1.replay = none → ∀ moves, s.2 = some moves →
    s.1.state.game_state.game = live_position moves
  replay : ∀ replay, s.1.replay = some replay →
    s.1.state.game_state.game = position_at replay.moves replay.current_move

/-- What may happen while a replay is on the screen: no broadcast that moves
    a piece of the position shown, no start of a game unless the start
    position is shown, and no end of the replay unless the position shown is
    that of the live game. -/
structure Harmless (s : Tracked) (e : ClientEvent) : Prop where
  move : ∀ replay env b, s.1.replay = some replay → e = .message env (.move_broadcast b) →
    ¬ Touches (position_at replay.moves replay.current_move) b.from_coord b.to_coord
  start : ∀ replay env msg, s.1.replay = some replay → e = .message env msg →
    starts_game msg = true →
    position_at replay.moves replay.current_move = init_startpos .zero
  leave : ∀ replay now ch moves, s.1.replay = some replay → e = .replay_key now ch →
    Client.leaves_replay ch = true → s.2 = some moves →
    position_at replay.moves replay.current_move = live_position moves

theorem undisturbed_init : Undisturbed tracked_init where
  live := by
    intro _ moves hmoves
    cases hmoves
  replay := by
    intro replay hreplay
    cases hreplay

/-! ## Steps -/

section steps

variable {s s' : Tracked} {e : ClientEvent} {replay : ReplayState}

/-- Away from the replays only the live game counts. -/
theorem undisturbed_away (h : s.1.replay = none) :
    Undisturbed s ↔ ∀ moves, s.2 = some moves →
      s.1.state.game_state.game = live_position moves := by
  constructor
  · intro hundisturbed
    exact hundisturbed.live h
  · intro hlive
    constructor
    · intro _
      exact hlive
    · intro replay hreplay
      rw [h] at hreplay
      cases hreplay

/-- During a replay only its position counts. -/
theorem undisturbed_replaying (h : s.1.replay = some replay) :
    Undisturbed s ↔
      s.1.state.game_state.game = position_at replay.moves replay.current_move := by
  constructor
  · intro hundisturbed
    exact hundisturbed.replay replay h
  · intro hposition
    constructor
    · intro hnone
      rw [h] at hnone
      cases hnone
    · intro replay' hreplay'
      rw [h] at hreplay'
      cases hreplay'
      exact hposition

/-- Neither the position nor the moves have changed. -/
theorem Undisturbed.keep (h : Undisturbed s) (hshown : s'.1.shown = s.1.shown)
    (hlive : s'.2 = s.2) : Undisturbed s' := by
  obtain ⟨hgame, hreplay⟩ := Prod.mk.inj hshown
  constructor
  · rw [hgame, hreplay, hlive]
    exact h.live
  · rw [hgame, hreplay]
    exact h.replay

/-- A replay that has just been opened shows the start position. -/
theorem Undisturbed.of_opened (h : s'.1.Opened) : Undisturbed s' := by
  obtain ⟨replay, hstart, hshown⟩ := h
  obtain ⟨hgame, hreplay⟩ := Prod.mk.inj hshown
  rw [undisturbed_replaying hreplay, hgame, hstart]
  rfl

/-- The replay stays in step with its current move. -/
theorem Undisturbed.of_continued (h : Undisturbed s) (hreplay : s.1.replay = some replay)
    (hgoes : s.1.Continued replay s'.1) : Undisturbed s' := by
  obtain ⟨replay', hreplay', hmoves, hposition⟩ := hgoes
  rw [undisturbed_replaying hreplay']
  rcases hposition with hshown | ⟨hgame, hindex⟩
  · exact hshown
  · rw [hgame, hmoves, hindex]
    exact h.replay replay hreplay

/-- Without a replay nothing does any harm. -/
theorem Harmless.of_away (h : s.1.replay = none) : Harmless s e where
  move := by
    intro replay _ _ hreplay
    rw [h] at hreplay
    cases hreplay
  start := by
    intro replay _ _ hreplay
    rw [h] at hreplay
    cases hreplay
  leave := by
    intro replay _ _ _ hreplay
    rw [h] at hreplay
    cases hreplay

/-- What a message must not do to a replay. -/
theorem harmless_message_iff (h : s.1.replay = some replay) {env : ClientEnv}
    {msg : ServerMessage} : Harmless s (.message env msg) ↔
      (∀ b, msg = .move_broadcast b →
        ¬ Touches (position_at replay.moves replay.current_move) b.from_coord b.to_coord) ∧
      (starts_game msg = true →
        position_at replay.moves replay.current_move = init_startpos .zero) := by
  constructor
  · intro hharmless
    constructor
    · intro b hb
      exact hharmless.move replay env b h (by rw [hb])
    · exact hharmless.start replay env msg h rfl
  · intro ⟨hmove, hstart⟩
    constructor
    · intro replay' env' b hreplay' he
      rw [h] at hreplay'
      cases hreplay'
      cases he
      exact hmove b rfl
    · intro replay' env' msg' hreplay' he
      rw [h] at hreplay'
      cases hreplay'
      cases he
      exact hstart
    · intro _ _ _ _ _ he
      cases he

/-- When a key must not leave a replay. -/
theorem harmless_replay_key_iff (h : s.1.replay = some replay) {now : Timeval} {ch : Key} :
    Harmless s (.replay_key now ch) ↔
      (Client.leaves_replay ch = true → ∀ moves, s.2 = some moves →
        position_at replay.moves replay.current_move = live_position moves) := by
  constructor
  · intro hharmless hleaves moves
    exact hharmless.leave replay now ch moves h rfl hleaves
  · intro hleave
    constructor
    · intro _ _ _ _ he
      cases he
    · intro _ _ _ _ he
      cases he
    · intro replay' now' ch' moves hreplay' he hleaves
      rw [h] at hreplay'
      cases hreplay'
      cases he
      exact hleave hleaves moves

/-- A message is no news, starts a game or broadcasts a move. -/
theorem news_cases (msg : ServerMessage) :
    (news_of msg = none ∧ starts_game msg = false ∧ ∀ b, msg ≠ .move_broadcast b) ∨
      (news_of msg = some (.reset (init_startpos .zero)) ∧ starts_game msg = true ∧
        ∀ b, msg ≠ .move_broadcast b) ∨
      ∃ b, msg = .move_broadcast b := by
  cases msg with
  | match_game_res res =>
    have hno_move : ∀ b, ServerMessage.match_game_res res ≠ .move_broadcast b := by
      intro b hb
      cases hb
    by_cases hstart : starts_game (.match_game_res res) = true
    · exact .inr (.inl ⟨news_of_start hstart, hstart, hno_move⟩)
    · exact .inl ⟨news_of_no_start hstart, Bool.not_eq_true _ ▸ hstart, hno_move⟩
  | move_broadcast b => exact .inr (.inr ⟨b, rfl⟩)
  | _ =>
    apply Or.inl
    constructor
    · rfl
    · constructor
      · rfl
      · intro b hb
        cases hb

/-- One more move is one more step. -/
theorem live_position_append (moves : List (CString × CString)) (u : CString × CString) :
    live_position (moves ++ [u]) = client_step (live_position moves) u := by
  unfold live_position
  rw [List.foldl_append, List.foldl_cons, List.foldl_nil]

/-- **A message** away from the replays keeps the board of the live game. -/
theorem undisturbed_message_away (h : Undisturbed s) (hreplay : s.1.replay = none)
    {env : ClientEnv} {msg : ServerMessage} (hstep : tracked.step s (.message env msg) s') :
    Undisturbed s' := by
  obtain ⟨hclient, hlive⟩ := hstep
  have hshown : s'.1.shown = _ :=
    (congrArg Client.shown (Option.some.inj hclient)).symm.trans (Client.receive_shown env msg)
  obtain ⟨hgame, hstays⟩ := Prod.mk.inj hshown
  rw [undisturbed_away (hstays.trans hreplay)]
  intro moves hmoves
  rw [hgame]
  unfold live_moves at hlive
  rcases news_cases msg with ⟨hnews, _⟩ | ⟨hnews, _⟩ | ⟨b, rfl⟩
  · -- no news
    simp only [hnews] at hlive ⊢
    rw [hlive] at hmoves
    exact h.live hreplay moves hmoves
  · -- the game starts
    simp only [hnews] at hlive ⊢
    cases hlive.symm.trans hmoves
    rfl
  · -- one more move
    obtain ⟨before, hbefore, rfl⟩ := Option.map_eq_some_iff.mp (hlive.symm.trans hmoves)
    rw [live_position_append, ← h.live hreplay before hbefore]
    rfl

/-- **A message** during a replay disturbs it if the position changes. -/
theorem undisturbed_message_iff (h : Undisturbed s) (hreplay : s.1.replay = some replay)
    {env : ClientEnv} {msg : ServerMessage} (hstep : tracked.step s (.message env msg) s') :
    Undisturbed s' ↔ Harmless s (.message env msg) := by
  have hshown : s'.1.shown = _ :=
    (congrArg Client.shown (Option.some.inj hstep.1)).symm.trans (Client.receive_shown env msg)
  obtain ⟨hgame, hstays⟩ := Prod.mk.inj hshown
  rw [undisturbed_replaying (hstays.trans hreplay), harmless_message_iff hreplay, hgame,
    h.replay replay hreplay]
  rcases news_cases msg with ⟨hnews, hstart, hno_move⟩ | ⟨hnews, hstart, hno_move⟩ | ⟨b, rfl⟩
  · -- the position stays
    rw [hnews, hstart]
    simp [hno_move, follow]
  · rw [hnews, hstart]
    simp [hno_move, follow, News.apply, eq_comm]
  · simp only [ServerMessage.move_broadcast.injEq, forall_eq', starts_game, Bool.false_eq_true,
      false_implies, and_true]
    exact client_step_eq_iff

/-- **A key** away from the replays, perhaps one that opens a replay. -/
theorem undisturbed_key {env : KeyEnv} {ch : Key} (h : Undisturbed s)
    (hstep : tracked.step s (.key env ch) s') : Undisturbed s' := by
  obtain ⟨hclient, hlive⟩ := hstep
  obtain ⟨hreplay, hkey⟩ := step_key.mp hclient
  rcases Client.handle_key_untouched hkey with huntouched | hopens
  · have hshown := Client.shown_of_untouched huntouched
    apply h.keep hshown
    -- no replay has been opened, so the game is kept
    rw [hlive]
    unfold live_moves
    rw [(Prod.mk.inj hshown).2, hreplay]
    rfl
  · exact .of_opened hopens.opened

/-- **A key of the replay** disturbs the live game if it leaves the replay
    at another position. -/
theorem undisturbed_replay_key_iff {now : Timeval} {ch : Key} (h : Undisturbed s)
    (hstep : tracked.step s (.replay_key now ch) s') :
    Undisturbed s' ↔ Harmless s (.replay_key now ch) := by
  obtain ⟨hclient, hlive⟩ := hstep
  obtain ⟨replay, hreplay, hkey⟩ := step_replay_key.mp hclient
  have hlive : s'.2 = s.2 := hlive
  rw [harmless_replay_key_iff hreplay]
  by_cases hleaves : Client.leaves_replay ch = true
  · have hleft : s'.1 = { s.1 with replay := none } := by
      rw [← hkey]
      exact if_pos hleaves
    rw [undisturbed_away (by rw [hleft]), hleft, hlive, h.replay replay hreplay]
    simp only [hleaves, true_implies]
  · rw [Bool.not_eq_true] at hleaves
    have hgoes := Client.handle_replay_key_continued hreplay hleaves now
    rw [hkey] at hgoes
    simp only [hleaves, Bool.false_eq_true, false_implies, iff_true]
    exact h.of_continued hreplay hgoes

/-- The automatic steps of a replay. -/
theorem undisturbed_auto_play {now later : Timeval} (h : Undisturbed s)
    (hstep : tracked.step s (.auto_play now later) s') : Undisturbed s' := by
  obtain ⟨replay, hreplay, hclient⟩ := step_auto_play.mp hstep.1
  have hgoes := Client.auto_play_continued hreplay now later
  rw [hclient] at hgoes
  exact h.of_continued hreplay hgoes

/-- Harm comes from messages and from the keys of a replay only. -/
def ClientEvent.may_harm : ClientEvent → Bool
  | .message _ _ => true
  | .replay_key _ _ => true
  | _ => false

theorem Harmless.of_other (h : e.may_harm = false) : Harmless s e where
  move := by
    intro _ _ _ _ he
    rw [he] at h
    cases h
  start := by
    intro _ _ _ _ he
    rw [he] at h
    cases h
  leave := by
    intro _ _ _ _ _ he
    rw [he] at h
    cases h

/-- The steps that have nothing to do with positions. -/
def ClientEvent.quiet : ClientEvent → Bool
  | .lost => true
  | .connected _ => true
  | .dialog => true
  | .timer _ => true
  | .resize _ => true
  | _ => false

theorem step_quiet_shown {client client' : Client} (hquiet : e.quiet = true)
    (hstep : client.step e = some client') : client'.shown = client.shown := by
  cases e with
  | message env msg => cases hquiet
  | key env ch => cases hquiet
  | auto_play now later => cases hquiet
  | replay_key now ch => cases hquiet
  | lost =>
    cases hstep
    exact Client.shown_of_untouched Client.lose_connection_untouched
  | connected send =>
    cases hstep
    exact Client.shown_of_untouched (Client.reconnect_untouched send)
  | dialog =>
    obtain ⟨_, hclient⟩ := step_dialog.mp hstep
    rw [← hclient]
    exact Client.shown_of_untouched Client.show_pending_dialog_untouched
  | timer now =>
    obtain ⟨_, hclient⟩ := step_timer.mp hstep
    rw [← hclient]
    show (_, _) = (_, _)
    rw [Client.update_game_timer_game]
  | resize too_small =>
    obtain ⟨_, hclient⟩ := step_resize.mp hstep
    rw [← hclient]
    rfl

theorem undisturbed_quiet_iff (h : Undisturbed s) (hquiet : e.quiet = true)
    (hstep : tracked.step s e s') : Undisturbed s' ↔ Harmless s e := by
  obtain ⟨hclient, hlive⟩ := hstep
  have hkept : live_moves s.2 s.1 e s'.1 = s.2 := by
    cases e <;> first | rfl | cases hquiet
  have hother : e.may_harm = false := by
    cases e <;> first | rfl | cases hquiet
  exact iff_of_true (h.keep (step_quiet_shown hquiet hclient) (hlive.trans hkept))
    (.of_other hother)

/-- **One step.** From an undisturbed state a step leads to an undisturbed
    state exactly if it is harmless. -/
theorem undisturbed_step_iff (h : Undisturbed s) (hstep : tracked.step s e s') :
    Undisturbed s' ↔ Harmless s e := by
  cases e with
  | message env msg =>
    cases hreplay : s.1.replay with
    | none => exact iff_of_true (undisturbed_message_away h hreplay hstep) (.of_away hreplay)
    | some replay => exact undisturbed_message_iff h hreplay hstep
  | key env ch => exact iff_of_true (undisturbed_key h hstep) (.of_other rfl)
  | replay_key now ch => exact undisturbed_replay_key_iff h hstep
  | auto_play now later =>
    exact iff_of_true (undisturbed_auto_play h hstep) (.of_other rfl)
  | lost => exact undisturbed_quiet_iff h rfl hstep
  | connected send => exact undisturbed_quiet_iff h rfl hstep
  | dialog => exact undisturbed_quiet_iff h rfl hstep
  | timer now => exact undisturbed_quiet_iff h rfl hstep
  | resize too_small => exact undisturbed_quiet_iff h rfl hstep

end steps

/-! ## Runs -/

/-- Whatever state the step leads to is undisturbed. -/
def LeadsUndisturbed (s : Tracked) (e : ClientEvent) : Prop :=
  ∀ s', tracked.step s e s' → Undisturbed s'

/-- **Live game and replay.** Every state of a run is undisturbed exactly if
    all steps of the run are harmless. -/
theorem undisturbed_run_iff (es : List ClientEvent) (s : Tracked) :
    RunWhere tracked LeadsUndisturbed tracked_init es s ↔
      RunWhere tracked Harmless tracked_init es s := by
  apply RunWhere.keeps_iff (P := Undisturbed) (I := fun _ _ => True)
  · trivial
  · exact undisturbed_init
  · intro _ _ _ _ _ _ _
    trivial
  · intro _ s e s' _ h hstep
    exact undisturbed_step_iff h hstep

/-! ## A board that is lost -/

/-- The step with the history variable, as a function. -/
def track (s : Tracked) (e : ClientEvent) : Option Tracked :=
  (s.1.step e).map fun client' => (client', live_moves s.2 s.1 e client')

theorem track_step {s s' : Tracked} {e : ClientEvent} (h : track s e = some s') :
    tracked.step s e s' :=
  with_ghost_step (fun _ _ _ hstep => hstep) live_moves h

/-- White's first move, as the server broadcasts it. -/
def first_move : MoveBroadcast where
  game_id := "game_0_1".toList
  player_id := "bob".toList
  from_coord := "e2".toList
  to_coord := "e4".toList
  game_ends := false
  winner_team := .unspecified
  end_type := .unknown
  is_check := false
  checked_team := .unspecified
  white_time_remaining := 600
  black_time_remaining := 600
  move_timestamp := some 0

/-- `bob` plays a move and goes to the main screen. -/
def back_to_main : List ClientEvent :=
  [.connected true, .key bob_types (.char '1'),
    .message ⟨fun _ => 0, true, true⟩ (.match_game_res bob_starts),
    .message ⟨fun _ => 0, true, true⟩ (.move_broadcast first_move), .key bob_types (.char 'q')]

/-- `bob` is on the main screen, with a game in progress. -/
def at_main (client : Client) : Bool :=
  client.replay.isNone && client.state.current_screen == .main && !client.state.dialog_active &&
    client.state.game_state.game_in_progress

theorem back_to_main_state : (back_to_main.foldlM track tracked_init).map
    (fun s => (s.2, at_main s.1)) = some (some [("e2".toList, "e4".toList)], true) := by
  decide +kernel

/-- `bob` opens the saved game. -/
def bob_opens : KeyEnv :=
  { bob_types with file := some (some (write_pgn midsummer unfinished_game)) }

theorem load_unfinished_game :
    load_moves (some (write_pgn midsummer unfinished_game)) = unfinished_game.pgn_moves := by
  apply load_moves_write_pgn
  · exact ⟨by decide, by decide⟩
  · exact ⟨by decide, by decide⟩
  · exact ⟨by decide, by decide⟩
  · have hall : ∀ m ∈ unfinished_game.pgn_moves, coordinate_move m = true := by decide
    intro m hm
    exact coordinate_move_token (hall m hm)
  · decide

/-- From the main screen the replay opens; the live game is remembered. -/
theorem open_replay {client : Client} {env : KeyEnv} {file : Option CString}
    (hmain : at_main client = true) (hfile : env.file = some file) (hmoves : load_moves file ≠ [])
    (live : Option (List (CString × CString))) :
    ∃ client', tracked.step (client, live) (.key env (.char '2')) (client', live) ∧
      client'.Opened := by
  simp only [at_main, Bool.and_eq_true, Option.isNone_iff_eq_none, beq_iff_eq,
    Bool.not_eq_true'] at hmain
  obtain ⟨⟨⟨hreplay, hscreen⟩, hdialog⟩, hprogress⟩ := hmain
  have hopen : client.step (.key env (.char '2')) = some (client.start_replay file) := by
    apply step_key.mpr
    constructor
    · exact hreplay
    · unfold Client.handle_key
      rw [hdialog, hscreen]
      show client.handle_main_key env (.char '2') = _
      unfold Client.handle_main_key
      simp only [hfile]
  have hopened : (client.start_replay file).Opened := by
    unfold Client.start_replay
    simp only [hmoves, if_false]
    exact ⟨_, rfl, rfl⟩
  refine ⟨client.start_replay file, ⟨hopen, ?_⟩, hopened⟩
  show live = live_moves live client _ _
  -- the game is in progress, so its moves are kept
  unfold live_moves
  simp only [hprogress, Bool.not_true, Bool.and_false, Bool.false_eq_true, if_false]

/-- The board of a replay that is left at once is the start position. -/
theorem leave_replay {client : Client} (h : client.Opened)
    (live : Option (List (CString × CString))) :
    ∃ client', tracked.step (client, live) (.replay_key ⟨0, 0⟩ (.char 'q')) (client', live) ∧
      client'.replay = none ∧ client'.state.game_state.game = init_startpos .zero := by
  obtain ⟨replay, _, hshown⟩ := h
  obtain ⟨hgame, hreplay⟩ := Prod.mk.inj hshown
  refine ⟨{ client with replay := none }, ⟨?_, rfl⟩, rfl, hgame⟩
  exact step_replay_key.mpr ⟨replay, hreplay, if_pos (by decide)⟩

/-- `bob` leaves the replay at once, and the board of his game is gone. -/
theorem undisturbed_broken : ¬ ∀ (es : List ClientEvent) (s : Tracked),
    Run tracked tracked_init es s → Undisturbed s := by
  intro hall
  obtain ⟨⟨client, live⟩, hexec, hstate⟩ := Option.map_eq_some_iff.mp back_to_main_state
  obtain ⟨hlive, hmain⟩ := Prod.mk.inj hstate
  have hrun := foldlM_run (fun _ _ _ => track_step) hexec
  obtain ⟨replaying, hopen, hopened⟩ := @open_replay _ bob_opens _ hmain rfl
    (by rw [load_unfinished_game]; decide) live
  obtain ⟨client', hleave, hreplay, hgame⟩ := leave_replay hopened live
  have hundisturbed := hall _ _ ((hrun.snoc hopen).snoc hleave)
  have hlost : init_startpos .zero = live_position [("e2".toList, "e4".toList)] :=
    hgame.symm.trans (hundisturbed.live hreplay _ hlive)
  -- it is Black's turn in the game, but White's on the board
  have hturn : (live_position [("e2".toList, "e4".toList)]).side_to_move = .black := by
    decide +kernel
  rw [← hlost] at hturn
  cases hturn

end MultiplayChess
