import MultiplayChess.Client.Rematch
import MultiplayChess.Client.Results

/-! # Games that are over

    A game ends for the client with a `MoveBroadcast` that says so, with a
    `ResignBroadcast` or with a `GameEndBroadcast`.  From then on, and until
    the next game starts, no game should be in progress and the clocks on
    the screen should stand still.  The handlers of the first two clear
    `game_in_progress`; the third only tells the user, so a game the server
    ends goes on for its client. -/

namespace MultiplayChess

open LTS

/-! ## What is over -/

/-- The message ends the game of the client. -/
def ends_game (msg : ServerMessage) : Bool :=
  (announced_winner msg).isSome

/-- Whether the game of the client has ended and no other one has started. -/
def ended (before : Bool) (_client : Client) (e : ClientEvent) (_client' : Client) : Bool :=
  match e with
  | .message _ msg => if starts_game msg then false else before || ends_game msg
  | _ => before

/-- A client, and whether its game has ended. -/
abbrev Watched : Type := Client × Bool

/-- The client with the end of its game as a history variable. -/
def watched : System Watched ClientEvent :=
  session.with_ghost ended

/-- Before the first game. -/
def watched_init : Watched := (init_client, false)

/-- What the two clocks of the game screen show. -/
def shown_clocks (state : GameState) : Int × Int :=
  (state.white_time_remaining, state.black_time_remaining)

/-- A game that has ended is not in progress, and its clocks stand still. -/
structure Terminated (s : Watched) : Prop where
  in_progress : s.2 = true → s.1.state.game_state.game_in_progress = false
  clocks : s.2 = true → ∀ now,
    shown_clocks (Client.update_game_timer s.1.state.game_state now) =
      shown_clocks s.1.state.game_state

/-- A `GameEndBroadcast` comes when no game is in progress. -/
def EndsNothing (s : Watched) (e : ClientEvent) : Prop :=
  ∀ env b, e = .message env (.game_end b) → s.1.state.game_state.game_in_progress = false

/-- The flag decides about the clocks. -/
theorem terminated_iff {s : Watched} :
    Terminated s ↔ (s.2 = true → s.1.state.game_state.game_in_progress = false) := by
  constructor
  · intro h
    exact h.in_progress
  · intro h
    constructor
    · exact h
    · intro hended now
      rw [Client.update_game_timer_stopped (h hended)]

theorem terminated_init : Terminated watched_init :=
  terminated_iff.mpr fun h => nomatch h

/-! ## Messages -/

/-- What a message makes of `game_in_progress`. -/
def in_progress_after (in_progress : Bool) : ServerMessage → Bool
  | .match_game_res res => starts_game (.match_game_res res) || in_progress
  | .move_broadcast b => in_progress && !b.game_ends
  | .resign_broadcast _ => false
  | _ => in_progress

theorem record_move_in_progress (state : GameState) (b : MoveBroadcast) :
    (record_move state b).game_in_progress = state.game_in_progress := by
  obtain ⟨_, _, hmoves⟩ := record_move_eq state b
  rw [hmoves]

theorem update_check_flags_in_progress (state : GameState) (b : MoveBroadcast) :
    (update_check_flags state b).game_in_progress = state.game_in_progress := by
  obtain ⟨_, _, hflags⟩ := update_check_flags_eq state b
  rw [hflags]

theorem sync_clocks_in_progress (state : GameState) (env : ClientEnv) (b : MoveBroadcast) :
    (sync_clocks state env b).game_in_progress = state.game_in_progress := by
  obtain ⟨_, _, _, _, _, _, hclocks⟩ := sync_clocks_eq state env b
  rw [hclocks]

theorem apply_broadcast_in_progress (client : ClientState) (env : ClientEnv) (b : MoveBroadcast) :
    (apply_broadcast client env b).game_state.game_in_progress =
      client.game_state.game_in_progress := by
  unfold apply_broadcast
  simp only
  split
  · rw [sync_clocks_in_progress, update_check_flags_in_progress, record_move_in_progress]
    rfl
  · rfl

theorem handle_move_broadcast_in_progress (client : ClientState) (env : ClientEnv)
    (b : MoveBroadcast) :
    (handle_move_broadcast client env b).game_state.game_in_progress =
      (client.game_state.game_in_progress && !b.game_ends) := by
  unfold handle_move_broadcast
  simp only
  cases hends : b.game_ends with
  | true =>
    rw [if_pos rfl, Bool.not_true, Bool.and_false]
    rfl
  | false =>
    rw [if_neg Bool.false_ne_true, Bool.not_false, Bool.and_true]
    exact apply_broadcast_in_progress client env b

/-- **What a message does to the flag.** -/
theorem dispatch_in_progress (client : ClientState) (env : ClientEnv) (msg : ServerMessage) :
    (dispatch_server_message client env msg).game_state.game_in_progress =
      in_progress_after client.game_state.game_in_progress msg := by
  by_cases hchat : only_chats msg = true
  · obtain ⟨messages, hstate⟩ := dispatch_only_chats hchat client env
    rw [hstate]
    cases msg with
    | match_game_res res =>
      show _ = (starts_game (.match_game_res res) || client.game_state.game_in_progress)
      rw [(Bool.not_eq_true' _).mp hchat, Bool.false_or]
    | move_broadcast b => cases hchat
    | resign_broadcast b => cases hchat
    | _ => rfl
  · cases msg with
    | match_game_res res =>
      have hstart := starts_of_not_only_chats hchat
      obtain ⟨hsuccess, hteam⟩ := starts_game_iff.mp hstart
      show (handle_match_game_response client env res).game_state.game_in_progress =
        (starts_game (.match_game_res res) || client.game_state.game_in_progress)
      unfold handle_match_game_response
      rw [hstart, if_pos hsuccess, if_neg hteam]
      rfl
    | move_broadcast b => exact handle_move_broadcast_in_progress client env b
    | resign_broadcast b => rfl
    | game_end b => rfl
    | _ => exact absurd rfl hchat

/-- Every end but that by a `GameEndBroadcast` clears the flag. -/
theorem in_progress_after_end {msg : ServerMessage} (hend : ends_game msg = true)
    (hother : ∀ b, msg ≠ .game_end b) (in_progress : Bool) :
    in_progress_after in_progress msg = false := by
  cases msg with
  | move_broadcast b =>
    have hends : b.game_ends = true := by
      by_contra hgoes_on
      have hnone : announced_winner (.move_broadcast b) = none := if_neg hgoes_on
      unfold ends_game at hend
      rw [hnone] at hend
      cases hend
    show (in_progress && !b.game_ends) = false
    rw [hends, Bool.not_true, Bool.and_false]
  | resign_broadcast b => rfl
  | game_end b => exact absurd rfl (hother b)
  | _ => cases hend

/-- Only the start of a game sets the flag. -/
theorem in_progress_after_stopped {msg : ServerMessage} (hno_start : starts_game msg = false) :
    in_progress_after false msg = false := by
  cases msg with
  | match_game_res res =>
    show (starts_game (.match_game_res res) || false) = false
    rw [hno_start, Bool.false_or]
  | _ => rfl

/-! ## Steps -/

/-- What a step makes of `game_in_progress`: only messages count. -/
def in_progress_next (in_progress : Bool) : ClientEvent → Bool
  | .message _ msg => in_progress_after in_progress msg
  | _ => in_progress

theorem Client.in_progress_of_untouched {client client' : Client}
    (h : client'.untouched = client.untouched) :
    client'.state.game_state.game_in_progress = client.state.game_state.game_in_progress :=
  congrArg (fun u : GameState × Option ReplayState => u.1.game_in_progress) h

theorem Client.Opens.in_progress {client client' : Client} (h : client.Opens client') :
    client'.state.game_state.game_in_progress = client.state.game_state.game_in_progress := by
  obtain ⟨replay, _, huntouched⟩ := h
  exact congrArg (fun u : GameState × Option ReplayState => u.1.game_in_progress) huntouched

theorem Client.in_progress_of_beyond_replay {client client' : Client}
    (h : client'.beyond_replay = client.beyond_replay) :
    client'.state.game_state.game_in_progress = client.state.game_state.game_in_progress := by
  have hgame := congrArg (fun client : Client => client.state.game_state.game_in_progress) h
  exact hgame

/-- **What a step does to the flag.** -/
theorem step_in_progress {client client' : Client} {e : ClientEvent}
    (hstep : client.step e = some client') :
    client'.state.game_state.game_in_progress =
      in_progress_next client.state.game_state.game_in_progress e := by
  cases e with
  | message env msg =>
    cases hstep
    exact dispatch_in_progress client.state env msg
  | lost =>
    cases hstep
    exact Client.in_progress_of_untouched Client.lose_connection_untouched
  | connected send =>
    cases hstep
    exact Client.in_progress_of_untouched (Client.reconnect_untouched send)
  | key env ch =>
    rcases Client.handle_key_untouched (step_key.mp hstep).2 with huntouched | hopens
    · exact Client.in_progress_of_untouched huntouched
    · exact hopens.in_progress
  | dialog =>
    obtain ⟨_, hclient⟩ := step_dialog.mp hstep
    rw [← hclient]
    exact Client.in_progress_of_untouched Client.show_pending_dialog_untouched
  | timer now =>
    obtain ⟨_, hclient⟩ := step_timer.mp hstep
    rw [← hclient]
    exact Client.update_game_timer_in_progress _ now
  | resize too_small =>
    obtain ⟨_, hclient⟩ := step_resize.mp hstep
    rw [← hclient]
    rfl
  | auto_play now later =>
    obtain ⟨replay, _, hclient⟩ := step_auto_play.mp hstep
    rw [← hclient]
    exact Client.in_progress_of_beyond_replay (Client.auto_play_beyond_replay now later)
  | replay_key now ch =>
    obtain ⟨replay, _, hclient⟩ := step_replay_key.mp hstep
    rw [← hclient]
    exact Client.in_progress_of_beyond_replay (Client.handle_replay_key_beyond_replay now)

/-- **A message** keeps a game that is over so, unless it is a
    `GameEndBroadcast` that comes while a game is in progress. -/
theorem terminated_message_iff {s s' : Watched} {env : ClientEnv} {msg : ServerMessage}
    (h : Terminated s) (hstep : watched.step s (.message env msg) s') :
    Terminated s' ↔ EndsNothing s (.message env msg) := by
  obtain ⟨hclient, hended⟩ := hstep
  rw [terminated_iff, hended, step_in_progress hclient]
  by_cases hgame_end : ∃ b, msg = .game_end b
  · obtain ⟨b, rfl⟩ := hgame_end
    -- the game has ended now, and the flag is what it was
    have hover : ended s.2 s.1 (.message env (.game_end b)) s'.1 = true := Bool.or_true s.2
    rw [hover]
    constructor
    · intro hstopped _ _ _
      exact hstopped rfl
    · intro hnothing _
      exact hnothing env b rfl
  · have hother : ∀ b, msg ≠ .game_end b := fun b hb => hgame_end ⟨b, hb⟩
    apply iff_of_true
    · intro hover
      by_cases hstart : starts_game msg = true
      · -- another game: nothing is over
        have hnot_over : ended s.2 s.1 (.message env msg) s'.1 = false := if_pos hstart
        rw [hnot_over] at hover
        cases hover
      · have hor : ended s.2 s.1 (.message env msg) s'.1 = (s.2 || ends_game msg) := if_neg hstart
        rw [hor, Bool.or_eq_true] at hover
        rcases hover with hbefore | hends
        · show in_progress_after s.1.state.game_state.game_in_progress msg = false
          rw [h.in_progress hbefore]
          exact in_progress_after_stopped (Bool.eq_false_of_not_eq_true hstart)
        · exact in_progress_after_end hends hother _
    · intro _ b he
      cases he
      exact absurd rfl (hother b)

/-- **One step.** -/
theorem terminated_step_iff {s s' : Watched} {e : ClientEvent} (h : Terminated s)
    (hstep : watched.step s e s') : Terminated s' ↔ EndsNothing s e := by
  by_cases hmessage : ∃ env msg, e = .message env msg
  · obtain ⟨env, msg, rfl⟩ := hmessage
    exact terminated_message_iff h hstep
  · -- neither the flag nor the end of the game has changed
    obtain ⟨hclient, hended⟩ := hstep
    have hflag := step_in_progress hclient
    have hkept : s'.2 = s.2 ∧ s'.1.state.game_state.game_in_progress =
        s.1.state.game_state.game_in_progress := by
      cases e with
      | message env msg => exact absurd ⟨env, msg, rfl⟩ hmessage
      | _ => exact ⟨hended, hflag⟩
    apply iff_of_true
    · rw [terminated_iff, hkept.1, hkept.2]
      exact h.in_progress
    · intro env b he
      exact absurd ⟨env, _, he⟩ hmessage

/-! ## Runs -/

/-- **Terminal convergence.** In all states of a run the games that have
    ended are not in progress and their clocks stand still, exactly if no
    `GameEndBroadcast` of the run comes while a game is in progress. -/
theorem terminated_run_iff (es : List ClientEvent) (s : Watched) :
    RunWhere watched (watched.Keeps Terminated) watched_init es s ↔
      RunWhere watched EndsNothing watched_init es s := by
  apply RunWhere.keeps_iff (I := fun _ _ => True)
  · trivial
  · exact terminated_init
  · intro _ _ _ _ _ _ _
    trivial
  · intro _ s e s' _ h hstep
    exact terminated_step_iff h hstep

/-! ## A game that goes on -/

/-- The messages a client has handled. -/
def handled : List ClientEvent → List ServerMessage
  | [] => []
  | .message _ msg :: es => msg :: handled es
  | _ :: es => handled es

/-- `ann` leaves the game. -/
def abandoned_game : List Event :=
  two_requests ++ [.disconnect 5 (.calm 0)]

/-- `bob` asks for a game and handles what the server sends him. -/
def bob_waits (ls : List (Event × List Sent)) : List ClientEvent :=
  .connected true :: .key bob_types (.char '1') ::
    (inbox 6 (sends ls)).map (.message ⟨fun _ => 0, true, true⟩)

/-- The step with the history variable, as a function. -/
def watch (s : Watched) (e : ClientEvent) : Option Watched :=
  (s.1.step e).map fun client' => (client', ended s.2 s.1 e client')

theorem watch_step {s s' : Watched} {e : ClientEvent} (h : watch s e = some s') :
    watched.step s e s' :=
  with_ghost_step (fun _ _ _ hstep => hstep) ended h

theorem handled_bob_waits (ls : List (Event × List Sent)) :
    handled (bob_waits ls) = inbox 6 (sends ls) := by
  show handled ((inbox 6 (sends ls)).map _) = _
  induction inbox 6 (sends ls) with
  | nil => rfl
  | cons msg msgs ih => exact congrArg (msg :: ·) ih

/-- Whether the game of `bob` has ended, and whether it is in progress. -/
def bob_goes_on (es : List Event) : Option (Bool × Bool) :=
  (exec server_run init_match_manager es).bind fun r =>
    ((bob_waits r.1).foldlM watch watched_init).map fun s =>
      (s.2, s.1.state.game_state.game_in_progress)

theorem bob_goes_on_abandoned_game : bob_goes_on abandoned_game = some (true, true) := by
  decide +kernel

/-- When `ann` has left, the game is still in progress for `bob`. -/
theorem terminated_broken :
    ¬ ∀ (ls : List (Event × List Sent)) (mgr : MatchManager) (es : List ClientEvent) (s : Watched),
      Run server init_match_manager ls mgr → Run watched watched_init es s →
      handled es <+: inbox 6 (sends ls) → Terminated s := by
  intro hall
  obtain ⟨r, hserver, hr⟩ := Option.bind_eq_some_iff.mp bob_goes_on_abandoned_game
  obtain ⟨s, hclient, hs⟩ := Option.map_eq_some_iff.mp hr
  obtain ⟨hended, hin_progress⟩ := Prod.mk.inj hs
  have hterminated := hall r.1 r.2 (bob_waits r.1) s (exec_run hserver)
    (foldlM_run (fun _ _ _ => watch_step) hclient)
    ⟨[], (List.append_nil _).trans (handled_bob_waits r.1)⟩
  rw [hterminated.in_progress hended] at hin_progress
  cases hin_progress

end MultiplayChess
