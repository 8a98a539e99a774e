import MultiplayChess.Client.Agreement
import MultiplayChess.Client.Resignation
import MultiplayChess.Client.Linked
import MultiplayChess.Server.Matching

/-! # In touch

    A client at the board lags behind the server by what is on the way to
    it, and by nothing else: the position it shows, brought up to date with
    the messages it has not received yet, is the server's, and so is its
    team.  This goes on over lost connections, other clients and everything
    the user does, as long as all sends succeed and no replay runs on the
    board of the game. -/

namespace MultiplayChess

open LTS Loop Replica
open Chess (Move)

/-! ## The team -/

/-- The team after a message. -/
def told_team (team : Team) : ServerMessage → Team
  | .match_game_res res =>
    if starts_game (.match_game_res res) then
      if res.assigned_team = .black then .black else .white
    else team
  | _ => team

theorem dispatch_team (client : ClientState) (env : ClientEnv) (msg : ServerMessage) :
    (dispatch_server_message client env msg).game_state.local_team =
      told_team client.game_state.local_team msg := by
  by_cases hchat : only_chats msg = true
  · obtain ⟨messages, hstate⟩ := dispatch_only_chats hchat client env
    rw [hstate]
    cases msg with
    | match_game_res res => exact (if_neg (by simpa [only_chats] using hchat)).symm
    | move_broadcast b => cases hchat
    | _ => rfl
  · cases msg with
    | match_game_res res =>
      have hstart := starts_of_not_only_chats hchat
      obtain ⟨hsuccess, hteam⟩ := starts_game_iff.mp hstart
      show (handle_match_game_response client env res).game_state.local_team =
        if starts_game (.match_game_res res) then _ else _
      unfold handle_match_game_response
      rw [if_pos hsuccess, if_neg hteam, if_pos hstart]
    | move_broadcast b =>
      have happly := (apply_broadcast_applied client env b).local_team
      show (handle_move_broadcast client env b).game_state.local_team = _
      unfold handle_move_broadcast
      simp only
      split
      · exact (save_local_team _ _).trans happly
      · exact happly
    | resign_broadcast b => exact save_local_team _ _
    | game_end b => rfl
    | _ => exact absurd rfl hchat

theorem told_team_none {msg : ServerMessage} (h : starts_game msg = false) (team : Team) :
    told_team team msg = team := by
  cases msg with
  | match_game_res res =>
    apply if_neg
    rw [h]
    exact Bool.false_ne_true
  | _ => rfl

theorem told_team_start {res : MatchGameResponse} {t : Team}
    (h : starts_game (.match_game_res res) = true) (hteam : res.assigned_team = t.proto)
    (team : Team) : told_team team (.match_game_res res) = t := by
  show (if starts_game (.match_game_res res) then _ else _) = t
  rw [if_pos h, hteam]
  cases t <;> rfl

/-- If no message tells of another team, the team stays. -/
theorem told_team_stays {msgs : List ServerMessage} {team : Team}
    (h : ∀ msg ∈ msgs, told_team team msg = team) : msgs.foldl told_team team = team := by
  induction msgs with
  | nil => rfl
  | cons msg msgs ih =>
    rw [List.foldl_cons, h msg (.head _)]
    exact ih fun m hm => h m (.tail _ hm)

/-- All start messages tell the same team; one of them is enough. -/
theorem told_team_started {msgs : List ServerMessage} {t : Team}
    (hstart : ∃ msg ∈ msgs, starts_game msg = true)
    (hall : ∀ res, .match_game_res res ∈ msgs → starts_game (.match_game_res res) = true →
      res.assigned_team = t.proto) (team : Team) : msgs.foldl told_team team = t := by
  induction msgs generalizing team with
  | nil =>
    obtain ⟨_, hmem, _⟩ := hstart
    cases hmem
  | cons msg msgs ih =>
    rw [List.foldl_cons]
    by_cases hmore : ∃ m ∈ msgs, starts_game m = true
    · exact ih hmore (fun res hres => hall res (.tail _ hres)) _
    · -- the first message is the only one that starts a game
      have hfirst : starts_game msg = true := by
        obtain ⟨m, hm, hs⟩ := hstart
        rcases List.mem_cons.mp hm with rfl | hm
        · exact hs
        · exact absurd ⟨m, hm, hs⟩ hmore
      have hteam : told_team team msg = t := by
        cases msg with
        | match_game_res res => exact told_team_start hfirst (hall res (.head _) hfirst) team
        | _ => cases hfirst
      rw [hteam]
      apply told_team_stays
      intro m hm
      exact told_team_none (Bool.eq_false_iff.mpr fun hs => hmore ⟨m, hm, hs⟩) t

/-! ## What the server tells of the seat -/

section server

variable {mgr mgr' : MatchManager} {e : Event} {fd : Int} {out : List Sent}

/-- Among updates there is no start. -/
theorem no_start_of_updates (h : ∀ n ∈ news fd out, n.is_update = true) {msg : ServerMessage}
    (hmem : msg ∈ inbox fd out) : starts_game msg = false := by
  by_contra hstart
  rw [Bool.not_eq_false] at hstart
  cases msg with
  | match_game_res res =>
    have hnews : News.reset (init_startpos .zero) ∈ news fd out :=
      List.mem_filterMap.mpr ⟨_, hmem, news_of_start hstart⟩
    cases h _ hnews
  | _ => cases hstart

theorem mem_inbox {msg : ServerMessage} :
    msg ∈ inbox fd out ↔ ∃ s ∈ out, s.fd = fd ∧ s.ok = true ∧ s.msg = msg := by
  unfold inbox
  simp only [List.mem_map, List.mem_filter, Bool.and_eq_true, beq_iff_eq, and_assoc]

/-- A report of an error starts nothing. -/
theorem mem_of_report_error {env : Env} {o : Outcome} {s : Sent}
    (h : s ∈ (report_error env fd o).out) (hstart : starts_game s.msg = true) : s ∈ o.out := by
  unfold report_error send_error_response send_server_message at h
  split at h
  · exact h
  · rcases List.mem_append.mp h with h | h
    · exact h
    · rw [List.mem_singleton.mp h] at hstart
      cases hstart

/-- The start messages of a new game tell its seats. -/
theorem announce_start_seats {env : Env} {w : WaitingPlayer} {game : ActiveGame} {s : Sent}
    {res : MatchGameResponse} {k : Fin max_active_games}
    (hfind : find_game_by_player_fd mgr fd = some k)
    (hown : game.fd_of (requester_team env) = fd)
    (hs : s ∈ (announce_start mgr env fd (start_result env w game)).out)
    (hmsg : s.msg = .match_game_res res) :
    ∃ t, game.fd_of t = s.fd ∧ res.assigned_team = t.proto := by
  rw [announce_start_out hfind] at hs
  rcases List.mem_cons.mp hs with rfl | hs
  · cases hmsg
    exact ⟨requester_team env, hown, rfl⟩
  · split at hs
    · obtain rfl := List.mem_singleton.mp hs
      cases hmsg
      exact ⟨(requester_team env).other, rfl, rfl⟩
    · cases hs

/-- **A start message** tells its receiver the seat that it has. -/
theorem start_tells_seat {i : Fin max_active_games} {t : Team} {res : MatchGameResponse}
    (htidy : Tidy mgr) (hsmooth : Smooth mgr (e, out)) (hstep : server.step mgr (e, out) mgr')
    (hseat : mgr'.fd_at (.seat i t) = some fd) (hmem : .match_game_res res ∈ inbox fd out)
    (hstart : starts_game (.match_game_res res) = true) : res.assigned_team = t.proto := by
  have htidy' := htidy.step hsmooth hstep
  have hreset : News.reset (init_startpos .zero) ∈ news fd out :=
    List.mem_filterMap.mpr ⟨_, hmem, news_of_start hstart⟩
  by_cases hmatch : ∀ fd player_id env, e ≠ .message fd (.match_game player_id) env
  · -- nobody else tells of a start
    cases hacc : accepted mgr e with
    | none =>
      rw [quiet_step_news hstep hmatch hacc] at hreset
      cases hreset
    | some p =>
      obtain ⟨j, m⟩ := p
      obtain ⟨u, _, htells⟩ := played_step_news htidy hsmooth hstep hacc
      rw [htells fd] at hreset
      split at hreset
      · cases List.mem_singleton.mp hreset
      · cases hreset
  · simp only [not_forall, not_not] at hmatch
    obtain ⟨fd₀, player_id, env, rfl⟩ := hmatch
    rcases match_step_news htidy hsmooth hstep with ⟨hnone, _⟩ | ⟨j, hfree, hactive, _, _⟩
    · rw [hnone fd] at hreset
      cases hreset
    · obtain ⟨o, ho, rfl, rfl⟩ := message_step_ok hstep
      have hhandler : handle_match_game_message mgr env fd₀ player_id = .ok o := ho
      obtain ⟨w, id, counter, game, _, hnew, rfl⟩ := match_seated hhandler hfree hactive
      obtain ⟨hgame, _, _, hown, _⟩ := new_game_spec hnew
      obtain ⟨k, hfind⟩ : ∃ k, find_game_by_player_fd (mgr.seated w j game counter) fd₀ = some k :=
        seated_find hnew
      obtain ⟨s, hs, rfl, _, hmsg⟩ := mem_inbox.mp hmem
      obtain ⟨t', hfd, hteam⟩ := announce_start_seats hfind hown
        (mem_of_report_error hs (by rw [hmsg]; exact hstart)) hmsg
      -- the receiver has no other seat
      have hseat' : (announce_start (mgr.seated w j game counter) env fd₀
          (start_result env (mgr.waiting_players w) game)).mgr.fd_at (.seat j t') = some s.fd := by
        rw [announce_start_mgr, fd_at_seat, seated_game]
        exact ⟨hgame, hfd⟩
      have hplaces := htidy'.unique _ _ _ hseat hseat'
      cases hplaces
      exact hteam

/-- **What a seat is told.** A player whose game begins is told to reset; in
    a game that goes on the news lead from one position to the next. -/
theorem seat_told {i : Fin max_active_games} {t : Team} (htidy : Tidy mgr)
    (hsmooth : Smooth mgr (e, out)) (hstep : server.step mgr (e, out) mgr')
    (hseat : mgr'.fd_at (.seat i t) = some fd) :
    news fd out = [.reset (init_startpos .zero)] ∧
        (mgr'.active_games i).game_state = init_startpos .zero ∨
      mgr.fd_at (.seat i t) = some fd ∧ ∃ us : List Coords, news fd out = us.map .update ∧
        (mgr'.active_games i).game_state =
          us.foldl client_step (mgr.active_games i).game_state := by
  obtain ⟨hactive', hfd'⟩ := fd_at_seat.mp hseat
  have hslot := (step_change hstep).slot i
  cases hactive : (mgr.active_games i).is_active with
  | false =>
    have htells := started_step_news htidy hsmooth hstep hactive hactive' fd
    rw [if_pos (seats_iff.mpr ⟨t, hfd'⟩)] at htells
    obtain ⟨_, _, _, _, _, _, hnew⟩ := hslot.starts hactive hactive'
    refine .inl ⟨htells, ?_⟩
    rw [(new_game_spec hnew).2.1]
    exact init_startpos_eq _ _
  | true =>
    have hfd : (mgr.active_games i).fd_of t = fd := (hslot.seats hactive t).symm.trans hfd'
    have hseats : (mgr.active_games i).seats fd = true := seats_iff.mpr ⟨t, hfd⟩
    refine .inr ⟨fd_at_seat.mpr ⟨hactive, hfd⟩, ?_⟩
    by_cases hacc : ∃ m, accepted mgr e = some (i, m)
    · obtain ⟨m, hacc⟩ := hacc
      obtain ⟨u, hu, htells⟩ := played_step_news htidy hsmooth hstep hacc
      refine ⟨[u], ?_, ?_⟩
      · rw [htells fd, if_pos hseats]
        rfl
      · rw [hslot.played_position hacc]
        exact (hu.step _).symm
    · have hnone : ∀ m, accepted mgr e ≠ some (i, m) := fun m hm => hacc ⟨m, hm⟩
      exact ⟨[], other_step_news htidy hsmooth hstep hactive hnone hseats,
        hslot.position hactive hnone⟩

end server

/-! ## The invariant -/

/-- The fd has no game. -/
def Unseated (mgr : MatchManager) (fd : Int) : Prop :=
  ∀ i t, mgr.fd_at (.seat i t) ≠ some fd

/-- A step that loses nothing the server sends: its sends succeed, only who
    has no place asks for one, and a new connection has no place yet. -/
structure LosesNothing (s : Linked) (e : LinkedEvent) : Prop where
  server : ∀ e', e = .server e' → ∀ r, server_run s.mgr e' = some r → Smooth s.mgr (e', r.2)
  connection : ∀ fd send, e = .connect fd send → Unplaced s.mgr fd

/-- A step with which the client does not lose touch: nothing is lost, and
    no replay runs while the client has a game. -/
structure KeepsInTouch (s : Linked) (e : LinkedEvent) : Prop extends LosesNothing s e where
  replay : linked.Keeps (fun s' => s'.client.replay = none ∨ Unseated s'.mgr s'.fd) s e

/-- The position, the team and the replay of a client. -/
def Client.stance (client : Client) : Game × Team × Option ReplayState :=
  (client.state.game_state.game, client.state.game_state.local_team, client.replay)

theorem Client.stance_of_untouched {client client' : Client}
    (h : client'.untouched = client.untouched) : client'.stance = client.stance :=
  congrArg (fun u : GameState × Option ReplayState => (u.1.game, u.1.local_team, u.2)) h

/-- What the client shows is behind the server by what is on the way. -/
structure InTouch (s : Linked) : Prop where
  tidy : Tidy s.mgr
  board : ∀ i t, s.mgr.fd_at (.seat i t) = some s.fd →
    follow client_step s.client.state.game_state.game (s.on_the_way.filterMap news_of) =
      (s.mgr.active_games i).game_state
  team : ∀ i t, s.mgr.fd_at (.seat i t) = some s.fd →
    s.on_the_way.foldl told_team s.client.state.game_state.local_team = t
  replay : s.client.replay = none ∨ Unseated s.mgr s.fd

section steps

variable {s s' : Linked}

/-- Without a game there is nothing to agree on. -/
theorem InTouch.unseated (htidy : Tidy s.mgr) (h : Unseated s.mgr s.fd) : InTouch s where
  tidy := htidy
  board := fun i t hseat => absurd hseat (h i t)
  team := fun i t hseat => absurd hseat (h i t)
  replay := .inr h

/-- A step that leaves the game and the messages alone. -/
theorem InTouch.congr (h : InTouch s) (hmgr : s'.mgr = s.mgr) (hfd : s'.fd = s.fd)
    (hway : s'.on_the_way = s.on_the_way) (hstance : s'.client.stance = s.client.stance) :
    InTouch s' := by
  have hgame : s'.client.state.game_state.game = s.client.state.game_state.game :=
    congrArg (fun u => u.1) hstance
  have hteam : s'.client.state.game_state.local_team = s.client.state.game_state.local_team :=
    congrArg (fun u => u.2.1) hstance
  have hreplay : s'.client.replay = s.client.replay := congrArg (fun u => u.2.2) hstance
  refine ⟨?_, ?_, ?_, ?_⟩
  · rw [hmgr]
    exact h.tidy
  · rw [hmgr, hfd, hway, hgame]
    exact h.board
  · rw [hmgr, hfd, hway, hteam]
    exact h.team
  · rw [hmgr, hfd, hreplay]
    exact h.replay

/-- **The server takes a step.** -/
theorem InTouch.serve {e : Event} (h : InTouch s)
    (hsmooth : ∀ r, server_run s.mgr e = some r → Smooth s.mgr (e, r.2))
    (hreplay : s'.client.replay = none ∨ Unseated s'.mgr s'.fd) (hstep : s.serve e = some s') :
    InTouch s' := by
  obtain ⟨out, hserver, hclient, hfd, hway⟩ := serve_spec hstep
  have hsm := hsmooth _ hserver
  have hrun : server.step s.mgr (e, out) s'.mgr := hserver
  refine ⟨h.tidy.step hsm hrun, ?_, ?_, hreplay⟩
  · intro i t hseat
    rw [hfd] at hseat
    have hnews : (inbox s.fd out).filterMap news_of = news s.fd out := rfl
    rw [hclient, hway, List.filterMap_append, follow_append, hnews]
    rcases seat_told h.tidy hsm hrun hseat with ⟨hreset, hstart⟩ | ⟨hbefore, us, hus, hgame⟩
    · rw [hreset, hstart]
      rfl
    · rw [hus, follow_updates, hgame, h.board i t hbefore]
  · intro i t hseat
    rw [hfd] at hseat
    rw [hclient, hway, List.foldl_append]
    rcases seat_told h.tidy hsm hrun hseat with ⟨hreset, _⟩ | ⟨hbefore, us, hus, _⟩
    · -- the game has just begun, and the start message is among the new ones
      apply told_team_started
      · have hmem : News.reset (init_startpos .zero) ∈ news s.fd out := by
          rw [hreset]
          exact List.mem_singleton_self _
        obtain ⟨msg, hmsg, hnews⟩ := List.mem_filterMap.mp hmem
        refine ⟨msg, hmsg, ?_⟩
        by_contra hno_start
        cases msg with
        | match_game_res res =>
          rw [news_of_no_start hno_start] at hnews
          cases hnews
        | move_broadcast b => cases hnews
        | _ => cases hnews
      · intro res hres hstart
        exact start_tells_seat h.tidy hsm hrun hseat hres hstart
    · rw [h.team i t hbefore]
      apply told_team_stays
      intro msg hmsg
      apply told_team_none
      apply no_start_of_updates ?_ hmsg
      rw [hus]
      intro n hn
      obtain ⟨u, _, rfl⟩ := List.mem_map.mp hn
      rfl

/-- **The client receives a message.** -/
theorem InTouch.receive {env : ClientEnv} (h : InTouch s)
    (hreplay : s'.client.replay = none ∨ Unseated s'.mgr s'.fd)
    (hstep : s.receive env = some s') : InTouch s' := by
  obtain ⟨msg, hway, hclient, hmgr, hfd⟩ := receive_spec hstep
  refine ⟨?_, ?_, ?_, hreplay⟩
  · rw [hmgr]
    exact h.tidy
  · intro i t hseat
    rw [hmgr, hfd] at hseat
    have hgame : s'.client.state.game_state.game =
        follow client_step s.client.state.game_state.game (news_of msg).toList := by
      rw [hclient]
      exact dispatch_game s.client.state env msg
    have hboard := h.board i t hseat
    have hsplit : s.on_the_way.filterMap news_of =
        (news_of msg).toList ++ s'.on_the_way.filterMap news_of := by
      rw [hway, List.filterMap_cons]
      cases news_of msg <;> rfl
    rw [hsplit, follow_append, ← hgame] at hboard
    rw [hmgr]
    exact hboard
  · intro i t hseat
    rw [hmgr, hfd] at hseat
    have hteam := h.team i t hseat
    rw [hway, List.foldl_cons] at hteam
    rw [hclient]
    show s'.on_the_way.foldl told_team
      (dispatch_server_message s.client.state env msg).game_state.local_team = t
    rw [dispatch_team]
    exact hteam

/-- Apart from replays the main thread leaves the game alone. -/
theorem step_stance {client client' : Client} {e : ClientEvent} (hmain : e.of_main = true)
    (hbefore : client.replay = none) (hafter : client'.replay = none)
    (hstep : client.step e = some client') : client'.stance = client.stance := by
  cases e with
  | message env msg => cases hmain
  | lost => cases hmain
  | connected send => cases hmain
  | key env ch =>
    rcases Client.handle_key_untouched (step_key.mp hstep).2 with huntouched | ⟨replay, _, hopens⟩
    · exact Client.stance_of_untouched huntouched
    · -- a key that opens a replay
      have hreplay : client'.replay = some replay := congrArg Prod.snd hopens
      cases hreplay.symm.trans hafter
  | dialog =>
    obtain ⟨_, rfl⟩ := step_dialog.mp hstep
    exact Client.stance_of_untouched Client.show_pending_dialog_untouched
  | timer now =>
    obtain ⟨_, rfl⟩ := step_timer.mp hstep
    obtain ⟨_, _, _, htimer⟩ := Client.update_game_timer_eq client.state.game_state now
    unfold Client.stance
    rw [htimer]
  | resize too_small =>
    obtain ⟨_, rfl⟩ := step_resize.mp hstep
    rfl
  | auto_play now later =>
    obtain ⟨replay, hreplay, _⟩ := step_auto_play.mp hstep
    cases hbefore.symm.trans hreplay
  | replay_key now ch =>
    obtain ⟨replay, hreplay, _⟩ := step_replay_key.mp hstep
    cases hbefore.symm.trans hreplay

/-- **The main thread takes a step.** -/
theorem InTouch.main {e : ClientEvent} (h : InTouch s)
    (hreplay : s'.client.replay = none ∨ Unseated s'.mgr s'.fd) (hstep : s.main e = some s') :
    InTouch s' := by
  unfold Linked.main at hstep
  split at hstep
  · rename_i hmain
    obtain ⟨client, hclient, rfl⟩ := Option.map_eq_some_iff.mp hstep
    by_cases hseated : Unseated s.mgr s.fd
    · exact .unseated h.tidy hseated
    · have hbefore := h.replay.resolve_right hseated
      have hafter : client.replay = none := hreplay.resolve_right hseated
      exact h.congr rfl rfl rfl (step_stance hmain.2 hbefore hafter hclient)
  · cases hstep

/-- A name that is entered leaves the game alone. -/
theorem InTouch.enter_name {env : KeyEnv} (h : InTouch s) (hstep : s.enter_name env = some s') :
    InTouch s' := by
  unfold Linked.enter_name at hstep
  split at hstep
  · obtain ⟨client, hkey, rfl⟩ := Option.map_eq_some_iff.mp hstep
    refine h.congr rfl rfl rfl ?_
    apply Client.stance_of_untouched
    apply Client.untouched_of_beyond_keys
    unfold Client.handle_main_key at hkey
    cases hkey
    split
    · exact Client.start_matching_beyond_keys.trans (Client.get_username_dialog_beyond_keys _)
    · exact Client.get_username_dialog_beyond_keys _
  · cases hstep

/-- **The step lemma.** -/
theorem InTouch.step {e : LinkedEvent} (h : InTouch s) (hok : KeepsInTouch s e)
    (hstep : linked.step s e s') : InTouch s' := by
  have hreplay := hok.replay s' hstep
  have hrun : linked_run s e = some s' := hstep
  cases e with
  | server e => exact h.serve (hok.server e rfl) hreplay hrun
  | receive env => exact h.receive hreplay hrun
  | lost =>
    cases hrun
    exact h.congr rfl rfl rfl (Client.stance_of_untouched Client.lose_connection_untouched)
  | connect fd send =>
    have hfresh := hok.connection fd send rfl
    have hconnect : s.connect fd send = some s' := hrun
    unfold Linked.connect at hconnect
    split at hconnect
    · cases hconnect
    · cases hconnect
      exact .unseated h.tidy fun i t => hfresh (.seat i t)
  | open_prompt =>
    have hopen : s.open_prompt = some s' := hrun
    unfold Linked.open_prompt at hopen
    split at hopen
    · cases hopen
      exact h.congr rfl rfl rfl rfl
    · cases hopen
  | enter_name env => exact h.enter_name hrun
  | main e => exact h.main hreplay hrun

theorem InTouch.initial : InTouch linked_init := by
  apply InTouch.unseated tidy_init
  intro i t hseat
  cases (fd_at_seat.mp hseat).1

/-- **In touch.** In every such run. -/
theorem linked_in_touch {es : List LinkedEvent}
    (hrun : RunWhere linked KeepsInTouch linked_init es s) : InTouch s := by
  apply hrun.invariant ?_ InTouch.initial
  intro s e s' h hok hstep
  exact h.step hok hstep

end steps

/-- A check for the steps that keep in touch while no replay runs. -/
def keeps_in_touch (s : Linked) (e : LinkedEvent) (s' : Linked) : Bool :=
  s'.client.replay.isNone &&
    match e with
    | .server e' => (server_run s.mgr e').all fun r => smooth s.mgr (e', r.2)
    | .connect fd _ => decide (Unplaced s.mgr fd)
    | _ => true

/-- The steps that pass the check. -/
def in_touch_run (s : Linked) (e : LinkedEvent) : Option Linked :=
  (linked_run s e).filter fun s' => keeps_in_touch s e s'

theorem in_touch_run_sound {s s' : Linked} {e : LinkedEvent} (h : in_touch_run s e = some s') :
    KeepsInTouch s e ∧ linked.step s e s' := by
  obtain ⟨hrun, hcheck⟩ := Option.filter_eq_some_iff.mp h
  unfold keeps_in_touch at hcheck
  rw [Bool.and_eq_true, Option.isNone_iff_eq_none] at hcheck
  obtain ⟨hreplay, hcheck⟩ := hcheck
  refine ⟨⟨⟨?_, ?_⟩, ?_⟩, hrun⟩
  · intro e' he r hr
    subst he
    simp only [hr, Option.all_some] at hcheck
    exact smooth_sound hcheck
  · intro fd send he
    subst he
    exact of_decide_eq_true hcheck
  · intro t ht
    have ht : linked_run s e = some t := ht
    cases hrun.symm.trans ht
    exact .inl hreplay

end MultiplayChess
