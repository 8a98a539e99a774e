import MultiplayChess.Server.Handlers
import MultiplayChess.Chess.Rules
import MultiplayChess.Framework.Loop
import MultiplayChess.Framework.System

/-! # The server as a transition system

    Every handler run, disconnect and timer tick is one step.  A step with
    an operation that has no defined result has no successor.

    `Change` says what one step can do to the tables; every invariant of
    the server is derived from it, and no later proof unfolds a handler. -/

namespace MultiplayChess

open LTS Loop

/-- What the server reacts to. -/
inductive Event where
  | message (fd : Int) (msg : ClientMessage) (env : Env)
  | disconnect (fd : Int) (env : Env)
  | tick (env : Env)

/-- One step of the server. -/
def server_step (mgr : MatchManager) : Event → Except Fault Outcome
  | .message fd msg env => handle_client_message mgr env fd (some msg)
  | .disconnect fd env => handle_client_message mgr env fd none
  | .tick env => check_game_timeouts mgr env

theorem server_step_disconnect (mgr : MatchManager) (fd : Int) (env : Env) :
    server_step mgr (.disconnect fd env) = handle_player_disconnect mgr env fd := rfl

theorem server_step_tick (mgr : MatchManager) (env : Env) :
    server_step mgr (.tick env) = check_game_timeouts mgr env := rfl

/-- The tables after a step and the sends it attempted. -/
def server_run (mgr : MatchManager) (e : Event) : Option (MatchManager × List Sent) :=
  match server_step mgr e with
  | .ok o => some (o.mgr, o.out)
  | .error _ => none

/-- The server, from `init_match_manager`. -/
def server : System MatchManager (Event × List Sent) :=
  ofStep (fun mgr => mgr = init_match_manager) server_run

/-- An environment in which every call succeeds and the clocks stand at `t`
    seconds. -/
def Env.calm (t : Int) : Env :=
  { sends := fun _ => true, time := fun _ => t, ms := fun _ => 1000 * t,
    timestamp := fun _ => some t }

/-! ## What a step can do -/

/-- The slot and the move of a request that passes all tests of
    `handle_move_message`, so that `apply_move` is performed. -/
def accepted (mgr : MatchManager) : Event → Option (Fin max_active_games × Chess.Move)
  | .message fd (.move req) _ =>
    match find_game_by_player_fd mgr fd with
    | none => none
    | some i =>
      match player_team (mgr.active_games i) fd with
      | none => none
      | some team =>
        match check_move (mgr.active_games i).game_state team req with
        | .error _ => none
        | .ok (src, dst) => some (i, ⟨src.1, src.2, dst.1, dst.2⟩)
  | _ => none

/-- The event is one with which `fd` gives up its place in the queue. -/
def Event.withdraws (fd : Int) : Event → Prop
  | .message fd' (.cancel_match _) _ => fd' = fd
  | .disconnect fd' _ => fd' = fd
  | _ => False

/-- The event is one with which `fd` gives up its game. -/
def Event.quits (fd : Int) : Event → Prop
  | .message fd' (.resign _) _ => fd' = fd
  | .disconnect fd' _ => fd' = fd
  | _ => False

/-- What a tick does to one game. -/
def Ticked (now : Int) (g g' : ActiveGame) : Prop :=
  ∃ timed timeout, check_game_timeout now g = .ok (timed, timeout) ∧
    g' = if timeout = none then timed else { timed with is_active := false }

/-- The queue entry of a player who has to wait. -/
def waiting_entry (env : Env) (fd : Int) (player_id : CString) : WaitingPlayer :=
  { fd := fd, player_id := player_id, wait_start_time := env.time 0, is_active := true }

/-- The event is a match request that is given a place: its player id is
    not empty, and there is a free slot unless nobody is waiting. -/
def TakesPlace (mgr : MatchManager) (fd : Int) : Event → Prop
  | .message fd' (.match_game player_id) _ =>
    fd' = fd ∧ player_id ≠ [] ∧
      ((∃ i, (mgr.waiting_players i).is_active = true) →
        ∃ j, (mgr.active_games j).is_active = false)
  | _ => False

/-- The team a requester is seated for: the clock draws it. -/
def requester_team (env : Env) : Team :=
  if (env.time 0).tmod 2 == 0 then .white else .black

/-- What a step can do to the tables. -/
inductive Change (mgr : MatchManager) : Event → MatchManager → Prop where
  | quiet {e : Event} : accepted mgr e = none → (∀ fd, ¬ TakesPlace mgr fd e) → Change mgr e mgr
  | enqueue {fd : Int} {player_id : CString} {env : Env} {i : Fin max_waiting_players} :
      player_id ≠ [] → (∀ k, (mgr.waiting_players k).is_active = false) →
      Change mgr (.message fd (.match_game player_id) env)
        { mgr.set_waiting i (waiting_entry env fd player_id) with
          waiting_count := mgr.waiting_count + 1 }
  | start {fd : Int} {player_id id : CString} {counter : Int} {env : Env}
      {i : Fin max_waiting_players} {j : Fin max_active_games} {game : ActiveGame} :
      player_id ≠ [] → first_waiting mgr = some i →
      (mgr.active_games j).is_active = false →
      generate_game_id (env.time 1) mgr.counter = .ok (id, counter) →
      new_game env (mgr.active_games j) (mgr.waiting_players i) fd player_id id = .ok game →
      Change mgr (.message fd (.match_game player_id) env)
        { (mgr.set_game j game).leave_queue i with
          active_game_count := mgr.active_game_count + 1
          counter := counter }
  | leave {e : Event} {fd : Int} {i : Fin max_waiting_players} :
      e.withdraws fd → (mgr.waiting_players i).is_active = true →
      (mgr.waiting_players i).fd = fd → Change mgr e (mgr.leave_queue i)
  | finish {e : Event} {fd : Int} {i : Fin max_active_games} :
      e.quits fd → find_game_by_player_fd mgr fd = some i → Change mgr e (mgr.end_game i)
  | play {fd : Int} {req : MoveRequest} {env : Env} {i : Fin max_active_games} {m : Chess.Move}
      {mgr' : MatchManager} :
      accepted mgr (.message fd (.move req) env) = some (i, m) →
      (let game := (mgr.active_games i).play (env.ms 0) m.sx m.sy m.dx m.dy
       mgr' = mgr.set_game i game ∨ mgr' = remove_game (mgr.set_game i game) game.game_id) →
      Change mgr (.message fd (.move req) env) mgr'
  | tick {env : Env} {mgr' : MatchManager} :
      (∀ i, Ticked (env.ms 0) (mgr.active_games i) (mgr'.active_games i)) →
      mgr'.waiting_players = mgr.waiting_players → mgr'.counter = mgr.counter →
      Change mgr (.tick env) mgr'

/-! ## The handlers, one by one -/

section handlers

variable {mgr mgr' : MatchManager} {env : Env} {fd : Int} {o : Outcome}

theorem find_slot_eq_some {n : Nat} {p : Fin n → Bool} {i : Fin n}
    (h : Fin.find? p = some i) : p i = true :=
  (Fin.find?_eq_some_iff.mp h).1

theorem find_slot_eq_none {n : Nat} {p : Fin n → Bool} (h : Fin.find? p = none) (i : Fin n) :
    p i = false :=
  Fin.find?_eq_none_iff.mp h i

/-- The slot a search for a free one finds is free. -/
theorem free_slot_eq_some {n : Nat} {active : Fin n → Bool} {i : Fin n}
    (h : (Fin.find? fun i => !active i) = some i) : active i = false :=
  (Bool.not_eq_true' _).mp (find_slot_eq_some h)

theorem free_slot_eq_none {n : Nat} {active : Fin n → Bool}
    (h : (Fin.find? fun i => !active i) = none) (i : Fin n) : active i = true :=
  (Bool.not_eq_false' _).mp (find_slot_eq_none h i)

/-- When nobody waits, the queue is not full. -/
theorem queue_has_room (hnone : first_waiting mgr = none) :
    (Fin.find? fun i => !(mgr.waiting_players i).is_active) ≠ none := by
  intro hfull
  have hwaits := free_slot_eq_none hfull 0
  rw [find_slot_eq_none hnone 0] at hwaits
  cases hwaits

theorem find_game_spec {i : Fin max_active_games} (h : find_game_by_player_fd mgr fd = some i) :
    (mgr.active_games i).is_active = true ∧ (mgr.active_games i).seats fd = true := by
  have := find_slot_eq_some h
  rwa [Bool.and_eq_true] at this

theorem find_game_none (h : find_game_by_player_fd mgr fd = none) {i : Fin max_active_games}
    (hactive : (mgr.active_games i).is_active = true) : (mgr.active_games i).seats fd = false := by
  have := find_slot_eq_none h i
  rwa [hactive, Bool.true_and] at this

/-- What the tests of an accepted request say. -/
theorem accepted_spec {e : Event} {i : Fin max_active_games} {m : Chess.Move}
    (h : accepted mgr e = some (i, m)) :
    ∃ fd req env team, e = .message fd (.move req) env ∧
      find_game_by_player_fd mgr fd = some i ∧
      player_team (mgr.active_games i) fd = some team ∧
      check_move (mgr.active_games i).game_state team req = .ok ((m.sx, m.sy), m.dx, m.dy) := by
  unfold accepted at h
  split at h
  · rename_i fd req env
    split at h
    · cases h
    · rename_i j hfind
      split at h
      · cases h
      · rename_i team hteam
        split at h
        · cases h
        · rename_i src dst hcheck
          cases h
          exact ⟨fd, req, env, team, rfl, hfind, hteam, hcheck⟩
  · cases h

@[simp] theorem announce_start_mgr (mgr : MatchManager) (env : Env) (fd : Int)
    (result : MatchResult) : (announce_start mgr env fd result).mgr = mgr := by
  unfold announce_start
  split
  · rfl
  · simp only [apply_ite Outcome.mgr, ite_self]

@[simp] theorem handle_chat_mgr (mgr : MatchManager) (env : Env) (fd : Int) (message : CString) :
    (handle_chat_message mgr env fd message).mgr = mgr := by
  unfold handle_chat_message
  split
  · rfl
  · simp only [apply_ite Outcome.mgr, ite_self]

/-- A copy that fits is faithful. -/
theorem strcpy_ok {size : Nat} {s t : CString} (h : strcpy size s = .ok t) : t = s := by
  unfold strcpy at h
  split at h <;> cases h
  rfl

/-- A new player starts a game, is queued or is turned away. -/
theorem add_player_change {player_id : CString} {result : MatchResult} (hid : player_id ≠ [])
    (h : add_player_to_matching mgr env fd player_id = .ok (mgr', result)) :
    Change mgr (.message fd (.match_game player_id) env) mgr' := by
  unfold add_player_to_matching at h
  split at h
  · rename_i i hi
    split at h
    · rename_i j hj
      simp only at h
      obtain ⟨⟨id, counter⟩, hgen, h⟩ := bind_eq_ok.mp h
      obtain ⟨game, hnew, h⟩ := bind_eq_ok.mp h
      cases h
      exact .start hid hi (free_slot_eq_some hj) hgen hnew
    · rename_i hfull
      cases h
      refine .quiet rfl ?_
      intro fd' ⟨_, _, hfree⟩
      obtain ⟨j, hj⟩ := hfree ⟨i, find_slot_eq_some hi⟩
      rw [free_slot_eq_none hfull j] at hj
      cases hj
  · rename_i hnone
    split at h
    · obtain ⟨copied, hcopy, h⟩ := bind_eq_ok.mp h
      cases h
      unfold strcpy at hcopy
      split at hcopy
      · cases hcopy
        exact .enqueue hid (find_slot_eq_none hnone)
      · cases hcopy
    · rename_i hfull
      exact absurd hfull (queue_has_room hnone)

theorem handle_match_game_change {player_id : CString}
    (h : handle_match_game_message mgr env fd player_id = .ok o) :
    Change mgr (.message fd (.match_game player_id) env) o.mgr := by
  unfold handle_match_game_message at h
  split at h
  · rename_i hid
    cases h
    exact .quiet rfl (fun _ htakes => htakes.2.1 hid)
  · rename_i hid
    obtain ⟨⟨mgr₁, result⟩, hadd, h⟩ := bind_eq_ok.mp h
    have hchange := add_player_change hid hadd
    simp only at h
    split at h <;> cases h
    · exact hchange
    · rw [announce_start_mgr]
      exact hchange
    · exact hchange

theorem handle_cancel_match_change {player_id : CString} :
    Change mgr (.message fd (.cancel_match player_id) env)
      (handle_cancel_match_message mgr env fd player_id).mgr := by
  unfold handle_cancel_match_message remove_player_from_matching
  split
  · exact .quiet rfl (fun _ => id)
  · simp only
    split
    · rename_i i hi
      have hfound := find_slot_eq_some hi
      rw [Bool.and_eq_true, beq_iff_eq] at hfound
      exact .leave (show (Event.message fd (.cancel_match player_id) env).withdraws fd from rfl)
        hfound.1 hfound.2
    · exact .quiet rfl (fun _ => id)

theorem handle_resign_change {player_id : CString}
    (h : handle_resign_message mgr env fd player_id = .ok o) :
    Change mgr (.message fd (.resign player_id) env) o.mgr := by
  unfold handle_resign_message at h
  split at h
  · cases h
    exact .quiet rfl (fun _ => id)
  · rename_i i hi
    simp only at h
    obtain ⟨_, _, h⟩ := bind_eq_ok.mp h
    obtain ⟨_, _, h⟩ := bind_eq_ok.mp h
    cases h
    exact .finish (show (Event.message fd (.resign player_id) env).quits fd from rfl) hi

theorem handle_player_disconnect_change (h : handle_player_disconnect mgr env fd = .ok o) :
    Change mgr (.disconnect fd env) o.mgr := by
  unfold handle_player_disconnect at h
  split at h
  · rename_i i hi
    cases h
    have hfound := find_slot_eq_some hi
    rw [Bool.and_eq_true, beq_iff_eq] at hfound
    exact .leave (show (Event.disconnect fd env).withdraws fd from rfl) hfound.1 hfound.2
  · split at h
    · rename_i i hi
      simp only at h
      obtain ⟨_, _, h⟩ := bind_eq_ok.mp h
      cases h
      exact .finish (show (Event.disconnect fd env).quits fd from rfl) hi
    · cases h
      exact .quiet rfl (fun _ => id)

@[simp] theorem announce_move_mgr (mgr : MatchManager) (env : Env) (fd : Int) (req : MoveRequest)
    (team : Team) (game : ActiveGame) :
    (announce_move mgr env fd req team game).1.mgr = mgr := by
  unfold announce_move
  simp only
  split <;> rfl

/-- A move request is rejected, or it passes the tests and is performed. -/
theorem move_in_game_cases (env : Env) (req : MoveRequest) {i : Fin max_active_games}
    (hfind : find_game_by_player_fd mgr fd = some i) :
    (accepted mgr (.message fd (.move req) env) = none ∧
        (move_in_game mgr env fd req i).1.mgr = mgr ∧
        (move_in_game mgr env fd req i).2 = false) ∨
      ∃ m : Chess.Move, accepted mgr (.message fd (.move req) env) = some (i, m) ∧
        (move_in_game mgr env fd req i).1.mgr =
          mgr.set_game i ((mgr.active_games i).play (env.ms 0) m.sx m.sy m.dx m.dy) := by
  unfold move_in_game accepted
  simp only [hfind]
  cases player_team (mgr.active_games i) fd with
  | none => exact .inl ⟨rfl, rfl, rfl⟩
  | some team =>
    simp only
    cases check_move (mgr.active_games i).game_state team req with
    | error msg => exact .inl ⟨rfl, rfl, rfl⟩
    | ok squares =>
      obtain ⟨src, dst⟩ := squares
      exact .inr ⟨⟨src.1, src.2, dst.1, dst.2⟩, rfl, announce_move_mgr ..⟩

theorem handle_move_change {req : MoveRequest} :
    Change mgr (.message fd (.move req) env) (handle_move_message mgr env fd req).mgr := by
  unfold handle_move_message
  cases hfind : find_game_by_player_fd mgr fd with
  | none =>
    have hnone : accepted mgr (.message fd (.move req) env) = none := by
      unfold accepted
      simp only [hfind]
    exact .quiet hnone (fun _ => id)
  | some i =>
    simp only
    rcases move_in_game_cases env req hfind with ⟨hnone, hsame, hrun⟩ | ⟨m,
      hacc, hplayed⟩
    · rw [hrun, if_neg Bool.false_ne_true, hsame]
      exact .quiet hnone (fun _ => id)
    · refine .play hacc ?_
      split
      · refine .inr ?_
        simp only [hplayed, MatchManager.set_game, Function.update_self]
      · exact .inl hplayed

/-- The game set up for two players: the requester sits for the team the
    clock draws, the waiting player for the other one. -/
theorem new_game_spec {old game : ActiveGame} {w : WaitingPlayer} {player_id id : CString}
    (h : new_game env old w fd player_id id = .ok game) :
    game.is_active = true ∧ game.game_state = init_startpos old.game_state ∧
      game.game_id = id ∧ game.fd_of (requester_team env) = fd ∧
      game.fd_of (requester_team env).other = w.fd ∧
      game.player_id (requester_team env) = player_id ∧
      game.player_id (requester_team env).other = w.player_id := by
  unfold new_game at h
  simp only at h
  obtain ⟨id', hid, h⟩ := bind_eq_ok.mp h
  obtain ⟨white_id, hwhite, h⟩ := bind_eq_ok.mp h
  obtain ⟨black_id, hblack, h⟩ := bind_eq_ok.mp h
  cases h
  obtain rfl := strcpy_ok hid
  obtain rfl := strcpy_ok hwhite
  obtain rfl := strcpy_ok hblack
  unfold requester_team
  by_cases hc : ((env.time 0).tmod 2 == 0) = true
  · simp [hc, ActiveGame.fd_of, ActiveGame.player_id, Team.other]
  · rw [Bool.not_eq_true] at hc
    simp [hc, ActiveGame.fd_of, ActiveGame.player_id, Team.other]

end handlers

/-! ## The tick -/

section tick

variable {env : Env} {now : Int} {st st' : MatchManager × List Sent} {i : Fin max_active_games}

theorem set_game_self (mgr : MatchManager) (i : Fin max_active_games) (g : ActiveGame) :
    (mgr.set_game i g).active_games i = g :=
  Function.update_self ..

theorem set_game_ne (mgr : MatchManager) (g : ActiveGame) {i j : Fin max_active_games}
    (h : j ≠ i) : (mgr.set_game i g).active_games j = mgr.active_games j :=
  Function.update_of_ne h ..

theorem end_game_self (mgr : MatchManager) (i : Fin max_active_games) :
    (mgr.end_game i).active_games i = { mgr.active_games i with is_active := false } :=
  Function.update_self ..

theorem end_game_ne (mgr : MatchManager) {i j : Fin max_active_games} (h : j ≠ i) :
    (mgr.end_game i).active_games j = mgr.active_games j :=
  Function.update_of_ne h ..

/-- The two ways a round of the loop ends. -/
theorem check_slot_cases (h : check_slot env now st i = .ok st') :
    ∃ game timeout, check_game_timeout now (st.1.active_games i) = .ok (game, timeout) ∧
      ((timeout = none ∧ st' = (st.1.set_game i game, st.2)) ∨
        ∃ loser, timeout = some loser ∧
          st' = ((st.1.set_game i game).end_game i,
            send_timeout_game_end_broadcast env st.2 game (game.player_id loser)
              loser.other.proto)) := by
  unfold check_slot at h
  obtain ⟨⟨game, timeout⟩, hcheck, h⟩ := bind_eq_ok.mp h
  refine ⟨game, timeout, hcheck, ?_⟩
  simp only at h
  split at h <;> cases h
  · exact .inl ⟨rfl, rfl⟩
  · exact .inr ⟨_, rfl, rfl⟩

theorem check_slot_own (h : check_slot env now st i = .ok st') :
    Ticked now (st.1.active_games i) (st'.1.active_games i) := by
  obtain ⟨game, timeout, hcheck, ⟨rfl, rfl⟩ | ⟨loser, rfl, rfl⟩⟩ := check_slot_cases h
  · exact ⟨game, none, hcheck, by rw [set_game_self, if_pos rfl]⟩
  · refine ⟨game, some loser, hcheck, ?_⟩
    rw [end_game_self, set_game_self, if_neg (Option.some_ne_none loser)]

theorem check_slot_other {j : Fin max_active_games} (h : check_slot env now st i = .ok st')
    (hj : j ≠ i) : st'.1.active_games j = st.1.active_games j := by
  obtain ⟨game, timeout, _, ⟨rfl, rfl⟩ | ⟨loser, rfl, rfl⟩⟩ := check_slot_cases h
  · exact set_game_ne _ _ hj
  · rw [end_game_ne _ hj, set_game_ne _ _ hj]

theorem check_slot_frame (h : check_slot env now st i = .ok st') :
    st'.1.waiting_players = st.1.waiting_players ∧ st'.1.counter = st.1.counter := by
  obtain ⟨game, timeout, _, ⟨rfl, rfl⟩ | ⟨loser, rfl, rfl⟩⟩ := check_slot_cases h
  · exact ⟨rfl, rfl⟩
  · exact ⟨rfl, rfl⟩

/-- The loop of `check_game_timeouts` ticks every slot and touches nothing
    else. -/
theorem check_game_timeouts_slots {mgr : MatchManager} {o : Outcome}
    (h : check_game_timeouts mgr env = .ok o) :
    (∀ i, Ticked (env.ms 0) (mgr.active_games i) (o.mgr.active_games i)) ∧
      o.mgr.waiting_players = mgr.waiting_players ∧ o.mgr.counter = mgr.counter := by
  unfold check_game_timeouts at h
  obtain ⟨⟨mgr', out⟩, hloop, h⟩ := bind_eq_ok.mp h
  cases h
  have hslots := foldlM_slots (fun st : MatchManager × List Sent => st.1.active_games)
    (R := fun _ g g' => Ticked (env.ms 0) g g') (fun _ _ _ => check_slot_own)
    (fun _ _ _ _ => check_slot_other) (List.nodup_finRange _) hloop
  have hframe := foldlM_invariant (P := fun st : MatchManager × List Sent =>
      st.1.waiting_players = mgr.waiting_players ∧ st.1.counter = mgr.counter)
    (fun s i s' hs hstep => by
      obtain ⟨hw, hc⟩ := check_slot_frame hstep
      exact ⟨hw.trans hs.1, hc.trans hs.2⟩) ⟨rfl, rfl⟩ hloop
  exact ⟨fun i => hslots.1 i (List.mem_finRange i), hframe⟩

end tick

/-! ## Every step -/

/-- The error response changes no table. -/
@[simp] theorem report_error_mgr (env : Env) (fd : Int) (o : Outcome) :
    (report_error env fd o).mgr = o.mgr := by
  unfold report_error
  split <;> rfl

theorem dispatch_change {mgr : MatchManager} {env : Env} {fd : Int} {msg : ClientMessage}
    {o : Outcome} (h : dispatch_client_message mgr env fd msg = .ok o) :
    Change mgr (.message fd msg env) o.mgr := by
  cases msg with
  | match_game player_id => exact handle_match_game_change h
  | resign player_id => exact handle_resign_change h
  | cancel_match player_id =>
    cases h
    exact handle_cancel_match_change
  | move req =>
    cases h
    exact handle_move_change
  | chat message =>
    cases h
    rw [handle_chat_mgr]
    exact .quiet rfl (fun _ => id)
  | ping message => cases h; exact .quiet rfl (fun _ => id)
  | echo message => cases h; exact .quiet rfl (fun _ => id)
  | unknown => cases h; exact .quiet rfl (fun _ => id)

/-- A step is a handler run without a fault. -/
theorem server_step_ok {mgr mgr' : MatchManager} {e : Event} {out : List Sent}
    (h : server.step mgr (e, out) mgr') :
    ∃ o, server_step mgr e = .ok o ∧ o.mgr = mgr' ∧ o.out = out := by
  have hrun : server_run mgr e = some (mgr', out) := h
  unfold server_run at hrun
  split at hrun
  · rename_i o ho
    cases hrun
    exact ⟨o, ho, rfl, rfl⟩
  · cases hrun

/-- The run of a message handler behind a step. -/
theorem message_step_ok {mgr mgr' : MatchManager} {fd : Int} {msg : ClientMessage} {env : Env}
    {out : List Sent} (h : server.step mgr (.message fd msg env, out) mgr') :
    ∃ o, dispatch_client_message mgr env fd msg = .ok o ∧ o.mgr = mgr' ∧
      (report_error env fd o).out = out := by
  obtain ⟨o, ho, hmgr, hout⟩ := server_step_ok h
  have hmsg : (dispatch_client_message mgr env fd msg).map (report_error env fd) = .ok o := ho
  cases hd : dispatch_client_message mgr env fd msg with
  | error f =>
    rw [hd] at hmsg
    cases hmsg
  | ok o₁ =>
    rw [hd] at hmsg
    cases hmsg
    rw [report_error_mgr] at hmgr
    exact ⟨o₁, rfl, hmgr, hout⟩

theorem disconnect_step_ok {mgr mgr' : MatchManager} {fd : Int} {env : Env} {out : List Sent}
    (h : server.step mgr (.disconnect fd env, out) mgr') :
    ∃ o, handle_player_disconnect mgr env fd = .ok o ∧ o.mgr = mgr' ∧ o.out = out := by
  obtain ⟨o, ho, hmgr, hout⟩ := server_step_ok h
  rw [server_step_disconnect] at ho
  exact ⟨o, ho, hmgr, hout⟩

theorem tick_step_ok {mgr mgr' : MatchManager} {env : Env} {out : List Sent}
    (h : server.step mgr (.tick env, out) mgr') :
    ∃ o, check_game_timeouts mgr env = .ok o ∧ o.mgr = mgr' ∧ o.out = out := by
  obtain ⟨o, ho, hmgr, hout⟩ := server_step_ok h
  rw [server_step_tick] at ho
  exact ⟨o, ho, hmgr, hout⟩

/-- **What a step can do.** -/
theorem step_change {mgr mgr' : MatchManager} {e : Event} {out : List Sent}
    (h : server.step mgr (e, out) mgr') : Change mgr e mgr' := by
  cases e with
  | message fd msg env =>
    obtain ⟨o, ho, rfl, _⟩ := message_step_ok h
    exact dispatch_change ho
  | disconnect fd env =>
    obtain ⟨o, ho, rfl, _⟩ := disconnect_step_ok h
    exact handle_player_disconnect_change ho
  | tick env =>
    obtain ⟨o, ho, rfl, _⟩ := tick_step_ok h
    obtain ⟨hslots, hwaiting, hcounter⟩ := check_game_timeouts_slots ho
    exact .tick hslots hwaiting hcounter

theorem tick_step_slots {mgr mgr' : MatchManager} {env : Env} {out : List Sent}
    (h : server.step mgr (.tick env, out) mgr') (i : Fin max_active_games) :
    Ticked (env.ms 0) (mgr.active_games i) (mgr'.active_games i) := by
  obtain ⟨o, ho, rfl, _⟩ := tick_step_ok h
  exact (check_game_timeouts_slots ho).1 i

/-! ## Slot by slot -/

/-- What a step can do to the game in one slot. -/
inductive SlotChange (mgr : MatchManager) (e : Event) (i : Fin max_active_games)
    (g g' : ActiveGame) : Prop where
  | kept : (∀ m, accepted mgr e ≠ some (i, m)) → g' = g ∨ g' = { g with is_active := false } →
      SlotChange mgr e i g g'
  | ticked {env : Env} : e = .tick env → Ticked (env.ms 0) g g' → SlotChange mgr e i g g'
  | started {fd : Int} {player_id id : CString} {counter : Int} {env : Env}
      {w : Fin max_waiting_players} : e = .message fd (.match_game player_id) env →
      player_id ≠ [] → (mgr.waiting_players w).is_active = true → g.is_active = false →
      generate_game_id (env.time 1) mgr.counter = .ok (id, counter) →
      new_game env g (mgr.waiting_players w) fd player_id id = .ok g' → SlotChange mgr e i g g'
  | played {fd : Int} {req : MoveRequest} {env : Env} {m : Chess.Move} :
      e = .message fd (.move req) env → accepted mgr e = some (i, m) →
      (let game := g.play (env.ms 0) m.sx m.sy m.dx m.dy
       g' = game ∨ g' = { game with is_active := false }) → SlotChange mgr e i g g'

/-- A game that is still in the table was not ended by the step. -/
theorem not_ended {g g' : ActiveGame} (h : g' = g ∨ g' = { g with is_active := false })
    (hactive : g'.is_active = true) : g' = g := by
  rcases h with h | h
  · exact h
  · rw [h] at hactive
    cases hactive

/-- `remove_game` ends at most one game. -/
theorem remove_game_slot (mgr : MatchManager) (id : CString) (i : Fin max_active_games) :
    (remove_game mgr id).active_games i = mgr.active_games i ∨
      (remove_game mgr id).active_games i = { mgr.active_games i with is_active := false } := by
  unfold remove_game
  split
  · rename_i j _
    by_cases hij : i = j
    · subst hij
      exact .inr (end_game_self mgr i)
    · exact .inl (end_game_ne mgr hij)
  · exact .inl rfl

theorem Event.withdraws.not_accepted {mgr : MatchManager} {e : Event} {fd : Int}
    (h : e.withdraws fd) : accepted mgr e = none := by
  cases e with
  | message fd' msg env => cases msg <;> first | rfl | exact absurd h id
  | disconnect fd' env => rfl
  | tick env => rfl

theorem Event.quits.not_accepted {mgr : MatchManager} {e : Event} {fd : Int}
    (h : e.quits fd) : accepted mgr e = none := by
  cases e with
  | message fd' msg env => cases msg <;> first | rfl | exact absurd h id
  | disconnect fd' env => rfl
  | tick env => rfl

/-- **What a step can do to a slot.** -/
theorem Change.slot {mgr mgr' : MatchManager} {e : Event} (h : Change mgr e mgr')
    (i : Fin max_active_games) :
    SlotChange mgr e i (mgr.active_games i) (mgr'.active_games i) := by
  cases h with
  | quiet hnone _ => exact .kept (fun m hm => nomatch hnone.symm.trans hm) (.inl rfl)
  | enqueue _ _ => exact .kept (fun m hm => nomatch hm) (.inl rfl)
  | leave hw _ _ => exact .kept (fun m hm => nomatch hw.not_accepted.symm.trans hm) (.inl rfl)
  | @start fd player_id id counter env w j game hid hw hfree hgen hnew =>
    by_cases hij : i = j
    · subst hij
      -- the slot that was free holds the new game
      have hgame : ((mgr.set_game i game).leave_queue w).active_games i = game :=
        set_game_self mgr i game
      refine .started rfl hid (find_slot_eq_some hw) hfree hgen ?_
      rw [hgame]
      exact hnew
    · exact .kept (fun m hm => nomatch hm) (.inl (set_game_ne mgr game hij))
  | @finish _ _ j hq _ =>
    refine .kept (fun m hm => nomatch hq.not_accepted.symm.trans hm) ?_
    by_cases hij : i = j
    · subst hij
      exact .inr (end_game_self mgr i)
    · exact .inl (end_game_ne mgr hij)
  | @play fd req env j m _ hacc hmgr =>
    by_cases hij : i = j
    · subst hij
      refine .played rfl hacc ?_
      rcases hmgr with rfl | rfl
      · exact .inl (set_game_self mgr i _)
      · -- the move has ended the game
        have hslot := remove_game_slot (mgr.set_game i ((mgr.active_games i).play (env.ms 0)
          m.sx m.sy m.dx m.dy)) ((mgr.active_games i).play (env.ms 0) m.sx m.sy m.dx m.dy).game_id i
        rwa [set_game_self] at hslot
    · refine .kept ?_ ?_
      · intro m' hm
        rw [hacc, Option.some.injEq, Prod.mk.injEq] at hm
        exact hij hm.1.symm
      · rcases hmgr with rfl | rfl
        · exact .inl (set_game_ne mgr _ hij)
        · have hslot := remove_game_slot (mgr.set_game j ((mgr.active_games j).play (env.ms 0)
            m.sx m.sy m.dx m.dy))
            ((mgr.active_games j).play (env.ms 0) m.sx m.sy m.dx m.dy).game_id i
          rwa [set_game_ne mgr _ hij] at hslot
  | tick hslots _ _ => exact .ticked rfl (hslots i)

/-- A tick changes clocks and may end the game, nothing else. -/
theorem check_game_timeout_frame {now : Int} {g g' : ActiveGame} {timeout : Option Team}
    (h : check_game_timeout now g = .ok (g', timeout)) :
    g' = { g with
      white_time_remaining := g'.white_time_remaining
      black_time_remaining := g'.black_time_remaining
      last_timer_check_ms := g'.last_timer_check_ms } := by
  unfold check_game_timeout at h
  split at h
  · cases h
    rfl
  · obtain ⟨since, _, h⟩ := bind_eq_ok.mp h
    split at h
    · cases h
      rfl
    · split at h
      · obtain ⟨_, _, h⟩ := bind_eq_ok.mp h
        cases h
        rfl
      · obtain ⟨_, _, h⟩ := bind_eq_ok.mp h
        cases h
        rfl

/-- What a tick does not touch. -/
theorem Ticked.frame {now : Int} {g g' : ActiveGame} (h : Ticked now g g') :
    g'.game_state = g.game_state ∧ (∀ t, g'.fd_of t = g.fd_of t) ∧ g'.game_id = g.game_id ∧
      (∀ t, g'.player_id t = g.player_id t) ∧ (g'.is_active = true → g.is_active = true) := by
  obtain ⟨timed, timeout, hcheck, rfl⟩ := h
  have hframe := check_game_timeout_frame hcheck
  rw [hframe]
  split
  · refine ⟨rfl, ?_, rfl, ?_, id⟩
    · intro t
      cases t <;> rfl
    · intro t
      cases t <;> rfl
  · refine ⟨rfl, ?_, rfl, ?_, fun h => nomatch h⟩
    · intro t
      cases t <;> rfl
    · intro t
      cases t <;> rfl

/-- A slot comes into use only by a match request that starts a game in it. -/
theorem SlotChange.starts {mgr : MatchManager} {e : Event} {i : Fin max_active_games}
    {g g' : ActiveGame} (h : SlotChange mgr e i g g') (hfree : g.is_active = false)
    (hactive : g'.is_active = true) :
    ∃ fd player_id env id w, e = .message fd (.match_game player_id) env ∧
      new_game env g (mgr.waiting_players w) fd player_id id = .ok g' := by
  cases h with
  | kept _ hg =>
    rw [not_ended hg hactive, hfree] at hactive
    cases hactive
  | ticked _ hticked =>
    have := hticked.frame.2.2.2.2 hactive
    rw [hfree] at this
    cases this
  | started he _ _ _ _ hnew => exact ⟨_, _, _, _, _, he, hnew⟩
  | played _ _ hg =>
    -- a move is played in an active game only
    have hsame : g'.is_active = g.is_active := by
      rw [not_ended hg hactive]
      rfl
    rw [hsame, hfree] at hactive
    cases hactive

/-! ## Lists of events -/

/-- One event on the tables. -/
def handle_event (mgr : MatchManager) (e : Event) : Except Fault MatchManager :=
  (server_step mgr e).map Outcome.mgr

/-- The server on a list of events, up to the first operation without a
    defined result. -/
def serve (es : List Event) : Except Fault MatchManager :=
  es.foldlM handle_event init_match_manager

/-- At every event of the list the server comes to, `P` holds. -/
def Served (P : MatchManager → Event → Prop) (es : List Event) : Prop :=
  Throughout handle_event P init_match_manager es

/-- An event that is handled is a step of the server. -/
theorem handle_event_ok {mgr mgr' : MatchManager} {e : Event}
    (h : handle_event mgr e = .ok mgr') :
    ∃ o, server_step mgr e = .ok o ∧ o.mgr = mgr' ∧ server.step mgr (e, o.out) mgr' := by
  obtain ⟨o, ho, rfl⟩ := map_eq_ok.mp h
  have hrun : server_run mgr e = some (o.mgr, o.out) := by
    unfold server_run
    rw [ho]
  exact ⟨o, ho, rfl, hrun⟩

end MultiplayChess
