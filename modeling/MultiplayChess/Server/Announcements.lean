import MultiplayChess.Server.Clock
import MultiplayChess.Server.Deliveries
import MultiplayChess.Server.GameIds
import Mathlib.Data.List.Perm.Basic

/-! # Announcements of the end of a game

    A `MoveBroadcast` with `game_ends`, a `ResignBroadcast` and a
    `GameEndBroadcast` tell a client that its game is over and who won.
    The handlers other than the move handler send them only for games that
    they end in the same step, and with one winner for each game. -/

namespace MultiplayChess

open LTS Loop

/-- The game and the winner a message announces, if it ends a game. -/
def terminal : ServerMessage → Option (CString × ProtoTeam)
  | .move_broadcast b => if b.game_ends then some (b.game_id, b.winner_team) else none
  | .game_end b => some (b.game_id, b.winner_team)
  | .resign_broadcast b => some (b.game_id, b.winner_team)
  | _ => none

/-- What a message announces about the end of the game `id`: to whom, and
    who won. -/
def announcement (id : CString) (s : Sent) : Option (Int × ProtoTeam) :=
  match terminal s.msg with
  | some (id', winner) => if id' = id then some (s.fd, winner) else none
  | none => none

/-- The announcements of the end of the game `id`. -/
def announced (id : CString) (out : List Sent) : List (Int × ProtoTeam) :=
  out.filterMap (announcement id)

/-- One announcement to each of the two seats. -/
def ActiveGame.ending (g : ActiveGame) (winner : ProtoTeam) : List (Int × ProtoTeam) :=
  [(g.white_player_fd, winner), (g.black_player_fd, winner)]

/-- None of the messages ends a game. -/
abbrev Silent (out : List Sent) : Prop :=
  Only (fun msg => terminal msg = none) out

/-- The messages announce only games that ended between `mgr` and `mgr'`,
    each at most once to each seat and with one winner. -/
def AnnouncesEnds (mgr mgr' : MatchManager) (out : List Sent) : Prop :=
  ∀ id, announced id out = [] ∨ ∃ i winner, (mgr.active_games i).is_active = true ∧
    (mgr.active_games i).game_id = id ∧ (mgr'.active_games i).is_active = false ∧
    (announced id out).Subperm ((mgr.active_games i).ending winner)

@[simp] theorem announced_append (id : CString) (out out' : List Sent) :
    announced id (out ++ out') = announced id out ++ announced id out' :=
  List.filterMap_append

/-- One more message. -/
@[simp] theorem announced_send (id : CString) (env : Env) (out : List Sent) (fd : Int)
    (msg : ServerMessage) :
    announced id (send_server_message env out fd msg).1 =
      announced id out ++ announced id [⟨fd, msg, env.sends out.length⟩] :=
  announced_append ..

theorem announced_terminal {id id' : CString} {winner : ProtoTeam} {fd : Int}
    {msg : ServerMessage} {ok : Bool} (h : terminal msg = some (id', winner)) :
    announced id [⟨fd, msg, ok⟩] = if id' = id then [(fd, winner)] else [] := by
  unfold announced announcement
  by_cases hid : id' = id
  · simp [h, hid]
  · simp [h, hid]

@[simp] theorem announced_resign_broadcast (id : CString) (fd : Int) (b : ResignBroadcast)
    (ok : Bool) : announced id [⟨fd, .resign_broadcast b, ok⟩] =
      if b.game_id = id then [(fd, b.winner_team)] else [] :=
  announced_terminal rfl

@[simp] theorem announced_game_end (id : CString) (fd : Int) (b : GameEndBroadcast)
    (ok : Bool) : announced id [⟨fd, .game_end b, ok⟩] =
      if b.game_id = id then [(fd, b.winner_team)] else [] :=
  announced_terminal rfl

theorem Silent.announced_eq {out : List Sent} (h : Silent out) (id : CString) :
    announced id out = [] := by
  apply List.filterMap_eq_nil_iff.mpr
  intro s hs
  unfold announcement
  rw [h s hs]

theorem Silent.announces {mgr mgr' : MatchManager} {out : List Sent} (h : Silent out) :
    AnnouncesEnds mgr mgr' out :=
  fun id => .inl (h.announced_eq id)

/-- The error response of `handle_client_message` ends no game. -/
@[simp] theorem announced_report_error (id : CString) (env : Env) (fd : Int) (o : Outcome) :
    announced id (report_error env fd o).out = announced id o.out := by
  unfold report_error send_error_response
  split
  · rfl
  · rw [announced_send]
    exact List.append_nil _

theorem AnnouncesEnds.report_error {mgr : MatchManager} {env : Env} {fd : Int} {o : Outcome}
    (h : AnnouncesEnds mgr o.mgr o.out) : AnnouncesEnds mgr o.mgr (report_error env fd o).out := by
  intro id
  rw [announced_report_error]
  exact h id

/-! ## Handler by handler -/

section handlers

variable {mgr : MatchManager} {env : Env} {fd : Int} {o : Outcome}

/-- The seats of a game, seen from one of them. -/
theorem subperm_ending {g : ActiveGame} {fd : Int} (hseats : g.seats fd = true)
    (winner : ProtoTeam) :
    [(fd, winner), (if g.white_player_fd == fd then g.black_player_fd else g.white_player_fd,
      winner)].Subperm (g.ending winner) := by
  unfold ActiveGame.ending
  by_cases hwhite : g.white_player_fd = fd
  · rw [if_pos (beq_iff_eq.mpr hwhite), hwhite]
  · have hblack : g.black_player_fd = fd := by
      unfold ActiveGame.seats at hseats
      rw [Bool.or_eq_true, beq_iff_eq, beq_iff_eq] at hseats
      exact hseats.resolve_left hwhite
    rw [if_neg (by rwa [beq_iff_eq]), hblack]
    exact (List.Perm.swap ..).subperm

/-- Resigning announces the opponent as winner of the game it ends. -/
theorem handle_resign_announces {player_id : CString}
    (h : handle_resign_message mgr env fd player_id = .ok o) : AnnouncesEnds mgr o.mgr o.out := by
  unfold handle_resign_message at h
  split at h
  · cases h
    exact Silent.announces (Only.nil.send rfl)
  · rename_i i hi
    simp only at h
    obtain ⟨game_id, hid, h⟩ := bind_eq_ok.mp h
    obtain ⟨_, _, h⟩ := bind_eq_ok.mp h
    cases h
    obtain rfl := strcpy_ok hid
    obtain ⟨hactive, hseats⟩ := find_game_spec hi
    intro id
    by_cases hid : (mgr.active_games i).game_id = id
    · refine .inr ⟨i, if (mgr.active_games i).white_player_fd == fd then .black else .white,
        hactive, hid, ?_, ?_⟩
      · rw [end_game_self]
      · apply List.Subperm.trans ?_ (subperm_ending hseats _)
        -- the response ends no game, the broadcasts do
        simp only [apply_ite (announced id), announced_send, announced_resign_broadcast, hid,
          if_true]
        generalize (if (mgr.active_games i).white_player_fd == fd
          then (mgr.active_games i).black_player_fd
          else (mgr.active_games i).white_player_fd) = opponent_fd
        split
        · exact List.Subperm.refl _
        · exact (List.sublist_append_left [_] [_]).subperm
    · refine .inl ?_
      simp only [apply_ite (announced id), announced_send, announced_resign_broadcast, hid,
        if_false]
      exact ite_self _

/-- A disconnect announces the opponent as winner of the game it ends. -/
theorem handle_player_disconnect_announces (h : handle_player_disconnect mgr env fd = .ok o) :
    AnnouncesEnds mgr o.mgr o.out := by
  unfold handle_player_disconnect at h
  split at h
  · cases h
    exact Silent.announces Only.nil
  · split at h
    · rename_i i hi
      simp only at h
      obtain ⟨_, _, h⟩ := bind_eq_ok.mp h
      cases h
      obtain ⟨hactive, hseats⟩ := find_game_spec hi
      intro id
      simp only [announced_send, announced_game_end]
      by_cases hid : (mgr.active_games i).game_id = id
      · refine .inr ⟨i, if (mgr.active_games i).white_player_fd == fd then .black else .white,
          hactive, hid, ?_, List.Subperm.trans ?_ (subperm_ending hseats _)⟩
        · rw [end_game_self]
        · rw [if_pos hid]
          exact (List.sublist_cons_self _ [_]).subperm
      · refine .inl ?_
        rw [if_neg hid]
        rfl
    · cases h
      exact Silent.announces Only.nil

end handlers

/-! ## The tick -/

section tick

variable {mgr : MatchManager} {env : Env} {o : Outcome}

/-- The messages of a timeout. -/
theorem announced_timeout (id : CString) (env : Env) (out : List Sent) (game : ActiveGame)
    (player_id : CString) (winner : ProtoTeam) :
    announced id (send_timeout_game_end_broadcast env out game player_id winner) =
      announced id out ++ if game.game_id = id then game.ending winner else [] := by
  unfold send_timeout_game_end_broadcast
  simp only [announced_send, announced_game_end, List.append_assoc]
  split <;> rfl

/-- What the rounds of the games in `done` have announced under an id is the
    end of one of these games. -/
def RoundsAnnounce (mgr : MatchManager) (done : List (Fin max_active_games))
    (st : MatchManager × List Sent) (id : CString) : Prop :=
  announced id st.2 = [] ∨ ∃ i ∈ done, ∃ winner,
    (mgr.active_games i).is_active = true ∧ (mgr.active_games i).game_id = id ∧
    (st.1.active_games i).is_active = false ∧
    (announced id st.2).Subperm ((mgr.active_games i).ending winner)

section round

variable {now : Int} {done : List (Fin max_active_games)} {i : Fin max_active_games}
  {st st' : MatchManager × List Sent} {id : CString}

/-- A round that announces nothing under the id. -/
theorem RoundsAnnounce.keep (h : RoundsAnnounce mgr done st id) (hi : i ∉ done)
    (hround : check_slot env now st i = .ok st') (hsame : announced id st'.2 = announced id st.2) :
    RoundsAnnounce mgr (done ++ [i]) st' id := by
  unfold RoundsAnnounce
  rw [hsame]
  rcases h with hnone | ⟨k, hk, winner, hactive, hid, hended, hsub⟩
  · exact .inl hnone
  · have hki : k ≠ i := by
      intro hki
      rw [hki] at hk
      exact hi hk
    refine .inr ⟨k, List.mem_append_left _ hk, winner, hactive, hid, ?_, hsub⟩
    rw [check_slot_other hround hki]
    exact hended

/-- Games have different ids, so the id of a game still to be visited has
    not been announced. -/
theorem RoundsAnnounce.unannounced (h : RoundsAnnounce mgr done st id) (hids : IdsOk mgr)
    (hi : i ∉ done) (hactive : (mgr.active_games i).is_active = true)
    (hid : (mgr.active_games i).game_id = id) : announced id st.2 = [] := by
  rcases h with hnone | ⟨k, hk, _, hactive', hid', _, _⟩
  · exact hnone
  · have hki := hids.distinct k i hactive' hactive (hid'.trans hid.symm)
    rw [hki] at hk
    exact absurd hk hi

/-- **One round.** -/
theorem RoundsAnnounce.round (h : RoundsAnnounce mgr done st id) (hids : IdsOk mgr) (hi : i ∉ done)
    (hsame : st.1.active_games i = mgr.active_games i)
    (hround : check_slot env now st i = .ok st') : RoundsAnnounce mgr (done ++ [i]) st' id := by
  obtain ⟨game, timeout, hcheck, ⟨rfl, rfl⟩ | ⟨loser, rfl, rfl⟩⟩ := check_slot_cases hround
  · exact h.keep hi hround rfl
  · rw [hsame] at hcheck
    obtain ⟨hactive, _, _⟩ := check_game_timeout_loser hcheck
    have hframe := check_game_timeout_frame hcheck
    have hgame : game.game_id = (mgr.active_games i).game_id := by rw [hframe]
    by_cases hid : (mgr.active_games i).game_id = id
    · refine .inr ⟨i, List.mem_append_right _ (List.mem_singleton_self i), loser.other.proto,
        hactive, hid, ?_, ?_⟩
      · rw [end_game_self]
      · rw [announced_timeout, h.unannounced hids hi hactive hid, if_pos (hgame.trans hid), hframe]
        exact List.Subperm.refl _
    · apply h.keep hi hround
      rw [announced_timeout, if_neg (by rwa [hgame]), List.append_nil]

end round

/-- A tick announces the games it ends, with the side not to move as
    winner. -/
theorem check_game_timeouts_announces (hids : IdsOk mgr)
    (h : check_game_timeouts mgr env = .ok o) : AnnouncesEnds mgr o.mgr o.out := by
  unfold check_game_timeouts at h
  obtain ⟨⟨mgr', out⟩, hloop, h⟩ := bind_eq_ok.mp h
  cases h
  have hdone := foldlM_visit (fun st : MatchManager × List Sent => st.1.active_games)
    (fun _ _ _ _ => check_slot_other) (List.nodup_finRange max_active_games)
    (P := fun done st => ∀ id, RoundsAnnounce mgr done st id) ?_ ?_ hloop
  · intro id
    rcases hdone id with hnone | ⟨i, _, winner, hi⟩
    · exact .inl hnone
    · exact .inr ⟨i, winner, hi⟩
  · intro done i st st' hi hsame hsent hround id
    exact (hsent id).round hids hi hsame hround
  · intro id
    exact .inl rfl

end tick

/-! ## Every step but a move -/

/-- **Announcements.** A step that is not a move request announces only
    games it ends, each once and with one winner. -/
theorem step_announces {mgr mgr' : MatchManager} {e : Event} {out : List Sent}
    (hids : IdsOk mgr) (h : server.step mgr (e, out) mgr')
    (hmove : ∀ fd req env, e ≠ .message fd (.move req) env) : AnnouncesEnds mgr mgr' out := by
  cases e with
  | disconnect fd env =>
    obtain ⟨o, ho, rfl, rfl⟩ := disconnect_step_ok h
    exact handle_player_disconnect_announces ho
  | tick env =>
    obtain ⟨o, ho, rfl, rfl⟩ := tick_step_ok h
    exact check_game_timeouts_announces hids ho
  | message fd msg env =>
    obtain ⟨o, ho, rfl, rfl⟩ := message_step_ok h
    apply AnnouncesEnds.report_error
    cases msg with
    | move req => exact absurd rfl (hmove fd req env)
    | resign player_id => exact handle_resign_announces ho
    | match_game player_id =>
      exact Silent.announces (handle_match_game_only (fun _ => rfl) (fun _ => rfl) ho)
    | cancel_match player_id =>
      cases ho
      exact Silent.announces (handle_cancel_match_only (fun _ => rfl) (fun _ => rfl))
    | chat message =>
      cases ho
      exact Silent.announces (handle_chat_only fun _ => rfl)
    | ping message =>
      cases ho
      exact Silent.announces (Only.nil.send rfl)
    | echo message =>
      cases ho
      exact Silent.announces (Only.nil.send rfl)
    | unknown =>
      cases ho
      exact Silent.announces (Only.nil.send rfl)

end MultiplayChess
