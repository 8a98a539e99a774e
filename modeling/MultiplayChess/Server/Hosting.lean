import MultiplayChess.Server.Club

/-! # How the handlers are matched

    Handler by handler, what a run of it does to the tables and tells the
    players is matched by the club: most handler runs by one step, many by
    none, a tick by one flag fall for each game it ends. -/

namespace MultiplayChess

open LTS Loop
open Chess (Club Decides Ending Guest InCheck Legal Move Notice Plays Position PseudoLegal Table
  quiet_after)

/-! ## Who sits where -/

/-- The side the handlers take a player of the game for. -/
def ActiveGame.side (g : ActiveGame) (fd : Int) : Team :=
  if g.white_player_fd == fd then .white else .black

section side

variable {g : ActiveGame} {fd : Int}

theorem fd_of_side (h : g.seats fd = true) : g.fd_of (g.side fd) = fd := by
  unfold ActiveGame.side
  by_cases hwhite : (g.white_player_fd == fd) = true
  · rw [if_pos hwhite]
    exact beq_iff_eq.mp hwhite
  · rw [if_neg hwhite]
    unfold ActiveGame.seats at h
    rw [Bool.or_eq_true] at h
    exact beq_iff_eq.mp (h.resolve_left hwhite)

theorem fd_of_other_side : g.fd_of (g.side fd).other =
    if g.white_player_fd == fd then g.black_player_fd else g.white_player_fd := by
  unfold ActiveGame.side
  split <;> rfl

theorem ActiveGame.player_id_side (g : ActiveGame) (fd : Int) : g.player_id (g.side fd) =
    if g.white_player_fd == fd then g.white_player_id else g.black_player_id := by
  unfold ActiveGame.side
  split <;> rfl

theorem other_side_team :
    (if g.white_player_fd == fd then ProtoTeam.black else .white).team =
      some (g.side fd).other := by
  unfold ActiveGame.side
  split <;> rfl

end side

section handlers

variable {mgr mgr' : MatchManager} {env : Env} {fd : Int} {o : Outcome} {out : List Sent}
  {r : Record}

/-! ## Handlers that change no table -/

/-- Pings, echoes and messages of an unknown kind. -/
theorem reply_matched {msg : ServerMessage} {ok : Bool} (h : notice_of msg = none) :
    Matched (club_of mgr r) (club_of mgr r) (notices [⟨fd, msg, ok⟩]) := by
  rw [notices_cons, h]
  exact .refl _

/-- Chat goes to both players of a table, White first. -/
theorem chat_matched (message : CString) (hsent : env.sends 0 = true) :
    Matched (club_of mgr r) (club_of mgr r)
      (notices (handle_chat_message mgr env fd message).out) := by
  unfold handle_chat_message
  split
  · exact .refl _
  · rename_i i hfind
    obtain ⟨hactive, _⟩ := find_game_spec hfind
    have hsay := Club.Step.say (c := club_of mgr r) ((mgr.active_games i).side fd) message
      (club_of_active hactive)
    simp only [← ActiveGame.player_id_side, send_server_message, List.length_nil, hsent, if_true]
    exact .one hsay

/-! ## Leaving the queue -/

theorem cancel_matched (hhost : Hosting mgr) (player_id : CString) :
    Matched (club_of mgr r) (club_of (handle_cancel_match_message mgr env fd player_id).mgr r)
      (notices (handle_cancel_match_message mgr env fd player_id).out) := by
  rw [Only.notices_eq (handle_cancel_match_only (fun _ => rfl) fun _ => rfl)]
  unfold handle_cancel_match_message remove_player_from_matching
  split
  · exact .refl _
  · cases hfind : Fin.find? fun i =>
      (mgr.waiting_players i).is_active && (mgr.waiting_players i).fd == fd with
    | none => exact .refl _
    | some w =>
      have hfound := find_slot_eq_some hfind
      rw [Bool.and_eq_true] at hfound
      have hleave := Chess.Club.Step.withdraw (club_of_waiting (r := r) hhost hfound.1)
      rw [← club_of_leave hhost hfound.1] at hleave
      exact .one hleave

/-! ## Ending games -/

/-- The seats of a game in progress are descriptors. -/
theorem Hosting.seat_descriptor (hhost : Hosting mgr) {i : Fin max_active_games}
    (hactive : (mgr.active_games i).is_active = true) (team : Team) :
    0 ≤ (mgr.active_games i).fd_of team :=
  hhost.descriptors (.seat i team) _ (fd_at_seat.mpr ⟨hactive, rfl⟩)

theorem resign_matched (hhost : Hosting mgr) {player_id : CString}
    (h : handle_resign_message mgr env fd player_id = .ok o) :
    Matched (club_of mgr r) (club_of o.mgr r) (notices o.out) := by
  unfold handle_resign_message at h
  split at h
  · cases h
    exact reply_matched rfl
  · rename_i i hfind
    obtain ⟨hactive, hseats⟩ := find_game_spec hfind
    simp only at h
    obtain ⟨game_id, _, h⟩ := bind_eq_ok.mp h
    obtain ⟨_, _, h⟩ := bind_eq_ok.mp h
    cases h
    have hopponent := hhost.seat_descriptor hactive ((mgr.active_games i).side fd).other
    rw [fd_of_other_side] at hopponent
    have hstep := Chess.Club.Step.resign (c := club_of mgr r) ((mgr.active_games i).side fd)
      (club_of_active hactive)
    rw [← club_of_end_game] at hstep
    simp only [ge_iff_le, hopponent, if_true, notices_send, notices_nil, notice_of, other_side_team]
    -- the resigning player is told first
    have htold : ((mgr.active_games i).table (r i)).tell ((mgr.active_games i).side fd)
        (.over .resigned ((mgr.active_games i).side fd).other) =
        [(fd, .over .resigned ((mgr.active_games i).side fd).other),
          (if (mgr.active_games i).white_player_fd == fd then (mgr.active_games i).black_player_fd
            else (mgr.active_games i).white_player_fd,
            .over .resigned ((mgr.active_games i).side fd).other)] := by
      show [((mgr.active_games i).fd_of _, _), ((mgr.active_games i).fd_of _, _)] = _
      rw [fd_of_side hseats, fd_of_other_side]
    rw [htold] at hstep
    exact .one hstep

/-- A connection that is gone leaves the queue, its table, or nothing. -/
theorem disconnect_matched (hhost : Hosting mgr) (h : handle_player_disconnect mgr env fd = .ok o) :
    Matched (club_of mgr r) (club_of o.mgr r) ((fd, .gone) :: notices o.out) := by
  unfold handle_player_disconnect at h
  split at h
  · rename_i w hfind
    cases h
    have hfound := find_slot_eq_some hfind
    rw [Bool.and_eq_true, beq_iff_eq] at hfound
    have hleave := Chess.Club.Step.depart_waiting (club_of_waiting (r := r) hhost hfound.1)
    rw [← club_of_leave hhost hfound.1] at hleave
    have haddress : (mgr.waiting_players w).guest.address = fd := hfound.2
    rw [haddress] at hleave
    exact .one hleave
  · rename_i hqueue
    split at h
    · rename_i i hfind
      obtain ⟨hactive, hseats⟩ := find_game_spec hfind
      simp only at h
      obtain ⟨_, _, h⟩ := bind_eq_ok.mp h
      cases h
      have hstep := Chess.Club.Step.depart_playing (c := club_of mgr r)
        ((mgr.active_games i).side fd) (club_of_active hactive)
      rw [← club_of_end_game] at hstep
      have hown : (((mgr.active_games i).table (r i)).seat
          ((mgr.active_games i).side fd)).address = fd := fd_of_side hseats
      have hother : (((mgr.active_games i).table (r i)).seat
          ((mgr.active_games i).side fd).other).address = _ := fd_of_other_side
      rw [hown, hother] at hstep
      simp only [notices_send, notices_nil, notice_of, other_side_team]
      exact .one hstep
    · -- who has no place was not in the club
      rename_i hnogame
      cases h
      have hout : Unplaced mgr fd := by
        intro p hp
        cases p with
        | waiting w =>
          obtain ⟨hactive, hfd⟩ := fd_at_waiting.mp hp
          have hmissed := find_slot_eq_none hqueue w
          simp [hactive, hfd] at hmissed
        | seat i team =>
          obtain ⟨hactive, hfd⟩ := fd_at_seat.mp hp
          have hmissed := find_game_none hnogame hactive
          rw [seats_iff.mpr ⟨team, hfd⟩] at hmissed
          cases hmissed
      exact .one (.depart_outside (club_of_absent hout))

/-! ## Flag falls -/

/-- On the tables of the club the side to move has the turn. -/
def InTurn (mgr : MatchManager) (r : Record) : Prop :=
  ∀ i, (mgr.active_games i).is_active = true →
    (positionOf (mgr.active_games i).game_state (moves_of (r i))).turn =
      (mgr.active_games i).game_state.side_to_move

/-- One round of the timer's loop: the game goes on, or a flag falls. -/
theorem check_slot_matched {now : Int} {st st' : MatchManager × List Sent}
    {i : Fin max_active_games} (hturn : InTurn st.1 r) (h : check_slot env now st i = .ok st') :
    ∃ l, Matched (club_of st.1 r) (club_of st'.1 r) l ∧ notices st'.2 = notices st.2 ++ l := by
  obtain ⟨game, timeout, hcheck, hcases⟩ := check_slot_cases h
  have hframe := check_game_timeout_frame hcheck
  -- a charged clock is no change on the table
  have hsame : club_of (st.1.set_game i game) r = club_of st.1 r := by
    rw [club_of_set_game]
    apply Club.ext
    · rw [Club.waiting_set]
    · funext k
      by_cases hk : k = i
      · subst hk
        rw [Club.set_self, club_of_tables, hframe]
        rfl
      · rw [Club.set_ne _ _ hk]
  rcases hcases with ⟨_, rfl⟩ | ⟨loser, rfl, rfl⟩
  · refine ⟨[], ?_, (List.append_nil _).symm⟩
    rw [hsame]
    exact .refl _
  · obtain ⟨hactive, hloser, _⟩ := check_game_timeout_loser hcheck
    have hstep := Chess.Club.Step.flag (c := club_of st.1 r) (club_of_active hactive)
    rw [← hsame, ← club_of_end_game] at hstep
    rw [hsame] at hstep
    refine ⟨_, .one hstep, ?_⟩
    -- the flag is that of the side to move
    have hside : ((st.1.active_games i).table (r i)).position.turn = loser :=
      (hturn i hactive).trans hloser
    unfold send_timeout_game_end_broadcast
    simp only [notices_send, notice_of, proto_team, List.append_assoc]
    rw [hside, hframe]
    rfl

/-- A tick changes neither positions nor, for the games that go on, whether
    they are in progress. -/
theorem InTurn.check_slot {now : Int} {st st' : MatchManager × List Sent}
    {i : Fin max_active_games} (hturn : InTurn st.1 r) (h : check_slot env now st i = .ok st') :
    InTurn st'.1 r := by
  intro k hk
  by_cases hki : k = i
  · subst hki
    obtain ⟨hstate, _, _, _, hwas⟩ := (check_slot_own h).frame
    rw [hstate]
    exact hturn k (hwas hk)
  · rw [check_slot_other h hki] at hk ⊢
    exact hturn k hk

/-- The rounds so far are matched. -/
structure RoundsMatched (mgr : MatchManager) (r : Record) (st : MatchManager × List Sent) :
    Prop where
  turn : InTurn st.1 r
  matched : Matched (club_of mgr r) (club_of st.1 r) (notices st.2)

theorem RoundsMatched.start (hturn : InTurn mgr r) : RoundsMatched mgr r (mgr, []) where
  turn := hturn
  matched := .refl _

theorem tick_matched (hturn : InTurn mgr r) (h : check_game_timeouts mgr env = .ok o) :
    Matched (club_of mgr r) (club_of o.mgr r) (notices o.out) := by
  unfold check_game_timeouts at h
  obtain ⟨⟨mgr', out⟩, hloop, h⟩ := bind_eq_ok.mp h
  cases h
  have hrounds : RoundsMatched mgr r (mgr', out) := by
    apply foldlM_invariant ?_ (RoundsMatched.start hturn) hloop
    intro st i st' hst hround
    obtain ⟨l, hstep, hnotices⟩ := check_slot_matched hst.turn hround
    constructor
    · exact hst.turn.check_slot hround
    · rw [hnotices]
      exact hst.matched.trans hstep
  exact hrounds.matched

/-! ## Moves -/

/-- What the broadcast of a move says of the new position. -/
theorem verdict_decides {G : Game} {h : List Move} (hrun : Run rules (init_startpos .zero) h G) :
    Decides (positionOf G h) G.halfmove_clock.toNat ((game_end G).bind ending_of) ∧
      ((game_end G).bind ending_of = none ↔ game_over G = false) := by
  have hf := Run.following hrun
  obtain ⟨n, hn, _⟩ := Run.halfmove_clock hrun
  have hmate := hf.is_checkmate_iff
  have hstale := hf.is_stalemate_iff
  have hmove := hf.sound.canMove_iff h
  unfold Chess.Checkmate at hmate
  unfold Chess.Stalemate at hstale
  rw [hmove] at hmate hstale
  have hturn := hf.tracks.turn
  cases hm : is_checkmate G with
  | true =>
    rw [game_end_checkmate hm, hturn]
    have hlost := hmate.mp hm
    unfold game_over
    rw [hm]
    refine ⟨?_, ?_⟩
    · show Decides _ _ (((positionOf G h).turn.other.proto.team).map Ending.checkmate)
      rw [proto_team]
      exact ⟨rfl, hlost⟩
    · show ((positionOf G h).turn.other.proto.team).map Ending.checkmate = none ↔ _
      rw [proto_team]
      simp
  | false =>
    cases hs : is_stalemate G with
    | true =>
      rw [game_end_stalemate hm hs]
      unfold game_over
      rw [hs]
      refine ⟨hstale.mp hs, ?_⟩
      simp [ending_of]
    | false =>
      rw [game_end_can_move hm hs]
      -- neither mated nor stalemated: there is a move
      have hcan : ∃ m, Legal (positionOf G h) m := by
        by_contra hnone
        rw [← Bool.not_eq_true, hmate] at hm
        rw [← Bool.not_eq_true, hstale] at hs
        by_cases hcheck : InCheck (positionOf G h).board (positionOf G h).turn
        · exact hm ⟨hcheck, hnone⟩
        · exact hs ⟨hcheck, hnone⟩
      unfold game_over is_fifty_move_rule
      rw [hm, hs, hn, Int.toNat_natCast]
      by_cases hfifty : (n : Int) ≥ 100
      · simp only [hfifty, decide_true, if_true]
        refine ⟨⟨hcan, by omega⟩, ?_⟩
        simp [ending_of]
      · simp only [hfifty, decide_false, Bool.false_eq_true, if_false]
        refine ⟨⟨hcan, by omega⟩, ?_⟩
        simp

/-- What the two players of a move are told. -/
theorem notice_of_move {req : MoveRequest} {m : Move} (game : ActiveGame) (player_id : CString)
    (timestamp : Option Int) (hsrc : parse_chess_coordinate req.from_coord = some (m.sx, m.sy))
    (hdst : parse_chess_coordinate req.to_coord = some (m.dx, m.dy)) :
    notice_of (.move_broadcast (move_broadcast game player_id req timestamp)) =
      some (.moved m (is_in_check game.game_state game.game_state.side_to_move)
        ((game_end game.game_state).bind ending_of)) := by
  have hfrom : (move_broadcast game player_id req timestamp).from_coord = req.from_coord := rfl
  have hto : (move_broadcast game player_id req timestamp).to_coord = req.to_coord := rfl
  have hends : (move_broadcast game player_id req timestamp).game_ends =
      (game_end game.game_state).isSome := rfl
  have hending : ((move_broadcast game player_id req timestamp).winner_team,
      (move_broadcast game player_id req timestamp).end_type) =
      (game_end game.game_state).getD (.unspecified, .unknown) := rfl
  unfold notice_of
  simp only [hfrom, hto, hsrc, hdst, hends, hending]
  cases game_end game.game_state with
  | none => rfl
  | some ending => rfl

/-- The quiet plies after an accepted move. -/
theorem quiet_after_eq {G : Game} {h : List Move} (hrun : Run rules (init_startpos .zero) h G)
    {k : PieceType} {m : Move} (hp : PseudoLegal (positionOf G h) ⟨turnAfter h.length, k⟩ m) :
    (apply_move G m.sx m.sy m.dx m.dy).halfmove_clock.toNat =
      quiet_after (positionOf G h) ⟨turnAfter h.length, k⟩ m G.halfmove_clock.toNat := by
  have hf := Run.following hrun
  obtain ⟨n, hn, _⟩ := Run.halfmove_clock hrun
  have hempty := hf.tracks.empty_iff (x := m.dx) (y := m.dy)
  rw [apply_move_clock (hf.tracks.source hp).2.2, piece_table_type, hn]
  unfold quiet_after
  have hocc : ((G.board.get m.dy m.dx).is_dead = false) ↔
      ((positionOf G h).board m.dx m.dy).isSome = true := by
    rw [← Bool.not_eq_true, ← hempty, Option.isSome_iff_ne_none]
  simp only [hocc]
  by_cases hirr : k = .pawn ∨ ((positionOf G h).board m.dx m.dy).isSome = true
  · rw [if_pos hirr, if_pos hirr]
    rfl
  · rw [if_neg hirr, if_neg hirr]
    rfl

section move

variable {req : MoveRequest} {i : Fin max_active_games} {m : Move}

/-- An accepted move may be made at its table, and the evaluation of the new
    position says of it what the rules say. -/
theorem accepted_plays (env : Env) (fd : Int) (hconducted : Conducted (mgr.active_games i) (r i))
    (hlegal : is_move_legal (mgr.active_games i).game_state m.sx m.sy m.dx m.dy = true) :
    ∃ man, Plays ((mgr.active_games i).table (r i)).position
        ((mgr.active_games i).table (r i)).quiet
        man m (is_in_check (game_after mgr env i m).game_state
          (game_after mgr env i m).game_state.side_to_move)
        ((game_end (game_after mgr env i m).game_state).bind ending_of) ∧
      (game_after mgr env i m).table (r i ++ [(fd, m)]) =
        ((mgr.active_games i).table (r i)).play man m := by
  have hrun := hconducted.run
  have hplayed : Run rules (init_startpos .zero) (moves_of (r i) ++ [m])
      (game_after mgr env i m).game_state := hrun.snoc ⟨hlegal, rfl⟩
  have hf := Run.following hrun
  have hf' := Run.following hplayed
  obtain ⟨⟨t, k⟩, hp, hsafe⟩ := (hf.legal_iff m).mp hlegal
  obtain rfl : t = turnAfter (moves_of (r i)).length := hp.own
  have hposition : positionOf (game_after mgr env i m).game_state (moves_of (r i) ++ [m]) =
      (positionOf (mgr.active_games i).game_state (moves_of (r i))).play
        ⟨turnAfter (moves_of (r i)).length, k⟩ m := hf.position_play hp
  have hquiet := quiet_after_eq hrun hp
  have hverdict := (verdict_decides hplayed).1
  have hcheck := hf'.is_in_check_iff
  have hclock : (game_after mgr env i m).game_state.halfmove_clock.toNat = _ := hquiet
  rw [hposition, hclock] at hverdict
  rw [hposition] at hcheck
  refine ⟨⟨turnAfter (moves_of (r i)).length, k⟩, ⟨hp, hsafe, hcheck, hverdict⟩, ?_⟩
  unfold ActiveGame.table Table.play
  have hmoves : moves_of (r i ++ [(fd, m)]) = moves_of (r i) ++ [m] := by
    unfold moves_of
    rw [List.map_append]
    rfl
  rw [hmoves, hposition, hclock]
  rfl

/-- The record of a table that is set does not matter. -/
theorem club_of_update_record (x : Option (Table Int CString)) (y : List (Int × Move)) :
    (club_of mgr (Function.update r i y)).set i x = (club_of mgr r).set i x := by
  apply Club.ext
  · rfl
  · funext k
    by_cases hk : k = i
    · subst hk
      rw [Club.set_self, Club.set_self]
    · rw [Club.set_ne _ _ hk, Club.set_ne _ _ hk, club_of_tables, club_of_tables,
        Function.update_of_ne hk]

/-- The handler run of an accepted move whose first send succeeds: what it
    leaves and whom it tells. -/
theorem handle_move_sent (hids : IdsOk mgr)
    (hacc : accepted mgr (.message fd (.move req) env) = some (i, m))
    (hsent : env.sends 0 = true) :
    (handle_move_message mgr env fd req).mgr =
        (if game_over (game_after mgr env i m).game_state = true then
          (mgr.set_game i (game_after mgr env i m)).end_game i
        else mgr.set_game i (game_after mgr env i m)) ∧
      notices (handle_move_message mgr env fd req).out =
        ((mgr.active_games i).table (r i)).tell (mgr.active_games i).game_state.side_to_move.other
          (.moved m (is_in_check (game_after mgr env i m).game_state
            (game_after mgr env i m).game_state.side_to_move)
            ((game_end (game_after mgr env i m).game_state).bind ending_of)) := by
  obtain ⟨_, _, _, _, he, hfind, _, hcheck⟩ := accepted_spec hacc
  cases he
  have hactive := (find_game_spec hfind).1
  obtain ⟨_, hsrc, hdst, _⟩ := check_move_ok hcheck
  obtain ⟨team, hfd, hturn, hhandler⟩ := handle_move_accepted hacc
  simp only [announce_move_sent _ _ _ _ hsent, game_end_isSome] at hhandler
  rw [hhandler]
  constructor
  · -- the ids differ, so the game that is removed is this one
    have hactive' : ((mgr.set_game i (game_after mgr env i m)).active_games i).is_active =
        true := by
      rw [set_game_self]
      exact hactive
    have hids' : IdsOk (mgr.set_game i (game_after mgr env i m)) :=
      hids.step (.play hacc (.inl rfl))
    have hremove := hids'.remove_game_eq hactive'
    rw [set_game_self] at hremove
    rw [hremove]
    split <;> rfl
  · simp only [apply_ite Outcome.out, ite_self, notices_cons, notices_nil,
      notice_of_move _ _ _ hsrc hdst]
    unfold Table.tell
    rw [Team.other_other, hturn]
    have hother : (((mgr.active_games i).table (r i)).seat team.other).address =
        (game_after mgr env i m).fd_of team.other := (game_after_fd_of _).symm
    have hown : (((mgr.active_games i).table (r i)).seat team).address = fd := hfd
    rw [hother, hown]
    rfl

/-- **An accepted move** is a move at its table. -/
theorem move_matched (hids : IdsOk mgr) (hconducted : Conducted (mgr.active_games i) (r i))
    (hacc : accepted mgr (.message fd (.move req) env) = some (i, m))
    (hsent : env.sends 0 = true) :
    Matched (club_of mgr r)
      (club_of (handle_move_message mgr env fd req).mgr
        (Function.update r i (r i ++ [(fd, m)])))
      (notices (handle_move_message mgr env fd req).out) := by
  obtain ⟨_, _, _, _, _, hfind, _, hcheck⟩ := accepted_spec hacc
  have hactive := (find_game_spec hfind).1
  have hlegal : is_move_legal (mgr.active_games i).game_state m.sx m.sy m.dx m.dy = true :=
    (check_move_ok hcheck).2.2.2
  obtain ⟨man, hplays, htable⟩ := accepted_plays env fd hconducted hlegal
  have hstep := Club.Step.move (club_of_active (r := r) hactive) hplays
  have hdecided : (game_end (game_after mgr env i m).game_state).bind ending_of = none ↔
      game_over (game_after mgr env i m).game_state = false :=
    (verdict_decides (hconducted.run.snoc ⟨hlegal, rfl⟩)).2
  have hside : ((mgr.active_games i).table (r i)).position.turn =
      (mgr.active_games i).game_state.side_to_move := by
    rw [hconducted.turn]
    show turnAfter (moves_of (r i)).length = _
    unfold moves_of
    rw [List.length_map]
  have hplayed : club_of (mgr.set_game i (game_after mgr env i m))
      (Function.update r i (r i ++ [(fd, m)])) =
      (club_of mgr r).set i (some (((mgr.active_games i).table (r i)).play man m)) := by
    have hstill : (game_after mgr env i m).is_active = true := hactive
    rw [club_of_set_game, club_of_update_record, Function.update_self, htable, if_pos hstill]
  obtain ⟨hmgr, hout⟩ := handle_move_sent (r := r) hids hacc hsent
  rw [hmgr, hout, ← hside]
  by_cases hover : game_over (game_after mgr env i m).game_state = true
  · -- the game is over and its table free
    have hsome : (game_end (game_after mgr env i m).game_state).bind ending_of ≠ none := by
      intro hnone
      rw [hdecided.mp hnone] at hover
      cases hover
    rw [if_neg hsome] at hstep
    rw [if_pos hover, club_of_end_game, hplayed, Club.set_set]
    exact .one hstep
  · rw [if_pos (hdecided.mpr (Bool.not_eq_true _ ▸ hover))] at hstep
    rw [if_neg hover, hplayed]
    exact .one hstep

end move

/-! ## Match requests -/

section request

variable {player_id id : CString} {w : Fin max_waiting_players} {j : Fin max_active_games}
  {game : ActiveGame} {counter : Int}

/-- The table of a new game. -/
theorem new_game_table (hnew : new_game env (mgr.active_games j) (mgr.waiting_players w) fd
    player_id id = .ok game) :
    game.table [] =
      .fresh ⟨fd, player_id⟩ (mgr.waiting_players w).guest (requester_team env) := by
  obtain ⟨_, hposition, _, hown, hother, hown_name, hother_name⟩ := new_game_spec hnew
  unfold ActiveGame.table Table.fresh
  rw [hposition]
  have hseats : game.guest = fun t =>
      if t = requester_team env then ⟨fd, player_id⟩ else (mgr.waiting_players w).guest := by
    funext t
    by_cases ht : t = requester_team env
    · rw [if_pos ht, ht]
      unfold ActiveGame.guest
      rw [hown, hown_name]
    · rw [if_neg ht, Team.eq_other_of_ne ht]
      unfold ActiveGame.guest WaitingPlayer.guest
      rw [hother, hother_name]
  have hstart : positionOf (init_startpos (mgr.active_games j).game_state) (moves_of []) =
      Chess.start := by
    unfold positionOf
    rw [start_placement]
    rfl
  rw [hseats, hstart]
  rfl

/-- Who had no place is found at the new game. -/
theorem seated_find_eq (hunplaced : Unplaced mgr fd)
    (hnew : new_game env (mgr.active_games j) (mgr.waiting_players w) fd player_id id = .ok game) :
    find_game_by_player_fd (mgr.seated w j game counter) fd = some j := by
  obtain ⟨i, hfind⟩ : ∃ i, find_game_by_player_fd (mgr.seated w j game counter) fd = some i :=
    seated_find hnew
  obtain ⟨hactive, hseats⟩ := find_game_spec hfind
  by_cases hij : i = j
  · rw [hfind, hij]
  · rw [seated_other hij] at hactive hseats
    obtain ⟨team, hteam⟩ := seats_iff.mp hseats
    exact absurd (fd_at_seat.mpr ⟨hactive, hteam⟩) (hunplaced (.seat i team))

/-- The start is told to the requester and to the one who waited. -/
theorem start_notices (hunplaced : Unplaced mgr fd) (hsent : env.sends 0 = true)
    (hdescriptor : 0 ≤ (mgr.waiting_players w).fd)
    (hw : (mgr.waiting_players w).is_active = true)
    (hnew : new_game env (mgr.active_games j) (mgr.waiting_players w) fd player_id id = .ok game) :
    notices (announce_start (mgr.seated w j game counter) env fd
        (start_result env (mgr.waiting_players w) game)).out =
      [(fd, .started (requester_team env) (mgr.waiting_players w).player_id),
        ((mgr.waiting_players w).fd, .started (requester_team env).other player_id)] := by
  obtain ⟨_, _, _, hown, hother, hown_name, _⟩ := new_game_spec hnew
  rw [announce_start_out (seated_find_eq hunplaced hnew), seated_game, hother,
    if_pos ⟨hsent, hdescriptor⟩]
  -- the name is that of the requester's seat
  have hside : game.side fd = requester_team env := by
    by_contra hne
    have hother_fd := fd_of_side (seats_iff.mpr ⟨_, hown⟩)
    rw [Team.eq_other_of_ne hne, hother] at hother_fd
    exact hunplaced (.waiting w) (fd_at_waiting.mpr ⟨hw, hother_fd⟩)
  have hname := game.player_id_side fd
  rw [hside, hown_name] at hname
  unfold first_response second_response start_response
  rw [← hname]
  simp only [notices_cons, notices_nil, notice_of, proto_team, if_true]
  rfl

/-- The only entry of the queue. -/
theorem club_of_enqueue {k : Fin max_waiting_players} (w : WaitingPlayer) (n : Int)
    (hnobody : first_waiting mgr = none) (hactive : w.is_active = true) :
    club_of { mgr.set_waiting k w with waiting_count := n } r =
      { club_of mgr r with waiting := some w.guest } := by
  have hfirst : first_waiting { mgr.set_waiting k w with waiting_count := n } = some k := by
    apply find_slot_of_unique
    · show ((mgr.set_waiting k w).waiting_players k).is_active = true
      rw [set_waiting_self]
      exact hactive
    · intro i hi
      by_contra hik
      have hsame : (mgr.set_waiting k w).waiting_players i = mgr.waiting_players i :=
        Function.update_of_ne hik ..
      have hi' : ((mgr.set_waiting k w).waiting_players i).is_active = true := hi
      rw [hsame, find_slot_eq_none hnobody i] at hi'
      cases hi'
  apply Club.ext
  · rw [club_of_queue, hfirst, Option.map_some]
    show some ((mgr.set_waiting k w).waiting_players k).guest = _
    rw [set_waiting_self]
  · funext i
    rw [club_of_tables]
    rfl

/-- The first to come waits. -/
theorem enqueue_matched {k : Fin max_waiting_players} {n : Int} (hnobody : first_waiting mgr = none)
    (hunplaced : Unplaced mgr fd)
    (hmgr : mgr' = { mgr.set_waiting k (waiting_entry env fd player_id) with waiting_count := n }) :
    Matched (club_of mgr r)
      (club_of mgr' (r.next mgr (.message fd (.match_game player_id) env) mgr'))
      [] := by
  have hrecord : r.next mgr (.message fd (.match_game player_id) env) mgr' = r := by
    apply Record.next_same rfl
    intro i hi
    rw [hmgr] at hi
    exact hi
  rw [hrecord, hmgr, club_of_enqueue _ _ hnobody rfl]
  exact .one (.arrive (club_of_nobody hnobody) (club_of_absent hunplaced))

/-- Two guests sit down. -/
theorem club_of_seated (hhost : Hosting mgr) (hw : (mgr.waiting_players w).is_active = true)
    (hfree : (mgr.active_games j).is_active = false)
    (hnew : new_game env (mgr.active_games j) (mgr.waiting_players w) fd player_id id = .ok game) :
    club_of (mgr.seated w j game counter)
        (r.next mgr (.message fd (.match_game player_id) env) (mgr.seated w j game counter)) =
      { (club_of mgr r).set j (some (.fresh ⟨fd, player_id⟩ (mgr.waiting_players w).guest
          (requester_team env))) with waiting := none } := by
  obtain ⟨hactive, _⟩ := new_game_spec hnew
  have hleft := club_of_leave (r := r) hhost hw
  apply Club.ext
  · -- as after leaving the queue
    have hqueue : (club_of (mgr.seated w j game counter) (r.next mgr
        (.message fd (.match_game player_id) env) (mgr.seated w j game counter))).waiting =
        (club_of (mgr.leave_queue w) r).waiting := by
      rw [club_of_queue, club_of_queue]
      unfold first_waiting
      rfl
    rw [hqueue, hleft]
  · funext k
    have htables : ({ (club_of mgr r).set j (some (.fresh ⟨fd, player_id⟩
        (mgr.waiting_players w).guest (requester_team env))) with waiting := none } :
          Club Int CString (Fin max_active_games)).tables k =
        ((club_of mgr r).set j (some (.fresh ⟨fd, player_id⟩ (mgr.waiting_players w).guest
          (requester_team env)))).tables k := rfl
    rw [htables, club_of_tables]
    by_cases hk : k = j
    · subst hk
      have hrecord : r.next mgr (.message fd (.match_game player_id) env)
          (mgr.seated w k game counter) k = [] := by
        unfold Record.next
        rw [seated_game, if_pos ⟨hfree, hactive⟩]
      rw [Club.set_self, seated_game, if_pos hactive, hrecord, new_game_table hnew]
    · have hrecord : r.next mgr (.message fd (.match_game player_id) env)
          (mgr.seated w j game counter) k = r k := by
        unfold Record.next
        rw [seated_other hk, if_neg (fun hnew => by rw [hnew.1] at hnew; cases hnew.2)]
        rfl
      rw [Club.set_ne _ _ hk, seated_other hk, hrecord, club_of_tables]

/-- A request that is given a place comes from a guest who was not there. -/
theorem Regular.absent (hok : Regular mgr (.message fd (.match_game player_id) env, out))
    (hid : player_id ≠ []) (hroom : (∃ i, (mgr.waiting_players i).is_active = true) →
      ∃ j, (mgr.active_games j).is_active = false) : Unplaced mgr fd :=
  hok.fresh fd ⟨rfl, hid, hroom⟩

/-- **A match request.** The requester waits, is seated, or is turned
    away. -/
theorem request_matched (hhost : Hosting mgr)
    (hok : Regular mgr (.message fd (.match_game player_id) env, out))
    (h : handle_match_game_message mgr env fd player_id = .ok o) :
    Matched (club_of mgr r)
      (club_of o.mgr (r.next mgr (.message fd (.match_game player_id) env) o.mgr))
      (notices o.out) := by
  -- the record stays if no slot comes into use
  have hrecord : ∀ {mgr' : MatchManager}, mgr'.active_games = mgr.active_games →
      r.next mgr (.message fd (.match_game player_id) env) mgr' = r := by
    intro mgr' hgames
    exact Record.next_same rfl fun i hi => by rwa [hgames] at hi
  by_cases hstart : ∃ j, (mgr.active_games j).is_active = false ∧
      (o.mgr.active_games j).is_active = true
  · obtain ⟨j, hfree, hactive⟩ := hstart
    have hid : player_id ≠ [] := by
      intro hid
      unfold handle_match_game_message at h
      rw [if_pos hid] at h
      cases h
      rw [hfree] at hactive
      cases hactive
    obtain ⟨w, id, counter, game, hw, hnew, rfl⟩ := match_seated h hfree hactive
    have hwaits := find_slot_eq_some hw
    have hunplaced := hok.absent hid fun _ => ⟨j, hfree⟩
    rw [announce_start_mgr, club_of_seated hhost hwaits hfree hnew,
      start_notices hunplaced (hok.sent trivial) (hhost.descriptors (.waiting w) _
        (fd_at_waiting.mpr ⟨hwaits, rfl⟩)) hwaits hnew]
    have hpair := Club.Step.pair (g := ⟨fd, player_id⟩) (requester_team env)
      (club_of_waiting (r := r) hhost hwaits) (club_of_inactive hfree) (club_of_absent hunplaced)
    exact .one hpair
  · unfold handle_match_game_message at h
    split at h
    · cases h
      rw [hrecord rfl]
      exact reply_matched rfl
    · rename_i hid
      obtain ⟨⟨mgr', result⟩, hadd, h⟩ := bind_eq_ok.mp h
      unfold add_player_to_matching at hadd
      split at hadd
      · rename_i w hw
        split at hadd
        · -- a game would have started
          rename_i j hj
          simp only at hadd
          obtain ⟨_, _, hadd⟩ := bind_eq_ok.mp hadd
          obtain ⟨game, hnew, hadd⟩ := bind_eq_ok.mp hadd
          cases hadd
          cases h
          refine absurd ⟨j, free_slot_eq_some hj, ?_⟩ hstart
          rw [announce_start_mgr]
          show ((mgr.set_game j game).active_games j).is_active = true
          rw [set_game_self]
          exact (new_game_spec hnew).1
        · cases hadd
          cases h
          rw [hrecord rfl]
          exact reply_matched rfl
      · rename_i hnobody
        split at hadd
        · rename_i k hk
          obtain ⟨copied, hcopied, hadd⟩ := bind_eq_ok.mp hadd
          cases hadd
          cases h
          obtain rfl := strcpy_ok hcopied
          have hunplaced := hok.absent hid fun ⟨i, hi⟩ => by
            rw [find_slot_eq_none hnobody i] at hi
            cases hi
          exact enqueue_matched hnobody hunplaced rfl
        · cases hadd
          cases h
          rw [hrecord rfl]
          exact reply_matched rfl

end request

end handlers

end MultiplayChess
