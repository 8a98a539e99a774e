import MultiplayChess.Client.Handlers
import MultiplayChess.Server.Deliveries
import MultiplayChess.Server.Failures

/-! # What a step tells the clients

    The news among the messages of one step of the server, if every fd has
    one place and all sends succeed.  An accepted move tells both players of
    its game the same update and nobody else anything; a started game tells
    its two players to reset; all other steps tell nothing. -/

namespace MultiplayChess

open LTS Loop Replica
open Chess (Move)

/-- The coordinates of a move, as they travel. -/
abbrev Coords : Type := CString × CString

/-- The news for the client at `fd`. -/
def news (fd : Int) (out : List Sent) : List (News Game Coords) :=
  (inbox fd out).filterMap news_of

@[simp] theorem news_nil (fd : Int) : news fd [] = [] := rfl

@[simp] theorem news_append (fd : Int) (out out' : List Sent) :
    news fd (out ++ out') = news fd out ++ news fd out' := by
  unfold news
  rw [inbox_append, List.filterMap_append]

/-- None of the messages is news. -/
abbrev NoNews (out : List Sent) : Prop :=
  Only (fun msg => news_of msg = none) out

theorem NoNews.news_eq {out : List Sent} (h : NoNews out) (fd : Int) : news fd out = [] :=
  List.filterMap_eq_nil_iff.mpr (h.inbox fd)

theorem news_sent {fd fd' : Int} {msg : ServerMessage} {n : News Game Coords} {out : List Sent}
    (h : news_of msg = some n) :
    news fd (⟨fd', msg, true⟩ :: out) = if fd' = fd then n :: news fd out else news fd out := by
  unfold news inbox
  by_cases hfd : fd' = fd
  · simp [hfd, h]
  · simp [hfd]

theorem news_skip {fd fd' : Int} {msg : ServerMessage} {ok : Bool} {out : List Sent}
    (h : news_of msg = none) : news fd (⟨fd', msg, ok⟩ :: out) = news fd out := by
  unfold news inbox
  by_cases hfd : fd' = fd
  · cases ok <;> simp [hfd, h]
  · simp [hfd]

/-- The two players of the game `g` are told `n`, and nobody else anything. -/
def Tells (g : ActiveGame) (n : News Game Coords) (out : List Sent) : Prop :=
  ∀ fd, news fd out = if g.seats fd then [n] else []

/-- Two messages, one for each seat. -/
theorem Tells.of_pair {g : ActiveGame} {t : Team} {msg msg' : ServerMessage}
    {n : News Game Coords} (hne : g.fd_of t ≠ g.fd_of t.other) (h : news_of msg = some n)
    (h' : news_of msg' = some n) :
    Tells g n [⟨g.fd_of t, msg, true⟩, ⟨g.fd_of t.other, msg', true⟩] := by
  intro fd
  have hseats : g.seats fd = true ↔ g.fd_of t = fd ∨ g.fd_of t.other = fd := by
    unfold ActiveGame.seats
    rw [Bool.or_eq_true, beq_iff_eq, beq_iff_eq]
    cases t
    · exact Iff.rfl
    · exact or_comm
  rw [news_sent h, news_sent h', news_nil]
  by_cases hfirst : g.fd_of t = fd
  · have hsecond : g.fd_of t.other ≠ fd := by
      rw [← hfirst]
      exact hne.symm
    rw [if_pos hfirst, if_neg hsecond, if_pos (hseats.mpr (.inl hfirst))]
  · by_cases hsecond : g.fd_of t.other = fd
    · rw [if_neg hfirst, if_pos hsecond, if_pos (hseats.mpr (.inr hsecond))]
    · rw [if_neg hfirst, if_neg hsecond, if_neg (fun h => (hseats.mp h).elim hfirst hsecond)]

/-- The coordinates stand for the move. -/
structure Decodes (u : Coords) (m : Move) : Prop where
  src : parse_chess_coordinate u.1 = some (m.sx, m.sy)
  dst : parse_chess_coordinate u.2 = some (m.dx, m.dy)

/-! ## Coordinates -/

/-- What the server's parser accepts. -/
theorem parse_chess_coordinate_some {coord : CString} {p : Int × Int}
    (h : parse_chess_coordinate coord = some p) :
    ∃ file rank : Char, coord = [file, rank] ∧ p.1 = (file.toNat : Int) - 97 ∧
      p.2 = (rank.toNat : Int) - 49 ∧ 0 ≤ p.1 ∧ p.1 < 8 ∧ 0 ≤ p.2 ∧ p.2 < 8 := by
  unfold parse_chess_coordinate at h
  split at h
  · rename_i file rank
    split at h
    · cases h
    · rename_i hrange
      cases h
      simp only [Bool.or_eq_true, decide_eq_true_eq, not_or, Char.not_lt] at hrange
      obtain ⟨⟨⟨hfile, hfile'⟩, hrank⟩, hrank'⟩ := hrange
      have h1 : 97 ≤ file.toNat := hfile
      have h2 : file.toNat ≤ 104 := hfile'
      have h3 : 49 ≤ rank.toNat := hrank
      have h4 : rank.toNat ≤ 56 := hrank'
      refine ⟨file, rank, rfl, rfl, rfl, ?_⟩
      simp only
      omega
  · cases h

/-- **Both parsers agree.** What the server's parser accepts the client
    takes in, as the same move. -/
theorem Decodes.apply {u : Coords} {m : Move} (h : Decodes u m) (G : Game) :
    apply_move_from_server G u.1 u.2 = (apply_move G m.sx m.sy m.dx m.dy, true) := by
  obtain ⟨f, r, hsrc, hsx, hsy, hsrc_range⟩ := parse_chess_coordinate_some h.src
  obtain ⟨f', r', hdst, hdx, hdy, hdst_range⟩ := parse_chess_coordinate_some h.dst
  simp only at hsx hsy hdx hdy hsrc_range hdst_range
  unfold apply_move_from_server
  rw [hsrc, hdst]
  simp only
  rw [← hsx, ← hsy, ← hdx, ← hdy, if_neg (by omega)]

theorem Decodes.step {u : Coords} {m : Move} (h : Decodes u m) (G : Game) :
    client_step G u = apply_move G m.sx m.sy m.dx m.dy := by
  unfold client_step
  rw [h.apply]

/-! ## Tables with one place for each fd -/

/-- Every fd has at most one place, and the waiting ones are descriptors. -/
structure Tidy (mgr : MatchManager) : Prop where
  unique : UniquePlaces mgr
  waiting : ∀ i fd, mgr.fd_at (.waiting i) = some fd → 0 ≤ fd

theorem tidy_init : Tidy init_match_manager where
  unique := unique_places_init
  waiting := by
    intro i fd hp
    have := (fd_at_waiting.mp hp).1
    cases this

/-- A step without failing sends that gives places only to descriptors
    without one. -/
structure Smooth (mgr : MatchManager) (l : Event × List Sent) : Prop where
  sent : ∀ s ∈ l.2, s.ok = true
  fresh : FreshRequest mgr l
  descriptor : ∀ fd, TakesPlace mgr fd l.1 → 0 ≤ fd

theorem Tidy.step {mgr mgr' : MatchManager} {e : Event} {out : List Sent} (h : Tidy mgr)
    (hsmooth : Smooth mgr (e, out)) (hstep : server.step mgr (e, out) mgr') : Tidy mgr' where
  unique := h.unique.step hsmooth.fresh hstep
  waiting := by
    intro i fd hp
    rcases (step_change hstep).waiting hp with hold | htakes
    · exact h.waiting i fd hold
    · exact hsmooth.descriptor fd htakes

/-! ## Step by step -/

section step

variable {mgr mgr' : MatchManager} {e : Event} {env : Env} {fd : Int} {out : List Sent}

@[simp] theorem news_report_error (fd' : Int) (o : Outcome) :
    news fd' (report_error env fd o).out = news fd' o.out := by
  unfold report_error send_error_response send_server_message
  split
  · rfl
  · rw [news_append, news_skip rfl, news_nil, List.append_nil]

/-- A reply without news tells nobody anything. -/
theorem news_reply {o : Outcome} (h : NoNews o.out) (fd' : Int) :
    news fd' (report_error env fd o).out = [] := by
  rw [news_report_error]
  exact h.news_eq fd'

/-- The start messages reset both players. -/
theorem announce_start_tells {result : MatchResult} {j : Fin max_active_games} {t : Team}
    (hunique : UniquePlaces mgr) (hactive : (mgr.active_games j).is_active = true)
    (hown : (mgr.active_games j).fd_of t = fd)
    (hother : result.opponent_fd = (mgr.active_games j).fd_of t.other)
    (hfd : 0 ≤ result.opponent_fd) (hteam : result.assigned_team = t.proto)
    (hsent : ∀ s ∈ (announce_start mgr env fd result).out, s.ok = true) :
    Tells (mgr.active_games j) (.reset (init_startpos .zero))
      (announce_start mgr env fd result).out := by
  have hseats : (mgr.active_games j).seats fd = true := seats_iff.mpr ⟨t, hown⟩
  -- the lookup by fd finds the new game
  have hfind : find_game_by_player_fd mgr fd = some j := by
    cases hk : find_game_by_player_fd mgr fd with
    | none =>
      have := find_game_none hk hactive
      rw [hseats] at this
      cases this
    | some k =>
      obtain ⟨hactive', hseats'⟩ := find_game_spec hk
      rw [hunique.seats hactive' hactive hseats' hseats]
  unfold announce_start send_server_message at hsent ⊢
  simp only [hfind, List.nil_append, List.length_nil, hfd, decide_true, Bool.and_true] at hsent ⊢
  split at hsent
  · rename_i hfirst
    rw [if_pos hfirst]
    have hsecond : env.sends 1 = true :=
      hsent _ (List.mem_append_right _ (List.mem_singleton_self _))
    have hstart : ∀ (u : ProtoTeam) time (name : CString), u ≠ .unspecified →
        news_of (start_response (mgr.active_games j) time result.game_id u name) =
          some (.reset (init_startpos .zero)) := by
      intro u time name hu
      apply news_of_start
      simp [starts_game, hu]
    rw [hother, ← hown, hfirst]
    simp only [List.length_singleton, hsecond, List.cons_append, List.nil_append]
    apply Tells.of_pair (hunique.seats_ne hactive t) (hstart _ _ _ ?_) (hstart _ _ _ ?_)
    · rw [hteam]
      cases t <;> exact ProtoTeam.noConfusion
    · unfold opposite
      split <;> exact ProtoTeam.noConfusion
  · rename_i hfailed
    exact absurd (hsent _ (List.mem_singleton_self _)) hfailed

/-- The two ways a match request is taken: without a new game, or with a
    game between the requester and a waiting player. -/
theorem add_player_outcome {player_id : CString} {result : MatchResult}
    (h : add_player_to_matching mgr env fd player_id = .ok (mgr', result)) :
    (result.status ≠ .game_started ∧ mgr'.active_games = mgr.active_games) ∨
    ∃ w j id game, mgr.fd_at (.waiting w) = some (mgr.waiting_players w).fd ∧
      (mgr.active_games j).is_active = false ∧
      new_game env (mgr.active_games j) (mgr.waiting_players w) fd player_id id = .ok game ∧
      mgr'.active_games = Function.update mgr.active_games j game ∧
      result.status = .game_started ∧ result.assigned_team = (requester_team env).proto ∧
      result.opponent_fd = game.fd_of (requester_team env).other := by
  unfold add_player_to_matching at h
  split at h
  · -- somebody waits, and there is a free slot or there is none
    rename_i w hw
    split at h
    · rename_i j hj
      simp only at h
      obtain ⟨⟨id, counter⟩, hgen, h⟩ := bind_eq_ok.mp h
      obtain ⟨game, hnew, h⟩ := bind_eq_ok.mp h
      cases h
      exact .inr ⟨w, j, id, game, fd_at_waiting.mpr ⟨find_slot_eq_some hw, rfl⟩,
        free_slot_eq_some hj, hnew, rfl, rfl, rfl, rfl⟩
    · cases h
      exact .inl ⟨MatchStatus.noConfusion, rfl⟩
  · split at h
    · obtain ⟨copied, _, h⟩ := bind_eq_ok.mp h
      cases h
      exact .inl ⟨MatchStatus.noConfusion, rfl⟩
    · cases h
      exact .inl ⟨MatchStatus.noConfusion, rfl⟩

/-- **A match request** tells nothing and starts no game, or tells the two
    players of the game it starts. -/
theorem match_step_news {player_id : CString} (htidy : Tidy mgr)
    (hsmooth : Smooth mgr (.message fd (.match_game player_id) env, out))
    (hstep : server.step mgr (.message fd (.match_game player_id) env, out) mgr') :
    ((∀ fd', news fd' out = []) ∧ mgr'.active_games = mgr.active_games) ∨
    ∃ j, (mgr.active_games j).is_active = false ∧ (mgr'.active_games j).is_active = true ∧
      (∀ k, k ≠ j → mgr'.active_games k = mgr.active_games k) ∧
      Tells (mgr'.active_games j) (.reset (init_startpos .zero)) out := by
  have htidy' := htidy.step hsmooth hstep
  have hsent := hsmooth.sent
  obtain ⟨o, ho, rfl, rfl⟩ := message_step_ok hstep
  have hhandler : handle_match_game_message mgr env fd player_id = .ok o := ho
  unfold handle_match_game_message at hhandler
  split at hhandler
  · cases hhandler
    exact .inl ⟨news_reply (Only.nil.send rfl), rfl⟩
  · obtain ⟨⟨mgr₁, result⟩, hadd, hhandler⟩ := bind_eq_ok.mp hhandler
    simp only at hhandler
    rcases add_player_outcome hadd with ⟨hstatus, hgames⟩ |
      ⟨w, j, id, game, hwait, hfree, hnew, hgames, hstatus, hteam, hopponent⟩
    · -- the requester waits, or there is no room for another game
      apply Or.inl
      split at hhandler
      · cases hhandler
        exact ⟨news_reply (Only.nil.send rfl), hgames⟩
      · rename_i hstarted
        exact absurd hstarted hstatus
      · cases hhandler
        exact ⟨news_reply (Only.nil.send rfl), hgames⟩
    · -- a game starts; its two start messages are the news
      rw [hstatus] at hhandler
      cases hhandler
      rw [announce_start_mgr] at htidy' ⊢
      obtain ⟨hactive, _, _, hown, hother, _, _⟩ := new_game_spec hnew
      have hgame : mgr₁.active_games j = game := by
        rw [hgames]
        exact Function.update_self ..
      have hok : ∀ s ∈ (announce_start mgr₁ env fd result).out, s.ok = true :=
        fun s hs => hsent s (mem_report_error hs)
      refine .inr ⟨j, hfree, ?_, ?_, ?_⟩
      · rw [hgame]
        exact hactive
      · intro k hk
        rw [hgames]
        exact Function.update_of_ne hk ..
      · have htells : Tells (mgr₁.active_games j) (.reset (init_startpos .zero))
            (announce_start mgr₁ env fd result).out := by
          apply announce_start_tells htidy'.unique ?_ ?_ ?_ ?_ hteam hok
          · rw [hgame]
            exact hactive
          · rw [hgame]
            exact hown
          · rw [hgame]
            exact hopponent
          · rw [hopponent, hother]
            exact htidy.waiting w _ hwait
        intro fd'
        rw [news_report_error]
        exact htells fd'

/-- **An accepted move** is told to the two players of its game. -/
theorem played_step_news {i : Fin max_active_games} {m : Move} (htidy : Tidy mgr)
    (hsmooth : Smooth mgr (e, out)) (hstep : server.step mgr (e, out) mgr')
    (hacc : accepted mgr e = some (i, m)) :
    ∃ u, Decodes u m ∧ Tells (mgr.active_games i) (.update u) out := by
  obtain ⟨fd, req, env, _, rfl, hfind, _, hcheck⟩ := accepted_spec hacc
  have hactive := (find_game_spec hfind).1
  obtain ⟨_, hsrc, hdst, _⟩ := check_move_ok hcheck
  refine ⟨(req.from_coord, req.to_coord), ⟨hsrc, hdst⟩, ?_⟩
  obtain ⟨o, ho, rfl, rfl⟩ := message_step_ok hstep
  have hhandler : handle_move_message mgr env fd req = o := Except.ok.inj ho
  obtain ⟨team, hfd, _, hrun⟩ := handle_move_accepted hacc
  have hout : o.out = (announce_move (mgr.set_game i (game_after mgr env i m)) env fd req team
      (game_after mgr env i m)).1.out := by
    rw [← hhandler, hrun]
    simp only
    split <;> rfl
  have hsent : ∀ s ∈ o.out, s.ok = true := fun s hs => hsmooth.sent s (mem_report_error hs)
  rw [hout] at hsent
  intro fd'
  rw [news_report_error, hout]
  by_cases hfirst : env.sends 0 = true
  · -- the response goes to the mover, then both players get a broadcast
    rw [announce_move_sent _ _ _ _ hfirst] at hsent ⊢
    have hsecond : env.sends 1 = true := hsent _ (.tail _ (.head _))
    have hthird : env.sends 2 = true := hsent _ (.tail _ (.tail _ (.head _)))
    simp only [hsecond, hthird]
    rw [news_skip rfl, game_after_fd_of]
    have hpair : ∀ b b' : MoveBroadcast, b.from_coord = req.from_coord → b.to_coord = req.to_coord →
        b'.from_coord = req.from_coord → b'.to_coord = req.to_coord →
        Tells (mgr.active_games i) (.update (req.from_coord, req.to_coord))
          [⟨(mgr.active_games i).fd_of team.other, .move_broadcast b, true⟩,
            ⟨(mgr.active_games i).fd_of team.other.other, .move_broadcast b', true⟩] := by
      intro b b' hfrom hto hfrom' hto'
      apply Tells.of_pair (htidy.unique.seats_ne hactive team.other) ?_ ?_
      · rw [← hfrom, ← hto]
        rfl
      · rw [← hfrom', ← hto']
        rfl
    rw [Team.other_other, hfd] at hpair
    exact hpair _ _ rfl rfl rfl rfl fd'
  · -- the response was not sent, against the assumption on the sends
    rw [Bool.not_eq_true] at hfirst
    rw [announce_move_failed _ _ _ _ hfirst] at hsent
    exact absurd (hsent _ (.head _)) Bool.false_ne_true

/-- A step that is neither a match request nor an accepted move tells
    nothing. -/
theorem quiet_step_news (hstep : server.step mgr (e, out) mgr')
    (hmatch : ∀ fd player_id env, e ≠ .message fd (.match_game player_id) env)
    (hacc : accepted mgr e = none) (fd' : Int) : news fd' out = [] := by
  cases e with
  | disconnect fd env =>
    obtain ⟨o, ho, rfl, rfl⟩ := disconnect_step_ok hstep
    exact NoNews.news_eq (handle_player_disconnect_only (fun _ => rfl) ho) fd'
  | tick env =>
    obtain ⟨o, ho, rfl, rfl⟩ := tick_step_ok hstep
    exact NoNews.news_eq (check_game_timeouts_only (fun _ => rfl) ho) fd'
  | message fd msg env =>
    obtain ⟨o, ho, rfl, rfl⟩ := message_step_ok hstep
    apply news_reply ?_ fd'
    cases msg with
    | match_game player_id => exact absurd rfl (hmatch fd player_id env)
    | resign player_id =>
      exact handle_resign_only (fun _ => rfl) (fun _ => rfl) (fun _ => rfl) ho
    | move req =>
      cases ho
      exact handle_move_rejected_only (fun _ => rfl) hacc
    | cancel_match player_id =>
      cases ho
      exact handle_cancel_match_only (fun _ => rfl) (fun _ => rfl)
    | chat message =>
      cases ho
      exact handle_chat_only fun _ => rfl
    | ping message =>
      cases ho
      exact Only.nil.send rfl
    | echo message =>
      cases ho
      exact Only.nil.send rfl
    | unknown =>
      cases ho
      exact Only.nil.send rfl

/-- **A step that starts a game** tells both players of it to reset. -/
theorem started_step_news {i : Fin max_active_games} (htidy : Tidy mgr)
    (hsmooth : Smooth mgr (e, out)) (hstep : server.step mgr (e, out) mgr')
    (hfree : (mgr.active_games i).is_active = false)
    (hactive : (mgr'.active_games i).is_active = true) :
    Tells (mgr'.active_games i) (.reset (init_startpos .zero)) out := by
  obtain ⟨_, _, _, _, _, rfl, _⟩ := ((step_change hstep).slot i).starts hfree hactive
  rcases match_step_news htidy hsmooth hstep with ⟨_, hgames⟩ | ⟨j, _, _, hothers, htells⟩
  · rw [hgames, hfree] at hactive
    cases hactive
  · have hij : i = j := by
      by_contra hne
      rw [hothers i hne, hfree] at hactive
      cases hactive
    rw [hij]
    exact htells

/-- **All other steps** tell the players of a game nothing. -/
theorem other_step_news {i : Fin max_active_games} (htidy : Tidy mgr)
    (hsmooth : Smooth mgr (e, out)) (hstep : server.step mgr (e, out) mgr')
    (hactive : (mgr.active_games i).is_active = true)
    (hacc : ∀ m, accepted mgr e ≠ some (i, m)) (hseats : (mgr.active_games i).seats fd = true) :
    news fd out = [] := by
  by_cases hmatch : ∀ fd player_id env, e ≠ .message fd (.match_game player_id) env
  · cases hany : accepted mgr e with
    | none => exact quiet_step_news hstep hmatch hany fd
    | some p =>
      -- the move is one of another game, at which nobody of this game sits
      obtain ⟨j, m⟩ := p
      obtain ⟨_, _, _, _, _, hfind, _, _⟩ := accepted_spec hany
      obtain ⟨_, _, htells⟩ := played_step_news htidy hsmooth hstep hany
      rw [htells fd, if_neg]
      intro hseats'
      obtain rfl := htidy.unique.seats hactive (find_game_spec hfind).1 hseats hseats'
      exact hacc m hany
  · have htidy' := htidy.step hsmooth hstep
    simp only [not_forall, not_not] at hmatch
    obtain ⟨fd₀, player_id, env, rfl⟩ := hmatch
    rcases match_step_news htidy hsmooth hstep with ⟨hnone, _⟩ | ⟨j, hfree, hnew, hothers, htells⟩
    · exact hnone fd
    · have hij : i ≠ j := by
        intro hij
        rw [hij, hfree] at hactive
        cases hactive
      rw [htells fd, if_neg]
      intro hseats'
      rw [← hothers i hij] at hactive hseats
      exact hij (htidy'.unique.seats hactive hnew hseats hseats')

end step

end MultiplayChess
