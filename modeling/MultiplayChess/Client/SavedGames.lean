import MultiplayChess.Client.Sheets

/-! # Saved games

    From the move that is played to the replay of its game: the server
    records the move and tells the client, the client adds it to its list,
    saves the list at the end of the game or when the user asks for it, and
    the replay reads the file back.  Nothing is lost, added or taken from
    another game on this way, as long as the sends of the server succeed:
    whatever else happens to the client, each file it has saved replays the
    moves of one game that it has played. -/

namespace MultiplayChess

open LTS Loop Replica
open Chess (Move OnBoard)

/-! ## The record of the server -/

/-- The record after a step of the whole system. -/
def Record.after (r : Record) (s : Linked) (e : LinkedEvent) (s' : Linked) : Record :=
  match e with
  | .server e' => r.next s.mgr e' s'.mgr
  | _ => r

/-- The whole system, with the moves the server has accepted. -/
def logged : System (Linked × Record) LinkedEvent :=
  linked.with_ghost Record.after

def logged_init : Linked × Record :=
  (linked_init, fun _ => [])

/-- The server takes a step of its own, or is left alone. -/
theorem logged_step {x x' : Linked × Record} {e : LinkedEvent} (h : logged.step x e x') :
    (∃ e' out, recorded_server.step ⟨x.1.mgr, x.2⟩ (e', out) ⟨x'.1.mgr, x'.2⟩) ∨
      x'.1.mgr = x.1.mgr ∧ x'.2 = x.2 := by
  obtain ⟨hstep, hrecord⟩ := h
  have hrun : linked_run x.1 e = some x'.1 := hstep
  cases e with
  | server e' =>
    obtain ⟨_, out, hserver⟩ := serve_cases hrun
    refine .inl ⟨e', out, ?_⟩
    show recorded_run _ e' = some (_, out)
    unfold recorded_run
    rw [hserver, hrecord]
    rfl
  | receive env =>
    obtain ⟨_, _, _, hmgr⟩ := receive_cases hrun
    exact .inr ⟨hmgr, hrecord⟩
  | lost =>
    refine .inr ⟨?_, hrecord⟩
    rw [← Option.some.inj hrun]
  | connect fd send => exact .inr ⟨(connect_cases hrun).2.2, hrecord⟩
  | open_prompt => exact .inr ⟨(open_prompt_cases hrun).2, hrecord⟩
  | enter_name env => exact .inr ⟨(enter_name_cases hrun).2, hrecord⟩
  | main e => exact .inr ⟨(main_cases hrun).2.2, hrecord⟩

/-- The record of a run is that of its server. -/
theorem logged_recorded {x : Linked × Record} {es : List LinkedEvent}
    (h : Run logged logged_init es x) :
    ∃ ls, Run recorded_server .initial ls ⟨x.1.mgr, x.2⟩ := by
  induction h with
  | nil => exact ⟨[], .nil⟩
  | snoc _ _ hstep ih =>
    obtain ⟨ls, hls⟩ := ih
    rcases logged_step hstep with ⟨e', out, hserver⟩ | ⟨hmgr, hrecord⟩
    · exact ⟨_, hls.snoc hserver⟩
    · rw [hmgr, hrecord]
      exact ⟨ls, hls⟩

/-- **What is recorded is legal**, also after the end of the game. -/
theorem records_legal {s : Recorded} {ls : List (Event × List Sent)}
    (h : Run recorded_server .initial ls s) (i : Fin max_active_games) :
    ∃ G, Run rules (init_startpos .zero) (moves_of (s.record i)) G := by
  have hinv : AllConducted s ∧
      ∀ i, ∃ G, Run rules (init_startpos .zero) (moves_of (s.record i)) G := by
    apply h.invariant (P := fun s : Recorded => AllConducted s ∧
      ∀ i, ∃ G, Run rules (init_startpos .zero) (moves_of (s.record i)) G)
    · intro s ⟨e, out⟩ s' ⟨hconducted, hlegal⟩ _ hstep
      refine ⟨hconducted.step hstep, fun i => ?_⟩
      rw [(recorded_step hstep).2]
      unfold Record.next
      split
      · exact ⟨_, .nil⟩
      · cases hacc : accepted s.mgr e with
        | none => exact hlegal i
        | some p =>
          obtain ⟨j, m⟩ := p
          simp only
          by_cases hji : j = i
          · subst hji
            rw [if_pos rfl]
            obtain ⟨_, _, _, _, _, hfind, _, hcheck⟩ := accepted_spec hacc
            have hgame := hconducted j (find_game_spec hfind).1
            unfold moves_of
            rw [List.map_append]
            exact ⟨_, hgame.run.snoc ⟨(check_move_ok hcheck).2.2.2, rfl⟩⟩
          · rw [if_neg hji]
            exact hlegal i
    · constructor
      · intro i hactive
        cases hactive
      · intro i
        exact ⟨_, .nil⟩
  exact hinv.2 i

/-! ## The news of a step -/

section server

variable {mgr mgr' : MatchManager} {r : Record} {e : Event} {fd : Int} {out : List Sent}

/-- A step starts one game, plays one move, or does neither; its news are
    for the players of this game. -/
theorem step_news (htidy : Tidy mgr) (hsmooth : Smooth mgr (e, out))
    (hstep : server.step mgr (e, out) mgr') :
    (∃ j, (mgr.active_games j).is_active = false ∧ (mgr'.active_games j).is_active = true ∧
        (∀ k, k ≠ j → mgr'.active_games k = mgr.active_games k) ∧ accepted mgr e = none ∧
        Tells (mgr'.active_games j) (.reset (init_startpos .zero)) out) ∨
      (∀ k, (mgr'.active_games k).is_active = true → (mgr.active_games k).is_active = true) ∧
        ((∃ j m u, accepted mgr e = some (j, m) ∧ Decodes u m ∧
            Tells (mgr.active_games j) (.update u) out) ∨
          accepted mgr e = none ∧ ∀ fd, news fd out = []) := by
  by_cases hmatch : ∀ fd player_id env, e ≠ .message fd (.match_game player_id) env
  · refine .inr ⟨?_, ?_⟩
    · intro k hactive'
      by_contra hfree
      rw [Bool.not_eq_true] at hfree
      obtain ⟨_, _, _, _, _, he, _⟩ := ((step_change hstep).slot k).starts hfree hactive'
      exact hmatch _ _ _ he
    · cases hacc : accepted mgr e with
      | some p =>
        obtain ⟨j, m⟩ := p
        obtain ⟨u, hu, htells⟩ := played_step_news htidy hsmooth hstep hacc
        exact .inl ⟨j, m, u, rfl, hu, htells⟩
      | none => exact .inr ⟨rfl, quiet_step_news hstep hmatch hacc⟩
  · simp only [not_forall, not_not] at hmatch
    obtain ⟨fd₀, player_id, env, rfl⟩ := hmatch
    rcases match_step_news htidy hsmooth hstep with
      ⟨hnone, hgames⟩ | ⟨j, hfree, hactive, hothers, htells⟩
    · refine .inr ⟨?_, .inr ⟨rfl, hnone⟩⟩
      rw [hgames]
      exact fun _ h => h
    · exact .inl ⟨j, hfree, hactive, hothers, rfl, htells⟩

/-- The record of a game that goes on without a move. -/
theorem next_same {i : Fin max_active_games} (hactive : (mgr.active_games i).is_active = true)
    (hacc : ∀ m, accepted mgr e ≠ some (i, m)) : r.next mgr e mgr' i = r i := by
  unfold Record.next
  rw [if_neg (by simp [hactive])]
  cases hany : accepted mgr e with
  | none => rfl
  | some p =>
    obtain ⟨j, m⟩ := p
    apply if_neg
    rintro rfl
    exact hacc m hany

theorem next_played {i : Fin max_active_games} {m : Move}
    (hactive : (mgr.active_games i).is_active = true) (hacc : accepted mgr e = some (i, m)) :
    moves_of (r.next mgr e mgr' i) = moves_of (r i) ++ [m] := by
  unfold Record.next moves_of
  rw [if_neg (by simp [hactive]), hacc]
  simp only [if_true, List.map_append, List.map_cons, List.map_nil]

/-- A seat in a game that was there before is an old one. -/
theorem old_seat {i : Fin max_active_games} {t : Team} (hstep : server.step mgr (e, out) mgr')
    (hseat : mgr'.fd_at (.seat i t) = some fd) (hactive : (mgr.active_games i).is_active = true) :
    mgr.fd_at (.seat i t) = some fd := by
  rw [fd_at_seat] at hseat ⊢
  exact ⟨hactive, (((step_change hstep).slot i).seats hactive t).symm.trans hseat.2⟩

/-- Of a game that begins its players are told, and nobody else. -/
theorem start_recounts {P : List Move → Prop} {ms : List Move} {j : Fin max_active_games}
    (htidy' : Tidy mgr') (hstep : server.step mgr (e, out) mgr')
    (hfree : (mgr.active_games j).is_active = false)
    (hactive : (mgr'.active_games j).is_active = true)
    (hothers : ∀ k, k ≠ j → mgr'.active_games k = mgr.active_games k) (hacc : accepted mgr e = none)
    (htells : Tells (mgr'.active_games j) (.reset (init_startpos .zero)) out)
    (hms : ∀ i t, mgr.fd_at (.seat i t) = some fd → moves_of (r i) = ms) :
    ∃ ms', Recounts Decodes P ms (news fd out) ms' ∧
      ∀ i t, mgr'.fd_at (.seat i t) = some fd → moves_of (r.next mgr e mgr' i) = ms' := by
  by_cases hseats : (mgr'.active_games j).seats fd = true
  · refine ⟨[], ?_, ?_⟩
    · rw [htells fd, if_pos hseats]
      exact .reset .nil
    · intro i t hseat
      obtain ⟨hactive', hfd⟩ := fd_at_seat.mp hseat
      obtain rfl := htidy'.unique.seats hactive' hactive (seats_iff.mpr ⟨t, hfd⟩) hseats
      unfold Record.next
      rw [if_pos ⟨hfree, hactive⟩]
      rfl
  · refine ⟨ms, ?_, ?_⟩
    · rw [htells fd, if_neg hseats]
      exact .nil
    · intro i t hseat
      obtain ⟨hactive', hfd⟩ := fd_at_seat.mp hseat
      have hij : i ≠ j := by
        rintro rfl
        exact hseats (seats_iff.mpr ⟨t, hfd⟩)
      have hactive₀ : (mgr.active_games i).is_active = true := by
        rw [← hothers i hij]
        exact hactive'
      rw [next_same hactive₀ (by simp [hacc])]
      exact hms i t (old_seat hstep hseat hactive₀)

/-- Of a move the players of the game are told, and it is on its record. -/
theorem play_recounts {P : List Move → Prop} {ms : List Move} {j : Fin max_active_games} {m : Move}
    {u : Coords} (htidy : Tidy mgr) (hstep : server.step mgr (e, out) mgr')
    (hstarts : ∀ k, (mgr'.active_games k).is_active = true → (mgr.active_games k).is_active = true)
    (hacc : accepted mgr e = some (j, m)) (hu : Decodes u m)
    (htells : Tells (mgr.active_games j) (.update u) out)
    (hms : ∀ i t, mgr.fd_at (.seat i t) = some fd → moves_of (r i) = ms)
    (hP : ∀ i t, mgr.fd_at (.seat i t) = some fd → P (moves_of (r.next mgr e mgr' i))) :
    ∃ ms', Recounts Decodes P ms (news fd out) ms' ∧
      ∀ i t, mgr'.fd_at (.seat i t) = some fd → moves_of (r.next mgr e mgr' i) = ms' := by
  obtain ⟨_, _, _, _, _, hfind, _⟩ := accepted_spec hacc
  have hactive := (find_game_spec hfind).1
  by_cases hseats : (mgr.active_games j).seats fd = true
  · obtain ⟨t₀, hfd₀⟩ := seats_iff.mp hseats
    have hseat₀ := fd_at_seat.mpr ⟨hactive, hfd₀⟩
    refine ⟨ms ++ [m], ?_, ?_⟩
    · rw [htells fd, if_pos hseats]
      apply Recounts.update hu ?_ .nil
      rw [← hms j t₀ hseat₀, ← next_played hactive hacc]
      exact hP j t₀ hseat₀
    · intro i t hseat
      obtain ⟨hactive', hfd⟩ := fd_at_seat.mp hseat
      have hold := fd_at_seat.mp (old_seat hstep hseat (hstarts i hactive'))
      obtain rfl := htidy.unique.seats hold.1 hactive (seats_iff.mpr ⟨t, hold.2⟩) hseats
      rw [next_played hactive hacc, hms i t₀ hseat₀]
  · refine ⟨ms, ?_, ?_⟩
    · rw [htells fd, if_neg hseats]
      exact .nil
    · intro i t hseat
      have hactive₀ := hstarts i (fd_at_seat.mp hseat).1
      have hold := old_seat hstep hseat hactive₀
      rw [next_same hactive₀ ?_]
      · exact hms i t hold
      · intro m' hm'
        rw [hacc] at hm'
        cases hm'
        exact hseats (seats_iff.mpr ⟨t, (fd_at_seat.mp hold).2⟩)

/-- **The news of a connection** continue the record of its game. -/
theorem step_recounts {P : List Move → Prop} {ms : List Move} (htidy : Tidy mgr)
    (hsmooth : Smooth mgr (e, out)) (hstep : server.step mgr (e, out) mgr')
    (hms : ∀ i t, mgr.fd_at (.seat i t) = some fd → moves_of (r i) = ms)
    (hP : ∀ i t, mgr.fd_at (.seat i t) = some fd → P (moves_of (r.next mgr e mgr' i))) :
    ∃ ms', Recounts Decodes P ms (news fd out) ms' ∧
      ∀ i t, mgr'.fd_at (.seat i t) = some fd → moves_of (r.next mgr e mgr' i) = ms' := by
  rcases step_news htidy hsmooth hstep with ⟨j, hfree, hactive, hothers, hacc, htells⟩ |
    ⟨hstarts, ⟨j, m, u, hacc, hu, htells⟩ | ⟨hacc, hnone⟩⟩
  · have htidy' := htidy.step hsmooth hstep
    exact start_recounts htidy' hstep hfree hactive hothers hacc htells hms
  · exact play_recounts htidy hstep hstarts hacc hu htells hms hP
  · -- nothing is told
    refine ⟨ms, ?_, ?_⟩
    · rw [hnone fd]
      exact .nil
    · intro i t hseat
      have hactive := hstarts i (fd_at_seat.mp hseat).1
      rw [next_same hactive (by simp [hacc])]
      exact hms i t (old_seat hstep hseat hactive)

end server

/-- At some moment of the run the moves have been on record, the last of them
    just accepted in a game the client had a seat in. -/
def OnRecord (es : List LinkedEvent) (ms : List Move) : Prop :=
  ∃ es₁ e es₂ x x' i t, es = es₁ ++ e :: es₂ ∧ Run logged logged_init es₁ x ∧ logged.step x e x' ∧
    x.1.mgr.fd_at (.seat i t) = some x.1.fd ∧ moves_of (x'.2 i) = ms

theorem OnRecord.later {es : List LinkedEvent} {ms : List Move} (h : OnRecord es ms)
    (es' : List LinkedEvent) : OnRecord (es ++ es') ms := by
  obtain ⟨es₁, e, es₂, x, x', i, t, rfl, hrun, hrest⟩ := h
  refine ⟨es₁, e, es₂ ++ es', x, x', i, t, ?_, hrun, hrest⟩
  rw [List.append_assoc, List.cons_append]

theorem OnRecord.legal {es : List LinkedEvent} {ms : List Move} (h : OnRecord es ms) :
    ∃ G, Run rules (init_startpos .zero) ms G := by
  obtain ⟨es₁, e, es₂, x, x', i, t, _, hrun, hstep, _, rfl⟩ := h
  obtain ⟨ls, hls⟩ := logged_recorded (hrun.snoc hstep)
  exact records_legal hls i

/-! ## The invariant -/

/-- The list of the moves as far as there is room. -/
def pgn_text (ms : List Move) : List CString :=
  (ms.take max_pgn_moves).map from_to

/-- Sheets with the moves of a game on record, and names that fit. -/
structure Genuine (es : List LinkedEvent) (sheet : Sheet) : Prop where
  moves : sheet.moves ≠ [] → ∃ ms, OnRecord es ms ∧ sheet.moves = pgn_text ms
  local_player : sheet.local_player.length ≤ 31
  opponent_player : sheet.opponent_player.length ≤ 31

theorem Genuine.later {es : List LinkedEvent} {sheet : Sheet} (h : Genuine es sheet)
    (es' : List LinkedEvent) : Genuine (es ++ es') sheet where
  moves := by
    intro hne
    obtain ⟨ms, hms, htext⟩ := h.moves hne
    exact ⟨ms, hms.later es', htext⟩
  local_player := h.local_player
  opponent_player := h.opponent_player

/-- The list of the client, continued with the messages on the way, is the
    record of its game. -/
structure Logged (es : List LinkedEvent) (s : Linked) (r : Record) : Prop where
  tidy : Tidy s.mgr
  told : ∃ ms₀ ms, (ms₀ = [] ∨ OnRecord es ms₀) ∧
    s.client.state.game_state.pgn_moves = pgn_text ms₀ ∧
    Recounts Decodes (OnRecord es) ms₀ (s.on_the_way.filterMap news_of) ms ∧
    ∀ i t, s.mgr.fd_at (.seat i t) = some s.fd → moves_of (r i) = ms
  keeps : Keeps (Genuine es) s.client.state

section steps

variable {es : List LinkedEvent} {s s' : Linked} {r r' : Record} {e : LinkedEvent}

/-- A step that leaves the sheet and the messages alone. -/
theorem Logged.congr (h : Logged es s r) (hmgr : s'.mgr = s.mgr) (hfd : s'.fd = s.fd)
    (hway : s'.on_the_way = s.on_the_way)
    (hsheet : s'.client.state.game_state.sheet = s.client.state.game_state.sheet)
    (hkeeps : Keeps (Genuine es) s'.client.state) : Logged (es ++ [e]) s' r := by
  obtain ⟨ms₀, ms, hknown, htext, hway₀, hseat⟩ := h.told
  refine ⟨?_, ⟨ms₀, ms, ?_, ?_, ?_, ?_⟩, ?_⟩
  · rw [hmgr]
    exact h.tidy
  · exact hknown.imp_right fun h => h.later [e]
  · exact (congrArg Sheet.moves hsheet).trans htext
  · rw [hway]
    exact hway₀.mono fun _ h => h.later [e]
  · rw [hmgr, hfd]
    exact hseat
  · exact hkeeps.mono fun _ h => h.later [e]

/-- **The server takes a step.** -/
theorem Logged.serve {e' : Event} (h : Logged es s r) (hlog : Run logged logged_init es (s, r))
    (hok : LosesNothing s (.server e')) (hstep : s.serve e' = some s') :
    Logged (es ++ [.server e']) s' (r.next s.mgr e' s'.mgr) := by
  obtain ⟨out, hserver, hclient, hfd, hway⟩ := serve_spec hstep
  have hsmooth := hok.server e' rfl _ hserver
  have hrun : server.step s.mgr (e', out) s'.mgr := hserver
  have hlogged : logged.step (s, r) (.server e') (s', r.next s.mgr e' s'.mgr) := ⟨hstep, rfl⟩
  obtain ⟨ms₀, ms, hknown, htext, hway₀, hseat⟩ := h.told
  obtain ⟨ms', hnews, hseat'⟩ := step_recounts (r := r) (P := OnRecord (es ++ [.server e']))
    h.tidy hsmooth hrun hseat fun i t hi => ⟨es, _, [], _, _, i, t, rfl, hlog, hlogged, hi, rfl⟩
  refine ⟨h.tidy.step hsmooth hrun, ⟨ms₀, ms', ?_, ?_, ?_, ?_⟩, ?_⟩
  · exact hknown.imp_right fun h => h.later _
  · rw [hclient]
    exact htext
  · rw [hway, List.filterMap_append]
    exact (hway₀.mono fun _ h => h.later _).append hnews
  · rw [hfd]
    exact hseat'
  · rw [hclient]
    exact h.keeps.mono fun _ h => h.later _

/-- The sheet after a start message. -/
theorem dispatch_start_sheet {client : ClientState} {env : ClientEnv} {res : MatchGameResponse}
    (h : starts_game (.match_game_res res) = true) :
    (dispatch_server_message client env (.match_game_res res)).game_state.sheet =
      ⟨[], strncpy max_player_name_length client.username,
        strncpy max_player_name_length res.opponent_name⟩ := by
  obtain ⟨hsuccess, hteam⟩ := starts_game_iff.mp h
  show (handle_match_game_response client env res).game_state.sheet = _
  unfold handle_match_game_response
  rw [if_pos hsuccess, if_neg hteam]
  rfl

/-- **The client receives a message.** -/
theorem Logged.receive {env : ClientEnv} (h : Logged es s r) (hstep : s.receive env = some s') :
    Logged (es ++ [.receive env]) s' r := by
  obtain ⟨msg, hway, hclient, hmgr, hfd⟩ := receive_spec hstep
  obtain ⟨ms₀, ms, hknown, htext, hway₀, hseat⟩ := h.told
  -- it is enough to find the list that the new sheet shows
  have hrest : ∀ {ms₁}, (ms₁ = [] ∨ OnRecord es ms₁) →
      (dispatch_server_message s.client.state env msg).game_state.pgn_moves = pgn_text ms₁ →
      Recounts Decodes (OnRecord es) ms₁ (s'.on_the_way.filterMap news_of) ms →
      Genuine es (dispatch_server_message s.client.state env msg).game_state.sheet →
      Logged (es ++ [.receive env]) s' r := by
    intro ms₁ hknown₁ htext₁ hway₁ hsheet₁
    have hstate : s'.client.state = dispatch_server_message s.client.state env msg :=
      congrArg Client.state hclient
    refine ⟨?_, ⟨ms₁, ms, hknown₁.imp_right fun h => h.later _, ?_, ?_, ?_⟩, ?_⟩
    · rw [hmgr]
      exact h.tidy
    · rw [hstate]
      exact htext₁
    · exact hway₁.mono fun _ h => h.later _
    · rw [hmgr, hfd]
      exact hseat
    · rw [hstate]
      exact (h.keeps.dispatch hsheet₁).mono fun _ h => h.later _
  have hgenuine := h.keeps.sheet
  rw [hway, List.filterMap_cons] at hway₀
  cases hnews : news_of msg with
  | none =>
    rw [hnews] at hway₀
    have hsheet : (dispatch_server_message s.client.state env msg).game_state.sheet =
        s.client.state.game_state.sheet := dispatch_sheet hnews
    apply hrest hknown ((congrArg Sheet.moves hsheet).trans htext) hway₀
    rw [hsheet]
    exact hgenuine
  | some n =>
    rw [hnews] at hway₀
    cases msg with
    | match_game_res res =>
      -- a new game
      have hstart : starts_game (.match_game_res res) = true := by
        by_contra hno_start
        rw [news_of_no_start hno_start] at hnews
        cases hnews
      rw [news_of_start hstart] at hnews
      cases hnews
      cases hway₀ with
      | reset hway₁ =>
        have hsheet : (dispatch_server_message s.client.state env
            (.match_game_res res)).game_state.sheet = _ := dispatch_start_sheet hstart
        apply hrest (.inl rfl) (congrArg Sheet.moves hsheet) hway₁
        rw [hsheet]
        refine ⟨fun hne => absurd rfl hne, ?_, ?_⟩
        · exact List.length_take_le ..
        · exact List.length_take_le ..
    | move_broadcast b =>
      -- the next move of the game
      cases hnews
      cases hway₀ with
      | @update _ m _ _ _ hm hnext hway₁ =>
        obtain ⟨G, hlegal⟩ := hnext.legal
        have hsheet :
            (dispatch_server_message s.client.state env (.move_broadcast b)).game_state.sheet =
            { s.client.state.game_state.sheet with moves := pgn_text (ms₀ ++ [m]) } := by
          rw [move_broadcast_sheet, apply_broadcast_sheet hm, record_move_next htext hlegal hm]
          rfl
        apply hrest (.inr hnext) (congrArg Sheet.moves hsheet) hway₁
        rw [hsheet]
        exact ⟨fun _ => ⟨_, hnext, rfl⟩, hgenuine.local_player, hgenuine.opponent_player⟩
    | _ => cases hnews

/-- **The connection is lost**, and with it nothing the client has. -/
theorem Logged.lost (h : Logged es s r) :
    Logged (es ++ [e]) { s with client := s.client.lose_connection } r := by
  have hsheet : s.client.lose_connection.state.game_state.sheet = s.client.state.game_state.sheet :=
    sheet_of_untouched Client.lose_connection_untouched
  refine h.congr rfl rfl rfl hsheet (h.keeps.congr hsheet ?_ ?_)
  · show s.client.lose_connection.state.game_state.pgn_result = _
    unfold Client.lose_connection
    simp only
    split <;> rfl
  · show s.client.lose_connection.state.saved = _
    unfold Client.lose_connection
    simp only
    split <;> rfl

/-- **The client connects again.** It has no seat, so its list need not be
    that of a game in progress. -/
theorem Logged.connect {fd : Int} {send : Bool} (h : Logged es s r) (hfresh : Unplaced s.mgr fd)
    (hstep : s.connect fd send = some s') : Logged (es ++ [e]) s' r := by
  unfold Linked.connect at hstep
  split at hstep
  · cases hstep
  · cases hstep
    obtain ⟨ms₀, _, hknown, htext, _, _⟩ := h.told
    have hstate : (s.client.reconnect send).state = s.client.state := by
      unfold Client.reconnect
      split <;> rfl
    refine ⟨h.tidy, ⟨ms₀, ms₀, hknown.imp_right fun h => h.later _, ?_, .nil, ?_⟩, ?_⟩
    · simp only [hstate]
      exact htext
    · intro i t hseat
      exact absurd hseat (hfresh (.seat i t))
    · simp only [hstate]
      exact h.keeps.mono fun _ h => h.later _

/-- **The step lemma.** -/
theorem Logged.step (h : Logged es s r) (hlog : Run logged logged_init es (s, r))
    (hok : LosesNothing s e) (hstep : linked.step s e s') :
    Logged (es ++ [e]) s' (r.after s e s') := by
  have hrun : linked_run s e = some s' := hstep
  cases e with
  | server e' => exact h.serve hlog hok hrun
  | receive env => exact h.receive hrun
  | lost =>
    cases hrun
    exact h.lost
  | connect fd send => exact h.connect (hok.connection fd send rfl) hrun
  | open_prompt =>
    have hopen : s.open_prompt = some s' := hrun
    unfold Linked.open_prompt at hopen
    split at hopen
    · cases hopen
      exact h.congr rfl rfl rfl rfl h.keeps
    · cases hopen
  | enter_name env =>
    have hname : s.enter_name env = some s' := hrun
    unfold Linked.enter_name at hname
    split at hname
    · obtain ⟨client, hkey, rfl⟩ := Option.map_eq_some_iff.mp hname
      have hsheet : client.state.game_state.sheet = s.client.state.game_state.sheet := by
        rcases Client.handle_main_key_beyond_keys hkey with hbeyond | ⟨file, rfl⟩
        · exact sheet_of_untouched (Client.untouched_of_beyond_keys hbeyond)
        · exact sheet_of_beyond_replay (Client.start_replay_beyond_replay file)
      exact h.congr rfl rfl rfl hsheet (h.keeps.main_key hkey)
    · cases hname
  | main e' =>
    have hmain : s.main e' = some s' := hrun
    unfold Linked.main at hmain
    split at hmain
    · rename_i hof
      obtain ⟨client, hclient, rfl⟩ := Option.map_eq_some_iff.mp hmain
      exact h.congr rfl rfl rfl (step_sheet hof.2 hclient) (h.keeps.step hof.2 hclient)
    · cases hmain

theorem Logged.initial : Logged [] linked_init (fun _ => []) where
  tidy := tidy_init
  told := by
    refine ⟨[], [], .inl rfl, rfl, .nil, ?_⟩
    intro i t hseat
    cases (fd_at_seat.mp hseat).1
  keeps := by
    refine ⟨⟨fun hne => absurd rfl hne, Nat.zero_le _, Nat.zero_le _⟩, by decide, ?_⟩
    intro state hstate
    cases hstate

/-- **The run lemma.** -/
theorem linked_logged (hrun : RunWhere linked LosesNothing linked_init es s) :
    ∃ r, Logged es s r := by
  obtain ⟨r, hlogged⟩ := hrun.with_ghost Record.after fun _ => []
  have hinv : Run logged logged_init es (s, r) ∧ Logged es s r := by
    apply hlogged.history (P := fun es x => Run logged logged_init es x ∧ Logged es x.1 x.2)
    · intro es x e x' ⟨hlog, h⟩ hok hstep
      refine ⟨hlog.snoc hstep, ?_⟩
      rw [hstep.2]
      exact h.step hlog hok hstep.1
    · exact ⟨.nil, .initial⟩
  exact ⟨r, hinv.2⟩

end steps

/-! ## Saved games are games -/

/-- The moves of a game stay on the board. -/
theorem run_on_board {G : Game} {ms : List Move} (hrun : Run rules (init_startpos .zero) ms G) :
    ∀ m ∈ ms, OnBoard m.sx m.sy ∧ OnBoard m.dx m.dy := by
  induction hrun with
  | nil =>
    intro m hm
    cases hm
  | snoc hbefore _ hstep ih =>
    intro m hm
    rcases List.mem_append.mp hm with hm | hm
    · exact ih m hm
    · obtain rfl := List.mem_singleton.mp hm
      obtain ⟨_, hpseudo, _⟩ := ((Run.following hbefore).legal_iff m).mp hstep.1
      exact ⟨hpseudo.src_on, hpseudo.dst_on⟩

theorem token_move_from_to {m : Move} (h : OnBoard m.sx m.sy ∧ OnBoard m.dx m.dy) :
    token_move (from_to m) = some m := by
  obtain ⟨⟨⟨hsx, hsx8⟩, hsy, hsy8⟩, ⟨hdx, hdx8⟩, hdy, hdy8⟩ := h
  unfold from_to Client.coordinate token_move
  simp only [List.cons_append, List.nil_append, file_read hsx hsx8, rank_read hsy hsy8,
    file_read hdx hdx8, rank_read hdy hdy8]
  exact if_pos ⟨⟨⟨hsx, hsx8⟩, hsy, hsy8⟩, ⟨hdx, hdx8⟩, hdy, hdy8⟩

theorem coordinate_move_from_to {m : Move} (h : OnBoard m.sx m.sy ∧ OnBoard m.dx m.dy) :
    coordinate_move (from_to m) = true := by
  obtain ⟨⟨⟨hsx, hsx8⟩, hsy, hsy8⟩, ⟨hdx, hdx8⟩, hdy, hdy8⟩ := h
  have hfile : ∀ {x : Int}, 0 ≤ x → x < 8 → is_file (Char.ofNat (97 + x).toNat) = true := by
    intro x hx hx8
    have hchar : (Char.ofNat (97 + x).toNat).toNat = (97 + x).toNat := toNat_ofNat_ascii (by omega)
    unfold is_file
    rw [Bool.and_eq_true, decide_eq_true_eq, decide_eq_true_eq]
    constructor
    · show 97 ≤ (Char.ofNat (97 + x).toNat).toNat
      omega
    · show (Char.ofNat (97 + x).toNat).toNat ≤ 104
      omega
  have hrank : ∀ {y : Int}, 0 ≤ y → y < 8 → is_rank (Char.ofNat (49 + y).toNat) = true := by
    intro y hy hy8
    have hchar : (Char.ofNat (49 + y).toNat).toNat = (49 + y).toNat := toNat_ofNat_ascii (by omega)
    unfold is_rank
    rw [Bool.and_eq_true, decide_eq_true_eq, decide_eq_true_eq]
    constructor
    · show 49 ≤ (Char.ofNat (49 + y).toNat).toNat
      omega
    · show (Char.ofNat (49 + y).toNat).toNat ≤ 56
      omega
  show (is_file _ && is_rank _ && is_file _ && is_rank _) = true
  rw [hfile hsx hsx8, hrank hsy hsy8, hfile hdx hdx8, hrank hdy hdy8]
  rfl

/-- Read back, the text of a game is the game. -/
theorem moves_up_to_pgn_text {G : Game} {ms : List Move} {k : Int}
    (hrun : Run rules (init_startpos .zero) ms G) (hk : k < max_pgn_moves) :
    moves_up_to (pgn_text ms) k = ms.take (k + 1).toNat := by
  have hread : ∀ ms' : List Move, (∀ m ∈ ms', m ∈ ms) →
      (ms'.map from_to).filterMap token_move = ms' := by
    intro ms' hsub
    induction ms' with
    | nil => rfl
    | cons m ms' ih =>
      have hm := run_on_board hrun m (hsub m (.head _))
      rw [List.map_cons, List.filterMap_cons_some (token_move_from_to hm),
        ih fun m' hm' => hsub m' (.tail _ hm')]
  unfold moves_up_to pgn_text
  rw [← List.map_take, List.take_take, Nat.min_eq_left (by omega)]
  exact hread _ fun m hm => List.mem_of_mem_take hm

/-- `bob` opens with his king's pawn and saves the game at once. -/
def opening_saved : List LinkedEvent :=
  bob_plays ++ [.main (.key bob_types (.mouse 37 23 true)),
    .main (.key bob_types (.mouse 37 17 true)),
    .server (.message 6 (.move ⟨"e2".toList, "e4".toList⟩) (.calm 0)),
    .receive ⟨fun _ => 0, true, true⟩, .receive ⟨fun _ => 0, true, true⟩,
    .main (.key bob_types (.char '3'))]

theorem opening_saved_file : (opening_saved.foldlM in_touch_run linked_init).map (fun s =>
    s.client.state.saved.map fun state => (decide ('\n' ∉ state.local_player),
      decide ('\n' ∉ state.opponent_player), load_moves (some (write_pgn midsummer state)))) =
    some [(true, true, ["e2e4".toList])] := by
  decide +kernel

end MultiplayChess
