import MultiplayChess.Client.News
import Mathlib.Data.List.Forall2

/-! # The boards agree

    The server checks the moves and tells the players which it accepted; a
    client plays them without checking.  Both set up the same position and
    read the same squares out of the coordinates, so a client whose
    connection loses and reorders nothing shows the server's position of
    some moves ago: as many as it has not been told yet. -/

namespace MultiplayChess

open LTS Replica
open Chess (Move)

/-! ## The run of one game -/

/-- A smooth step, taken while the game in slot `i` goes on. -/
structure During (i : Fin max_active_games) (s : Recorded) (l : Event × List Sent) : Prop where
  smooth : Smooth s.mgr l
  active : (s.mgr.active_games i).is_active = true

/-- The run of a game in slot `i`: the step `l₀` of a smooth run starts the
    game, and the steps `ls` are taken while it goes on. -/
structure GameRun (i : Fin max_active_games) (l₀ : Event × List Sent) (s₁ : Recorded)
    (ls : List (Event × List Sent)) (s : Recorded) : Prop where
  start : ∃ pre s₀, RunWhere recorded_server (fun s l => Smooth s.mgr l) .initial pre s₀ ∧
    Smooth s₀.mgr l₀ ∧ recorded_server.step s₀ l₀ s₁ ∧
    (s₀.mgr.active_games i).is_active = false
  started : (s₁.mgr.active_games i).is_active = true
  run : RunWhere recorded_server (During i) s₁ ls s

section step

variable {i : Fin max_active_games} {s s' : Recorded} {e : Event} {out : List Sent} {m : Move}

theorem record_played (hstep : recorded_server.step s (e, out) s')
    (hactive : (s.mgr.active_games i).is_active = true) (hacc : accepted s.mgr e = some (i, m)) :
    s'.record i = s.record i ++ [(e.fd, m)] := by
  rw [(recorded_step hstep).2]
  unfold Record.next
  rw [if_neg (by simp [hactive]), hacc]
  exact if_pos rfl

theorem record_other (hstep : recorded_server.step s (e, out) s')
    (hactive : (s.mgr.active_games i).is_active = true)
    (hacc : ∀ m, accepted s.mgr e ≠ some (i, m)) : s'.record i = s.record i := by
  rw [(recorded_step hstep).2]
  unfold Record.next
  rw [if_neg (by simp [hactive])]
  cases hany : accepted s.mgr e with
  | none => rfl
  | some p =>
    obtain ⟨j, m⟩ := p
    apply if_neg
    intro hji
    subst hji
    exact hacc m hany

/-- The seats of a game stay as they are while it goes on. -/
theorem SlotChange.seats {mgr : MatchManager} {g g' : ActiveGame} (h : SlotChange mgr e i g g')
    (hactive : g.is_active = true) (t : Team) : g'.fd_of t = g.fd_of t := by
  cases h with
  | kept _ hg =>
    rcases hg with hg | hg
    · rw [hg]
    · rw [hg]
      cases t <;> rfl
  | ticked _ hticked => exact hticked.frame.2.1 t
  | started _ _ _ hfree _ _ =>
    rw [hactive] at hfree
    cases hfree
  | played _ _ hg =>
    rcases hg with hg | hg
    · rw [hg]
      cases t <;> rfl
    · rw [hg]
      cases t <;> rfl

theorem SlotChange.played_position {mgr : MatchManager} {g g' : ActiveGame}
    (h : SlotChange mgr e i g g') (hacc : accepted mgr e = some (i, m)) :
    g'.game_state = apply_move g.game_state m.sx m.sy m.dx m.dy := by
  cases h with
  | kept hother _ => exact absurd hacc (hother m)
  | ticked he _ =>
    subst he
    cases hacc
  | started he _ _ _ _ _ =>
    subst he
    cases hacc
  | played _ hacc' hg =>
    rw [hacc'] at hacc
    cases hacc
    rcases hg with hg | hg
    · rw [hg]
      rfl
    · rw [hg]
      rfl

/-- What the players have been told so far are the moves on record, and the
    position is where these lead. -/
structure Reported (i : Fin max_active_games) (g : ActiveGame) (ls : List (Event × List Sent))
    (s : Recorded) : Prop where
  tidy : Tidy s.mgr
  seats : ∀ t, (s.mgr.active_games i).fd_of t = g.fd_of t
  position : (s.mgr.active_games i).game_state = fold_moves (moves_of (s.record i))
  told : ∃ us, List.Forall₂ Decodes us (moves_of (s.record i)) ∧
    ∀ fd, g.seats fd = true → news fd (sends ls) = us.map .update

/-- **The step lemma.** -/
theorem Reported.step {g : ActiveGame} {ls : List (Event × List Sent)}
    (h : Reported i g ls s) (hduring : During i s (e, out))
    (hstep : recorded_server.step s (e, out) s') : Reported i g (ls ++ [(e, out)]) s' := by
  obtain ⟨hsmooth, hactive⟩ := hduring
  have hserver := (recorded_step hstep).1
  have hslot := (step_change hserver).slot i
  obtain ⟨us, hus, hnews⟩ := h.told
  have hseats : ∀ fd, g.seats fd = true → (s.mgr.active_games i).seats fd = true := by
    intro fd hfd
    obtain ⟨t, ht⟩ := seats_iff.mp hfd
    exact seats_iff.mpr ⟨t, (h.seats t).trans ht⟩
  have htidy' := h.tidy.step hsmooth hserver
  have hseats' : ∀ t, (s'.mgr.active_games i).fd_of t = g.fd_of t :=
    fun t => (hslot.seats hactive t).trans (h.seats t)
  by_cases hacc : ∃ m, accepted s.mgr e = some (i, m)
  · -- one more move: on the board, on record and in the news
    obtain ⟨m, hacc⟩ := hacc
    obtain ⟨u, hu, htells⟩ := played_step_news h.tidy hsmooth hserver hacc
    have hmoves : moves_of (s'.record i) = moves_of (s.record i) ++ [m] := by
      rw [record_played hstep hactive hacc]
      exact List.map_append
    refine ⟨htidy', hseats', ?_, us ++ [u], ?_, ?_⟩
    · rw [hmoves, hslot.played_position hacc, h.position]
      unfold fold_moves
      rw [List.foldl_append]
      rfl
    · rw [hmoves]
      exact List.rel_append hus (.cons hu .nil)
    · intro fd hfd
      rw [sends_append, sends_singleton, news_append, hnews fd hfd, htells fd,
        if_pos (hseats fd hfd), List.map_append]
      rfl
  · have hnone : ∀ m, accepted s.mgr e ≠ some (i, m) := fun m hm => hacc ⟨m, hm⟩
    have hrecord := record_other hstep hactive hnone
    refine ⟨htidy', hseats', ?_, us, ?_, ?_⟩
    · rw [hrecord, hslot.position hactive hnone, h.position]
    · rw [hrecord]
      exact hus
    · intro fd hfd
      rw [sends_append, sends_singleton, news_append, hnews fd hfd,
        other_step_news h.tidy hsmooth hserver hactive hnone (hseats fd hfd), List.append_nil]

/-- Nothing has been told and recorded of a new game. -/
theorem Reported.start (htidy : Tidy s.mgr) (hsmooth : Smooth s.mgr (e, out))
    (hstep : recorded_server.step s (e, out) s')
    (hfree : (s.mgr.active_games i).is_active = false)
    (hactive : (s'.mgr.active_games i).is_active = true) :
    Reported i (s'.mgr.active_games i) [] s' := by
  obtain ⟨hserver, hrecord⟩ := recorded_step hstep
  have hempty : s'.record i = [] := by
    rw [hrecord]
    exact if_pos ⟨hfree, hactive⟩
  obtain ⟨_, _, _, _, _, _, hnew⟩ := ((step_change hserver).slot i).starts hfree hactive
  refine ⟨htidy.step hsmooth hserver, fun _ => rfl, ?_, [], ?_, fun _ _ => rfl⟩
  · rw [hempty, (new_game_spec hnew).2.1]
    exact init_startpos_eq _ _
  · rw [hempty]
    exact .nil

end step

/-! ## Agreement -/

/-- The message is a `MoveBroadcast`. -/
def is_broadcast : ServerMessage → Bool
  | .move_broadcast _ => true
  | _ => false

/-- The `MoveBroadcast`s are the updates. -/
theorem countP_is_broadcast (msgs : List ServerMessage) :
    (msgs.filterMap news_of).countP News.is_update = msgs.countP is_broadcast := by
  induction msgs with
  | nil => rfl
  | cons msg msgs ih =>
    cases msg with
    | move_broadcast b =>
      have hnews : news_of (.move_broadcast b) = some (.update (b.from_coord, b.to_coord)) := rfl
      rw [List.filterMap_cons_some hnews, List.countP_cons_of_pos (by rfl),
        List.countP_cons_of_pos (by rfl), ih]
    | match_game_res res =>
      rw [List.countP_cons_of_neg (by exact Bool.false_ne_true), ← ih]
      by_cases hstart : starts_game (.match_game_res res) = true
      · rw [List.filterMap_cons_some (news_of_start hstart)]
        exact List.countP_cons_of_neg (by exact Bool.false_ne_true)
      · rw [List.filterMap_cons_none (news_of_no_start hstart)]
    | _ => exact ih

/-- A client that has taken in a start message has news. -/
theorem news_ne_nil {msgs : List ServerMessage} {msg : ServerMessage} (hmem : msg ∈ msgs)
    (hstart : starts_game msg = true) : msgs.filterMap news_of ≠ [] := by
  cases msg with
  | match_game_res res =>
    exact List.ne_nil_of_mem (List.mem_filterMap.mpr ⟨_, hmem, news_of_start hstart⟩)
  | _ => cases hstart

section game

variable {i : Fin max_active_games} {l₀ : Event × List Sent} {s₁ s : Recorded}
  {ls : List (Event × List Sent)}

theorem GameRun.tidy_start (h : GameRun i l₀ s₁ ls s) : ∃ s₀ : Recorded, Tidy s₀.mgr ∧
    Smooth s₀.mgr l₀ ∧ recorded_server.step s₀ l₀ s₁ ∧
    (s₀.mgr.active_games i).is_active = false := by
  obtain ⟨pre, s₀, hpre, hsmooth, hstep, hfree⟩ := h.start
  refine ⟨s₀, ?_, hsmooth, hstep, hfree⟩
  apply hpre.invariant (P := fun s => Tidy s.mgr) ?_ tidy_init
  intro s l s' hs hok hst
  obtain ⟨e, out⟩ := l
  exact hs.step hok (recorded_step hst).1

/-- **The run lemma.** -/
theorem GameRun.reported (h : GameRun i l₀ s₁ ls s) :
    Reported i (s₁.mgr.active_games i) ls s := by
  obtain ⟨s₀, htidy, hsmooth, hstep, hfree⟩ := h.tidy_start
  obtain ⟨e₀, out₀⟩ := l₀
  apply h.run.history ?_ (.start htidy hsmooth hstep hfree h.started)
  intro ls s l s' hs hok hst
  obtain ⟨e, out⟩ := l
  exact hs.step hok hst

/-- The record of the game begins empty and grows move by move. -/
theorem GameRun.rewind (h : GameRun i l₀ s₁ ls s) {k : Nat} (hk : k ≤ (s.record i).length) :
    ∃ ls' s', ls' <+: ls ∧ GameRun i l₀ s₁ ls' s' ∧ s'.record i = (s.record i).take k := by
  have hempty : s₁.record i = [] := by
    obtain ⟨s₀, _, _, hstep, hfree⟩ := h.tidy_start
    obtain ⟨e₀, out₀⟩ := l₀
    rw [(recorded_step hstep).2]
    exact if_pos ⟨hfree, h.started⟩
  have hgrows : ∀ s l s', During i s l → recorded_server.step s l s' →
      s'.record i = s.record i ∨ ∃ a, s'.record i = s.record i ++ [a] := by
    intro s l s' hok hst
    obtain ⟨e, out⟩ := l
    by_cases hacc : ∃ m, accepted s.mgr e = some (i, m)
    · obtain ⟨m, hacc⟩ := hacc
      exact .inr ⟨_, record_played hst hok.active hacc⟩
    · exact .inl (record_other hst hok.active fun m hm => hacc ⟨m, hm⟩)
  have hlow : (s₁.record i).length ≤ k := by
    rw [hempty]
    exact Nat.zero_le k
  obtain ⟨ls', s', hpre, hrun, hrecord⟩ := h.run.rewind (fun s => s.record i) hgrows hlow hk
  exact ⟨ls', s', hpre, ⟨h.start, h.started, hrun⟩, hrecord⟩

/-- The news of either player: a reset, and the moves on record. -/
theorem GameRun.told (h : GameRun i l₀ s₁ ls s) (team : Team) :
    ∃ us, List.Forall₂ Decodes us (moves_of (s.record i)) ∧
      news ((s₁.mgr.active_games i).fd_of team) (sends (l₀ :: ls)) =
        .reset (init_startpos .zero) :: us.map .update := by
  obtain ⟨us, hus, hnews⟩ := h.reported.told
  obtain ⟨s₀, htidy, hsmooth, hstep, hfree⟩ := h.tidy_start
  obtain ⟨e₀, out₀⟩ := l₀
  have hseat : (s₁.mgr.active_games i).seats ((s₁.mgr.active_games i).fd_of team) = true :=
    seats_iff.mpr ⟨team, rfl⟩
  have hreset := started_step_news htidy hsmooth (recorded_step hstep).1 hfree h.started
    ((s₁.mgr.active_games i).fd_of team)
  rw [if_pos hseat] at hreset
  refine ⟨us, hus, ?_⟩
  rw [sends_cons, news_append, hreset, hnews _ hseat]
  rfl

end game

/-- **Board agreement.** Take any game of a smooth run, either player of it,
    and a client, in whatever state, that has processed messages in the
    order they were sent to that player, the start message among them.
    After `k` `MoveBroadcast`s its position is the one the server had after
    `k` accepted moves.  The server sends one `MoveBroadcast` for each
    accepted move, and no client rejects the coordinates in one. -/
theorem boards_agree {i : Fin max_active_games} {l₀ : Event × List Sent} {s₁ s : Recorded}
    {ls : List (Event × List Sent)} (h : GameRun i l₀ s₁ ls s) (team : Team)
    (client : ClientState) {seen : List (ClientEnv × ServerMessage)}
    (hfifo : seen.map Prod.snd <+: inbox ((s₁.mgr.active_games i).fd_of team) (sends (l₀ :: ls)))
    (hstart : ∃ m ∈ seen, starts_game m.2 = true) :
    (∃ ls' s', ls' <+: ls ∧ GameRun i l₀ s₁ ls' s' ∧
      (s'.record i).length = (seen.map Prod.snd).countP is_broadcast ∧
      (client_run client seen).game_state.game = (s'.mgr.active_games i).game_state) ∧
    (inbox ((s₁.mgr.active_games i).fd_of team) (sends (l₀ :: ls))).countP is_broadcast =
      (s.record i).length ∧
    ∀ b, .move_broadcast b ∈ inbox ((s₁.mgr.active_games i).fd_of team) (sends (l₀ :: ls)) →
      ∀ G, (apply_move_from_server G b.from_coord b.to_coord).2 = true := by
  obtain ⟨us, hus, hnews⟩ := h.told team
  have hlength : us.length = (s.record i).length := by
    rw [hus.length_eq]
    exact List.length_map _
  refine ⟨?_, ?_, ?_⟩
  · -- the client is a replica of the server's board
    obtain ⟨m, hm, hmstart⟩ := hstart
    have hprefix : (seen.map Prod.snd).filterMap news_of <+:
        .reset (init_startpos .zero) :: us.map .update := by
      rw [← hnews]
      exact hfifo.filterMap news_of
    obtain ⟨k, hk, hseen, hfollow⟩ := follow_prefix hprefix
      (news_ne_nil (List.mem_map_of_mem hm) hmstart) client.game_state.game
    have hcount : (seen.map Prod.snd).countP is_broadcast = k := by
      rw [← countP_is_broadcast, hseen, countP_is_update, List.length_take]
      exact Nat.min_eq_left hk
    rw [hlength] at hk
    obtain ⟨ls', s', hpre, hrun, hrecord⟩ := h.rewind hk
    refine ⟨ls', s', hpre, hrun, ?_, ?_⟩
    · rw [hcount, hrecord, List.length_take]
      exact Nat.min_eq_left hk
    · have hmoves : moves_of (s'.record i) = (moves_of (s.record i)).take k := by
        rw [hrecord]
        exact List.map_take
      calc (client_run client seen).game_state.game
          = (us.take k).foldl client_step (init_startpos .zero) := by
            rw [client_run_game, hfollow]
        _ = fold_moves ((moves_of (s.record i)).take k) :=
            foldl_congr₂ (fun G _ _ hdecodes => hdecodes.step G) (List.forall₂_take k hus) _
        _ = (s'.mgr.active_games i).game_state := by
            rw [hrun.reported.position, hmoves]
  · rw [← countP_is_broadcast, ← hlength, ← countP_is_update (init_startpos .zero) us, ← hnews]
    rfl
  · intro b hb G
    have hmem : News.update (b.from_coord, b.to_coord) ∈
        (News.reset (init_startpos .zero) :: us.map .update : List (News Game Coords)) := by
      rw [← hnews]
      exact List.mem_filterMap.mpr ⟨_, hb, rfl⟩
    rcases List.mem_cons.mp hmem with hreset | hupdate
    · cases hreset
    · -- the coordinates stand for a move on the board
      obtain ⟨u, hu, heq⟩ := List.mem_map.mp hupdate
      cases heq
      obtain ⟨n, hn, hget⟩ := List.getElem_of_mem hu
      have hdecodes := hus.get hn (hus.length_eq ▸ hn)
      rw [List.get_eq_getElem, hget] at hdecodes
      have happly := hdecodes.apply G
      simp only at happly
      rw [happly]

/-- A check for smooth steps. -/
def smooth (mgr : MatchManager) (l : Event × List Sent) : Bool :=
  l.2.all (fun s => s.ok) && fresh_request mgr l.1 &&
    match l.1 with
    | .message fd (.match_game _) _ => decide (0 ≤ fd)
    | _ => true

theorem smooth_sound {mgr : MatchManager} {l : Event × List Sent} (h : smooth mgr l = true) :
    Smooth mgr l := by
  unfold smooth at h
  rw [Bool.and_eq_true, Bool.and_eq_true] at h
  obtain ⟨⟨hsent, hfresh⟩, hfd⟩ := h
  refine ⟨List.all_eq_true.mp hsent, fresh_request_sound mgr l.1 l.2 hfresh, ?_⟩
  intro fd htakes
  obtain ⟨e, out⟩ := l
  cases e with
  | message fd' msg env =>
    cases msg with
    | match_game player_id =>
      obtain ⟨rfl, _, _⟩ := htakes
      exact of_decide_eq_true hfd
    | _ => exact htakes.elim
  | disconnect fd' env => exact htakes.elim
  | tick env => exact htakes.elim

/-- What happens in a short game: two moves, a move out of turn, an illegal
    one, one with malformed coordinates, and chat. -/
def short_game : List Event :=
  [.message 5 (.move ⟨"e7".toList, "e5".toList⟩) (.calm 0),
    .message 6 (.move ⟨"e2".toList, "e5".toList⟩) (.calm 0),
    .message 6 (.move ⟨"e2".toList, "e4".toList⟩) (.calm 0),
    .message 5 (.chat "hello".toList) (.calm 0),
    .message 5 (.move ⟨"e7e5".toList, "".toList⟩) (.calm 0),
    .message 5 (.move ⟨"e7".toList, "e5".toList⟩) (.calm 0)]

/-- The run of the short game: the steps before the start, the start and the
    steps of the game. -/
def short_game_run : Option ((List (Event × List Sent) × Recorded) × (Recorded × List Sent) ×
    (List (Event × List Sent) × Recorded)) := do
  let pre ← exec (guarded (fun s l => smooth s.mgr l) recorded_run) .initial
    [.message 5 (.match_game "ann".toList) (.calm 0)]
  let start ← guarded (fun s l => smooth s.mgr l) recorded_run pre.2
    (.message 6 (.match_game "bob".toList) (.calm 0))
  let game ← exec (guarded (fun s l => smooth s.mgr l && (s.mgr.active_games 0).is_active)
    recorded_run) start.1 short_game
  return (pre, start, game)

theorem short_game_runs : short_game_run.map (fun r =>
    ((r.1.2.mgr.active_games 0).is_active, (r.2.1.1.mgr.active_games 0).is_active,
      (r.2.1.1.mgr.active_games 0).fd_of .black, (r.2.2.2.record 0).length,
      (inbox 5 (sends ((.message 6 (.match_game "bob".toList) (.calm 0), r.2.1.2) ::
        r.2.2.1))).any starts_game)) =
    some (false, true, 5, 2, true) := by
  decide +kernel

/-- A client that waits for an opponent. -/
def waiting_client : ClientState :=
  { username := "ann".toList, current_screen := .matching
    game_state :=
      { game := .zero, chat_messages := [], local_player := [], opponent_player := []
        local_team := .white, game_in_progress := false, game_start_time := 0
        white_time_remaining := 0, black_time_remaining := 0, last_timer_update := 0
        white_time_at_last_sync := 0, black_time_at_last_sync := 0
        opponent_disconnected := false, opponent_disconnect_message := []
        white_in_check := false, black_in_check := false, pgn_moves := [], pgn_result := [] }
    dialog_active := false, resign_result_dialog_pending := false, resign_result_title := []
    resign_result_message := [], game_end_dialog_pending := false, game_end_message := []
    screen_update_requested := false, saved := [] }

/-- After the short game Black's client shows the server's board after two
    moves. -/
theorem boards_agree_short_game :
    ∃ l₀ s₁ ls s, GameRun 0 l₀ s₁ ls s ∧ (s.record 0).length = 2 ∧
      ∃ s' : Recorded, (s'.record 0).length = 2 ∧
        (client_run waiting_client ((inbox 5 (sends (l₀ :: ls))).map
          fun msg => (⟨fun _ => 0, true, true⟩, msg))).game_state.game =
            (s'.mgr.active_games 0).game_state := by
  obtain ⟨⟨⟨pre, s₀⟩, ⟨s₁, out⟩, ls, s⟩, hrun, hfacts⟩ := Option.map_eq_some_iff.mp short_game_runs
  simp only [Prod.mk.injEq] at hfacts
  obtain ⟨hfree, hactive, hfd, hlength, hany⟩ := hfacts
  unfold short_game_run at hrun
  obtain ⟨r, hpre, hrun⟩ := Option.bind_eq_some_iff.mp hrun
  obtain ⟨r', hstart, hrun⟩ := Option.bind_eq_some_iff.mp hrun
  obtain ⟨r'', hgame, hrun⟩ := Option.bind_eq_some_iff.mp hrun
  cases hrun
  obtain ⟨hstep, hsmooth⟩ := Option.filter_eq_some_iff.mp hstart
  -- the executed steps were checked, so the run is smooth
  have h : GameRun 0 (.message 6 (.match_game "bob".toList) (.calm 0), out) s₁ ls s := by
    refine ⟨⟨pre, s₀, ?_, smooth_sound hsmooth, hstep, hfree⟩, hactive, ?_⟩
    · exact exec_runWhere (fun _ _ => smooth_sound) hpre
    · apply exec_runWhere (fun _ _ hcheck => ?_) hgame
      obtain ⟨hs, ha⟩ := Bool.and_eq_true_iff.mp hcheck
      exact ⟨smooth_sound hs, ha⟩
  refine ⟨_, s₁, ls, s, h, hlength, ?_⟩
  rw [← hfd] at hany ⊢
  obtain ⟨msg, hmsg, hstarts⟩ := List.any_eq_true.mp hany
  have hall : ((inbox ((s₁.mgr.active_games 0).fd_of .black) (sends
      ((Event.message 6 (.match_game "bob".toList) (.calm 0), out) :: ls))).map
        fun msg => ((⟨fun _ => 0, true, true⟩ : ClientEnv), msg)).map Prod.snd =
      inbox ((s₁.mgr.active_games 0).fd_of .black) (sends
        ((Event.message 6 (.match_game "bob".toList) (.calm 0), out) :: ls)) :=
    List.map_map.trans (List.map_id _)
  obtain ⟨⟨_, s', _, _, hcount, hgame⟩, htotal, _⟩ := boards_agree h .black waiting_client
    ⟨[], by rw [hall, List.append_nil]⟩ ⟨_, List.mem_map_of_mem hmsg, hstarts⟩
  rw [hall, htotal, hlength] at hcount
  exact ⟨s', hcount, hgame⟩

end MultiplayChess
