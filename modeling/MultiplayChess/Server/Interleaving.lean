import MultiplayChess.Server.Announcements
import MultiplayChess.Server.Failures

/-! # The move handler and the timer thread

    The move handler takes the mutex three times: in the lookup of the
    game, around the move and its broadcasts, and in `remove_game`.  In
    between the timer thread can end the game, and the handler, which only
    keeps a pointer to the game, does not notice.  The main thread handles
    one message after the other, so nothing else can come in between. -/

namespace MultiplayChess

open LTS Loop
open Chess (Move)

/-! ## Schedules -/

/-- Where the main thread stands: outside the move handler, behind the
    lookup of the game, or before `remove_game`. -/
inductive Pc where
  | idle
  | found (fd : Int) (req : MoveRequest) (i : Fin max_active_games)
  | ended (i : Fin max_active_games)

structure Sched where
  mgr : MatchManager
  pc : Pc

/-- The steps of the two threads.  Move requests are handled by `lookup`,
    `check` and `remove`, all other events are one step each. -/
inductive Act where
  | event (e : Event)
  | lookup (fd : Int) (req : MoveRequest) (env : Env)
  | check (env : Env)
  | remove

def Sched.initial : Sched :=
  ⟨init_match_manager, .idle⟩

/-- The timer thread runs at any time, the main thread when it is idle. -/
def Sched.may_happen (s : Sched) : Event → Bool
  | .tick _ => true
  | .message _ (.move _) _ => false
  | _ =>
    match s.pc with
    | .idle => true
    | _ => false

def sched_run (s : Sched) : Act → Option (Sched × List Sent)
  | .event e =>
    if s.may_happen e then (server_run s.mgr e).map fun r => (⟨r.1, s.pc⟩, r.2) else none
  | .lookup fd req env =>
    match s.pc with
    | .idle =>
      match find_game_by_player_fd s.mgr fd with
      | none =>
        let sent := send_move_error env [] fd [] [] "You are not in an active game".toList
        some (s, (report_error env fd ⟨s.mgr, sent.1, sent.2⟩).out)
      | some i => some (⟨s.mgr, .found fd req i⟩, [])
    | _ => none
  | .check env =>
    match s.pc with
    | .found fd req i =>
      let run := move_in_game s.mgr env fd req i
      some (⟨run.1.mgr, if run.2 then .ended i else .idle⟩, (report_error env fd run.1).out)
    | _ => none
  | .remove =>
    match s.pc with
    | .ended i => some (⟨remove_game s.mgr (s.mgr.active_games i).game_id, .idle⟩, [])
    | _ => none

/-- The two threads of the server. -/
def sched : System Sched (Act × List Sent) :=
  ofStep (fun s => s = .initial) sched_run

/-! ## Undisturbed moves -/

/-- The move handler without the timer thread in between is the atomic
    handler. -/
theorem undisturbed_move (mgr : MatchManager) (env : Env) (fd : Int) (req : MoveRequest) :
    ∃ ls, Run sched ⟨mgr, .idle⟩ ls ⟨(handle_move_message mgr env fd req).mgr, .idle⟩ ∧
      sends ls = (report_error env fd (handle_move_message mgr env fd req)).out := by
  have hnil : Run sched ⟨mgr, .idle⟩ [] ⟨mgr, .idle⟩ := .nil
  unfold handle_move_message
  cases hfind : find_game_by_player_fd mgr fd with
  | none =>
    simp only
    -- without a game the first critical section is the last
    refine ⟨[(.lookup fd req env, _)], hnil.snoc (l := (_, _)) ?_, sends_singleton _⟩
    show sched_run _ _ = _
    simp only [sched_run, hfind]
  | some i =>
    simp only
    have hlookup : sched.step ⟨mgr, .idle⟩ (.lookup fd req env, []) ⟨mgr, .found fd req i⟩ := by
      show sched_run _ _ = _
      simp only [sched_run, hfind]
    have hcheck : sched.step ⟨mgr, .found fd req i⟩
        (.check env, (report_error env fd (move_in_game mgr env fd req i).1).out)
        ⟨(move_in_game mgr env fd req i).1.mgr,
          if (move_in_game mgr env fd req i).2 then .ended i else .idle⟩ := rfl
    have hrun := (hnil.snoc hlookup).snoc hcheck
    by_cases hended : (move_in_game mgr env fd req i).2 = true
    · rw [if_pos hended] at hrun ⊢
      -- the game is over, and its removal is a third section
      have hremove : sched.step ⟨(move_in_game mgr env fd req i).1.mgr, .ended i⟩ (.remove, [])
          ⟨remove_game (move_in_game mgr env fd req i).1.mgr
            ((move_in_game mgr env fd req i).1.mgr.active_games i).game_id, .idle⟩ := rfl
      refine ⟨_, hrun.snoc hremove, ?_⟩
      simp only [sends_append, sends_singleton, List.append_nil, List.nil_append]
      unfold report_error
      simp only
      split <;> rfl
    · rw [if_neg hended] at hrun ⊢
      refine ⟨_, hrun, ?_⟩
      simp only [sends_append, sends_singleton, List.nil_append]

/-- **Every run of the atomic server is a schedule** with the same sends. -/
theorem Run.scheduled {mgr : MatchManager} {ls : List (Event × List Sent)}
    (h : Run server init_match_manager ls mgr) :
    ∃ ls', Run sched .initial ls' ⟨mgr, .idle⟩ ∧ sends ls' = sends ls := by
  induction h with
  | nil => exact ⟨[], .nil, rfl⟩
  | @snoc mgr mgr' ls l _ _ hstep ih =>
    obtain ⟨ls', hrun, hsends⟩ := ih
    obtain ⟨e, out⟩ := l
    by_cases hmove : ∃ fd req env, e = .message fd (.move req) env
    · -- a move takes two or three sections, any other step is one
      obtain ⟨fd, req, env, rfl⟩ := hmove
      obtain ⟨o, ho, rfl, rfl⟩ := message_step_ok hstep
      cases ho
      obtain ⟨ls'', hmove, hsent⟩ := undisturbed_move mgr env fd req
      refine ⟨ls' ++ ls'', hrun.append hmove, ?_⟩
      rw [sends_append, sends_append, hsends, hsent, sends_singleton]
    · have hstep' : sched.step ⟨mgr, .idle⟩ (.event e, out) ⟨mgr', .idle⟩ := by
        have hrun : server_run mgr e = some (mgr', out) := hstep
        have hmay : (Sched.mk mgr .idle).may_happen e = true := by
          cases e with
          | tick env => rfl
          | disconnect fd env => rfl
          | message fd msg env =>
            cases msg <;> first | rfl | exact absurd ⟨_, _, _, rfl⟩ hmove
        show sched_run _ _ = _
        simp only [sched_run, hmay, if_true, hrun, Option.map_some]
      refine ⟨ls' ++ [(.event e, out)], hrun.snoc hstep', ?_⟩
      rw [sends_append, sends_append, hsends, sends_singleton, sends_singleton]

/-! ## What a step can do -/

/-- The request passes the tests of the move handler on the game in slot
    `i`, whether or not that game is still active. -/
def Passes (mgr : MatchManager) (fd : Int) (req : MoveRequest) (i : Fin max_active_games) : Prop :=
  ∃ team squares, player_team (mgr.active_games i) fd = some team ∧
    check_move (mgr.active_games i).game_state team req = .ok squares

/-- The move handler is about to perform a move in game `i` or to remove
    it. -/
def Pc.uses (mgr : MatchManager) (i : Fin max_active_games) : Pc → Prop
  | .idle => False
  | .found fd req j => j = i ∧ Passes mgr fd req i
  | .ended j => j = i

/-- What one step of the two threads can do. -/
inductive SchedChange (s : Sched) : Act × List Sent → Sched → Prop where
  | event {e : Event} {out : List Sent} {mgr' : MatchManager} :
      (∃ env, e = .tick env) ∨ s.pc = .idle → (∀ fd req env, e ≠ .message fd (.move req) env) →
      server.step s.mgr (e, out) mgr' → SchedChange s (.event e, out) ⟨mgr', s.pc⟩
  | lookup {fd : Int} {req : MoveRequest} {env : Env} {out : List Sent} {pc' : Pc} :
      s.pc = .idle → (∀ id, announced id out = []) →
      (pc' = .idle ∨ ∃ i, find_game_by_player_fd s.mgr fd = some i ∧ pc' = .found fd req i) →
      SchedChange s (.lookup fd req env, out) ⟨s.mgr, pc'⟩
  | rejected {fd : Int} {req : MoveRequest} {i : Fin max_active_games} {env : Env}
      {out : List Sent} :
      s.pc = .found fd req i → ¬ Passes s.mgr fd req i → (∀ id, announced id out = []) →
      SchedChange s (.check env, out) ⟨s.mgr, .idle⟩
  | performed {fd : Int} {req : MoveRequest} {i : Fin max_active_games} {env : Env} {m : Move}
      {out : List Sent} {pc' : Pc} :
      s.pc = .found fd req i → Passes s.mgr fd req i →
      (∀ id, announced id out = [] ∨ pc' = .ended i ∧ (s.mgr.active_games i).game_id = id ∧
        ∃ winner, (announced id out).Subperm ((s.mgr.active_games i).ending winner)) →
      pc' = .idle ∨ pc' = .ended i →
      SchedChange s (.check env, out) ⟨s.mgr.set_game i (game_after s.mgr env i m), pc'⟩
  | remove {i : Fin max_active_games} :
      s.pc = .ended i →
      SchedChange s (.remove, []) ⟨remove_game s.mgr (s.mgr.active_games i).game_id, .idle⟩

/-- The move and its broadcasts: an announcement goes to both seats and is
    made exactly if the handler goes on to `remove_game`. -/
theorem announced_move (mgr : MatchManager) (env : Env) {fd : Int} (req : MoveRequest)
    {team : Team} {game : ActiveGame} (hfd : game.fd_of team = fd) (id : CString) :
    announced id (announce_move mgr env fd req team game).1.out = [] ∨
      (announce_move mgr env fd req team game).2 = true ∧ game.game_id = id ∧
        (announced id (announce_move mgr env fd req team game).1.out).Subperm
          (game.ending ((game_end game.game_state).getD (.unspecified, .unknown)).1) := by
  cases hsent : env.sends 0 with
  | false =>
    rw [announce_move_failed _ _ _ _ hsent]
    exact .inl rfl
  | true =>
    rw [announce_move_sent _ _ _ _ hsent]
    -- the response ends no game; the broadcasts do if the position does
    have hbroadcast : ∀ fd' timestamp ok, announced id [⟨fd', .move_broadcast
        (move_broadcast game (game.player_id team) req timestamp), ok⟩] =
          if (game_end game.game_state).isSome = true ∧ game.game_id = id then
            [(fd', ((game_end game.game_state).getD (.unspecified, .unknown)).1)] else [] := by
      intro fd' timestamp ok
      unfold announced announcement terminal move_broadcast
      by_cases hend : (game_end game.game_state).isSome = true
      · by_cases hid : game.game_id = id
        · simp [hend, hid]
        · simp [hend, hid]
      · simp [hend]
    have hout : ∀ a b c : Sent, announced id [a, b, c] =
        announced id [a] ++ (announced id [b] ++ announced id [c]) := by
      intro a b c
      rw [← announced_append, ← announced_append]
      rfl
    simp only [hout, hbroadcast]
    by_cases hcond : (game_end game.game_state).isSome = true ∧ game.game_id = id
    · refine .inr ⟨hcond.1, hcond.2, ?_⟩
      rw [if_pos hcond, if_pos hcond, ← hfd]
      cases team with
      | white => exact (List.Perm.swap ..).subperm
      | black => exact List.Subperm.refl _
    · rw [if_neg hcond, if_neg hcond]
      exact .inl rfl

theorem move_in_game_change {s : Sched} {env : Env} {fd : Int} {req : MoveRequest}
    {i : Fin max_active_games} (hpc : s.pc = .found fd req i) :
    SchedChange s (.check env, (report_error env fd (move_in_game s.mgr env fd req i).1).out)
      ⟨(move_in_game s.mgr env fd req i).1.mgr,
        if (move_in_game s.mgr env fd req i).2 then .ended i else .idle⟩ := by
  unfold move_in_game
  cases hteam : player_team (s.mgr.active_games i) fd with
  | none =>
    simp only [hteam, Bool.false_eq_true, if_false]
    refine .rejected hpc ?_ ?_
    · intro ⟨team, squares, hteam', _⟩
      rw [hteam] at hteam'
      cases hteam'
    · intro id
      rw [announced_report_error]
      exact Silent.announced_eq (Only.nil.send rfl) id
  | some team =>
    cases hcheck : check_move (s.mgr.active_games i).game_state team req with
    | error msg =>
      simp only [hteam, hcheck, Bool.false_eq_true, if_false]
      refine .rejected hpc ?_ ?_
      · intro ⟨team', squares, hteam', hcheck'⟩
        rw [hteam] at hteam'
        cases hteam'
        rw [hcheck] at hcheck'
        cases hcheck'
      · intro id
        rw [announced_report_error]
        exact Silent.announced_eq (Only.nil.send rfl) id
    | ok squares =>
      -- the move is legal: it is played, and announced if it ends the game
      obtain ⟨src, dst⟩ := squares
      simp only [hteam, hcheck, announce_move_mgr]
      refine .performed (m := ⟨src.1, src.2, dst.1, dst.2⟩) hpc ⟨team, _, hteam, hcheck⟩ ?_ ?_
      · intro id
        rw [announced_report_error]
        have hfd : (game_after s.mgr env i ⟨src.1, src.2, dst.1, dst.2⟩).fd_of team = fd :=
          (game_after_fd_of team).trans (player_team_fd hteam)
        rcases announced_move (s.mgr.set_game i _) env req hfd id with hnone | ⟨hend, hid, hsub⟩
        · exact .inl hnone
        · exact .inr ⟨if_pos hend, hid, _, hsub⟩
      · split
        · exact .inr rfl
        · exact .inl rfl

/-- An event that is handled in one step is a tick, or the main thread is
    idle; and it is no move request. -/
theorem may_happen_spec {s : Sched} {e : Event} (h : s.may_happen e = true) :
    ((∃ env, e = .tick env) ∨ s.pc = .idle) ∧ ∀ fd req env, e ≠ .message fd (.move req) env := by
  obtain ⟨mgr, pc⟩ := s
  constructor
  · cases e with
    | tick env => exact .inl ⟨env, rfl⟩
    | disconnect fd env =>
      cases pc <;> first | exact .inr rfl | cases h
    | message fd msg env =>
      cases msg <;> cases pc <;> first | exact .inr rfl | cases h
  · intro fd req env he
    rw [he] at h
    cases h

theorem sched_event_change {s s' : Sched} {e : Event} {out : List Sent}
    (h : sched_run s (.event e) = some (s', out)) : SchedChange s (.event e, out) s' := by
  simp only [sched_run] at h
  split at h
  · rename_i hmay
    obtain ⟨⟨mgr', out'⟩, hserver, heq⟩ := Option.map_eq_some_iff.mp h
    cases heq
    obtain ⟨hwho, hno_move⟩ := may_happen_spec hmay
    exact .event hwho hno_move hserver
  · cases h

/-- The lookup answers the request if there is no game, and remembers the
    game otherwise. -/
theorem sched_lookup_change {s s' : Sched} {fd : Int} {req : MoveRequest} {env : Env}
    {out : List Sent} (h : sched_run s (.lookup fd req env) = some (s', out)) :
    SchedChange s (.lookup fd req env, out) s' := by
  obtain ⟨mgr, pc⟩ := s
  cases pc with
  | found fd' req' i => cases h
  | ended i => cases h
  | idle =>
    simp only [sched_run] at h
    split at h
    · cases h
      apply SchedChange.lookup rfl ?_ (.inl rfl)
      intro id
      rw [announced_report_error]
      exact Silent.announced_eq (Only.nil.send rfl) id
    · rename_i i hfind
      cases h
      exact .lookup rfl (fun _ => rfl) (.inr ⟨i, hfind, rfl⟩)

/-- **What a step of the two threads can do.** -/
theorem sched_step_change {s s' : Sched} {l : Act × List Sent} (h : sched.step s l s') :
    SchedChange s l s' := by
  obtain ⟨a, out⟩ := l
  have hrun : sched_run s a = some (s', out) := h
  cases a with
  | event e => exact sched_event_change hrun
  | lookup fd req env => exact sched_lookup_change hrun
  | check env =>
    obtain ⟨mgr, pc⟩ := s
    cases pc with
    | idle => cases hrun
    | ended i => cases hrun
    | found fd req i =>
      cases hrun
      exact move_in_game_change rfl
  | remove =>
    obtain ⟨mgr, pc⟩ := s
    cases pc with
    | idle => cases hrun
    | found fd req i => cases hrun
    | ended i =>
      cases hrun
      exact .remove rfl

/-! ## Schedules without a race -/

/-- No tick takes the last time of a player whose game the move handler is
    about to use. -/
def NoRace (s : Sched) (l : Act × List Sent) : Prop :=
  ∀ env i, l.1 = .event (.tick env) → s.pc.uses s.mgr i →
    ¬ RunsOut (env.ms 0) (s.mgr.active_games i)

/-- The invariant: ids are unique, announced ids are not issued again, a
    game in the table was not announced unless the move handler is about to
    remove it, and the game it is about to use is in the table. -/
structure Orderly (ls : List (Act × List Sent)) (s : Sched) : Prop where
  ids : IdsOk s.mgr
  issued : ∀ id, announced id (sends ls) ≠ [] → IssuedBefore s.mgr.counter id
  unannounced : ∀ i, (s.mgr.active_games i).is_active = true →
    announced (s.mgr.active_games i).game_id (sends ls) ≠ [] → s.pc = .ended i
  in_table : ∀ i, s.pc.uses s.mgr i → (s.mgr.active_games i).is_active = true

/-- A move neither starts a game nor changes an id. -/
theorem game_after_slot {mgr : MatchManager} {env : Env} {m : Move} {i j : Fin max_active_games}
    (hactive : ((mgr.set_game j (game_after mgr env j m)).active_games i).is_active = true) :
    (mgr.active_games i).is_active = true ∧
      ((mgr.set_game j (game_after mgr env j m)).active_games i).game_id =
        (mgr.active_games i).game_id := by
  by_cases hij : i = j
  · rw [hij, set_game_self] at hactive ⊢
    exact ⟨hactive, rfl⟩
  · rw [set_game_ne mgr _ hij] at hactive ⊢
    exact ⟨hactive, rfl⟩

/-- Neither does `remove_game`. -/
theorem remove_game_slot_active {mgr : MatchManager} {id : CString} {i : Fin max_active_games}
    (hactive : ((remove_game mgr id).active_games i).is_active = true) :
    (mgr.active_games i).is_active = true ∧
      ((remove_game mgr id).active_games i).game_id = (mgr.active_games i).game_id := by
  rcases remove_game_slot mgr id i with hsame | hended
  · rw [hsame] at hactive ⊢
    exact ⟨hactive, rfl⟩
  · rw [hended] at hactive
    cases hactive

/-- The slots of the game table after a step of the two threads. -/
theorem SchedChange.slot {s s' : Sched} {l : Act × List Sent} (h : SchedChange s l s')
    (hids : IdsOk s.mgr) {i : Fin max_active_games}
    (hactive : (s'.mgr.active_games i).is_active = true) :
    ((s.mgr.active_games i).is_active = true ∧
        (s'.mgr.active_games i).game_id = (s.mgr.active_games i).game_id) ∨
      (Serial s.mgr.counter ∧
        ∃ time, (s'.mgr.active_games i).game_id = game_id_text time s.mgr.counter) := by
  cases h with
  | event _ _ hstep =>
    rcases ((step_change hstep).slot i).id_cases hactive with hold | ⟨_, hlt, hnew⟩
    · exact .inl hold
    · exact .inr ⟨⟨hids.counter_pos, hlt⟩, hnew⟩
  | lookup _ _ _ => exact .inl ⟨hactive, rfl⟩
  | rejected _ _ _ => exact .inl ⟨hactive, rfl⟩
  | performed _ _ _ _ => exact .inl (game_after_slot hactive)
  | remove _ => exact .inl (remove_game_slot_active hactive)

theorem remove_game_counter (mgr : MatchManager) (id : CString) :
    (remove_game mgr id).counter = mgr.counter := by
  unfold remove_game
  split <;> rfl

/-- Steps inside the move handler keep the ids of the active games. -/
theorem IdsOk.kept {mgr mgr' : MatchManager} (h : IdsOk mgr) (hcounter : mgr'.counter = mgr.counter)
    (hslots : ∀ i, (mgr'.active_games i).is_active = true →
      (mgr.active_games i).is_active = true ∧
        (mgr'.active_games i).game_id = (mgr.active_games i).game_id) : IdsOk mgr' where
  counter_pos := by
    rw [hcounter]
    exact h.counter_pos
  issued := by
    intro i hactive
    obtain ⟨hwas, hid⟩ := hslots i hactive
    rw [hid, hcounter]
    exact h.issued i hwas
  distinct := by
    intro i j hi hj hids
    obtain ⟨hwi, hidi⟩ := hslots i hi
    obtain ⟨hwj, hidj⟩ := hslots j hj
    exact h.distinct i j hwi hwj (by rw [← hidi, ← hidj, hids])

theorem SchedChange.ids {s s' : Sched} {l : Act × List Sent} (h : SchedChange s l s')
    (hids : IdsOk s.mgr) : IdsOk s'.mgr ∧ s.mgr.counter ≤ s'.mgr.counter := by
  cases h with
  | event _ _ hstep =>
    refine ⟨hids.step (step_change hstep), ?_⟩
    rcases (step_change hstep).counter_cases with hc | ⟨_, _, hc⟩
    · exact Int.le_of_eq hc.symm
    · have : s.mgr.counter ≤ s.mgr.counter + 1 := by omega
      rwa [← hc] at this
  | lookup _ _ _ => exact ⟨hids, Int.le_refl _⟩
  | rejected _ _ _ => exact ⟨hids, Int.le_refl _⟩
  | performed _ _ _ _ => exact ⟨hids.kept rfl fun _ => game_after_slot, Int.le_refl _⟩
  | remove _ =>
    exact ⟨hids.kept (remove_game_counter ..) fun _ => remove_game_slot_active,
      Int.le_of_eq (remove_game_counter ..).symm⟩

/-- A tick changes nothing the tests of the move handler look at. -/
theorem Passes.of_ticked {mgr mgr' : MatchManager} {now : Int} {fd : Int} {req : MoveRequest}
    {i : Fin max_active_games} (ht : Ticked now (mgr.active_games i) (mgr'.active_games i))
    (h : Passes mgr' fd req i) : Passes mgr fd req i := by
  obtain ⟨team, squares, hteam, hcheck⟩ := h
  obtain ⟨hstate, hfd, _⟩ := ht.frame
  have hwhite : (mgr'.active_games i).white_player_fd = (mgr.active_games i).white_player_fd :=
    hfd .white
  have hblack : (mgr'.active_games i).black_player_fd = (mgr.active_games i).black_player_fd :=
    hfd .black
  unfold player_team at hteam
  rw [hwhite, hblack] at hteam
  rw [hstate] at hcheck
  exact ⟨team, squares, hteam, hcheck⟩

/-- What the steps announce: a game that was not announced before, to each
    seat at most once and with one winner, and the game is over. -/
theorem Orderly.announces {ls : List (Act × List Sent)} {s s' : Sched} {l : Act × List Sent}
    (h : Orderly ls s) (hok : NoRace s l) (hchange : SchedChange s l s') (id : CString) :
    announced id l.2 = [] ∨
      announced id (sends ls) = [] ∧ ∃ i winner, (s.mgr.active_games i).is_active = true ∧
        (s.mgr.active_games i).game_id = id ∧
        ((s'.mgr.active_games i).is_active = false ∨ s'.pc = .ended i) ∧
        (announced id l.2).Subperm ((s.mgr.active_games i).ending winner) := by
  cases hchange with
  | lookup _ hsilent _ => exact .inl (hsilent id)
  | rejected _ _ hsilent => exact .inl (hsilent id)
  | remove _ => exact .inl rfl
  | @event e out mgr' hwho hmove hstep =>
    rcases step_announces h.ids hstep hmove id with hnone | ⟨i, winner, hactive, hid, hended, hsub⟩
    · exact .inl hnone
    · refine .inr ⟨?_, i, winner, hactive, hid, .inl hended, hsub⟩
      -- only a tick could end the game that the move handler has announced
      by_contra hbefore
      have hpc := h.unannounced i hactive (by rwa [hid])
      rcases hwho with ⟨env, rfl⟩ | hidle
      · have huses : s.pc.uses s.mgr i := by
          rw [hpc]
          exact rfl
        have := (tick_step_slots hstep i).still_active hactive (hok env i rfl huses)
        rw [this] at hended
        cases hended
      · rw [hidle] at hpc
        cases hpc
  | @performed fd req i env m out pc' hpc hpass hann _ =>
    rcases hann id with hnone | ⟨hpc', hid, winner, hsub⟩
    · exact .inl hnone
    · have hactive := h.in_table i (by rw [hpc]; exact ⟨rfl, hpass⟩)
      refine .inr ⟨?_, i, winner, hactive, hid, .inr hpc', hsub⟩
      by_contra hbefore
      have := h.unannounced i hactive (by rwa [hid])
      rw [hpc] at this
      cases this

/-- What is announced after a step was announced before or by the step. -/
theorem announced_snoc {ls : List (Act × List Sent)} {l : Act × List Sent} {id : CString}
    (hne : announced id (sends (ls ++ [l])) ≠ []) :
    announced id (sends ls) ≠ [] ∨ announced id l.2 ≠ [] := by
  rw [sends_append, sends_singleton, announced_append] at hne
  by_contra hnone
  rw [not_or, not_not, not_not] at hnone
  exact hne (by rw [hnone.1, hnone.2, List.append_nil])

section orderly_step

variable {ls : List (Act × List Sent)} {s s' : Sched} {l : Act × List Sent}

/-- Only ids already issued are announced. -/
theorem Orderly.announced_issued (h : Orderly ls s) (hok : NoRace s l)
    (hchange : SchedChange s l s') {id : CString}
    (hne : announced id (sends (ls ++ [l])) ≠ []) : IssuedBefore s.mgr.counter id := by
  rcases announced_snoc hne with hbefore | hnow
  · exact h.issued id hbefore
  · rcases h.announces hok hchange id with hnone | ⟨_, i, _, hactive, hid, _, _⟩
    · exact absurd hnone hnow
    · rw [← hid]
      exact h.ids.issued i hactive

/-- A game announced earlier stays in the table only while the handler
    stands before `remove_game`. -/
theorem Orderly.still_ending (h : Orderly ls s) (hchange : SchedChange s l s')
    {i : Fin max_active_games} (hwas : (s.mgr.active_games i).is_active = true)
    (hbefore : announced (s.mgr.active_games i).game_id (sends ls) ≠ [])
    (hactive : (s'.mgr.active_games i).is_active = true) : s'.pc = .ended i := by
  have hpc := h.unannounced i hwas hbefore
  cases hchange with
  | event _ _ _ => exact hpc
  | lookup hidle _ _ =>
    rw [hidle] at hpc
    cases hpc
  | rejected hfound _ _ =>
    rw [hfound] at hpc
    cases hpc
  | performed hfound _ _ _ =>
    rw [hfound] at hpc
    cases hpc
  | @remove j hended =>
    rw [hpc, Pc.ended.injEq] at hended
    subst hended
    rw [h.ids.remove_game_eq hwas, end_game_self] at hactive
    cases hactive

/-- A game in the table is unannounced after the step, unless it is about
    to be removed. -/
theorem Orderly.unannounced_step (h : Orderly ls s) (hok : NoRace s l)
    (hchange : SchedChange s l s') {i : Fin max_active_games}
    (hactive : (s'.mgr.active_games i).is_active = true)
    (hne : announced (s'.mgr.active_games i).game_id (sends (ls ++ [l])) ≠ []) :
    s'.pc = .ended i := by
  rcases hchange.slot h.ids hactive with ⟨hwas, hid⟩ | ⟨hserial, time, hid⟩
  · rcases announced_snoc hne with hbefore | hnow
    · rw [hid] at hbefore
      exact h.still_ending hchange hwas hbefore hactive
    · rcases h.announces hok hchange _ with hnone | ⟨_, j, _, hactive', hid', hend, _⟩
      · exact absurd hnone hnow
      · -- it was this game that the step has announced
        have hji : j = i := h.ids.distinct j i hactive' hwas (hid'.trans hid)
        rw [hji] at hend
        rcases hend with hend | hend
        · rw [hactive] at hend
          cases hend
        · exact hend
  · -- a new game has a new id
    have hissued := h.announced_issued hok hchange hne
    rw [hid] at hissued
    exact absurd rfl (hissued.ne_new hserial)

/-- The game the handler is about to use stays in the table. -/
theorem Orderly.in_table_step (h : Orderly ls s) (hok : NoRace s l)
    (hchange : SchedChange s l s') {i : Fin max_active_games} (huses : s'.pc.uses s'.mgr i) :
    (s'.mgr.active_games i).is_active = true := by
  cases hchange with
  | @event e out mgr' hwho hmove hstep =>
    rcases hwho with ⟨env, rfl⟩ | hidle
    · -- a tick: by assumption the clock of this game does not run out
      have hticked := tick_step_slots hstep i
      have huses' : s.pc.uses s.mgr i := by
        revert huses
        cases s.pc with
        | idle => exact id
        | ended j => exact id
        | found fd req j =>
          intro ⟨hij, hpass⟩
          exact ⟨hij, hpass.of_ticked hticked⟩
      exact hticked.still_active (h.in_table i huses') (hok env i rfl huses')
    · simp only [hidle] at huses
      exact huses.elim
  | lookup _ _ hpc' =>
    rcases hpc' with rfl | ⟨j, hfind, rfl⟩
    · exact huses.elim
    · obtain ⟨rfl, _⟩ := huses
      exact (find_game_spec hfind).1
  | rejected _ _ _ => exact huses.elim
  | @performed fd req j env m out pc' hpc hpass _ hpc' =>
    rcases hpc' with rfl | rfl
    · exact huses.elim
    · obtain rfl : j = i := huses
      have hactive := h.in_table j (by rw [hpc]; exact ⟨rfl, hpass⟩)
      simp only [set_game_self]
      exact hactive
  | remove _ => exact huses.elim

/-- **The step lemma.** -/
theorem Orderly.step (h : Orderly ls s) (hok : NoRace s l) (hchange : SchedChange s l s') :
    Orderly (ls ++ [l]) s' := by
  obtain ⟨hids', hle⟩ := hchange.ids h.ids
  exact {
    ids := hids'
    issued := fun _ hne => (h.announced_issued hok hchange hne).mono hle
    unannounced := fun _ hactive hne => h.unannounced_step hok hchange hactive hne
    in_table := fun _ huses => h.in_table_step hok hchange huses }

end orderly_step

theorem orderly_initial : Orderly [] .initial where
  ids := ids_ok_init
  issued := by
    intro id hne
    exact absurd rfl hne
  unannounced := by
    intro i hactive
    cases hactive
  in_table := by
    intro i huses
    exact huses.elim

theorem orderly_step {ls : List (Act × List Sent)} {s s' : Sched} {l : Act × List Sent}
    (h : Orderly ls s) (hok : NoRace s l) (hstep : sched.step s l s') : Orderly (ls ++ [l]) s' :=
  h.step hok (sched_step_change hstep)

/-! ## One outcome -/

/-- No two steps announce the end of the same game. -/
def OneAnnouncement (ls : List (Act × List Sent)) : Prop :=
  ls.Pairwise fun l l' => ∀ id, announced id l.2 = [] ∨ announced id l'.2 = []

/-- A step announces the end of a game at most once to each of its seats
    and with one winner, and it performs no move in a game that is no
    longer active. -/
structure ProperStep (s : Sched) (l : Act × List Sent) : Prop where
  announces : ∀ id, announced id l.2 = [] ∨ ∃ i winner, (s.mgr.active_games i).game_id = id ∧
    (announced id l.2).Subperm ((s.mgr.active_games i).ending winner)
  accepts : ∀ fd req i env, s.pc = .found fd req i → l.1 = .check env →
    Passes s.mgr fd req i → (s.mgr.active_games i).is_active = true

theorem one_announcement {ls : List (Act × List Sent)} {s : Sched}
    (h : RunWhere sched NoRace .initial ls s) : OneAnnouncement ls := by
  have hboth : Orderly ls s ∧ OneAnnouncement ls := by
    apply h.history (P := fun ls s => Orderly ls s ∧ OneAnnouncement ls) ?_
      ⟨orderly_initial, .nil⟩
    intro ls s l s' ⟨horderly, hone⟩ hok hstep
    refine ⟨orderly_step horderly hok hstep, List.pairwise_append.mpr ⟨hone,
      List.pairwise_singleton .., ?_⟩⟩
    intro l₁ hl₁ l₂ hl₂ id
    obtain rfl := List.mem_singleton.mp hl₂
    rcases horderly.announces hok (sched_step_change hstep) id with hnone | ⟨hbefore, _⟩
    · exact .inr hnone
    · -- nothing was announced before, so `l₁` did not announce it either
      refine .inl (List.eq_nil_iff_forall_not_mem.mpr ?_)
      intro a ha
      obtain ⟨m, hm, hma⟩ := List.mem_filterMap.mp ha
      have : a ∈ announced id (sends ls) :=
        List.mem_filterMap.mpr ⟨m, List.mem_flatMap.mpr ⟨l₁, hl₁, hm⟩, hma⟩
      rw [hbefore] at this
      cases this
  exact hboth.2

/-- **One outcome per game.** In every schedule in which no tick takes the
    last time of a player whose game the move handler is about to use, the
    end of a game is announced by at most one step, at most once to each
    seat and with one winner, and no move is performed in a game that is no
    longer active. -/
theorem one_outcome_of_no_race {ls : List (Act × List Sent)} {s : Sched}
    (h : RunWhere sched NoRace .initial ls s) :
    OneAnnouncement ls ∧ RunWhere sched ProperStep .initial ls s := by
  refine ⟨one_announcement h, ?_⟩
  apply h.strengthen (fun _ _ _ _ => orderly_step) ?_ orderly_initial
  intro ls s l s' horderly hok hstep
  constructor
  · intro id
    rcases horderly.announces hok (sched_step_change hstep) id with hnone | ⟨_, i, winner, _, hid,
      _, hsub⟩
    · exact .inl hnone
    · exact .inr ⟨i, winner, hid, hsub⟩
  · intro fd req i env hpc _ hpass
    apply horderly.in_table i
    rw [hpc]
    exact ⟨rfl, hpass⟩

/-- A check that excludes races. -/
def no_race (s : Sched) : Act → Bool
  | .event (.tick env) =>
    match s.pc with
    | .idle => true
    | .found _ _ i => !decide (RunsOut (env.ms 0) (s.mgr.active_games i))
    | .ended i => !decide (RunsOut (env.ms 0) (s.mgr.active_games i))
  | _ => true

theorem no_race_sound (s : Sched) (a : Act) (out : List Sent) (h : no_race s a = true) :
    NoRace s (a, out) := by
  intro env i ha huses
  obtain rfl : a = .event (.tick env) := ha
  unfold no_race at h
  cases hpc : s.pc with
  | idle =>
    rw [hpc] at huses
    exact huses.elim
  | found fd req j =>
    rw [hpc] at huses
    obtain ⟨rfl, _⟩ := huses
    simpa [hpc] using h
  | ended j =>
    rw [hpc] at huses
    obtain rfl : j = i := huses
    simpa [hpc] using h

/-- The steps of a move request that is not disturbed. -/
def move_steps (fd : Int) (src dst : String) (t : Int) : List Act :=
  [.lookup fd ⟨src.toList, dst.toList⟩ (.calm t), .check (.calm t)]

/-- Two players are matched, fd 6 as White, and reach a position in which
    Black mates with the next move. -/
def before_mate : List Act :=
  two_requests.map .event ++ move_steps 6 "f2" "f3" 0 ++ move_steps 5 "e7" "e5" 0 ++
    move_steps 6 "g2" "g4" 0

/-- The mate, with ticks between all steps. -/
def mate_with_ticks : List Act :=
  before_mate ++ [.lookup 5 ⟨"d8".toList, "h4".toList⟩ (.calm 1), .event (.tick (.calm 2)),
    .check (.calm 3), .event (.tick (.calm 4)), .remove, .event (.tick (.calm 700))]

theorem mate_with_ticks_announced :
    (exec (guarded (fun s l => no_race s l.1) sched_run) .initial mate_with_ticks).map
      (fun r => announced "game_0_1".toList (sends r.1)) = some [(6, .black), (5, .black)] := by
  decide +kernel

theorem one_outcome_mate_with_ticks :
    ∃ ls s, RunWhere sched NoRace .initial ls s ∧
      announced "game_0_1".toList (sends ls) = [(6, .black), (5, .black)] ∧
      OneAnnouncement ls ∧ RunWhere sched ProperStep .initial ls s := by
  obtain ⟨⟨ls, s⟩, hrun, hann⟩ := Option.map_eq_some_iff.mp mate_with_ticks_announced
  have hwhere : RunWhere sched NoRace .initial ls s :=
    exec_runWhere (fun s l => no_race_sound s l.1 l.2) hrun
  exact ⟨ls, s, hwhere, hann, one_outcome_of_no_race hwhere⟩

/-- Black's time runs out between the lookup of the game and the mate. -/
def timeout_and_mate : List Act :=
  before_mate ++ [.lookup 5 ⟨"d8".toList, "h4".toList⟩ (.calm 600), .event (.tick (.calm 600)),
    .check (.calm 600)]

/-- White wins on time, then Black by mate. -/
theorem timeout_and_mate_announced :
    (exec sched_run .initial timeout_and_mate).map
      (fun r => (r.1.map fun l => announced "game_0_1".toList l.2).filter (· ≠ [])) =
      some [[(6, .white), (5, .white)], [(6, .black), (5, .black)]] := by
  decide +kernel

theorem one_outcome_broken :
    ¬ ∀ (ls : List (Act × List Sent)) (s : Sched), Run sched .initial ls s →
      OneAnnouncement ls ∧ RunWhere sched ProperStep .initial ls s := by
  intro hall
  obtain ⟨⟨ls, s⟩, hrun, hann⟩ := Option.map_eq_some_iff.mp timeout_and_mate_announced
  have hone : ls.Pairwise _ := (hall ls s (exec_run hrun)).1
  have hpairs : (ls.map fun l => announced "game_0_1".toList l.2).Pairwise
      fun a b => a = [] ∨ b = [] :=
    List.pairwise_map.mpr (hone.imp fun h => h _)
  have hpairs := hpairs.filter (· ≠ [])
  rw [hann] at hpairs
  revert hpairs
  decide

end MultiplayChess
