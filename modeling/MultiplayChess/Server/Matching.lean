import MultiplayChess.Server.Copies
import MultiplayChess.Server.Failures
import MultiplayChess.Server.Clock

/-! # Matching

    A match request that finds somebody waiting sets up a game in a free
    slot, whatever that slot held, and announces it: to the requester, and
    to the former waiting player if the first announcement could be sent. -/

namespace MultiplayChess

open LTS Loop

/-! ## The tables -/

/-- The tables after the waiting player `w` was seated in slot `j`. -/
def MatchManager.seated (mgr : MatchManager) (w : Fin max_waiting_players)
    (j : Fin max_active_games) (game : ActiveGame) (counter : Int) : MatchManager :=
  { (mgr.set_game j game).leave_queue w with
    active_game_count := mgr.active_game_count + 1
    counter := counter }

/-- What the request handler is told about the new game. -/
def start_result (env : Env) (w : WaitingPlayer) (game : ActiveGame) : MatchResult :=
  { status := .game_started
    game_id := game.game_id
    assigned_team := (requester_team env).proto
    opponent_fd := game.fd_of (requester_team env).other
    opponent_name := w.player_id }

section tables

variable {mgr : MatchManager} {w k : Fin max_waiting_players} {j i : Fin max_active_games}
  {game : ActiveGame} {counter : Int}

theorem seated_game : (mgr.seated w j game counter).active_games j = game :=
  set_game_self mgr j game

theorem seated_other (hi : i ≠ j) :
    (mgr.seated w j game counter).active_games i = mgr.active_games i :=
  set_game_ne mgr game hi

theorem seated_left : (mgr.seated w j game counter).waiting_players w =
    { mgr.waiting_players w with is_active := false } :=
  Function.update_self ..

theorem seated_queue (hk : k ≠ w) :
    (mgr.seated w j game counter).waiting_players k = mgr.waiting_players k :=
  Function.update_of_ne hk ..

end tables

/-! ## The request -/

section request

variable {mgr : MatchManager} {env : Env} {fd : Int} {player_id : CString}
  {w : Fin max_waiting_players} {j : Fin max_active_games} {o : Outcome}

/-- With somebody waiting and a free slot a game is set up there. -/
theorem add_player_seated {id : CString} {counter : Int} {game : ActiveGame}
    (hw : first_waiting mgr = some w)
    (hj : (Fin.find? fun j => !(mgr.active_games j).is_active) = some j)
    (hgen : generate_game_id (env.time 1) mgr.counter = .ok (id, counter))
    (hnew : new_game env (mgr.active_games j) (mgr.waiting_players w) fd player_id id = .ok game) :
    add_player_to_matching mgr env fd player_id =
      .ok (mgr.seated w j game counter, start_result env (mgr.waiting_players w) game) := by
  unfold add_player_to_matching
  simp only [hw, hj, hgen]
  show (new_game env (mgr.active_games j) (mgr.waiting_players w) fd player_id id >>= _) = _
  rw [hnew]
  rfl

/-- A request that brings a game into use has found somebody waiting and
    has seated the two. -/
theorem match_seated (ho : handle_match_game_message mgr env fd player_id = .ok o)
    (hfree : (mgr.active_games j).is_active = false)
    (hactive : (o.mgr.active_games j).is_active = true) :
    ∃ w id counter game, first_waiting mgr = some w ∧
      new_game env (mgr.active_games j) (mgr.waiting_players w) fd player_id id = .ok game ∧
      o = announce_start (mgr.seated w j game counter) env fd
        (start_result env (mgr.waiting_players w) game) := by
  -- in the tables of the result only slot `j` can be new
  have idle : ∀ {mgr' : MatchManager}, mgr'.active_games = mgr.active_games →
      mgr'.active_games j ≠ o.mgr.active_games j := by
    intro mgr' hgames heq
    rw [hgames] at heq
    rw [← heq, hfree] at hactive
    cases hactive
  unfold handle_match_game_message at ho
  split at ho
  · cases ho
    exact absurd rfl (idle rfl)
  · obtain ⟨⟨mgr', result⟩, hadd, ho⟩ := bind_eq_ok.mp ho
    cases hw : first_waiting mgr with
    | none =>
      unfold add_player_to_matching at hadd
      rw [hw] at hadd
      simp only at hadd
      split at hadd
      · obtain ⟨_, _, hadd⟩ := bind_eq_ok.mp hadd
        cases hadd
        cases ho
        exact absurd rfl (idle rfl)
      · cases hadd
        cases ho
        exact absurd rfl (idle rfl)
    | some w =>
      cases hj : Fin.find? fun j => !(mgr.active_games j).is_active with
      | none =>
        have hbusy := free_slot_eq_none hj j
        rw [hfree] at hbusy
        cases hbusy
      | some i =>
        have hadd' := hadd
        unfold add_player_to_matching at hadd'
        simp only [hw, hj] at hadd'
        obtain ⟨⟨id, counter⟩, hgen, hadd'⟩ := bind_eq_ok.mp hadd'
        obtain ⟨game, hnew, _⟩ := bind_eq_ok.mp hadd'
        rw [add_player_seated hw hj hgen hnew] at hadd
        cases hadd
        cases ho
        by_cases hij : j = i
        · subst hij
          exact ⟨w, id, counter, game, rfl, hnew, rfl⟩
        · rw [announce_start_mgr, seated_other hij, hfree] at hactive
          cases hactive

end request

/-! ## The announcement -/

/-- The message tells a player that the game `id` starts. -/
def StartsGame (id : CString) (msg : ServerMessage) : Prop :=
  ∃ res, msg = .match_game_res res ∧ res.success = true ∧ res.game_id = id ∧
    res.assigned_team ≠ .unspecified

/-- The start of the game `id` was sent to `fd`, with or without success. -/
def StartSent (id : CString) (out : List Sent) (fd : Int) : Prop :=
  ∃ s ∈ out, s.fd = fd ∧ StartsGame id s.msg

theorem startsGame_response (game : ActiveGame) (timestamp : Option Int) (id name : CString)
    (team : Team) : StartsGame id (start_response game timestamp id team.proto name) := by
  use { success := true, message := "Match found! Game starting...".toList, game_id := id,
        assigned_team := team.proto, opponent_name := name,
        time_limit_per_player := game.time_limit_per_player.tdiv 1000,
        white_time_remaining := game.white_time_remaining.tdiv 1000,
        black_time_remaining := game.black_time_remaining.tdiv 1000,
        game_start_time := timestamp }
  exact ⟨rfl, rfl, rfl, by cases team <;> exact ProtoTeam.noConfusion⟩

theorem opposite_proto (team : Team) : opposite team.proto = team.other.proto := by
  cases team with
  | white => rfl
  | black => rfl

section announcement

variable {mgr : MatchManager} {env : Env} {fd : Int} {i : Fin max_active_games}
  {w : WaitingPlayer} {game : ActiveGame}

/-- What the requester is sent. -/
def first_response (env : Env) (game g : ActiveGame) (w : WaitingPlayer) : ServerMessage :=
  start_response g (start_timestamp env 0 g) game.game_id (requester_team env).proto w.player_id

/-- What the former waiting player is sent. -/
def second_response (env : Env) (fd : Int) (game g : ActiveGame) : ServerMessage :=
  start_response g (start_timestamp env 1 g) game.game_id (requester_team env).other.proto
    (if g.white_player_fd == fd then g.white_player_id else g.black_player_id)

/-- The sends of the announcement. -/
theorem announce_start_out (hfind : find_game_by_player_fd mgr fd = some i) :
    (announce_start mgr env fd (start_result env w game)).out =
      ⟨fd, first_response env game (mgr.active_games i) w, env.sends 0⟩ ::
        if env.sends 0 = true ∧ 0 ≤ game.fd_of (requester_team env).other then
          [⟨game.fd_of (requester_team env).other,
            second_response env fd game (mgr.active_games i), env.sends 1⟩]
        else [] := by
  unfold announce_start send_server_message
  simp only [hfind, start_result, List.nil_append, List.length_nil, List.length_singleton,
    Bool.and_eq_true, decide_eq_true_eq, ge_iff_le, opposite_proto]
  split
  · rfl
  · rfl

/-- The requester is always sent the start, the other player exactly if that
    send succeeds and the fd is one. -/
theorem start_sent_iff (hfind : find_game_by_player_fd mgr fd = some i) (fd' : Int) :
    StartSent game.game_id (announce_start mgr env fd (start_result env w game)).out fd' ↔
      fd = fd' ∨ (env.sends 0 = true ∧ 0 ≤ game.fd_of (requester_team env).other) ∧
        game.fd_of (requester_team env).other = fd' := by
  rw [announce_start_out hfind]
  constructor
  · intro ⟨s, hs, hfd, _⟩
    rcases List.mem_cons.mp hs with rfl | hs
    · exact .inl hfd
    · right
      split at hs
      · obtain rfl := List.mem_singleton.mp hs
        exact ⟨‹_›, hfd⟩
      · cases hs
  · intro h
    rcases h with rfl | ⟨hsent, rfl⟩
    · exact ⟨_, List.mem_cons_self .., rfl, startsGame_response ..⟩
    · rw [if_pos hsent]
      exact ⟨_, List.mem_cons_of_mem _ (List.mem_singleton_self _), rfl, startsGame_response ..⟩

end announcement

section start

variable {mgr : MatchManager} {env : Env} {fd : Int} {player_id : CString}
  {w : Fin max_waiting_players} {j : Fin max_active_games} {o : Outcome}

/-- In the new tables the requester has a game. -/
theorem seated_find {id : CString} {counter : Int} {game : ActiveGame}
    (hnew : new_game env (mgr.active_games j) (mgr.waiting_players w) fd player_id id = .ok game) :
    ∃ i, find_game_by_player_fd (mgr.seated w j game counter) fd = some i := by
  obtain ⟨hactive, _, _, hown, _⟩ := new_game_spec hnew
  cases hfind : find_game_by_player_fd (mgr.seated w j game counter) fd with
  | some i => exact ⟨i, rfl⟩
  | none =>
    have hseats : game.seats fd = true := seats_iff.mpr ⟨_, hown⟩
    have hnone := find_game_none hfind (i := j) (by rw [seated_game]; exact hactive)
    rw [seated_game, hseats] at hnone
    cases hnone

/-- **To both or to neither.** A request that brings a game into use sends
    its start to both seats exactly if its first send succeeds, unless the
    requester was the one who waited.  The player who waited is out of the
    queue either way. -/
theorem start_announced_iff (hw : first_waiting mgr = some w)
    (ho : handle_match_game_message mgr env fd player_id = .ok o)
    (hfree : (mgr.active_games j).is_active = false)
    (hactive : (o.mgr.active_games j).is_active = true) :
    (∀ team, StartSent (o.mgr.active_games j).game_id o.out
        ((o.mgr.active_games j).fd_of team)) ↔
      (env.sends 0 = true ∧ 0 ≤ (mgr.waiting_players w).fd) ∨ (mgr.waiting_players w).fd = fd := by
  obtain ⟨w', id, counter, game, hw', hnew, rfl⟩ := match_seated ho hfree hactive
  obtain rfl := Option.some.inj (hw.symm.trans hw')
  obtain ⟨i, hfind⟩ : ∃ i, find_game_by_player_fd (mgr.seated w j game counter) fd = some i :=
    seated_find hnew
  obtain ⟨_, _, _, hown, hother, _⟩ := new_game_spec hnew
  rw [announce_start_mgr, seated_game]
  have hsent : ∀ fd', StartSent game.game_id (announce_start (mgr.seated w j game counter) env fd
      (start_result env (mgr.waiting_players w) game)).out fd' ↔ _ := start_sent_iff hfind
  constructor
  · intro hboth
    have hopponent := (hsent _).mp (hboth (requester_team env).other)
    rw [hother] at hopponent
    rcases hopponent with hsame | ⟨hfirst, _⟩
    · exact .inr hsame.symm
    · exact .inl hfirst
  · intro hcond team
    rw [hsent]
    by_cases hteam : team = requester_team env
    · rw [hteam, hown]
      exact .inl rfl
    · rw [Team.eq_other_of_ne hteam, hother]
      rcases hcond with hfirst | hsame
      · exact .inr ⟨hfirst, rfl⟩
      · exact .inl hsame.symm

end start

/-- The second of two requests, in an environment: the tables and whom
    something is sent to. -/
def second_request (env : Env) : Option (Option (Fin max_waiting_players) × Bool × Bool × Int ×
    List Int) :=
  (exec server_run init_match_manager (two_requests.take 1)).bind fun r =>
    (handle_match_game_message r.2 env 6 "bob".toList).toOption.map fun o =>
      (first_waiting r.2, (r.2.active_games 0).is_active, (o.mgr.active_games 0).is_active,
        (o.mgr.active_games 0).black_player_fd, o.out.map Sent.fd)

theorem second_request_calm : second_request (.calm 0) = some (some 0, false, true, 5, [6, 5]) := by
  decide +kernel

theorem second_request_fails :
    second_request .first_send_fails = some (some 0, false, true, 5, [6]) := by
  decide +kernel

theorem start_announced_two_requests :
    ∃ (ls : List (Event × List Sent)) (mgr : MatchManager) (o : Outcome),
      Run server init_match_manager ls mgr ∧
      handle_match_game_message mgr (.calm 0) 6 "bob".toList = .ok o ∧
      ((∀ team, StartSent (o.mgr.active_games 0).game_id o.out
          ((o.mgr.active_games 0).fd_of team)) ↔
        ((Env.calm 0).sends 0 = true ∧ 0 ≤ (mgr.waiting_players 0).fd) ∨
          (mgr.waiting_players 0).fd = 6) := by
  obtain ⟨⟨ls, mgr⟩, hrun, h⟩ := Option.bind_eq_some_iff.mp second_request_calm
  obtain ⟨o, ho, h⟩ := Option.map_eq_some_iff.mp h
  simp only [Prod.mk.injEq] at h
  obtain ⟨hw, hfree, hactive, _⟩ := h
  exact ⟨ls, mgr, o, exec_run hrun, toOption_eq_some.mp ho,
    start_announced_iff hw (toOption_eq_some.mp ho) hfree hactive⟩

/-- When the requester cannot be told, the game is there and the player who
    waited for it is sent nothing. -/
theorem start_announced_broken :
    ¬ ∀ (ls : List (Event × List Sent)) (mgr : MatchManager) (env : Env) (fd : Int)
      (player_id : CString) (j : Fin max_active_games) (o : Outcome),
      Run server init_match_manager ls mgr →
      handle_match_game_message mgr env fd player_id = .ok o →
      (mgr.active_games j).is_active = false → (o.mgr.active_games j).is_active = true →
      ∀ team, StartSent (o.mgr.active_games j).game_id o.out
        ((o.mgr.active_games j).fd_of team) := by
  intro hall
  obtain ⟨⟨ls, mgr⟩, hrun, h⟩ := Option.bind_eq_some_iff.mp second_request_fails
  obtain ⟨o, ho, h⟩ := Option.map_eq_some_iff.mp h
  simp only [Prod.mk.injEq] at h
  obtain ⟨_, hfree, hactive, hblack, hout⟩ := h
  obtain ⟨s, hs, hfd, _⟩ :=
    hall ls mgr _ _ _ 0 o (exec_run hrun) (toOption_eq_some.mp ho) hfree hactive .black
  have hmem : s.fd ∈ o.out.map Sent.fd := List.mem_map_of_mem hs
  rw [hout, hfd, ActiveGame.fd_of, hblack] at hmem
  cases List.mem_singleton.mp hmem

/-! ## The fresh game -/

/-- The event comes from a descriptor. -/
def Event.FromDescriptor : Event → Prop
  | .message fd _ _ => 0 ≤ fd
  | .disconnect fd _ => 0 ≤ fd
  | .tick _ => True

/-- Who waits has a descriptor. -/
theorem waiting_descriptor {ls : List (Event × List Sent)} {mgr : MatchManager}
    (h : RunWhere server (fun _ l => l.1.FromDescriptor) init_match_manager ls mgr)
    {i : Fin max_waiting_players} (hi : (mgr.waiting_players i).is_active = true) :
    0 ≤ (mgr.waiting_players i).fd := by
  have hall : ∀ i fd, mgr.fd_at (.waiting i) = some fd → 0 ≤ fd := by
    apply RunWhere.invariant (P := fun mgr => ∀ i fd, mgr.fd_at (.waiting i) = some fd → 0 ≤ fd)
      ?_ h
    · intro i fd hp
      cases (fd_at_waiting.mp hp).1
    · intro mgr ⟨e, out⟩ mgr' hall hdescriptor hstep i fd hp
      rcases (step_change hstep).waiting hp with hold | htakes
      · exact hall i fd hold
      · cases e with
        | message fd' msg env =>
          cases msg with
          | match_game player_id =>
            rw [← htakes.1]
            exact hdescriptor
          | _ => exact absurd htakes id
        | disconnect _ _ => exact absurd htakes id
        | tick _ => exact absurd htakes id
  exact hall i _ (fd_at_waiting.mpr ⟨hi, rfl⟩)

/-- The game that a request of `fd` starts with the waiting player `w`, in
    the slot of any former game: the start position, full clocks, and the
    two players in the seats that the clock draws. -/
structure FreshGame (env : Env) (fd : Int) (player_id : CString) (w : WaitingPlayer)
    (g : ActiveGame) : Prop where
  active : g.is_active = true
  position : ∀ old, g.game_state = init_startpos old
  full : ∀ team, g.time_remaining team = default_game_time_limit * 1000
  limit : g.time_limit_per_player = default_game_time_limit * 1000
  own_seat : g.fd_of (requester_team env) = fd
  own_name : g.player_id (requester_team env) = player_id
  other_seat : g.fd_of (requester_team env).other = w.fd
  other_name : g.player_id (requester_team env).other = w.player_id

/-- The response tells a player of the game `g` the seat of `team`. -/
structure TellsSeat (g : ActiveGame) (team : Team) (res : MatchGameResponse) : Prop where
  success : res.success = true
  game : res.game_id = g.game_id
  seat : res.assigned_team = team.proto
  opponent : res.opponent_name = g.player_id team.other
  limit : res.time_limit_per_player = default_game_time_limit
  white : res.white_time_remaining = default_game_time_limit
  black : res.black_time_remaining = default_game_time_limit

/-- The sends tell both players of `g`, the one seated for `team` first. -/
def BothTold (g : ActiveGame) (team : Team) (out : List Sent) : Prop :=
  ∃ own other, TellsSeat g team own ∧ TellsSeat g team.other other ∧
    out = [⟨g.fd_of team, .match_game_res own, true⟩,
      ⟨g.fd_of team.other, .match_game_res other, true⟩]

/-- What a request with one player waiting and a free slot does: the waiting
    entry is consumed, one inactive slot comes into use with a fresh game,
    nothing else changes, and if the sends succeed both players are told. -/
structure MatchMade (mgr : MatchManager) (env : Env) (fd : Int) (player_id : CString)
    (w : Fin max_waiting_players) (o : Outcome) : Prop where
  consumed : o.mgr.waiting_players w = { mgr.waiting_players w with is_active := false }
  queue : ∀ k, k ≠ w → o.mgr.waiting_players k = mgr.waiting_players k
  game : ∃ j, (mgr.active_games j).is_active = false ∧
    (∀ i, i ≠ j → o.mgr.active_games i = mgr.active_games i) ∧
    FreshGame env fd player_id (mgr.waiting_players w) (o.mgr.active_games j) ∧
    ((∀ k, env.sends k = true) → BothTold (o.mgr.active_games j) (requester_team env) o.out)

theorem find_slot_of_unique {n : Nat} {p : Fin n → Bool} {i : Fin n} (hi : p i = true)
    (honly : ∀ k, p k = true → k = i) : Fin.find? p = some i := by
  cases hfind : Fin.find? p with
  | none =>
    rw [find_slot_eq_none hfind i] at hi
    cases hi
  | some k => rw [honly k (find_slot_eq_some hfind)]

theorem new_game_fresh {env : Env} {old game : ActiveGame} {w : WaitingPlayer} {fd : Int}
    {player_id id : CString} (h : new_game env old w fd player_id id = .ok game) :
    FreshGame env fd player_id w game := by
  obtain ⟨hactive, hposition, _, hown, hother, hown_name, hother_name⟩ := new_game_spec h
  have hclocks : (∀ team, game.time_remaining team = default_game_time_limit * 1000) ∧
      game.time_limit_per_player = default_game_time_limit * 1000 := by
    unfold new_game at h
    simp only at h
    obtain ⟨_, _, h⟩ := bind_eq_ok.mp h
    obtain ⟨_, _, h⟩ := bind_eq_ok.mp h
    obtain ⟨_, _, h⟩ := bind_eq_ok.mp h
    cases h
    constructor
    · intro team
      cases team <;> rfl
    · rfl
  exact ⟨hactive, fun old => hposition.trans (init_startpos_eq _ old), hclocks.1, hclocks.2, hown,
    hown_name, hother, hother_name⟩

/-- The start response tells the seat. -/
theorem start_response_tells {env : Env} {fd : Int} {player_id : CString} {w : WaitingPlayer}
    {g : ActiveGame} (h : FreshGame env fd player_id w g) (timestamp : Option Int) (team : Team)
    {name : CString} (hname : name = g.player_id team.other) :
    ∃ res, start_response g timestamp g.game_id team.proto name = .match_game_res res ∧
      TellsSeat g team res := by
  have hwhite : g.white_time_remaining = default_game_time_limit * 1000 := h.full .white
  have hblack : g.black_time_remaining = default_game_time_limit * 1000 := h.full .black
  have hseconds : (default_game_time_limit * 1000).tdiv 1000 = default_game_time_limit := by decide
  unfold start_response
  rw [h.limit, hwhite, hblack, hseconds, hname]
  exact ⟨_, rfl, rfl, rfl, rfl, rfl, rfl, rfl, rfl⟩

section fresh

variable {mgr : MatchManager} {env : Env} {fd : Int} {player_id : CString}
  {w : Fin max_waiting_players}

/-- The requester, who had no place, is found in the new game. -/
theorem seated_find_fresh {j : Fin max_active_games} {game : ActiveGame} {counter : Int}
    (hfresh : FreshGame env fd player_id (mgr.waiting_players w) game)
    (hunplaced : Unplaced mgr fd) :
    find_game_by_player_fd (mgr.seated w j game counter) fd = some j := by
  apply find_slot_of_unique
  · rw [seated_game, hfresh.active, Bool.true_and]
    exact seats_iff.mpr ⟨_, hfresh.own_seat⟩
  · intro k hk
    by_contra hkj
    rw [seated_other hkj, Bool.and_eq_true] at hk
    obtain ⟨team, hteam⟩ := seats_iff.mp hk.2
    exact hunplaced (.seat k team) (fd_at_seat.mpr ⟨hk.1, hteam⟩)

/-- The name of the player at `fd`, as the handler looks it up. -/
theorem name_at_seat {g : ActiveGame} {team : Team} (hown : g.fd_of team = fd)
    (hother : g.fd_of team.other ≠ fd) :
    (if g.white_player_fd == fd then g.white_player_id else g.black_player_id) =
      g.player_id team := by
  cases team with
  | white => exact if_pos (beq_iff_eq.mpr hown)
  | black => exact if_neg fun h => hother (beq_iff_eq.mp h)

/-- With all sends successful both players are told their seats. -/
theorem fresh_announced {j : Fin max_active_games} {game : ActiveGame} {p : WaitingPlayer}
    (hfind : find_game_by_player_fd mgr fd = some j) (hgame : mgr.active_games j = game)
    (hfresh : FreshGame env fd player_id p game) (hne : p.fd ≠ fd) (hdescriptor : 0 ≤ p.fd)
    (hsends : ∀ k, env.sends k = true) :
    BothTold game (requester_team env)
      (announce_start mgr env fd (start_result env p game)).out := by
  have hother : game.fd_of (requester_team env).other ≠ fd := by
    rw [hfresh.other_seat]
    exact hne
  have hfd : env.sends 0 = true ∧ 0 ≤ game.fd_of (requester_team env).other := by
    rw [hfresh.other_seat]
    exact ⟨hsends 0, hdescriptor⟩
  obtain ⟨own, hown, htells⟩ := start_response_tells hfresh (start_timestamp env 0 game)
    (requester_team env) hfresh.other_name.symm
  obtain ⟨opponent, hopponent, htells'⟩ := start_response_tells hfresh
    (start_timestamp env 1 game) (requester_team env).other
    ((name_at_seat hfresh.own_seat hother).trans (by rw [Team.other_other]))
  rw [announce_start_out hfind, hgame, if_pos hfd, hsends, hsends]
  use own, opponent, htells, htells'
  rw [← hown, ← hopponent, hfresh.own_seat]
  rfl

/-- **A fresh game.** In every state that runs of descriptors reach, with
    exactly one player waiting and a free slot, a request of an fd without a
    place, with a name that is not empty and fits, makes the match. -/
theorem match_made {ls : List (Event × List Sent)}
    (hrun : RunWhere server (fun _ l => l.1.FromDescriptor) init_match_manager ls mgr)
    (hwaits : (mgr.waiting_players w).is_active = true)
    (honly : ∀ k, (mgr.waiting_players k).is_active = true → k = w)
    (hslot : ∃ j, (mgr.active_games j).is_active = false)
    (hunplaced : Unplaced mgr fd) (hid : player_id ≠ []) (hlength : player_id.length < 64)
    (hcounter : mgr.counter < 2 ^ 31 - 1) (env : Env) :
    ∃ o, handle_match_game_message mgr env fd player_id = .ok o ∧
      MatchMade mgr env fd player_id w o := by
  have hw : first_waiting mgr = some w := find_slot_of_unique hwaits honly
  -- a free slot is found, an id generated and the game set up
  obtain ⟨j, hj, hfree⟩ : ∃ j, (Fin.find? fun j => !(mgr.active_games j).is_active) = some j ∧
      (mgr.active_games j).is_active = false := by
    cases hj : Fin.find? fun j => !(mgr.active_games j).is_active with
    | none =>
      obtain ⟨j, hfree⟩ := hslot
      have hbusy := free_slot_eq_none hj j
      rw [hfree] at hbusy
      cases hbusy
    | some j => exact ⟨j, rfl, free_slot_eq_some hj⟩
  obtain ⟨⟨id, counter⟩, hgen⟩ := (generate_game_id_isOk (env.time 1) mgr.counter).mpr hcounter
  obtain ⟨game, hnew⟩ : ∃ game, new_game env (mgr.active_games j) (mgr.waiting_players w) fd
      player_id id = .ok game := by
    cases hnew : new_game env (mgr.active_games j) (mgr.waiting_players w) fd player_id id with
    | ok game => exact ⟨game, rfl⟩
    | error f =>
      have herror := (new_game_error (generate_game_id_length hgen)
        (queue_fits_of_run hrun w)).mp hnew
      omega
  have hfresh := new_game_fresh hnew
  have hfind : find_game_by_player_fd (mgr.seated w j game counter) fd = some j :=
    seated_find_fresh hfresh hunplaced
  use announce_start (mgr.seated w j game counter) env fd
    (start_result env (mgr.waiting_players w) game)
  constructor
  · unfold handle_match_game_message
    rw [if_neg hid, add_player_seated hw hj hgen hnew]
    rfl
  · constructor
    · rw [announce_start_mgr]
      exact seated_left
    · intro k hk
      rw [announce_start_mgr]
      exact seated_queue hk
    · use j, hfree
      rw [announce_start_mgr, seated_game]
      constructor
      · intro i hi
        exact seated_other hi
      constructor
      · exact hfresh
      · intro hsends
        apply fresh_announced hfind seated_game hfresh ?_ (waiting_descriptor hrun hwaits) hsends
        intro hsame
        exact hunplaced (.waiting w) (fd_at_waiting.mpr ⟨hwaits, hsame⟩)

end fresh

/-- The first of two requests. -/
def first_request : Event := .message 5 (.match_game "ann".toList) (.calm 0)

theorem first_request_waits :
    (server_run init_match_manager first_request).map (fun r =>
      ((r.1.waiting_players 0).is_active,
        decide (∀ k, (r.1.waiting_players k).is_active = true → k = 0),
        (r.1.active_games 0).is_active, decide (Unplaced r.1 6), decide (r.1.counter = 1))) =
      some (true, true, false, true, true) := by
  decide +kernel

/-- One player waits, alone, and fd 6 has no place. -/
theorem one_waits : ∃ ls mgr,
    RunWhere server (fun _ l => l.1.FromDescriptor) init_match_manager ls mgr ∧
    (mgr.waiting_players 0).is_active = true ∧
    (∀ k, (mgr.waiting_players k).is_active = true → k = 0) ∧
    (mgr.active_games 0).is_active = false ∧ Unplaced mgr 6 ∧ mgr.counter = 1 := by
  obtain ⟨⟨mgr, out⟩, hrun, h⟩ := Option.map_eq_some_iff.mp first_request_waits
  simp only [Prod.mk.injEq, decide_eq_true_eq] at h
  have hdescriptor : first_request.FromDescriptor := by
    show (0 : Int) ≤ 5
    decide
  have hnil : RunWhere server (fun _ l => l.1.FromDescriptor) init_match_manager [] _ := .nil
  exact ⟨_, mgr, hnil.snoc (l := (first_request, out)) hdescriptor hrun, h⟩

theorem match_made_bob : ∃ (ls : List (Event × List Sent)) (mgr : MatchManager) (o : Outcome),
    RunWhere server (fun _ l => l.1.FromDescriptor) init_match_manager ls mgr ∧
    handle_match_game_message mgr (.calm 0) 6 "bob".toList = .ok o ∧
    MatchMade mgr (.calm 0) 6 "bob".toList 0 o := by
  obtain ⟨ls, mgr, hrun, hwaits, honly, hfree, hunplaced, hcounter⟩ := one_waits
  obtain ⟨o, ho, hmade⟩ := match_made hrun hwaits honly ⟨0, hfree⟩ hunplaced
    (by decide : "bob".toList ≠ []) (by decide) (by omega) (.calm 0)
  exact ⟨ls, mgr, o, hrun, ho, hmade⟩

/-- A request without a name makes no match. -/
theorem match_made_nameless :
    ¬ ∀ (ls : List (Event × List Sent)) (mgr : MatchManager) (w : Fin max_waiting_players)
      (fd : Int) (player_id : CString) (env : Env),
      RunWhere server (fun _ l => l.1.FromDescriptor) init_match_manager ls mgr →
      (mgr.waiting_players w).is_active = true →
      (∀ k, (mgr.waiting_players k).is_active = true → k = w) →
      (∃ j, (mgr.active_games j).is_active = false) → Unplaced mgr fd →
      ∃ o, handle_match_game_message mgr env fd player_id = .ok o ∧
        MatchMade mgr env fd player_id w o := by
  intro hall
  obtain ⟨ls, mgr, hrun, hwaits, honly, hfree, hunplaced, _⟩ := one_waits
  obtain ⟨o, ho, hmade⟩ := hall ls mgr 0 6 [] (.calm 0) hrun hwaits honly ⟨0, hfree⟩ hunplaced
  -- the request is answered with an error and changes no table
  cases ho
  obtain ⟨j, hj, _, hfresh, _⟩ := hmade.game
  have hactive := hfresh.active
  rw [hj] at hactive
  cases hactive

end MultiplayChess
