import MultiplayChess.Server.Attribution

/-! # Conservation of time

    The updates of a game split the time since its creation between the
    two clocks: whatever the order of moves and ticks, and also if the
    clock of the machine goes back, no millisecond is deducted twice and
    none is lost.  A game is ended by the first update that takes the rest
    of the time of the side to move. -/

namespace MultiplayChess

open LTS Loop

/-! ## Games with their time of creation -/

/-- For every slot, the first reading of `last_timer_check_ms` of the game
    in it. -/
abbrev CreationTimes := Fin max_active_games → Int

def CreationTimes.next (created : CreationTimes) (mgr : MatchManager) (_ : Event × List Sent)
    (mgr' : MatchManager) : CreationTimes :=
  fun i =>
    if !(mgr.active_games i).is_active && (mgr'.active_games i).is_active then
      (mgr'.active_games i).last_timer_check_ms
    else created i

/-- The server with the creation times of its games. -/
def dated : System (MatchManager × CreationTimes) (Event × List Sent) :=
  server.with_ghost CreationTimes.next

/-- An updating tick comes less than `2 ^ 31` ms after the last update of
    the game; how far the clock goes back is not restricted. -/
def Gapped (mgr : MatchManager) (l : Event × List Sent) : Prop :=
  ∀ env i, l.1 = .tick env → Updates (env.ms 0) (mgr.active_games i) →
    env.ms 0 - (mgr.active_games i).last_timer_check_ms < 2 ^ 31

/-- The two clocks of a game share the time since it was created, and
    neither has run out. -/
structure Conserved (g : ActiveGame) (created : Int) : Prop where
  shared : g.deducted .white + g.deducted .black = g.last_timer_check_ms - created
  positive : ∀ team, 0 < g.time_remaining team
  limited : ∀ team, g.time_remaining team ≤ g.time_limit_per_player

def AllConserved (s : MatchManager × CreationTimes) : Prop :=
  ∀ i, (s.1.active_games i).is_active = true → Conserved (s.1.active_games i) (s.2 i)

/-! ## One step -/

/-- Within the gaps the conversion to 32 bits changes nothing. -/
theorem charge_at_eq {now : Int} {g : ActiveGame} (hup : Updates now g)
    (hgap : now - g.last_timer_check_ms < 2 ^ 31) :
    charge_at now g = now - g.last_timer_check_ms := by
  have hlong : 0 ≤ now - g.last_timer_check_ms := by
    have := hup.2
    omega
  exact (to_int32_eq_iff hlong).mpr hgap

theorem deducted_add (g : ActiveGame) (team : Team) :
    g.deducted team + g.deducted team.other = g.deducted .white + g.deducted .black := by
  cases team with
  | white => rfl
  | black => exact Int.add_comm ..

/-- A new game has been charged for no time. -/
theorem conserved_new_game {env : Env} {old game : ActiveGame} {w : WaitingPlayer} {fd : Int}
    {player_id id : CString} (h : new_game env old w fd player_id id = .ok game) :
    Conserved game game.last_timer_check_ms := by
  unfold new_game at h
  simp only at h
  obtain ⟨_, _, h⟩ := bind_eq_ok.mp h
  obtain ⟨_, _, h⟩ := bind_eq_ok.mp h
  obtain ⟨_, _, h⟩ := bind_eq_ok.mp h
  cases h
  refine ⟨(Int.sub_self _).symm, ?_, ?_⟩
  · intro team
    cases team <;> exact (by decide : (0 : Int) < default_game_time_limit * 1000)
  · intro team
    cases team <;> exact Int.le_refl _

/-- An update that does not end the game moves the time since the last one
    to the clock of the side to move. -/
theorem Conserved.charged {now created : Int} {g g' : ActiveGame} (h : Conserved g created)
    (hup : Updates now g) (hrun : ¬ RunsOut now g) (hcharged : Charged now g g' none)
    (hlimit : g'.time_limit_per_player = g.time_limit_per_player)
    (hgap : now - g.last_timer_check_ms < 2 ^ 31) : Conserved g' created := by
  have hcharge := charge_at_eq hup hgap
  have hlong := hup.2
  -- the clock does not run out, so what is charged was there
  have hleft : charge_at now g < g.time_remaining g.game_state.side_to_move := by
    by_contra hnot
    exact hrun ⟨hup.2, by omega⟩
  have hmover := hcharged.mover
  rw [if_neg hrun] at hmover
  refine ⟨?_, ?_, ?_⟩
  · -- the mover has paid for the whole gap and the other player for nothing
    have hdeducted := hcharged.deducted_eq hlimit hrun
    have hown := hdeducted g.game_state.side_to_move
    have hother := hdeducted g.game_state.side_to_move.other
    have hsum := deducted_add g g.game_state.side_to_move
    unfold deducted_at at hown hother
    rw [if_pos rfl] at hown
    rw [if_neg (Team.other_ne _)] at hother
    rw [← deducted_add g' g.game_state.side_to_move, hcharged.checked, hown, hother]
    have := h.shared
    omega
  · intro team
    by_cases hteam : team = g.game_state.side_to_move
    · rw [hteam, hmover]
      omega
    · rw [Team.eq_other_of_ne hteam, hcharged.other]
      exact h.positive _
  · intro team
    rw [hlimit]
    by_cases hteam : team = g.game_state.side_to_move
    · have := h.limited g.game_state.side_to_move
      rw [hteam, hmover]
      omega
    · rw [Team.eq_other_of_ne hteam, hcharged.other]
      exact h.limited _

/-- **The step lemma.** -/
theorem AllConserved.step {s s' : MatchManager × CreationTimes} {l : Event × List Sent}
    (h : AllConserved s) (hgap : Gapped s.1 l) (hstep : dated.step s l s') : AllConserved s' := by
  obtain ⟨e, out⟩ := l
  obtain ⟨hserver, hcreated⟩ := hstep
  intro i hactive
  -- only a new game gets a new creation time
  have hkept : (s.1.active_games i).is_active = true → s'.2 i = s.2 i := by
    intro hwas
    rw [hcreated]
    unfold CreationTimes.next
    rw [hwas]
    rfl
  cases (step_change hserver).slot i with
  | kept _ hg =>
    have hsame := not_ended hg hactive
    rw [hsame] at hactive ⊢
    rw [hkept hactive]
    exact h i hactive
  | @ticked env he hticked =>
    have hwas := hticked.frame.2.2.2.2 hactive
    rw [hkept hwas]
    rcases hticked.cases_active hactive with ⟨_, hsame⟩ | ⟨hup, hrun, hcharged⟩
    · rw [hsame]
      exact h i hwas
    · exact (h i hwas).charged hup hrun hcharged hticked.limit (hgap env i he hup)
  | started _ _ _ hfree _ hnew =>
    have hnow : s'.2 i = (s'.1.active_games i).last_timer_check_ms := by
      rw [hcreated]
      unfold CreationTimes.next
      rw [hfree, hactive]
      rfl
    rw [hnow]
    exact conserved_new_game hnew
  | played _ hacc hg =>
    -- the move changes no clock
    obtain ⟨_, _, _, _, _, hfind, _, _⟩ := accepted_spec hacc
    have hwas := (find_game_spec hfind).1
    have hplayed := not_ended hg hactive
    rw [hkept hwas, hplayed]
    obtain ⟨hshared, hpositive, hlimited⟩ := h i hwas
    refine ⟨hshared, ?_, ?_⟩
    · intro team
      cases team with
      | white => exact hpositive .white
      | black => exact hpositive .black
    · intro team
      cases team with
      | white => exact hlimited .white
      | black => exact hlimited .black

theorem all_conserved_init (created : CreationTimes) :
    AllConserved (init_match_manager, created) := by
  intro i hactive
  cases hactive

/-! ## The end of the time -/

/-- The messages of the end of a game on time. -/
def timeout_message (g : ActiveGame) (loser : Team) : ServerMessage :=
  .game_end
    { game_id := g.game_id, player_id := g.player_id loser, winner_team := loser.other.proto,
      end_type := .timeout }

/-- The game was ended on time, and both seats were sent the message. -/
def EndedOnTime (g g' : ActiveGame) (out : List Sent) : Prop :=
  g'.is_active = false ∧
    ∀ team, ∃ ok, ⟨g.fd_of team, timeout_message g g.game_state.side_to_move, ok⟩ ∈ out

theorem mem_timeout_broadcast (env : Env) (out : List Sent) (g : ActiveGame) (loser : Team) :
    (∀ s ∈ out, s ∈ send_timeout_game_end_broadcast env out g (g.player_id loser)
        loser.other.proto) ∧
      ∀ team, ∃ ok, ⟨g.fd_of team, timeout_message g loser, ok⟩ ∈
        send_timeout_game_end_broadcast env out g (g.player_id loser) loser.other.proto := by
  unfold send_timeout_game_end_broadcast send_server_message timeout_message
  constructor
  · intro s hs
    exact List.mem_append_left _ (List.mem_append_left _ hs)
  · intro team
    cases team with
    | white =>
      exact ⟨_, List.mem_append_left _ (List.mem_append_right _ (List.mem_singleton_self _))⟩
    | black => exact ⟨_, List.mem_append_right _ (List.mem_singleton_self _)⟩

/-- The message does not depend on the clocks. -/
theorem timeout_message_frame {now : Int} {g g' : ActiveGame} {timeout : Option Team}
    (h : check_game_timeout now g = .ok (g', timeout)) (loser team : Team) :
    timeout_message g' loser = timeout_message g loser ∧ g'.fd_of team = g.fd_of team := by
  rw [check_game_timeout_frame h]
  constructor
  · cases loser <;> rfl
  · cases team <;> rfl

/-- A tick sends the messages of every game that runs out of time. -/
theorem check_game_timeouts_sends {mgr : MatchManager} {env : Env} {o : Outcome}
    (h : check_game_timeouts mgr env = .ok o) {i : Fin max_active_games} {g : ActiveGame}
    {loser : Team}
    (hcheck : check_game_timeout (env.ms 0) (mgr.active_games i) = .ok (g, some loser))
    (team : Team) :
    ∃ ok, ⟨(mgr.active_games i).fd_of team, timeout_message (mgr.active_games i) loser, ok⟩ ∈
      o.out := by
  unfold check_game_timeouts at h
  obtain ⟨⟨mgr', out⟩, hloop, h⟩ := bind_eq_ok.mp h
  cases h
  have hdone := foldlM_visit (fun st : MatchManager × List Sent => st.1.active_games)
    (fun _ _ _ _ => check_slot_other) (List.nodup_finRange max_active_games)
    (P := fun done (st : MatchManager × List Sent) =>
      i ∈ done → ∃ ok, ⟨(mgr.active_games i).fd_of team,
        timeout_message (mgr.active_games i) loser, ok⟩ ∈ st.2) ?_ ?_ hloop
  · exact hdone (List.mem_finRange i)
  · intro done k st st' hk hsame hsent hround hi
    obtain ⟨game, timeout, hslot, ⟨rfl, rfl⟩ | ⟨loser', rfl, rfl⟩⟩ := check_slot_cases hround
    · -- a round without a timeout is not that of game `i`
      rcases List.mem_append.mp hi with hi | hi
      · exact hsent hi
      · rw [List.mem_singleton.mp hi] at hcheck
        rw [hsame, hcheck] at hslot
        cases hslot
    · have hmem := mem_timeout_broadcast env st.2 game loser'
      rcases List.mem_append.mp hi with hi | hi
      · obtain ⟨ok, hold⟩ := hsent hi
        exact ⟨ok, hmem.1 _ hold⟩
      · rw [List.mem_singleton.mp hi] at hcheck ⊢
        rw [hsame, hcheck] at hslot
        cases hslot
        obtain ⟨hmessage, hfd⟩ := timeout_message_frame hcheck loser team
        rw [← hmessage, ← hfd]
        exact hmem.2 team
  · exact fun hi => absurd hi List.not_mem_nil

/-- A tick ends an active game exactly if it is an update that takes the
    rest of the time of the side to move, and then it says so. -/
theorem tick_ends_iff {mgr mgr' : MatchManager} {env : Env} {out : List Sent}
    (hgap : Gapped mgr (.tick env, out)) (hstep : server.step mgr (.tick env, out) mgr')
    {i : Fin max_active_games} (hactive : (mgr.active_games i).is_active = true) :
    let g := mgr.active_games i
    let since := env.ms 0 - g.last_timer_check_ms
    (100 ≤ since ∧ g.time_remaining g.game_state.side_to_move ≤ since →
        EndedOnTime g (mgr'.active_games i) out) ∧
      (¬ (100 ≤ since ∧ g.time_remaining g.game_state.side_to_move ≤ since) →
        (mgr'.active_games i).is_active = true) := by
  intro g since
  -- within the gap nothing is narrowed away
  have hruns : RunsOut (env.ms 0) g ↔
      100 ≤ since ∧ g.time_remaining g.game_state.side_to_move ≤ since := by
    apply and_congr_right
    intro hlong
    have hup : Updates (env.ms 0) g := ⟨hactive, hlong⟩
    rw [charge_at_eq hup (hgap env i rfl hup)]
  rw [← hruns]
  obtain ⟨o, ho, rfl, rfl⟩ := tick_step_ok hstep
  have hticked := (check_game_timeouts_slots ho).1 i
  refine ⟨?_, hticked.still_active hactive⟩
  intro hrun
  obtain ⟨timed, timeout, hcheck, hafter⟩ := hticked
  rcases check_game_timeout_spec hcheck with ⟨hnot, _, _⟩ | ⟨_, hcharged⟩
  · exact absurd ⟨hactive, hrun.1⟩ hnot
  · have hloser := hcharged.timeout_eq
    rw [if_pos hrun] at hloser
    subst hloser
    rw [if_neg (Option.some_ne_none _)] at hafter
    refine ⟨?_, check_game_timeouts_sends ho hcheck⟩
    rw [hafter]

/-- **Conservation of time.** In every run whose updating ticks come less
    than `2 ^ 31` ms after the last update, the time deducted from the two
    clocks of an active game is the time from its creation to its last
    update, both clocks are between zero and the limit, and the next tick
    ends the game exactly if it is an update at which the side to move has
    no time left. -/
theorem time_conserved {ls : List (Event × List Sent)} {created : CreationTimes}
    {s : MatchManager × CreationTimes}
    (h : RunWhere dated (fun s => Gapped s.1) (init_match_manager, created) ls s)
    {i : Fin max_active_games} (hactive : (s.1.active_games i).is_active = true) :
    let g := s.1.active_games i
    g.deducted .white + g.deducted .black = g.last_timer_check_ms - s.2 i ∧
      (∀ team, 0 < g.time_remaining team ∧ g.time_remaining team ≤ g.time_limit_per_player) ∧
      ∀ env out s', Gapped s.1 (.tick env, out) → dated.step s (.tick env, out) s' →
        let since := env.ms 0 - g.last_timer_check_ms
        (100 ≤ since ∧ g.time_remaining g.game_state.side_to_move ≤ since →
            EndedOnTime g (s'.1.active_games i) out) ∧
          (¬ (100 ≤ since ∧ g.time_remaining g.game_state.side_to_move ≤ since) →
            (s'.1.active_games i).is_active = true) := by
  intro g
  have hall : AllConserved s :=
    h.invariant (fun _ _ _ hs hok hstep => hs.step hok hstep) (all_conserved_init created)
  obtain ⟨hshared, hpositive, hlimited⟩ := hall i hactive
  refine ⟨hshared, fun team => ⟨hpositive team, hlimited team⟩, ?_⟩
  intro env out s' hgap hstep
  exact tick_ends_iff hgap hstep.1 hactive

/-- The check of `Gapped` for one event. -/
def gapped (mgr : MatchManager) : Event → Bool
  | .tick env => decide (∀ i, Updates (env.ms 0) (mgr.active_games i) →
      env.ms 0 - (mgr.active_games i).last_timer_check_ms < 2 ^ 31)
  | _ => true

theorem gapped_sound (mgr : MatchManager) (l : Event × List Sent) (h : gapped mgr l.1 = true) :
    Gapped mgr l := by
  intro env i he
  rw [he] at h
  exact of_decide_eq_true h i

/-- A game created at 5 ms, a tick, a move, a tick after the clock has gone
    back, and an update. -/
def stepped_clock : List Event :=
  [.message 5 (.match_game "ann".toList) (.at_ms 0),
    .message 6 (.match_game "bob".toList) (.at_ms 5),
    .tick (.at_ms 205),
    .message 6 (.move ⟨"e2".toList, "e4".toList⟩) (.at_ms 250),
    .tick (.at_ms 20),
    .tick (.at_ms 405)]

theorem stepped_clock_runs :
    (exec (guarded (fun mgr l => gapped mgr l.1) server_run) init_match_manager stepped_clock).map
      (fun r => (r.2.active_games 0).is_active) = some true := by
  decide +kernel

theorem time_conserved_stepped_clock :
    ∃ (ls : List (Event × List Sent)) (s : MatchManager × CreationTimes),
      RunWhere dated (fun s => Gapped s.1) (init_match_manager, fun _ => 0) ls s ∧
      (s.1.active_games 0).is_active = true ∧
      (s.1.active_games 0).deducted .white + (s.1.active_games 0).deducted .black =
        (s.1.active_games 0).last_timer_check_ms - s.2 0 := by
  obtain ⟨⟨ls, mgr⟩, hrun, hactive⟩ := Option.map_eq_some_iff.mp stepped_clock_runs
  have hwhere : RunWhere server Gapped init_match_manager ls mgr :=
    exec_runWhere gapped_sound hrun
  obtain ⟨created, hdated⟩ := hwhere.with_ghost CreationTimes.next (fun _ => 0)
  have hactive : (mgr.active_games 0).is_active = true := hactive
  exact ⟨ls, (mgr, created), hdated, hactive, (time_conserved hdated hactive).1⟩

end MultiplayChess
