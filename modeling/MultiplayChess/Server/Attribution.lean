import MultiplayChess.Framework.Stopwatch
import MultiplayChess.Server.Clock
import MultiplayChess.Server.Record

/-! # Whose time is charged

    A stopwatch beside every game measures the time White and Black were
    to move since the game was created.  The timer thread charges all the
    time since its last update of a game to the side it finds to move, and
    the move handler settles nothing when it passes the move.  So a tick
    charges the right amounts exactly if the side not to move had no time
    on move since the last update. -/

namespace MultiplayChess

open LTS Timing
open Chess (Move)

instance : Fintype Team :=
  ⟨{.white, .black}, fun t => by cases t <;> decide⟩

/-! ## The server with stopwatches -/

/-- The tables, the latest reading of the clock, and for every slot a
    stopwatch whose laps begin when a tick updates the game. -/
structure Timed where
  mgr : MatchManager
  now : Int
  watch : Fin max_active_games → Stopwatch Team Int

def Timed.initial : Timed :=
  { mgr := init_match_manager, now := 0, watch := fun _ => .start .white 0 }

/-- The stopwatch of slot `i` after a step: started with a new game,
    switched by an accepted move, with a new lap after an update. -/
def Timed.watch_after (s : Timed) (e : Event) (mgr' : MatchManager) (i : Fin max_active_games) :
    Stopwatch Team Int :=
  match e with
  | .tick env =>
    if Updates (env.ms 0) (s.mgr.active_games i) then (s.watch i).new_lap (env.ms 0)
    else s.watch i
  | .message _ (.match_game _) env =>
    if !(s.mgr.active_games i).is_active && (mgr'.active_games i).is_active then
      .start (mgr'.active_games i).game_state.side_to_move (env.ms 1)
    else s.watch i
  | .message _ (.move _) env =>
    match accepted s.mgr e with
    | some (j, _) =>
      if j = i then (s.watch i).switch (env.ms 0) (mgr'.active_games i).game_state.side_to_move
      else s.watch i
    | none => s.watch i
  | _ => s.watch i

/-- The latest reading of the clock after a step. -/
def Timed.now_after (s : Timed) : Event → Int
  | .tick env => env.ms 0
  | .message _ (.match_game _) env => env.ms 1
  | .message _ (.move _) env => env.ms 0
  | _ => s.now

def timed_run (s : Timed) (e : Event) : Option (Timed × List Sent) :=
  (server_run s.mgr e).map fun r =>
    ({ mgr := r.1, now := s.now_after e, watch := s.watch_after e r.1 }, r.2)

/-- The server with stopwatches. -/
def timed : System Timed (Event × List Sent) :=
  ofStep (fun s => s = .initial) timed_run

theorem timed_step {s s' : Timed} {e : Event} {out : List Sent} (h : timed.step s (e, out) s') :
    server.step s.mgr (e, out) s'.mgr ∧ s'.watch = s.watch_after e s'.mgr := by
  obtain ⟨⟨mgr', out'⟩, hrun, heq⟩ := Option.map_eq_some_iff.mp h
  cases heq
  exact ⟨hrun, rfl⟩

/-! ## Attribution -/

/-- The time deducted from a team by the updates so far. -/
def ActiveGame.deducted (g : ActiveGame) (team : Team) : Int :=
  g.time_limit_per_player - g.time_remaining team

/-- The time deducted from a team by the updates so far and the one at
    `now`, before the clock of a player who has run out is set to zero. -/
def deducted_at (now : Int) (g : ActiveGame) (team : Team) : Int :=
  g.deducted team + if team = g.game_state.side_to_move then charge_at now g else 0

/-- A tick that updates a game has by then deducted from each team the time
    it was to move since the game was created, and who loses on time has
    used up the limit. -/
structure Attributed (s : Timed) (l : Event × List Sent) : Prop where
  deducted : ∀ env i, l.1 = .tick env → Updates (env.ms 0) (s.mgr.active_games i) →
    ∀ team, deducted_at (env.ms 0) (s.mgr.active_games i) team =
      ((s.watch i).advance (env.ms 0)).total team
  lost : ∀ env i g' loser, l.1 = .tick env →
    check_game_timeout (env.ms 0) (s.mgr.active_games i) = .ok (g', some loser) →
    (s.mgr.active_games i).time_limit_per_player ≤ ((s.watch i).advance (env.ms 0)).total loser

/-- A tick that updates a game comes less than `2 ^ 31` ms after the last
    update, and the side that is not to move had no time on move since. -/
def Undivided (s : Timed) (l : Event × List Sent) : Prop :=
  ∀ env i, l.1 = .tick env → Updates (env.ms 0) (s.mgr.active_games i) →
    env.ms 0 - (s.mgr.active_games i).last_timer_check_ms < 2 ^ 31 ∧
    (s.watch i).lap (s.mgr.active_games i).game_state.side_to_move.other = 0

/-- The invariant: the clock of an active game was settled at its last
    update, and its stopwatch runs for the side to move. -/
def Clocked (s : Timed) : Prop :=
  ∀ i, (s.mgr.active_games i).is_active = true →
    (s.watch i).Settled (s.mgr.active_games i).deducted (s.mgr.active_games i).last_timer_check_ms ∧
    (s.watch i).running = (s.mgr.active_games i).game_state.side_to_move

/-- The conversion to 32 bits keeps exactly the times below `2 ^ 31`. -/
theorem to_int32_eq_iff {d : Int} (hd : 0 ≤ d) : to_int32 d = d ↔ d < 2 ^ 31 := by
  unfold to_int32
  constructor
  · intro h
    have := Int.bmod_lt (x := d) (m := 2 ^ 32) (by decide)
    omega
  · intro h
    exact Int.bmod_eq_of_le (by omega) (by omega)

/-- What an update leaves deducted, unless the player has run out. -/
theorem Charged.deducted_eq {now : Int} {g g' : ActiveGame} {timeout : Option Team}
    (h : Charged now g g' timeout) (hlimit : g'.time_limit_per_player = g.time_limit_per_player)
    (hrun : ¬ RunsOut now g) (team : Team) : g'.deducted team = deducted_at now g team := by
  unfold ActiveGame.deducted deducted_at ActiveGame.deducted
  rw [hlimit]
  by_cases hteam : team = g.game_state.side_to_move
  · subst hteam
    rw [if_pos rfl, h.mover, if_neg hrun]
    omega
  · rw [if_neg hteam, Team.eq_other_of_ne hteam, h.other]
    omega

theorem Ticked.limit {now : Int} {g g' : ActiveGame} (h : Ticked now g g') :
    g'.time_limit_per_player = g.time_limit_per_player := by
  obtain ⟨timed, timeout, hcheck, rfl⟩ := h
  rw [check_game_timeout_frame hcheck]
  split <;> rfl

/-- A tick that leaves the game active did nothing, or charged the side to
    move for less than it had left. -/
theorem Ticked.cases_active {now : Int} {g g' : ActiveGame} (h : Ticked now g g')
    (hactive : g'.is_active = true) :
    (¬ Updates now g ∧ g' = g) ∨
      (Updates now g ∧ ¬ RunsOut now g ∧ Charged now g g' none) := by
  obtain ⟨timed, timeout, hcheck, rfl⟩ := h
  have hnone : timeout = none := by
    by_contra hsome
    rw [if_neg hsome] at hactive
    cases hactive
  rw [if_pos hnone]
  subst hnone
  rcases check_game_timeout_spec hcheck with ⟨hup, hsame, _⟩ | ⟨hup, hcharged⟩
  · exact .inl ⟨hup, hsame⟩
  · refine .inr ⟨hup, ?_, hcharged⟩
    intro hrun
    have := hcharged.timeout_eq
    rw [if_pos hrun] at this
    cases this

/-- A new game has its full time, counted from its second reading of the
    clock. -/
theorem new_game_clock {env : Env} {old game : ActiveGame} {w : WaitingPlayer} {fd : Int}
    {player_id id : CString} (h : new_game env old w fd player_id id = .ok game) :
    game.last_timer_check_ms = env.ms 1 ∧ ∀ team, game.deducted team = 0 := by
  unfold new_game at h
  simp only at h
  obtain ⟨_, _, h⟩ := Loop.bind_eq_ok.mp h
  obtain ⟨_, _, h⟩ := Loop.bind_eq_ok.mp h
  obtain ⟨_, _, h⟩ := Loop.bind_eq_ok.mp h
  cases h
  refine ⟨rfl, ?_⟩
  intro team
  cases team <;> exact Int.sub_self _

/-- **One tick.** The deductions agree with the stopwatch exactly if the
    time since the last update all belongs to the side to move. -/
theorem deducted_at_iff {g : ActiveGame} {w : Stopwatch Team Int} {now : Int}
    (hsettled : w.Settled g.deducted g.last_timer_check_ms)
    (hrunning : w.running = g.game_state.side_to_move) (hup : Updates now g) :
    (∀ team, deducted_at now g team = (w.advance now).total team) ↔
      now - g.last_timer_check_ms < 2 ^ 31 ∧ w.lap g.game_state.side_to_move.other = 0 := by
  have hcharge := hsettled.charge_iff now (charge_at now g)
  rw [hrunning] at hcharge
  have hlong : 0 ≤ now - g.last_timer_check_ms := by
    have := hup.2
    omega
  have hother : (∀ team, team ≠ g.game_state.side_to_move → w.lap team = 0) ↔
      w.lap g.game_state.side_to_move.other = 0 := by
    refine ⟨fun h => h _ (Team.other_ne _), ?_⟩
    intro h team hteam
    rwa [Team.eq_other_of_ne hteam]
  rw [hother] at hcharge
  exact hcharge.trans (and_congr_left fun _ => to_int32_eq_iff hlong)

/-- In a clocked state the next step attributes the time it charges exactly
    if it finds it undivided. -/
theorem Clocked.attributed_iff {s : Timed} {l : Event × List Sent} (h : Clocked s) :
    Attributed s l ↔ Undivided s l := by
  constructor
  · intro hatt env i he hup
    obtain ⟨hsettled, hrunning⟩ := h i hup.1
    exact (deducted_at_iff hsettled hrunning hup).mp (hatt.deducted env i he hup)
  · intro hund
    have hdeducted : ∀ env i, l.1 = .tick env → Updates (env.ms 0) (s.mgr.active_games i) →
        ∀ team, deducted_at (env.ms 0) (s.mgr.active_games i) team =
          ((s.watch i).advance (env.ms 0)).total team := by
      intro env i he hup
      obtain ⟨hsettled, hrunning⟩ := h i hup.1
      exact (deducted_at_iff hsettled hrunning hup).mpr (hund env i he hup)
    refine ⟨hdeducted, ?_⟩
    intro env i g' loser he hcheck
    -- the charge takes the rest of the loser's time
    obtain ⟨hactive, rfl, hrun⟩ := check_game_timeout_loser hcheck
    rw [← hdeducted env i he ⟨hactive, hrun.1⟩]
    unfold deducted_at ActiveGame.deducted
    rw [if_pos rfl]
    have := hrun.2
    omega

theorem Clocked.step_tick {s s' : Timed} {env : Env} {out : List Sent} (h : Clocked s)
    (hok : Undivided s (.tick env, out)) (hstep : timed.step s (.tick env, out) s') :
    Clocked s' := by
  obtain ⟨hserver, hwatch⟩ := timed_step hstep
  intro i hactive
  have hticked := tick_step_slots hserver i
  obtain ⟨hstate, _, _, _, hwas⟩ := hticked.frame
  obtain ⟨hsettled, hrunning⟩ := h i (hwas hactive)
  rw [hwatch]
  unfold Timed.watch_after
  simp only
  rcases hticked.cases_active hactive with ⟨hup, hsame⟩ | ⟨hup, hrun, hcharged⟩
  · rw [if_neg hup, hsame]
    exact ⟨hsettled, hrunning⟩
  · rw [if_pos hup, hstate, hcharged.checked]
    refine ⟨Stopwatch.Settled.new_lap _ ?_, hrunning⟩
    intro team
    rw [hcharged.deducted_eq hticked.limit hrun]
    exact (deducted_at_iff hsettled hrunning hup).mpr (hok env i rfl hup) team

theorem Clocked.step_event {s s' : Timed} {e : Event} {out : List Sent} (h : Clocked s)
    (htick : ∀ env, e ≠ .tick env) (hstep : timed.step s (e, out) s') : Clocked s' := by
  obtain ⟨hserver, hwatch⟩ := timed_step hstep
  intro i hactive
  rw [hwatch]
  cases (step_change hserver).slot i with
  | ticked he _ => exact absurd he (htick _)
  | kept hacc hg =>
    have hsame := not_ended hg hactive
    have hkept : s.watch_after e s'.mgr i = s.watch i := by
      unfold Timed.watch_after
      split
      · exact absurd rfl (htick _)
      · rw [hsame, Bool.not_and_self]
        rfl
      · split
        · rename_i j m hj
          by_cases hji : j = i
          · subst hji
            exact absurd hj (hacc m)
          · exact if_neg hji
        · rfl
      · rfl
    rw [hkept, hsame]
    rw [hsame] at hactive
    exact h i hactive
  | @started fd player_id id counter env w he _ _ hfree _ hnew =>
    obtain ⟨hlast, hdeducted⟩ := new_game_clock hnew
    subst he
    have hfresh : s.watch_after (.message fd (.match_game player_id) env) s'.mgr i =
        .start (s'.mgr.active_games i).game_state.side_to_move (env.ms 1) := by
      unfold Timed.watch_after
      simp only [hfree, hactive, Bool.not_false, Bool.and_self, if_true]
    rw [hfresh, hlast, show (s'.mgr.active_games i).deducted = fun _ => 0 from funext hdeducted]
    exact ⟨Stopwatch.settled_start _ _, rfl⟩
  | @played fd req env m he hacc hg =>
    obtain ⟨_, _, _, _, _, hfind, _, _⟩ := accepted_spec hacc
    obtain ⟨hsettled, _⟩ := h i (find_game_spec hfind).1
    have hplayed := not_ended hg hactive
    subst he
    have hswitched : s.watch_after (.message fd (.move req) env) s'.mgr i =
        (s.watch i).switch (env.ms 0) (s'.mgr.active_games i).game_state.side_to_move := by
      unfold Timed.watch_after
      simp only [hacc, if_true]
    rw [hswitched]
    refine ⟨?_, rfl⟩
    -- the move changes no clock
    rw [hplayed]
    exact hsettled.switch _ _

/-- **The step lemma.** -/
theorem Clocked.step {s s' : Timed} {l : Event × List Sent} (h : Clocked s)
    (hok : Undivided s l) (hstep : timed.step s l s') : Clocked s' := by
  obtain ⟨e, out⟩ := l
  by_cases htick : ∃ env, e = .tick env
  · obtain ⟨env, rfl⟩ := htick
    exact h.step_tick hok hstep
  · exact h.step_event (fun env he => htick ⟨env, he⟩) hstep

theorem clocked_initial : Clocked .initial := by
  intro i hactive
  cases hactive

/-- **Clock attribution.** In a run of the server every updating tick has
    deducted from each team the time it was to move, and who loses on time
    has used up the limit, exactly if every updating tick comes less than
    `2 ^ 31` ms after the last update of the game and the side not to move
    had no time on move since. -/
theorem attribution_iff {ls : List (Event × List Sent)} {s : Timed} :
    RunWhere timed Attributed .initial ls s ↔ RunWhere timed Undivided .initial ls s := by
  apply RunWhere.where_iff clocked_initial
  · intro _ _ _ hclocked hok hstep
    exact hclocked.step (hclocked.attributed_iff.mp hok) hstep
  · intro _ _ _ hclocked _
    exact hclocked.attributed_iff

/-! ## A move between two ticks -/

/-- The clock does not go back, and its readings are less than `2 ^ 31` ms
    apart. -/
def paced (s : Timed) : Event → Bool
  | .tick env => decide (s.now ≤ env.ms 0 ∧ env.ms 0 - s.now < 2 ^ 31)
  | .message _ (.match_game _) env =>
    decide (s.now ≤ env.ms 0 ∧ env.ms 0 ≤ env.ms 1 ∧ env.ms 1 - s.now < 2 ^ 31)
  | .message _ (.move _) env => decide (s.now ≤ env.ms 0 ∧ env.ms 0 - s.now < 2 ^ 31)
  | _ => true

def Paced (s : Timed) (l : Event × List Sent) : Prop :=
  paced s l.1 = true

/-- An environment in which every call succeeds and the clock stands at `t`
    ms. -/
def Env.at_ms (t : Int) : Env :=
  { Env.calm 0 with ms := fun _ => t }

/-- White moves 60 ms after the game was created. -/
def early_move : List Event :=
  [.message 5 (.match_game "ann".toList) (.at_ms 0),
    .message 6 (.match_game "bob".toList) (.at_ms 0),
    .message 6 (.move ⟨"e2".toList, "e4".toList⟩) (.at_ms 60)]

/-- The tick at 100 ms has deducted nothing from White and everything from
    Black. -/
theorem early_move_charged :
    (exec (guarded (fun s l => paced s l.1) timed_run) .initial early_move).map
      (fun r =>
        let g := r.2.mgr.active_games 0
        let w := (r.2.watch 0).advance 100
        (paced r.2 (.tick (.at_ms 100)) && (timed_run r.2 (.tick (.at_ms 100))).isSome &&
            decide (Updates 100 g),
          (deducted_at 100 g .white, w.total .white), deducted_at 100 g .black, w.total .black)) =
      some (true, (0, 60), 100, 40) := by
  decide +kernel

theorem attribution_broken :
    ¬ ∀ (ls : List (Event × List Sent)) (s : Timed) (l : Event × List Sent) (s' : Timed),
      RunWhere timed Paced .initial ls s → Paced s l → timed.step s l s' → Attributed s l := by
  intro hall
  obtain ⟨⟨ls, s⟩, hrun, hcharged⟩ := Option.map_eq_some_iff.mp early_move_charged
  have hwhere : RunWhere timed Paced .initial ls s := exec_runWhere (fun _ _ h => h) hrun
  simp only [Prod.mk.injEq, Bool.and_eq_true, decide_eq_true_eq] at hcharged
  obtain ⟨⟨⟨hpaced, hstep⟩, hup⟩, ⟨hwhite, htotal⟩, _⟩ := hcharged
  obtain ⟨⟨s', out⟩, hstep⟩ := Option.isSome_iff_exists.mp hstep
  have hatt := hall ls s (.tick (.at_ms 100), out) s' hwhere hpaced hstep
  have hdeducted := hatt.deducted (.at_ms 100) 0 rfl hup .white
  have hequal : (0 : Int) = 60 := by
    rw [← hwhite, ← htotal]
    exact hdeducted
  cases hequal

end MultiplayChess
