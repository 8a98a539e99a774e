import MultiplayChess.Server.Copies
import MultiplayChess.Server.Attribution

/-! # Readings of the wall clock

    A tick charges the difference of two readings of the wall clock, cut to
    32 bits.  The difference is compared with 100 ms from below and with
    nothing from above: a difference whose low 32 bits are a negative number
    gives time back to the side to move. -/

namespace MultiplayChess

open LTS Loop

/-! ## The difference -/

/-- The low 32 bits of a number are no negative number. -/
def LowBitsNonneg (d : Int) : Prop :=
  d % 2 ^ 32 < 2 ^ 31

theorem to_int32_nonneg_iff (d : Int) : 0 ≤ to_int32 d ↔ LowBitsNonneg d := by
  unfold to_int32 LowBitsNonneg
  rw [Int.bmod_eq_emod]
  have hlow := Int.emod_nonneg d (by decide : (2 ^ 32 : Int) ≠ 0)
  have hhigh := Int.emod_lt_of_pos d (by decide : (0 : Int) < 2 ^ 32)
  norm_num at *
  split <;> omega

theorem to_int32_lt (d : Int) : to_int32 d < 2 ^ 31 := by
  have h := Int.bmod_lt (x := d) (m := 2 ^ 32) (by decide)
  unfold to_int32
  norm_num at *
  exact h

/-- The reading `now` is one at which the timer may look at the game: the
    difference to the last one has 64 bits, and if it is not too short, its
    low 32 bits are no negative number. -/
structure Measured (now : Int) (g : ActiveGame) : Prop where
  in_range : -(2 ^ 63) ≤ now - g.last_timer_check_ms ∧ now - g.last_timer_check_ms < 2 ^ 63
  forwards : 100 ≤ now - g.last_timer_check_ms → LowBitsNonneg (now - g.last_timer_check_ms)

/-! ## One game -/

/-- The clocks of a game are within the limit, and the limit is the
    default one. -/
structure ClocksIn (g : ActiveGame) : Prop where
  within : ∀ team, 0 ≤ g.time_remaining team ∧ g.time_remaining team ≤ g.time_limit_per_player
  limit : g.time_limit_per_player = default_game_time_limit * 1000

/-- From `g` to `g'` no clock has gained time, and both are within the
    limit. -/
structure OnlyFalls (g g' : ActiveGame) : Prop where
  falls : ∀ team, g'.time_remaining team ≤ g.time_remaining team
  within : ∀ team, 0 ≤ g'.time_remaining team ∧
    g'.time_remaining team ≤ g'.time_limit_per_player

theorem ClocksIn.below {g : ActiveGame} (h : ClocksIn g) (team : Team) :
    0 ≤ g.time_remaining team ∧ g.time_remaining team < 2 ^ 31 := by
  have hwithin := h.within team
  rw [h.limit] at hwithin
  unfold default_game_time_limit at hwithin
  omega

theorem ClocksIn.congr {g g' : ActiveGame} (h : ClocksIn g)
    (hclock : ∀ team, g'.time_remaining team = g.time_remaining team)
    (hlimit : g'.time_limit_per_player = g.time_limit_per_player) : ClocksIn g' where
  within := by
    intro team
    rw [hclock, hlimit]
    exact h.within team
  limit := hlimit.trans h.limit

section game

variable {now : Int} {g : ActiveGame}

/-- A charge that takes time has a result. -/
theorem charge_isOk {remaining since : Int} (hlow : 0 ≤ remaining) (hhigh : remaining < 2 ^ 31)
    (hsince : 0 ≤ to_int32 since) : ∃ r, charge remaining since = .ok r := by
  have hlt := to_int32_lt since
  have hsub : checked_sub 32 remaining (to_int32 since) = .ok (remaining - to_int32 since) := by
    unfold checked_sub
    apply if_pos
    omega
  unfold charge
  rw [hsub]
  exact ⟨_, rfl⟩

/-- A look at a game needs the difference of the readings in 64 bits. -/
theorem check_game_timeout_range {r : ActiveGame × Option Team} (hactive : g.is_active = true)
    (h : check_game_timeout now g = .ok r) :
    -(2 ^ 63) ≤ now - g.last_timer_check_ms ∧ now - g.last_timer_check_ms < 2 ^ 63 := by
  unfold check_game_timeout at h
  rw [hactive] at h
  obtain ⟨since, hsince, _⟩ := bind_eq_ok.mp h
  unfold checked_sub at hsince
  split at hsince
  · assumption
  · cases hsince

/-- At a measured reading the look has a result. -/
theorem check_game_timeout_isOk (hin : ClocksIn g) (hmeasured : Measured now g) :
    ∃ r, check_game_timeout now g = .ok r := by
  unfold check_game_timeout
  split
  · exact ⟨_, rfl⟩
  · have hsub : checked_sub 64 now g.last_timer_check_ms = .ok (now - g.last_timer_check_ms) :=
      if_pos hmeasured.in_range
    rw [hsub]
    show ∃ r, (if now - g.last_timer_check_ms < 100 then _ else _) = Except.ok r
    by_cases hshort : now - g.last_timer_check_ms < 100
    · rw [if_pos hshort]
      exact ⟨_, rfl⟩
    · rw [if_neg hshort]
      have hnonneg := (to_int32_nonneg_iff _).mpr (hmeasured.forwards (by omega))
      cases g.game_state.side_to_move with
      | white =>
        obtain ⟨r, hr⟩ := charge_isOk (hin.below .white).1 (hin.below .white).2 hnonneg
        have hr' : charge g.white_time_remaining (now - g.last_timer_check_ms) = .ok r := hr
        simp only [hr']
        exact ⟨_, rfl⟩
      | black =>
        obtain ⟨r, hr⟩ := charge_isOk (hin.below .black).1 (hin.below .black).2 hnonneg
        have hr' : charge g.black_time_remaining (now - g.last_timer_check_ms) = .ok r := hr
        simp only [hr']
        exact ⟨_, rfl⟩

/-- A charge of the side to move, as a property of both clocks. -/
theorem Charged.onlyFalls {g' : ActiveGame} {timeout : Option Team} (h : Charged now g g' timeout)
    (hup : Updates now g) (hin : ClocksIn g)
    (hlimit : g'.time_limit_per_player = g.time_limit_per_player) (hcharge : 0 ≤ charge_at now g) :
    OnlyFalls g g' := by
  have hmover := h.mover
  have hbounds := hin.within g.game_state.side_to_move
  have hfalls : 0 ≤ g'.time_remaining g.game_state.side_to_move ∧
      g'.time_remaining g.game_state.side_to_move ≤
        g.time_remaining g.game_state.side_to_move := by
    by_cases hrun : RunsOut now g
    · rw [if_pos hrun] at hmover
      omega
    · rw [if_neg hrun] at hmover
      have hleft : ¬ g.time_remaining g.game_state.side_to_move ≤ charge_at now g :=
        fun hout => hrun ⟨hup.2, hout⟩
      omega
  constructor
  · intro team
    by_cases hteam : team = g.game_state.side_to_move
    · rw [hteam]
      exact hfalls.2
    · apply Int.le_of_eq
      rw [Team.eq_other_of_ne hteam, h.other]
  · intro team
    rw [hlimit]
    by_cases hteam : team = g.game_state.side_to_move
    · rw [hteam]
      omega
    · rw [Team.eq_other_of_ne hteam, h.other]
      exact hin.within _

/-- **One game.** The look has a result and only takes time, if and only if
    the reading is a measured one. -/
theorem check_game_timeout_falls_iff (hactive : g.is_active = true) (hin : ClocksIn g) :
    (∃ r, check_game_timeout now g = .ok r ∧ OnlyFalls g r.1) ↔ Measured now g := by
  constructor
  · intro ⟨⟨g', timeout⟩, hcheck, hfalls⟩
    constructor
    · exact check_game_timeout_range hactive hcheck
    · intro hlong
      rw [← to_int32_nonneg_iff]
      by_contra hneg
      rcases check_game_timeout_spec hcheck with ⟨hno, _, _⟩ | ⟨_, hcharged⟩
      · exact hno ⟨hactive, hlong⟩
      · -- the charge is negative: the side to move does not run out and gains time
        have hbounds := hin.within g.game_state.side_to_move
        have hmover := hcharged.mover
        have hgain : g'.time_remaining g.game_state.side_to_move ≤ _ := hfalls.falls _
        unfold charge_at at hmover
        rw [if_neg (fun hrun : RunsOut now g => by
          have hout := hrun.2
          unfold charge_at at hout
          omega)] at hmover
        omega
  · intro hmeasured
    obtain ⟨⟨g', timeout⟩, hcheck⟩ := check_game_timeout_isOk hin hmeasured
    use (g', timeout), hcheck
    have hlimit : g'.time_limit_per_player = g.time_limit_per_player := by
      rw [check_game_timeout_frame hcheck]
    rcases check_game_timeout_spec hcheck with ⟨_, rfl, _⟩ | ⟨hup, hcharged⟩
    · exact ⟨fun _ => Int.le_refl _, hin.within⟩
    · exact hcharged.onlyFalls hup hin hlimit
        ((to_int32_nonneg_iff _).mpr (hmeasured.forwards hup.2))

end game

/-! ## One tick -/

/-- A tick at the event has a result, and it only takes time from the clocks
    of the games that are played. -/
def ClocksFall (mgr : MatchManager) (e : Event) : Prop :=
  ∀ env, e = .tick env → ∃ o, check_game_timeouts mgr env = .ok o ∧
    ∀ i, (mgr.active_games i).is_active = true →
      OnlyFalls (mgr.active_games i) (o.mgr.active_games i)

/-- The readings of a tick at the event are measured ones. -/
def WellMeasured (mgr : MatchManager) (e : Event) : Prop :=
  ∀ env, e = .tick env → ∀ i, (mgr.active_games i).is_active = true →
    Measured (env.ms 0) (mgr.active_games i)

def AllClocksIn (mgr : MatchManager) : Prop :=
  ∀ i, (mgr.active_games i).is_active = true → ClocksIn (mgr.active_games i)

/-- A round has a result exactly if the look at its game has one. -/
theorem check_slot_isOk_iff {env : Env} {now : Int} {st : MatchManager × List Sent}
    {i : Fin max_active_games} :
    (∃ st', check_slot env now st i = .ok st') ↔
      ∃ r, check_game_timeout now (st.1.active_games i) = .ok r := by
  unfold check_slot
  constructor
  · intro ⟨st', h⟩
    obtain ⟨r, hr, _⟩ := bind_eq_ok.mp h
    exact ⟨r, hr⟩
  · intro ⟨r, hr⟩
    rw [hr]
    obtain ⟨game, timeout⟩ := r
    cases timeout with
    | none => exact ⟨_, rfl⟩
    | some loser => exact ⟨_, rfl⟩

/-- A tick has a result exactly if the look at every game has one. -/
theorem check_game_timeouts_isOk_iff {mgr : MatchManager} {env : Env} :
    (∃ o, check_game_timeouts mgr env = .ok o) ↔
      ∀ i, ∃ r, check_game_timeout (env.ms 0) (mgr.active_games i) = .ok r := by
  have hloop := foldlM_isOk_iff (f := check_slot env (env.ms 0))
    (fun st : MatchManager × List Sent => st.1.active_games) (fun _ _ _ _ => check_slot_other)
    (fun s t i hview hok => by
      rw [check_slot_isOk_iff] at hok ⊢
      rwa [← hview]) (s := (mgr, [])) (List.nodup_finRange max_active_games)
  unfold check_game_timeouts
  constructor
  · intro ⟨o, h⟩ i
    obtain ⟨st, hst, _⟩ := bind_eq_ok.mp h
    exact check_slot_isOk_iff.mp (hloop.mp ⟨st, hst⟩ i (List.mem_finRange i))
  · intro h
    obtain ⟨st, hst⟩ := hloop.mpr fun i _ => check_slot_isOk_iff.mpr (h i)
    rw [hst]
    exact ⟨_, rfl⟩

/-- The clocks after a tick are those the look has found. -/
theorem Ticked.time_remaining {now : Int} {g g' : ActiveGame} (h : Ticked now g g') :
    ∃ r, check_game_timeout now g = .ok r ∧
      (∀ team, g'.time_remaining team = r.1.time_remaining team) ∧
      g'.time_limit_per_player = r.1.time_limit_per_player := by
  obtain ⟨timed, timeout, hcheck, rfl⟩ := h
  use (timed, timeout), hcheck
  split
  · exact ⟨fun _ => rfl, rfl⟩
  · constructor
    · intro team
      cases team with
      | white => rfl
      | black => rfl
    · rfl

theorem OnlyFalls.congr {g g₁ g₂ : ActiveGame} (h : OnlyFalls g g₁)
    (hclock : ∀ team, g₂.time_remaining team = g₁.time_remaining team)
    (hlimit : g₂.time_limit_per_player = g₁.time_limit_per_player) : OnlyFalls g g₂ where
  falls := by
    intro team
    rw [hclock]
    exact h.falls team
  within := by
    intro team
    rw [hclock, hlimit]
    exact h.within team

theorem clocks_fall_iff {mgr : MatchManager} (hin : AllClocksIn mgr) (e : Event) :
    ClocksFall mgr e ↔ WellMeasured mgr e := by
  constructor
  · intro h env he i hactive
    obtain ⟨o, ho, hfall⟩ := h env he
    obtain ⟨r, hr, hclock, hlimit⟩ := ((check_game_timeouts_slots ho).1 i).time_remaining
    rw [← check_game_timeout_falls_iff hactive (hin i hactive)]
    exact ⟨r, hr, (hfall i hactive).congr (fun team => (hclock team).symm) hlimit.symm⟩
  · intro h env he
    have hok : ∀ i, ∃ r, check_game_timeout (env.ms 0) (mgr.active_games i) = .ok r := by
      intro i
      cases hactive : (mgr.active_games i).is_active with
      | false =>
        unfold check_game_timeout
        rw [hactive]
        exact ⟨_, rfl⟩
      | true => exact check_game_timeout_isOk (hin i hactive) (h env he i hactive)
    obtain ⟨o, ho⟩ := check_game_timeouts_isOk_iff.mpr hok
    use o, ho
    intro i hactive
    obtain ⟨r, hr, hclock, hlimit⟩ := ((check_game_timeouts_slots ho).1 i).time_remaining
    obtain ⟨r', hr', hfall⟩ :=
      (check_game_timeout_falls_iff hactive (hin i hactive)).mpr (h env he i hactive)
    cases hr.symm.trans hr'
    exact hfall.congr hclock hlimit

/-! ## Whole runs -/

theorem clocks_in_new_game {env : Env} {old game : ActiveGame} {w : WaitingPlayer} {fd : Int}
    {player_id id : CString} (h : new_game env old w fd player_id id = .ok game) :
    ClocksIn game := by
  unfold new_game at h
  simp only at h
  obtain ⟨_, _, h⟩ := bind_eq_ok.mp h
  obtain ⟨_, _, h⟩ := bind_eq_ok.mp h
  obtain ⟨_, _, h⟩ := bind_eq_ok.mp h
  cases h
  constructor
  · intro team
    have hlimit : 0 ≤ default_game_time_limit * 1000 := by decide
    cases team <;> exact ⟨hlimit, Int.le_refl _⟩
  · rfl

/-- **The step lemma.** -/
theorem AllClocksIn.step {mgr mgr' : MatchManager} {e : Event} {out : List Sent}
    (h : AllClocksIn mgr) (hfall : ClocksFall mgr e) (hstep : server.step mgr (e, out) mgr') :
    AllClocksIn mgr' := by
  intro i hactive
  cases (step_change hstep).slot i with
  | kept _ hg =>
    have hsame := not_ended hg hactive
    rw [hsame] at hactive ⊢
    exact h i hactive
  | @ticked env he hticked =>
    subst he
    have hwas := hticked.frame.2.2.2.2 hactive
    obtain ⟨o, ho, rfl, _⟩ := tick_step_ok hstep
    obtain ⟨o', ho', hfalls⟩ := hfall env rfl
    cases ho.symm.trans ho'
    exact ⟨(hfalls i hwas).within, hticked.limit.trans (h i hwas).limit⟩
  | started _ _ _ _ _ hnew => exact clocks_in_new_game hnew
  | played _ hacc hg =>
    -- the move changes no clock
    obtain ⟨_, _, _, _, _, hfind, _, _⟩ := accepted_spec hacc
    have hplayed := not_ended hg hactive
    apply (h i (find_game_spec hfind).1).congr
    · intro team
      rw [hplayed]
      cases team <;> rfl
    · rw [hplayed]
      rfl

/-- **Clocks under every wall clock.** At every tick of a run the
    subtractions have a result, no clock of a game that is played gains
    time, and both stay within the limit, if and only if the readings at the
    ticks are measured ones. -/
theorem clocks_fall_throughout_iff (es : List Event) :
    Served ClocksFall es ↔ Served WellMeasured es := by
  apply Throughout.congr (I := AllClocksIn)
  · intro mgr e mgr' hin hfall hstep
    obtain ⟨o, _, _, hrun⟩ := handle_event_ok hstep
    exact hin.step hfall hrun
  · intro mgr e hin
    exact clocks_fall_iff hin e
  · intro i hactive
    cases hactive

/-- The readings of a clock that was put forward by a little less than
    `2 ^ 32` ms. -/
def Env.put_forward : Env :=
  { Env.calm 0 with ms := fun _ => 2 ^ 32 - 1000 }

/-- The first tick after that gives the player to move a second. -/
theorem two_requests_put_forward :
    ((serve two_requests).toOption.bind fun mgr =>
      (check_game_timeouts mgr .put_forward).toOption.map fun o =>
        ((mgr.active_games 0).is_active, (mgr.active_games 0).white_time_remaining,
          (o.mgr.active_games 0).white_time_remaining)) = some (true, 600000, 601000) := by
  decide +kernel

theorem clocks_fall_throughout_broken : ¬ ∀ es, Served ClocksFall es := by
  intro h
  obtain ⟨mgr, hmgr, hrun⟩ := Option.bind_eq_some_iff.mp two_requests_put_forward
  obtain ⟨o, ho, hgain⟩ := Option.map_eq_some_iff.mp hrun
  rw [Prod.mk.injEq, Prod.mk.injEq] at hgain
  obtain ⟨o', ho', hfall⟩ := h (two_requests ++ [.tick .put_forward]) two_requests _ [] mgr rfl
    (toOption_eq_some.mp hmgr) _ rfl
  rw [ho'] at ho
  cases ho
  have hfalls := (hfall 0 hgain.1).falls .white
  unfold ActiveGame.time_remaining at hfalls
  simp only [hgain.2] at hfalls
  omega

end MultiplayChess
