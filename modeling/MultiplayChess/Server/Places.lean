import MultiplayChess.Server.System

/-! # Places

    A connection's fd can be stored in an active waiting entry and in the
    two seats of an active game.  Every lookup by fd takes the first match,
    so all of them rely on an fd having one place at most.  Nothing checks
    this when a place is given away: `add_player_to_matching` does not ask
    whether the fd already has one. -/

namespace MultiplayChess

open LTS

/-- A place in the tables. -/
inductive Place where
  | waiting (i : Fin max_waiting_players)
  | seat (j : Fin max_active_games) (team : Team)
  deriving DecidableEq

/-- The fd stored in a place, if the place is in use. -/
def MatchManager.fd_at (mgr : MatchManager) : Place → Option Int
  | .waiting i =>
    if (mgr.waiting_players i).is_active then some (mgr.waiting_players i).fd else none
  | .seat j team =>
    if (mgr.active_games j).is_active then some ((mgr.active_games j).fd_of team) else none

/-- Every fd has at most one place. -/
def UniquePlaces (mgr : MatchManager) : Prop :=
  ∀ fd p q, mgr.fd_at p = some fd → mgr.fd_at q = some fd → p = q

/-- The fd has no place. -/
def Unplaced (mgr : MatchManager) (fd : Int) : Prop :=
  ∀ p, mgr.fd_at p ≠ some fd

/-! ## How steps move places -/

section places

variable {mgr mgr' : MatchManager} {fd : Int} {p : Place}

theorem fd_at_waiting {i : Fin max_waiting_players} :
    mgr.fd_at (.waiting i) = some fd ↔
      (mgr.waiting_players i).is_active = true ∧ (mgr.waiting_players i).fd = fd := by
  unfold MatchManager.fd_at
  split <;> simp_all

theorem fd_at_seat {j : Fin max_active_games} {team : Team} :
    mgr.fd_at (.seat j team) = some fd ↔
      (mgr.active_games j).is_active = true ∧ (mgr.active_games j).fd_of team = fd := by
  unfold MatchManager.fd_at
  split <;> simp_all

theorem seats_iff {g : ActiveGame} : g.seats fd = true ↔ ∃ team, g.fd_of team = fd := by
  unfold ActiveGame.seats
  rw [Bool.or_eq_true, beq_iff_eq, beq_iff_eq]
  constructor
  · intro h
    rcases h with h | h
    · exact ⟨.white, h⟩
    · exact ⟨.black, h⟩
  · intro ⟨team, h⟩
    cases team
    · exact .inl h
    · exact .inr h

/-- Steps that only take places away keep every place at most once. -/
theorem UniquePlaces.mono (h : UniquePlaces mgr)
    (hsub : ∀ fd p, mgr'.fd_at p = some fd → mgr.fd_at p = some fd) : UniquePlaces mgr' := by
  intro fd p q hp hq
  exact h fd p q (hsub fd p hp) (hsub fd q hq)

/-- A waiting entry that is left is no place any more. -/
theorem fd_at_leave_queue {i : Fin max_waiting_players} :
    (mgr.leave_queue i).fd_at p = some fd ↔ p ≠ .waiting i ∧ mgr.fd_at p = some fd := by
  cases p with
  | seat j team => exact ⟨fun h => ⟨Place.noConfusion, h⟩, fun h => h.2⟩
  | waiting k =>
    rw [fd_at_waiting, fd_at_waiting]
    by_cases hk : k = i
    · subst hk
      simp [MatchManager.leave_queue, MatchManager.set_waiting]
    · simp [MatchManager.leave_queue, MatchManager.set_waiting, hk]

theorem set_waiting_self (mgr : MatchManager) (i : Fin max_waiting_players) (w : WaitingPlayer) :
    (mgr.set_waiting i w).waiting_players i = w :=
  Function.update_self ..

/-- A new waiting entry is one more place. -/
theorem fd_at_set_waiting {i : Fin max_waiting_players} {w : WaitingPlayer} {n : Int}
    (h : MatchManager.fd_at { mgr.set_waiting i w with waiting_count := n } p = some fd) :
    (p = .waiting i ∧ fd = w.fd) ∨ (p ≠ .waiting i ∧ mgr.fd_at p = some fd) := by
  cases p with
  | seat j team => exact .inr ⟨Place.noConfusion, h⟩
  | waiting k =>
    rw [fd_at_waiting] at h
    by_cases hk : k = i
    · subst hk
      refine .inl ⟨rfl, ?_⟩
      rw [← h.2]
      exact congrArg WaitingPlayer.fd (set_waiting_self mgr k w)
    · refine .inr ⟨fun hp => hk (Place.waiting.inj hp), ?_⟩
      rw [fd_at_waiting]
      have hsame : (mgr.set_waiting i w).waiting_players k = mgr.waiting_players k :=
        Function.update_of_ne hk ..
      rwa [← hsame]

/-- A new game is two more places. -/
theorem fd_at_set_game {j : Fin max_active_games} {g : ActiveGame}
    (h : (mgr.set_game j g).fd_at p = some fd) :
    (∃ team, p = .seat j team ∧ fd = g.fd_of team) ∨
      ((∀ team, p ≠ .seat j team) ∧ mgr.fd_at p = some fd) := by
  cases p with
  | waiting i => exact .inr ⟨fun _ => Place.noConfusion, h⟩
  | seat k team =>
    by_cases hk : k = j
    · subst hk
      rw [fd_at_seat, set_game_self] at h
      exact .inl ⟨team, rfl, h.2.symm⟩
    · refine .inr ⟨fun team' hp => hk (Place.seat.inj hp).1, ?_⟩
      rw [fd_at_seat, set_game_ne mgr g hk] at h
      exact fd_at_seat.mpr h

/-- A step that starts no game and queues nobody only takes places away. -/
theorem Change.fd_at_sub {e : Event} (h : Change mgr e mgr')
    (hmatch : ∀ fd player_id env, e ≠ .message fd (.match_game player_id) env)
    (hp : mgr'.fd_at p = some fd) : mgr.fd_at p = some fd := by
  cases p with
  | waiting i =>
    -- only `leave` touches the waiting table
    cases h with
    | quiet _ _ => exact hp
    | enqueue _ _ => exact absurd rfl (hmatch _ _ _)
    | start _ _ _ _ _ => exact absurd rfl (hmatch _ _ _)
    | leave _ _ _ => exact (fd_at_leave_queue.mp hp).2
    | finish _ _ => exact hp
    | play _ hmgr =>
      rcases hmgr with rfl | rfl
      · exact hp
      · unfold remove_game at hp
        split at hp
        · exact hp
        · exact hp
    | tick _ hw _ =>
      rw [fd_at_waiting, hw] at hp
      exact fd_at_waiting.mpr hp
  | seat j team =>
    obtain ⟨hactive, hfd⟩ := fd_at_seat.mp hp
    rw [fd_at_seat]
    cases h.slot j with
    | kept _ hg =>
      rw [← not_ended hg hactive]
      exact ⟨hactive, hfd⟩
    | ticked _ hticked =>
      obtain ⟨_, hseats, _, _, hwas⟩ := hticked.frame
      exact ⟨hwas hactive, (hseats team).symm.trans hfd⟩
    | started he _ _ _ _ _ => exact absurd he (hmatch _ _ _)
    | played _ hacc hg =>
      obtain ⟨_, _, _, _, _, hfind, _, _⟩ := accepted_spec hacc
      rw [not_ended hg hactive] at hfd
      refine ⟨(find_game_spec hfind).1, ?_⟩
      cases team <;> exact hfd

/-- Who waits after a step waited before or has just asked for a game. -/
theorem Change.waiting {mgr mgr' : MatchManager} {e : Event} (h : Change mgr e mgr')
    {i : Fin max_waiting_players} {fd : Int} (hp : mgr'.fd_at (.waiting i) = some fd) :
    mgr.fd_at (.waiting i) = some fd ∨ TakesPlace mgr fd e := by
  by_cases hmatch : ∀ fd player_id env, e ≠ .message fd (.match_game player_id) env
  · exact .inl (h.fd_at_sub hmatch hp)
  · cases h with
    | quiet _ _ => exact .inl hp
    | leave _ _ _ => exact .inl (fd_at_leave_queue.mp hp).2
    | start _ _ _ _ _ => exact .inl (fd_at_leave_queue.mp hp).2
    | finish _ _ => exact .inl hp
    | play hacc hmgr => exact .inl ((Change.play hacc hmgr).fd_at_sub (by simp) hp)
    | tick hslots hw hc => exact .inl ((Change.tick hslots hw hc).fd_at_sub (by simp) hp)
    | @enqueue fd' player_id env k hid hnobody =>
      rcases fd_at_set_waiting hp with ⟨_, hfd⟩ | ⟨_, hp⟩
      · refine .inr ⟨hfd.symm, hid, ?_⟩
        intro ⟨k, hk⟩
        rw [hnobody k] at hk
        cases hk
      · exact .inl hp

end places

/-! ## One place for each fd -/

/-- Places go to fds without one. -/
def FreshRequest (mgr : MatchManager) (l : Event × List Sent) : Prop :=
  ∀ fd, TakesPlace mgr fd l.1 → Unplaced mgr fd

/-- A waiting entry for a fd without a place. -/
theorem UniquePlaces.enqueue {mgr : MatchManager} (h : UniquePlaces mgr)
    {i : Fin max_waiting_players} {w : WaitingPlayer} {n : Int} (hnew : Unplaced mgr w.fd) :
    UniquePlaces { mgr.set_waiting i w with waiting_count := n } := by
  -- the new entry is the only place of its fd
  intro fd' p q hp hq
  rcases fd_at_set_waiting hp with ⟨rfl, hfd⟩ | ⟨_, hp⟩ <;>
    rcases fd_at_set_waiting hq with ⟨rfl, hfd'⟩ | ⟨_, hq⟩
  · rfl
  · rw [hfd] at hq
    exact absurd hq (hnew q)
  · rw [hfd'] at hp
    exact absurd hp (hnew p)
  · exact h fd' p q hp hq

/-- A game between a waiting player and a fd without a place. -/
theorem UniquePlaces.start {mgr : MatchManager} (h : UniquePlaces mgr) {env : Env} {fd : Int}
    {player_id id : CString} {i : Fin max_waiting_players} {j : Fin max_active_games}
    {game : ActiveGame} (hw : (mgr.waiting_players i).is_active = true) (hnew : Unplaced mgr fd)
    (hgame : new_game env (mgr.active_games j) (mgr.waiting_players i) fd player_id id = .ok game) :
    UniquePlaces ((mgr.set_game j game).leave_queue i) := by
  obtain ⟨_, _, _, hown, hother, _, _⟩ := new_game_spec hgame
  have hwait : mgr.fd_at (.waiting i) = some (mgr.waiting_players i).fd :=
    fd_at_waiting.mpr ⟨hw, rfl⟩
  have hne : fd ≠ (mgr.waiting_players i).fd := by
    intro heq
    rw [← heq] at hwait
    exact hnew _ hwait
  -- a seat of the new game belongs to the requester or the waiting player
  have hseat : ∀ team, game.fd_of team = fd ∧ team = requester_team env ∨
      game.fd_of team = (mgr.waiting_players i).fd ∧ team = (requester_team env).other := by
    intro team
    by_cases hteam : team = requester_team env
    · exact .inl ⟨hteam ▸ hown, hteam⟩
    · have := Team.eq_other_of_ne hteam
      exact .inr ⟨this ▸ hother, this⟩
  -- who sits in the new game has no other place left
  have hleft : ∀ team q, q ≠ .waiting i → mgr.fd_at q ≠ some (game.fd_of team) := by
    intro team q hqi hq
    rcases hseat team with ⟨hfd, _⟩ | ⟨hfd, _⟩
    · rw [hfd] at hq
      exact hnew q hq
    · rw [hfd] at hq
      exact hqi (h _ _ _ hq hwait)
  intro fd' p q hp hq
  obtain ⟨hpi, hp⟩ := fd_at_leave_queue.mp hp
  obtain ⟨hqi, hq⟩ := fd_at_leave_queue.mp hq
  rcases fd_at_set_game hp with ⟨t, rfl, hfd⟩ | ⟨_, hp⟩ <;>
    rcases fd_at_set_game hq with ⟨t', rfl, hfd'⟩ | ⟨_, hq⟩
  · have heq : game.fd_of t = game.fd_of t' := hfd.symm.trans hfd'
    rcases hseat t with ⟨h1, rfl⟩ | ⟨h1, rfl⟩ <;> rcases hseat t' with ⟨h2, rfl⟩ | ⟨h2, rfl⟩
    · rfl
    · exact absurd ((h1.symm.trans heq).trans h2) hne
    · exact absurd ((h2.symm.trans heq.symm).trans h1) hne
    · rfl
  · rw [hfd] at hq
    exact absurd hq (hleft t q hqi)
  · rw [hfd'] at hp
    exact absurd hp (hleft t' p hpi)
  · exact h fd' p q hp hq

/-- **The step lemma.** -/
theorem UniquePlaces.step {mgr mgr' : MatchManager} {e : Event} {out : List Sent}
    (h : UniquePlaces mgr) (hfresh : FreshRequest mgr (e, out))
    (hstep : server.step mgr (e, out) mgr') : UniquePlaces mgr' := by
  have hchange := step_change hstep
  by_cases hmatch : ∀ fd player_id env, e ≠ .message fd (.match_game player_id) env
  · exact h.mono fun fd p hp => hchange.fd_at_sub hmatch hp
  · cases hchange with
    | quiet _ _ => exact h
    | leave hw _ _ =>
      exact h.mono fun fd p hp => (fd_at_leave_queue.mp hp).2
    | finish hq _ =>
      apply absurd ?_ hmatch
      rintro fd player_id env rfl
      exact hq
    | play _ _ =>
      apply absurd ?_ hmatch
      intro fd player_id env he
      cases he
    | tick _ _ _ =>
      apply absurd ?_ hmatch
      intro fd player_id env he
      cases he
    | @enqueue fd player_id env i hid hnobody =>
      apply h.enqueue
      apply hfresh fd ⟨rfl, hid, ?_⟩
      -- nobody waits, so the requester does not either
      intro ⟨k, hk⟩
      rw [hnobody k] at hk
      cases hk
    | start hid hw hfree _ hgame =>
      exact h.start (find_slot_eq_some hw) (hfresh _ ⟨rfl, hid, fun _ => ⟨_, hfree⟩⟩) hgame

/-- A waiting entry for a fd in a game is its second place. -/
theorem enqueue_not_unique {mgr : MatchManager} {i : Fin max_waiting_players} {w : WaitingPlayer}
    {n : Int} {j : Fin max_active_games} {team : Team} (hactive : w.is_active = true)
    (hplaced : mgr.fd_at (.seat j team) = some w.fd) :
    ¬ UniquePlaces { mgr.set_waiting i w with waiting_count := n } := by
  intro hunique
  have hnew : MatchManager.fd_at { mgr.set_waiting i w with waiting_count := n } (.waiting i) =
      some w.fd := by
    rw [fd_at_waiting]
    show ((mgr.set_waiting i w).waiting_players i).is_active = true ∧
      ((mgr.set_waiting i w).waiting_players i).fd = w.fd
    rw [set_waiting_self]
    exact ⟨hactive, rfl⟩
  have hboth := hunique w.fd (.waiting i) (.seat j team) hnew hplaced
  cases hboth

/-- A seat in a new game for a fd with a place is its second place. -/
theorem start_not_unique {mgr : MatchManager} {env : Env} {fd : Int} {player_id id : CString}
    {i : Fin max_waiting_players} {j : Fin max_active_games} {game : ActiveGame} {p : Place}
    (hfree : (mgr.active_games j).is_active = false)
    (hgame : new_game env (mgr.active_games j) (mgr.waiting_players i) fd player_id id = .ok game)
    (hplaced : mgr.fd_at p = some fd) :
    ¬ UniquePlaces ((mgr.set_game j game).leave_queue i) := by
  intro hunique
  obtain ⟨hactive, _, _, hown, hother, _, _⟩ := new_game_spec hgame
  have hseat : ∀ team, ((mgr.set_game j game).leave_queue i).fd_at (.seat j team) =
      some (game.fd_of team) := by
    intro team
    apply fd_at_leave_queue.mpr ⟨Place.noConfusion, fd_at_seat.mpr ?_⟩
    rw [set_game_self]
    exact ⟨hactive, rfl⟩
  by_cases hpi : p = .waiting i
  · -- the requester is matched with itself
    subst hpi
    have hself := (fd_at_waiting.mp hplaced).2
    have hboth := hunique _ (.seat j (requester_team env)) (.seat j (requester_team env).other)
      (hseat _) (by rw [hown, ← hself, ← hother]; exact hseat _)
    exact Team.ne_other _ (Place.seat.inj hboth).2
  · -- the old place is still there
    have hpj : ∀ team, p ≠ .seat j team := by
      rintro team rfl
      have := (fd_at_seat.mp hplaced).1
      rw [hfree] at this
      cases this
    have hkept : ((mgr.set_game j game).leave_queue i).fd_at p = some fd := by
      apply fd_at_leave_queue.mpr ⟨hpi, ?_⟩
      cases p with
      | waiting k => exact hplaced
      | seat k team =>
        have hkj : k ≠ j := by
          rintro rfl
          exact hpj team rfl
        rw [fd_at_seat, set_game_ne mgr game hkj]
        exact fd_at_seat.mp hplaced
    exact hpj _ (hunique _ _ _ hkept (hown ▸ hseat (requester_team env)))

/-- A second place for an fd that has one breaks uniqueness. -/
theorem TakesPlace.not_unique {mgr mgr' : MatchManager} {e : Event} {out : List Sent} {fd : Int}
    {p : Place} (htakes : TakesPlace mgr fd e) (hplaced : mgr.fd_at p = some fd)
    (hstep : server.step mgr (e, out) mgr') : ¬ UniquePlaces mgr' := by
  cases step_change hstep with
  | quiet _ hno => exact absurd htakes (hno fd)
  | leave hw _ _ => cases e <;> rename_i msg _ <;> first | exact htakes.elim | cases msg <;> trivial
  | finish hq _ => cases e <;> rename_i msg _ <;> first | exact htakes.elim | cases msg <;> trivial
  | play _ _ => exact htakes.elim
  | tick _ _ _ => exact htakes.elim
  | enqueue _ hnobody =>
    obtain ⟨rfl, _, _⟩ := htakes
    cases p with
    | waiting k =>
      have := (fd_at_waiting.mp hplaced).1
      rw [hnobody k] at this
      cases this
    | seat j team => exact enqueue_not_unique rfl hplaced
  | start _ _ hfree _ hgame =>
    obtain ⟨rfl, _, _⟩ := htakes
    exact start_not_unique hfree hgame hplaced

/-- A step keeps uniqueness exactly if it gives places only to fds without
    one. -/
theorem unique_places_step_iff {mgr mgr' : MatchManager} {e : Event} {out : List Sent}
    (h : UniquePlaces mgr) (hstep : server.step mgr (e, out) mgr') :
    UniquePlaces mgr' ↔ FreshRequest mgr (e, out) := by
  refine ⟨?_, fun hfresh => h.step hfresh hstep⟩
  intro hunique fd htakes p hplaced
  exact htakes.not_unique hplaced hstep hunique

theorem unique_places_init : UniquePlaces init_match_manager := by
  intro fd p q hp _
  cases p with
  | waiting i =>
    have := (fd_at_waiting.mp hp).1
    cases this
  | seat j team =>
    have := (fd_at_seat.mp hp).1
    cases this

/-- **One place for each fd.** In every run in which the match requests that
    are given a place come from fds without one, every fd has at most one
    place: one active waiting entry, or one seat of one active game. -/
theorem unique_places_of_fresh_requests {mgr : MatchManager} {ls : List (Event × List Sent)}
    (h : RunWhere server FreshRequest init_match_manager ls mgr) : UniquePlaces mgr := by
  apply h.invariant (fun _ l _ hs hok hstep => ?_) unique_places_init
  obtain ⟨e, out⟩ := l
  exact hs.step hok hstep

/-- The fd sits at one board only. -/
theorem UniquePlaces.seats {mgr : MatchManager} (h : UniquePlaces mgr)
    {i j : Fin max_active_games} {fd : Int} (hi : (mgr.active_games i).is_active = true)
    (hj : (mgr.active_games j).is_active = true) (hfd : (mgr.active_games i).seats fd = true)
    (hfd' : (mgr.active_games j).seats fd = true) : i = j := by
  obtain ⟨t, ht⟩ := seats_iff.mp hfd
  obtain ⟨t', ht'⟩ := seats_iff.mp hfd'
  have hplace := h fd (.seat i t) (.seat j t') (fd_at_seat.mpr ⟨hi, ht⟩) (fd_at_seat.mpr ⟨hj, ht'⟩)
  exact (Place.seat.inj hplace).1

/-- The two seats of a game have different fds. -/
theorem UniquePlaces.seats_ne {mgr : MatchManager} (h : UniquePlaces mgr)
    {i : Fin max_active_games} (hi : (mgr.active_games i).is_active = true) (t : Team) :
    (mgr.active_games i).fd_of t ≠ (mgr.active_games i).fd_of t.other := by
  intro heq
  have hplace := h _ (.seat i t) (.seat i t.other) (fd_at_seat.mpr ⟨hi, rfl⟩)
    (fd_at_seat.mpr ⟨hi, heq.symm⟩)
  exact Team.ne_other t (Place.seat.inj hplace).2

/-- Two different players ask for a game. -/
def two_requests : List Event :=
  [.message 5 (.match_game "ann".toList) (.calm 0),
    .message 6 (.match_game "bob".toList) (.calm 0)]

instance (mgr : MatchManager) (fd : Int) : Decidable (Unplaced mgr fd) :=
  decidable_of_iff ((∀ i, mgr.fd_at (.waiting i) ≠ some fd) ∧
      ∀ j, mgr.fd_at (.seat j .white) ≠ some fd ∧ mgr.fd_at (.seat j .black) ≠ some fd)
    ⟨fun h p => match p with
      | .waiting i => h.1 i
      | .seat j .white => (h.2 j).1
      | .seat j .black => (h.2 j).2,
     fun h => ⟨fun i => h (.waiting i), fun j => ⟨h (.seat j .white), h (.seat j .black)⟩⟩⟩

/-- Match requests come from fds without a place. -/
def fresh_request (mgr : MatchManager) : Event → Bool
  | .message fd (.match_game _) _ => decide (Unplaced mgr fd)
  | _ => true

theorem fresh_request_sound (mgr : MatchManager) (e : Event) (out : List Sent)
    (h : fresh_request mgr e = true) : FreshRequest mgr (e, out) := by
  intro fd htakes
  cases e with
  | message fd' msg env =>
    cases msg with
    | match_game player_id =>
      obtain ⟨rfl, _, _⟩ := htakes
      exact of_decide_eq_true h
    | _ => exact htakes.elim
  | disconnect fd' env => exact htakes.elim
  | tick env => exact htakes.elim

theorem two_requests_places :
    (exec (guarded (fun s l => fresh_request s l.1) server_run) init_match_manager two_requests).map
      (fun r => (r.2.fd_at (.seat 0 .white), r.2.fd_at (.seat 0 .black))) =
        some (some 6, some 5) := by
  decide +kernel

/-- Two players who ask once each have one seat each. -/
theorem unique_places_two_requests :
    ∃ ls mgr, RunWhere server FreshRequest init_match_manager ls mgr ∧
      mgr.fd_at (.seat 0 .white) = some 6 ∧ UniquePlaces mgr := by
  obtain ⟨⟨ls, mgr⟩, hrun, hplaces⟩ := Option.map_eq_some_iff.mp two_requests_places
  have hwhere : RunWhere server FreshRequest init_match_manager ls mgr :=
    exec_runWhere (fun s l => fresh_request_sound s l.1 l.2) hrun
  rw [Prod.mk.injEq] at hplaces
  exact ⟨ls, mgr, hwhere, hplaces.1, unique_places_of_fresh_requests hwhere⟩

/-- One player asks twice. -/
def same_request_twice : List Event :=
  [.message 5 (.match_game "ann".toList) (.calm 0),
    .message 5 (.match_game "ann".toList) (.calm 0)]

theorem same_request_twice_places : (exec server_run init_match_manager same_request_twice).map
    (fun r => (r.2.fd_at (.seat 0 .white), r.2.fd_at (.seat 0 .black))) =
      some (some 5, some 5) := by
  decide +kernel

/-- After asking twice a player sits at both sides of one board. -/
theorem unique_places_broken :
    ¬ ∀ (ls : List (Event × List Sent)) (mgr : MatchManager),
      Run server init_match_manager ls mgr → UniquePlaces mgr := by
  intro hall
  obtain ⟨⟨ls, mgr⟩, hrun, hplaces⟩ := Option.map_eq_some_iff.mp same_request_twice_places
  rw [Prod.mk.injEq] at hplaces
  have := hall ls mgr (exec_run hrun) 5 _ _ hplaces.1 hplaces.2
  cases this

end MultiplayChess
