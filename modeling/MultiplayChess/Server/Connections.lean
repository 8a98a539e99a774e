import MultiplayChess.Server.Places

/-! # Connections

    The server together with its sockets.  The operating system opens
    connections on any fd that is not open, so the number of a closed
    connection can be given to a later one.  Each connection has an
    identity of its own, and for every place in the tables a history
    variable records which connection sent the match request that put its
    fd there.

    A disconnect clears the first entry that mentions the fd.  That is
    enough exactly if no second entry mentions it. -/

namespace MultiplayChess

open LTS

/-- The server and its connections. -/
structure Net where
  mgr : MatchManager
  /-- The connection open on an fd. -/
  conns : Int → Option Nat
  /-- The identity of the next connection. -/
  next : Nat
  /-- The connection whose match request filled a place. -/
  owner : Place → Nat

inductive NetEvent where
  | accept (fd : Int)
  | server (e : Event)

def Net.initial : Net :=
  { mgr := init_match_manager, conns := fun _ => none, next := 0, owner := fun _ => 0 }

/-- Messages and disconnects come from open connections. -/
def Net.may_happen (s : Net) : Event → Bool
  | .message fd _ _ => (s.conns fd).isSome
  | .disconnect fd _ => (s.conns fd).isSome
  | .tick _ => true

/-- `handle_client_message` closes the fd of a client that is gone. -/
def Net.conns_after (s : Net) : Event → Int → Option Nat
  | .disconnect fd _ => Function.update s.conns fd none
  | _ => s.conns

/-- The connection a place is filled for by a match request of `fd`: the
    sender's, and at the other side of a new game that of the player who
    was waiting. -/
def Net.filled_for (s : Net) (fd : Int) (env : Env) : Place → Nat
  | .waiting _ => (s.conns fd).getD 0
  | .seat j team =>
    if team = requester_team env then (s.conns fd).getD 0
    else
      match first_waiting s.mgr with
      | some i => s.owner (.waiting i)
      | none => s.owner (.seat j team)

/-- Only match requests fill places. -/
def Net.owner_after (s : Net) (e : Event) (mgr' : MatchManager) (p : Place) : Nat :=
  match e with
  | .message fd (.match_game _) env =>
    if (s.mgr.fd_at p).isNone && (mgr'.fd_at p).isSome then s.filled_for fd env p
    else s.owner p
  | _ => s.owner p

def net_run (s : Net) : NetEvent → Option (Net × List Sent)
  | .accept fd =>
    if 0 ≤ fd ∧ s.conns fd = none then
      some ({ s with conns := Function.update s.conns fd (some s.next), next := s.next + 1 }, [])
    else none
  | .server e =>
    if s.may_happen e then
      (server_run s.mgr e).map fun r =>
        ({ s with mgr := r.1, conns := s.conns_after e, owner := s.owner_after e r.1 }, r.2)
    else none

/-- The server behind its sockets. -/
def net : System Net (NetEvent × List Sent) :=
  ofStep (fun s => s = .initial) net_run

theorem net_step_server {s s' : Net} {e : Event} {out : List Sent}
    (h : net.step s (.server e, out) s') :
    s.may_happen e = true ∧ server.step s.mgr (e, out) s'.mgr ∧
      s'.conns = s.conns_after e ∧ s'.owner = s.owner_after e s'.mgr := by
  have hrun : net_run s (.server e) = some (s', out) := h
  unfold net_run at hrun
  simp only at hrun
  split at hrun
  · rename_i hopen
    obtain ⟨⟨mgr', out'⟩, hserver, heq⟩ := Option.map_eq_some_iff.mp hrun
    cases heq
    exact ⟨hopen, hserver, rfl, rfl⟩
  · cases hrun

/-! ## Entries -/

/-- A waiting entry or a game. -/
inductive Entry where
  | waiting (i : Fin max_waiting_players)
  | game (j : Fin max_active_games)
  deriving DecidableEq

def Place.entry : Place → Entry
  | .waiting i => .waiting i
  | .seat j _ => .game j

/-- At most one waiting entry or game mentions the fd. -/
def SingleEntry (mgr : MatchManager) (fd : Int) : Prop :=
  ∀ p q, mgr.fd_at p = some fd → mgr.fd_at q = some fd → p.entry = q.entry

section disconnect

variable {mgr mgr' : MatchManager} {env : Env} {fd : Int} {o : Outcome}

/-- A game that ends gives its two seats free. -/
theorem fd_at_end_game {j : Fin max_active_games} {p : Place} {fd : Int} :
    (mgr.end_game j).fd_at p = some fd ↔ p.entry ≠ .game j ∧ mgr.fd_at p = some fd := by
  cases p with
  | waiting i => exact ⟨fun h => ⟨Entry.noConfusion, h⟩, fun h => h.2⟩
  | seat k team =>
    rw [fd_at_seat, fd_at_seat]
    by_cases hk : k = j
    · subst hk
      rw [end_game_self]
      simp [Place.entry]
    · rw [end_game_ne mgr hk]
      simp [Place.entry, hk]

/-- The disconnect handler clears one entry that mentions the fd, if there
    is one. -/
theorem handle_player_disconnect_cases (h : handle_player_disconnect mgr env fd = .ok o) :
    (∃ i, mgr.fd_at (.waiting i) = some fd ∧ o.mgr = mgr.leave_queue i) ∨
    (∃ j team, mgr.fd_at (.seat j team) = some fd ∧ o.mgr = mgr.end_game j) ∨
    (Unplaced mgr fd ∧ o.mgr = mgr) := by
  unfold handle_player_disconnect at h
  split at h
  · rename_i i hi
    cases h
    have hfound := find_slot_eq_some hi
    rw [Bool.and_eq_true, beq_iff_eq] at hfound
    exact .inl ⟨i, fd_at_waiting.mpr hfound, rfl⟩
  · rename_i hnone
    split at h
    · rename_i j hj
      simp only at h
      obtain ⟨_, _, h⟩ := Loop.bind_eq_ok.mp h
      cases h
      obtain ⟨hactive, hseats⟩ := find_game_spec hj
      obtain ⟨team, hteam⟩ := seats_iff.mp hseats
      exact .inr (.inl ⟨j, team, fd_at_seat.mpr ⟨hactive, hteam⟩, rfl⟩)
    · rename_i hgame
      cases h
      refine .inr (.inr ⟨?_, rfl⟩)
      -- neither lookup has found the fd, so no place holds it
      intro p hp
      cases p with
      | waiting i =>
        obtain ⟨hactive, hfd⟩ := fd_at_waiting.mp hp
        have := find_slot_eq_none hnone i
        simp [hactive, hfd] at this
      | seat j team =>
        obtain ⟨hactive, hfd⟩ := fd_at_seat.mp hp
        have := find_game_none hgame hactive
        rw [seats_iff.mpr ⟨team, hfd⟩] at this
        cases this

/-- A disconnect leaves no mention of the fd exactly if there was at most
    one entry that mentions it. -/
theorem disconnect_unplaced_iff (h : handle_player_disconnect mgr env fd = .ok o) :
    Unplaced o.mgr fd ↔ SingleEntry mgr fd := by
  rcases handle_player_disconnect_cases h with ⟨i, hi, ho⟩ | ⟨j, team, hj, ho⟩ | ⟨hun, ho⟩
  · have hentry : ∀ p : Place, p.entry = .waiting i ↔ p = .waiting i := by
      intro p
      cases p <;> simp [Place.entry]
    rw [ho]
    constructor
    · intro hun p q hp hq
      -- only the place that was left is gone
      have honly : ∀ p, mgr.fd_at p = some fd → p = .waiting i := by
        intro p hp
        by_contra hne
        exact hun p (fd_at_leave_queue.mpr ⟨hne, hp⟩)
      rw [honly p hp, honly q hq]
    · intro hsingle p hp
      obtain ⟨hne, hp⟩ := fd_at_leave_queue.mp hp
      exact hne ((hentry p).mp (hsingle p _ hp hi))
  · rw [ho]
    constructor
    · intro hun p q hp hq
      -- the two seats of the game are gone, and no other place
      have honly : ∀ p, mgr.fd_at p = some fd → p.entry = .game j := by
        intro p hp
        by_contra hne
        exact hun p (fd_at_end_game.mpr ⟨hne, hp⟩)
      rw [honly p hp, honly q hq]
    · intro hsingle p hp
      obtain ⟨hne, hp⟩ := fd_at_end_game.mp hp
      exact hne (hsingle p _ hp hj)
  · rw [ho]
    refine ⟨?_, fun _ => hun⟩
    intro _ p q hp
    exact absurd hp (hun p)

end disconnect

/-! ## Ownership -/

/-- Every fd in the tables belongs to the open connection whose match
    request put it there. -/
def Owned (s : Net) : Prop :=
  ∀ fd p, s.mgr.fd_at p = some fd → s.conns fd = some (s.owner p)

/-- Connections are closed while at most one entry mentions their fd. -/
def SingleDisconnects (s : Net) (l : NetEvent × List Sent) : Prop :=
  ∀ fd env, l.1 = .server (.disconnect fd env) → SingleEntry s.mgr fd

/-- A place that is kept keeps its owner. -/
theorem Net.owner_after_kept {s : Net} {e : Event} {mgr' : MatchManager} {p : Place} {fd : Int}
    (h : s.mgr.fd_at p = some fd) : s.owner_after e mgr' p = s.owner p := by
  unfold Net.owner_after
  split
  · rw [h]
    rfl
  · rfl

/-- Steps that only take places away keep ownership. -/
theorem Owned.shrink {s s' : Net} {e : Event} (h : Owned s)
    (howner : s'.owner = s.owner_after e s'.mgr)
    (hconns : ∀ fd p, s'.mgr.fd_at p = some fd → s'.conns fd = s.conns fd)
    (hsub : ∀ fd p, s'.mgr.fd_at p = some fd → s.mgr.fd_at p = some fd) : Owned s' := by
  intro fd p hp
  rw [howner, hconns fd p hp, Net.owner_after_kept (hsub fd p hp)]
  exact h fd p (hsub fd p hp)

theorem Owned.step_match {s s' : Net} {fd : Int} {player_id : CString} {env : Env}
    {out : List Sent} (h : Owned s)
    (hstep : net.step s (.server (.message fd (.match_game player_id) env), out) s') :
    Owned s' := by
  obtain ⟨hopen, hserver, hconns, howner⟩ := net_step_server hstep
  have hopen' : (s.conns fd).isSome = true := hopen
  obtain ⟨conn, hconn⟩ := Option.isSome_iff_exists.mp hopen'
  have hsame : s'.conns = s.conns := hconns
  intro fd' p hp
  have hchange := step_change hserver
  rw [howner, hsame]
  by_cases hold : s.mgr.fd_at p = some fd'
  · rw [Net.owner_after_kept hold]
    exact h fd' p hold
  · generalize hmgr : s'.mgr = mgr' at hp hchange ⊢
    -- the place is new: it was filled by this request
    have hfilled : s.mgr.fd_at p = none → s.owner_after (.message fd (.match_game player_id) env)
        mgr' p = s.filled_for fd env p := by
      intro hnone
      unfold Net.owner_after
      simp only [hnone, hp, Option.isNone_none, Option.isSome_some, Bool.and_self, if_true]
    cases hchange with
    | quiet _ _ => exact absurd hp hold
    | leave hw _ _ => exact hw.elim
    | finish hq _ => exact hq.elim
    | @enqueue _ _ _ i _ hnobody =>
      rcases fd_at_set_waiting hp with ⟨rfl, hfd⟩ | ⟨_, hp⟩
      · have hnone : s.mgr.fd_at (.waiting i) = none := by
          unfold MatchManager.fd_at
          simp [hnobody i]
        rw [hfilled hnone, show fd' = fd from hfd]
        simp only [Net.filled_for, hconn, Option.getD_some]
      · exact absurd hp hold
    | @start _ _ id counter _ i j game _ hw hfree _ hgame =>
      obtain ⟨_, hp'⟩ := fd_at_leave_queue.mp hp
      rcases fd_at_set_game hp' with ⟨team, rfl, hfd⟩ | ⟨_, hp'⟩
      · have hnone : s.mgr.fd_at (.seat j team) = none := by
          unfold MatchManager.fd_at
          simp [hfree]
        rw [hfilled hnone]
        obtain ⟨_, _, _, hown, hother, _, _⟩ := new_game_spec hgame
        unfold Net.filled_for
        by_cases hteam : team = requester_team env
        · simp only [if_pos hteam, hconn, Option.getD_some]
          rw [hfd, hteam, hown, hconn]
        · simp only [if_neg hteam, hw]
          rw [hfd, Team.eq_other_of_ne hteam, hother]
          exact h _ _ (fd_at_waiting.mpr ⟨find_slot_eq_some hw, rfl⟩)
      · exact absurd hp' hold

theorem Owned.step_disconnect {s s' : Net} {fd : Int} {env : Env} {out : List Sent}
    (h : Owned s) (hsingle : SingleEntry s.mgr fd)
    (hstep : net.step s (.server (.disconnect fd env), out) s') :
    Owned s' ∧ Unplaced s'.mgr fd := by
  obtain ⟨_, hserver, hconns, howner⟩ := net_step_server hstep
  have hun : Unplaced s'.mgr fd := by
    obtain ⟨o, ho, hmgr, _⟩ := disconnect_step_ok hserver
    rw [← hmgr]
    exact (disconnect_unplaced_iff ho).mpr hsingle
  refine ⟨h.shrink howner ?_ ?_, hun⟩
  · intro fd' p hp
    have hne : fd' ≠ fd := by
      rintro rfl
      exact hun p hp
    rw [hconns]
    exact Function.update_of_ne hne ..
  · intro fd' p hp
    exact (step_change hserver).fd_at_sub (fun _ _ _ he => nomatch he) hp

/-- **The step lemma.** -/
theorem Owned.step {s s' : Net} {l : NetEvent × List Sent} (h : Owned s)
    (hok : SingleDisconnects s l) (hstep : net.step s l s') : Owned s' := by
  obtain ⟨ne, out⟩ := l
  cases ne with
  | accept fd =>
    have hrun : net_run s (.accept fd) = some (s', out) := hstep
    unfold net_run at hrun
    simp only at hrun
    split at hrun
    · rename_i hfree
      cases hrun
      intro fd' p hp
      have hconn := h fd' p hp
      -- the fd of the new connection had no place
      have hne : fd' ≠ fd := by
        rintro rfl
        rw [hfree.2] at hconn
        cases hconn
      rw [← hconn]
      exact Function.update_of_ne hne ..
    · cases hrun
  | server e =>
    by_cases hmatch : ∃ fd player_id env, e = .message fd (.match_game player_id) env
    · obtain ⟨fd, player_id, env, rfl⟩ := hmatch
      exact h.step_match hstep
    · by_cases hdisc : ∃ fd env, e = .disconnect fd env
      · obtain ⟨fd, env, rfl⟩ := hdisc
        exact (h.step_disconnect (hok fd env rfl) hstep).1
      · obtain ⟨_, hserver, hconns, howner⟩ := net_step_server hstep
        apply h.shrink howner
        · intro fd p _
          rw [hconns]
          cases e with
          | disconnect fd env => exact absurd ⟨fd, env, rfl⟩ hdisc
          | message fd msg env => rfl
          | tick env => rfl
        · intro fd p hp
          refine (step_change hserver).fd_at_sub ?_ hp
          intro fd player_id env he
          exact hmatch ⟨fd, player_id, env, he⟩

/-- **Seats belong to their players.** In every run in which connections
    are closed while at most one entry mentions their fd, each fd in the
    tables belongs to a connection that is open and that sent the match
    request which put it there; and after a disconnect nothing in the
    tables mentions the fd. -/
theorem seats_owned_of_single_disconnects {s : Net} {ls : List (NetEvent × List Sent)}
    (h : RunWhere net SingleDisconnects .initial ls s) :
    (∀ fd p, s.mgr.fd_at p = some fd → s.conns fd = some (s.owner p)) ∧
    ∀ fd env out s', SingleDisconnects s (.server (.disconnect fd env), out) →
      net.step s (.server (.disconnect fd env), out) s' → Unplaced s'.mgr fd := by
  have howned : Owned s := by
    apply h.invariant (fun _ _ _ hs hok hstep => hs.step hok hstep) ?_
    intro fd p hp
    cases p with
    | waiting i =>
      have := (fd_at_waiting.mp hp).1
      cases this
    | seat j team =>
      have := (fd_at_seat.mp hp).1
      cases this
  refine ⟨howned, ?_⟩
  intro fd env out s' hok hstep
  exact (howned.step_disconnect (hok fd env rfl) hstep).2

/-- At most one entry mentions the fd of a connection that is closed: the
    handler leaves no mention. -/
def single_disconnect (s : Net) : NetEvent → Bool
  | .server (.disconnect fd env) =>
    match handle_player_disconnect s.mgr env fd with
    | .ok o => decide (Unplaced o.mgr fd)
    | .error _ => false
  | _ => true

theorem single_disconnect_sound (s : Net) (e : NetEvent) (out : List Sent)
    (h : single_disconnect s e = true) : SingleDisconnects s (e, out) := by
  intro fd env he
  have he' : e = .server (.disconnect fd env) := he
  subst he'
  unfold single_disconnect at h
  simp only at h
  split at h
  · rename_i o ho
    exact (disconnect_unplaced_iff ho).mp (of_decide_eq_true h)
  · cases h

/-- A player leaves while waiting, and its fd is given to a new client, who
    then plays. -/
def fd_reused : List NetEvent :=
  [.accept 5, .server (.message 5 (.match_game "ann".toList) (.calm 0)),
    .server (.disconnect 5 (.calm 0)), .accept 5,
    .server (.message 5 (.match_game "eve".toList) (.calm 0)), .accept 6,
    .server (.message 6 (.match_game "bob".toList) (.calm 0))]

theorem fd_reused_seats :
    (exec (guarded (fun s l => single_disconnect s l.1) net_run) .initial fd_reused).map
      (fun r => (r.2.mgr.fd_at (.seat 0 .black), r.2.conns 5)) = some (some 5, some 1) := by
  decide +kernel

/-- The seat belongs to the second connection on that fd. -/
theorem seats_owned_fd_reused : ∃ ls s, RunWhere net SingleDisconnects .initial ls s ∧
    s.mgr.fd_at (.seat 0 .black) = some 5 ∧ s.owner (.seat 0 .black) = 1 := by
  obtain ⟨⟨ls, s⟩, hrun, hseats⟩ := Option.map_eq_some_iff.mp fd_reused_seats
  have hwhere : RunWhere net SingleDisconnects .initial ls s :=
    exec_runWhere (fun s l => single_disconnect_sound s l.1 l.2) hrun
  rw [Prod.mk.injEq] at hseats
  have howned := (seats_owned_of_single_disconnects hwhere).1 5 _ hseats.1
  rw [hseats.2] at howned
  exact ⟨ls, s, hwhere, hseats.1, (Option.some.inj howned).symm⟩

/-- A player asks for a second game while it has one, and leaves. -/
def stale_seat : List NetEvent :=
  [.accept 5, .accept 6, .server (.message 5 (.match_game "ann".toList) (.calm 0)),
    .server (.message 6 (.match_game "bob".toList) (.calm 0)),
    .server (.message 5 (.match_game "ann".toList) (.calm 0)),
    .server (.disconnect 5 (.calm 0))]

theorem stale_seat_left : (exec net_run .initial stale_seat).map
    (fun r => (r.2.mgr.fd_at (.seat 0 .black), r.2.conns 5)) = some (some 5, none) := by
  decide +kernel

/-- Its seat stays in the table, and the fd is closed. -/
theorem seats_owned_broken :
    ¬ ∀ (ls : List (NetEvent × List Sent)) (s : Net), Run net .initial ls s →
      ∀ fd p, s.mgr.fd_at p = some fd → s.conns fd = some (s.owner p) := by
  intro hall
  obtain ⟨⟨ls, s⟩, hrun, hseats⟩ := Option.map_eq_some_iff.mp stale_seat_left
  rw [Prod.mk.injEq] at hseats
  have howned := hall ls s (exec_run hrun) 5 _ hseats.1
  rw [hseats.2] at howned
  cases howned

end MultiplayChess
