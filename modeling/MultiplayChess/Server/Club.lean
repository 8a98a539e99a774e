import MultiplayChess.Chess.Conversation
import MultiplayChess.Server.Classification
import MultiplayChess.Server.GameLength
import MultiplayChess.Server.Matching

/-! # The server is a chess club

    The tables of the match manager, the boards and clocks in them and the
    messages of the handlers implement the chess club: for every run of the
    server there is a run of the club in which the guests notice the same,
    message by message.

    Two things are asked of the runs.  Nobody asks for a game who already
    has a place, and where a handler stops when its first send fails, that
    send succeeds. -/

namespace MultiplayChess

open LTS Loop
open Chess (Club Decides Ending Guest InCheck Legal Move Notice Plays Position
  PseudoLegal Table club quiet_after)

/-! ## From the tables to the club -/

/-- The team a message names. -/
def ProtoTeam.team : ProtoTeam → Option Team
  | .unspecified => none
  | .white => some .white
  | .black => some .black

@[simp] theorem proto_team (t : Team) : t.proto.team = some t := by
  cases t <;> rfl

/-- How a game ends, from its winner and type. -/
def ending_of : ProtoTeam × GameEndType → Option Ending
  | (winner, .checkmate) => winner.team.map .checkmate
  | (_, .stalemate) => some .stalemate
  | (_, .draw) => some .fifty_moves
  | _ => none

/-- What a message tells its receiver. -/
def notice_of : ServerMessage → Option (Notice CString)
  | .match_game_res res =>
    if res.success then res.assigned_team.team.map fun t => .started t res.opponent_name else none
  | .move_broadcast b =>
    match parse_chess_coordinate b.from_coord, parse_chess_coordinate b.to_coord with
    | some src, some dst =>
      some (.moved ⟨src.1, src.2, dst.1, dst.2⟩ b.is_check
        (if b.game_ends then ending_of (b.winner_team, b.end_type) else none))
    | _, _ => none
  | .resign_broadcast b => b.winner_team.team.map (.over .resigned)
  | .game_end b =>
    match b.end_type with
    | .timeout => b.winner_team.team.map (.over .flagged)
    | .disconnect => b.winner_team.team.map (.over .left)
    | _ => none
  | .chat_broadcast b => some (.said b.player_id b.message)
  | _ => none

/-- What the receivers of the messages are told. -/
def notices (out : List Sent) : List (Int × Notice CString) :=
  out.filterMap fun s => (notice_of s.msg).map fun n => (s.fd, n)

/-- What guests notice of a step of the server. -/
def noticed (l : Event × List Sent) : List (Int × Notice CString) :=
  match l.1 with
  | .disconnect fd _ => (fd, .gone) :: notices l.2
  | _ => notices l.2

/-- The player seated for a team. -/
def ActiveGame.guest (g : ActiveGame) (t : Team) : Guest Int CString :=
  ⟨g.fd_of t, g.player_id t⟩

/-- The game of a slot and the moves played in it. -/
def ActiveGame.table (g : ActiveGame) (r : List (Int × Move)) : Table Int CString :=
  { seat := g.guest
    position := positionOf g.game_state (moves_of r)
    quiet := g.game_state.halfmove_clock.toNat }

def WaitingPlayer.guest (w : WaitingPlayer) : Guest Int CString :=
  ⟨w.fd, w.player_id⟩

/-- The club that the tables and the record stand for. -/
def club_of (mgr : MatchManager) (r : Record) : Club Int CString (Fin max_active_games) where
  waiting := (first_waiting mgr).map fun i => (mgr.waiting_players i).guest
  tables i :=
    if (mgr.active_games i).is_active then some ((mgr.active_games i).table (r i)) else none

/-! ## Messages -/

section messages

variable {env : Env} {fd : Int} {out : List Sent}

@[simp] theorem notices_nil : notices [] = [] := rfl

@[simp] theorem notices_append (out out' : List Sent) :
    notices (out ++ out') = notices out ++ notices out' :=
  List.filterMap_append

theorem notices_cons (s : Sent) (out : List Sent) :
    notices (s :: out) = ((notice_of s.msg).map fun n => (s.fd, n)).toList ++ notices out := by
  unfold notices
  rw [List.filterMap_cons]
  cases notice_of s.msg <;> rfl

@[simp] theorem notices_send (msg : ServerMessage) :
    notices (send_server_message env out fd msg).1 =
      notices out ++ ((notice_of msg).map fun n => (fd, n)).toList := by
  unfold send_server_message
  rw [notices_append, notices_cons, notices_nil, List.append_nil]

/-- Messages that are no notices. -/
theorem Only.notices_eq (h : Only (fun msg => notice_of msg = none) out) : notices out = [] := by
  apply List.filterMap_eq_nil_iff.mpr
  intro s hs
  rw [h s hs]
  rfl

@[simp] theorem notices_report_error (o : Outcome) :
    notices (report_error env fd o).out = notices o.out := by
  unfold report_error send_error_response
  split
  · rfl
  · rw [notices_send]
    exact List.append_nil _

end messages

/-! ## Matching one step by the club -/

section matched

variable {c c' c'' : Club Int CString (Fin max_active_games)} {l l' : List (Int × Notice CString)}

/-- The club gets from `c` to `c'` while its guests notice `l`. -/
def Matched (c c' : Club Int CString (Fin max_active_games)) (l : List (Int × Notice CString)) :
    Prop :=
  ∃ ks, Run club c ks c' ∧ ks.flatten = l

theorem Matched.refl (c : Club Int CString (Fin max_active_games)) : Matched c c [] :=
  ⟨[], .nil, rfl⟩

theorem Matched.one (h : c.Step l c') : Matched c c' l := by
  have hnil : Run club c [] c := .nil
  refine ⟨[l], hnil.snoc h, ?_⟩
  rw [List.flatten_singleton]

theorem Matched.trans (h : Matched c c' l) (h' : Matched c' c'' l') : Matched c c'' (l ++ l') := by
  obtain ⟨ks, hrun, hks⟩ := h
  obtain ⟨ks', hrun', hks'⟩ := h'
  refine ⟨ks ++ ks', hrun.append hrun', ?_⟩
  rw [List.flatten_append, hks, hks']

end matched

/-! ## The tables of a regular run -/

/-- The handler of the event stops if its first send fails. -/
def Event.StopsEarly : Event → Prop
  | .message _ (.match_game _) _ => True
  | .message _ (.move _) _ => True
  | .message _ (.chat _) _ => True
  | _ => False

/-- A step in which no handler stops early, and in which places go to
    descriptors that have none. -/
structure Regular (mgr : MatchManager) (l : Event × List Sent) : Prop where
  sent : l.1.StopsEarly → l.1.first_send = true
  fresh : FreshRequest mgr l
  descriptor : l.1.FromDescriptor

/-- What the tables keep in such runs. -/
structure Hosting (mgr : MatchManager) : Prop where
  unique : UniquePlaces mgr
  one_waits : ∀ i k, (mgr.waiting_players i).is_active = true →
    (mgr.waiting_players k).is_active = true → i = k
  descriptors : ∀ p fd, mgr.fd_at p = some fd → 0 ≤ fd

section hosting

variable {mgr mgr' : MatchManager} {e : Event} {out : List Sent}

theorem remove_game_waiting (mgr : MatchManager) (id : CString) :
    (remove_game mgr id).waiting_players = mgr.waiting_players := by
  unfold remove_game
  split <;> rfl

/-- A request is placed only where nobody waits. -/
theorem Change.one_waits (h : Change mgr e mgr') (hone : ∀ i k,
    (mgr.waiting_players i).is_active = true → (mgr.waiting_players k).is_active = true → i = k)
    {i k : Fin max_waiting_players} (hi : (mgr'.waiting_players i).is_active = true)
    (hk : (mgr'.waiting_players k).is_active = true) : i = k := by
  have hleave : ∀ {mgr : MatchManager} {w i : Fin max_waiting_players},
      ((mgr.leave_queue w).waiting_players i).is_active = true →
      (mgr.waiting_players i).is_active = true := by
    intro mgr w i hi
    exact (fd_at_waiting.mp (fd_at_leave_queue.mp (fd_at_waiting.mpr ⟨hi, rfl⟩)).2).1
  cases h with
  | quiet _ _ => exact hone i k hi hk
  | @enqueue fd player_id env w _ hnobody =>
    -- only the new entry is active
    have honly : ∀ j, ((mgr.set_waiting w (waiting_entry env fd player_id)).waiting_players
        j).is_active = true → j = w := by
      intro j hj
      by_contra hjw
      have hsame : (mgr.set_waiting w (waiting_entry env fd player_id)).waiting_players j =
          mgr.waiting_players j := Function.update_of_ne hjw ..
      rw [hsame, hnobody j] at hj
      cases hj
    rw [honly i hi, honly k hk]
  | start _ _ _ _ _ => exact hone i k (hleave hi) (hleave hk)
  | leave _ _ _ => exact hone i k (hleave hi) (hleave hk)
  | finish _ _ => exact hone i k hi hk
  | play _ hmgr =>
    rcases hmgr with rfl | rfl
    · exact hone i k hi hk
    · rw [remove_game_waiting] at hi hk
      exact hone i k hi hk
  | tick _ hw _ =>
    rw [hw] at hi hk
    exact hone i k hi hk

/-- Who has a place after a step had it before, waited before or has just
    asked for a game. -/
theorem Change.placed (h : Change mgr e mgr') {p : Place} {fd : Int}
    (hp : mgr'.fd_at p = some fd) :
    (∃ q, mgr.fd_at q = some fd) ∨
      ∃ player_id env, e = .message fd (.match_game player_id) env := by
  by_cases hmatch : ∀ fd player_id env, e ≠ .message fd (.match_game player_id) env
  · exact .inl ⟨p, h.fd_at_sub hmatch hp⟩
  · cases h with
    | quiet _ _ => exact .inl ⟨p, hp⟩
    | leave hw _ _ =>
      exact .inl ⟨p, (fd_at_leave_queue.mp hp).2⟩
    | @start fd' player_id id counter env w j game hid hw hfree hgen hnew =>
      obtain ⟨_, _, _, hown, hother, _⟩ := new_game_spec hnew
      have hleft : ((mgr.set_game j game).leave_queue w).fd_at p = some fd := hp
      rcases fd_at_set_game (fd_at_leave_queue.mp hleft).2 with ⟨team, _, hfd⟩ | ⟨_, hold⟩
      · by_cases hteam : team = requester_team env
        · rw [hteam, hown] at hfd
          subst hfd
          exact .inr ⟨player_id, env, rfl⟩
        · rw [Team.eq_other_of_ne hteam, hother] at hfd
          exact .inl ⟨.waiting w, fd_at_waiting.mpr ⟨find_slot_eq_some hw, hfd.symm⟩⟩
      · exact .inl ⟨p, hold⟩
    | finish hq hfind =>
      exact .inl ⟨p, (Change.finish hq hfind).fd_at_sub
        (fun _ _ _ he => by rw [he] at hq; exact hq) hp⟩
    | play hacc hmgr => exact .inl ⟨p, (Change.play hacc hmgr).fd_at_sub (by simp) hp⟩
    | tick hslots hw hc => exact .inl ⟨p, (Change.tick hslots hw hc).fd_at_sub (by simp) hp⟩
    | @enqueue fd' player_id env w hid hnobody =>
      rcases fd_at_set_waiting hp with ⟨_, hfd⟩ | ⟨_, hold⟩
      · subst hfd
        exact .inr ⟨player_id, env, rfl⟩
      · exact .inl ⟨p, hold⟩

theorem Hosting.step (h : Hosting mgr) (hok : Regular mgr (e, out))
    (hstep : server.step mgr (e, out) mgr') : Hosting mgr' where
  unique := h.unique.step hok.fresh hstep
  one_waits := fun _ _ hi hk => (step_change hstep).one_waits h.one_waits hi hk
  descriptors := by
    intro p fd hp
    rcases (step_change hstep).placed hp with ⟨q, hq⟩ | ⟨player_id, env, he⟩
    · exact h.descriptors q fd hq
    · have hfd := hok.descriptor
      rw [show (e, out).1 = e from rfl, he] at hfd
      exact hfd

theorem hosting_init : Hosting init_match_manager where
  unique := unique_places_init
  one_waits := by
    intro i k hi
    cases hi
  descriptors := by
    intro p fd hp
    cases p with
    | waiting i => cases (fd_at_waiting.mp hp).1
    | seat j team => cases (fd_at_seat.mp hp).1

end hosting

/-! ## The club of the tables -/

section view

variable {mgr : MatchManager} {r : Record} {i : Fin max_active_games}
  {w : Fin max_waiting_players} {fd : Int}

theorem club_of_queue : (club_of mgr r).waiting =
    (first_waiting mgr).map fun i => (mgr.waiting_players i).guest := by
  rw [club_of]

theorem club_of_tables : (club_of mgr r).tables i =
    if (mgr.active_games i).is_active then some ((mgr.active_games i).table (r i)) else none := by
  rw [club_of]

theorem club_of_active (h : (mgr.active_games i).is_active = true) :
    (club_of mgr r).tables i = some ((mgr.active_games i).table (r i)) :=
  if_pos h

theorem club_of_inactive (h : (mgr.active_games i).is_active = false) :
    (club_of mgr r).tables i = none := by
  rw [club_of_tables, h]
  rfl

/-- Who waits in the tables waits in the club. -/
theorem club_of_waiting (hhost : Hosting mgr) (h : (mgr.waiting_players w).is_active = true) :
    (club_of mgr r).waiting = some (mgr.waiting_players w).guest := by
  have hfirst : first_waiting mgr = some w :=
    find_slot_of_unique h fun k hk => hhost.one_waits k w hk h
  rw [club_of_queue, hfirst]
  rfl

theorem club_of_nobody (h : first_waiting mgr = none) : (club_of mgr r).waiting = none := by
  rw [club_of_queue, h]
  rfl

/-- The only one who waits leaves the queue. -/
theorem club_of_leave (hhost : Hosting mgr) (h : (mgr.waiting_players w).is_active = true) :
    club_of (mgr.leave_queue w) r = { club_of mgr r with waiting := none } := by
  have hnobody : first_waiting (mgr.leave_queue w) = none := by
    cases hfirst : first_waiting (mgr.leave_queue w) with
    | none => rfl
    | some k =>
      obtain ⟨hne, hk⟩ := fd_at_leave_queue.mp (fd_at_waiting.mpr ⟨find_slot_eq_some hfirst, rfl⟩)
      have hkw := hhost.one_waits k w (fd_at_waiting.mp hk).1 h
      rw [hkw] at hne
      exact absurd rfl hne
  apply Club.ext
  · exact club_of_nobody hnobody
  · funext i
    rw [club_of_tables]
    rfl

/-- A slot of the game table is a table of the club. -/
theorem club_of_set_game (g : ActiveGame) :
    club_of (mgr.set_game i g) r =
      (club_of mgr r).set i (if g.is_active then some (g.table (r i)) else none) := by
  apply Club.ext
  · rw [Club.waiting_set, club_of_queue, club_of_queue]
    unfold first_waiting MatchManager.set_game
    rfl
  · funext k
    by_cases hk : k = i
    · subst hk
      rw [Club.set_self, club_of_tables, set_game_self]
    · rw [Club.set_ne _ _ hk, club_of_tables, club_of_tables, set_game_ne mgr g hk]

/-- The counters are no part of the club. -/
theorem club_of_eq {mgr' : MatchManager} (hgames : mgr'.active_games = mgr.active_games)
    (hwaiting : mgr'.waiting_players = mgr.waiting_players) : club_of mgr' r = club_of mgr r := by
  rw [club_of, club_of]
  unfold first_waiting
  rw [hgames, hwaiting]

theorem club_of_end_game : club_of (mgr.end_game i) r = (club_of mgr r).set i none := by
  have hset : club_of (mgr.end_game i) r =
      club_of (mgr.set_game i { mgr.active_games i with is_active := false }) r :=
        club_of_eq rfl rfl
  rw [hset, club_of_set_game]
  rfl

/-- Who has no place is not in the club. -/
theorem club_of_absent (h : Unplaced mgr fd) : (club_of mgr r).Absent fd where
  waiting := by
    intro g hg
    rw [club_of_queue] at hg
    obtain ⟨w, hw, rfl⟩ := Option.map_eq_some_iff.mp hg
    intro hfd
    exact h (.waiting w) (fd_at_waiting.mpr ⟨find_slot_eq_some hw, hfd⟩)
  seated := by
    intro i t team ht
    rw [club_of_tables] at ht
    split at ht
    · rename_i hactive
      cases ht
      intro hfd
      exact h (.seat i team) (fd_at_seat.mpr ⟨hactive, hfd⟩)
    · cases ht

/-- A step that starts no game and plays no move leaves the record alone. -/
theorem Record.next_same {mgr' : MatchManager} {e : Event} (hacc : accepted mgr e = none)
    (hold : ∀ i, (mgr'.active_games i).is_active = true → (mgr.active_games i).is_active = true) :
    r.next mgr e mgr' = r := by
  funext i
  unfold Record.next
  have hnot : ¬ ((mgr.active_games i).is_active = false ∧
      (mgr'.active_games i).is_active = true) := by
    intro ⟨hfree, hactive⟩
    rw [hold i hactive] at hfree
    cases hfree
  rw [if_neg hnot, hacc]

end view

end MultiplayChess
