import MultiplayChess.Server.System
import MultiplayChess.Common.Legality

/-! # Games of the server are games of chess

    A history variable records, for every slot of the game table, the moves
    accepted since the game in it was created, each with the fd that sent
    it.  In every run the position of an active game is the start position
    folded with these moves, each of them was legal when it was accepted,
    and White and Black took turns. -/

namespace MultiplayChess

open LTS
open Chess (Move)

/-! ## Recording the moves -/

/-- The connection a message comes from. -/
def Event.fd : Event → Int
  | .message fd _ _ => fd
  | .disconnect fd _ => fd
  | .tick _ => -1

/-- The accepted moves of each slot's game, with their senders. -/
abbrev Record : Type := Fin max_active_games → List (Int × Move)

/-- The record after a step: a new game has no moves, and an accepted move
    is added to its game's record. -/
def Record.next (r : Record) (mgr : MatchManager) (e : Event) (mgr' : MatchManager) : Record :=
  fun i =>
    if (mgr.active_games i).is_active = false ∧ (mgr'.active_games i).is_active = true then []
    else
      match accepted mgr e with
      | some (j, m) => if j = i then r i ++ [(e.fd, m)] else r i
      | none => r i

/-- The server's tables together with the record. -/
structure Recorded where
  mgr : MatchManager
  record : Record

def Recorded.initial : Recorded :=
  { mgr := init_match_manager, record := fun _ => [] }

/-- One recorded step of the server. -/
def recorded_run (s : Recorded) (e : Event) : Option (Recorded × List Sent) :=
  (server_run s.mgr e).map fun r => ({ mgr := r.1, record := s.record.next s.mgr e r.1 }, r.2)

/-- The server with its record. -/
def recorded_server : System Recorded (Event × List Sent) :=
  ofStep (fun s => s = .initial) recorded_run

/-- A recorded step is a step of the server. -/
theorem recorded_step {s s' : Recorded} {e : Event} {out : List Sent}
    (h : recorded_server.step s (e, out) s') :
    server.step s.mgr (e, out) s'.mgr ∧ s'.record = s.record.next s.mgr e s'.mgr := by
  obtain ⟨⟨mgr', out'⟩, hrun, heq⟩ := Option.map_eq_some_iff.mp h
  cases heq
  exact ⟨hrun, rfl⟩

/-- Every run of the server can be recorded. -/
theorem recorded_of_run {mgr : MatchManager} {ls : List (Event × List Sent)}
    (h : Run server init_match_manager ls mgr) :
    ∃ r, Run recorded_server .initial ls { mgr := mgr, record := r } := by
  induction h with
  | nil => exact ⟨_, .nil⟩
  | @snoc t u ls l _ _ hstep ih =>
    obtain ⟨r, hr⟩ := ih
    refine ⟨r.next t l.1 u, hr.snoc ?_⟩
    show recorded_run { mgr := t, record := r } l.1 = some (_, l.2)
    unfold recorded_run
    rw [show server_run t l.1 = some (u, l.2) from hstep]
    rfl

/-- Without the record it is a run of the server. -/
theorem Run.of_recorded {s : Recorded} {ls : List (Event × List Sent)}
    (h : Run recorded_server .initial ls s) : Run server init_match_manager ls s.mgr := by
  induction h with
  | nil => exact .nil
  | snoc _ _ hstep ih => exact ih.snoc (recorded_step hstep).1

/-! ## The invariant -/

/-- The moves of a record. -/
def moves_of (r : List (Int × Move)) : List Move :=
  r.map Prod.snd

/-- The position that moves lead to from the start position. -/
def fold_moves (ms : List Move) : Game :=
  ms.foldl (fun G m => apply_move G m.sx m.sy m.dx m.dy) (init_startpos .zero)

/-- The game has been conducted by the recorded moves. -/
structure Conducted (g : ActiveGame) (r : List (Int × Move)) : Prop where
  run : Run rules (init_startpos .zero) (moves_of r) g.game_state
  senders : ∀ k (h : k < r.length), r[k].1 = g.fd_of (turnAfter k)

theorem Conducted.congr {g g' : ActiveGame} {r : List (Int × Move)} (h : Conducted g r)
    (hstate : g'.game_state = g.game_state) (hfd : ∀ t, g'.fd_of t = g.fd_of t) :
    Conducted g' r where
  run := by
    rw [hstate]
    exact h.run
  senders := by
    intro k hk
    rw [hfd]
    exact h.senders k hk

/-- A game that has just been set up has no moves. -/
theorem Conducted.fresh {env : Env} {old game : ActiveGame} {w : WaitingPlayer} {fd : Int}
    {player_id id : CString} (h : new_game env old w fd player_id id = .ok game) :
    Conducted game [] := by
  unfold new_game at h
  simp only at h
  obtain ⟨_, _, h⟩ := Loop.bind_eq_ok.mp h
  obtain ⟨_, _, h⟩ := Loop.bind_eq_ok.mp h
  obtain ⟨_, _, h⟩ := Loop.bind_eq_ok.mp h
  cases h
  constructor
  · show Run rules _ [] (init_startpos old.game_state)
    rw [init_startpos_eq old.game_state .zero]
    exact .nil
  · intro k hk
    cases hk

/-- The requester of an accepted move sits for the side to move, and the
    move is legal. -/
theorem check_move_ok {G : Game} {team : Team} {req : MoveRequest} {src dst : Int × Int}
    (h : check_move G team req = .ok (src, dst)) :
    G.side_to_move = team ∧ parse_chess_coordinate req.from_coord = some src ∧
      parse_chess_coordinate req.to_coord = some dst ∧
      is_move_legal G src.1 src.2 dst.1 dst.2 = true := by
  unfold check_move at h
  split at h
  · cases h
  · rename_i hturn
    split at h
    · cases h
    · rename_i src' hsrc
      split at h
      · cases h
      · rename_i dst' hdst
        split at h
        · rename_i hlegal
          cases h
          exact ⟨Classical.not_not.mp hturn, hsrc, hdst, hlegal⟩
        · cases h

theorem player_team_fd {g : ActiveGame} {fd : Int} {team : Team}
    (h : player_team g fd = some team) : g.fd_of team = fd := by
  unfold player_team at h
  split at h
  · rename_i hw
    cases h
    exact beq_iff_eq.mp hw
  · split at h
    · rename_i hb
      cases h
      exact beq_iff_eq.mp hb
    · cases h

/-- The side to move follows from the number of moves. -/
theorem Conducted.turn {g : ActiveGame} {r : List (Int × Move)} (h : Conducted g r) :
    g.game_state.side_to_move = turnAfter r.length := by
  have hturn := (Run.following h.run).tracks.turn
  simpa [positionOf, moves_of] using hturn

theorem forall_snoc {α : Type} {P : Nat → α → Prop} {l : List α} {x : α}
    (h : ∀ k (hk : k < l.length), P k l[k]) (hx : P l.length x) :
    ∀ k (hk : k < (l ++ [x]).length), P k (l ++ [x])[k] := by
  intro k hk
  by_cases hold : k < l.length
  · rw [List.getElem_append_left hold]
    exact h k hold
  · have hlast : k = l.length := by
      rw [List.length_append, List.length_singleton] at hk
      omega
    subst hlast
    rw [List.getElem_concat_length rfl]
    exact hx

/-- An accepted move extends the record. -/
theorem Conducted.play {mgr : MatchManager} {e : Event} {i : Fin max_active_games} {m : Move}
    {r : List (Int × Move)} (h : Conducted (mgr.active_games i) r)
    (hacc : accepted mgr e = some (i, m)) (now : Int) :
    Conducted ((mgr.active_games i).play now m.sx m.sy m.dx m.dy) (r ++ [(e.fd, m)]) := by
  obtain ⟨fd, req, env, team, rfl, _, hteam, hcheck⟩ := accepted_spec hacc
  obtain ⟨hturn, _, _, hlegal⟩ := check_move_ok hcheck
  constructor
  · unfold moves_of
    rw [List.map_append]
    exact h.run.snoc ⟨hlegal, rfl⟩
  · -- the seats are those of the game before the move
    apply forall_snoc (P := fun k (x : Int × Move) =>
      x.1 = (mgr.active_games i).fd_of (turnAfter k)) h.senders ?_
    show fd = (mgr.active_games i).fd_of (turnAfter r.length)
    rw [← h.turn, hturn, player_team_fd hteam]

/-- Every active game has been conducted by its record. -/
def AllConducted (s : Recorded) : Prop :=
  ∀ i, (s.mgr.active_games i).is_active = true → Conducted (s.mgr.active_games i) (s.record i)

/-- **The step lemma.** -/
theorem AllConducted.step {s s' : Recorded} {e : Event} {out : List Sent} (h : AllConducted s)
    (hstep : recorded_server.step s (e, out) s') : AllConducted s' := by
  obtain ⟨hserver, hrecord⟩ := recorded_step hstep
  intro i hactive
  rw [hrecord]
  unfold Record.next
  cases (step_change hserver).slot i with
  | kept hother hg =>
    -- the game was neither started nor played in, so it is the same
    have hsame := not_ended hg hactive
    rw [hsame] at hactive ⊢
    rw [if_neg (by simp [hactive])]
    cases hacc : accepted s.mgr e with
    | none => exact h i hactive
    | some p =>
      obtain ⟨j, m⟩ := p
      have hji : j ≠ i := by
        rintro rfl
        exact hother m hacc
      simp only [if_neg hji]
      exact h i hactive
  | ticked he hticked =>
    obtain ⟨hstate, hfd, _, _, hwas⟩ := hticked.frame
    subst he
    rw [if_neg (by simp [hwas hactive])]
    exact (h i (hwas hactive)).congr hstate hfd
  | started he _ _ hfree _ hnew =>
    -- a new game begins with an empty record
    rw [if_pos ⟨hfree, hactive⟩]
    exact .fresh hnew
  | @played fd req env m he hacc hg =>
    obtain ⟨_, _, _, _, _, hfind, _, _⟩ := accepted_spec hacc
    have hwas := (find_game_spec hfind).1
    rw [if_neg (by simp [hwas]), hacc]
    simp only [if_true]
    -- one more move, on the board and in the record
    have hplay := (h i hwas).play hacc (env.ms 0)
    rw [not_ended hg hactive]
    exact hplay

/-- **The run lemma.** -/
theorem Run.all_conducted {s : Recorded} {ls : List (Event × List Sent)}
    (h : Run recorded_server .initial ls s) : AllConducted s := by
  refine h.invariant (fun _ l _ hs _ hstep => ?_) ?_
  · obtain ⟨e, out⟩ := l
    exact hs.step hstep
  · intro i hactive
    cases hactive

/-! ## What the run says about the games -/

/-- A run of the rules folds `apply_move` over its moves, each of them legal
    in the position it was played in. -/
theorem run_fold {G : Game} {ms : List Move} (h : Run rules (init_startpos .zero) ms G) :
    G = fold_moves ms ∧ ∀ k (hk : k < ms.length), is_move_legal (fold_moves (ms.take k))
      ms[k].sx ms[k].sy ms[k].dx ms[k].dy = true := by
  induction h with
  | nil =>
    refine ⟨rfl, ?_⟩
    intro k hk
    cases hk
  | @snoc t u ms m hrun _ hstep ih =>
    obtain ⟨hfold, hlegal⟩ := ih
    obtain ⟨hm, rfl⟩ := hstep
    constructor
    · unfold fold_moves at hfold ⊢
      rw [List.foldl_append, ← hfold]
      rfl
    · apply forall_snoc (P := fun k (x : Move) => is_move_legal (fold_moves ((ms ++ [m]).take k))
        x.sx x.sy x.dx x.dy = true) ?_ ?_
      · intro k hk
        rw [List.take_append_of_le_length (Nat.le_of_lt hk)]
        exact hlegal k hk
      · rw [List.take_left, ← hfold]
        exact hm

/-- A step that accepts no move for a game leaves its position alone. -/
theorem SlotChange.position {mgr : MatchManager} {e : Event} {i : Fin max_active_games}
    {g g' : ActiveGame} (h : SlotChange mgr e i g g') (hactive : g.is_active = true)
    (hacc : ∀ m, accepted mgr e ≠ some (i, m)) : g'.game_state = g.game_state := by
  cases h with
  | kept _ hg => rcases hg with rfl | rfl <;> rfl
  | ticked _ hticked => exact hticked.frame.1
  | started _ _ _ hfree _ _ =>
    rw [hactive] at hfree
    cases hfree
  | played _ hacc' _ => exact absurd hacc' (hacc _)

/-- **The server conducts chess.** In every run the position of an active
    game is the start position folded with the moves accepted for it since
    its creation; each was legal when accepted, the moves of even index
    were sent by White's fd and those of odd index by Black's; and no other
    event changes the position of a game. -/
theorem games_follow_accepted_moves {s : Recorded} {ls : List (Event × List Sent)}
    (hrun : Run recorded_server .initial ls s) :
    (∀ i, (s.mgr.active_games i).is_active = true →
      (s.mgr.active_games i).game_state = fold_moves (moves_of (s.record i)) ∧
      ∀ k (hk : k < (s.record i).length),
        is_move_legal (fold_moves (moves_of ((s.record i).take k))) (s.record i)[k].2.sx
          (s.record i)[k].2.sy (s.record i)[k].2.dx (s.record i)[k].2.dy = true ∧
        (s.record i)[k].1 =
          if k % 2 = 0 then (s.mgr.active_games i).white_player_fd
          else (s.mgr.active_games i).black_player_fd) ∧
    ∀ e out s', recorded_server.step s (e, out) s' →
      ∀ i, (s.mgr.active_games i).is_active = true → (∀ m, accepted s.mgr e ≠ some (i, m)) →
        (s'.mgr.active_games i).game_state = (s.mgr.active_games i).game_state := by
  constructor
  · intro i hactive
    have hconducted := Run.all_conducted hrun i hactive
    obtain ⟨hfold, hlegal⟩ := run_fold hconducted.run
    refine ⟨hfold, ?_⟩
    intro k hk
    constructor
    · have hk' : k < (moves_of (s.record i)).length := by
        unfold moves_of
        rwa [List.length_map]
      have := hlegal k hk'
      simpa only [moves_of, List.getElem_map, ← List.map_take] using this
    · rw [hconducted.senders k hk]
      unfold turnAfter
      split <;> rfl
  · intro e out s' hstep i hactive hacc
    exact ((step_change (recorded_step hstep).1).slot i).position hactive hacc

/-- Two players are matched and White opens with the king's pawn. -/
def opening : List Event :=
  [.message 5 (.match_game "ann".toList) (.calm 0),
    .message 6 (.match_game "bob".toList) (.calm 0),
    .message 6 (.move ⟨"e2".toList, "e4".toList⟩) (.calm 0)]

theorem opening_recorded : (exec recorded_run .initial opening).map
    (fun r => ((r.2.mgr.active_games 0).is_active, r.2.record 0)) =
      some (true, [(6, ⟨4, 1, 4, 3⟩)]) := by
  decide +kernel

/-- After the opening White's first move is on record and on the board. -/
theorem games_follow_accepted_moves_opening :
    ∃ ls s, Run recorded_server .initial ls s ∧
      s.record 0 = [(6, ⟨4, 1, 4, 3⟩)] ∧
      (s.mgr.active_games 0).game_state = fold_moves [⟨4, 1, 4, 3⟩] := by
  obtain ⟨⟨ls, s⟩, hrun, hs⟩ := Option.map_eq_some_iff.mp opening_recorded
  rw [Prod.mk.injEq] at hs
  obtain ⟨hactive, hrecord⟩ := hs
  have hgames := (games_follow_accepted_moves (exec_run hrun)).1 0 hactive
  refine ⟨ls, s, exec_run hrun, hrecord, ?_⟩
  rw [hgames.1, hrecord]
  rfl

end MultiplayChess
