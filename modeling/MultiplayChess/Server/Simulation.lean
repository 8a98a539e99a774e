import MultiplayChess.Server.Hosting

/-! # The simulation

    Step by step the server is matched by the club, and so run by run.  The
    club's conversations then tell what every single client hears of a run,
    whatever the other clients do. -/

namespace MultiplayChess

open LTS Loop
open Chess (Club Move Notice club conversation converses addressed addressed_eq_flatMap)

/-! ## Every step -/

/-- Tables and a record, and the club they stand for. -/
structure StandsFor (s : Recorded) (c : Club Int CString (Fin max_active_games)) : Prop where
  club : c = club_of s.mgr s.record
  hosting : Hosting s.mgr
  conducted : AllConducted s
  ids : IdsOk s.mgr

theorem StandsFor.initial : StandsFor .initial .empty where
  club := by
    apply Club.ext
    · have hnobody : first_waiting init_match_manager = none := by
        apply Fin.find?_eq_none_iff.mpr
        intro i
        rfl
      exact (club_of_nobody hnobody).symm
    · rfl
  hosting := hosting_init
  conducted := by
    intro i hactive
    cases hactive
  ids := ids_ok_init

section step

variable {s s' : Recorded} {e : Event} {out : List Sent}

/-- Only match requests bring slots into use. -/
theorem still_active {mgr mgr' : MatchManager} (h : Change mgr e mgr')
    (hmatch : ∀ fd player_id env, e ≠ .message fd (.match_game player_id) env)
    (i : Fin max_active_games) (hi : (mgr'.active_games i).is_active = true) :
    (mgr.active_games i).is_active = true := by
  by_contra hfree
  rw [Bool.not_eq_true] at hfree
  obtain ⟨fd, player_id, env, _, _, he, _⟩ := (h.slot i).starts hfree hi
  exact hmatch fd player_id env he

/-- An accepted move is the only entry in the record. -/
theorem record_next_accepted {mgr mgr' : MatchManager} {r : Record} {i : Fin max_active_games}
    {m : Move} (hacc : accepted mgr e = some (i, m))
    (hold : ∀ k, (mgr'.active_games k).is_active = true → (mgr.active_games k).is_active = true) :
    r.next mgr e mgr' = Function.update r i (r i ++ [(e.fd, m)]) := by
  funext k
  unfold Record.next
  have hnot : ¬ ((mgr.active_games k).is_active = false ∧
      (mgr'.active_games k).is_active = true) := by
    intro ⟨hfree, hactive⟩
    rw [hold k hactive] at hfree
    cases hfree
  rw [if_neg hnot, hacc]
  by_cases hk : i = k
  · subst hk
    rw [Function.update_self]
    exact if_pos rfl
  · rw [Function.update_of_ne (Ne.symm hk)]
    exact if_neg hk

/-- A rejected move changes nothing and tells nobody. -/
theorem rejected_matched {mgr : MatchManager} {env : Env} {fd : Int} {req : MoveRequest}
    (hacc : accepted mgr (.message fd (.move req) env) = none) :
    (handle_move_message mgr env fd req).mgr = mgr ∧
      notices (handle_move_message mgr env fd req).out = [] := by
  refine ⟨?_, Only.notices_eq (handle_move_rejected_only (fun _ => rfl) hacc)⟩
  have hchange :
      Change mgr (.message fd (.move req) env) (handle_move_message mgr env fd req).mgr :=
    handle_move_change
  generalize (handle_move_message mgr env fd req).mgr = mgr' at hchange
  cases hchange with
  | quiet _ _ => rfl
  | leave hw _ _ => exact absurd hw id
  | finish hq _ => exact absurd hq id
  | play hacc' _ =>
    rw [hacc] at hacc'
    cases hacc'

/-- **One step of the server** is matched by the club. -/
theorem step_matched {c : Club Int CString (Fin max_active_games)} (h : StandsFor s c)
    (hok : Regular s.mgr (e, out)) (hstep : recorded_server.step s (e, out) s') :
    Matched c (club_of s'.mgr s'.record) (noticed (e, out)) := by
  obtain ⟨hserver, hrecord⟩ := recorded_step hstep
  have hchange := step_change hserver
  rw [h.club, hrecord]
  -- a step that is no match request and no accepted move leaves the record
  have hsame : (∀ fd player_id env, e ≠ .message fd (.match_game player_id) env) →
      accepted s.mgr e = none → s.record.next s.mgr e s'.mgr = s.record := by
    intro hmatch hacc
    exact Record.next_same hacc (still_active hchange hmatch)
  cases e with
  | disconnect fd env =>
    rw [hsame (by simp) rfl]
    obtain ⟨o, ho, hmgr, hout⟩ := disconnect_step_ok hserver
    rw [← hmgr, ← hout]
    exact disconnect_matched h.hosting ho
  | tick env =>
    rw [hsame (by simp) rfl]
    obtain ⟨o, ho, hmgr, hout⟩ := tick_step_ok hserver
    rw [← hmgr, ← hout]
    apply tick_matched ?_ ho
    intro i hactive
    exact (Run.following (h.conducted i hactive).run).tracks.turn.symm
  | message fd msg env =>
    obtain ⟨o, ho, hmgr, hout⟩ := message_step_ok hserver
    have hnotices : noticed (.message fd msg env, out) = notices o.out := by
      rw [← notices_report_error, hout]
      rfl
    rw [hnotices]
    rw [← hmgr] at hsame ⊢
    cases msg with
    | match_game player_id => exact request_matched h.hosting hok ho
    | cancel_match player_id =>
      rw [hsame (by simp) rfl]
      cases ho
      exact cancel_matched h.hosting player_id
    | chat message =>
      rw [hsame (by simp) rfl]
      cases ho
      rw [handle_chat_mgr]
      exact chat_matched message (hok.sent trivial)
    | resign player_id =>
      rw [hsame (by simp) rfl]
      exact resign_matched h.hosting ho
    | move req =>
      cases ho
      cases hacc : accepted s.mgr (.message fd (.move req) env) with
      | none =>
        rw [hsame (by simp) hacc]
        obtain ⟨hmgr, hsilent⟩ := rejected_matched hacc
        rw [hmgr, hsilent]
        exact .refl _
      | some p =>
        obtain ⟨i, m⟩ := p
        obtain ⟨_, _, _, _, _, hfind, _, _⟩ := accepted_spec hacc
        rw [record_next_accepted hacc (still_active handle_move_change (by simp))]
        exact move_matched h.ids (h.conducted i (find_game_spec hfind).1) hacc (hok.sent trivial)
    | ping message =>
      rw [hsame (by simp) rfl]
      cases ho
      exact reply_matched rfl
    | echo message =>
      rw [hsame (by simp) rfl]
      cases ho
      exact reply_matched rfl
    | unknown =>
      rw [hsame (by simp) rfl]
      cases ho
      exact reply_matched rfl

end step

/-! ## Every run -/

/-- **The server simulates the club.** -/
def hosts : Simulation recorded_server (fun s l => Regular s.mgr l)
    (club : System (Club Int CString (Fin max_active_games)) _) (Int × Notice CString) where
  related := StandsFor
  seen := noticed
  shown := id
  step := by
    intro s c ⟨e, out⟩ s' h hok hstep
    obtain ⟨ks, hrun, hks⟩ := step_matched h hok hstep
    obtain ⟨hserver, _⟩ := recorded_step hstep
    refine ⟨ks, _, hrun, ⟨rfl, h.hosting.step hok hserver, h.conducted.step hstep,
      h.ids.step (step_change hserver)⟩, ?_⟩
    rw [← hks, List.flatMap_id]

/-- The steps of the opening are regular. -/
def regular (mgr : MatchManager) (l : Event × List Sent) : Bool :=
  l.1.first_send && fresh_request mgr l.1 && decide (0 ≤ l.1.fd)

theorem regular_sound (mgr : MatchManager) (l : Event × List Sent) (h : regular mgr l = true) :
    Regular mgr l := by
  unfold regular at h
  rw [Bool.and_eq_true, Bool.and_eq_true, decide_eq_true_eq] at h
  obtain ⟨⟨hsent, hfresh⟩, hfd⟩ := h
  refine ⟨fun _ => hsent, fresh_request_sound mgr l.1 l.2 hfresh, ?_⟩
  obtain ⟨e, out⟩ := l
  cases e with
  | message fd msg env => exact hfd
  | disconnect fd env => exact hfd
  | tick env => trivial

/-- A list of events with regular steps only. -/
theorem regular_run {es : List Event} {s : Recorded} {ls : List (Event × List Sent)}
    (h : exec (guarded (fun s l => regular s.mgr l) recorded_run) .initial es = some (ls, s)) :
    RunWhere recorded_server (fun s l => Regular s.mgr l) .initial ls s := by
  apply exec_runWhere ?_ h
  intro s l hl
  exact regular_sound s.mgr l hl

theorem opening_regular :
    (exec (guarded (fun s l => regular s.mgr l) recorded_run) .initial opening).map
      (fun r => ((r.2.mgr.active_games 0).is_active, (r.1.flatMap noticed).length)) =
        some (true, 4) := by
  decide +kernel

/-- The notices of a run for the client at `fd`. -/
def heard_by (fd : Int) (ls : List (Event × List Sent)) : List (Notice CString) :=
  addressed fd (ls.flatMap noticed)

/-- The server, the club and the conversation of the client at `fd`. -/
def serves (fd : Int) : Simulation recorded_server (fun s l => Regular s.mgr l)
    (conversation : System _ (Notice CString)) (Notice CString) :=
  hosts.comp (converses fd) (fun n => if n.1 = fd then [n.2] else []) fun k =>
    addressed_eq_flatMap fd k

theorem opening_heard :
    (exec (guarded (fun s l => regular s.mgr l) recorded_run) .initial opening).map
      (fun r => ((heard_by 5 r.1).length, (heard_by 6 r.1).length, (heard_by 7 r.1).length)) =
        some (2, 2, 0) := by
  decide +kernel

end MultiplayChess
