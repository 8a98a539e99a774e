import MultiplayChess.Server.System

/-! # What the server sends

    Which kinds of messages each handler sends, whatever the environment
    does.  `Only p out` says that all messages of `out` satisfy `p`; a
    handler's lemma asks for `p` on the kinds it can send. -/

namespace MultiplayChess

open LTS Loop

/-- All messages satisfy `p`. -/
def Only (p : ServerMessage → Prop) (out : List Sent) : Prop :=
  ∀ s ∈ out, p s.msg

/-- All sends of a run. -/
def sends {α : Type} (ls : List (α × List Sent)) : List Sent :=
  ls.flatMap fun l => l.2

/-- The messages that reach a client: the network keeps their order. -/
def inbox (fd : Int) (out : List Sent) : List ServerMessage :=
  (out.filter fun s => s.fd == fd && s.ok).map fun s => s.msg

@[simp] theorem sends_cons {α : Type} (l : α × List Sent) (ls : List (α × List Sent)) :
    sends (l :: ls) = l.2 ++ sends ls :=
  List.flatMap_cons

@[simp] theorem sends_append {α : Type} (ls ls' : List (α × List Sent)) :
    sends (ls ++ ls') = sends ls ++ sends ls' :=
  List.flatMap_append

@[simp] theorem sends_singleton {α : Type} (l : α × List Sent) : sends [l] = l.2 :=
  List.append_nil _

@[simp] theorem inbox_append (fd : Int) (out out' : List Sent) :
    inbox fd (out ++ out') = inbox fd out ++ inbox fd out' := by
  unfold inbox
  rw [List.filter_append, List.map_append]

theorem Only.inbox {p : ServerMessage → Prop} {out : List Sent} (h : Only p out) (fd : Int) :
    ∀ msg ∈ inbox fd out, p msg := by
  intro msg hmsg
  obtain ⟨s, hs, rfl⟩ := List.mem_map.mp hmsg
  exact h s (List.mem_filter.mp hs).1

section handlers

variable {p : ServerMessage → Prop} {mgr : MatchManager} {env : Env} {fd : Int} {o : Outcome}

theorem Only.nil : Only p [] := by
  intro s hs
  cases hs

theorem Only.send {out : List Sent} {msg : ServerMessage} (h : Only p out) (hmsg : p msg) :
    Only p (send_server_message env out fd msg).1 := by
  intro s hs
  rcases List.mem_append.mp hs with hs | hs
  · exact h s hs
  · rw [List.mem_singleton.mp hs]
    exact hmsg

/-- A message that is sent under a condition. -/
theorem Only.send_if {c : Prop} [Decidable c] {out : List Sent} {msg : ServerMessage}
    (h : Only p out) (hmsg : p msg) :
    Only p (if c then (send_server_message env out fd msg).1 else out) := by
  by_cases hc : c
  · rw [if_pos hc]
    exact h.send hmsg
  · rw [if_neg hc]
    exact h

theorem mem_report_error {s : Sent} (h : s ∈ o.out) : s ∈ (report_error env fd o).out := by
  unfold report_error
  split
  · exact h
  · exact List.mem_append_left _ h

theorem handle_match_game_only {player_id : CString} (herror : ∀ res, p (.error res))
    (hmatch : ∀ res, p (.match_game_res res))
    (h : handle_match_game_message mgr env fd player_id = .ok o) : Only p o.out := by
  unfold handle_match_game_message at h
  split at h
  · cases h
    exact Only.nil.send (herror _)
  · obtain ⟨⟨mgr₁, result⟩, _, h⟩ := bind_eq_ok.mp h
    simp only at h
    split at h <;> cases h
    · exact Only.nil.send (hmatch _)
    · unfold announce_start
      split
      · exact Only.nil
      · simp only
        split
        · exact (Only.nil.send (hmatch _)).send (hmatch _)
        · exact Only.nil.send (hmatch _)
    · exact Only.nil.send (herror _)

theorem handle_chat_only {message : CString} (hchat : ∀ b, p (.chat_broadcast b)) :
    Only p (handle_chat_message mgr env fd message).out := by
  unfold handle_chat_message
  split
  · exact Only.nil
  · simp only
    generalize (if ((mgr.active_games _).white_player_fd == fd) = true then _ else _ : CString) = id
    split
    · exact (Only.nil.send (hchat _)).send (hchat _)
    · exact Only.nil.send (hchat _)

theorem handle_cancel_match_only {player_id : CString} (herror : ∀ res, p (.error res))
    (hcancel : ∀ res, p (.cancel_match_res res)) :
    Only p (handle_cancel_match_message mgr env fd player_id).out := by
  unfold handle_cancel_match_message
  split
  · exact Only.nil.send (herror _)
  · exact Only.nil.send (hcancel _)

theorem handle_resign_only {player_id : CString} (herror : ∀ res, p (.error res))
    (hresign : ∀ res, p (.resign_res res)) (hbroadcast : ∀ b, p (.resign_broadcast b))
    (h : handle_resign_message mgr env fd player_id = .ok o) : Only p o.out := by
  unfold handle_resign_message at h
  split at h
  · cases h
    exact Only.nil.send (herror _)
  · simp only at h
    obtain ⟨_, _, h⟩ := bind_eq_ok.mp h
    obtain ⟨_, _, h⟩ := bind_eq_ok.mp h
    cases h
    exact ((Only.nil.send (hresign _)).send (hbroadcast _)).send_if (hbroadcast _)

theorem handle_player_disconnect_only (hend : ∀ b, p (.game_end b))
    (h : handle_player_disconnect mgr env fd = .ok o) : Only p o.out := by
  unfold handle_player_disconnect at h
  split at h
  · cases h
    exact Only.nil
  · split at h
    · simp only at h
      obtain ⟨_, _, h⟩ := bind_eq_ok.mp h
      cases h
      exact Only.nil.send (hend _)
    · cases h
      exact Only.nil

theorem check_game_timeouts_only (hend : ∀ b, p (.game_end b))
    (h : check_game_timeouts mgr env = .ok o) : Only p o.out := by
  unfold check_game_timeouts at h
  obtain ⟨⟨mgr', out⟩, hloop, h⟩ := bind_eq_ok.mp h
  cases h
  apply foldlM_invariant (P := fun st : MatchManager × List Sent => Only p st.2) ?_ Only.nil hloop
  intro st i st' hst hround
  obtain ⟨game, timeout, _, ⟨_, rfl⟩ | ⟨loser, _, rfl⟩⟩ := check_slot_cases hround
  · exact hst
  · exact (hst.send (hend _)).send (hend _)

/-- A rejected move request. -/
theorem handle_move_rejected_only {req : MoveRequest} (hmove : ∀ res, p (.move_res res))
    (h : accepted mgr (.message fd (.move req) env) = none) :
    Only p (handle_move_message mgr env fd req).out := by
  unfold accepted at h
  unfold handle_move_message
  cases hfind : find_game_by_player_fd mgr fd with
  | none => exact Only.nil.send (hmove _)
  | some i =>
    simp only [hfind] at h
    unfold move_in_game
    cases hteam : player_team (mgr.active_games i) fd with
    | none =>
      simp only [hteam]
      exact Only.nil.send (hmove _)
    | some team =>
      simp only [hteam] at h ⊢
      cases hcheck : check_move (mgr.active_games i).game_state team req with
      | error msg =>
        exact Only.nil.send (hmove _)
      | ok squares =>
        simp only [hcheck] at h
        cases h

end handlers

end MultiplayChess
