import MultiplayChess.Client.Handlers
import MultiplayChess.Server.Places
import MultiplayChess.Server.Deliveries

/-! # Who has resigned

    The server knows the player who resigns by the connection the request
    came from, but announces the name the request contains; a client
    compares that name with its own.  Server and clients agree exactly if
    the request names the player who sent it and only that player. -/

namespace MultiplayChess

open LTS Loop

/-! ## What a client concludes -/

/-- The client tells its user that it has resigned. -/
def concludes_resigned (client : ClientState) : Bool :=
  client.resign_result_title == "Game Over - Resignation".toList

/-- The winner of the dialog after a resignation. -/
def concluded_winner (client : ClientState) : Team :=
  if client.resign_result_message == "Opponent resigned the game.\nYou win by resignation!".toList
  then client.game_state.local_team
  else client.game_state.local_team.other

/-- After both clients have heard of it, the one that resigned knows that it
    did, its opponent knows that it did not, and both have the announced
    winner. -/
def ResignationAgreed (resigner : Team) (b : ResignBroadcast) (clients : Team → ClientState) :
    Prop :=
  (∀ t, concludes_resigned (clients t) = true ↔ t = resigner) ∧
    ∀ t, (concluded_winner (clients t)).proto = b.winner_team

section client

variable {client : ClientState} {env : ClientEnv} {b : ResignBroadcast}

theorem save_local_team (client : ClientState) (files : FileEnv) :
    (client.save files).game_state.local_team = client.game_state.local_team := by
  obtain ⟨_, _, hsave⟩ := save_eq client files
  rw [hsave]

/-- Only the name in the broadcast counts. -/
theorem resign_broadcast_concludes : concludes_resigned (handle_resign_broadcast client env b) =
    (b.player_id == client.username) := by
  unfold concludes_resigned
  show ((if b.player_id == client.username then _ else _ : CString) == _) = _
  cases b.player_id == client.username with
  | true => exact beq_self_eq_true _
  | false => exact beq_false_of_ne (by decide)

theorem resign_broadcast_winner : concluded_winner (handle_resign_broadcast client env b) =
    if b.player_id = client.username then client.game_state.local_team.other
    else client.game_state.local_team := by
  have hteam : (handle_resign_broadcast client env b).game_state.local_team =
      client.game_state.local_team := save_local_team _ _
  unfold concluded_winner
  rw [hteam]
  show (if (if b.player_id == client.username then _ else _ : CString) == _ then _ else _) = _
  by_cases hname : b.player_id = client.username
  · rw [if_pos hname, if_pos (beq_iff_eq.mpr hname)]
    exact if_neg (by decide)
  · rw [if_neg hname, if_neg (fun h => hname (beq_iff_eq.mp h))]
    exact if_pos (beq_self_eq_true _)

end client

/-! ## What the server announces -/

section server

variable {mgr mgr' : MatchManager} {env : Env} {fd : Int} {player_id : CString}
  {out : List Sent} {i : Fin max_active_games} {resigner : Team} {b : ResignBroadcast}

/-- The broadcast has the name of the request, and the opponent of the
    connection as winner. -/
theorem resign_step_broadcast (hfind : find_game_by_player_fd mgr fd = some i)
    (hstep : server.step mgr (.message fd (.resign player_id) env, out) mgr')
    (hseat : (mgr.active_games i).fd_of resigner = fd)
    (hother : (mgr.active_games i).fd_of resigner.other ≠ fd)
    {s : Sent} (hs : s ∈ out) (hmsg : s.msg = .resign_broadcast b) :
    b.player_id = player_id ∧ b.winner_team = resigner.other.proto := by
  obtain ⟨o, ho, _, rfl⟩ := message_step_ok hstep
  have hwinner : (if (mgr.active_games i).white_player_fd == fd then ProtoTeam.black
      else .white) = resigner.other.proto := by
    cases resigner with
    | white => exact if_pos (beq_iff_eq.mpr hseat)
    | black => exact if_neg (fun h => hother (beq_iff_eq.mp h))
  -- every broadcast among the messages is this one
  have honly : Only (fun msg => ∀ b, msg = .resign_broadcast b →
      b.player_id = player_id ∧ b.winner_team = resigner.other.proto)
        (report_error env fd o).out := by
    have hresign : handle_resign_message mgr env fd player_id = .ok o := ho
    unfold handle_resign_message at hresign
    rw [hfind] at hresign
    simp only at hresign
    obtain ⟨game_id, _, h⟩ := bind_eq_ok.mp hresign
    obtain ⟨_, _, h⟩ := bind_eq_ok.mp h
    cases h
    have hresponse : ∀ b, ServerMessage.resign_res
        { game_id := game_id, player_id := player_id, success := true,
          message := "Resignation successful".toList } = .resign_broadcast b →
        b.player_id = player_id ∧ b.winner_team = resigner.other.proto := by
      intro b hb
      cases hb
    have hbroadcast : ∀ b, ServerMessage.resign_broadcast
        { game_id := game_id, player_id := player_id,
          winner_team := if (mgr.active_games i).white_player_fd == fd then .black else .white } =
          .resign_broadcast b →
        b.player_id = player_id ∧ b.winner_team = resigner.other.proto := by
      intro b hb
      cases hb
      exact ⟨rfl, hwinner⟩
    show Only _ (if _ then _ else _)
    exact ((Only.nil.send hresponse).send hbroadcast).send_if hbroadcast
  exact honly s hs b hmsg

/-- **Agreement on a resignation.** -/
theorem resignation_agreed_iff (hfind : find_game_by_player_fd mgr fd = some i)
    (hstep : server.step mgr (.message fd (.resign player_id) env, out) mgr')
    (hseat : (mgr.active_games i).fd_of resigner = fd)
    (hother : (mgr.active_games i).fd_of resigner.other ≠ fd)
    (hb : ∀ t, .resign_broadcast b ∈ inbox ((mgr.active_games i).fd_of t) out)
    (clients : Team → ClientState) (hteam : ∀ t, (clients t).game_state.local_team = t)
    (envs : Team → ClientEnv) :
    ResignationAgreed resigner b (fun t =>
        dispatch_server_message (clients t) (envs t) (.resign_broadcast b)) ↔
      player_id = (clients resigner).username ∧ player_id ≠ (clients resigner.other).username := by
  obtain ⟨s, hs, hmsg⟩ := List.mem_map.mp (hb resigner)
  obtain ⟨rfl, hwinner⟩ := resign_step_broadcast hfind hstep hseat hother
    (List.mem_filter.mp hs).1 hmsg
  -- a client goes by the name in the broadcast alone
  have hconcludes : ∀ t, concludes_resigned
      (dispatch_server_message (clients t) (envs t) (.resign_broadcast b)) = true ↔
        b.player_id = (clients t).username := by
    intro t
    show concludes_resigned (handle_resign_broadcast (clients t) (envs t) b) = true ↔ _
    rw [resign_broadcast_concludes, beq_iff_eq]
  constructor
  · intro ⟨hresigned, _⟩
    -- the resigner must find its own name, and the other player must not
    refine ⟨(hconcludes resigner).mp ((hresigned resigner).mpr rfl), ?_⟩
    intro hname
    exact Team.other_ne resigner ((hresigned resigner.other).mp ((hconcludes _).mpr hname))
  · intro ⟨hown, hopponent⟩
    have hname : ∀ t, b.player_id = (clients t).username ↔ t = resigner := by
      intro t
      by_cases ht : t = resigner
      · rw [ht]
        exact iff_of_true hown rfl
      · rw [Team.eq_other_of_ne ht]
        exact iff_of_false hopponent (Team.other_ne resigner)
    refine ⟨fun t => (hconcludes t).trans (hname t), ?_⟩
    intro t
    show (concluded_winner (handle_resign_broadcast (clients t) (envs t) b)).proto = _
    rw [resign_broadcast_winner, hteam, hwinner]
    by_cases ht : t = resigner
    · rw [if_pos ((hname t).mpr ht), ht]
    · rw [if_neg (fun h => ht ((hname t).mp h)), Team.eq_other_of_ne ht]

end server

/-! ## Two games -/

/-- The client of a player of a running game. -/
def client_named (username : CString) (t : Team) : ClientState :=
  { init_client_state with
    username := username
    game_state := { init_game_state with local_team := t, game_in_progress := true } }

/-- Black, on connection 5, resigns under its own name. -/
def ann_resigns : Event :=
  .message 5 (.resign "ann".toList) (.calm 0)

def ann_resigned : ResignBroadcast where
  game_id := "game_0_1".toList
  player_id := "ann".toList
  winner_team := .white

/-- After some events `ann` resigns as Black of the game in slot 0, and both
    players are told. -/
def ann_resigns_after (es : List Event) : Bool :=
  match exec server_run init_match_manager es with
  | none => false
  | some r =>
    match server_run r.2 ann_resigns with
    | none => false
    | some q =>
      find_game_by_player_fd r.2 5 = some 0 && (r.2.active_games 0).fd_of .black = 5 &&
        (r.2.active_games 0).fd_of .white = 6 &&
        (inbox 5 q.2).contains (.resign_broadcast ann_resigned) &&
        (inbox 6 q.2).contains (.resign_broadcast ann_resigned)

theorem ann_resigns_sound {es : List Event} (h : ann_resigns_after es = true) :
    ∃ ls mgr out mgr', Run server init_match_manager ls mgr ∧
      find_game_by_player_fd mgr 5 = some 0 ∧ server.step mgr (ann_resigns, out) mgr' ∧
      (mgr.active_games 0).fd_of .black = 5 ∧ (mgr.active_games 0).fd_of Team.black.other ≠ 5 ∧
      ∀ t, .resign_broadcast ann_resigned ∈ inbox ((mgr.active_games 0).fd_of t) out := by
  unfold ann_resigns_after at h
  split at h
  · cases h
  · rename_i r hrun
    split at h
    · cases h
    · rename_i q hq
      simp only [Bool.and_eq_true, decide_eq_true_eq, List.contains_iff_mem] at h
      obtain ⟨⟨⟨⟨hfind, hblack⟩, hwhite⟩, hown⟩, hopponent⟩ := h
      refine ⟨r.1, r.2, q.2, q.1, exec_run hrun, hfind, hq, hblack, ?_, ?_⟩
      · show (r.2.active_games 0).fd_of .white ≠ 5
        rw [hwhite]
        decide
      · intro t
        cases t with
        | white => rw [hwhite]; exact hopponent
        | black => rw [hblack]; exact hown

theorem ann_resigns_two_requests : ann_resigns_after two_requests = true := by
  decide +kernel

/-- The clients of the two players. -/
def ann_and_bob : Team → ClientState
  | .white => client_named "bob".toList .white
  | .black => client_named "ann".toList .black

theorem resignation_agreed_ann_and_bob :
    ResignationAgreed .black ann_resigned (fun t =>
      dispatch_server_message (ann_and_bob t) ⟨fun _ => 0, true, true⟩
        (.resign_broadcast ann_resigned)) := by
  obtain ⟨ls, mgr, out, mgr', _, hfind, hstep, hblack, hwhite, hb⟩ :=
    ann_resigns_sound ann_resigns_two_requests
  exact (resignation_agreed_iff hfind hstep hblack hwhite hb ann_and_bob
    (fun t => by cases t <;> rfl) (fun _ => ⟨fun _ => 0, true, true⟩)).mpr (by decide)

/-- Two players of the same name. -/
def two_anns : List Event :=
  [.message 5 (.match_game "ann".toList) (.calm 0),
    .message 6 (.match_game "ann".toList) (.calm 0)]

theorem ann_resigns_two_anns : ann_resigns_after two_anns = true := by
  decide +kernel

/-- Both clients tell their users that they have resigned. -/
theorem resignation_agreed_broken :
    ¬ ∀ (ls : List (Event × List Sent)) (mgr mgr' : MatchManager) (fd : Int) (player_id : CString)
      (env : Env) (out : List Sent) (i : Fin max_active_games) (resigner : Team)
      (b : ResignBroadcast) (clients : Team → ClientState) (envs : Team → ClientEnv),
      Run server init_match_manager ls mgr → find_game_by_player_fd mgr fd = some i →
      server.step mgr (.message fd (.resign player_id) env, out) mgr' →
      (mgr.active_games i).fd_of resigner = fd → (mgr.active_games i).fd_of resigner.other ≠ fd →
      (∀ t, .resign_broadcast b ∈ inbox ((mgr.active_games i).fd_of t) out) →
      (∀ t, (clients t).game_state.local_team = t) →
      ResignationAgreed resigner b (fun t =>
        dispatch_server_message (clients t) (envs t) (.resign_broadcast b)) := by
  intro hall
  obtain ⟨ls, mgr, out, mgr', hrun, hfind, hstep, hblack, hwhite, hb⟩ :=
    ann_resigns_sound ann_resigns_two_anns
  have hagreed := hall ls mgr mgr' 5 "ann".toList (.calm 0) out 0 .black ann_resigned
    (client_named "ann".toList) (fun _ => ⟨fun _ => 0, true, true⟩) hrun hfind hstep hblack
    hwhite hb
    (fun _ => rfl)
  have hboth : concludes_resigned (dispatch_server_message (client_named "ann".toList .white)
      ⟨fun _ => 0, true, true⟩ (.resign_broadcast ann_resigned)) = true :=
    resign_broadcast_concludes
  cases (hagreed.1 .white).mp hboth

end MultiplayChess
