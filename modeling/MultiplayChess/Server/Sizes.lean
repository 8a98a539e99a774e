import MultiplayChess.Common.Wire
import MultiplayChess.Server.Deliveries
import MultiplayChess.Server.Places
import MultiplayChess.Server.Record

/-! # The sizes of messages

    What the server makes up itself is short: error texts, names and game
    ids, which fit their buffers.  Four messages carry a text of the client
    that may be of any length, the echo response, the chat broadcast, the
    cancel response and the resign messages; so a step sends nothing above
    1 MiB exactly if the text it copies leaves room for what is packed
    around it. -/

namespace MultiplayChess

open LTS Loop

/-! ## Names in the tables -/

/-- The texts of the game fit their buffers. -/
def ActiveGame.NamesFit (g : ActiveGame) : Prop :=
  g.game_id.length < 64 ∧ ∀ team, (g.player_id team).length < 64

def NamesFit (mgr : MatchManager) : Prop :=
  ∀ i, (mgr.active_games i).NamesFit

theorem strcpy_length {size : Nat} {s t : CString} (h : strcpy size s = .ok t) :
    t.length < size := by
  unfold strcpy at h
  split at h <;> cases h
  assumption

theorem new_game_names {env : Env} {old game : ActiveGame} {w : WaitingPlayer} {fd : Int}
    {player_id id : CString} (h : new_game env old w fd player_id id = .ok game) :
    game.NamesFit := by
  unfold new_game at h
  simp only at h
  obtain ⟨id', hid, h⟩ := bind_eq_ok.mp h
  obtain ⟨white_id, hwhite, h⟩ := bind_eq_ok.mp h
  obtain ⟨black_id, hblack, h⟩ := bind_eq_ok.mp h
  cases h
  have hid : id'.length < 33 := strcpy_length hid
  refine ⟨Nat.lt_trans hid (by decide), ?_⟩
  intro team
  cases team with
  | white => exact strcpy_length hwhite
  | black => exact strcpy_length hblack

theorem ActiveGame.NamesFit.congr {g g' : ActiveGame} (h : g.NamesFit)
    (hid : g'.game_id = g.game_id) (hplayer : ∀ team, g'.player_id team = g.player_id team) :
    g'.NamesFit := by
  refine ⟨hid ▸ h.1, ?_⟩
  intro team
  rw [hplayer]
  exact h.2 team

theorem NamesFit.step {mgr mgr' : MatchManager} {e : Event} (h : NamesFit mgr)
    (hchange : Change mgr e mgr') : NamesFit mgr' := by
  intro i
  cases hchange.slot i with
  | kept _ hg =>
    rcases hg with hg | hg <;> rw [hg]
    · exact h i
    · exact (h i).congr rfl fun team => by cases team <;> rfl
  | ticked _ hticked =>
    obtain ⟨_, _, hid, hplayer, _⟩ := hticked.frame
    exact (h i).congr hid hplayer
  | started _ _ _ _ _ hnew => exact new_game_names hnew
  | played _ _ hg =>
    rcases hg with hg | hg <;> rw [hg]
    · exact (h i).congr rfl fun team => by cases team <;> rfl
    · exact (h i).congr rfl fun team => by cases team <;> rfl

theorem names_fit_init : NamesFit init_match_manager := by
  intro i
  refine ⟨Nat.zero_lt_succ _, ?_⟩
  intro team
  cases team <;> exact Nat.zero_lt_succ _

/-! ## Messages without a text of the client -/

section brief

variable {mgr : MatchManager} {env : Env} {fd : Int} {o : Outcome}

theorem ActiveGame.NamesFit.id_le {g : ActiveGame} (h : g.NamesFit) : g.game_id.length ≤ 256 :=
  Nat.le_trans h.1.le (by decide)

theorem ActiveGame.NamesFit.player_le {g : ActiveGame} (h : g.NamesFit) (team : Team) :
    (g.player_id team).length ≤ 256 :=
  Nat.le_trans (h.2 team).le (by decide)

theorem brief_error {code : Int} {message : CString} (h : message.length ≤ 256) :
    (ServerMessage.error { code := code, message := message }).Brief := by
  simp only [ServerMessage.Brief, ServerMessage.fields, List.forall_mem_cons, Field.Brief]
  exact ⟨trivial, h, fun _ hf => absurd hf List.not_mem_nil⟩

theorem brief_game_end {b : GameEndBroadcast} (hid : b.game_id.length ≤ 256)
    (hplayer : b.player_id.length ≤ 256) : (ServerMessage.game_end b).Brief := by
  simp only [ServerMessage.Brief, ServerMessage.fields, List.forall_mem_cons, Field.Brief]
  exact ⟨hid, hplayer, trivial, trivial, fun _ hf => absurd hf List.not_mem_nil⟩

theorem brief_match_game {res : MatchGameResponse} (hid : res.game_id.length ≤ 256)
    (hmessage : res.message.length ≤ 256) (hopponent : res.opponent_name.length ≤ 256) :
    (ServerMessage.match_game_res res).Brief := by
  simp only [ServerMessage.Brief, ServerMessage.fields, List.forall_mem_cons, Field.Brief]
  exact ⟨hid, trivial, hmessage, trivial, hopponent, trivial, trivial, trivial, trivial,
    fun _ hf => absurd hf List.not_mem_nil⟩

theorem brief_move_res {res : MoveResponse} (hid : res.game_id.length ≤ 256)
    (hplayer : res.player_id.length ≤ 256) (hmessage : res.message.length ≤ 256)
    (hfen : res.updated_fen.length ≤ 256) : (ServerMessage.move_res res).Brief := by
  simp only [ServerMessage.Brief, ServerMessage.fields, List.forall_mem_cons, Field.Brief]
  exact ⟨hid, hplayer, trivial, hmessage, hfen, fun _ hf => absurd hf List.not_mem_nil⟩

theorem brief_move_broadcast {b : MoveBroadcast} (hid : b.game_id.length ≤ 256)
    (hplayer : b.player_id.length ≤ 256) (hfrom : b.from_coord.length ≤ 256)
    (hto : b.to_coord.length ≤ 256) : (ServerMessage.move_broadcast b).Brief := by
  simp only [ServerMessage.Brief, ServerMessage.fields, List.forall_mem_cons, Field.Brief]
  exact ⟨hid, hplayer, hfrom, hto, trivial, trivial, trivial, trivial, trivial, trivial, trivial,
    trivial, fun _ hf => absurd hf List.not_mem_nil⟩

/-- The names in the result of a match request. -/
theorem add_player_brief {mgr' : MatchManager} {player_id : CString} {result : MatchResult}
    (h : add_player_to_matching mgr env fd player_id = .ok (mgr', result)) :
    result.game_id.length ≤ 256 ∧ result.opponent_name.length ≤ 256 ∧
      result.error_message.length ≤ 256 := by
  unfold add_player_to_matching at h
  split at h
  · split at h
    · simp only at h
      obtain ⟨⟨id, counter⟩, _, h⟩ := bind_eq_ok.mp h
      obtain ⟨game, hnew, h⟩ := bind_eq_ok.mp h
      have hnames := new_game_names hnew
      obtain ⟨_, _, _, _, _, _, hopponent⟩ := new_game_spec hnew
      cases h
      refine ⟨hnames.id_le, ?_, Nat.zero_le _⟩
      show (mgr.waiting_players _).player_id.length ≤ 256
      rw [← hopponent]
      exact hnames.player_le _
    · cases h
      exact ⟨Nat.zero_le _, Nat.zero_le _,
        (by decide : "No available game slots".toList.length ≤ 256)⟩
  · split at h
    · obtain ⟨_, _, h⟩ := bind_eq_ok.mp h
      cases h
      exact ⟨Nat.zero_le _, Nat.zero_le _, Nat.zero_le _⟩
    · cases h
      exact ⟨Nat.zero_le _, Nat.zero_le _,
        (by decide : "Matching queue is full".toList.length ≤ 256)⟩

theorem handle_match_game_brief {player_id : CString} (hnames : NamesFit o.mgr)
    (h : handle_match_game_message mgr env fd player_id = .ok o) :
    Only ServerMessage.Brief o.out := by
  unfold handle_match_game_message at h
  split at h
  · cases h
    exact Only.nil.send (brief_error (by decide))
  · obtain ⟨⟨mgr', result⟩, hadd, h⟩ := bind_eq_ok.mp h
    obtain ⟨hid, hopponent, herror⟩ := add_player_brief hadd
    simp only at h
    split at h <;> cases h
    · exact Only.nil.send (brief_match_game hid
        (by decide : "Waiting for opponent...".toList.length ≤ 256) (Nat.zero_le _))
    · rw [announce_start_mgr] at hnames
      have hmessage : "Match found! Game starting...".toList.length ≤ 256 := by decide
      unfold announce_start
      split
      · exact Only.nil
      · rename_i i _
        -- the second message carries the name of the player already waiting
        have hname : (if (mgr'.active_games i).white_player_fd == fd
            then (mgr'.active_games i).white_player_id
            else (mgr'.active_games i).black_player_id).length ≤ 256 := by
          split
          · exact (hnames i).player_le .white
          · exact (hnames i).player_le .black
        simp only
        split
        · exact (Only.nil.send (brief_match_game hid hmessage hopponent)).send
            (brief_match_game hid hmessage hname)
        · exact Only.nil.send (brief_match_game hid hmessage hopponent)
    · exact Only.nil.send (brief_error herror)

theorem handle_player_disconnect_brief (hnames : NamesFit mgr)
    (h : handle_player_disconnect mgr env fd = .ok o) : Only ServerMessage.Brief o.out := by
  unfold handle_player_disconnect at h
  split at h
  · cases h
    exact Only.nil
  · split at h
    · rename_i i _
      simp only at h
      obtain ⟨player_id, hplayer, h⟩ := bind_eq_ok.mp h
      cases h
      exact Only.nil.send (brief_game_end (hnames i).id_le
        (Nat.le_trans (strcpy_length hplayer).le (by decide)))
    · cases h
      exact Only.nil

theorem check_game_timeouts_brief (hnames : NamesFit mgr)
    (h : check_game_timeouts mgr env = .ok o) : Only ServerMessage.Brief o.out := by
  unfold check_game_timeouts at h
  obtain ⟨⟨mgr', out⟩, hloop, h⟩ := bind_eq_ok.mp h
  cases h
  have hboth := foldlM_invariant (P := fun st : MatchManager × List Sent =>
      NamesFit st.1 ∧ Only ServerMessage.Brief st.2) ?_ ⟨hnames, Only.nil⟩ hloop
  · exact hboth.2
  · intro st i st' ⟨hst, hsent⟩ hround
    -- a round keeps the names and ids of all games
    have hnames' : NamesFit st'.1 := by
      intro j
      by_cases hj : j = i
      · subst hj
        obtain ⟨_, _, hid, hplayer, _⟩ := (check_slot_own hround).frame
        exact (hst j).congr hid hplayer
      · rw [check_slot_other hround hj]
        exact hst j
    refine ⟨hnames', ?_⟩
    obtain ⟨game, timeout, hcheck, ⟨_, rfl⟩ | ⟨loser, _, rfl⟩⟩ := check_slot_cases hround
    · exact hsent
    · have hframe := check_game_timeout_frame hcheck
      have hgame : game.NamesFit := by
        rw [hframe]
        exact (hst i).congr rfl fun team => by cases team <;> rfl
      have hmessage := brief_game_end (b := ⟨game.game_id, game.player_id loser,
        loser.other.proto, .timeout⟩) hgame.id_le (hgame.player_le loser)
      exact (hsent.send hmessage).send hmessage

/-- The texts of the tests of the move handler. -/
theorem check_move_error {G : Game} {team : Team} {req : MoveRequest} {msg : CString}
    (h : check_move G team req = .error msg) : msg.length ≤ 256 := by
  unfold check_move at h
  split at h
  · cases h
    decide
  · split at h
    · cases h
      decide
    · split at h
      · cases h
        decide
      · split at h <;> cases h
        decide

theorem parse_chess_coordinate_length {coord : CString} {square : Int × Int}
    (h : parse_chess_coordinate coord = some square) : coord.length ≤ 256 := by
  unfold parse_chess_coordinate at h
  split at h
  · exact (by decide : 2 ≤ 256)
  · cases h

theorem announce_move_brief {mgr' : MatchManager} {req : MoveRequest} {game : ActiveGame}
    (team : Team) (hgame : game.NamesFit) (hfrom : req.from_coord.length ≤ 256)
    (hto : req.to_coord.length ≤ 256) :
    Only ServerMessage.Brief (announce_move mgr' env fd req team game).1.out := by
  have hsuccess : Only ServerMessage.Brief (send_move_success env [] fd game.game_id
      (game.player_id team) (fen_placeholder game.game_state)).1 := by
    apply Only.nil.send (brief_move_res hgame.id_le (hgame.player_le team)
      (by decide : "Move successful".toList.length ≤ 256) ?_)
    exact Nat.le_trans (List.length_take_le _ _) (by decide)
  have hbroadcast : ∀ t, (ServerMessage.move_broadcast
      (move_broadcast game (game.player_id team) req t)).Brief :=
    fun t => brief_move_broadcast hgame.id_le (hgame.player_le team) hfrom hto
  unfold announce_move
  simp only
  split
  · exact hsuccess
  · exact (hsuccess.send (hbroadcast _)).send (hbroadcast _)

theorem handle_move_brief {req : MoveRequest} (hnames : NamesFit mgr) :
    Only ServerMessage.Brief (handle_move_message mgr env fd req).out := by
  have herror : ∀ {id player_id msg : CString}, id.length ≤ 256 → player_id.length ≤ 256 →
      msg.length ≤ 256 → Only ServerMessage.Brief (send_move_error env [] fd id player_id msg).1 :=
    fun hid hplayer hmsg => Only.nil.send (brief_move_res hid hplayer hmsg
      (Nat.zero_le 256 : ([] : CString).length ≤ 256))
  unfold handle_move_message
  cases hfind : find_game_by_player_fd mgr fd with
  | none => exact herror (Nat.zero_le _) (Nat.zero_le _) (by decide)
  | some i =>
    have hrun : Only ServerMessage.Brief (move_in_game mgr env fd req i).1.out := by
      unfold move_in_game
      cases hteam : player_team (mgr.active_games i) fd with
      | none =>
        simp only [hteam]
        exact herror (hnames i).id_le (Nat.zero_le _) (by decide)
      | some team =>
        cases hcheck : check_move (mgr.active_games i).game_state team req with
        | error msg =>
          simp only [hteam, hcheck]
          exact herror (hnames i).id_le ((hnames i).player_le team) (check_move_error hcheck)
        | ok squares =>
          obtain ⟨src, dst⟩ := squares
          obtain ⟨_, hsrc, hdst, _⟩ := check_move_ok hcheck
          -- the broadcasts carry the coordinates the handler has parsed
          have hgame : ((mgr.active_games i).play (env.ms 0) src.1 src.2 dst.1 dst.2).NamesFit :=
            (hnames i).congr rfl fun team => by cases team <;> rfl
          simp only [hteam, hcheck]
          exact announce_move_brief team hgame (parse_chess_coordinate_length hsrc)
            (parse_chess_coordinate_length hdst)
    simp only
    split
    · exact hrun
    · exact hrun

end brief

/-! ## Messages with a text of the client -/

/-- The id of the player whose chat message is passed on. -/
def ActiveGame.sender_id (game : ActiveGame) (fd : Int) : CString :=
  if game.white_player_fd == fd then game.white_player_id else game.black_player_id

/-- A text that the server copies into a message of its own, with what is
    packed around it, has at most 1 MiB. -/
def TextFits (mgr : MatchManager) : Event → Prop
  | .message _ (.echo message) _ => message.length + 8 ≤ 1024 * 1024
  | .message fd (.chat message) _ => ∀ i, find_game_by_player_fd mgr fd = some i →
    message.length + ((Field.text 1 ((mgr.active_games i).sender_id fd)).size + 9) ≤ 1024 * 1024
  | .message fd (.cancel_match player_id) _ =>
    player_id.length + (if (remove_player_from_matching mgr fd).2 then 44 else 39) ≤ 1024 * 1024
  | .message fd (.resign player_id) _ => ∀ i, find_game_by_player_fd mgr fd = some i →
    player_id.length + ((Field.text 1 (mgr.active_games i).game_id).size + 35) ≤ 1024 * 1024
  | _ => True

/-- A message within the limit of the clients. -/
abbrev Acceptable (msg : ServerMessage) : Prop :=
  server_message_get_packed_size msg ≤ 1024 * 1024

theorem Only.brief {out : List Sent} (h : Only ServerMessage.Brief out) : Only Acceptable out :=
  fun s hs => (h s hs).size_le

theorem text_size_brief {field : Nat} {s : CString} (hfield : field < 100) (hs : s.length ≤ 256) :
    (Field.text field s).size ≤ 261 :=
  (show (Field.text field s).Brief from hs).size_le hfield

section texts

variable {mgr : MatchManager} {env : Env} {fd : Int} {o : Outcome}

theorem only_send_iff {p : ServerMessage → Prop} {out : List Sent} {msg : ServerMessage} :
    Only p (send_server_message env out fd msg).1 ↔ Only p out ∧ p msg := by
  refine ⟨?_, fun h => h.1.send h.2⟩
  intro h
  refine ⟨fun s hs => h s (List.mem_append_left _ hs), ?_⟩
  exact h ⟨fd, msg, env.sends out.length⟩ (List.mem_append_right _ (List.mem_singleton_self _))

/-- What was sent before a message that is sent under a condition. -/
theorem Only.before_if {p : ServerMessage → Prop} {c : Prop} [Decidable c] {out : List Sent}
    {msg : ServerMessage} (h : Only p (if c then (send_server_message env out fd msg).1 else out)) :
    Only p out := by
  split at h
  · exact (only_send_iff.mp h).1
  · exact h

theorem only_first_iff {p : ServerMessage → Prop} {msg : ServerMessage} :
    Only p (send_server_message env [] fd msg).1 ↔ p msg :=
  only_send_iff.trans (and_iff_right Only.nil)

theorem echo_acceptable_iff {message : CString} :
    Acceptable (.echo_res message) ↔ message.length + 8 ≤ 1024 * 1024 :=
  packed_size_le_iff message 1 0 1
    (by exact show varint_size (8 * 11 + 2) = 1 by decide) (by decide) (by decide) (by decide)
    (List.sum_cons ..)

theorem chat_acceptable_iff {player_id : CString} (message : CString)
    (hid : player_id.length ≤ 256) :
    Acceptable (.chat_broadcast { player_id := player_id, message := message }) ↔
      message.length + ((Field.text 1 player_id).size + 9) ≤ 1024 * 1024 := by
  have hrest := text_size_brief (show 1 < 100 by decide) hid
  apply packed_size_le_iff message 2 (Field.text 1 player_id).size 2
    (by exact show varint_size (8 * 26 + 2) = 2 by decide) (by decide) (by decide) (by omega) ?_
  simp only [ServerMessage.fields, List.map_cons, List.map_nil, List.sum_cons, List.sum_nil]
  omega

theorem cancel_acceptable_iff {player_id : CString} {success : Bool} :
    Acceptable (.cancel_match_res
        { player_id := player_id, success := success,
          message := if success then "Matching cancelled successfully".toList
            else "Player not in matching queue".toList }) ↔
      player_id.length + (if success then 44 else 39) ≤ 1024 * 1024 := by
  cases success with
  | true =>
    apply packed_size_le_iff player_id 1 35 2
      (by exact show varint_size (8 * 21 + 2) = 2 by decide) (by decide) (by decide) (by decide) ?_
    have hflag : (Field.bool 2 true).size = 2 := by decide
    have htext : (Field.text 3 "Matching cancelled successfully".toList).size = 33 := by decide
    simp only [ServerMessage.fields, List.map_cons, List.map_nil, List.sum_cons, List.sum_nil,
      if_true, hflag, htext]
    rfl
  | false =>
    apply packed_size_le_iff player_id 1 30 2
      (by exact show varint_size (8 * 21 + 2) = 2 by decide) (by decide) (by decide) (by decide) ?_
    have hflag : (Field.bool 2 false).size = 0 := by decide
    have htext : (Field.text 3 "Player not in matching queue".toList).size = 30 := by decide
    simp only [ServerMessage.fields, List.map_cons, List.map_nil, List.sum_cons, List.sum_nil,
      Bool.false_eq_true, if_false, hflag, htext]
    rfl

theorem resign_acceptable_iff {game_id : CString} (player_id : CString)
    (hid : game_id.length ≤ 256) :
    Acceptable (.resign_res
        { game_id := game_id, player_id := player_id, success := true,
          message := "Resignation successful".toList }) ↔
      player_id.length + ((Field.text 1 game_id).size + 35) ≤ 1024 * 1024 := by
  have hrest := text_size_brief (show 1 < 100 by decide) hid
  have hflag : (Field.bool 3 true).size = 2 := by decide
  have htext : (Field.text 4 "Resignation successful".toList).size = 24 := by decide
  apply packed_size_le_iff player_id 2 ((Field.text 1 game_id).size + 26) 2
    (by exact show varint_size (8 * 27 + 2) = 2 by decide) (by decide) (by decide) (by omega) ?_
  simp only [ServerMessage.fields, List.map_cons, List.map_nil, List.sum_cons, List.sum_nil, hflag,
    htext]
  omega

/-- The broadcast is shorter than the response. -/
theorem resign_broadcast_acceptable {game_id player_id : CString} (winner_team : ProtoTeam)
    (hid : game_id.length ≤ 256)
    (h : player_id.length + ((Field.text 1 game_id).size + 35) ≤ 1024 * 1024) :
    Acceptable (.resign_broadcast
      { game_id := game_id, player_id := player_id, winner_team := winner_team }) := by
  have hrest := text_size_brief (show 1 < 100 by decide) hid
  have hwinner : (Field.int 3 winner_team.value).size ≤ 12 := int_size_le _ (by decide)
  refine (packed_size_le_iff player_id 2
    ((Field.text 1 game_id).size + (Field.int 3 winner_team.value).size) 2
    (by exact show varint_size (8 * 28 + 2) = 2 by decide) (by decide) (by decide) (by omega)
      ?_).mpr (by omega)
  simp only [ServerMessage.fields, List.map_cons, List.map_nil, List.sum_cons, List.sum_nil]
  omega

theorem handle_chat_acceptable_iff {message : CString} (hnames : NamesFit mgr) :
    Only Acceptable (handle_chat_message mgr env fd message).out ↔
      TextFits mgr (.message fd (.chat message) env) := by
  unfold handle_chat_message
  cases hfind : find_game_by_player_fd mgr fd with
  | none => exact ⟨fun _ i hi => (nomatch hfind.symm.trans hi), fun _ => Only.nil⟩
  | some i =>
    have hsender : ((mgr.active_games i).sender_id fd).length ≤ 256 := by
      unfold ActiveGame.sender_id
      split
      · exact (hnames i).player_le .white
      · exact (hnames i).player_le .black
    have hiff := chat_acceptable_iff message hsender
    -- the message is sent to White first in any case
    have hout : ∀ (msg : ServerMessage) (white black : Int), Only Acceptable
        (if (send_server_message env [] white msg).2 = true then
            (send_server_message env (send_server_message env [] white msg).1 black msg).1
          else (send_server_message env [] white msg).1) ↔ Acceptable msg := by
      intro msg white black
      split
      · rw [only_send_iff, only_first_iff, and_self]
      · exact only_first_iff
    simp only [apply_ite Outcome.out]
    refine (hout _ _ _).trans (hiff.trans ⟨?_, fun h => h i hfind⟩)
    intro h j hj
    rw [hfind] at hj
    rw [← Option.some.inj hj]
    exact h

theorem handle_cancel_acceptable_iff {player_id : CString} :
    Only Acceptable (handle_cancel_match_message mgr env fd player_id).out ↔
      TextFits mgr (.message fd (.cancel_match player_id) env) := by
  unfold handle_cancel_match_message
  split
  · rename_i hid
    subst hid
    refine ⟨?_, fun _ => Only.brief (Only.nil.send (brief_error (by decide)))⟩
    intro _
    show 0 + (if (remove_player_from_matching mgr fd).2 then 44 else 39) ≤ 1024 * 1024
    split
    · decide
    · decide
  · exact only_first_iff.trans cancel_acceptable_iff

theorem handle_resign_acceptable_iff {player_id : CString} (hnames : NamesFit mgr)
    (h : handle_resign_message mgr env fd player_id = .ok o) :
    Only Acceptable o.out ↔ TextFits mgr (.message fd (.resign player_id) env) := by
  unfold handle_resign_message at h
  cases hfind : find_game_by_player_fd mgr fd with
  | none =>
    rw [hfind] at h
    cases h
    refine ⟨fun _ i hi => (nomatch hfind.symm.trans hi), fun _ => Only.brief (Only.nil.send ?_)⟩
    exact brief_error (by decide : "You are not in any active game".toList.length ≤ 256)
  | some i =>
    rw [hfind] at h
    simp only at h
    obtain ⟨game_id, hid, h⟩ := bind_eq_ok.mp h
    obtain ⟨_, _, h⟩ := bind_eq_ok.mp h
    cases h
    obtain rfl := strcpy_ok hid
    have hiff := resign_acceptable_iff player_id (hnames i).id_le
    apply Iff.trans ⟨?_, ?_⟩ ⟨?_, fun h => h i hfind⟩
    · intro h
      exact hiff.mp (only_first_iff.mp (only_send_iff.mp h.before_if).1)
    · intro h
      -- the broadcast repeats the text, with less around it than the response
      have hbroadcast := resign_broadcast_acceptable
        (if (mgr.active_games i).white_player_fd == fd then .black else .white)
        (hnames i).id_le h
      exact ((Only.nil.send (hiff.mpr h)).send hbroadcast).send_if hbroadcast
    · intro h j hj
      rw [hfind] at hj
      rw [← Option.some.inj hj]
      exact h

theorem report_error_acceptable_iff :
    Only Acceptable (report_error env fd o).out ↔ Only Acceptable o.out := by
  refine ⟨fun h s hs => h s (mem_report_error hs), ?_⟩
  intro h
  unfold report_error
  split
  · exact h
  · exact h.send (brief_error (by decide)).size_le

end texts

/-! ## Every step -/

/-- What a step sends is acceptable exactly if the text it copies fits. -/
theorem step_acceptable_iff {mgr mgr' : MatchManager} {e : Event} {out : List Sent}
    (hnames : NamesFit mgr) (hstep : server.step mgr (e, out) mgr') :
    Only Acceptable out ↔ TextFits mgr e := by
  have hnames' := hnames.step (step_change hstep)
  have hbrief : ∀ {out : List Sent}, Only ServerMessage.Brief out → (Only Acceptable out ↔ True) :=
    fun h => iff_true_intro (Only.brief h)
  cases e with
  | disconnect fd env =>
    obtain ⟨o, ho, rfl, rfl⟩ := disconnect_step_ok hstep
    -- what the server makes up itself is short
    exact hbrief (handle_player_disconnect_brief hnames ho)
  | tick env =>
    obtain ⟨o, ho, rfl, rfl⟩ := tick_step_ok hstep
    exact hbrief (check_game_timeouts_brief hnames ho)
  | message fd msg env =>
    obtain ⟨o, ho, rfl, rfl⟩ := message_step_ok hstep
    rw [report_error_acceptable_iff]
    cases msg with
    | ping message =>
      cases ho
      apply hbrief (Only.nil.send ?_)
      simp only [ServerMessage.Brief, ServerMessage.fields, List.forall_mem_cons, Field.Brief]
      exact ⟨by decide, fun _ hf => absurd hf List.not_mem_nil⟩
    | echo message =>
      cases ho
      exact only_first_iff.trans echo_acceptable_iff
    | match_game player_id => exact hbrief (handle_match_game_brief hnames' ho)
    | cancel_match player_id =>
      cases ho
      exact handle_cancel_acceptable_iff
    | move req =>
      cases ho
      exact hbrief (handle_move_brief hnames)
    | resign player_id => exact handle_resign_acceptable_iff hnames ho
    | chat message =>
      cases ho
      exact handle_chat_acceptable_iff hnames
    | unknown =>
      cases ho
      exact hbrief (Only.nil.send (brief_error (by decide)))

end MultiplayChess
