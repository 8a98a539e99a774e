import MultiplayChess.Client.Replay
import MultiplayChess.Client.Resignation
import MultiplayChess.Server.Failures

/-! # The recorded result

    Every way a game can end should leave a file with the announced result.
    `save_current_game` does not use what the handlers have learned: it
    works the result out from the board, and from one flag of a lost
    opponent.  So it is the announced one exactly where the board tells it,
    and the handler of `GameEndBroadcast` does not save at all.  The names
    of the players stand before the result in the file, and a line break in
    a name may make a tag of the rest of it. -/

namespace MultiplayChess

open LTS

/-! ## The Result tag of a file -/

/-- What a line says of the result: an empty line ends the tags, and the
    value of a `Result` tag goes up to the quote. -/
def result_line (l : CString) : Option (Option CString) :=
  if l = [] then some none
  else if "[Result \"".toList <+: l then some (some ((l.drop 9).takeWhile (· != '"')))
  else none

/-- What the first line says that says anything. -/
def first_tag (text : CString) : Option (Option CString) :=
  (text.splitOn '\n').findSome? result_line

/-- The Result tag of a PGN text. -/
def result_tag (text : CString) : Option CString :=
  (first_tag text).join

/-- A tag without the end of its line. -/
def tag_text (tag value : CString) : CString :=
  '[' :: tag ++ " \"".toList ++ value ++ "\"]".toList

/-- What the names of the players say, which stand before the result. -/
def names_tag (state : GameState) : Option (Option CString) :=
  (first_tag (tag_text "White".toList
    (if state.local_team = .white then state.local_player else state.opponent_player))).or
  (first_tag (tag_text "Black".toList
    (if state.local_team = .white then state.opponent_player else state.local_player)))

theorem first_tag_line (tag value s : CString) :
    first_tag (tag_line tag value ++ s) = (first_tag (tag_text tag value)).or (first_tag s) := by
  have hline : tag_line tag value ++ s = tag_text tag value ++ '\n' :: s := by
    show ('[' :: tag ++ " \"".toList ++ value ++ ("\"]".toList ++ ['\n'])) ++ s = _
    unfold tag_text
    simp only [List.append_assoc, List.cons_append, List.nil_append]
  unfold first_tag
  rw [hline, List.splitOn_append_cons_self, List.findSome?_append]

/-- A tag on one line. -/
theorem first_tag_one_line {tag value : CString} (htag : '\n' ∉ tag) (hvalue : '\n' ∉ value) :
    first_tag (tag_text tag value) = result_line (tag_text tag value) := by
  have hend : '\n' ∉ tag_text tag value := by
    unfold tag_text
    simp only [List.mem_append, List.mem_cons, not_or]
    exact ⟨⟨⟨⟨by decide, htag⟩, by decide⟩, hvalue⟩, by decide⟩
  unfold first_tag
  rw [List.splitOn_eq_singleton hend, List.findSome?_singleton]

/-- Another tag says nothing of the result. -/
theorem first_tag_other {tag value : CString} (htag : '\n' ∉ tag) (hvalue : '\n' ∉ value)
    (hother : ¬ "[Result \"".toList <+: tag_text tag value) :
    first_tag (tag_text tag value) = none := by
  rw [first_tag_one_line htag hvalue]
  have hne : tag_text tag value ≠ [] := List.cons_ne_nil _ _
  unfold result_line
  rw [if_neg hne, if_neg hother]

theorem first_tag_result {r : CString} (hr : r ∈ pgn_results) :
    first_tag (tag_text "Result".toList r) = some (some r) := by
  have hall : ∀ r ∈ pgn_results, first_tag (tag_text "Result".toList r) = some (some r) := by
    decide
  exact hall r hr

/-- **The Result tag of a file** is the one that has been written, unless a
    name says something of it before. -/
theorem result_tag_write_pgn (date : Date) {state : GameState}
    (hresult : state.pgn_result ∈ pgn_results) :
    result_tag (write_pgn date state) = (names_tag state).getD (some state.pgn_result) := by
  have hevent : first_tag (tag_text "Event".toList "Multiplay Chess".toList) = none := by decide
  have hsite : first_tag (tag_text "Site".toList "Local".toList) = none := by decide
  have hround : first_tag (tag_text "Round".toList "1".toList) = none := by decide
  have hdate : first_tag (tag_text "Date".toList date.text) = none :=
    first_tag_other (by decide) date.one_line.1 (by simp [tag_text, List.cons_prefix_cons])
  unfold result_tag write_pgn
  simp only [first_tag_line, hevent, hsite, hround, hdate, first_tag_result hresult, Option.none_or]
  rw [← Option.or_assoc, Option.some_or]
  show ((names_tag state).or (some (some state.pgn_result))).join = _
  cases names_tag state <;> rfl

/-- Names without a line break say nothing. -/
theorem names_tag_none {state : GameState} (hlocal : '\n' ∉ state.local_player)
    (hopponent : '\n' ∉ state.opponent_player) : names_tag state = none := by
  have hnames : ∀ {white black : CString}, '\n' ∉ white → '\n' ∉ black →
      (first_tag (tag_text "White".toList white)).or (first_tag (tag_text "Black".toList black)) =
        none := by
    intro white black hwhite hblack
    rw [first_tag_other (by decide) hwhite (by simp [tag_text, List.cons_prefix_cons]),
      first_tag_other (by decide) hblack (by simp [tag_text, List.cons_prefix_cons])]
    rfl
  unfold names_tag
  split
  · exact hnames hlocal hopponent
  · exact hnames hopponent hlocal

/-- A name may hold a tag of its own. -/
example : names_tag { init_game_state with opponent_player := "x\n[Result \"1-0".toList } =
    some (some "1-0".toList) := by
  decide

/-! ## Announced and recorded -/

/-- The result tag that stands for an announced winner. -/
def result_text : ProtoTeam → CString
  | .white => "1-0".toList
  | .black => "0-1".toList
  | .unspecified => "1/2-1/2".toList

/-- The winner a message announces, if it ends a game. -/
def announced_winner : ServerMessage → Option ProtoTeam
  | .move_broadcast b => if b.game_ends then some b.winner_team else none
  | .resign_broadcast b => some b.winner_team
  | .game_end b => some b.winner_team
  | _ => none

/-- The game has at least one move, that of the message counted. -/
def HasMove (client : ClientState) (msg : ServerMessage) : Prop :=
  client.game_state.pgn_moves ≠ [] ∨ ∃ b, msg = .move_broadcast b ∧
    (apply_move_from_server client.game_state.game b.from_coord b.to_coord).2 = true

/-- Handling the message writes one file, and its Result tag is the
    announced one. -/
def ResultRecorded (client : ClientState) (env : ClientEnv) (msg : ServerMessage) : Prop :=
  ∃ state, (dispatch_server_message client env msg).saved = client.saved ++ [state] ∧
    ∀ date, result_tag (write_pgn date state) = (announced_winner msg).map result_text

/-- The winner is the one `save_current_game` makes out. -/
def MadeOut (state : GameState) (winner : ProtoTeam) : Prop :=
  if is_checkmate state.game then winner = state.game.side_to_move.other.proto
  else if is_stalemate state.game then winner = .unspecified
  else state.opponent_disconnected = true ∧ winner = state.local_team.proto

/-- A file can be written, and the result that comes first in it, that of a
    name or the one that is made out, is the announced one. -/
def Records (files : FileEnv) (state : GameState) (winner : ProtoTeam) : Prop :=
  files.mkdir = true ∧ files.fopen = true ∧
    match names_tag state with
    | some tag => tag = some (result_text winner)
    | none => MadeOut state winner

/-- The messages whose result is recorded. -/
def RecordsResult (client : ClientState) (env : ClientEnv) : ServerMessage → Prop
  | .move_broadcast b => Records env.files
      { client.game_state with
        game := client_step client.game_state.game (b.from_coord, b.to_coord) } b.winner_team
  | .resign_broadcast b => Records env.files client.game_state b.winner_team
  | _ => False

/-! ## Saving -/

theorem result_text_inj {s t : ProtoTeam} : result_text s = result_text t ↔ s = t := by
  cases s <;> cases t <;> decide

theorem won_by_eq (t : Team) : won_by t = result_text t.proto := by
  cases t <;> rfl

/-- The side to move has lost a checkmate, whoever looks at it. -/
theorem pgn_result_of_checkmate {state : GameState} (h : is_checkmate state.game = true) :
    pgn_result_of state = won_by state.game.side_to_move.other := by
  unfold pgn_result_of
  rw [if_pos h]
  split
  · rename_i hside
    rw [hside]
  · rename_i hside
    rw [Team.eq_other_of_ne hside, Team.other_other]

theorem made_out_iff {state : GameState} {winner : ProtoTeam} :
    MadeOut state winner ↔ pgn_result_of state = result_text winner := by
  unfold MadeOut
  by_cases hmate : is_checkmate state.game = true
  · rw [if_pos hmate, pgn_result_of_checkmate hmate, won_by_eq, result_text_inj, eq_comm]
  · unfold pgn_result_of
    rw [if_neg hmate, if_neg hmate]
    by_cases hstale : is_stalemate state.game = true
    · rw [if_pos hstale, if_pos hstale, eq_comm]
      exact (@result_text_inj .unspecified winner).symm
    · rw [if_neg hstale, if_neg hstale]
      by_cases hflag : state.opponent_disconnected = true
      · rw [if_pos hflag, won_by_eq, result_text_inj, and_iff_right hflag, eq_comm]
      · rw [if_neg hflag]
        -- a result that has not been made out is none of the three
        apply iff_of_false (fun h => hflag h.1) ?_
        cases winner <;> decide

/-- The condition as the tag of the state that is saved. -/
theorem records_iff {files : FileEnv} {state : GameState} {winner : ProtoTeam} :
    Records files state winner ↔ files.mkdir = true ∧ files.fopen = true ∧
      (names_tag state).getD (some (pgn_result_of state)) = some (result_text winner) := by
  unfold Records
  refine and_congr_right fun _ => and_congr_right fun _ => ?_
  cases names_tag state with
  | some tag => exact Iff.rfl
  | none => exact made_out_iff.trans (Option.some_inj).symm

theorem saves_iff {client : ClientState} {files : FileEnv} {winner : ProtoTeam} :
    (∃ state, (client.save files).saved = client.saved ++ [state] ∧
        ∀ date, result_tag (write_pgn date state) = some (result_text winner)) ↔
      client.game_state.pgn_moves ≠ [] ∧ Records files client.game_state winner := by
  have hnone : ¬ ∃ state, client.saved ++ [] = client.saved ++ [state] ∧
      ∀ date, result_tag (write_pgn date state) = some (result_text winner) := by
    intro ⟨state, hsaved, _⟩
    exact List.cons_ne_nil _ _ (List.append_cancel_left hsaved).symm
  rw [records_iff]
  unfold ClientState.save save_current_game
  by_cases hmoves : client.game_state.pgn_moves = []
  · rw [if_pos hmoves]
    exact iff_of_false hnone fun h => h.1 hmoves
  · rw [if_neg hmoves]
    obtain ⟨mkdir, fopen⟩ := files
    cases mkdir with
    | false => exact iff_of_false hnone fun h => nomatch h.2.1
    | true =>
      cases fopen with
      | false => exact iff_of_false hnone fun h => nomatch h.2.2.1
      | true =>
        -- the file that is written
        have htag : ∀ date, result_tag (write_pgn date
            { client.game_state with pgn_result := pgn_result_of client.game_state }) =
              (names_tag client.game_state).getD (some (pgn_result_of client.game_state)) :=
          fun date => result_tag_write_pgn date (pgn_result_of_mem _)
        constructor
        · intro ⟨state, hsaved, htold⟩
          have hstate := (List.cons.inj (List.append_cancel_left hsaved)).1
          refine ⟨hmoves, rfl, rfl, ?_⟩
          rw [← htag midsummer, ← htold midsummer, ← hstate]
        · intro ⟨_, _, _, hr⟩
          exact ⟨_, rfl, fun date => (htag date).trans hr⟩

/-- The end of the game on the board: what is saved, if the move is
    recorded. -/
theorem move_broadcast_recorded (client : ClientState) (env : ClientEnv) {b : MoveBroadcast}
    (hends : b.game_ends = true) (hmove : HasMove client (.move_broadcast b)) :
    ResultRecorded client env (.move_broadcast b) ↔
      RecordsResult client env (.move_broadcast b) := by
  obtain ⟨hgame, hteam, hdisconnected, _, hmoves, hsaved, hlocal, hopponent⟩ :=
    apply_broadcast_applied client env b
  -- the state that is saved
  let client' := (apply_broadcast client env b).chat "Game".toList
    (snprintf 256 ("Game Over: ".toList ++ winner_text b.winner_team ++ " by ".toList ++
      end_type_text b.end_type))
  have hrun : (dispatch_server_message client env (.move_broadcast b)).saved =
      (client'.save env.files).saved := by
    show (handle_move_broadcast client env b).saved = _
    unfold handle_move_broadcast
    simp only
    rw [if_pos hends]
    rfl
  have hne : client'.game_state.pgn_moves ≠ [] := by
    intro hnil
    obtain ⟨hold, hrejected⟩ := hmoves hnil
    rcases hmove with hmove | ⟨b', hb', htaken⟩
    · exact hmove hold
    · cases hb'
      rw [hrejected] at htaken
      cases htaken
  let state := { client.game_state with
    game := client_step client.game_state.game (b.from_coord, b.to_coord) }
  have hresult : pgn_result_of client'.game_state = pgn_result_of state := by
    unfold pgn_result_of
    simp only [client', state, ClientState.chat, add_chat_message, hgame, hteam, hdisconnected]
  have hnames : names_tag client'.game_state = names_tag state := by
    unfold names_tag
    simp only [client', state, ClientState.chat, add_chat_message, hteam, hlocal, hopponent]
  have hwinner : announced_winner (.move_broadcast b) = some b.winner_team := if_pos hends
  have hrecords : Records env.files client'.game_state b.winner_team ↔
      Records env.files state b.winner_team := by
    rw [records_iff, records_iff, hresult, hnames]
  refine Iff.trans ?_ hrecords
  unfold ResultRecorded
  rw [hwinner, hrun, ← hsaved]
  exact (@saves_iff client' _ _).trans (and_iff_right hne)

/-- What the handler of a resignation saves: the result it has stored is
    made out again. -/
theorem resign_broadcast_saved (client : ClientState) (env : ClientEnv) (b : ResignBroadcast) :
    ∃ client' : ClientState,
      (handle_resign_broadcast client env b).saved = (client'.save env.files).saved ∧
      client'.saved = client.saved ∧
      client'.game_state.pgn_moves = client.game_state.pgn_moves ∧
      names_tag client'.game_state = names_tag client.game_state ∧
      pgn_result_of client'.game_state = pgn_result_of client.game_state := by
  unfold handle_resign_broadcast
  exact ⟨_, rfl, rfl, rfl, rfl, rfl⟩

/-- The end by resignation. -/
theorem resign_broadcast_recorded (client : ClientState) (env : ClientEnv) {b : ResignBroadcast}
    (hmove : HasMove client (.resign_broadcast b)) :
    ResultRecorded client env (.resign_broadcast b) ↔
      RecordsResult client env (.resign_broadcast b) := by
  have hne : client.game_state.pgn_moves ≠ [] := by
    rcases hmove with hmove | ⟨b', hb', _⟩
    · exact hmove
    · cases hb'
  -- the result the handler has stored is lost, the names are kept
  obtain ⟨client', hrun, hsaved, hmoves, hnames, hresult⟩ := resign_broadcast_saved client env b
  rw [← hmoves] at hne
  have hrecords : Records env.files client'.game_state b.winner_team ↔
      Records env.files client.game_state b.winner_team := by
    rw [records_iff, records_iff, hresult, hnames]
  refine Iff.trans ?_ hrecords
  show (∃ state, (handle_resign_broadcast client env b).saved = client.saved ++ [state] ∧
    ∀ date, result_tag (write_pgn date state) = some (result_text b.winner_team)) ↔ _
  rw [hrun, ← hsaved]
  exact saves_iff.trans (and_iff_right hne)

/-- **What is recorded.** -/
theorem result_recorded_iff (client : ClientState) (env : ClientEnv) {msg : ServerMessage}
    (hend : (announced_winner msg).isSome) (hmove : HasMove client msg) :
    ResultRecorded client env msg ↔ RecordsResult client env msg := by
  cases msg with
  | move_broadcast b =>
    have hends : b.game_ends = true := by
      by_contra hnot
      have hnone : announced_winner (.move_broadcast b) = none := if_neg hnot
      rw [hnone] at hend
      cases hend
    exact move_broadcast_recorded client env hends hmove
  | resign_broadcast b => exact resign_broadcast_recorded client env hmove
  | game_end b =>
    -- nothing is saved
    apply iff_of_false ?_ id
    intro ⟨state, hsaved, _⟩
    have hnone : client.saved = client.saved ++ [state] := hsaved
    exact List.cons_ne_nil _ _ (List.append_cancel_left ((List.append_nil _).trans hnone)).symm
  | ping_res _ => cases hend
  | echo_res _ => cases hend
  | match_game_res _ => cases hend
  | move_res _ => cases hend
  | cancel_match_res _ => cases hend
  | chat_broadcast _ => cases hend
  | resign_res _ => cases hend
  | error _ => cases hend

/-! ## The endings of the server -/

section endings

variable {client : ClientState} {env : ClientEnv}

/-- Without line breaks in the names the board and the flag decide. -/
theorem records_of_names {files : FileEnv} {state : GameState} {winner : ProtoTeam}
    (hnames : names_tag state = none) :
    Records files state winner ↔
      (files.mkdir = true ∧ files.fopen = true) ∧ MadeOut state winner := by
  unfold Records
  rw [hnames, and_assoc]

/-- An announced end on the board is recorded if the client shows the same
    board and the end is not a draw by the fifty-move rule. -/
theorem board_ending_recorded_iff {game : ActiveGame} {player_id : CString} {req : MoveRequest}
    {timestamp : Option Int} (hend : (game_end game.game_state).isSome)
    (hnames : names_tag client.game_state = none)
    (hboard : client_step client.game_state.game (req.from_coord, req.to_coord) = game.game_state) :
    RecordsResult client env (.move_broadcast (move_broadcast game player_id req timestamp)) ↔
      (env.files.mkdir = true ∧ env.files.fopen = true) ∧
        (is_checkmate game.game_state = true ∨ is_stalemate game.game_state = true) := by
  have htag : names_tag { client.game_state with
      game := client_step client.game_state.game (req.from_coord, req.to_coord) } = none := hnames
  apply (records_of_names htag).trans (and_congr_right fun _ => ?_)
  let b := move_broadcast game player_id req timestamp
  have hwinner : b.winner_team = ((game_end game.game_state).getD (.unspecified, .unknown)).1 := rfl
  show MadeOut { client.game_state with
    game := client_step client.game_state.game (req.from_coord, req.to_coord) } b.winner_team ↔ _
  unfold MadeOut
  simp only
  rw [hboard, hwinner]
  by_cases hmate : is_checkmate game.game_state = true
  · have hends : game_end game.game_state =
        some (game.game_state.side_to_move.other.proto, .checkmate) := if_pos hmate
    rw [if_pos hmate, hends]
    exact iff_of_true rfl (.inl hmate)
  · by_cases hstale : is_stalemate game.game_state = true
    · have hends : game_end game.game_state = some (.unspecified, .stalemate) :=
        (if_neg hmate).trans (if_pos hstale)
      rw [if_neg hmate, if_pos hstale, hends]
      exact iff_of_true rfl (.inr hstale)
    · -- a draw by the fifty-move rule: nobody wins, but the tag needs a winner
      have hends : game_end game.game_state = some (.unspecified, .draw) := by
        have hrest : game_end game.game_state =
            if is_fifty_move_rule game.game_state then some (.unspecified, .draw) else none :=
          (if_neg hmate).trans (if_neg hstale)
        rw [hrest] at hend ⊢
        split at hend
        · rename_i hfifty
          exact if_pos hfifty
        · cases hend
      rw [if_neg hmate, if_neg hstale, hends]
      apply iff_of_false ?_ (fun h => h.elim hmate hstale)
      intro ⟨_, hteam⟩
      cases hlocal : client.game_state.local_team <;> rw [hlocal] at hteam <;> cases hteam

/-- A resignation is recorded only with the flag of an earlier end. -/
theorem resignation_recorded_iff {b : ResignBroadcast}
    (hnames : names_tag client.game_state = none)
    (hmate : is_checkmate client.game_state.game = false)
    (hstale : is_stalemate client.game_state.game = false) :
    RecordsResult client env (.resign_broadcast b) ↔
      (env.files.mkdir = true ∧ env.files.fopen = true) ∧
        client.game_state.opponent_disconnected = true ∧
        b.winner_team = client.game_state.local_team.proto := by
  apply (records_of_names hnames).trans (and_congr_right fun _ => ?_)
  unfold MadeOut
  rw [hmate, hstale]
  exact Iff.rfl

end endings

/-! ## Two games -/

/-- White has two moves too many: Black mates on h4. -/
def mated_game : Game :=
  [("f2".toList, "f3".toList), ("e7".toList, "e5".toList), ("g2".toList, "g4".toList)].foldl
    client_step (init_startpos .zero)

def mate_broadcast : MoveBroadcast where
  game_id := "game_0_1".toList
  player_id := "ann".toList
  from_coord := "d8".toList
  to_coord := "h4".toList
  game_ends := true
  winner_team := .black
  end_type := .checkmate
  is_check := true
  checked_team := .white
  white_time_remaining := 600
  black_time_remaining := 600
  move_timestamp := some 0

theorem mated_game_checkmate :
    is_checkmate (client_step mated_game ("d8".toList, "h4".toList)) = true := by
  decide +kernel

theorem result_recorded_mate :
    ResultRecorded
      { client_named "bob".toList .white with
        game_state := { init_game_state with game := mated_game } }
      ⟨fun _ => 0, true, true⟩ (.move_broadcast mate_broadcast) := by
  have hwinner : ProtoTeam.black =
      (client_step mated_game ("d8".toList, "h4".toList)).side_to_move.other.proto := by
    decide +kernel
  apply (result_recorded_iff _ _ rfl (.inr ⟨mate_broadcast, rfl, rfl⟩)).mpr
  show Records ⟨true, true⟩
    { init_game_state with game := client_step mated_game ("d8".toList, "h4".toList) } .black
  apply (records_of_names (names_tag_none List.not_mem_nil List.not_mem_nil)).mpr
  constructor
  · exact ⟨rfl, rfl⟩
  · show if is_checkmate (client_step mated_game ("d8".toList, "h4".toList)) then _ else _
    rw [if_pos mated_game_checkmate]
    exact hwinner

/-- White opens, and Black resigns. -/
def resigned_game : List Event :=
  two_requests ++ [.message 6 (.move ⟨"e2".toList, "e4".toList⟩) (.calm 0)]

/-- White's client after what it has been sent. -/
def bob_after (ls : List (Event × List Sent)) : ClientState :=
  client_run { init_client_state with username := "bob".toList }
    ((inbox 6 (sends ls)).map fun msg => (⟨fun _ => 0, true, true⟩, msg))

/-- The number of moves White's client has recorded, the games it has
    saved before, and the tags of its files after the resignation. -/
def bob_records (es : List Event) : Option (Nat × Nat × Bool × List CString) :=
  (exec server_run init_match_manager es).bind fun r =>
    (server_run r.2 ann_resigns).map fun q =>
      ((bob_after r.1).game_state.pgn_moves.length, (bob_after r.1).saved.length,
        (inbox 6 q.2).contains (.resign_broadcast ann_resigned),
        (dispatch_server_message (bob_after r.1) ⟨fun _ => 0, true, true⟩
          (.resign_broadcast ann_resigned)).saved.map fun state =>
            (result_tag (write_pgn midsummer state)).getD [])

theorem bob_records_resigned_game :
    bob_records resigned_game = some (1, 0, true, ["*".toList]) := by
  decide +kernel

/-- Black's resignation is announced as a win of White and saved without a
    result. -/
theorem result_recorded_broken :
    ¬ ∀ (ls : List (Event × List Sent)) (mgr mgr' : MatchManager) (e : Event) (out : List Sent)
      (msg : ServerMessage) (env : ClientEnv),
      Run server init_match_manager ls mgr → server.step mgr (e, out) mgr' → msg ∈ inbox 6 out →
      (announced_winner msg).isSome → (bob_after ls).game_state.pgn_moves ≠ [] →
      env.files.mkdir = true → env.files.fopen = true → ResultRecorded (bob_after ls) env msg := by
  intro hall
  obtain ⟨r, hrun, hr⟩ := Option.bind_eq_some_iff.mp bob_records_resigned_game
  obtain ⟨q, hq, hrecords⟩ := Option.map_eq_some_iff.mp hr
  simp only [Prod.mk.injEq, List.contains_iff_mem] at hrecords
  obtain ⟨hmoves, hsaved, hsent, hresults⟩ := hrecords
  have hne : (bob_after r.1).game_state.pgn_moves ≠ [] := by
    intro hnil
    rw [hnil] at hmoves
    cases hmoves
  obtain ⟨state, hstate, htag⟩ := hall r.1 r.2 q.1 ann_resigns q.2 _ ⟨fun _ => 0, true, true⟩
    (exec_run hrun) hq hsent rfl hne rfl rfl
  rw [hstate, List.eq_nil_of_length_eq_zero hsaved] at hresults
  have hunknown : (result_tag (write_pgn midsummer state)).getD [] = "*".toList :=
    (List.cons.inj hresults).1
  rw [htag] at hunknown
  cases hunknown

end MultiplayChess
