import MultiplayChess.Client.News
import MultiplayChess.Client.Screens
import MultiplayChess.Common.Effects
import MultiplayChess.Server.Record
import Mathlib.Data.List.Forall2

/-! # What a client keeps of a game

    Next to the board a client keeps the list of the moves, for the PGN
    file, and two check flags.  Both are written from `MoveBroadcast`s
    alone: the list skips a move that repeats its last entry, and the flags
    are set from what the server says about the side to move.  Neither is
    wrong, because no legal move repeats the one before and no legal move
    leaves its own king in check. -/

namespace MultiplayChess

open LTS
open Chess (Move OnBoard)

/-! ## Consecutive moves -/

/-- The two squares of a move. -/
def from_to (m : Move) : CString :=
  Client.coordinate m.sx m.sy ++ Client.coordinate m.dx m.dy

theorem toNat_ofNat_ascii {n : Nat} (h : n < 128) : (Char.ofNat n).toNat = n := by
  have hvalid : n.isValidChar := .inl (by omega)
  unfold Char.ofNat
  rw [dif_pos hvalid]
  rfl

/-- The letter of a file, read back. -/
theorem file_read {x : Int} (hx : 0 ≤ x) (hx8 : x < 8) :
    ((Char.ofNat (97 + x).toNat).toNat : Int) - 97 = x := by
  rw [toNat_ofNat_ascii (by omega)]
  omega

/-- The digit of a rank, read back. -/
theorem rank_read {y : Int} (hy : 0 ≤ y) (hy8 : y < 8) :
    ((Char.ofNat (49 + y).toNat).toNat : Int) - 49 = y := by
  rw [toNat_ofNat_ascii (by omega)]
  omega

/-- Squares have different names. -/
theorem coordinate_inj {x y x' y' : Int} (h : OnBoard x y) (h' : OnBoard x' y')
    (hname : Client.coordinate x y = Client.coordinate x' y') : x = x' ∧ y = y' := by
  obtain ⟨⟨hx, hx8⟩, hy, hy8⟩ := h
  obtain ⟨⟨hx', hx8'⟩, hy', hy8'⟩ := h'
  obtain ⟨hfile, hrest⟩ := List.cons.inj hname
  obtain ⟨hrank, _⟩ := List.cons.inj hrest
  have hfile' := congrArg Char.toNat hfile
  have hrank' := congrArg Char.toNat hrank
  rw [toNat_ofNat_ascii (by omega), toNat_ofNat_ascii (by omega)] at hfile' hrank'
  omega

/-- A legal move comes from a square of the board. -/
theorem legal_source_on {G₀ G : Game} {h : List Move} {m : Move}
    (hrun : Run rules (init_startpos G₀) h G)
    (hlegal : is_move_legal G m.sx m.sy m.dx m.dy = true) : OnBoard m.sx m.sy := by
  obtain ⟨_, hpseudo, _⟩ := ((Run.following hrun).legal_iff m).mp hlegal
  exact hpseudo.src_on

/-- **No move repeats the one before.** The square the last move came from
    is empty. -/
theorem no_repeated_move {G₀ G : Game} {h : List Move} {m m' : Move}
    (hrun : Run rules (init_startpos G₀) (h ++ [m]) G)
    (hlegal : is_move_legal G m'.sx m'.sy m'.dx m'.dy = true) : from_to m ≠ from_to m' := by
  intro htext
  obtain ⟨G', hbefore, _, hlegal', rfl⟩ := hrun.last
  obtain ⟨hsrc, _⟩ := List.append_inj htext rfl
  obtain ⟨hx, hy⟩ := coordinate_inj (legal_source_on hbefore hlegal')
    (legal_source_on hrun hlegal) hsrc
  obtain ⟨p, hpiece, _⟩ := (accepted_move_effect hrun hlegal).destination
  rw [← hx, ← hy, (accepted_move_effect hbefore hlegal').source.2] at hpiece
  cases hpiece

/-- Coordinates the server accepts are the names of their squares. -/
theorem parse_chess_coordinate_name {coord : CString} {p : Int × Int}
    (h : parse_chess_coordinate coord = some p) : coord = Client.coordinate p.1 p.2 := by
  obtain ⟨file, rank, rfl, hx, hy, hrange⟩ := parse_chess_coordinate_some h
  have hfile : (97 + p.1).toNat = file.toNat := by omega
  have hrank : (49 + p.2).toNat = rank.toNat := by omega
  unfold Client.coordinate
  rw [hfile, hrank, Char.ofNat_toNat, Char.ofNat_toNat]

theorem Decodes.text {u : Coords} {m : Move} (h : Decodes u m) : u.1 ++ u.2 = from_to m := by
  unfold from_to
  rw [parse_chess_coordinate_name h.src, parse_chess_coordinate_name h.dst]

/-! ## The broadcasts of a game

    A history variable keeps, for every slot and every accepted move of the
    game in it, the `MoveBroadcast`s the server makes out of the move. -/

def broadcast_of : ServerMessage → Option MoveBroadcast
  | .move_broadcast b => some b
  | _ => none

/-- The `MoveBroadcast`s among messages, whether or not their sends
    succeed. -/
def broadcasts_in (out : List Sent) : List MoveBroadcast :=
  out.filterMap fun s => broadcast_of s.msg

abbrev Posts : Type := Fin max_active_games → List (List MoveBroadcast)

/-- The broadcasts after a step, beside the record of the moves. -/
def Posts.next (posts : Posts) (s : Recorded) (l : Event × List Sent) (s' : Recorded) : Posts :=
  fun i =>
    if (s.mgr.active_games i).is_active = false ∧ (s'.mgr.active_games i).is_active = true then []
    else
      match accepted s.mgr l.1 with
      | some (j, _) => if j = i then posts i ++ [broadcasts_in l.2] else posts i
      | none => posts i

/-- Nothing recorded and nothing told. -/
def no_posts : Recorded × Posts :=
  (.initial, fun _ => [])

/-- One step of the server, recorded with what it tells. -/
def posting_run (s : Recorded × Posts) (e : Event) : Option ((Recorded × Posts) × List Sent) :=
  (recorded_run s.1 e).map fun r => ((r.1, s.2.next s.1 (e, r.2) r.1), r.2)

/-- The server with the moves it accepted and what it told about them. -/
def posting_server : System (Recorded × Posts) (Event × List Sent) :=
  ofStep (fun s => s = no_posts) posting_run

theorem posting_step {s s' : Recorded × Posts} {l : Event × List Sent}
    (h : posting_server.step s l s') :
    recorded_server.step s.1 l s'.1 ∧ s'.2 = s.2.next s.1 l s'.1 := by
  obtain ⟨⟨r, out⟩, hrun, heq⟩ := Option.map_eq_some_iff.mp h
  cases heq
  exact ⟨hrun, rfl⟩

/-- The broadcast tells of the move `m` after the moves `ms`. -/
structure Announces (ms : List Move) (m : Move) (b : MoveBroadcast) : Prop where
  coords : Decodes (b.from_coord, b.to_coord) m
  is_check : b.is_check =
    is_in_check (fold_moves (ms ++ [m])) (fold_moves (ms ++ [m])).side_to_move
  checked_team : b.is_check = true → b.checked_team = (fold_moves (ms ++ [m])).side_to_move.proto

section posts

variable {mgr mgr' : MatchManager} {e : Event} {i : Fin max_active_games} {m : Move}
  {out : List Sent} {b : MoveBroadcast}

@[simp] theorem broadcasts_in_report_error (env : Env) (fd : Int) (o : Outcome) :
    broadcasts_in (report_error env fd o).out = broadcasts_in o.out := by
  unfold report_error send_error_response send_server_message
  split
  · rfl
  · exact List.filterMap_append.trans (List.append_nil _)

/-- What the server tells about an accepted move. -/
theorem accepted_announces {ms : List Move} (hstep : server.step mgr (e, out) mgr')
    (hacc : accepted mgr e = some (i, m))
    (hposition : (mgr.active_games i).game_state = fold_moves ms)
    (hb : b ∈ broadcasts_in out) : Announces ms m b := by
  obtain ⟨fd, req, env, _, rfl, _, _, hcheck⟩ := accepted_spec hacc
  obtain ⟨_, hsrc, hdst, _⟩ := check_move_ok hcheck
  obtain ⟨o, ho, rfl, rfl⟩ := message_step_ok hstep
  have hhandler : handle_move_message mgr env fd req = o := Except.ok.inj ho
  obtain ⟨team, _, _, hrun⟩ := handle_move_accepted hacc
  have hout : o.out = (announce_move (mgr.set_game i (game_after mgr env i m)) env fd req team
      (game_after mgr env i m)).1.out := by
    rw [← hhandler, hrun]
    simp only
    split <;> rfl
  have hafter : (game_after mgr env i m).game_state = fold_moves (ms ++ [m]) := by
    unfold fold_moves at hposition ⊢
    rw [List.foldl_append, ← hposition]
    rfl
  -- whatever is told, is told about the game after the move
  have htold : ∃ player_id timestamp,
      b = move_broadcast (game_after mgr env i m) player_id req timestamp := by
    rw [broadcasts_in_report_error, hout] at hb
    by_cases hfirst : env.sends 0 = true
    · rw [announce_move_sent _ _ _ _ hfirst] at hb
      rcases List.mem_cons.mp hb with hb | hb
      · exact ⟨_, _, hb⟩
      · exact ⟨_, _, List.mem_singleton.mp hb⟩
    · rw [Bool.not_eq_true] at hfirst
      rw [announce_move_failed _ _ _ _ hfirst] at hb
      cases hb
  obtain ⟨player_id, timestamp, rfl⟩ := htold
  constructor
  · exact ⟨hsrc, hdst⟩
  · show is_in_check (game_after mgr env i m).game_state _ = _
    rw [hafter]
  · intro hcheck
    rw [← hafter]
    exact if_pos hcheck

end posts

/-- The posts of a slot tell of the moves on record, one after the other, and
    these make a game of chess. -/
structure Posted (moves : List Move) (posts : List (List MoveBroadcast)) : Prop where
  legal : ∃ G, Run rules (init_startpos .zero) moves G
  announces : ∀ (k : Nat) told, posts[k]? = some told →
    ∃ m, moves[k]? = some m ∧ ∀ b ∈ told, Announces (moves.take k) m b
  length : posts.length = moves.length

theorem Posted.nil : Posted [] [] where
  legal := ⟨_, .nil⟩
  announces := by
    intro k told h
    cases h
  length := rfl

theorem Posted.snoc {moves : List Move} {posts : List (List MoveBroadcast)} {G G' : Game}
    {m : Move} {told : List MoveBroadcast} (h : Posted moves posts)
    (hrun : Run rules (init_startpos .zero) moves G) (hstep : rules.step G m G')
    (htold : ∀ b ∈ told, Announces moves m b) : Posted (moves ++ [m]) (posts ++ [told]) where
  legal := ⟨G', hrun.snoc hstep⟩
  announces := by
    intro k told' hk
    rcases Nat.lt_or_ge k posts.length with hlt | hge
    · have hlt' : k < moves.length := h.length ▸ hlt
      rw [List.getElem?_append_left hlt] at hk
      rw [List.getElem?_append_left hlt', List.take_append_of_le_length (Nat.le_of_lt hlt')]
      exact h.announces k told' hk
    · -- the new move
      obtain ⟨hlt, _⟩ := List.getElem?_eq_some_iff.mp hk
      rw [List.length_append, List.length_singleton] at hlt
      obtain rfl : k = posts.length := by omega
      rw [List.getElem?_concat_length] at hk
      rw [h.length, List.getElem?_concat_length, List.take_left]
      cases hk
      exact ⟨m, rfl, htold⟩
  length := by
    rw [List.length_append, List.length_append, h.length]
    rfl

/-- **The run lemma.** -/
theorem posting_server_posted {s : Recorded × Posts} {ls : List (Event × List Sent)}
    (h : Run posting_server no_posts ls s) (i : Fin max_active_games) :
    Posted (moves_of (s.1.record i)) (s.2 i) := by
  have hinv : AllConducted s.1 ∧ ∀ i, Posted (moves_of (s.1.record i)) (s.2 i) := by
    apply h.invariant (P := fun s : Recorded × Posts =>
      AllConducted s.1 ∧ ∀ i, Posted (moves_of (s.1.record i)) (s.2 i))
    · intro s ⟨e, out⟩ s' ⟨hconducted, hposted⟩ _ hst
      obtain ⟨hstep, hposts⟩ := posting_step hst
      obtain ⟨hserver, hrecord⟩ := recorded_step hstep
      refine ⟨hconducted.step hstep, fun i => ?_⟩
      rw [hposts, hrecord]
      unfold Posts.next Record.next
      split
      · exact .nil
      · cases hacc : accepted s.1.mgr e with
        | none => exact hposted i
        | some p =>
          obtain ⟨j, m⟩ := p
          simp only
          by_cases hji : j = i
          · subst hji
            rw [if_pos rfl, if_pos rfl]
            obtain ⟨_, _, _, _, _, hfind, _, hcheck⟩ := accepted_spec hacc
            have hgame := hconducted j (find_game_spec hfind).1
            unfold moves_of
            rw [List.map_append]
            exact (hposted j).snoc hgame.run ⟨(check_move_ok hcheck).2.2.2, rfl⟩
              fun b hb => accepted_announces hserver hacc (run_fold hgame.run).1 hb
          · rw [if_neg hji, if_neg hji]
            exact hposted i
    · constructor
      · intro i hactive
        cases hactive
      · intro i
        exact .nil
  exact hinv.2 i

/-! ## What a client has heard -/

/-- The `MoveBroadcast`s since the last start response, if there was one. -/
def hear (heard : Option (List MoveBroadcast)) (msg : ServerMessage) :
    Option (List MoveBroadcast) :=
  if starts_game msg then some []
  else
    match broadcast_of msg with
    | some b => heard.map (· ++ [b])
    | none => heard

def heard (msgs : List ServerMessage) : Option (List MoveBroadcast) :=
  msgs.foldl hear none

theorem heard_snoc (msgs : List ServerMessage) (msg : ServerMessage) :
    heard (msgs ++ [msg]) = hear (heard msgs) msg :=
  List.foldl_append

theorem hear_only_chats {msg : ServerMessage} (h : only_chats msg = true)
    (bs : Option (List MoveBroadcast)) : hear bs msg = bs := by
  cases msg with
  | match_game_res res =>
    have hno_start : starts_game (.match_game_res res) = false := (Bool.not_eq_true' _).mp h
    unfold hear
    rw [if_neg (by rw [hno_start]; exact Bool.false_ne_true)]
    rfl
  | move_broadcast b => cases h
  | _ => rfl

/-- The broadcasts tell of the first of the moves, one after the other. -/
def Announced (moves : List Move) (bs : List MoveBroadcast) : Prop :=
  ∀ (k : Nat) b, bs[k]? = some b → ∃ m, moves[k]? = some m ∧ Announces (moves.take k) m b

theorem Announced.init {moves : List Move} {bs : List MoveBroadcast} {b : MoveBroadcast}
    (h : Announced moves (bs ++ [b])) : Announced moves bs := by
  intro k b' hk
  apply h k b'
  obtain ⟨hlt, _⟩ := List.getElem?_eq_some_iff.mp hk
  rw [List.getElem?_append_left hlt]
  exact hk

theorem Announced.last {moves : List Move} {bs : List MoveBroadcast} {b : MoveBroadcast}
    (h : Announced moves (bs ++ [b])) :
    ∃ m, moves.take (bs.length + 1) = moves.take bs.length ++ [m] ∧
      Announces (moves.take bs.length) m b := by
  obtain ⟨m, hm, hannounces⟩ := h bs.length b List.getElem?_concat_length
  refine ⟨m, ?_, hannounces⟩
  rw [List.take_add_one, hm]
  rfl

/-! ## The state a client keeps -/

/-- The check flag of a team. -/
def GameState.check_flag (state : GameState) : Team → Bool
  | .white => state.white_in_check
  | .black => state.black_in_check

/-- The state of a client that has taken in the moves: the board, the list of
    the moves as far as there is room, and the check flags. -/
structure Booked (moves : List Move) (state : GameState) : Prop where
  board : state.game = fold_moves moves
  record : state.pgn_moves = (moves.take max_pgn_moves).map from_to
  flags : moves ≠ [] → ∀ t, state.check_flag t = is_in_check state.game t

section client

variable {client : ClientState} {moves : List Move} {state state' : GameState}
  {b : MoveBroadcast} {m : Move}

theorem Booked.congr (h : Booked moves state) (hgame : state'.game = state.game)
    (hmoves : state'.pgn_moves = state.pgn_moves)
    (hwhite : state'.white_in_check = state.white_in_check)
    (hblack : state'.black_in_check = state.black_in_check) : Booked moves state' where
  board := hgame.trans h.board
  record := hmoves.trans h.record
  flags := by
    intro hne t
    have hflag : state'.check_flag t = state.check_flag t := by
      cases t with
      | white => exact hwhite
      | black => exact hblack
    rw [hflag, hgame]
    exact h.flags hne t

theorem Booked.chatted (h : Booked moves client.game_state) (sender message : CString) :
    Booked moves (client.chat sender message).game_state :=
  h.congr rfl rfl rfl rfl

theorem Booked.synced (h : Booked moves state) (env : ClientEnv) (b : MoveBroadcast) :
    Booked moves (sync_clocks state env b) := by
  obtain ⟨_, _, _, _, _, _, hclocks⟩ := sync_clocks_eq state env b
  rw [hclocks]
  exact h.congr rfl rfl rfl rfl

theorem Booked.saved (h : Booked moves client.game_state) (files : FileEnv) :
    Booked moves (client.save files).game_state := by
  obtain ⟨_, _, hsave⟩ := save_eq client files
  rw [hsave]
  exact h.congr rfl rfl rfl rfl

theorem Booked.saved_result (h : Booked moves client.game_state) (result : CString)
    (files : FileEnv) : Booked moves ({ client with
      game_state := { client.game_state with pgn_result := result } }.save files).game_state := by
  apply Booked.saved
  exact h.congr rfl rfl rfl rfl

/-- A new entry is appended if there is room. -/
theorem record_move_new (hroom : state.pgn_moves.length ≤ max_pgn_moves)
    (hnew : state.pgn_moves.length < max_pgn_moves →
      state.pgn_moves.getLast? ≠ some (pgn_move b)) :
    record_move state b =
      { state with pgn_moves := (state.pgn_moves ++ [pgn_move b]).take max_pgn_moves } := by
  unfold record_move
  split
  · rename_i hlt
    rw [if_neg (hnew hlt), List.take_of_length_le (by rw [List.length_append]; exact hlt)]
  · rw [List.take_append_of_le_length (by omega), List.take_of_length_le hroom]

/-- Both flags are written from the check of one side. -/
theorem update_check_flags_of {t : Team} (h : b.is_check = true → b.checked_team = t.proto) :
    update_check_flags state b =
      { state with
        white_in_check := b.is_check && t == .white
        black_in_check := b.is_check && t == .black } := by
  unfold update_check_flags
  cases hcheck : b.is_check with
  | false => rfl
  | true =>
    rw [if_pos rfl, h hcheck]
    cases t <;> rfl

theorem from_to_length (m : Move) : (from_to m).length = 4 := rfl

/-- The buffer of an entry holds all four characters. -/
theorem Decodes.pgn_move_eq (h : Decodes (b.from_coord, b.to_coord) m) :
    pgn_move b = from_to m := by
  unfold pgn_move snprintf
  rw [h.text]
  exact List.take_of_length_le (by rw [from_to_length]; decide)

/-- The list has room for a move, and then its last entry is another one. -/
theorem record_move_next {G₀ G : Game}
    (hrecord : state.pgn_moves = (moves.take max_pgn_moves).map from_to)
    (hrun : Run rules (init_startpos G₀) (moves ++ [m]) G)
    (hm : Decodes (b.from_coord, b.to_coord) m) :
    record_move state b =
      { state with pgn_moves := ((moves ++ [m]).take max_pgn_moves).map from_to } := by
  have hlength : state.pgn_moves.length = min max_pgn_moves moves.length := by
    rw [hrecord, List.length_map, List.length_take]
  rw [record_move_new (by omega) ?_]
  · rw [hrecord, hm.pgn_move_eq, ← List.map_singleton, ← List.map_append, ← List.map_take]
    congr 2
    rcases Nat.lt_or_ge moves.length max_pgn_moves with hlt | hge
    · rw [List.take_of_length_le (Nat.le_of_lt hlt)]
    · rw [List.take_append_of_le_length hge,
        List.take_append_of_le_length (by rw [List.length_take]; omega), List.take_take,
        Nat.min_self]
  · intro hroom hlast
    obtain ⟨G', hbefore, _, hlegal, rfl⟩ := hrun.last
    rw [hrecord, hm.pgn_move_eq, List.take_of_length_le (by omega), List.getLast?_map,
      Option.map_eq_some_iff] at hlast
    obtain ⟨m', hm', htext⟩ := hlast
    obtain ⟨before, rfl⟩ := List.getLast?_eq_some_iff.mp hm'
    exact no_repeated_move hbefore hlegal htext

/-- The flags after a broadcast are those of its position: the side to move
    is as the broadcast says, the mover is not in check. -/
theorem flags_of_broadcast {G₀ G : Game} {ms : List Move}
    (hrun : Run rules (init_startpos G₀) ms G) (hcheck : b.is_check = is_in_check G G.side_to_move)
    (hteam : b.is_check = true → b.checked_team = G.side_to_move.proto) (t : Team) :
    (update_check_flags state b).check_flag t = is_in_check G t := by
  have hmover := (kings_safe hrun).2.1
  rw [update_check_flags_of hteam, hcheck]
  cases hside : G.side_to_move with
  | white =>
    rw [hside] at hmover
    cases t with
    | white => exact Bool.and_true _
    | black => exact (Bool.and_false _).trans hmover.symm
  | black =>
    rw [hside] at hmover
    cases t with
    | white => exact (Bool.and_false _).trans hmover.symm
    | black => exact Bool.and_true _

/-- What is written once the move is on the board. -/
theorem Booked.shown {G : Game} (hboard : state.game = G)
    (hrecord : state.pgn_moves = (moves.take max_pgn_moves).map from_to)
    (hrun : Run rules (init_startpos .zero) (moves ++ [m]) G)
    (hb : Announces moves m b) :
    Booked (moves ++ [m]) (update_check_flags (record_move state b) b) := by
  have hG := (run_fold hrun).1
  obtain ⟨hcoords, hcheck, hteam⟩ := hb
  rw [← hG] at hcheck hteam
  rw [record_move_next hrecord hrun hcoords]
  constructor
  · rw [update_check_flags_of hteam]
    exact hboard.trans hG
  · rw [update_check_flags_of hteam]
  · intro _ t
    rw [flags_of_broadcast hrun hcheck hteam, update_check_flags_of hteam, ← hboard]

/-- **One broadcast.** -/
theorem Booked.broadcast {G : Game} (h : Booked moves client.game_state)
    (hrun : Run rules (init_startpos .zero) (moves ++ [m]) G)
    (hb : Announces moves m b) (env : ClientEnv) :
    Booked (moves ++ [m]) (handle_move_broadcast client env b).game_state := by
  have hboard : apply_move client.game_state.game m.sx m.sy m.dx m.dy = G := by
    rw [(run_fold hrun).1, h.board]
    unfold fold_moves
    rw [List.foldl_append]
    rfl
  have happlied : Booked (moves ++ [m]) (apply_broadcast client env b).game_state := by
    have hmove := hb.coords.apply (client.chat "Game".toList (snprintf 256 (b.player_id ++
      " moved ".toList ++ b.from_coord ++ " -> ".toList ++ b.to_coord))).game_state.game
    simp only at hmove
    unfold apply_broadcast
    simp only [hmove, if_true]
    apply Booked.synced
    exact .shown hboard h.record hrun hb
  unfold handle_move_broadcast
  split
  · -- the end of the game saves it
    unfold finish_game
    exact ((happlied.chatted _ _).saved env.files).congr rfl rfl rfl rfl
  · exact happlied

/-- A start response clears the board and the list. -/
theorem Booked.start (env : ClientEnv) {res : MatchGameResponse}
    (h : starts_game (.match_game_res res) = true) :
    Booked [] (handle_match_game_response client env res).game_state := by
  obtain ⟨hsuccess, hteam⟩ := starts_game_iff.mp h
  unfold handle_match_game_response
  rw [if_pos hsuccess, if_neg hteam]
  constructor
  · exact client_start _ _
  · rfl
  · intro hne
    exact absurd rfl hne

/-- **The run lemma.** A client that has heard of the first moves of a game,
    one after the other, keeps them. -/
theorem client_run_booked {G : Game} (hrun : Run rules (init_startpos .zero) moves G)
    (client : ClientState) (seen : List (ClientEnv × ServerMessage)) :
    ∀ bs, heard (seen.map Prod.snd) = some bs → Announced moves bs →
      Booked (moves.take bs.length) (client_run client seen).game_state := by
  induction seen using List.reverseRecOn with
  | nil =>
    intro bs hheard
    cases hheard
  | append_singleton seen m ih =>
    obtain ⟨env, msg⟩ := m
    intro bs hheard hannounced
    rw [List.map_append, List.map_singleton, heard_snoc] at hheard
    have hlast : client_run client (seen ++ [(env, msg)]) =
        dispatch_server_message (client_run client seen) env msg := List.foldl_append
    rw [hlast]
    by_cases hchat : only_chats msg = true
    · obtain ⟨messages, hstate⟩ := dispatch_only_chats hchat (client_run client seen) env
      rw [hear_only_chats hchat] at hheard
      rw [hstate]
      exact (ih bs hheard hannounced).congr rfl rfl rfl rfl
    · cases msg with
      | match_game_res res =>
        have hstart := starts_of_not_only_chats hchat
        unfold hear at hheard
        rw [if_pos hstart] at hheard
        cases hheard
        exact .start env hstart
      | move_broadcast b =>
        obtain ⟨bs', hbefore, rfl⟩ := Option.map_eq_some_iff.mp hheard
        obtain ⟨m, htake, hannounces⟩ := hannounced.last
        obtain ⟨G', hrun'⟩ := hrun.take (bs'.length + 1)
        rw [htake] at hrun'
        rw [List.length_append, List.length_singleton, htake]
        exact (ih bs' hbefore hannounced.init).broadcast hrun' hannounces env
      | resign_broadcast b =>
        have hbooked := ih bs hheard hannounced
        show Booked _ (handle_resign_broadcast _ env b).game_state
        unfold handle_resign_broadcast
        exact ((hbooked.chatted _ _).saved_result _ env.files).congr rfl rfl rfl rfl
      | game_end b => exact (ih bs hheard hannounced).congr rfl rfl rfl rfl
      | _ => exact absurd rfl hchat

end client

/-! ## The record and the flags -/

section game

variable {s : Recorded × Posts} {ls : List (Event × List Sent)} {i : Fin max_active_games}
  {bs : List MoveBroadcast} {seen : List (ClientEnv × ServerMessage)}

/-- Broadcasts out of the posts of a game, one for each of the first moves. -/
theorem Posted.announced {moves : List Move} {posts : List (List MoveBroadcast)}
    (h : Posted moves posts)
    (hbs : List.Forall₂ (fun b told => b ∈ told) bs (posts.take bs.length)) :
    Announced moves bs := by
  intro k b hk
  obtain ⟨hlt, hget⟩ := List.getElem?_eq_some_iff.mp hk
  have hlt' : k < (posts.take bs.length).length := by rwa [← hbs.length_eq]
  have hmem := hbs.get hlt hlt'
  rw [List.get_eq_getElem, List.get_eq_getElem, hget, List.getElem_take] at hmem
  obtain ⟨m, hm, hannounces⟩ := h.announces k _ (List.getElem?_eq_getElem (by
    rw [List.length_take] at hlt'
    omega))
  exact ⟨m, hm, hannounces b hmem⟩

/-- **Exact record of the moves.** Take any run of the server, the game in any
    slot and a client, in whatever state, that has processed a start
    response and after it a `MoveBroadcast` about each of the first `n`
    moves of the game, among any other messages.  Its list holds the two
    squares of each of these moves, as far as there is room; and no two
    moves that follow each other in the game have the same text. -/
theorem moves_recorded (hrun : Run posting_server no_posts ls s)
    (hbs : List.Forall₂ (fun b told => b ∈ told) bs ((s.2 i).take bs.length))
    (client : ClientState) (hheard : heard (seen.map Prod.snd) = some bs) :
    (client_run client seen).game_state.pgn_moves =
      ((moves_of (s.1.record i)).take (min bs.length max_pgn_moves)).map from_to ∧
    (client_run client seen).game_state.pgn_moves.length = min bs.length max_pgn_moves ∧
    ∀ (k : Nat) m m', (moves_of (s.1.record i))[k]? = some m →
      (moves_of (s.1.record i))[k + 1]? = some m' → from_to m ≠ from_to m' := by
  have hposted := posting_server_posted hrun i
  obtain ⟨G, hlegal⟩ := hposted.legal
  have hrecord := (client_run_booked hlegal client seen bs hheard (hposted.announced hbs)).record
  rw [List.take_take, Nat.min_comm] at hrecord
  have htold : bs.length ≤ (moves_of (s.1.record i)).length := by
    rw [← hposted.length]
    have := hbs.length_eq
    rw [List.length_take] at this
    omega
  refine ⟨hrecord, ?_, ?_⟩
  · rw [hrecord, List.length_map, List.length_take]
    omega
  · intro k m m' hm hm'
    obtain ⟨_, hnext⟩ := hlegal.take (k + 2)
    rw [List.take_add_one, hm', List.take_add_one, hm] at hnext
    obtain ⟨G', hbefore, _, hlegal', _⟩ := hnext.last
    exact no_repeated_move hbefore hlegal'

/-- White attacks the king along the diagonal that Black has opened. -/
def opened_diagonal : List Event :=
  opening ++ [.message 5 (.move ⟨"f7".toList, "f5".toList⟩) (.calm 0),
    .message 6 (.move ⟨"d1".toList, "h5".toList⟩) (.calm 0)]

/-- The messages a client gets at `fd`. -/
def delivered (fd : Int) (ls : List (Event × List Sent)) : List (ClientEnv × ServerMessage) :=
  (inbox fd (sends ls)).map fun msg => (⟨fun _ => 0, true, true⟩, msg)

theorem opened_diagonal_posted : (exec posting_run no_posts opened_diagonal).map (fun r =>
    (moves_of (r.2.1.record 0), (heard ((delivered 5 r.1).map Prod.snd)).map fun bs =>
      (bs.length, decide (List.Forall₂ (fun b told => b ∈ told) bs
        ((r.2.2 0).take bs.length))))) =
    some ([⟨4, 1, 4, 3⟩, ⟨5, 6, 5, 4⟩, ⟨3, 0, 7, 4⟩], some (3, true)) := by
  decide +kernel

/-- What has happened there: three moves, told to White one after the other. -/
theorem opened_diagonal_runs : ∃ ls s bs, Run posting_server no_posts ls s ∧
    heard ((delivered 5 ls).map Prod.snd) = some bs ∧
    List.Forall₂ (fun b told => b ∈ told) bs ((s.2 0).take bs.length) ∧ bs.length = 3 ∧
    moves_of (s.1.record 0) = [⟨4, 1, 4, 3⟩, ⟨5, 6, 5, 4⟩, ⟨3, 0, 7, 4⟩] := by
  obtain ⟨⟨ls, s⟩, hexec, hfacts⟩ := Option.map_eq_some_iff.mp opened_diagonal_posted
  obtain ⟨hmoves, hheard⟩ := Prod.mk.inj hfacts
  obtain ⟨bs, hheard, hbs⟩ := Option.map_eq_some_iff.mp hheard
  obtain ⟨hlength, hposts⟩ := Prod.mk.inj hbs
  exact ⟨ls, s, bs, exec_run hexec, hheard, of_decide_eq_true hposts, hlength, hmoves⟩

theorem moves_recorded_opened_diagonal : ∃ ls s, Run posting_server no_posts ls s ∧
    (client_run init_client_state (delivered 5 ls)).game_state.pgn_moves =
      ["e2e4".toList, "f7f5".toList, "d1h5".toList] := by
  obtain ⟨ls, s, bs, hrun, hheard, hposts, hlength, hmoves⟩ := opened_diagonal_runs
  obtain ⟨hrecord, _⟩ := moves_recorded hrun hposts init_client_state hheard
  refine ⟨ls, s, hrun, hrecord.trans ?_⟩
  rw [hmoves, hlength]
  decide

/-- **Check flags.** Once such a client has processed a broadcast, its two
    flags are the checks on its own board, which is the server's after as
    many moves; so at most one is set, and never the mover's.  Only messages
    touch the board here: no replay is opened on it. -/
theorem check_flags_agree (hrun : Run posting_server no_posts ls s)
    (hbs : List.Forall₂ (fun b told => b ∈ told) bs ((s.2 i).take bs.length))
    (client : ClientState) (hheard : heard (seen.map Prod.snd) = some bs) (hne : bs ≠ []) :
    let state := (client_run client seen).game_state
    state.game = fold_moves ((moves_of (s.1.record i)).take bs.length) ∧
    state.white_in_check = is_in_check state.game .white ∧
    state.black_in_check = is_in_check state.game .black ∧
    ¬ (state.white_in_check = true ∧ state.black_in_check = true) ∧
    state.check_flag state.game.side_to_move.other = false := by
  have hposted := posting_server_posted hrun i
  obtain ⟨G, hlegal⟩ := hposted.legal
  have hannounced := hposted.announced hbs
  obtain ⟨hboard, _, hflags⟩ := client_run_booked hlegal client seen bs hheard hannounced
  obtain ⟨G', hrun'⟩ := hlegal.take bs.length
  have hmoves : (moves_of (s.1.record i)).take bs.length ≠ [] := by
    have hfirst := List.getElem?_eq_getElem (List.length_pos_iff.mpr hne)
    obtain ⟨m, hm, _⟩ := hannounced 0 _ hfirst
    intro hnil
    rw [List.take_eq_nil_iff] at hnil
    rcases hnil with hnil | hnil
    · exact hne (List.length_eq_zero_iff.mp hnil)
    · rw [hnil] at hm
      cases hm
  -- the mover is not in check
  have hmover : is_in_check (client_run client seen).game_state.game
      (client_run client seen).game_state.game.side_to_move.other = false := by
    rw [hboard, ← (run_fold hrun').1]
    exact (kings_safe hrun').2.1
  have hwhite := hflags hmoves .white
  have hblack := hflags hmoves .black
  refine ⟨hboard, hwhite, hblack, ?_, (hflags hmoves _).trans hmover⟩
  intro ⟨hw, hb⟩
  cases hside : (client_run client seen).game_state.game.side_to_move with
  | white =>
    rw [hside] at hmover
    exact absurd (hb.symm.trans (hblack.trans hmover)) Bool.noConfusion
  | black =>
    rw [hside] at hmover
    exact absurd (hw.symm.trans (hwhite.trans hmover)) Bool.noConfusion

theorem check_flags_agree_opened_diagonal : ∃ ls s, Run posting_server no_posts ls s ∧
    (client_run init_client_state (delivered 5 ls)).game_state.white_in_check = false ∧
    (client_run init_client_state (delivered 5 ls)).game_state.black_in_check = true := by
  obtain ⟨ls, s, bs, hrun, hheard, hposts, hlength, hmoves⟩ := opened_diagonal_runs
  have hne : bs ≠ [] := by
    intro hnil
    rw [hnil] at hlength
    cases hlength
  obtain ⟨hboard, hwhite, hblack, _⟩ :=
    check_flags_agree hrun hposts init_client_state hheard hne
  rw [hmoves, hlength] at hboard
  rw [hboard] at hwhite hblack
  refine ⟨ls, s, hrun, hwhite.trans ?_, hblack.trans ?_⟩
  · decide +kernel
  · decide +kernel

end game

end MultiplayChess
