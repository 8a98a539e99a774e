import MultiplayChess.Client.Bookkeeping
import MultiplayChess.Client.GameScreen
import MultiplayChess.Client.InTouch

/-! # What is highlighted can be played

    The client marks the squares to which the selected man may go, with its
    own copy of the rules and of the position; a click on a square sends a
    request, and the server checks it with its copies.  When nothing is on
    the way, the marked squares are the ones for which the server accepts
    the request: the colour at a place of the screen tells what becomes of
    a click there. -/

namespace MultiplayChess

open LTS Loop Replica Painting
open Chess (OnBoard Move)

/-! ## Marks and colours -/

section marks

variable {G : Game} {h : List Move}

theorem is_target_iff {ps ps' : PieceState} : is_target ps ps' = true ↔
    ps'.man.isSome = true ∧ ps'.team ≠ ps.team := by
  unfold is_target PieceState.man
  cases ps'.is_dead <;> cases ps'.piece <;> simp

/-- The marks are the legal moves of the selected man, the captures apart. -/
theorem marks_iff (hf : Following G h) (sx sy dx dy : Int) :
    ((calculate_possible_moves G sx sy true).capture_moves dy dx = true ↔
      is_move_legal G sx sy dx dy = true ∧ (placement G dx dy).isSome = true) ∧
    ((calculate_possible_moves G sx sy true).possible_moves dy dx = true ↔
      is_move_legal G sx sy dx dy = true ∧ (placement G dx dy).isSome = false) := by
  by_cases hlegal : is_move_legal G sx sy dx dy = true
  · obtain ⟨c, hp, _⟩ := (hf.legal_iff ⟨sx, sy, dx, dy⟩).mp hlegal
    have hman := hp.man
    rw [← hf.tracks.board_eq] at hman
    obtain ⟨hlive, hteam, hpiece⟩ :=
      ((hf.tracks.board_ok sx sy).man_eq_some_iff c.team c.kind).mp hman
    have hmoved : decide (¬ (sx = dx ∧ sy = dy)) = true := decide_eq_true hp.src_ne_dst
    have htarget : is_target (G.board.get sy sx) (G.board.get dy dx) =
        (placement G dx dy).isSome := by
      rw [Bool.eq_iff_iff, is_target_iff]
      apply and_iff_left_of_imp
      intro hsome
      obtain ⟨e, he⟩ := Option.isSome_iff_exists.mp hsome
      have hown := hp.not_own e (by rw [← hf.tracks.board_eq]; exact he)
      rw [((hf.tracks.board_ok dx dy).man_eq_some_iff e.team e.kind).mp he |>.2.1, hteam, hp.own]
      exact hown
    have hmarks : (calculate_possible_moves G sx sy true).capture_moves dy dx =
          (placement G dx dy).isSome ∧
        (calculate_possible_moves G sx sy true).possible_moves dy dx =
          !(placement G dx dy).isSome := by
      unfold calculate_possible_moves
      simp only [hpiece, hlive]
      show (_ && _ && _) = _ ∧ (_ && _ && !_) = _
      rw [hmoved, hlegal, htarget]
      exact ⟨rfl, rfl⟩
    rw [hmarks.1, hmarks.2]
    simp [hlegal]
  · have hnone : (calculate_possible_moves G sx sy true).capture_moves dy dx = false ∧
        (calculate_possible_moves G sx sy true).possible_moves dy dx = false := by
      unfold calculate_possible_moves
      simp only
      split
      · exact ⟨rfl, rfl⟩
      · split
        · exact ⟨rfl, rfl⟩
        · simp [hlegal]
    rw [hnone.1, hnone.2]
    simp [hlegal]

/-- A legal move does not go to its own square, nor to that of a king. -/
theorem legal_target {sx sy dx dy : Int} (hf : Following G h)
    (hlegal : is_move_legal G sx sy dx dy = true) :
    ¬ (sx = dx ∧ sy = dy) ∧ Client.check_king G (G.board.get dy dx) = (false, false) := by
  obtain ⟨c, hp, _⟩ := (hf.legal_iff ⟨sx, sy, dx, dy⟩).mp hlegal
  refine ⟨hp.src_ne_dst, if_neg ?_⟩
  intro hking
  rw [Bool.and_eq_true, Bool.not_eq_true', Option.any_eq_true] at hking
  obtain ⟨⟨p, hpiece, hkind⟩, hlive⟩ := hking
  have hman : (G.board.get dy dx).man = some ⟨(G.board.get dy dx).team, p.type⟩ := by
    unfold PieceState.man
    rw [hlive, hpiece]
    rfl
  rw [hf.tracks.board_eq] at hman
  exact hf.sound.no_king_capture hp hman (of_decide_eq_true hkind)

/-- **The colour of a square** that is not under the cursor tells whether
    the selected man may go there, and whether somebody stands there. -/
theorem square_color_iff {client : Client} {bx bY : Int}
    (hf : Following client.state.game_state.game h) (hselected : client.piece_selected = true)
    (hcursor : client.is_cursor (client.actual_square bx bY).2
      (client.actual_square bx bY).1 = false) :
    let color := (client.square_color (calculate_possible_moves client.state.game_state.game
      client.selected_x client.selected_y client.piece_selected) (client.actual_square bx bY).2
        (client.actual_square bx bY).1).1
    let legal :=
      is_move_legal client.state.game_state.game client.selected_x client.selected_y bx bY
    let occupied := (placement client.state.game_state.game bx bY).isSome
    (color = .capture_move ↔ legal = true ∧ occupied = true) ∧
      (color = .possible_move ↔ legal = true ∧ occupied = false) := by
  simp only
  obtain ⟨hcapture, hpossible⟩ := marks_iff hf client.selected_x client.selected_y bx bY
  unfold Client.square_color
  simp only [Client.actual_square_twice, hcursor, hselected, Bool.true_and]
  by_cases hlegal : is_move_legal client.state.game_state.game client.selected_x client.selected_y
      bx bY = true
  · -- neither the selected square nor the one of a king
    obtain ⟨hmoved, hking⟩ := legal_target hf hlegal
    have hother :
        ¬ (decide (client.selected_x = bx) && decide (client.selected_y = bY)) = true := by
      rw [Bool.and_eq_true, decide_eq_true_eq, decide_eq_true_eq]
      exact hmoved
    rw [if_neg hother, hking, if_neg Bool.false_ne_true, if_neg Bool.false_ne_true,
      if_neg Bool.false_ne_true]
    cases hoccupied : (placement client.state.game_state.game bx bY).isSome with
    | true =>
      rw [if_pos (hcapture.mpr ⟨hlegal, hoccupied⟩)]
      simp [hlegal]
    | false =>
      have hnone : ¬ (calculate_possible_moves client.state.game_state.game client.selected_x
          client.selected_y true).capture_moves bY bx = true := by
        rw [hcapture, hoccupied]
        simp
      rw [if_neg hnone, if_pos (hpossible.mpr ⟨hlegal, hoccupied⟩)]
      simp [hlegal]
  · -- no mark at all
    rw [if_neg Bool.false_ne_true, if_neg fun h => hlegal (hcapture.mp h).1,
      if_neg fun h => hlegal (hpossible.mp h).1]
    constructor
    · apply iff_of_false ?_ fun h => hlegal h.1
      repeat' split
      all_goals exact ColorPair.noConfusion
    · apply iff_of_false ?_ fun h => hlegal h.1
      repeat' split
      all_goals exact ColorPair.noConfusion

end marks

/-! ## The request of a click -/

theorem parse_coordinate {x y : Int} (hon : OnBoard x y) :
    parse_chess_coordinate (Client.coordinate x y) = some (x, y) := by
  obtain ⟨⟨hx, hx8⟩, hy, hy8⟩ := hon
  have hfile : (Char.ofNat (97 + x).toNat).toNat = (97 + x).toNat := toNat_ofNat_ascii (by omega)
  have hrank : (Char.ofNat (49 + y).toNat).toNat = (49 + y).toNat := toNat_ofNat_ascii (by omega)
  unfold Client.coordinate parse_chess_coordinate
  simp only
  rw [if_neg, hfile, hrank]
  · congr 2
    · omega
    · omega
  · simp only [Bool.or_eq_true, decide_eq_true_eq, not_or, Char.not_lt]
    refine ⟨⟨⟨?_, ?_⟩, ?_⟩, ?_⟩
    · show 97 ≤ (Char.ofNat (97 + x).toNat).toNat
      omega
    · show (Char.ofNat (97 + x).toNat).toNat ≤ 104
      omega
    · show 49 ≤ (Char.ofNat (49 + y).toNat).toNat
      omega
    · show (Char.ofNat (49 + y).toNat).toNat ≤ 56
      omega

/-- The request for a move. -/
def request_of (m : Move) : ClientMessage :=
  .move { from_coord := Client.coordinate m.sx m.sy, to_coord := Client.coordinate m.dx m.dy }

section click

variable {client : Client} {env : KeyEnv} {bx bY : Int}

/-- Both ends use the same parser. -/
theorem parse_chess_coordinate_network_eq :
    Client.parse_chess_coordinate_network = parse_chess_coordinate := rfl

theorem send_move_request_posts {m : Move} (hconnected : client.connected = true)
    (hsend : env.send = true) (hsrc : OnBoard m.sx m.sy) (hdst : OnBoard m.dx m.dy) :
    client.send_move_request env (Client.coordinate m.sx m.sy) (Client.coordinate m.dx m.dy) =
      (client.post (request_of m), true) := by
  unfold Client.send_move_request
  rw [parse_chess_coordinate_network_eq, parse_coordinate hsrc, parse_coordinate hdst, hconnected,
    hsend]
  rfl

/-- **A second click** asks for the move to another square. -/
theorem handle_board_click_outbox (hconnected : client.connected = true) (hsend : env.send = true)
    (hselected : client.piece_selected = true) (hon : OnBoard bx bY) :
    (client.handle_board_click env bx bY).outbox = client.outbox ++
      if OnBoard client.selected_x client.selected_y ∧
          ¬ (bx = client.selected_x ∧ bY = client.selected_y) then
        [request_of ⟨client.selected_x, client.selected_y, bx, bY⟩]
      else [] := by
  unfold Client.handle_board_click
  simp only [hselected]
  rw [if_neg (by exact Bool.false_ne_true)]
  by_cases hsame : bx = client.selected_x ∧ bY = client.selected_y
  · rw [if_pos hsame, if_neg fun h => h.2 hsame]
    exact (List.append_nil _).symm
  · rw [if_neg hsame]
    by_cases hsrc : OnBoard client.selected_x client.selected_y
    · have hposts : client.send_move_request env
          (Client.coordinate client.selected_x client.selected_y) (Client.coordinate bx bY) = _ :=
        send_move_request_posts (m := ⟨client.selected_x, client.selected_y, bx, bY⟩) hconnected
          hsend hsrc hon
      have hrange : ¬ (client.selected_x < 0 ∨ client.selected_x ≥ 8 ∨ client.selected_y < 0 ∨
          client.selected_y ≥ 8) := by
        unfold OnBoard at hsrc
        omega
      rw [if_neg hrange, hposts]
      exact congrArg (client.outbox ++ ·) (if_pos ⟨hsrc, hsame⟩).symm
    · have hrange : client.selected_x < 0 ∨ client.selected_x ≥ 8 ∨ client.selected_y < 0 ∨
          client.selected_y ≥ 8 := by
        unfold OnBoard at hsrc
        omega
      rw [if_pos hrange, if_neg fun h => hsrc h.1]
      exact (List.append_nil _).symm

end click

/-! ## From the screen to the server -/

/-- The user has selected a man and looks for a place to go: the board is
    shown, and nothing is on the way from the server. -/
structure ChoosesTarget (s : Linked) : Prop where
  prompt : s.prompt = false
  screen : s.client.state.current_screen = .game
  dialog : s.client.state.dialog_active = false
  connected : s.client.connected = true
  selected : s.client.piece_selected = true
  heard : s.on_the_way = []

/-- The click is handled, and the server accepts the request it makes as the
    move `m` of the game in slot `i`. -/
def ClickPlays (s : Linked) (env : KeyEnv) (x y : Int) (i : Fin max_active_games)
    (m : Move) : Prop :=
  ∃ s' msg, linked.step s (.main (.key env (.mouse x y true))) s' ∧
    s'.client.outbox = s.client.outbox ++ [msg] ∧
    ∀ env', accepted s'.mgr (.message s'.fd msg env') = some (i, m)

section server

variable {mgr : MatchManager} {fd : Int} {i : Fin max_active_games} {t : Team}

/-- The server finds the seat of a client. -/
theorem find_seat (hunique : UniquePlaces mgr) (hseat : mgr.fd_at (.seat i t) = some fd) :
    find_game_by_player_fd mgr fd = some i ∧ player_team (mgr.active_games i) fd = some t := by
  obtain ⟨hactive, hfd⟩ := fd_at_seat.mp hseat
  have hseats : (mgr.active_games i).seats fd = true := seats_iff.mpr ⟨t, hfd⟩
  have hne := hunique.seats_ne hactive t
  constructor
  · cases hfind : find_game_by_player_fd mgr fd with
    | none =>
      rw [find_game_none hfind hactive] at hseats
      cases hseats
    | some j =>
      obtain ⟨hactive', hseats'⟩ := find_game_spec hfind
      rw [hunique.seats hactive' hactive hseats' hseats]
  · unfold player_team
    cases t with
    | white => exact if_pos (beq_iff_eq.mpr hfd)
    | black =>
      have hother : (mgr.active_games i).white_player_fd ≠ fd := by
        intro hwhite
        exact hne (hfd.trans hwhite.symm)
      rw [if_neg fun h => hother (beq_iff_eq.mp h)]
      exact if_pos (beq_iff_eq.mpr hfd)

/-- The server accepts the request for a move exactly if it is the turn of
    the seat and the move is legal. -/
theorem accepted_request_iff (hunique : UniquePlaces mgr) (hseat : mgr.fd_at (.seat i t) = some fd)
    {m : Move} (hsrc : OnBoard m.sx m.sy) (hdst : OnBoard m.dx m.dy) (env : Env) :
    accepted mgr (.message fd (request_of m) env) = some (i, m) ↔
      (mgr.active_games i).game_state.side_to_move = t ∧
        is_move_legal (mgr.active_games i).game_state m.sx m.sy m.dx m.dy = true := by
  obtain ⟨hfind, hteam⟩ := find_seat hunique hseat
  unfold accepted request_of
  simp only [hfind, hteam, check_move, parse_coordinate hsrc, parse_coordinate hdst]
  by_cases hturn : (mgr.active_games i).game_state.side_to_move = t
  · rw [if_neg (not_not.mpr hturn)]
    by_cases hlegal : is_move_legal (mgr.active_games i).game_state m.sx m.sy m.dx m.dy = true
    · simp [hlegal, hturn]
    · simp [hlegal]
  · rw [if_pos hturn]
    simp [hturn]

end server

section click

variable {s s' : Linked} {env : KeyEnv} {x y bx bY : Int}

/-- What a click does. -/
theorem click_step_iff (hchooses : ChoosesTarget s) (hreplay : s.client.replay = none)
    (hat : s.client.coord_to_board_pos x y = some (bx, bY)) :
    linked.step s (.main (.key env (.mouse x y true))) s' ↔
      s' = { s with client := s.client.handle_board_click env bx bY } := by
  have hclick : s.client.step (.key env (.mouse x y true)) =
      some (s.client.handle_board_click env bx bY) := by
    apply step_key.mpr
    refine ⟨hreplay, ?_⟩
    have hmouse : s.client.handle_mouse_input env x y true =
        s.client.handle_board_click env bx bY := by
      unfold Client.handle_mouse_input
      rw [hchooses.screen, hat]
      rfl
    unfold Client.handle_key
    rw [if_neg (by rw [hchooses.dialog]; exact Bool.false_ne_true)]
    exact congrArg some hmouse
  show s.main _ = some s' ↔ _
  unfold Linked.main
  rw [if_pos ⟨hchooses.prompt, rfl⟩, hclick]
  exact Option.some_inj.trans eq_comm

/-- **A click plays a move** exactly if it is the player's turn and the move
    is legal at the server. -/
theorem click_plays_iff {i : Fin max_active_games} {t : Team} {h : List Move} (htouch : InTouch s)
    (hf : Following (s.mgr.active_games i).game_state h) (hchooses : ChoosesTarget s)
    (hseat : s.mgr.fd_at (.seat i t) = some s.fd)
    (hsend : env.send = true) (hat : s.client.coord_to_board_pos x y = some (bx, bY)) :
    ClickPlays s env x y i ⟨s.client.selected_x, s.client.selected_y, bx, bY⟩ ↔
      (s.mgr.active_games i).game_state.side_to_move = t ∧
        is_move_legal (s.mgr.active_games i).game_state s.client.selected_x
          s.client.selected_y bx bY =
          true := by
  have hreplay : s.client.replay = none := htouch.replay.resolve_right fun h => h i t hseat
  obtain ⟨hon, _⟩ := Client.coord_to_board_pos_iff.mp hat
  have houtbox := handle_board_click_outbox hchooses.connected hsend hchooses.selected hon
  constructor
  · intro ⟨s', msg, hstep, hposted, haccepted⟩
    obtain rfl := (click_step_iff hchooses hreplay hat).mp hstep
    rw [houtbox, List.append_cancel_left_eq] at hposted
    split at hposted
    · rename_i hmoved
      obtain rfl := (List.cons.inj hposted).1
      exact (accepted_request_iff htouch.tidy.unique hseat hmoved.1 hon (.calm 0)).mp
        (haccepted _)
    · cases hposted
  · intro ⟨hturn, hlegal⟩
    obtain ⟨c, hp, _⟩ := (hf.legal_iff ⟨s.client.selected_x, s.client.selected_y, bx, bY⟩).mp hlegal
    have hsrc : OnBoard s.client.selected_x s.client.selected_y := hp.src_on
    have hmoved : ¬ (bx = s.client.selected_x ∧ bY = s.client.selected_y) :=
      fun hsame => hp.src_ne_dst ⟨hsame.1.symm, hsame.2.symm⟩
    refine ⟨_, request_of ⟨s.client.selected_x, s.client.selected_y, bx, bY⟩,
      (click_step_iff hchooses hreplay hat).mpr rfl, ?_, ?_⟩
    · rw [houtbox, if_pos ⟨hsrc, hmoved⟩]
    · intro env'
      exact (accepted_request_iff htouch.tidy.unique hseat hsrc hon env').mpr ⟨hturn, hlegal⟩

end click

/-- `bob` has clicked on his pawn on e2. -/
def pawn_selected : List LinkedEvent :=
  bob_plays ++ [.main (.key bob_types (.mouse 37 23 true))]

/-- The user plays White in the first game and looks for a place for the
    pawn on e2; e4 is marked. -/
def chooses_e4 (s : Linked) : Bool :=
  s.prompt == false && s.client.state.current_screen == .game &&
    s.client.state.dialog_active == false && s.client.connected && s.client.piece_selected &&
    s.on_the_way.isEmpty && s.mgr.fd_at (.seat 0 .white) == some s.fd &&
    s.client.coord_to_board_pos 37 17 == some (4, 3) && !s.client.is_cursor 4 4 &&
    s.client.actual_square 4 3 == (4, 4) && s.client.selected_x == 4 && s.client.selected_y == 1 &&
    s.client.color_at 37 17 == some .possible_move &&
    s.client.state.game_state.game.side_to_move == s.client.state.game_state.local_team

theorem pawn_selected_chooses :
    (pawn_selected.foldlM in_touch_run linked_init).map chooses_e4 = some true := by
  decide +kernel

end MultiplayChess
