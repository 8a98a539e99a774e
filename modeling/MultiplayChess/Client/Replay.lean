import MultiplayChess.Client.Pgn

/-! # Replays

    `client/replay.c`: a saved game is shown move by move.  Whenever the
    index of the current move changes, the position is built again from
    the start.  The position shown is that of the client's own game
    state. -/

namespace MultiplayChess

/-- `struct timeval`. -/
structure Timeval where
  tv_sec : Int
  tv_usec : Int
  deriving DecidableEq, Repr

/-- `time_diff_ms`. -/
def time_diff_ms (t1 t2 : Timeval) : Int :=
  (t2.tv_sec - t1.tv_sec) * 1000 + (t2.tv_usec - t1.tv_usec).tdiv 1000

/-- `replay_state_t`. -/
structure ReplayState where
  moves : List CString
  current_move : Int
  auto_play : Bool
  last_auto_play_time : Timeval

/-- Play the word of a file, if it is long enough for two squares. -/
def replay_word (game : Game) : CString → Game
  | sx :: sy :: dx :: dy :: _ => (apply_move_from_server game [sx, sy] [dx, dy]).1
  | _ => game

/-- The loop of `replay_to_move` from move `i` on. -/
def replay_moves (i target_move : Int) : List CString → Game → Game
  | [], game => game
  | m :: ms, game =>
    if i ≤ target_move then replay_moves (i + 1) target_move ms (replay_word game m) else game

/-- `replay_to_move`: the position it leaves behind. -/
def replay_to_move (state : ReplayState) (target_move : Int) (game : Game) : Game :=
  replay_moves 0 target_move state.moves (reset_game_to_starting_position game)

/-- The position after the first words of a file up to index `k`. -/
def position_at (moves : List CString) (k : Int) : Game :=
  (moves.take (k + 1).toNat).foldl replay_word (init_startpos .zero)

/-- The reset overwrites whatever position was there. -/
theorem reset_game_eq (game : Game) : reset_game_to_starting_position game = init_startpos .zero :=
  rfl

theorem replay_moves_eq (target_move : Int) {ms : List CString} : ∀ {i : Int} {game : Game},
    replay_moves i target_move ms game =
      (ms.take (target_move + 1 - i).toNat).foldl replay_word game := by
  induction ms with
  | nil =>
    intro i game
    rw [List.take_nil]
    rfl
  | cons m ms ih =>
    intro i game
    unfold replay_moves
    split
    · rename_i hle
      -- one word more
      obtain ⟨n, hn⟩ : ∃ n, (target_move + 1 - i).toNat = n + 1 :=
        ⟨(target_move - i).toNat, by omega⟩
      rw [ih, hn, List.take_succ_cons, List.foldl_cons,
        show (target_move + 1 - (i + 1)).toNat = n by omega]
    · rename_i hgt
      rw [show (target_move + 1 - i).toNat = 0 by omega, List.take_zero]
      rfl

/-- **The position of a replay** depends on the words of the file and on
    the index only. -/
theorem replay_to_move_eq (state : ReplayState) (target_move : Int) (game : Game) :
    replay_to_move state target_move game = position_at state.moves target_move := by
  unfold replay_to_move position_at
  rw [replay_moves_eq, reset_game_eq, Int.sub_zero]

/-- A move in coordinates is played on its two squares. -/
theorem replay_word_coordinate {m : CString} (h : coordinate_move m = true) (game : Game) :
    replay_word game m = (apply_move_from_server game (m.take 2) (m.drop 2)).1 := by
  unfold coordinate_move at h
  split at h
  · rfl
  · cases h

theorem foldl_replay_word {ms : List CString} (h : ∀ m ∈ ms, coordinate_move m = true) :
    ∀ game, ms.foldl replay_word game =
      ms.foldl (fun G m => (apply_move_from_server G (m.take 2) (m.drop 2)).1) game := by
  induction ms with
  | nil =>
    intro game
    rfl
  | cons m ms ih =>
    intro game
    rw [List.foldl_cons, List.foldl_cons, replay_word_coordinate (h m (List.mem_cons_self ..))]
    exact ih (fun m' hm' => h m' (List.mem_cons_of_mem _ hm')) _

/-- **Save and replay.** The moves read back from a saved game are the
    moves of the game, and its replay goes through the positions of the
    game. -/
theorem save_replay_round_trip (date : Date) (state : GameState)
    (hmoves : ∀ m ∈ state.pgn_moves, coordinate_move m = true)
    (hlen : state.pgn_moves.length ≤ 512)
    (hlocal : state.local_player.length ≤ 31 ∧ '\n' ∉ state.local_player)
    (hopponent : state.opponent_player.length ≤ 31 ∧ '\n' ∉ state.opponent_player)
    (hresult : state.pgn_result ∈ pgn_results) :
    load_moves (some (write_pgn date state)) = state.pgn_moves ∧
      ∀ (replay : ReplayState) (k : Int) (game : Game),
        replay.moves = load_moves (some (write_pgn date state)) →
        replay_to_move replay k game =
          (state.pgn_moves.take (k + 1).toNat).foldl
            (fun G m => (apply_move_from_server G (m.take 2) (m.drop 2)).1)
            (init_startpos .zero) := by
  have hname : ∀ {s : CString}, s.length ≤ 31 ∧ '\n' ∉ s → OneLine s :=
    fun h => ⟨h.2, Nat.le_trans h.1 (by decide)⟩
  have hload : load_moves (some (write_pgn date state)) = state.pgn_moves :=
    load_moves_write_pgn date (hname hlocal) (hname hopponent) (one_line_result hresult)
      (fun m hm => coordinate_move_token (hmoves m hm)) hlen
  refine ⟨hload, ?_⟩
  intro replay k game hreplay
  rw [replay_to_move_eq, hreplay, hload]
  apply foldl_replay_word
  intro m hm
  exact hmoves m (List.mem_of_mem_take hm)

/-- A game with an odd number of moves and unusual names. -/
def unfinished_game : GameState :=
  { init_game_state with
    local_player := "al. [ice]".toList
    opponent_player := "b o b".toList
    pgn_moves := ["e2e4".toList, "e7e5".toList, "g1f3".toList]
    pgn_result := "1-0".toList }

def midsummer : Date where
  year := 2025
  month := 6
  day := 25
  year_lt := by decide
  month_lt := by decide
  day_lt := by decide

theorem save_replay_round_trip_unfinished :
    load_moves (some (write_pgn midsummer unfinished_game)) =
        ["e2e4".toList, "e7e5".toList, "g1f3".toList] ∧
      replay_to_move
          { moves := load_moves (some (write_pgn midsummer unfinished_game))
            current_move := 2, auto_play := false, last_auto_play_time := ⟨0, 0⟩ } 1 .zero =
        ["e2e4".toList, "e7e5".toList].foldl
          (fun G m => (apply_move_from_server G (m.take 2) (m.drop 2)).1)
          (init_startpos .zero) := by
  obtain ⟨hload, hreplay⟩ := save_replay_round_trip midsummer unfinished_game
    (by decide) (by decide) (by decide) (by decide) (by decide)
  exact ⟨hload, hreplay _ 1 .zero rfl⟩

end MultiplayChess
