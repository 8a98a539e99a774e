import MultiplayChess.Client.Session
import MultiplayChess.Server.Record

/-! # Navigating in a replay

    The replay loop has three ways to change the index of the current move:
    the keys forward and back and the automatic steps.  Each of them builds
    the position again from the start; so it is the one the words of the
    file up to the index lead to, whatever the way there. -/

namespace MultiplayChess

open LTS
open Chess (Move OnBoard)

/-! ## The words of a file -/

/-- The move a word of a file stands for: its first four characters name two
    squares. -/
def token_move : CString → Option Move
  | sx :: sy :: dx :: dy :: _ =>
    let m : Move := ⟨sx.toNat - 97, sy.toNat - 49, dx.toNat - 97, dy.toNat - 49⟩
    if OnBoard m.sx m.sy ∧ OnBoard m.dx m.dy then some m else none
  | _ => none

/-- The moves among the words up to index `k`. -/
def moves_up_to (tokens : List CString) (k : Int) : List Move :=
  (tokens.take (k + 1).toNat).filterMap token_move

theorem replay_word_eq (G : Game) (token : CString) : replay_word G token =
    match token_move token with
    | some m => apply_move G m.sx m.sy m.dx m.dy
    | none => G := by
  rcases token with _ | ⟨sx, _ | ⟨sy, _ | ⟨dx, _ | ⟨dy, rest⟩⟩⟩⟩
  · rfl
  · rfl
  · rfl
  · rfl
  · simp only [replay_word, token_move, apply_move_from_server]
    by_cases hon : OnBoard (sx.toNat - 97) (sy.toNat - 49) ∧ OnBoard (dx.toNat - 97) (dy.toNat - 49)
    · have hin := hon
      unfold OnBoard at hin
      rw [if_pos hon, if_neg (by omega)]
    · have hout := hon
      unfold OnBoard at hout
      rw [if_neg hon, if_pos (by omega)]

/-- **The position of a replay** is where the moves lead. -/
theorem position_at_eq (tokens : List CString) (k : Int) :
    position_at tokens k = fold_moves (moves_up_to tokens k) := by
  unfold position_at moves_up_to fold_moves
  generalize tokens.take (k + 1).toNat = words
  generalize init_startpos .zero = G
  induction words generalizing G with
  | nil => rfl
  | cons token words ih =>
    rw [List.foldl_cons, replay_word_eq, ih, List.filterMap_cons]
    cases token_move token with
    | none => rfl
    | some m => rfl

/-! ## The replay loop -/

/-- The events of the replay loop, and those of the network thread that
    leave the board alone. -/
def navigates : ClientEvent → Bool
  | .auto_play _ _ => true
  | .replay_key _ _ => true
  | .message _ msg => (news_of msg).isNone
  | .lost => true
  | .connected _ => true
  | _ => false

/-- If a replay runs, it is one of the file, at a move of it and at the
    position after that move. -/
def Shows (tokens : List CString) (client : Client) : Prop :=
  ∀ replay, client.replay = some replay →
    replay.moves = tokens ∧ -1 ≤ replay.current_move ∧
      replay.current_move ≤ tokens.length - 1 ∧
      client.state.game_state.game = position_at tokens replay.current_move

section loop

variable {tokens : List CString} {client client' : Client} {replay : ReplayState}

theorem Shows.of_shown (h : Shows tokens client) (hshown : client'.shown = client.shown) :
    Shows tokens client' := by
  obtain ⟨hgame, hreplay⟩ := Prod.mk.inj hshown
  intro replay hrunning
  rw [hreplay] at hrunning
  rw [hgame]
  exact h replay hrunning

theorem Shows.start (file : Option CString) (hmenu : client.replay = none) :
    Shows (load_moves file) (client.start_replay file) := by
  intro replay hrunning
  by_cases hnone : load_moves file = []
  · have hkept : client.start_replay file = client := if_pos hnone
    rw [hkept, hmenu] at hrunning
    cases hrunning
  · have hopen : client.start_replay file = _ := if_neg hnone
    rw [hopen] at hrunning ⊢
    cases hrunning
    have hlength := List.length_pos_iff.mpr hnone
    refine ⟨rfl, Int.le_refl _, ?_, rfl⟩
    show (-1 : Int) ≤ _
    omega

/-- Going to a move of the file shows it. -/
theorem Shows.show_move {replay' : ReplayState} (hmoves : replay'.moves = tokens) {k : Int}
    (hlow : -1 ≤ k) (hhigh : k ≤ tokens.length - 1) :
    Shows tokens (client.show_move replay' k) := by
  intro replay hrunning
  cases hrunning
  refine ⟨hmoves, hlow, hhigh, ?_⟩
  rw [← hmoves]
  exact replay_to_move_eq _ _ _

/-- Leaving the replay. -/
theorem Shows.none (h : client'.replay = none) : Shows tokens client' := by
  intro replay hrunning
  rw [h] at hrunning
  cases hrunning

theorem Shows.auto_play (h : Shows tokens client) (hreplay : client.replay = some replay)
    (now later : Timeval) : Shows tokens (client.auto_play replay now later) := by
  obtain ⟨hmoves, hlow, _, _⟩ := h replay hreplay
  unfold Client.auto_play
  split
  · rename_i hdue
    simp only [Bool.and_eq_true, decide_eq_true_eq, hmoves] at hdue
    apply Shows.show_move
    · exact hmoves
    · omega
    · omega
  · exact h

/-- **A key** moves inside the file or leaves the replay. -/
theorem Shows.handle_replay_key (h : Shows tokens client) (hreplay : client.replay = some replay)
    (now : Timeval) (ch : Key) : Shows tokens (client.handle_replay_key replay now ch) := by
  obtain ⟨hmoves, hlow, hhigh, hgame⟩ := h replay hreplay
  unfold Client.handle_replay_key
  split
  · exact .none rfl
  · split
    · rename_i hback
      apply Shows.show_move
      · exact hmoves
      · omega
      · omega
    · split
      · rename_i hforth
        rw [hmoves] at hforth
        apply Shows.show_move
        · exact hmoves
        · omega
        · omega
      · split
        · -- the automatic steps start or stop; the move stays
          intro replay' hrunning
          cases hrunning
          exact ⟨hmoves, hlow, hhigh, hgame⟩
        · exact h

/-- **The step lemma.** -/
theorem Shows.step (h : Shows tokens client) {e : ClientEvent} (he : navigates e = true)
    (hstep : session.step client e client') : Shows tokens client' := by
  cases e with
  | message env msg =>
    cases hstep
    apply h.of_shown
    rw [Client.receive_shown, Option.isNone_iff_eq_none.mp he]
    rfl
  | lost =>
    cases hstep
    exact h.of_shown (Client.shown_of_untouched Client.lose_connection_untouched)
  | connected send =>
    cases hstep
    exact h.of_shown (Client.shown_of_untouched (Client.reconnect_untouched send))
  | auto_play now later =>
    obtain ⟨replay, hreplay, rfl⟩ := step_auto_play.mp hstep
    exact h.auto_play hreplay now later
  | replay_key now ch =>
    obtain ⟨replay, hreplay, rfl⟩ := step_replay_key.mp hstep
    exact h.handle_replay_key hreplay now ch
  | key env ch => cases he
  | dialog => cases he
  | timer now => cases he
  | resize too_small => cases he

/-! ### Forward and back -/

/-- The key goes on to the next move. -/
def is_forward (ch : Key) : Prop :=
  ch = .down ∨ ch = .char '\n'

/-- Where a replay is: the position and the index. -/
def Client.place (client : Client) : Game × Option Int :=
  (client.state.game_state.game, client.replay.map ReplayState.current_move)

theorem step_forward {now : Timeval} {ch : Key} (hch : is_forward ch)
    (hreplay : client.replay = some replay) (hroom : replay.current_move < replay.moves.length - 1)
    (hstep : client.step (.replay_key now ch) = some client') :
    client' = client.show_move { replay with auto_play := false } (replay.current_move + 1) := by
  obtain ⟨replay', hreplay', rfl⟩ := step_replay_key.mp hstep
  rw [hreplay] at hreplay'
  cases hreplay'
  unfold Client.handle_replay_key
  rcases hch with rfl | rfl
  · rw [if_neg (by decide), if_neg (by simp), if_pos ⟨.inl rfl, hroom⟩]
  · rw [if_neg (by decide), if_neg (by simp), if_pos ⟨.inr rfl, hroom⟩]

theorem step_back {now : Timeval} (hreplay : client.replay = some replay)
    (hroom : 0 ≤ replay.current_move) (hstep : client.step (.replay_key now .up) = some client') :
    client' = client.show_move { replay with auto_play := false } (replay.current_move - 1) := by
  obtain ⟨replay', hreplay', rfl⟩ := step_replay_key.mp hstep
  rw [hreplay] at hreplay'
  cases hreplay'
  unfold Client.handle_replay_key
  rw [if_neg (by decide), if_pos ⟨rfl, hroom⟩]

/-- Going to the move of another place of the same replay. -/
theorem show_move_place {replay' : ReplayState} (h : Shows tokens client)
    (hreplay : client.replay = some replay) (hmoves : replay'.moves = tokens) :
    (client'.show_move replay' replay.current_move).place = client.place := by
  obtain ⟨_, _, _, hgame⟩ := h replay hreplay
  have hplace : (client'.show_move replay' replay.current_move).state.game_state.game =
      position_at replay'.moves replay.current_move := replay_to_move_eq _ _ _
  unfold Client.place
  rw [hplace, hmoves, ← hgame, hreplay]
  rfl

/-- **Forward and back** ends where it began. -/
theorem Shows.forward_back (h : Shows tokens client) (hreplay : client.replay = some replay)
    (hroom : replay.current_move < tokens.length - 1) {now now' : Timeval} {ch : Key}
    (hch : is_forward ch) {client₁ client₂ : Client}
    (hstep₁ : client.step (.replay_key now ch) = some client₁)
    (hstep₂ : client₁.step (.replay_key now' .up) = some client₂) :
    client₂.place = client.place := by
  obtain ⟨hmoves, hlow, _, _⟩ := h replay hreplay
  rw [← hmoves] at hroom
  rw [step_forward hch hreplay hroom hstep₁] at hstep₂
  have hroom' : 0 ≤ replay.current_move + 1 := by omega
  rw [step_back rfl hroom' hstep₂]
  show (Client.show_move _ _ (replay.current_move + 1 - 1)).place = _
  rw [Int.add_sub_cancel]
  exact show_move_place h hreplay hmoves

/-- **Back and forward** ends where it began. -/
theorem Shows.back_forward (h : Shows tokens client) (hreplay : client.replay = some replay)
    (hroom : 0 ≤ replay.current_move) {now now' : Timeval} {ch : Key}
    (hch : is_forward ch) {client₁ client₂ : Client}
    (hstep₁ : client.step (.replay_key now .up) = some client₁)
    (hstep₂ : client₁.step (.replay_key now' ch) = some client₂) :
    client₂.place = client.place := by
  obtain ⟨hmoves, _, hhigh, _⟩ := h replay hreplay
  rw [← hmoves] at hhigh
  rw [step_back hreplay hroom hstep₁] at hstep₂
  have hroom' : replay.current_move - 1 < (replay.moves.length : Int) - 1 := by omega
  rw [step_forward hch rfl hroom' hstep₂]
  show (Client.show_move _ _ (replay.current_move - 1 + 1)).place = _
  rw [Int.sub_add_cancel]
  exact show_move_place h hreplay hmoves

end loop

/-! ## Every way through a file -/

/-- **Replay navigation.** Open any file and let the replay loop run with any
    keys and automatic steps, while the network thread delivers nothing
    that changes the board.  As long as the replay is open its index stays
    in the file and its position is where the moves up to the index lead;
    and a step forward and one back, in either order, restore both. -/
theorem replay_navigation {client client' : Client} {file : Option CString}
    {es : List ClientEvent} {replay : ReplayState} (hmenu : client.replay = none)
    (hrun : RunWhere session (fun _ e => navigates e = true) (client.start_replay file) es client')
    (hreplay : client'.replay = some replay) :
    replay.moves = load_moves file ∧
    -1 ≤ replay.current_move ∧ replay.current_move ≤ (load_moves file).length - 1 ∧
    client'.state.game_state.game =
      fold_moves (moves_up_to (load_moves file) replay.current_move) ∧
    ∀ now now' ch client₁ client₂, is_forward ch →
      (replay.current_move < (load_moves file).length - 1 →
        client'.step (.replay_key now ch) = some client₁ →
        client₁.step (.replay_key now' .up) = some client₂ → client₂.place = client'.place) ∧
      (0 ≤ replay.current_move → client'.step (.replay_key now .up) = some client₁ →
        client₁.step (.replay_key now' ch) = some client₂ → client₂.place = client'.place) := by
  have hshows : Shows (load_moves file) client' := by
    apply hrun.invariant ?_ (Shows.start file hmenu)
    intro client e client' h he hstep
    exact h.step he hstep
  obtain ⟨hmoves, hlow, hhigh, hgame⟩ := hshows replay hreplay
  refine ⟨hmoves, hlow, hhigh, hgame.trans (position_at_eq _ _), ?_⟩
  intro now now' ch client₁ client₂ hch
  constructor
  · intro hroom
    exact hshows.forward_back hreplay hroom hch
  · intro hroom
    exact hshows.back_forward hreplay hroom hch

/-- A file with a word off the board, one too short, and a result. -/
def cluttered_file : Option CString :=
  some "\n1. e2e4 e7e5 2. z9z9 ok 3. g1f3 1-0\n".toList

/-- Three moves by themselves, one back, two forward. -/
def wandering : List ClientEvent :=
  [.replay_key ⟨0, 0⟩ (.char ' '), .auto_play ⟨1, 0⟩ ⟨1, 0⟩, .auto_play ⟨2, 0⟩ ⟨2, 0⟩,
    .auto_play ⟨3, 0⟩ ⟨3, 0⟩, .replay_key ⟨3, 0⟩ .up, .lost, .replay_key ⟨4, 0⟩ .down,
    .replay_key ⟨4, 0⟩ (.char '\n'), .replay_key ⟨4, 0⟩ .down]

theorem wandering_runs : (wandering.foldlM Client.step (init_client.start_replay
    cluttered_file)).map (fun client => client.replay.map fun replay =>
      (replay.moves.length, replay.current_move)) = some (some (6, 4)) := by
  decide +kernel

theorem replay_navigation_wandering : ∃ client' : Client,
    Run session (init_client.start_replay cluttered_file) wandering client' ∧
    client'.state.game_state.game = fold_moves [⟨4, 1, 4, 3⟩, ⟨4, 6, 4, 4⟩, ⟨6, 0, 5, 2⟩] := by
  obtain ⟨client', hexec, hplace⟩ := Option.map_eq_some_iff.mp wandering_runs
  obtain ⟨replay, hreplay, hindex⟩ := Option.map_eq_some_iff.mp hplace
  obtain ⟨_, hcurrent⟩ := Prod.mk.inj hindex
  have hrun := session_run hexec
  obtain ⟨_, _, _, hgame, _⟩ := replay_navigation rfl (hrun.of_labels (by decide)) hreplay
  have hmoves : moves_up_to (load_moves cluttered_file) 4 =
      [⟨4, 1, 4, 3⟩, ⟨4, 6, 4, 4⟩, ⟨6, 0, 5, 2⟩] := by decide +kernel
  refine ⟨client', hrun, hgame.trans ?_⟩
  rw [hcurrent, hmoves]

end MultiplayChess
