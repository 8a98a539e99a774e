import MultiplayChess.Common.Games

/-! # Legality over whole games

    What holds of `is_move_legal` and `apply_move` in every position that
    accepted moves lead to: legality is that of chess, kings are never
    captured, and castling is never possible. -/

namespace MultiplayChess

open Chess (OnBoard Man Move Sound PseudoLegal Legal ExactlyOne Wing castlingMove MayCastle
  Castled)
open LTS

/-! ## Moves -/

/-- **Legality is chess legality.** After any sequence of accepted moves
    `is_move_legal` accepts a move iff the rules of chess, read off the
    board and the moves played, allow it. -/
theorem is_move_legal_iff_chess {G₀ G : Game} {h : List Move}
    (hrun : Run rules (init_startpos G₀) h G) (sx sy dx dy : Int) :
    is_move_legal G sx sy dx dy = true ↔ Legal (positionOf G h) ⟨sx, sy, dx, dy⟩ :=
  (Run.following hrun).legal_iff ⟨sx, sy, dx, dy⟩

/-- The first moves of an open game. -/
def open_game : List Move := [⟨4, 1, 4, 3⟩, ⟨4, 6, 4, 4⟩, ⟨6, 0, 5, 2⟩, ⟨1, 7, 2, 5⟩]

theorem open_game_accepted : (replay (init_startpos .zero) open_game).isSome = true := by
  decide +kernel

/-- After these moves, too, the bishop's sortie is decided by the rules. -/
theorem is_move_legal_iff_chess_open_game :
    ∃ G, Run rules (init_startpos .zero) open_game G ∧
      (is_move_legal G 5 0 1 4 = true ↔ Legal (positionOf G open_game) ⟨5, 0, 1, 4⟩) := by
  obtain ⟨G, hG⟩ := Option.isSome_iff_exists.mp open_game_accepted
  exact ⟨G, replay_run hG, is_move_legal_iff_chess (replay_run hG) 5 0 1 4⟩

/-! ## Kings -/

/-- The move takes the man `e` off the board. -/
def Captures (G : Game) (m : Move) (e : Man) : Prop :=
  ∃ x y, ¬ (x = m.sx ∧ y = m.sy) ∧ placement G x y = some e ∧
    placement (apply_move G m.sx m.sy m.dx m.dy) x y ≠ some e

section kings

variable {G : Game} {h : List Move}

theorem Following.one_king (hf : Following G h) (t : Team) :
    ExactlyOne (placement G) ⟨t, .king⟩ :=
  hf.sound.kings t

/-- The side that just moved is not in check. -/
theorem Following.not_in_check (hf : Following G h) :
    is_in_check G G.side_to_move.other = false := by
  rw [← Bool.not_eq_true, is_in_check_iff hf.tracks.board_ok (hf.one_king _), hf.tracks.turn]
  exact hf.sound.safe

/-- No accepted move captures a king. -/
theorem Following.no_king_captured (hf : Following G h) {m : Move}
    (hlegal : is_move_legal G m.sx m.sy m.dx m.dy = true) (t : Team) :
    ¬ Captures G m ⟨t, .king⟩ := by
  intro ⟨x, y, hsrc, hking, hgone⟩
  obtain ⟨⟨t', k⟩, hp, _⟩ := (hf.legal_iff m).mp hlegal
  obtain rfl : t' = turnAfter h.length := hp.own
  apply hgone
  rw [hf.tracks.placement_after hf.sound hp]
  exact hf.sound.king_stays hp hking hsrc

theorem Following.king_found (hf : Following G h) (t : Team) : find_king G t ≠ none := by
  obtain ⟨x, y, hking, _⟩ := hf.one_king t
  exact find_king_complete hf.tracks.board_ok hking

/-- The king is also found on the board of the self-check test. -/
theorem Following.king_found_after (hf : Following G h) {sx sy dx dy : Int}
    (htest : ReachesSelfCheck G sx sy dx dy) (t : Team) :
    find_king (apply_move G sx sy dx dy) t ≠ none := by
  obtain ⟨k, hp⟩ := (hf.tracks.pseudoLegal_iff hf.sound ⟨sx, sy, dx, dy⟩).mpr htest
  obtain ⟨x, y, hking, _⟩ := hf.sound.after_kings hp t
  apply find_king_complete (hf.tracks.board_ok_after hf.sound hp) (x := x) (y := y)
  rw [hf.tracks.placement_after hf.sound hp]
  exact hking

end kings

/-- **Kings are safe.** After any sequence of accepted moves each colour has
    exactly one live king and the side not to move is not in check; so no
    accepted move captures a king, and whenever `is_in_check` is called,
    on the game or on the board of a self-check test, it finds one. -/
theorem kings_safe {G₀ G : Game} {h : List Move} (hrun : Run rules (init_startpos G₀) h G) :
    (∀ t, ExactlyOne (placement G) ⟨t, .king⟩) ∧
    is_in_check G G.side_to_move.other = false ∧
    (∀ m t, is_move_legal G m.sx m.sy m.dx m.dy = true → ¬ Captures G m ⟨t, .king⟩) ∧
    (∀ t, find_king G t ≠ none) ∧
    ∀ sx sy dx dy t, ReachesSelfCheck G sx sy dx dy →
      find_king (apply_move G sx sy dx dy) t ≠ none := by
  have hf := Run.following hrun
  refine ⟨hf.one_king, hf.not_in_check, ?_, hf.king_found, ?_⟩
  · intro m t hlegal
    exact hf.no_king_captured hlegal t
  · intro sx sy dx dy t htest
    exact hf.king_found_after htest t

theorem kings_safe_open_game :
    ∃ G, Run rules (init_startpos .zero) open_game G ∧
      (∀ t, ExactlyOne (placement G) ⟨t, .king⟩) ∧
      is_in_check G G.side_to_move.other = false := by
  obtain ⟨G, hG⟩ := Option.isSome_iff_exists.mp open_game_accepted
  have hsafe := kings_safe (replay_run hG)
  exact ⟨G, replay_run hG, hsafe.1, hsafe.2.1⟩

/-! ## Castling

    The offset table of the king has no offset two files wide, so the
    castling branch of `is_move_legal` is never taken. -/

/-- The castling law for team `t` and wing `w`: the king's two-square move
    is accepted iff the law allows it, and then king and rook end up where
    castling puts them. -/
def CastlingLaw (G : Game) (h : List Move) (t : Team) (w : Wing) : Prop :=
  let m := castlingMove t w
  (is_move_legal G m.sx m.sy m.dx m.dy = true ↔ MayCastle (placement G) h t w) ∧
  (is_move_legal G m.sx m.sy m.dx m.dy = true →
    Castled (placement (apply_move G m.sx m.sy m.dx m.dy)) t w)

/-- A king on its initial square may not move two files. -/
theorem Following.castling_rejected {G : Game} {h : List Move} (hf : Following G h)
    {t : Team} (w : Wing) (hking : placement G 4 (Chess.backRankOf t) = some ⟨t, .king⟩) :
    is_move_legal G (castlingMove t w).sx (castlingMove t w).sy (castlingMove t w).dx
      (castlingMove t w).dy = false := by
  rw [← Bool.not_eq_true, hf.legal_iff]
  intro ⟨c, hp, _⟩
  obtain rfl : (⟨t, .king⟩ : Man) = c := Option.some.inj (hking.symm.trans hp.man)
  have hstep : ((castlingMove t w).dx - (castlingMove t w).sx).natAbs ≤ 1 := hp.moves.1
  rw [Chess.castlingMove_two_files] at hstep
  omega

/-- **Castling.** After any sequence of accepted moves, for the king of the
    side to move on its initial square, the code obeys the castling law
    exactly when the law forbids castling. -/
theorem castling_law_iff {G₀ G : Game} {h : List Move} (hrun : Run rules (init_startpos G₀) h G)
    (w : Wing)
    (hking : placement G 4 (Chess.backRankOf G.side_to_move) = some ⟨G.side_to_move, .king⟩) :
    CastlingLaw G h G.side_to_move w ↔ ¬ MayCastle (placement G) h G.side_to_move w := by
  have hrejected := (Run.following hrun).castling_rejected w hking
  unfold CastlingLaw
  simp only [hrejected, Bool.false_eq_true, false_iff, false_implies, and_true]

/-- Both sides bring out the king's knight and bishop; White is to move. -/
def fianchetto : List Move :=
  [⟨6, 0, 5, 2⟩, ⟨6, 7, 5, 5⟩, ⟨6, 1, 6, 2⟩, ⟨6, 6, 6, 5⟩, ⟨5, 0, 6, 1⟩, ⟨5, 7, 6, 6⟩]

/-- White's king and rook are at home, the squares between them are empty
    and none of the king's squares is attacked. -/
def may_castle_kingside (G : Game) : Bool :=
  G.side_to_move = .white &&
  (placement G 4 0 = some ⟨.white, .king⟩ && placement G 7 0 = some ⟨.white, .rook⟩ &&
    placement G 5 0 = none && placement G 6 0 = none) &&
  [4, 5, 6].all fun x => !is_square_attacked G x 0 .black

theorem fianchetto_may_castle :
    (replay (init_startpos .zero) fianchetto).map may_castle_kingside = some true := by
  decide +kernel

/-- The law allows White to castle after the fianchetto. -/
theorem fianchetto_reached : ∃ G, Run rules (init_startpos .zero) fianchetto G ∧
    G.side_to_move = .white ∧ MayCastle (placement G) fianchetto .white .kingside := by
  obtain ⟨G, hG, hmay⟩ := Option.map_eq_some_iff.mp fianchetto_may_castle
  have hok := (Run.following (replay_run hG)).tracks.board_ok
  simp only [may_castle_kingside, Bool.and_eq_true, decide_eq_true_eq, List.all_cons,
    List.all_nil, Bool.not_eq_eq_eq_not, Bool.not_true] at hmay
  obtain ⟨⟨hturn, ⟨⟨hking, hrook⟩, h5⟩, h6⟩, h4safe, h5safe, h6safe, _⟩ := hmay
  -- the engine's test says which squares are attacked
  have hsafe : ∀ {x : Int}, (0 ≤ x ∧ x < 8) → is_square_attacked G x 0 .black = false →
      ¬ Chess.Attacked (placement G) .black x 0 := by
    intro x hx hquiet
    rw [← is_square_attacked_iff hok ⟨hx, by decide⟩, hquiet]
    exact Bool.false_ne_true
  refine ⟨G, replay_run hG, hturn, ?_⟩
  constructor
  case king_home => exact hking
  case king_unmoved => decide
  case rook_home => exact hrook
  case rook_unmoved => decide
  case clear =>
    intro x ⟨h4, h7⟩
    obtain rfl | rfl : x = 5 ∨ x = 6 := by omega
    · exact h5
    · exact h6
  case start_safe => exact hsafe (by decide) h4safe
  case transit_safe => exact hsafe (by decide) h5safe
  case destination_safe => exact hsafe (by decide) h6safe

/-- There the code breaks the castling law. -/
theorem castling_law_broken :
    ¬ ∀ (G₀ G : Game) (h : List Move) (w : Wing), Run rules (init_startpos G₀) h G →
      placement G 4 (Chess.backRankOf G.side_to_move) = some ⟨G.side_to_move, .king⟩ →
      CastlingLaw G h G.side_to_move w := by
  intro hlaw
  obtain ⟨G, hrun, hturn, hmay⟩ := fianchetto_reached
  have hking : placement G 4 (Chess.backRankOf G.side_to_move) = some ⟨G.side_to_move, .king⟩ := by
    rw [hturn]
    exact hmay.king_home
  have haccepted := (hlaw .zero G fianchetto .kingside hrun hking).1
  rw [(Run.following hrun).castling_rejected .kingside hking, hturn] at haccepted
  exact Bool.false_ne_true (haccepted.mpr hmay)

theorem castling_law_iff_fianchetto :
    ∃ G, Run rules (init_startpos .zero) fianchetto G ∧
      (CastlingLaw G fianchetto G.side_to_move .kingside ↔
        ¬ MayCastle (placement G) fianchetto G.side_to_move .kingside) := by
  obtain ⟨G, hrun, hturn, hmay⟩ := fianchetto_reached
  refine ⟨G, hrun, castling_law_iff hrun .kingside ?_⟩
  rw [hturn]
  exact hmay.king_home

end MultiplayChess
