import MultiplayChess.Common.ApplyMove
import MultiplayChess.Common.Utils
import MultiplayChess.Framework.System

/-! # Moves nobody checked

    A replay plays whatever moves a file holds, so `apply_move` must cope
    with any two squares: an empty source, a source that is the
    destination, a king's jump anywhere, a pawn that steps straight onto
    the en passant target.  Every stage keeps the board well formed, and no
    stage looks off the board. -/

namespace MultiplayChess

open Chess (OnBoard Move)
open LTS

/-! ## The board stays well formed -/

section stages

variable {G : Game} {p : Piece} {sx sy dx dy : Int}

theorem BoardOk.captured (h : BoardOk G) :
    BoardOk (capture_en_passant G p sy dx dy) := by
  unfold capture_en_passant
  split
  · exact h.set (.kill _)
  · exact h

/-- The source square dies also where it is the destination. -/
theorem BoardOk.moved (h : BoardOk G) : BoardOk (move_piece G sx sy dx dy) := by
  unfold move_piece
  have hmoved : BoardOk { G with board := G.board.set dy dx (G.board.get sy sx) } :=
    h.set (h sx sy)
  exact hmoved.set (.kill _)

theorem BoardOk.castled (h : BoardOk G) : BoardOk (castle_rook G sx dx dy) := by
  unfold castle_rook
  split
  · have hmoved : BoardOk { G with
        board := G.board.set dy (if dx > sx then dx - 1 else dx + 1)
          (G.board.get dy (if dx > sx then 7 else 0)) } := h.set (h _ _)
    exact hmoved.set (.kill _)
  · exact h

/-- Only a pawn becomes a queen, and a square with a pawn is live. -/
theorem BoardOk.promoted (h : BoardOk G) : BoardOk (promote G dx dy) := by
  unfold promote
  by_cases hpawn : type_at G dx dy = some .pawn ∧ (dy = 7 ∨ dy = 0)
  · rw [if_pos hpawn]
    apply h.set
    constructor
    case dead_iff =>
      have hpiece : (G.board.get dy dx).piece ≠ none := by
        intro hnone
        have htype := hpawn.1
        rw [type_at_of_get rfl, hnone] at htype
        cases htype
      have hlive := mt (h dx dy).dead_iff.mp hpiece
      simp [hlive]
    case table =>
      intro q hq
      obtain rfl := Option.some.inj hq
      simp [get_default_queen]
  · rw [if_neg hpawn]
    exact h

theorem BoardOk.finished (h : BoardOk G) : BoardOk (finish_move G dx dy) := by
  have hdst := h dx dy
  exact BoardOk.set (G := { G with
    side_to_move := if G.side_to_move = .white then .black else .white }) h
    ⟨hdst.dead_iff, hdst.table⟩

/-- **The board** stays well formed under any move. -/
theorem BoardOk.applied (h : BoardOk G) (sx sy dx dy : Int) :
    BoardOk (apply_move G sx sy dx dy) := by
  unfold apply_move
  split
  · exact h
  · rename_i p _
    have hcount : BoardOk (count_halfmove G p dx dy) := h.congr (by simp)
    have hmoved : BoardOk (castle_rook (move_piece (capture_en_passant
        (count_halfmove G p dx dy) p sy dx dy) sx sy dx dy) sx dx dy) :=
      hcount.captured.moved.castled
    -- the rights and the target are no part of the board
    apply BoardOk.finished
    apply BoardOk.promoted
    exact hmoved.congr (by simp)

end stages

/-! ## The en passant target -/

/-- The target is `(-1, -1)` or a square of the board. -/
def TargetOk (G : Game) : Prop :=
  (G.en_passant_x = -1 ∧ G.en_passant_y = -1) ∨ OnBoard G.en_passant_x G.en_passant_y

theorem TargetOk.renewed {G : Game} {sx sy dx dy : Int} (hs : OnBoard sx sy)
    (hd : OnBoard dx dy) : TargetOk (set_en_passant G sy dx dy) := by
  unfold set_en_passant
  split
  · -- the mean of two ranks
    have hsy := hs.2
    have hdy := hd.2
    apply Or.inr
    show OnBoard dx ((sy + dy).tdiv 2)
    rw [Int.tdiv_eq_ediv_of_nonneg (by omega)]
    exact ⟨hd.1, by omega⟩
  · exact .inl ⟨rfl, rfl⟩

theorem TargetOk.applied {G : Game} {sx sy dx dy : Int} (h : TargetOk G)
    (hs : OnBoard sx sy) (hd : OnBoard dx dy) : TargetOk (apply_move G sx sy dx dy) := by
  unfold apply_move
  split
  · exact h
  · unfold TargetOk
    show ((promote _ dx dy).en_passant_x = -1 ∧ (promote _ dx dy).en_passant_y = -1) ∨
      OnBoard (promote _ dx dy).en_passant_x (promote _ dx dy).en_passant_y
    rw [promote_en_passant_x, promote_en_passant_y]
    exact TargetOk.renewed hs hd

/-! ## Positions read from a FEN -/

theorem PieceState.Ok.placed (t : Team) (k : PieceType) :
    PieceState.Ok ⟨some (piece_table t k), t, false, false⟩ where
  dead_iff := by simp
  table := by
    intro q hq
    obtain rfl := Option.some.inj hq
    rw [piece_table_type]

/-- The placement field writes pieces of the table only. -/
theorem parse_placement_ok {G : Game} {cs : CString} : ∀ {b : Board} {x y : Int}
    {r : Board × Bool}, parse_placement b x y cs = some r → BoardOk { G with board := b } →
      BoardOk { G with board := r.1 } := by
  induction cs with
  | nil =>
    intro b x y r h hok
    cases h
    exact hok
  | cons c cs ih =>
    intro b x y r h hok
    unfold parse_placement at h
    -- past the last rank, a rank separator, a gap, or a letter
    split at h
    · cases h
      exact hok
    · split at h
      · exact ih h hok
      · split at h
        · exact ih h hok
        · simp only at h
          split at h
          · cases h
            exact hok
          · split at h
            · exact ih h (hok.set (.placed _ _))
            · cases h

theorem fen_field_ok {G G' : Game} {fld : Nat} {tok : CString}
    (h : fen_field G fld tok = some (G', true)) (hok : BoardOk G) : BoardOk G' := by
  unfold fen_field at h
  split at h
  · obtain ⟨r, hr, heq⟩ := Option.map_eq_some_iff.mp h
    obtain rfl := congrArg Prod.fst heq
    exact parse_placement_ok hr hok
  · cases h
    exact hok
  · cases h
    exact hok
  · split at h
    · cases h
      exact hok
    · split at h
      · simp only at h
        split at h
        · cases h
          exact hok
        · cases h
      · cases h
    · cases h
  · cases h
    exact hok
  · cases h
    exact hok

/-- The en passant field is refused unless it gives a proper target. -/
theorem fen_field_target {G G' : Game} {tok : CString}
    (h : fen_field G 3 tok = some (G', true)) : TargetOk G' := by
  simp only [fen_field] at h
  split at h
  · cases h
    exact .inl ⟨rfl, rfl⟩
  · split at h
    · split at h
      · rename_i hon
        cases h
        exact .inr ((in_board_iff _ _).mp hon)
      · cases h
    · cases h
  · cases h

/-- The fields after it leave the target alone. -/
theorem fen_field_keeps_target {G G' : Game} {fld : Nat} {tok : CString} (hfld : 3 < fld)
    (h : fen_field G fld tok = some (G', true)) (htarget : TargetOk G) : TargetOk G' := by
  unfold fen_field at h
  split at h
  · omega
  · omega
  · omega
  · omega
  · cases h
    exact htarget
  · cases h
    exact htarget

/-- The loop over the fields: success means that the target was read. -/
theorem fen_fields_ok {toks : List CString} : ∀ {G G' : Game} {fld : Nat},
    fen_fields G fld toks = some (G', true) → BoardOk G → (3 < fld → TargetOk G) →
      BoardOk G' ∧ TargetOk G' := by
  induction toks with
  | nil =>
    intro G G' fld h hok htarget
    simp only [fen_fields, Option.some.injEq, Prod.mk.injEq, decide_eq_true_eq] at h
    obtain ⟨rfl, hfld⟩ := h
    exact ⟨hok, htarget (by omega)⟩
  | cons tok toks ih =>
    intro G G' fld h hok htarget
    unfold fen_fields at h
    by_cases hfld : fld < 6
    · rw [if_pos hfld] at h
      cases hfield : fen_field G fld tok with
      | none =>
        rw [hfield] at h
        cases h
      | some r =>
        obtain ⟨G₁, ok⟩ := r
        rw [hfield] at h
        cases ok with
        | false => cases h
        | true =>
          apply ih h (fen_field_ok hfield hok)
          intro hnext
          by_cases h3 : fld = 3
          · subst h3
            exact fen_field_target hfield
          · exact fen_field_keeps_target (by omega) hfield (htarget (by omega))
    · rw [if_neg hfld, Option.some.injEq, Prod.mk.injEq] at h
      obtain ⟨rfl, _⟩ := h
      exact ⟨hok, htarget (by omega)⟩

theorem clear_board_ok (G : Game) : BoardOk (clear_board G) := by
  intro x y
  by_cases hon : OnBoard x y
  · rw [Board.get_on hon]
    exact .empty
  · rw [Board.get_off hon]
    exact .empty

/-- **A FEN that is accepted** gives a well formed board and target. -/
theorem fen_parse_ok {G G' : Game} {fen : CString} (h : fen_parse G fen = some (G', true)) :
    BoardOk G' ∧ TargetOk G' :=
  fen_fields_ok h (clear_board_ok G) (fun h3 => absurd h3 (by decide))

/-! ## Bounds

    `apply_move` with every array access checked: `none` where an index is
    out of range. -/

/-- Read `board[y][x]`, if there is such a square. -/
def Board.read (b : Board) (y x : Int) : Option PieceState :=
  if in_board x y then some (b.get y x) else none

/-- Write `board[y][x]`, if there is such a square. -/
def Board.write (b : Board) (y x : Int) (v : PieceState) : Option Board :=
  if in_board x y then some (b.set y x v) else none

/-- A paragraph of the source that goes through the pointer to the square
    `(x, y)` only. -/
def through (x y : Int) (f : Game → Game) (G : Game) : Option Game :=
  if in_board x y then some (f G) else none

def capture_en_passant_checked (G : Game) (p : Piece) (sy dx dy : Int) : Option Game :=
  if FiresEnPassant G p dx dy then do
    let cap ← G.board.read sy dx
    let board ← G.board.write sy dx cap.kill
    return { G with board := board }
  else return G

def move_piece_checked (G : Game) (sx sy dx dy : Int) : Option Game := do
  let src ← G.board.read sy sx
  let moved ← G.board.write dy dx src
  let left ← moved.read sy sx
  let board ← moved.write sy sx left.kill
  return { G with board := board }

def castle_rook_checked (G : Game) (sx dx dy : Int) : Option Game := do
  let dst ← G.board.read dy dx
  if dst.piece.map Piece.type = some .king ∧ (dx - sx).natAbs = 2 then do
    let rook_from_x : Int := if dx > sx then 7 else 0
    let rook_to_x := if dx > sx then dx - 1 else dx + 1
    let rook ← G.board.read dy rook_from_x
    let moved ← G.board.write dy rook_to_x rook
    let left ← moved.read dy rook_from_x
    let board ← moved.write dy rook_from_x left.kill
    return { G with board := board }
  else return G

def apply_move_checked (G : Game) (sx sy dx dy : Int) : Option Game := do
  let src ← G.board.read sy sx
  let _ ← G.board.read dy dx
  match src.piece with
  | none => return G
  | some p =>
    let G ← through dx dy (fun G => count_halfmove G p dx dy) G
    let G ← capture_en_passant_checked G p sy dx dy
    let G ← move_piece_checked G sx sy dx dy
    let G ← castle_rook_checked G sx dx dy
    let G ← through dx dy (fun G => drop_king_rights G dx dy) G
    let G ← through dx dy (fun G => drop_rook_rights G sx sy dx dy) G
    let G ← through dx dy (fun G => set_en_passant G sy dx dy) G
    let G ← through dx dy (fun G => promote G dx dy) G
    through dx dy (fun G => finish_move G dx dy) G

section bounds

variable {G : Game} {p : Piece} {sx sy dx dy : Int}

theorem Board.read_on {b : Board} {x y : Int} (h : OnBoard x y) :
    b.read y x = some (b.get y x) :=
  if_pos ((in_board_iff x y).mpr h)

theorem Board.write_on {b : Board} {x y : Int} {v : PieceState} (h : OnBoard x y) :
    b.write y x v = some (b.set y x v) :=
  if_pos ((in_board_iff x y).mpr h)

theorem through_on {x y : Int} {f : Game → Game} (h : OnBoard x y) :
    through x y f G = some (f G) :=
  if_pos ((in_board_iff x y).mpr h)

/-- The captured pawn stands on the source's rank and the destination's
    file. -/
theorem capture_en_passant_checked_eq (hs : OnBoard sx sy) (hd : OnBoard dx dy) :
    capture_en_passant_checked G p sy dx dy = some (capture_en_passant G p sy dx dy) := by
  have hcap : OnBoard dx sy := ⟨hd.1, hs.2⟩
  unfold capture_en_passant_checked capture_en_passant
  split
  · rw [Board.read_on hcap, Option.bind_eq_bind, Option.bind_some, Board.write_on hcap]
    rfl
  · rfl

theorem move_piece_checked_eq (hs : OnBoard sx sy) (hd : OnBoard dx dy) :
    move_piece_checked G sx sy dx dy = some (move_piece G sx sy dx dy) := by
  unfold move_piece_checked move_piece
  simp only [Board.read_on hs, Board.write_on hs, Board.write_on hd, Option.bind_eq_bind,
    Option.bind_some, Option.pure_def]

theorem rook_from_on (hd : OnBoard dx dy) : OnBoard (if dx > sx then 7 else 0) dy := by
  split
  · exact ⟨by decide, hd.2⟩
  · exact ⟨by decide, hd.2⟩

/-- A jump of two files leaves room for the rook beside the king. -/
theorem rook_to_on (hs : OnBoard sx sy) (hd : OnBoard dx dy) (hjump : (dx - sx).natAbs = 2) :
    OnBoard (if dx > sx then dx - 1 else dx + 1) dy := by
  have hsx := hs.1
  have hdx := hd.1
  split
  · exact ⟨by omega, hd.2⟩
  · exact ⟨by omega, hd.2⟩

theorem castle_rook_checked_eq (hs : OnBoard sx sy) (hd : OnBoard dx dy) :
    castle_rook_checked G sx dx dy = some (castle_rook G sx dx dy) := by
  unfold castle_rook_checked castle_rook type_at
  rw [Board.read_on hd, Option.bind_eq_bind, Option.bind_some]
  by_cases hcastle : (G.board.get dy dx).piece.map Piece.type = some .king ∧ (dx - sx).natAbs = 2
  · have hfrom : OnBoard (if dx > sx then 7 else 0) dy := rook_from_on hd
    have hto : OnBoard (if dx > sx then dx - 1 else dx + 1) dy := rook_to_on hs hd hcastle.2
    rw [if_pos hcastle, if_pos hcastle]
    simp only [Board.read_on hfrom, Board.write_on hfrom, Board.write_on hto,
      Option.bind_eq_bind, Option.bind_some, Option.pure_def]
  · rw [if_neg hcastle, if_neg hcastle]
    rfl

/-- **In bounds.** Between squares of the board `apply_move` stays on the
    board, whatever the move. -/
theorem apply_move_checked_eq (hs : OnBoard sx sy) (hd : OnBoard dx dy) :
    apply_move_checked G sx sy dx dy = some (apply_move G sx sy dx dy) := by
  unfold apply_move_checked apply_move
  rw [Board.read_on hs, Board.read_on hd]
  simp only [Option.bind_eq_bind, Option.bind_some]
  cases (G.board.get sy sx).piece with
  | none => rfl
  | some p =>
    simp only [through_on hd, capture_en_passant_checked_eq hs hd, move_piece_checked_eq hs hd,
      castle_rook_checked_eq hs hd, Option.bind_some]

end bounds

/-! ## Any sequence of moves -/

/-- Positions read from a FEN and moves between squares of the board that
    nobody checks. -/
def unvalidated : System Game Move where
  init G := ∃ G₀ fen, fen_parse G₀ fen = some (G, true)
  step G m G' :=
    (OnBoard m.sx m.sy ∧ OnBoard m.dx m.dy) ∧ G' = apply_move G m.sx m.sy m.dx m.dy

/-- What the rules code relies on. -/
structure Game.Represented (G : Game) : Prop where
  /-- the flag and the null pointer agree -/
  dead_iff : ∀ x y, OnBoard x y →
    ((G.board.get y x).is_dead = true ↔ (G.board.get y x).piece = none)
  /-- a live square points into the table of its team -/
  live : ∀ x y, OnBoard x y → (G.board.get y x).is_dead = false →
    ∃ k, (G.board.get y x).piece = some (piece_table (G.board.get y x).team k)
  /-- there is no en passant target, or it is a square -/
  target : TargetOk G
  /-- the next move will not look off the board -/
  in_bounds : ∀ sx sy dx dy, OnBoard sx sy → OnBoard dx dy →
    apply_move_checked G sx sy dx dy = some (apply_move G sx sy dx dy)

theorem Game.Represented.of_ok {G : Game} (h : BoardOk G) (htarget : TargetOk G) :
    G.Represented where
  dead_iff := fun x y _ => (h x y).dead_iff
  live := by
    intro x y _ hlive
    obtain ⟨k, hpiece, _⟩ := (h x y).exists_man hlive
    exact ⟨k, hpiece⟩
  target := htarget
  in_bounds := fun _ _ _ _ hs hd => apply_move_checked_eq hs hd

/-- **Unvalidated moves.** From every accepted FEN and after any moves
    between squares of the board, legal or not, the representation is
    sound. -/
theorem unvalidated_represented {G G' : Game} {ms : List Move} (hinit : unvalidated.init G)
    (hrun : Run unvalidated G ms G') : G'.Represented := by
  obtain ⟨G₀, fen, hfen⟩ := hinit
  have hok : BoardOk G' ∧ TargetOk G' := by
    apply hrun.invariant (P := fun G => BoardOk G ∧ TargetOk G)
    · rintro G m _ ⟨hboard, htarget⟩ _ ⟨⟨hs, hd⟩, rfl⟩
      exact ⟨hboard.applied m.sx m.sy m.dx m.dy, htarget.applied hs hd⟩
    · exact fen_parse_ok hfen
  exact .of_ok hok.1 hok.2

/-- The king jumps over its bishop, and a rook stays where it is. -/
theorem unvalidated_represented_nonsense :
    (apply_move (apply_move (init_startpos .zero) 4 0 6 0) 0 0 0 0).Represented := by
  have hinit : unvalidated.init (init_startpos .zero) := ⟨.zero, starting_fen, rfl⟩
  have hjump : unvalidated.step (init_startpos .zero) ⟨4, 0, 6, 0⟩
      (apply_move (init_startpos .zero) 4 0 6 0) := ⟨by decide, rfl⟩
  have hstay : unvalidated.step (apply_move (init_startpos .zero) 4 0 6 0) ⟨0, 0, 0, 0⟩
      (apply_move (apply_move (init_startpos .zero) 4 0 6 0) 0 0 0 0) := ⟨by decide, rfl⟩
  have hstart : Run unvalidated (init_startpos .zero) [] (init_startpos .zero) := .nil
  exact unvalidated_represented hinit (Run.snoc (Run.snoc hstart hjump) hstay)

end MultiplayChess
