import MultiplayChess.Common.Attack

/-! # The movement switch

    The relation between a `game_t` and a chess position, and the proof
    that in related states the movement `switch` of `is_move_legal` decides
    the movement rules of chess.

    The code knows a pawn's first move by its `has_moved` flag and a double
    step by the en passant target; chess reads both off the ranks and the
    move played last.  The relation says that the two agree. -/

namespace MultiplayChess

open Chess (OnBoard Man Position Move OpenLine Diagonal Straight Sound DoubleStep
  EnPassantSquare PawnStrikes PawnMoves Moves Strikes forward pawnRank)

/-- The en passant target stands for the double step played last, if there
    was one. -/
inductive TargetOf (p : Position) (x y : Int) : Prop where
  | double (l : Move) : p.last = some l → DoubleStep p.board p.turn.other l → x = l.dx →
      y = l.sy + forward p.turn.other → TargetOf p x y
  | none : (∀ l, p.last = some l → ¬ DoubleStep p.board p.turn.other l) → x = -1 → y = -1 →
      TargetOf p x y

/-- The game `G` stands for the chess position `p`. -/
structure Tracks (G : Game) (p : Position) : Prop where
  board_ok : BoardOk G
  placement : placement G = p.board
  turn : G.side_to_move = p.turn
  unmoved : ∀ x y t, p.board x y = some ⟨t, .pawn⟩ →
    ((G.board.get y x).has_moved = false ↔ y = pawnRank t)
  target : TargetOf p G.en_passant_x G.en_passant_y

namespace Tracks

variable {G : Game} {p : Position}

theorem board_eq (h : Tracks G p) (x y : Int) : (G.board.get y x).man = p.board x y :=
  congrFun (congrFun h.placement x) y

theorem empty_iff (h : Tracks G p) (x y : Int) :
    p.board x y = none ↔ (G.board.get y x).is_dead = true := by
  rw [← h.board_eq]
  exact (h.board_ok x y).man_eq_none_iff

theorem man_iff (h : Tracks G p) (x y : Int) (t : Team) (k : PieceType) :
    p.board x y = some ⟨t, k⟩ ↔ (G.board.get y x).is_dead = false ∧
      (G.board.get y x).team = t ∧ (G.board.get y x).piece = some (piece_table t k) := by
  rw [← h.board_eq]
  exact (h.board_ok x y).man_eq_some_iff t k

/-- A live square holds an enemy of `t` iff its team is not `t`. -/
theorem enemy_iff (h : Tracks G p) (x y : Int) (t : Team) :
    (∃ e, p.board x y = some e ∧ e.team = t.other) ↔
      (G.board.get y x).is_dead = false ∧ (G.board.get y x).team ≠ t := by
  constructor
  · rintro ⟨⟨t', k⟩, he, rfl⟩
    obtain ⟨hlive, hteam, _⟩ := (h.man_iff x y _ k).mp he
    exact ⟨hlive, by rw [hteam]; exact Team.other_ne t⟩
  · intro ⟨hlive, hteam⟩
    obtain ⟨k, _, hman⟩ := (h.board_ok x y).exists_man hlive
    rw [h.board_eq] at hman
    exact ⟨_, hman, Team.eq_other_of_ne hteam⟩

/-- The target is the en passant square. -/
theorem target_iff (h : Tracks G p) {x y : Int} (hon : OnBoard x y) :
    (G.en_passant_x = x ∧ G.en_passant_y = y) ↔ EnPassantSquare p.board p.last p.turn x y := by
  constructor
  · intro ⟨hx, hy⟩
    rcases h.target with ⟨l, hl, hd, hlx, hly⟩ | ⟨_, hnx, _⟩
    · exact ⟨l, hl, hd, hx ▸ hlx, hy ▸ hly⟩
    · have := hon.1
      omega
  · intro ⟨l, hl, hd, hx, hy⟩
    rcases h.target with ⟨l', hl', _, hlx, hly⟩ | ⟨hno, _, _⟩
    · obtain rfl : l = l' := Option.some.inj (hl.symm.trans hl')
      exact ⟨hlx.trans hx.symm, hly.trans hy.symm⟩
    · exact absurd hd (hno l hl)

end Tracks

/-! ## Pawns -/

section pawn

variable {G : Game} {p : Position} {t : Team} {sx sy dx dy : Int}

theorem movement_ok_pawn (h : Tracks G p) (hs : Sound p) (hd : OnBoard dx dy)
    (hsrc : p.board sx sy = some ⟨p.turn, .pawn⟩) :
    movement_ok G (piece_table p.turn .pawn) sx sy dx dy = true ↔
      PawnMoves p.board p.last p.turn ⟨sx, sy, dx, dy⟩ := by
  obtain ⟨_, hteam, _⟩ := (h.man_iff sx sy _ _).mp hsrc
  have hunmoved := h.unmoved sx sy _ hsrc
  have hdst := h.empty_iff dx dy
  have hmid := h.empty_iff sx (sy + forward p.turn)
  have henemy := h.enemy_iff dx dy p.turn
  have htarget := h.target_iff hd
  -- put the fields the code reads in terms of the tracked position
  unfold movement_ok
  simp only [piece_table_type, pawn_dir_eq, hteam, Bool.or_eq_true, Bool.and_eq_true,
    decide_eq_true_eq, Bool.not_eq_eq_eq_not, Bool.not_true, bne_iff_ne, ne_eq, ← hdst, ← hmid,
    hunmoved, ← henemy]
  constructor
  · rintro ((⟨⟨hx, hy⟩, hnone⟩ | ⟨⟨⟨⟨hx, hy⟩, hrank⟩, hnone⟩, hmid'⟩) | ⟨⟨hx, hy⟩, hcap⟩)
    · -- one step
      have hdx : dx = sx := by omega
      have hdy : dy = sy + forward p.turn := by omega
      exact .step hdx hdy hnone
    · have hdx : dx = sx := by omega
      have hdy : dy = sy + 2 * forward p.turn := by omega
      exact .double hdx hdy hrank hmid' hnone
    · -- a strike, at an enemy or at the en passant square
      have hstrikes : PawnStrikes p.turn ⟨sx, sy, dx, dy⟩ := by
        constructor
        · show dy = sy + forward p.turn
          omega
        · show dx = sx - 1 ∨ dx = sx + 1
          omega
      rcases hcap with ⟨e, he, hte⟩ | ⟨⟨_, hex⟩, hey⟩
      · exact .capture e hstrikes he hte
      · exact .enPassant hstrikes (htarget.mp ⟨hex, hey⟩)
  · intro hmoves
    cases hmoves with
    | step hx hy hnone =>
      simp only at hx hy
      exact .inl (.inl ⟨⟨by omega, by omega⟩, hnone⟩)
    | double hx hy hrank hmid' hnone =>
      simp only at hx hy
      exact .inl (.inr ⟨⟨⟨⟨by omega, by omega⟩, hrank⟩, hnone⟩, hmid'⟩)
    | capture e hstrikes he hte =>
      obtain ⟨hy, hx⟩ := hstrikes
      simp only at hx hy
      exact .inr ⟨⟨by omega, by omega⟩, .inl ⟨e, he, hte⟩⟩
    | enPassant hstrikes hep =>
      obtain ⟨hy, hx⟩ := hstrikes
      simp only at hx hy
      obtain ⟨hex, hey⟩ := htarget.mpr hep
      -- the code also asks for an empty target, which an en passant square is
      exact .inr ⟨⟨by omega, by omega⟩, .inr ⟨⟨hs.enPassant_empty hep, hex⟩, hey⟩⟩

end pawn

/-! ## Jumps -/

/-- The offset search of knights and kings. -/
theorem find_offset_isSome_iff (offsets : List Offset) (rx ry : Int) :
    (offsets.find? fun o => o.x = rx && o.y = ry) ≠ none ↔ (⟨rx, ry⟩ : Offset) ∈ offsets := by
  rw [Ne, List.find?_eq_none]
  simp only [Bool.and_eq_true, decide_eq_true_eq, not_forall, Classical.not_not]
  constructor
  · rintro ⟨⟨x, y⟩, ho, rfl, rfl⟩
    exact ho
  · intro ho
    exact ⟨_, ho, rfl, rfl⟩

section jump

variable {G : Game} {t : Team} {k : PieceType} {sx sy dx dy : Int}

/-- Knights and kings move by their offsets.  None of a king's offsets is
    two files wide, so its castling branch is never taken. -/
theorem movement_ok_jump (hk : k = .knight ∨ k = .king) :
    movement_ok G (piece_table t k) sx sy dx dy = true ↔
      (⟨dx - sx, dy - sy⟩ : Offset) ∈ offsets_of k := by
  rw [← find_offset_isSome_iff]
  have hnarrow : k = .king → (⟨dx - sx, dy - sy⟩ : Offset) ∈ offsets_of k →
      (dx - sx).natAbs ≠ 2 := by
    rintro rfl hmem
    have h1 : (dx - sx).natAbs ≤ 1 := ((mem_king_offsets _).mp hmem).1
    omega
  -- so the castling branch asks for an offset the table does not have
  unfold movement_ok
  rcases hk with rfl | rfl
  · simp only [piece_table_type, piece_table_moves]
    cases (offsets_of .knight).find? fun o => o.x = dx - sx && o.y = dy - sy with
    | none => simp
    | some o => simp
  · simp only [piece_table_type, piece_table_moves]
    cases hfind : (offsets_of .king).find? fun o => o.x = dx - sx && o.y = dy - sy with
    | none => simp
    | some o =>
      have hmem := (find_offset_isSome_iff _ _ _).mp (by rw [hfind]; exact Option.some_ne_none o)
      rw [if_neg (fun hc => hnarrow rfl hmem hc.2.1)]
      simp

end jump

/-! ## Slides -/

/-- `align` holds iff the difference is a positive multiple of the offset,
    and then `dd` is the multiple. -/
theorem aligned_iff {o : Offset} (ho : o.Unit) (rx ry : Int) :
    aligned o rx ry = true ↔
      0 < slide_distance o rx ry ∧ rx = slide_distance o rx ry * o.x ∧
        ry = slide_distance o rx ry * o.y := by
  obtain ⟨ox, oy⟩ := o
  have hne := ho.ne_zero
  unfold aligned slide_distance
  simp only at hne ⊢
  -- eight unit offsets; on each the truncating divisions are exact
  rcases ho.x_cases with hx | hx | hx <;> rcases ho.y_cases with hy | hy | hy <;>
    simp only at hx hy <;> subst hx hy <;>
    simp <;> omega

/-- The distance along an offset is the only multiple. -/
theorem slide_distance_eq {o : Offset} (ho : o.Unit) (n : Int) :
    slide_distance o (n * o.x) (n * o.y) = n := by
  obtain ⟨ox, oy⟩ := o
  have hne := ho.ne_zero
  unfold slide_distance
  simp only at hne ⊢
  rcases ho.x_cases with hx | hx | hx <;> rcases ho.y_cases with hy | hy | hy <;>
    simp only at hx hy <;> subst hx hy <;> simp_all

section slide

variable {G : Game} {sx sy dx dy : Int}

theorem slide_blocked_iff (hok : BoardOk G) (o : Offset) (dd : Int) :
    slide_blocked G o sx sy dd = false ↔
      ∀ k : Int, 0 < k → k < dd → placement G (sx + k * o.x) (sy + k * o.y) = none := by
  unfold slide_blocked
  simp only [List.any_eq_false, List.mem_range, Bool.not_eq_eq_eq_not, Bool.not_true,
    Bool.not_eq_false]
  constructor
  · -- round `s` of the loop looks at square `s + 1`
    intro h k h0 hk
    have := h (k - 1).toNat (by omega)
    rw [Int.toNat_of_nonneg (by omega), Int.sub_add_cancel, Int.mul_comm o.y,
      Int.mul_comm o.x] at this
    rwa [hok.placement_eq_none_iff]
  · intro h s hs
    have := h (s + 1) (by omega) (by omega)
    rwa [hok.placement_eq_none_iff, Int.mul_comm _ o.x, Int.mul_comm _ o.y] at this

/-- The offsets of a slider reach exactly the open lines in their
    directions. -/
theorem movement_slides_iff (hok : BoardOk G) {offsets : List Offset}
    {dir : Int → Int → Prop} (hdir : ∀ o : Offset, o ∈ offsets ↔ dir o.x o.y)
    (hunit : ∀ o ∈ offsets, o.Unit) :
    (offsets.any fun o => aligned o (dx - sx) (dy - sy) &&
        !slide_blocked G o sx sy (slide_distance o (dx - sx) (dy - sy))) = true ↔
      OpenLine (placement G) dir sx sy dx dy := by
  simp only [List.any_eq_true, Bool.and_eq_true, Bool.not_eq_eq_eq_not, Bool.not_true]
  constructor
  · intro ⟨o, ho, halign, hclear⟩
    obtain ⟨hpos, hx, hy⟩ := (aligned_iff (hunit o ho) _ _).mp halign
    exact ⟨o.x, o.y, _, (hdir o).mp ho, hpos, by omega, by omega,
      (slide_blocked_iff hok o _).mp hclear⟩
  · intro ⟨ux, uy, n, hu, hpos, hx, hy, hempty⟩
    have ho : (⟨ux, uy⟩ : Offset) ∈ offsets := (hdir ⟨ux, uy⟩).mpr hu
    have hrx : dx - sx = n * ux := by omega
    have hry : dy - sy = n * uy := by omega
    -- the code's `dd` is the length of the line
    have hdist : slide_distance ⟨ux, uy⟩ (dx - sx) (dy - sy) = n := by
      rw [hrx, hry]
      exact slide_distance_eq (hunit _ ho) n
    refine ⟨⟨ux, uy⟩, ho, ?_, ?_⟩
    · rw [aligned_iff (hunit _ ho), hdist]
      exact ⟨hpos, hrx, hry⟩
    · rw [hdist, slide_blocked_iff hok]
      exact hempty

end slide

/-! ## The switch -/

/-- Every piece but a pawn moves where it strikes. -/
theorem movement_ok_strikes {G : Game} (hok : BoardOk G) {t : Team} {k : PieceType}
    (hk : k ≠ .pawn) {sx sy dx dy : Int} :
    movement_ok G (piece_table t k) sx sy dx dy = true ↔
      Strikes (MultiplayChess.placement G) ⟨t, k⟩ sx sy dx dy := by
  cases k with
  | pawn => exact absurd rfl hk
  | knight =>
    exact (movement_ok_jump (.inl rfl)).trans (mem_knight_offsets _)
  | king =>
    refine ((movement_ok_jump (.inr rfl)).trans (mem_king_offsets _)).trans ?_
    show (dx - sx).natAbs ≤ 1 ∧ (dy - sy).natAbs ≤ 1 ∧ ¬ (dx - sx = 0 ∧ dy - sy = 0) ↔
      (dx - sx).natAbs ≤ 1 ∧ (dy - sy).natAbs ≤ 1 ∧ ¬ (dx = sx ∧ dy = sy)
    omega
  | bishop =>
    show _ ↔ OpenLine (MultiplayChess.placement G) Diagonal sx sy dx dy
    rw [← movement_slides_iff hok mem_bishop_offsets
      (fun o ho => .of_diagonal ((mem_bishop_offsets o).mp ho))]
    simp only [movement_ok, piece_table_type, piece_table_moves, offsets_of]
  | rook =>
    show _ ↔ OpenLine (MultiplayChess.placement G) Straight sx sy dx dy
    rw [← movement_slides_iff hok mem_rook_offsets
      (fun o ho => .of_straight ((mem_rook_offsets o).mp ho))]
    simp only [movement_ok, piece_table_type, piece_table_moves, offsets_of]
  | queen =>
    show _ ↔ OpenLine (MultiplayChess.placement G) Diagonal sx sy dx dy ∨
      OpenLine (MultiplayChess.placement G) Straight sx sy dx dy
    -- a queen moves along the offsets of a king
    have hunit : ∀ o ∈ king_offsets, o.Unit := by
      intro o ho
      rcases (mem_queen_offsets o).mp ho with hdg | hst
      · exact .of_diagonal hdg
      · exact .of_straight hst
    rw [← openLine_or, ← movement_slides_iff hok mem_queen_offsets hunit]
    simp only [movement_ok, piece_table_type, piece_table_moves, offsets_of]

/-- **The movement switch** decides the movement rules of chess. -/
theorem movement_ok_iff {G : Game} {p : Position} (h : Tracks G p) (hs : Sound p)
    {k : PieceType} {sx sy dx dy : Int} (hd : OnBoard dx dy)
    (hsrc : p.board sx sy = some ⟨p.turn, k⟩) :
    movement_ok G (piece_table p.turn k) sx sy dx dy = true ↔
      Moves p.board p.last ⟨p.turn, k⟩ ⟨sx, sy, dx, dy⟩ := by
  by_cases hk : k = .pawn
  · subst hk
    exact movement_ok_pawn h hs hd hsrc
  · rw [movement_ok_strikes h.board_ok hk, h.placement]
    cases k with
    | pawn => exact absurd rfl hk
    | knight => rfl
    | bishop => rfl
    | rook => rfl
    | queen => rfl
    | king => rfl

end MultiplayChess
