import MultiplayChess.Common.Board
import MultiplayChess.Chess.Soundness
import Mathlib.Tactic.Ring

/-! # Attacks and check

    The attack test of the code decides the attack relation of chess on
    every well formed board, and `is_in_check` decides whether a side's
    only king is attacked. -/

namespace MultiplayChess

open Chess (OnBoard Man Diagonal Straight OpenLine Strikes Attacked InCheck ExactlyOne
  AtMostOne)

/-! ## The offset tables -/

/-- A unit offset: one step in one of the eight directions. -/
structure Offset.Unit (o : Offset) : Prop where
  x_cases : o.x = -1 ∨ o.x = 0 ∨ o.x = 1
  y_cases : o.y = -1 ∨ o.y = 0 ∨ o.y = 1
  ne_zero : ¬ (o.x = 0 ∧ o.y = 0)

theorem Offset.Unit.of_diagonal {o : Offset} (h : Diagonal o.x o.y) : o.Unit where
  x_cases := by have := h.1; omega
  y_cases := by have := h.2; omega
  ne_zero := by have := h.1; omega

theorem Offset.Unit.of_straight {o : Offset} (h : Straight o.x o.y) : o.Unit where
  x_cases := by unfold Straight at h; omega
  y_cases := by unfold Straight at h; omega
  ne_zero := by unfold Straight at h; omega

theorem mem_bishop_offsets (o : Offset) : o ∈ bishop_offsets ↔ Diagonal o.x o.y := by
  obtain ⟨x, y⟩ := o
  simp only [bishop_offsets, Diagonal, List.mem_cons, Offset.mk.injEq, List.not_mem_nil, or_false]
  omega

theorem mem_rook_offsets (o : Offset) : o ∈ rook_offsets ↔ Straight o.x o.y := by
  obtain ⟨x, y⟩ := o
  simp only [rook_offsets, Straight, List.mem_cons, Offset.mk.injEq, List.not_mem_nil, or_false]
  omega

theorem mem_king_offsets (o : Offset) :
    o ∈ king_offsets ↔ o.x.natAbs ≤ 1 ∧ o.y.natAbs ≤ 1 ∧ ¬ (o.x = 0 ∧ o.y = 0) := by
  obtain ⟨x, y⟩ := o
  simp only [king_offsets, List.mem_cons, Offset.mk.injEq, List.not_mem_nil, or_false]
  omega

theorem mem_knight_offsets (o : Offset) :
    o ∈ knight_offsets ↔
      (o.x.natAbs = 1 ∧ o.y.natAbs = 2) ∨ (o.x.natAbs = 2 ∧ o.y.natAbs = 1) := by
  obtain ⟨x, y⟩ := o
  simp only [knight_offsets, List.mem_cons, Offset.mk.injEq, List.not_mem_nil, or_false]
  omega

/-- The queen's table is the bishop's and the rook's. -/
theorem mem_queen_offsets (o : Offset) :
    o ∈ king_offsets ↔ Diagonal o.x o.y ∨ Straight o.x o.y := by
  rw [mem_king_offsets]
  unfold Diagonal Straight
  omega

/-- The offsets the loops visit, by piece type. -/
def offsets_of : PieceType → List Offset
  | .pawn => []
  | .knight => knight_offsets
  | .bishop => bishop_offsets
  | .rook => rook_offsets
  | .queen => king_offsets
  | .king => king_offsets

@[simp] theorem piece_table_moves (t : Team) (k : PieceType) :
    (piece_table t k).moves = offsets_of k := by
  cases t <;> cases k <;> rfl

theorem pawn_dir_eq (t : Team) : pawn_dir t = Chess.forward t := by
  cases t <;> rfl

/-! ## Sliding -/

/-- The squares of the `while` loop. -/
theorem iterate_slide (o : Offset) (x y : Int) (k : Nat) :
    (fun p : Int × Int => (p.1 + o.x, p.2 + o.y))^[k] (x, y) = (x + k * o.x, y + k * o.y) := by
  induction k with
  | zero => simp
  | succ k ih =>
    rw [Function.iterate_succ_apply', ih]
    push_cast
    ext
    · show x + k * o.x + o.x = x + (k + 1) * o.x
      ring
    · show y + k * o.y + o.y = y + (k + 1) * o.y
      ring

/-- The squares between two squares of the board are on the board. -/
theorem Offset.Unit.between {o : Offset} (ho : o.Unit) {i j n : Int} (hs : OnBoard i j)
    (hd : OnBoard (i + n * o.x) (j + n * o.y)) {k : Int} (h0 : 0 ≤ k) (hk : k ≤ n) :
    OnBoard (i + k * o.x) (j + k * o.y) := by
  obtain ⟨hsx, hsy⟩ := hs
  obtain ⟨hdx, hdy⟩ := hd
  constructor
  · rcases ho.x_cases with h | h | h <;> rw [h] at hdx ⊢ <;> omega
  · rcases ho.y_cases with h | h | h <;> rw [h] at hdy ⊢ <;> omega

/-- A line on the board is at most seven steps long. -/
theorem Offset.Unit.short {o : Offset} (ho : o.Unit) {i j n : Int} (hs : OnBoard i j)
    (hd : OnBoard (i + n * o.x) (j + n * o.y)) : n < 8 := by
  obtain ⟨hsx, hsy⟩ := hs
  obtain ⟨hdx, hdy⟩ := hd
  have hne := ho.ne_zero
  rcases ho.x_cases with hx | hx | hx <;> rcases ho.y_cases with hy | hy | hy <;>
    rw [hx] at hdx hne <;> rw [hy] at hdy hne <;> omega

/-- Different steps along an offset are different squares. -/
theorem Offset.Unit.step_inj {o : Offset} (ho : o.Unit) {i j n k : Int}
    (hx : i + k * o.x = i + n * o.x) (hy : j + k * o.y = j + n * o.y) : k = n := by
  have hne := ho.ne_zero
  rcases ho.x_cases with h | h | h <;> rcases ho.y_cases with h' | h' | h' <;>
    rw [h] at hx hne <;> rw [h'] at hy hne <;> omega

/-- The loop reaches the target iff the target lies `n` steps along the
    offset and the squares before it are empty. -/
theorem slides_to_iff {G : Game} (hok : BoardOk G) {o : Offset} (ho : o.Unit) {i j x y : Int}
    (hs : OnBoard i j) (hd : OnBoard x y) :
    slides_to G o (i + o.x) (j + o.y) x y = true ↔
      ∃ n : Int, 0 < n ∧ x = i + n * o.x ∧ y = j + n * o.y ∧
        ∀ k : Int, 0 < k → k < n → placement G (i + k * o.x) (j + k * o.y) = none := by
  -- the loop's `k`-th square is `k + 1` steps away from the piece
  have hsq : ∀ k : Nat, (fun p : Int × Int => (p.1 + o.x, p.2 + o.y))^[k] (i + o.x, j + o.y) =
      (i + ((k : Int) + 1) * o.x, j + ((k : Int) + 1) * o.y) := by
    intro k
    rw [iterate_slide]
    ext
    · show i + o.x + k * o.x = i + (k + 1) * o.x
      ring
    · show j + o.y + k * o.y = j + (k + 1) * o.y
      ring
  unfold slides_to
  rw [Walk.meets_iff]
  simp only [hsq, Bool.and_eq_true, beq_iff_eq, Bool.not_eq_eq_eq_not, Bool.not_false,
    in_board_iff, Bool.and_eq_false_imp]
  constructor
  · intro ⟨k, _, ⟨hx, hy⟩, _, hbefore⟩
    refine ⟨k + 1, by omega, hx.symm, hy.symm, ?_⟩
    intro n h0 hn
    obtain ⟨m, rfl⟩ : ∃ m : Nat, n = m + 1 := ⟨(n - 1).toNat, by omega⟩
    rw [hok.placement_eq_none_iff]
    exact (hbefore m (by omega)).2
  · rintro ⟨n, h0, rfl, rfl, hempty⟩
    obtain ⟨m, rfl⟩ : ∃ m : Nat, n = m + 1 := ⟨(n - 1).toNat, by omega⟩
    have hshort := ho.short hs hd
    refine ⟨m, by omega, ⟨rfl, rfl⟩, ?_, ?_⟩
    · intro k hk
      exact ho.between hs hd (by omega) (by omega)
    · intro k hk
      constructor
      · intro hx
        have hne : ¬ (j + ((k : Int) + 1) * o.y = j + ((m : Int) + 1) * o.y) := by
          intro hy
          have := ho.step_inj hx hy
          omega
        simpa using hne
      · have := hempty (k + 1) (by omega) (by omega)
        exact (hok.placement_eq_none_iff _ _).mp this

/-- Eight rounds are enough: the loop of the source, which has no bound,
    computes the same. -/
theorem slides_to_enough (G : Game) {o : Offset} (ho : o.Unit) (nx ny x y : Int) {m : Nat}
    (hm : 8 ≤ m) :
    Walk.meets (fun p => in_board p.1 p.2) (fun p => p.1 == x && p.2 == y)
      (fun p => !(G.board.get p.2 p.1).is_dead) (fun p => (p.1 + o.x, p.2 + o.y)) m (nx, ny) =
        slides_to G o nx ny x y := by
  apply Walk.meets_enough 8 (nx, ny) ?_ m hm
  intro hstart
  rw [in_board_iff] at hstart
  by_contra hinside
  rw [Bool.not_eq_false, iterate_slide, in_board_iff] at hinside
  have hshort := ho.short hstart hinside
  omega

/-- A slider's offsets reach exactly the open lines in their directions. -/
theorem slides_iff_openLine {G : Game} (hok : BoardOk G) {offsets : List Offset}
    {dir : Int → Int → Prop} (hdir : ∀ o : Offset, o ∈ offsets ↔ dir o.x o.y)
    (hunit : ∀ o ∈ offsets, o.Unit) {i j x y : Int} (hs : OnBoard i j) (hd : OnBoard x y) :
    (offsets.any fun o => slides_to G o (i + o.x) (j + o.y) x y) = true ↔
      OpenLine (placement G) dir i j x y := by
  rw [List.any_eq_true]
  constructor
  · intro ⟨o, ho, hslide⟩
    obtain ⟨n, h⟩ := (slides_to_iff hok (hunit o ho) hs hd).mp hslide
    exact ⟨o.x, o.y, n, (hdir o).mp ho, h⟩
  · intro ⟨ux, uy, n, hu, h⟩
    have ho : (⟨ux, uy⟩ : Offset) ∈ offsets := (hdir ⟨ux, uy⟩).mpr hu
    exact ⟨⟨ux, uy⟩, ho, (slides_to_iff hok (hunit _ ho) hs hd).mpr ⟨n, h⟩⟩

/-- An open line in one of two kinds of directions. -/
theorem openLine_or (b : Chess.Placement) (d e : Int → Int → Prop) (sx sy dx dy : Int) :
    OpenLine b (fun ux uy => d ux uy ∨ e ux uy) sx sy dx dy ↔
      OpenLine b d sx sy dx dy ∨ OpenLine b e sx sy dx dy := by
  constructor
  · rintro ⟨ux, uy, n, hd | he, h⟩
    · exact .inl ⟨ux, uy, n, hd, h⟩
    · exact .inr ⟨ux, uy, n, he, h⟩
  · rintro (⟨ux, uy, n, hd, h⟩ | ⟨ux, uy, n, he, h⟩)
    · exact ⟨ux, uy, n, .inl hd, h⟩
    · exact ⟨ux, uy, n, .inr he, h⟩

/-- The jump loop finds the destination iff the difference is an offset. -/
theorem jumps_iff (offsets : List Offset) (i j x y : Int) :
    (offsets.any fun o => i + o.x == x && j + o.y == y) = true ↔
      (⟨x - i, y - j⟩ : Offset) ∈ offsets := by
  simp only [List.any_eq_true, Bool.and_eq_true, beq_iff_eq]
  constructor
  · intro ⟨o, ho, hx, hy⟩
    have : (⟨x - i, y - j⟩ : Offset) = o := by
      obtain ⟨ox, oy⟩ := o
      simp only [Offset.mk.injEq]
      simp only at hx hy
      omega
    rwa [this]
  · intro ho
    exact ⟨_, ho, by simp, by simp⟩

/-! ## The attack test -/

/-- The `switch` of the attack test decides whether the piece strikes. -/
theorem piece_attacks_iff {G : Game} (hok : BoardOk G) (t : Team) (k : PieceType)
    {i j x y : Int} (hs : OnBoard i j) (hd : OnBoard x y) :
    piece_attacks G t (piece_table t k) i j x y = true ↔
      Strikes (placement G) ⟨t, k⟩ i j x y := by
  unfold piece_attacks Strikes
  rw [piece_table_type, piece_table_moves]
  cases k with
  | pawn =>
    simp only [pawn_dir_eq, Bool.and_eq_true, Bool.or_eq_true, beq_iff_eq]
    omega
  | knight => exact (jumps_iff _ _ _ _ _).trans (mem_knight_offsets _)
  | king =>
    -- the eight neighbours are the squares at distance one
    refine ((jumps_iff _ _ _ _ _).trans (mem_king_offsets _)).trans ?_
    show (x - i).natAbs ≤ 1 ∧ (y - j).natAbs ≤ 1 ∧ ¬ (x - i = 0 ∧ y - j = 0) ↔ _
    omega
  | bishop =>
    exact slides_iff_openLine hok mem_bishop_offsets
      (fun o ho => .of_diagonal ((mem_bishop_offsets o).mp ho)) hs hd
  | rook =>
    exact slides_iff_openLine hok mem_rook_offsets
      (fun o ho => .of_straight ((mem_rook_offsets o).mp ho)) hs hd
  | queen =>
    -- a queen slides like a bishop or like a rook
    refine (slides_iff_openLine hok mem_queen_offsets ?_ hs hd).trans (openLine_or _ _ _ _ _ _ _)
    intro o ho
    rcases (mem_queen_offsets o).mp ho with h | h
    · exact .of_diagonal h
    · exact .of_straight h

/-- **The attack test.** On a well formed board `is_square_attacked`
    decides the attack relation. -/
theorem is_square_attacked_iff {G : Game} (hok : BoardOk G) {x y : Int} (hd : OnBoard x y)
    (t : Team) : is_square_attacked G x y t = true ↔ Attacked (placement G) t x y := by
  unfold is_square_attacked
  simp only [List.any_eq_true, mem_files]
  constructor
  · rintro ⟨i, hi, j, hj, h⟩
    cases hp : (G.board.get j i).piece with
    | none => simp [hp] at h
    | some p =>
      simp only [hp, Bool.and_eq_true, Bool.not_eq_eq_eq_not, Bool.not_true, beq_iff_eq] at h
      obtain ⟨⟨hlive, hteam⟩, hatt⟩ := h
      have hcell := hok i j
      have hpt := hcell.table p hp
      rw [hteam] at hpt
      rw [hpt] at hatt hp
      have hman : placement G i j = some ⟨t, p.type⟩ :=
        (hcell.man_eq_some_iff t p.type).mpr ⟨hlive, hteam, hp⟩
      exact ⟨i, j, _, hman, rfl, (piece_attacks_iff hok t p.type ⟨hi, hj⟩ hd).mp hatt⟩
  · rintro ⟨i, j, ⟨t', k⟩, hman, rfl, hstrike⟩
    have hs := placement_on_board hman
    obtain ⟨hlive, hteam, hp⟩ := ((hok i j).man_eq_some_iff t' k).mp hman
    refine ⟨i, hs.1, j, hs.2, ?_⟩
    simp only [hp, hlive, hteam, Bool.not_false, Bool.true_and, beq_self_eq_true]
    exact (piece_attacks_iff hok t' k hs hd).mpr hstrike

/-! ## Check -/

/-- The king search finds only kings. -/
theorem find_king_sound {G : Game} (hok : BoardOk G) {t : Team} {x y : Int}
    (h : find_king G t = some (x, y)) : placement G x y = some ⟨t, .king⟩ := by
  have hfound := List.find?_some h
  simp only at hfound
  cases hp : (G.board.get y x).piece with
  | none => simp [hp] at hfound
  | some q =>
    simp only [hp, Bool.and_eq_true, Bool.not_eq_eq_eq_not, Bool.not_true, beq_iff_eq] at hfound
    obtain ⟨⟨hlive, hteam⟩, hking⟩ := hfound
    have hq := (hok x y).table q hp
    rw [hteam, hking] at hq
    exact ((hok x y).man_eq_some_iff t .king).mpr ⟨hlive, hteam, by rw [hp, hq]⟩

/-- The king search fails only if there is no king. -/
theorem find_king_complete {G : Game} (hok : BoardOk G) {t : Team} {x y : Int}
    (h : placement G x y = some ⟨t, .king⟩) : find_king G t ≠ none := by
  intro hnone
  have hon := placement_on_board h
  obtain ⟨hlive, hteam, hp⟩ := ((hok x y).man_eq_some_iff t .king).mp h
  have hmem : (x, y) ∈ files.flatMap fun x => files.map fun y => (x, y) := by
    rw [List.mem_flatMap]
    exact ⟨x, (mem_files x).mpr hon.1, List.mem_map.mpr ⟨y, (mem_files y).mpr hon.2, rfl⟩⟩
  have := List.find?_eq_none.mp hnone (x, y) hmem
  simp [hp, hlive, hteam] at this

/-- With at most one king of the team on a well formed board, `is_in_check`
    decides whether that king is attacked. -/
theorem is_in_check_iff_of_atMostOne {G : Game} (hok : BoardOk G) {t : Team}
    (hking : AtMostOne (placement G) ⟨t, .king⟩) :
    is_in_check G t = true ↔ InCheck (placement G) t := by
  unfold is_in_check
  cases hfind : find_king G t with
  | none =>
    -- no king, no check
    simp only [Bool.false_eq_true, false_iff]
    rintro ⟨x, y, hk, _⟩
    exact find_king_complete hok hk hfind
  | some q =>
    obtain ⟨x, y⟩ := q
    have hfound := find_king_sound hok hfind
    have hon := placement_on_board hfound
    show is_square_attacked G x y t.other = true ↔ _
    rw [is_square_attacked_iff hok hon]
    constructor
    · intro hatt
      exact ⟨x, y, hfound, hatt⟩
    · intro ⟨x', y', hk', hatt⟩
      obtain ⟨rfl, rfl⟩ := hking x y x' y' hfound hk'
      exact hatt

/-- **The check test.** With one king of the team on a well formed board,
    `is_in_check` decides whether that king is attacked. -/
theorem is_in_check_iff {G : Game} (hok : BoardOk G) {t : Team}
    (hking : ExactlyOne (placement G) ⟨t, .king⟩) :
    is_in_check G t = true ↔ InCheck (placement G) t :=
  is_in_check_iff_of_atMostOne hok hking.atMostOne

end MultiplayChess
