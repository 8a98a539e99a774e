import MultiplayChess.Common.Rule
import MultiplayChess.Chess.Rules
import Mathlib.Tactic.IntervalCases

/-! # The board array

    Reading after writing, and the placement of men a board stands for.  A
    square state is well formed if it is dead exactly when its piece
    pointer is null and if a non-null pointer is the entry of the piece
    table for its own team. -/

namespace MultiplayChess

open Chess (OnBoard Man Placement)

/-! ## Reading and writing -/

theorem in_board_iff (x y : Int) : in_board x y = true ↔ OnBoard x y := by
  simp [in_board, OnBoard, and_assoc]

@[simp] theorem mem_files (i : Int) : i ∈ files ↔ 0 ≤ i ∧ i < 8 := by
  constructor
  · intro h
    simp only [files, List.mem_cons, List.not_mem_nil, or_false] at h
    omega
  · intro ⟨h0, h8⟩
    interval_cases i <;> decide

namespace Board

variable {b : Board} {x y x' y' : Int} {v : PieceState}

/-- Off the board there is nothing to read. -/
theorem get_off (h : ¬ OnBoard x y) : b.get y x = .empty :=
  dif_neg h

theorem get_on (h : OnBoard x y) :
    b.get y x = b ⟨y.toNat, by have := h.2; omega⟩ ⟨x.toNat, by have := h.1; omega⟩ :=
  dif_pos h

/-- Reading after a write on the board. -/
theorem get_set (h : OnBoard x y) :
    (b.set y x v).get y' x' = if x' = x ∧ y' = y then v else b.get y' x' := by
  by_cases h' : OnBoard x' y'
  · rw [get_on h', get_on h']
    simp only [set]
    obtain ⟨⟨hx, _⟩, hy, _⟩ := h'
    rw [Int.toNat_of_nonneg hx, Int.toNat_of_nonneg hy]
    by_cases hxy : x' = x ∧ y' = y
    · rw [if_pos hxy, if_pos hxy.symm]
    · rw [if_neg hxy, if_neg (fun hc => hxy hc.symm)]
  · rw [get_off h', get_off h', if_neg]
    rintro ⟨rfl, rfl⟩
    exact h' h

/-- A write off the board changes nothing. -/
theorem set_off (h : ¬ OnBoard x y) : b.set y x v = b := by
  funext y' x'
  unfold set
  rw [if_neg]
  rintro ⟨hy, hx⟩
  have := y'.isLt
  have := x'.isLt
  exact h ⟨by omega, by omega⟩

end Board

/-! ## Square states and men -/

/-- The man a square state stands for. -/
def PieceState.man (ps : PieceState) : Option Man :=
  if ps.is_dead then none else ps.piece.map fun p => ⟨ps.team, p.type⟩

/-- The placement of men a game's board stands for. -/
def placement (G : Game) : Placement :=
  fun x y => (G.board.get y x).man

/-- A well formed square state. -/
structure PieceState.Ok (ps : PieceState) : Prop where
  dead_iff : ps.is_dead = true ↔ ps.piece = none
  table : ∀ p, ps.piece = some p → p = piece_table ps.team p.type

/-- Every square of the board is well formed. -/
def BoardOk (G : Game) : Prop :=
  ∀ x y, (G.board.get y x).Ok

theorem PieceState.Ok.empty : PieceState.empty.Ok where
  dead_iff := by simp [PieceState.empty]
  table := by simp [PieceState.empty]

theorem PieceState.Ok.kill (ps : PieceState) : ps.kill.Ok where
  dead_iff := by simp [PieceState.kill]
  table := by simp [PieceState.kill]

/-- A dead square holds no man, a live one the man of its team and type. -/
theorem PieceState.Ok.man_eq_none_iff {ps : PieceState} (h : ps.Ok) :
    ps.man = none ↔ ps.is_dead = true := by
  unfold PieceState.man
  cases hd : ps.is_dead with
  | true => simp
  | false =>
    have : ps.piece ≠ none := fun hn => by simp [h.dead_iff.mpr hn] at hd
    simpa using this

theorem PieceState.Ok.man_eq_some_iff {ps : PieceState} (h : ps.Ok) (t : Team) (k : PieceType) :
    ps.man = some ⟨t, k⟩ ↔
      ps.is_dead = false ∧ ps.team = t ∧ ps.piece = some (piece_table t k) := by
  unfold PieceState.man
  cases hd : ps.is_dead with
  | true => simp
  | false =>
    cases hp : ps.piece with
    | none => simp [h.dead_iff.mpr hp] at hd
    | some q =>
      have hq := h.table q hp
      simp only [Bool.false_eq_true, if_false, Option.map_some, Option.some.injEq, Man.mk.injEq,
        true_and]
      constructor
      · rintro ⟨rfl, rfl⟩
        exact ⟨rfl, hq⟩
      · rintro ⟨rfl, rfl⟩
        exact ⟨rfl, piece_table_type _ _⟩

/-- A live square of a well formed board holds a man of its team. -/
theorem PieceState.Ok.exists_man {ps : PieceState} (h : ps.Ok) (hd : ps.is_dead = false) :
    ∃ k, ps.piece = some (piece_table ps.team k) ∧ ps.man = some ⟨ps.team, k⟩ := by
  cases hp : ps.piece with
  | none => simp [h.dead_iff.mpr hp] at hd
  | some q =>
    have hq : ps.piece = some (piece_table ps.team q.type) := by rw [← h.table q hp, hp]
    exact ⟨q.type, by rw [← hp, hq], (h.man_eq_some_iff _ _).mpr ⟨hd, rfl, hq⟩⟩

/-- Writing a well formed square state keeps the board well formed. -/
theorem BoardOk.set {G : Game} (h : BoardOk G) {x y : Int} {v : PieceState} (hv : v.Ok) :
    BoardOk { G with board := G.board.set y x v } := by
  intro x' y'
  by_cases hon : OnBoard x y
  · show ((G.board.set y x v).get y' x').Ok
    rw [Board.get_set hon]
    split
    · exact hv
    · exact h x' y'
  · rw [Board.set_off hon]
    exact h x' y'

/-- Whether a board is well formed depends on the board only. -/
theorem BoardOk.congr {G H : Game} (h : BoardOk G) (hboard : G.board = H.board) : BoardOk H := by
  intro x y
  rw [← hboard]
  exact h x y

theorem BoardOk.placement_eq_none_iff {G : Game} (h : BoardOk G) (x y : Int) :
    placement G x y = none ↔ (G.board.get y x).is_dead = true :=
  (h x y).man_eq_none_iff

/-- Men stand on the board only. -/
theorem placement_on_board {G : Game} {x y : Int} {c : Man} (h : placement G x y = some c) :
    OnBoard x y := by
  by_contra hoff
  unfold placement at h
  rw [Board.get_off hoff] at h
  cases h

end MultiplayChess
