import Mathlib.Data.List.Induction
import MultiplayChess.Common.Utils

/-! # Malformed placements

    The first field of a FEN describes eight ranks of eight files.  The
    parser bounds the rank it is in and not the file; this file says which
    texts make it write beside the board, which ones it accepts, and so on
    which texts it does what its header promises. -/

namespace MultiplayChess

/-! ## The field -/

/-- The letter of a man, as the parser knows it. -/
def is_man (c : Char) : Bool :=
  (piece_of_letter c.toLower).isSome

/-- A character the parser goes on behind. -/
def is_readable (c : Char) : Bool :=
  c == '/' || c.isDigit || is_man c

/-- How many files a character stands for. -/
def file_count (c : Char) : Int :=
  if c.isDigit then digit_value c else 1

/-- How many files a rank describes. -/
def rank_files (rank : CString) : Int :=
  rank.foldr (fun c n => file_count c + n) 0

/-- A placement: eight ranks of eight files each, in letters and digits
    from 1 to 8. -/
structure Placement (tok : CString) : Prop where
  eight_ranks : (tok.splitOn '/').length = 8
  known : ∀ rank ∈ tok.splitOn '/', ∀ c ∈ rank,
    is_man c = true ∨ c.isDigit = true ∧ 1 ≤ digit_value c ∧ digit_value c ≤ 8
  eight_files : ∀ rank ∈ tok.splitOn '/', rank_files rank = 8

theorem file_count_nonneg (c : Char) : 0 ≤ file_count c := by
  unfold file_count
  split
  · have hc := digit_bounds ‹c.isDigit = true›
    unfold digit_value
    omega
  · omega

theorem rank_files_cons (c : Char) (s : CString) :
    rank_files (c :: s) = file_count c + rank_files s := rfl

theorem rank_files_append (s t : CString) :
    rank_files (s ++ t) = rank_files s + rank_files t := by
  induction s with
  | nil =>
    show rank_files t = 0 + rank_files t
    omega
  | cons c s ih =>
    rw [List.cons_append, rank_files_cons, rank_files_cons, ih]
    omega

theorem rank_files_nonneg (s : CString) : 0 ≤ rank_files s := by
  induction s with
  | nil => decide
  | cons c s ih =>
    have hc := file_count_nonneg c
    have hcons := rank_files_cons c s
    omega

/-! ## The parser's place in the field -/

/-- The file behind a text. -/
def column (pre : CString) : Int :=
  pre.foldl (fun x c => if c = '/' then 0 else x + file_count c) 0

theorem column_slash (pre : CString) : column (pre ++ ['/']) = 0 := by
  simp [column]

theorem column_step {c : Char} (hc : c ≠ '/') (pre : CString) :
    column (pre ++ [c]) = column pre + file_count c := by
  simp [column, hc]

theorem column_nonneg (pre : CString) : 0 ≤ column pre := by
  induction pre using List.reverseRecOn with
  | nil => exact Int.le_refl _
  | append_singleton pre c ih =>
    by_cases hc : c = '/'
    · have hzero : column (pre ++ [c]) = 0 := by rw [hc, column_slash]
      omega
    · have hstep := column_step hc pre
      have hfiles := file_count_nonneg c
      omega

/-- The parser gets as far as `c`, with `pre` behind it. -/
structure Reaches (tok pre : CString) (c : Char) : Prop where
  here : pre ++ [c] <+: tok
  in_rank : pre.count '/' < 8
  readable : ∀ d ∈ pre, is_readable d = true

/-- From `start` on, the parser comes to a character of this kind. -/
def Comes (kind : CString → Char → Prop) (tok start : CString) : Prop :=
  ∃ pre c, start <+: pre ∧ Reaches tok pre c ∧ kind pre c

/-- A man beside the board. -/
def beside (pre : CString) (c : Char) : Prop :=
  is_man c = true ∧ 8 ≤ column pre

/-- A letter of no man. -/
def unknown (_ : CString) (c : Char) : Prop :=
  is_readable c = false

section Reading

variable {tok pre start : CString} {c d : Char}

/-- Either the parser is at the next character or it has passed it. -/
theorem Reaches.next {s : CString} (h : Reaches (start ++ c :: s) pre d) (hpre : start <+: pre) :
    pre = start ∧ d = c ∨ start ++ [c] <+: pre := by
  obtain ⟨q, rfl⟩ := hpre
  have hq : q ++ [d] <+: c :: s := by
    have hhere := h.here
    rw [List.append_assoc] at hhere
    exact (List.prefix_append_right_inj start).mp hhere
  cases q with
  | nil =>
    left
    exact ⟨List.append_nil _, (List.cons_prefix_cons.mp hq).1⟩
  | cons e q =>
    right
    obtain rfl := (List.cons_prefix_cons.mp hq).1
    exact ⟨q, by rw [List.append_assoc]; rfl⟩

/-- Nothing is read behind the end. -/
theorem Reaches.not_end (hpre : start <+: pre) : ¬ Reaches start pre c := by
  intro h
  have hlen := h.here.length_le
  rw [List.length_append, List.length_singleton] at hlen
  have hstart := hpre.length_le
  omega

/-- Nothing is read behind the eighth rank. -/
theorem Reaches.not_below (hpre : start <+: pre) (hrank : 8 ≤ start.count '/') :
    ¬ Reaches tok pre c := by
  intro h
  have hcount := hpre.sublist.count_le '/'
  have hin := h.in_rank
  omega

theorem Reaches.at_start {s : CString} (hrank : start.count '/' < 8)
    (hread : ∀ d ∈ start, is_readable d = true) : Reaches (start ++ c :: s) start c where
  here := ⟨s, by rw [List.append_assoc]; rfl⟩
  in_rank := hrank
  readable := hread

/-- The next character is of the kind, or a later one. -/
theorem comes_step {kind : CString → Char → Prop} {s : CString} (hrank : start.count '/' < 8)
    (hread : ∀ d ∈ start, is_readable d = true) :
    Comes kind (start ++ c :: s) start ↔
      kind start c ∨ Comes kind (start ++ [c] ++ s) (start ++ [c]) := by
  have htok : start ++ [c] ++ s = start ++ c :: s := by
    rw [List.append_assoc]
    rfl
  rw [htok]
  constructor
  · intro ⟨pre, d, hpre, hreach, hkind⟩
    rcases hreach.next hpre with ⟨rfl, rfl⟩ | hpast
    · exact .inl hkind
    · exact .inr ⟨pre, d, hpast, hreach, hkind⟩
  · intro h
    rcases h with hkind | ⟨pre, d, hpre, hreach, hkind⟩
    · exact ⟨start, c, List.prefix_refl _, .at_start hrank hread, hkind⟩
    · exact ⟨pre, d, (List.prefix_append start [c]).trans hpre, hreach, hkind⟩

/-- Behind an unknown letter nothing is read. -/
theorem not_comes_past {kind : CString → Char → Prop} (hread : is_readable c = false) :
    ¬ Comes kind tok (start ++ [c]) := by
  intro ⟨pre, d, hpre, hreach, _⟩
  have hc : c ∈ pre := hpre.subset (List.mem_append_right _ (List.mem_singleton_self c))
  rw [hreach.readable c hc] at hread
  cases hread

end Reading

/-! ## The placement loop -/

theorem is_man_digit {c : Char} (h : c.isDigit = true) : is_man c = false := by
  have hc := digit_bounds h
  have hlower : c.toLower = c := by
    unfold Char.toLower
    rw [dif_neg]
    intro hupper
    simp only [ge_iff_le, UInt32.le_iff_toNat_le] at hupper
    change 65 ≤ c.toNat ∧ _ at hupper
    omega
  unfold is_man
  rw [hlower]
  unfold piece_of_letter
  split <;> first | rfl | (exfalso; revert hc; decide)

theorem is_man_slash : is_man '/' = false := by decide

theorem count_step {c : Char} (hc : c ≠ '/') (pre : CString) :
    (pre ++ [c]).count '/' = pre.count '/' := by
  rw [List.count_append, List.count_singleton, if_neg (by simpa using hc)]
  rfl

section Loop

variable {pre : CString} {c : Char} (b : Board) (s : CString)

/-- Where the loop stands behind `pre`. -/
def placement_loop (b : Board) (pre s : CString) : Option (Board × Bool) :=
  parse_placement b (column pre) (7 - (pre.count '/' : Nat)) s

theorem placement_loop_stop (hrank : 8 ≤ pre.count '/') :
    placement_loop b pre s = some (b, true) := by
  unfold placement_loop
  cases s with
  | nil => rfl
  | cons c s =>
    unfold parse_placement
    rw [if_pos (by omega)]

theorem placement_loop_slash (hrank : pre.count '/' < 8) :
    placement_loop b pre ('/' :: s) = placement_loop b (pre ++ ['/']) s := by
  unfold placement_loop
  rw [parse_placement, if_neg (by omega), if_pos rfl, column_slash, List.count_append]
  congr 1
  simp
  omega

theorem placement_loop_digit (hrank : pre.count '/' < 8) (hc : c.isDigit = true) :
    placement_loop b pre (c :: s) = placement_loop b (pre ++ [c]) s := by
  have hslash : c ≠ '/' := by
    rintro rfl
    cases hc
  unfold placement_loop
  rw [parse_placement, if_neg (by omega), if_neg hslash, if_pos hc, column_step hslash,
    count_step hslash]
  unfold file_count
  rw [if_pos hc]

theorem man_ne_slash (hman : is_man c = true) : c ≠ '/' := by
  intro hc
  rw [hc, is_man_slash] at hman
  cases hman

theorem man_not_digit (hman : is_man c = true) : ¬ c.isDigit = true := by
  intro hc
  rw [is_man_digit hc] at hman
  cases hman

theorem placement_loop_man (hrank : pre.count '/' < 8) (hman : is_man c = true)
    (hcol : column pre < 8) :
    ∃ b', placement_loop b pre (c :: s) = placement_loop b' (pre ++ [c]) s := by
  have hslash := man_ne_slash hman
  have hdigit := man_not_digit hman
  obtain ⟨type, htype⟩ := Option.isSome_iff_exists.mp hman
  have hon : in_board (column pre) (7 - (pre.count '/' : Nat)) = true := by
    have hnonneg := column_nonneg pre
    simp [in_board]
    omega
  unfold placement_loop
  rw [parse_placement, if_neg (by omega), if_neg hslash, if_neg hdigit,
    column_step hslash, count_step hslash]
  unfold file_count
  rw [if_neg hdigit]
  simp only [htype]
  exact ⟨_, if_pos hon⟩

theorem placement_loop_beside (hrank : pre.count '/' < 8) (hman : is_man c = true)
    (hcol : 8 ≤ column pre) : placement_loop b pre (c :: s) = none := by
  obtain ⟨type, htype⟩ := Option.isSome_iff_exists.mp hman
  have hoff : ¬ in_board (column pre) (7 - (pre.count '/' : Nat)) = true := by
    simp [in_board]
    omega
  unfold placement_loop
  rw [parse_placement, if_neg (by omega), if_neg (man_ne_slash hman),
    if_neg (man_not_digit hman), htype]
  exact if_neg hoff

theorem placement_loop_unknown (hrank : pre.count '/' < 8) (hread : is_readable c = false) :
    placement_loop b pre (c :: s) = some (b, false) := by
  unfold is_readable at hread
  rw [Bool.or_eq_false_iff, Bool.or_eq_false_iff] at hread
  obtain ⟨⟨hslash, hdigit⟩, hman⟩ := hread
  have htype : piece_of_letter c.toLower = none := by
    simpa [is_man] using hman
  unfold placement_loop
  rw [parse_placement, if_neg (by omega), if_neg (by simpa using hslash),
    if_neg (Bool.not_eq_true _ ▸ hdigit), htype]

end Loop

/-! ## What the loop says -/

/-- The characters the parser goes on behind. -/
theorem is_readable_cases {c : Char} (h : is_readable c = true) :
    c = '/' ∨ c.isDigit = true ∨ is_man c = true := by
  unfold is_readable at h
  rw [Bool.or_eq_true, Bool.or_eq_true, beq_iff_eq, or_assoc] at h
  exact h

/-- Either a man stands beside the board, or the loop goes on behind the
    character. -/
theorem placement_loop_readable {pre : CString} {c : Char} (b : Board) (s : CString)
    (hrank : pre.count '/' < 8) (hread : is_readable c = true) :
    (beside pre c ∧ placement_loop b pre (c :: s) = none) ∨
      (¬ beside pre c ∧
        ∃ b', placement_loop b pre (c :: s) = placement_loop b' (pre ++ [c]) s) := by
  rcases is_readable_cases hread with hslash | hdigit | hman
  · right
    subst hslash
    exact ⟨fun h => absurd h.1 (by rw [is_man_slash]; nofun), b, placement_loop_slash b s hrank⟩
  · right
    exact ⟨fun h => absurd h.1 (by rw [is_man_digit hdigit]; nofun), b,
      placement_loop_digit b s hrank hdigit⟩
  · by_cases hcol : column pre < 8
    · right
      exact ⟨fun h => absurd h.2 (by omega), placement_loop_man b s hrank hman hcol⟩
    · left
      exact ⟨⟨hman, by omega⟩, placement_loop_beside b s hrank hman (by omega)⟩

/-- **The loop.** It writes beside the board exactly if it comes to a man
    there, and gives up exactly if it comes to an unknown letter. -/
theorem placement_loop_spec (s : CString) : ∀ (b : Board) (pre : CString),
    (∀ d ∈ pre, is_readable d = true) →
      (placement_loop b pre s = none ↔ Comes beside (pre ++ s) pre) ∧
      ∀ b' ok, placement_loop b pre s = some (b', ok) →
        (ok = false ↔ Comes unknown (pre ++ s) pre) := by
  -- where the loop is over, it comes to nothing
  have idle : ∀ {b : Board} {pre tok : CString}, (∀ kind, ¬ Comes kind tok pre) →
      ((some (b, true) = none ↔ Comes beside tok pre) ∧
        ∀ b' ok, some (b, true) = some (b', ok) → (ok = false ↔ Comes unknown tok pre)) := by
    intro b pre tok hno
    constructor
    · exact ⟨nofun, fun h => absurd h (hno _)⟩
    · intro b' ok hok
      cases hok
      exact ⟨nofun, fun h => absurd h (hno _)⟩
  induction s with
  | nil =>
    intro b pre _
    apply idle
    intro kind ⟨q, d, hq, hreach, _⟩
    rw [List.append_nil] at hreach
    exact hreach.not_end hq
  | cons c s ih =>
    intro b pre hpre
    by_cases hrank : pre.count '/' < 8
    · rw [comes_step hrank hpre, comes_step hrank hpre]
      cases hread : is_readable c with
      | false =>
        rw [placement_loop_unknown b s hrank hread]
        have hman : is_man c = false := by
          unfold is_readable at hread
          exact (Bool.or_eq_false_iff.mp hread).2
        constructor
        · constructor
          · nofun
          · intro h
            rcases h with hbeside | hlater
            · rw [hbeside.1] at hman
              cases hman
            · exact absurd hlater (not_comes_past hread)
        · intro b' ok hok
          cases hok
          exact ⟨fun _ => .inl hread, fun _ => rfl⟩
      | true =>
        have hpre' : ∀ d ∈ pre ++ [c], is_readable d = true := by
          intro d hd
          rcases List.mem_append.mp hd with hd | hd
          · exact hpre d hd
          · rw [List.mem_singleton.mp hd]
            exact hread
        have hknown : ¬ unknown pre c := by
          unfold unknown
          rw [hread]
          nofun
        rcases placement_loop_readable b s hrank hread with ⟨hbeside, hnone⟩ | ⟨hno, b', hb'⟩
        · rw [hnone]
          exact ⟨⟨fun _ => .inl hbeside, fun _ => rfl⟩, nofun⟩
        · rw [hb', or_iff_right hno, or_iff_right hknown]
          exact ih b' (pre ++ [c]) hpre'
    · rw [placement_loop_stop b (c :: s) (by omega)]
      apply idle
      intro kind ⟨q, d, hq, hreach, _⟩
      exact hreach.not_below hq (by omega)

/-- What the loop makes of a whole field. -/
theorem parse_placement_spec (b : Board) (tok : CString) :
    (parse_placement b 0 7 tok = none ↔ Comes beside tok []) ∧
      ∀ b' ok, parse_placement b 0 7 tok = some (b', ok) → (ok = false ↔ Comes unknown tok []) :=
  placement_loop_spec tok b [] nofun

/-! ## The other fields -/

/-- What the parser takes for an en passant field. -/
def target_readable : CString → Bool
  | '-' :: _ => true
  | c :: d :: _ =>
    c.isAlpha && d.isDigit && in_board ((c.toLower.toNat : Int) - 97) ((d.toNat : Int) - 49)
  | _ => false

theorem fen_field_target_readable (G : Game) (tok : CString) :
    ∃ G', fen_field G 3 tok = some (G', target_readable tok) := by
  fun_cases target_readable tok with
  | case1 tail => exact ⟨_, rfl⟩
  | case2 c d tail hdash =>
    simp only [fen_field]
    cases c.isAlpha && d.isDigit with
    | false => exact ⟨G, rfl⟩
    | true =>
      cases in_board ((c.toLower.toNat : Int) - 97) ((d.toNat : Int) - 49) with
      | false => exact ⟨G, rfl⟩
      | true => exact ⟨_, rfl⟩
  | case3 =>
    simp only [fen_field]
    exact ⟨G, rfl⟩

/-- One field, and the next if it was read. -/
theorem fen_fields_cons {G G' : Game} {fld : Nat} {tok : CString} {flag : Bool} (hfld : fld < 6)
    (h : fen_field G fld tok = some (G', flag)) (toks : List CString) :
    fen_fields G fld (tok :: toks) =
      if flag then fen_fields G' (fld + 1) toks else some (G', false) := by
  rw [fen_fields, if_pos hfld, h]
  cases flag with
  | false => rfl
  | true => rfl

/-- The fields behind the fourth are no reason to refuse a text. -/
theorem fen_fields_late (toks : List CString) : ∀ (G : Game) (fld : Nat), 5 ≤ fld →
    ∃ G', fen_fields G fld toks = some (G', true) := by
  induction toks with
  | nil =>
    intro G fld hfld
    exact ⟨G, by simp [fen_fields, hfld]⟩
  | cons tok toks ih =>
    intro G fld hfld
    by_cases hend : fld < 6
    · obtain rfl : fld = 5 := by omega
      exact ih G 6 (by omega)
    · exact ⟨G, by simp [fen_fields, hend, hfld]⟩

/-- Behind the placement, a text is accepted if it has four more fields, of
    which the third is an en passant field. -/
theorem fen_fields_accepts (G : Game) (toks : List CString) :
    ∃ G', fen_fields G 1 toks =
      some (G', decide (4 ≤ toks.length) && (toks[2]?).all target_readable) := by
  cases toks with
  | nil => exact ⟨_, rfl⟩
  | cons side toks =>
    cases toks with
    | nil => exact ⟨_, rfl⟩
    | cons castling toks =>
      cases toks with
      | nil => exact ⟨_, rfl⟩
      | cons target toks =>
        obtain ⟨G', hG'⟩ := fen_field_target_readable
          { G with
            side_to_move := if side.head? = some 'b' then .black else .white
            white_can_castle_kingside := castling.contains 'K'
            white_can_castle_queenside := castling.contains 'Q'
            black_can_castle_kingside := castling.contains 'k'
            black_can_castle_queenside := castling.contains 'q' } target
        rw [fen_fields_cons (by omega) rfl, if_pos rfl, fen_fields_cons (by omega) rfl, if_pos rfl,
          fen_fields_cons (by omega) hG']
        cases htarget : target_readable target with
        | false => exact ⟨G', by simp [htarget]⟩
        | true =>
          cases toks with
          | nil => exact ⟨G', rfl⟩
          | cons clock toks =>
            obtain ⟨G'', hG''⟩ := fen_fields_late toks { G' with halfmove_clock := atoi clock } 5
              (by omega)
            rw [if_pos rfl, fen_fields_cons (by omega) rfl, if_pos rfl, hG'']
            exact ⟨G'', by simp [htarget]⟩

/-! ## The whole text -/

/-- The first field is a placement. -/
def PlacementFirst (fen : CString) : Prop :=
  ∃ tok ∈ (strtok [] fen).head?, Placement tok

/-- The parser comes to a man beside the board. -/
def MeetsBeside (fen : CString) : Prop :=
  ∃ tok ∈ (strtok [] fen).head?, Comes beside tok []

/-- The text has another fault: an unknown letter in the ranks that are
    read, a missing field or no en passant field. -/
def FaultyElsewhere (fen : CString) : Prop :=
  (∃ tok ∈ (strtok [] fen).head?, Comes unknown tok []) ∨ (strtok [] fen).length < 5 ∨
    ∃ target ∈ (strtok [] fen)[3]?, target_readable target = false

/-- The parser writes on the board only, and it accepts no text but one
    with a placement in front. -/
def RejectsMalformed (fen : CString) : Prop :=
  ∀ G, fen_parse G fen ≠ none ∧ ∀ G', fen_parse G fen = some (G', true) → PlacementFirst fen

/-- A text is parsed up to the end of its placement, if it has one. -/
theorem fen_parse_cons {G : Game} {fen tok : CString} {toks : List CString}
    (h : strtok [] fen = tok :: toks) :
    fen_parse G fen =
      match parse_placement (clear_board G).board 0 7 tok with
      | none => none
      | some (b, false) => some ({ clear_board G with board := b }, false)
      | some (b, true) => fen_fields { clear_board G with board := b } 1 toks := by
  unfold fen_parse
  rw [h, fen_fields, if_pos (by omega)]
  unfold fen_field
  simp only
  cases parse_placement (clear_board G).board 0 7 tok with
  | none => rfl
  | some r =>
    obtain ⟨b, ok⟩ := r
    cases ok with
    | false => rfl
    | true => rfl

theorem fen_parse_none_iff (G : Game) (fen : CString) :
    fen_parse G fen = none ↔ MeetsBeside fen := by
  unfold MeetsBeside
  cases h : strtok [] fen with
  | nil =>
    have hparse : fen_parse G fen = some (clear_board G, false) := by
      unfold fen_parse
      rw [h]
      rfl
    simp [hparse]
  | cons tok toks =>
    have hspec := (parse_placement_spec (clear_board G).board tok).1
    simp only [List.head?_cons, Option.mem_some_iff, exists_eq_left', ← hspec]
    rw [fen_parse_cons h]
    split
    · rename_i hnone
      simp [hnone]
    · rename_i hsome
      simp [hsome]
    · rename_i b hsome
      obtain ⟨G', hG'⟩ := fen_fields_accepts { clear_board G with board := b } toks
      simp [hsome, hG']

/-- A text that is read without a write beside the board is accepted unless
    it has another fault. -/
theorem fen_parse_true_iff {G : Game} {fen : CString} (hin : ¬ MeetsBeside fen) :
    (∃ G', fen_parse G fen = some (G', true)) ↔ ¬ FaultyElsewhere fen := by
  have hsome : fen_parse G fen ≠ none := fun h => hin ((fen_parse_none_iff G fen).mp h)
  unfold FaultyElsewhere
  cases h : strtok [] fen with
  | nil =>
    have hparse : fen_parse G fen = some (clear_board G, false) := by
      unfold fen_parse
      rw [h]
      rfl
    simp [hparse]
  | cons tok toks =>
    have hspec := (parse_placement_spec (clear_board G).board tok).2
    rw [fen_parse_cons h] at hsome ⊢
    split at hsome
    · exact absurd rfl hsome
    · rename_i b hloop
      have hunknown := (hspec b false hloop).mp rfl
      simp [hunknown]
    · rename_i b hloop
      have hunknown : ¬ Comes unknown tok [] := fun h => by cases (hspec b true hloop).mpr h
      obtain ⟨G', hG'⟩ := fen_fields_accepts { clear_board G with board := b } toks
      rw [hG']
      simp [hunknown, Option.all_eq_true]

/-- The rank that `pre` begins is the one the parser is in behind it. -/
theorem rank_begun (pre : CString) : ∃ p front, '/' ∉ p ∧ rank_files p = column pre ∧
    ∀ s, (pre ++ s).splitOn '/' = front ++ (p ++ s).splitOn '/' := by
  induction pre using List.reverseRecOn with
  | nil => exact ⟨[], [], nofun, rfl, fun s => rfl⟩
  | append_singleton pre c ih =>
    obtain ⟨p, front, hp, hsum, hsplit⟩ := ih
    by_cases hc : c = '/'
    · subst hc
      use [], front ++ p.splitOn '/'
      constructor
      · nofun
      constructor
      · rw [column_slash]
        rfl
      · intro s
        rw [List.append_assoc, List.singleton_append, hsplit, List.splitOn_append_cons_self,
          List.append_assoc]
        rfl
    · use p ++ [c], front
      constructor
      · simpa [hp] using Ne.symm hc
      constructor
      · have hone : rank_files [c] = file_count c + 0 := rank_files_cons c []
        rw [column_step hc, ← hsum, rank_files_append, hone]
        omega
      · intro s
        rw [List.append_assoc, List.append_assoc, hsplit]

/-- In a placement every man stands on the board. -/
theorem Placement.not_beside {tok : CString} (h : Placement tok) : ¬ Comes beside tok [] := by
  intro ⟨pre, c, _, hreach, hman, hcol⟩
  obtain ⟨post, rfl⟩ := hreach.here
  obtain ⟨p, front, hp, hsum, hsplit⟩ := rank_begun (pre ++ [c])
  -- the rest of the rank
  obtain ⟨r, hr⟩ : ∃ r, p ++ r ∈ (pre ++ [c] ++ post).splitOn '/' := by
    rw [hsplit]
    by_cases hslash : '/' ∈ post
    · obtain ⟨r, post', rfl, hr⟩ := List.eq_append_cons_of_mem hslash
      use r
      rw [← List.append_assoc, List.splitOn_append_cons_self_of_not_mem (by simp [hp, hr])]
      simp
    · use post
      rw [List.splitOn_eq_singleton (by simp [hp, hslash])]
      simp
  have hrank := h.eight_files _ hr
  rw [rank_files_append, hsum, column_step (man_ne_slash hman)] at hrank
  have hrest := rank_files_nonneg r
  have hone : file_count c = 1 := if_neg (man_not_digit hman)
  omega

/-- **Malformed placements.** The parser does what it is there for exactly
    on the texts that begin with a placement, and on the others that have
    no man beside the board and another fault. -/
theorem fen_parse_rejects_iff (fen : CString) :
    RejectsMalformed fen ↔ PlacementFirst fen ∨ (¬ MeetsBeside fen ∧ FaultyElsewhere fen) := by
  constructor
  · intro h
    by_cases hfirst : PlacementFirst fen
    · exact .inl hfirst
    · right
      have hin : ¬ MeetsBeside fen := fun hbeside =>
        (h .zero).1 ((fen_parse_none_iff .zero fen).mpr hbeside)
      constructor
      · exact hin
      · by_contra hfaultless
        obtain ⟨G', hG'⟩ := (fen_parse_true_iff (G := .zero) hin).mpr hfaultless
        exact hfirst ((h .zero).2 G' hG')
  · intro h G
    rcases h with hfirst | ⟨hin, hfaulty⟩
    · constructor
      · intro hnone
        obtain ⟨tok, htok, hplacement⟩ := hfirst
        obtain ⟨tok', htok', hbeside⟩ := (fen_parse_none_iff G fen).mp hnone
        obtain rfl := Option.some.inj (htok.symm.trans htok')
        exact hplacement.not_beside hbeside
      · exact fun _ _ => hfirst
    · constructor
      · exact fun hnone => hin ((fen_parse_none_iff G fen).mp hnone)
      · intro G' hG'
        exact absurd hfaulty ((fen_parse_true_iff hin).mp ⟨G', hG'⟩)

/-- One rank of eight is enough, and a king beside the board is written. -/
theorem fen_parse_malformed :
    ¬ RejectsMalformed "8 w - - 0 1".toList ∧ ¬ RejectsMalformed "8k w - - 0 1".toList := by
  constructor
  · intro h
    obtain ⟨tok, htok, hplacement⟩ := (h .zero).2 _ rfl
    have hfirst : some ['8'] = some tok := htok
    obtain rfl := Option.some.inj hfirst
    cases hplacement.eight_ranks
  · intro h
    exact (h .zero).1 rfl

end MultiplayChess
