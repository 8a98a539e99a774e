import MultiplayChess.Client.Replay

/-! # Names in saved games

    `write_pgn` puts the names of the players into the tags as they are,
    and `load_moves` takes the first empty line for the end of the tags.
    Names should have no say in the moves that are read back.  But the
    opponent's name is whatever the other client has sent: behind two line
    breaks in a row the rest of the tags is read as moves. -/

namespace MultiplayChess

open Scanning

/-! ## States that differ in the names -/

/-- `MAX_RESULT_STR`. -/
def max_result_str : Nat := 8

/-- The texts that are saved are within their buffers. -/
structure FitsBuffers (state : GameState) : Prop where
  local_player : state.local_player.length < max_player_name_length
  opponent_player : state.opponent_player.length < max_player_name_length
  count : state.pgn_moves.length ≤ max_pgn_moves
  move : ∀ m ∈ state.pgn_moves, m.length < max_coord_str
  result : state.pgn_result.length < max_result_str

/-- The states differ in the names at most. -/
def EqualButNames (state state' : GameState) : Prop :=
  state' = { state with
    local_player := state'.local_player
    opponent_player := state'.opponent_player }

section equal

variable {state state' : GameState}

theorem EqualButNames.symm (h : EqualButNames state state') : EqualButNames state' state := by
  unfold EqualButNames at h ⊢
  rw [h]

theorem EqualButNames.pgn_moves (h : EqualButNames state state') :
    state'.pgn_moves = state.pgn_moves := by
  rw [h]

theorem EqualButNames.pgn_result (h : EqualButNames state state') :
    state'.pgn_result = state.pgn_result := by
  rw [h]

end equal

/-- No name has two line breaks in a row. -/
structure PlainNames (state : GameState) : Prop where
  local_player : ¬ "\n\n".toList <:+: state.local_player
  opponent_player : ¬ "\n\n".toList <:+: state.opponent_player

/-- The tags of the players. -/
def player_tags (state : GameState) : List (CString × CString) :=
  [("White".toList,
      if state.local_team = .white then state.local_player else state.opponent_player),
    ("Black".toList,
      if state.local_team = .white then state.opponent_player else state.local_player)]

/-- What is read as moves of the tags: the words behind the first empty line
    in them. -/
def left_behind (state : GameState) : List CString :=
  moves_in (left_over (player_tags state ++ [("Result".toList, state.pgn_result)]))

/-! ## Texts and the moves in them -/

theorem moves_in_split {t : CString} (hends : Ends isspace t) (s : CString) :
    moves_in (s ++ t) = moves_in s ++ moves_in t := by
  unfold moves_in
  rw [words_split (by decide) hends, List.filter_append, List.map_append]

theorem moves_in_space {c : Char} (hc : isspace c = true) (s : CString) :
    moves_in (c :: s) = moves_in s := by
  unfold moves_in
  rw [words_space hc]

theorem moves_in_sep {c : Char} (hc : isspace c = true) (s t : CString) :
    moves_in (s ++ c :: t) = moves_in s ++ moves_in t := by
  rw [moves_in_split (ends_cons hc t), moves_in_space hc]

theorem moves_in_nil : moves_in [] = [] := by
  unfold moves_in
  rw [words_nil]
  rfl

theorem moves_in_end (s : CString) : moves_in (s ++ ['\n']) = moves_in s := by
  rw [moves_in_sep (by decide), moves_in_nil, List.append_nil]

theorem moves_in_length_le (s : CString) : (moves_in s).length ≤ s.length := by
  unfold moves_in
  rw [List.length_map]
  exact Nat.le_trans (List.length_filter_le ..) (words_length_le s)

theorem length_le_of_mem_moves_in {s m : CString} (h : m ∈ moves_in s) : m.length ≤ s.length := by
  obtain ⟨w, hw, rfl⟩ := List.mem_map.mp h
  refine Nat.le_trans ?_ (length_le_of_mem_words (List.mem_of_mem_filter hw))
  unfold strncpy
  exact List.length_take_le' ..

/-! ## The tag section -/

/-- The tag section ends with the end of a line. -/
theorem tag_section_end (tags : List (CString × CString)) :
    ∃ s, tag_section tags = s ++ ['\n'] := by
  induction tags with
  | nil => exact ⟨[], rfl⟩
  | cons t tags ih =>
    obtain ⟨s, hs⟩ := ih
    exact ⟨tag_line t.1 t.2 ++ s, by rw [List.append_assoc, ← hs]; rfl⟩

/-- So does what is left over of it. -/
theorem left_over_end (tags : List (CString × CString)) :
    left_over tags = [] ∨ ∃ s, left_over tags = s ++ ['\n'] := by
  induction tags with
  | nil => exact .inl rfl
  | cons t tags ih =>
    cases hblank : behind_blank '\n' t.2 with
    | some r =>
      obtain ⟨s, hs⟩ := tag_section_end tags
      refine .inr ⟨r ++ "\"]\n".toList ++ s, ?_⟩
      rw [left_over_some hblank, hs, List.append_assoc _ s]
    | none =>
      rw [left_over_none hblank]
      exact ih

/-- What is left over is read before what follows the tags. -/
theorem moves_in_left_over (tags : List (CString × CString)) (t : CString) :
    moves_in (left_over tags ++ t) = moves_in (left_over tags) ++ moves_in t := by
  rcases left_over_end tags with hnil | ⟨s, hs⟩
  · rw [hnil, moves_in_nil]
    rfl
  · rw [hs, moves_in_end, List.append_assoc, List.singleton_append, moves_in_sep (by decide)]

/-- The last tags are at the end of the tag section. -/
theorem tag_section_append (tags more : List (CString × CString)) :
    ∃ s, '\n' :: tag_section (tags ++ more) = s ++ '\n' :: tag_section more := by
  induction tags with
  | nil => exact ⟨[], rfl⟩
  | cons t tags ih =>
    obtain ⟨s, hs⟩ := ih
    refine ⟨'\n' :: '[' :: t.1 ++ " \"".toList ++ t.2 ++ "\"]".toList ++ s, ?_⟩
    rw [List.append_assoc _ s, ← hs]
    show '\n' :: (('[' :: t.1 ++ " \"".toList ++ t.2 ++ ("\"]".toList ++ ['\n'])) ++
      tag_section (tags ++ more)) = _
    simp only [List.append_assoc, List.cons_append, List.nil_append]

/-- A blank line in a value leaves over all the tags behind. -/
theorem left_over_blank {tags : List (CString × CString)}
    (hblank : ∃ t ∈ tags, behind_blank '\n' t.2 ≠ none) (more : List (CString × CString)) :
    ∃ s, left_over (tags ++ more) = s ++ '\n' :: tag_section more := by
  induction tags with
  | nil =>
    obtain ⟨t, ht, _⟩ := hblank
    cases ht
  | cons t tags ih =>
    cases hfirst : behind_blank '\n' t.2 with
    | some r =>
      obtain ⟨s, hs⟩ := tag_section_append tags more
      refine ⟨r ++ "\"]".toList ++ s, ?_⟩
      rw [List.cons_append, left_over_some hfirst, List.append_assoc _ s, ← hs]
      show r ++ ("\"]".toList ++ ['\n']) ++ tag_section (tags ++ more) = _
      simp only [List.append_assoc, List.singleton_append]
    | none =>
      rw [List.cons_append, left_over_none hfirst]
      apply ih
      obtain ⟨u, hu, hsome⟩ := hblank
      rcases List.mem_cons.mp hu with rfl | hu
      · exact absurd hfirst hsome
      · exact ⟨u, hu, hsome⟩

theorem left_over_length_le (tags : List (CString × CString)) :
    (left_over tags).length ≤ (tag_section tags).length := by
  induction tags with
  | nil => exact Nat.zero_le _
  | cons t tags ih =>
    show (left_over (t :: tags)).length ≤ (tag_line t.1 t.2 ++ tag_section tags).length
    rw [List.length_append]
    cases hfirst : behind_blank '\n' t.2 with
    | some r =>
      obtain ⟨pre, hpre⟩ := behind_blank_some hfirst
      unfold tag_line
      rw [left_over_some hfirst, hpre]
      simp only [List.length_append, List.length_cons]
      omega
    | none =>
      rw [left_over_none hfirst]
      exact Nat.le_trans ih (Nat.le_add_left ..)

/-! ## The mark

    The tag of the result is behind the names, and no move looks like it. -/

def mark : CString := "[Result".toList

theorem moves_in_token {m : CString} (hm : Token m) : moves_in m = [m] := by
  have hwords : words isspace 31 m = [m] := by
    have happend := hm.words_append (s := []) rfl
    rwa [List.append_nil, words_nil] at happend
  unfold moves_in
  rw [hwords, List.filter_cons_of_pos (by rw [decide_eq_true_eq]; exact hm.no_dot)]
  have hshort := hm.short
  exact congrArg (fun m => [m]) (List.take_of_length_le (by omega))

theorem mark_token : Token mark where
  ne := List.cons_ne_nil _ _
  word := by
    have hall : mark.all (fun c => isspace c == false) = true := rfl
    intro c hc
    exact beq_iff_eq.mp (List.all_eq_true.mp hall c hc)
  no_dot := by decide
  short := by decide

/-- The line of the result begins with the mark, and what is left over of it
    is behind. -/
theorem result_section (result : CString) : ∃ s, tag_section [("Result".toList, result)] =
    mark ++ ' ' :: (s ++ '\n' :: left_over [("Result".toList, result)]) := by
  have htags : tag_section [("Result".toList, result)] =
      mark ++ ' ' :: '"' :: (result ++ "\"]\n\n".toList) := by
    show '[' :: "Result".toList ++ " \"".toList ++ result ++ "\"]\n".toList ++ ['\n'] = _
    simp only [List.append_assoc, List.cons_append]
    rfl
  rw [htags]
  cases hresult : behind_blank '\n' result with
  | some r =>
    obtain ⟨pre, hpre⟩ := behind_blank_some hresult
    refine ⟨'"' :: pre ++ ['\n'], ?_⟩
    rw [left_over_some hresult, hpre]
    simp only [List.append_assoc, List.cons_append]
    rfl
  | none =>
    refine ⟨'"' :: result ++ "\"]\n".toList, ?_⟩
    rw [left_over_none hresult]
    simp only [List.append_assoc, List.cons_append]
    rfl

theorem result_moves (result : CString) : ∃ q, mark ∈ q ∧
    moves_in (tag_section [("Result".toList, result)]) =
      q ++ moves_in (left_over [("Result".toList, result)]) := by
  obtain ⟨s, hs⟩ := result_section result
  refine ⟨mark :: moves_in s, List.mem_cons_self .., ?_⟩
  rw [hs, moves_in_sep (by decide), moves_in_sep (by decide), moves_in_token mark_token]
  rfl

theorem moves_in_number {n : Nat} (hn : n < 10 ^ 20) (s : CString) :
    moves_in (decimal n ++ ". ".toList ++ s) = moves_in s := by
  have hdot : '.' ∈ decimal (n : Int) ++ ['.'] :=
    List.mem_append_right _ (List.mem_singleton_self _)
  unfold moves_in
  rw [words_number hn, List.filter_cons_of_neg (by rw [decide_eq_true_eq]; exact fun h => h hdot)]

/-- The moves are shorter than the mark. -/
theorem length_lt_of_mem_move_text : ∀ {ms : List CString} {i : Nat},
    (∀ m ∈ ms, m.length < max_coord_str) → i + ms.length ≤ max_moves →
    ∀ w ∈ moves_in (move_text i ms), w.length < max_coord_str := by
  intro ms
  induction ms with
  | nil =>
    intro i _ _ w hw
    have hnil : moves_in (move_text i []) = [] := by
      unfold move_text
      split
      · exact (moves_in_end []).trans moves_in_nil
      · exact moves_in_nil
    rw [hnil] at hw
    cases hw
  | cons m ms ih =>
    intro i hshort hlen w hw
    have hm := hshort m (List.mem_cons_self ..)
    rw [List.length_cons] at hlen
    have hrest := @ih (i + 1) (fun m' hm' => hshort m' (List.mem_cons_of_mem _ hm')) (by omega)
    -- the words are those of the move and those of the rest
    have hsplit : moves_in (move_text i (m :: ms)) =
        moves_in m ++ moves_in (move_text (i + 1) ms) := by
      rw [show move_text i (m :: ms) =
        (if i % 2 = 0 then decimal (i / 2 + 1 : Nat) ++ ". ".toList ++ m
          else " ".toList ++ m ++ "\n".toList) ++ move_text (i + 1) ms from rfl]
      by_cases hi : i % 2 = 0
      · have hnumber : i / 2 + 1 < 10 ^ 20 := by
          unfold max_moves at hlen
          omega
        rw [if_pos hi, List.append_assoc, moves_in_number hnumber,
          moves_in_split (ends_move_text (by omega) ms)]
      · rw [if_neg hi, List.append_assoc, List.append_assoc]
        show moves_in (' ' :: (m ++ '\n' :: move_text (i + 1) ms)) = _
        rw [moves_in_space (by decide), moves_in_sep (by decide)]
    rw [hsplit] at hw
    rcases List.mem_append.mp hw with hw | hw
    · exact Nat.lt_of_le_of_lt (length_le_of_mem_moves_in hw) hm
    · exact hrest w hw

/-! ## What is read back -/

section read

variable {state state' : GameState}

theorem FitsBuffers.mark_not_mem (h : FitsBuffers state) :
    mark ∉ moves_in (move_text 0 state.pgn_moves) := by
  intro hmem
  have hlt := length_lt_of_mem_move_text h.move (by rw [Nat.zero_add]; exact h.count) mark hmem
  exact absurd hlt (by decide)

/-- The names as values of tags. -/
theorem mem_player_tags (P : CString → Prop) :
    (∀ t ∈ player_tags state, P t.2) ↔ P state.local_player ∧ P state.opponent_player := by
  unfold player_tags
  rw [List.forall_mem_cons, List.forall_mem_cons]
  by_cases hwhite : state.local_team = .white
  · simp [hwhite]
  · simp [hwhite, and_comm]

theorem plain_names_iff :
    PlainNames state ↔ ∀ t ∈ player_tags state, behind_blank '\n' t.2 = none := by
  rw [mem_player_tags (fun name => behind_blank '\n' name = none), behind_blank_eq_none_iff,
    behind_blank_eq_none_iff]
  constructor
  · intro h
    exact ⟨h.local_player, h.opponent_player⟩
  · intro h
    exact ⟨h.1, h.2⟩

/-- The moves read back: those left behind by the tags, and those of the
    game. -/
theorem load_moves_saved (date : Date) (h : FitsBuffers state) :
    load_moves (some (write_pgn date state)) =
      (left_behind state ++ moves_in (move_text 0 state.pgn_moves)).take max_moves := by
  have hsize : max_player_name_length = 32 ∧ max_result_str = 8 := ⟨rfl, rfl⟩
  have hlocal := h.local_player
  have hopponent := h.opponent_player
  have hresult := h.result
  have hfit := pgn_tags_fit date (show state.local_player.length ≤ 200 by omega)
    (show state.opponent_player.length ≤ 200 by omega) (show state.pgn_result.length ≤ 200 by omega)
  have htags : pgn_tags date state = [("Event".toList, "Multiplay Chess".toList),
      ("Site".toList, "Local".toList), ("Date".toList, date.text), ("Round".toList, "1".toList)] ++
      (player_tags state ++ [("Result".toList, state.pgn_result)]) := rfl
  have hleft : left_over (pgn_tags date state) =
      left_over (player_tags state ++ [("Result".toList, state.pgn_result)]) := by
    rw [htags]
    apply left_over_append
    simp only [List.forall_mem_cons]
    exact ⟨behind_blank_of_not_mem (by decide), behind_blank_of_not_mem (by decide),
      behind_blank_of_not_mem date.one_line.1, behind_blank_of_not_mem (by decide), nofun⟩
  rw [load_moves_eq, write_pgn_eq, skip_tags_section hfit, moves_in_left_over, hleft]
  rfl

/-- Plain names leave nothing behind. -/
theorem left_behind_plain (h : PlainNames state) :
    left_behind state = moves_in (left_over [("Result".toList, state.pgn_result)]) := by
  unfold left_behind
  rw [left_over_append (plain_names_iff.mp h)]

/-- Others leave at least the tag of the result behind. -/
theorem left_behind_blank (h : ¬ PlainNames state) :
    ∃ s, left_behind state = s ++ moves_in (tag_section [("Result".toList, state.pgn_result)]) := by
  have hblank : ∃ t ∈ player_tags state, behind_blank '\n' t.2 ≠ none := by
    rw [plain_names_iff] at h
    push Not at h
    exact h
  obtain ⟨s, hs⟩ := left_over_blank hblank [("Result".toList, state.pgn_result)]
  refine ⟨moves_in s, ?_⟩
  unfold left_behind
  rw [hs, moves_in_sep (by decide)]

theorem tag_line_length (tag value : CString) :
    (tag_line tag value).length = tag.length + value.length + 6 := by
  unfold tag_line
  simp only [List.length_append, List.length_cons]
  have hquote : " \"".toList.length = 2 := rfl
  have hclose : "\"]\n".toList.length = 3 := rfl
  omega

theorem FitsBuffers.left_behind_length (h : FitsBuffers state) :
    (left_behind state).length ≤ max_moves := by
  have hnames : ∀ t ∈ player_tags state, t.2.length < max_player_name_length :=
    (mem_player_tags (fun name => name.length < max_player_name_length)).mpr
      ⟨h.local_player, h.opponent_player⟩
  unfold player_tags at hnames
  simp only [List.forall_mem_cons] at hnames
  obtain ⟨hwhite, hblack, _⟩ := hnames
  have hresult := h.result
  have htags : ("White".toList.length = 5 ∧ "Black".toList.length = 5 ∧
      "Result".toList.length = 6) ∧ "\n".toList.length = 1 := by decide
  have hsection : (tag_section (player_tags state ++
      [("Result".toList, state.pgn_result)])).length ≤ max_moves := by
    unfold player_tags max_moves
    simp only [List.cons_append, List.nil_append, tag_section, List.length_append, tag_line_length]
    unfold max_player_name_length at hwhite hblack
    unfold max_result_str at hresult
    omega
  exact Nat.le_trans (moves_in_length_le _) (Nat.le_trans (left_over_length_le _) hsection)

/-- **A name with a blank line** adds to the moves of a state with plain
    names. -/
theorem load_moves_blank_ne (hequal : EqualButNames state state') (hplain : PlainNames state)
    (hblank : ¬ PlainNames state') (h : FitsBuffers state) (h' : FitsBuffers state')
    (date date' : Date) :
    load_moves (some (write_pgn date state)) ≠ load_moves (some (write_pgn date' state')) := by
  obtain ⟨q, hq, hsection⟩ := result_moves state.pgn_result
  obtain ⟨s, hs⟩ := left_behind_blank hblank
  rw [hequal.pgn_result, hsection] at hs
  have hlen := h'.left_behind_length
  rw [hs] at hlen
  rw [load_moves_saved date h, load_moves_saved date' h', left_behind_plain hplain, hs,
    hequal.pgn_moves]
  exact take_ne_of_mark hq h.mark_not_mem hlen

/-- Two names with blank lines: what they leave behind counts. -/
theorem load_moves_blank_iff (hequal : EqualButNames state state') (hblank : ¬ PlainNames state)
    (hblank' : ¬ PlainNames state') (h : FitsBuffers state) (h' : FitsBuffers state')
    (date date' : Date) :
    load_moves (some (write_pgn date state)) = load_moves (some (write_pgn date' state')) ↔
      left_behind state = left_behind state' := by
  rw [load_moves_saved date h, load_moves_saved date' h', hequal.pgn_moves]
  constructor
  · intro hload
    obtain ⟨q, hq, hsection⟩ := result_moves state.pgn_result
    obtain ⟨s, hs⟩ := left_behind_blank hblank
    obtain ⟨s', hs'⟩ := left_behind_blank hblank'
    rw [hequal.pgn_result] at hs'
    have hlen := h.left_behind_length
    have hlen' := h'.left_behind_length
    rw [hs, hs', List.append_assoc, List.append_assoc] at hload
    rw [hs] at hlen
    rw [hs'] at hlen'
    have hmark : mark ∈ moves_in (tag_section [("Result".toList, state.pgn_result)]) := by
      rw [hsection]
      exact List.mem_append_left _ hq
    rw [hs, hs', append_cancel_of_mark hmark h.mark_not_mem hlen hlen' hload]
  · intro hleft
    rw [hleft]

/-- **Names in saved games.** Two states that differ in the names only are
    read back with the same moves exactly if their names have no blank
    line, or if some have and leave the same words behind. -/
theorem load_moves_names_iff (hequal : EqualButNames state state') (h : FitsBuffers state)
    (h' : FitsBuffers state') (date date' : Date) :
    load_moves (some (write_pgn date state)) = load_moves (some (write_pgn date' state')) ↔
      PlainNames state ∧ PlainNames state' ∨
        ¬ PlainNames state ∧ ¬ PlainNames state' ∧ left_behind state = left_behind state' := by
  by_cases hplain : PlainNames state
  · by_cases hplain' : PlainNames state'
    · apply iff_of_true ?_ (.inl ⟨hplain, hplain'⟩)
      rw [load_moves_saved date h, load_moves_saved date' h', left_behind_plain hplain,
        left_behind_plain hplain', hequal.pgn_moves, hequal.pgn_result]
    · apply iff_of_false (load_moves_blank_ne hequal hplain hplain' h h' date date')
      rintro (⟨_, hnot⟩ | ⟨hnot, _⟩)
      · exact hplain' hnot
      · exact hnot hplain
  · by_cases hplain' : PlainNames state'
    · apply iff_of_false (Ne.symm (load_moves_blank_ne hequal.symm hplain' hplain h' h date' date))
      rintro (⟨hnot, _⟩ | ⟨_, hnot, _⟩)
      · exact hplain hnot
      · exact hnot hplain'
    · rw [load_moves_blank_iff hequal hplain hplain' h h' date date']
      constructor
      · intro hleft
        exact .inr ⟨hplain, hplain', hleft⟩
      · rintro (⟨hnot, _⟩ | ⟨_, _, hleft⟩)
        · exact absurd hnot hplain
        · exact hleft

end read

/-! ## Opponents -/

/-- A game against an opponent of any name, which is cut to its buffer. -/
def against (opponent_name : CString) : GameState :=
  { unfinished_game with opponent_player := strncpy max_player_name_length opponent_name }

theorem against_equal (name name' : CString) : EqualButNames (against name) (against name') := rfl

theorem against_fits (name : CString) : FitsBuffers (against name) where
  local_player := show unfinished_game.local_player.length < max_player_name_length by decide
  opponent_player := by
    show (name.take 31).length < 32
    rw [List.length_take]
    omega
  count := show unfinished_game.pgn_moves.length ≤ max_pgn_moves by decide
  move := show ∀ m ∈ unfinished_game.pgn_moves, m.length < max_coord_str by decide
  result := show unfinished_game.pgn_result.length < max_result_str by decide

theorem against_plain {name : CString}
    (h : behind_blank '\n' (strncpy max_player_name_length name) = none) :
    PlainNames (against name) where
  local_player := behind_blank_eq_none_iff.mp rfl
  opponent_player := behind_blank_eq_none_iff.mp h

/-- Names without line breaks do not matter. -/
theorem load_moves_names_iff_ann_carl :
    load_moves (some (write_pgn midsummer (against "ann".toList))) =
      load_moves (some (write_pgn midsummer (against "carl".toList))) := by
  apply (load_moves_names_iff (against_equal _ _) (against_fits _) (against_fits _) _ _).mpr
  exact .inl ⟨against_plain rfl, against_plain rfl⟩

/-- An opponent whose name has two line breaks in it adds to the moves. -/
theorem names_change_moves :
    ¬ ∀ (date date' : Date) (state state' : GameState), EqualButNames state state' →
      FitsBuffers state → FitsBuffers state' →
      load_moves (some (write_pgn date state)) = load_moves (some (write_pgn date' state')) := by
  intro hall
  have hequal := against_equal "ann".toList "ann\n\nd2d4".toList
  have hblank : ¬ PlainNames (against "ann\n\nd2d4".toList) := by
    intro h
    exact h.opponent_player ⟨"ann".toList, "d2d4".toList, rfl⟩
  exact load_moves_blank_ne hequal (against_plain rfl) hblank (against_fits _) (against_fits _)
    midsummer midsummer (hall _ _ _ _ hequal (against_fits _) (against_fits _))

end MultiplayChess
