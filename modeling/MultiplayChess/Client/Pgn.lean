import MultiplayChess.Client.Handlers
import MultiplayChess.Framework.Scanning

/-! # Saved games

    `write_pgn` of `client/pgn_save.c` and `load_moves` of
    `client/replay.c`, and that the second reads back the moves the first
    has written.  A file is the text in it.  The two functions share no
    code: the writer puts out lines, the reader looks for an empty line and
    takes the rest apart into words. -/

namespace MultiplayChess

open Scanning

/-! ## Writing -/

/-- What `localtime_r` makes of a time stamp, as far as the date tag needs
    it.  The buffer of the date has room for a year of four digits. -/
structure Date where
  year : Nat
  month : Nat
  day : Nat
  year_lt : year < 10000
  month_lt : month < 100
  day_lt : day < 100

/-- `%m` and `%d`. -/
def two_digits (n : Nat) : CString :=
  [Nat.digitChar (n / 10), Nat.digitChar (n % 10)]

/-- `strftime` with the format `"%Y.%m.%d"`. -/
def Date.text (date : Date) : CString :=
  decimal date.year ++ '.' :: two_digits date.month ++ '.' :: two_digits date.day

/-- The line of a tag. -/
def tag_line (tag value : CString) : CString :=
  '[' :: tag ++ " \"".toList ++ value ++ "\"]\n".toList

/-- The moves from number `i` on. -/
def move_text (i : Nat) : List CString → CString
  -- a last line with one move is closed
  | [] => if i % 2 ≠ 0 then "\n".toList else []
  | m :: ms =>
    (if i % 2 = 0 then decimal (i / 2 + 1 : Nat) ++ ". ".toList ++ m
      else " ".toList ++ m ++ "\n".toList) ++ move_text (i + 1) ms

/-- `write_pgn`: the text of the file. -/
def write_pgn (date : Date) (state : GameState) : CString :=
  tag_line "Event".toList "Multiplay Chess".toList ++
  (tag_line "Site".toList "Local".toList ++
  (tag_line "Date".toList date.text ++
  (tag_line "Round".toList "1".toList ++
  (tag_line "White".toList
    (if state.local_team = .white then state.local_player else state.opponent_player) ++
  (tag_line "Black".toList
    (if state.local_team = .white then state.opponent_player else state.local_player) ++
  (tag_line "Result".toList state.pgn_result ++
  ("\n".toList ++ move_text 0 state.pgn_moves)))))))

/-! ## Reading -/

/-- `MAX_MOVES`. -/
def max_moves : Nat := 512

/-- `MAX_SAN`. -/
def max_san : Nat := 16

/-- `fgets` with a buffer of `size` bytes: the line and the rest of the
    file. -/
def fgets (size : Nat) (fp : CString) : Option (CString × CString) :=
  if fp = [] then none
  else some (line '\n' (size - 1) fp, fp.drop (line '\n' (size - 1) fp).length)

/-- `fscanf` with the format `"%31s"`. -/
def fscanf_token (fp : CString) : Option (CString × CString) :=
  if word isspace 31 fp = [] then none
  else some (word isspace 31 fp, behind isspace 31 fp)

theorem fgets_length_lt {size : Nat} {fp : CString} {r : CString × CString}
    (h : fgets (size + 2) fp = some r) : r.2.length < fp.length := by
  unfold fgets at h
  split at h
  · cases h
  · rename_i hne
    cases h
    have hpos : 0 < (line '\n' (size + 1) fp).length := line_pos hne
    have hlen := List.length_pos_of_ne_nil hne
    show (fp.drop (line '\n' (size + 1) fp).length).length < fp.length
    rw [List.length_drop]
    omega

theorem fscanf_token_length_lt {fp : CString} {r : CString × CString}
    (h : fscanf_token fp = some r) : r.2.length < fp.length := by
  unfold fscanf_token at h
  split at h
  · cases h
  · rename_i hne
    cases h
    exact behind_length_lt hne

/-- The tags are over at the first line that begins with its end. -/
def skip_tags (fp : CString) : CString :=
  match _h : fgets 512 fp with
  | none => fp
  | some r => if r.1.head? = some '\n' then r.2 else skip_tags r.2
termination_by fp.length
decreasing_by exact fgets_length_lt ‹_›

/-- Collect the words that are not move numbers. -/
def read_moves (count : Nat) (fp : CString) : List CString :=
  match _h : fscanf_token fp with
  | none => []
  | some r =>
    -- the word is read before the count is looked at
    if count < max_moves then
      if '.' ∈ r.1 then read_moves count r.2
      else strncpy max_san r.1 :: read_moves (count + 1) r.2
    else []
termination_by fp.length
decreasing_by all_goals exact fscanf_token_length_lt ‹_›

/-- `load_moves`: no file gives no moves. -/
def load_moves : Option CString → List CString
  | none => []
  | some fp => read_moves 0 (skip_tags fp)

/-- One turn of the loop over the tags. -/
theorem skip_tags_eq (fp : CString) : skip_tags fp =
    match fgets 512 fp with
    | none => fp
    | some r => if r.1.head? = some '\n' then r.2 else skip_tags r.2 := by
  rw [skip_tags]
  split
  · rename_i hnone
    rw [hnone]
  · rename_i r hsome
    rw [hsome]

/-- One turn of the loop over the words. -/
theorem read_moves_cons (count : Nat) (fp : CString) : read_moves count fp =
    match fscanf_token fp with
    | none => []
    | some r =>
      if count < max_moves then
        if '.' ∈ r.1 then read_moves count r.2
        else strncpy max_san r.1 :: read_moves (count + 1) r.2
      else [] := by
  rw [read_moves]
  split
  · rename_i hnone
    rw [hnone]
  · rename_i r hsome
    rw [hsome]

/-- The reading loop in terms of the words of the text. -/
theorem read_moves_eq (fp : CString) : ∀ {count : Nat}, count ≤ max_moves →
    read_moves count fp = (((words isspace 31 fp).filter fun w => '.' ∉ w).take
      (max_moves - count)).map (strncpy max_san) := by
  -- as the words are read: by induction on the length of what is left
  induction hlen : fp.length using Nat.strong_induction_on generalizing fp with
  | _ n ih =>
  intro count hcount
  rw [read_moves_cons, words]
  cases htoken : fscanf_token fp with
  | none =>
    have hword : word isspace 31 fp = [] := by
      unfold fscanf_token at htoken
      split at htoken
      · assumption
      · cases htoken
    rw [if_pos hword, List.filter_nil, List.take_nil, List.map_nil]
  | some r =>
    have hlt := fscanf_token_length_lt htoken
    unfold fscanf_token at htoken
    split at htoken
    · cases htoken
    · rename_i hword
      cases htoken
      rw [if_neg hword]
      simp only at hlt ⊢
      have hrest : ∀ {count : Nat}, count ≤ max_moves → _ :=
        ih _ (hlen ▸ hlt) (behind isspace 31 fp) rfl
      split
      · rename_i hmore
        split
        · rename_i hdot
          rw [List.filter_cons_of_neg (by simpa using hdot)]
          exact hrest hcount
        · rename_i hdot
          rw [List.filter_cons_of_pos (by simpa using hdot), hrest hmore]
          obtain ⟨k, hk⟩ : ∃ k, max_moves - count = k + 1 := ⟨max_moves - count - 1, by omega⟩
          rw [hk, List.take_succ_cons, List.map_cons, show max_moves - (count + 1) = k by omega]
      · rename_i hfull
        rw [show max_moves - count = 0 by omega, List.take_zero, List.map_nil]

/-! ## The tag section -/

/-- The texts that stay on one line of the file and in its buffer. -/
def OneLine (s : CString) : Prop :=
  '\n' ∉ s ∧ s.length ≤ 200

/-- One line: it ends the tags if it is empty. -/
theorem skip_tags_line {l : CString} (hend : '\n' ∉ l) (hlen : l.length < 511) (fp : CString) :
    skip_tags (l ++ '\n' :: fp) = if l = [] then fp else skip_tags fp := by
  have hread : fgets 512 (l ++ '\n' :: fp) = some (l ++ ['\n'], fp) := by
    unfold fgets
    have hne : l ++ '\n' :: fp ≠ [] := List.append_ne_nil_of_right_ne_nil l (List.cons_ne_nil _ _)
    rw [if_neg hne, line_append hend hlen, List.append_cons l '\n' fp, List.drop_left]
  rw [skip_tags_eq, hread]
  cases l with
  | nil => rfl
  | cons c l =>
    have hc : c ≠ '\n' := by
      intro heq
      apply hend
      rw [heq]
      exact List.mem_cons_self ..
    rw [if_neg (List.cons_ne_nil c l)]
    exact if_neg fun h => hc (Option.some.inj h)

/-- Lines that fit the buffer: the tags end behind the first blank line,
    if there is one. -/
theorem skip_tags_lines (t : CString) (hlen : t.length < 511) (fp : CString) :
    skip_tags (t ++ '\n' :: fp) =
      match behind_blank '\n' ('\n' :: (t ++ ['\n'])) with
      | some r => r ++ fp
      | none => skip_tags fp := by
  -- line by line
  induction hn : t.length using Nat.strong_induction_on generalizing t with
  | _ n ih =>
  by_cases hstop : '\n' ∈ t
  · obtain ⟨l, t', rfl, hl⟩ := List.eq_append_cons_of_mem hstop
    rw [List.length_append, List.length_cons] at hlen hn
    have hrest := ih t'.length (by omega) t' (by omega) rfl
    rw [List.append_assoc, List.cons_append, skip_tags_line hl (by omega), List.append_assoc,
      List.cons_append]
    cases l with
    | nil =>
      show t' ++ '\n' :: fp = t' ++ ['\n'] ++ fp
      rw [List.append_assoc, List.singleton_append]
    | cons c l =>
      rw [List.mem_cons, not_or] at hl
      rw [if_neg (List.cons_ne_nil c l), List.cons_append,
        behind_blank_stop_cons (Ne.symm hl.1), behind_blank_append_left hl.2]
      exact hrest
  · rw [skip_tags_line hstop hlen]
    cases t with
    | nil => rfl
    | cons c t =>
      rw [List.mem_cons, not_or] at hstop
      rw [if_neg (List.cons_ne_nil c t), List.cons_append,
        behind_blank_stop_cons (Ne.symm hstop.1), behind_blank_append_left hstop.2]
      rfl

/-- A tag with its line: what a blank line in the value leaves of it. -/
theorem skip_tags_tag {tag value : CString} (htag : OneLine tag) (hvalue : value.length ≤ 200)
    (fp : CString) : skip_tags (tag_line tag value ++ fp) =
      match behind_blank '\n' value with
      | some r => r ++ "\"]\n".toList ++ fp
      | none => skip_tags fp := by
  -- the line without its end
  let t : CString := ('[' :: tag ++ " \"".toList) ++ (value ++ "\"]".toList)
  have hline : tag_line tag value ++ fp = t ++ '\n' :: fp := by
    show ('[' :: tag ++ " \"".toList ++ value ++ ("\"]".toList ++ ['\n'])) ++ fp = _
    simp only [t, List.append_assoc, List.cons_append, List.nil_append]
  have hlen : t.length < 511 := by
    have htag_len := htag.2
    simp only [t, List.length_append, List.length_cons]
    have hquote : " \"".toList.length = 2 := rfl
    have hclose : "\"]".toList.length = 2 := rfl
    omega
  have hopen : '\n' ∉ tag ++ " \"".toList := by
    rw [List.mem_append, not_or]
    exact ⟨htag.1, by decide⟩
  have hblank : behind_blank '\n' ('\n' :: (t ++ ['\n'])) =
      behind_blank '\n' (value ++ '"' :: "]\n".toList) := by
    have hsplit : t ++ ['\n'] =
        '[' :: ((tag ++ " \"".toList) ++ (value ++ '"' :: "]\n".toList)) := by
      show ('[' :: tag ++ " \"".toList) ++ (value ++ "\"]".toList) ++ ['\n'] = _
      simp only [List.append_assoc, List.cons_append]
      rfl
    rw [hsplit, behind_blank_stop_cons (by decide), behind_blank_append_left hopen]
  rw [hline, skip_tags_lines t hlen, hblank, behind_blank_append_cons (by decide)]
  cases behind_blank '\n' value with
  | some r => rfl
  | none => rfl

/-- The tag section: a line for each tag, and an empty one. -/
def tag_section : List (CString × CString) → CString
  | [] => "\n".toList
  | (tag, value) :: tags => tag_line tag value ++ tag_section tags

/-- What a blank line in one of the values leaves of the tag section. -/
def left_over : List (CString × CString) → CString
  | [] => []
  | (_, value) :: tags =>
    match behind_blank '\n' value with
    | some r => r ++ "\"]\n".toList ++ tag_section tags
    | none => left_over tags

theorem left_over_some {t : CString × CString} {r : CString}
    (h : behind_blank '\n' t.2 = some r) (tags : List (CString × CString)) :
    left_over (t :: tags) = r ++ "\"]\n".toList ++ tag_section tags := by
  unfold left_over
  rw [h]

theorem left_over_none {t : CString × CString} (h : behind_blank '\n' t.2 = none)
    (tags : List (CString × CString)) : left_over (t :: tags) = left_over tags := by
  rw [left_over, h]

/-- **The tags are skipped** up to the first empty line. -/
theorem skip_tags_section {tags : List (CString × CString)}
    (htags : ∀ t ∈ tags, OneLine t.1 ∧ t.2.length ≤ 200) (fp : CString) :
    skip_tags (tag_section tags ++ fp) = left_over tags ++ fp := by
  induction tags with
  | nil => exact (skip_tags_line List.not_mem_nil (by decide) fp).trans (if_pos rfl)
  | cons t tags ih =>
    obtain ⟨htag, hvalue⟩ := htags t (List.mem_cons_self ..)
    show skip_tags (tag_line t.1 t.2 ++ tag_section tags ++ fp) = _
    rw [List.append_assoc, skip_tags_tag htag hvalue]
    cases hblank : behind_blank '\n' t.2 with
    | some r =>
      rw [left_over_some hblank, List.append_assoc]
    | none =>
      rw [left_over_none hblank]
      exact ih fun u hu => htags u (List.mem_cons_of_mem _ hu)

/-- The tags of a saved game. -/
def pgn_tags (date : Date) (state : GameState) : List (CString × CString) :=
  [("Event".toList, "Multiplay Chess".toList), ("Site".toList, "Local".toList),
    ("Date".toList, date.text), ("Round".toList, "1".toList),
    ("White".toList,
      if state.local_team = .white then state.local_player else state.opponent_player),
    ("Black".toList,
      if state.local_team = .white then state.opponent_player else state.local_player),
    ("Result".toList, state.pgn_result)]

theorem write_pgn_eq (date : Date) (state : GameState) :
    write_pgn date state = tag_section (pgn_tags date state) ++ move_text 0 state.pgn_moves := by
  simp only [write_pgn, pgn_tags, tag_section, List.append_assoc]

/-! ## Numbers and dates -/

theorem digit_of_mem_decimal {n : Nat} {c : Char} (h : c ∈ decimal n) : c.isDigit = true := by
  unfold decimal at h
  rw [if_neg (by omega)] at h
  exact Nat.isDigit_of_mem_toDigits (by decide) (by decide) h

theorem decimal_length_le {n k : Nat} (hk : 0 < k) (hn : n < 10 ^ k) : (decimal n).length ≤ k := by
  unfold decimal
  rw [if_neg (by omega)]
  exact (Nat.length_toDigits_le_iff (by decide) hk).mpr hn

theorem two_digits_digit {n : Nat} (hn : n < 100) {c : Char} (h : c ∈ two_digits n) :
    c.isDigit = true := by
  have hdigit : ∀ d < 10, (Nat.digitChar d).isDigit = true := by decide
  unfold two_digits at h
  rcases List.mem_cons.mp h with rfl | h
  · exact hdigit _ (by omega)
  · rw [List.mem_singleton.mp h]
    exact hdigit _ (by omega)

theorem Date.one_line (date : Date) : OneLine date.text := by
  have hdigits : ∀ {s : CString}, (∀ c ∈ s, c.isDigit = true) → '\n' ∉ s := by
    intro s hs hmem
    have := hs _ hmem
    cases this
  constructor
  · unfold Date.text
    simp only [List.mem_append, List.mem_cons, not_or]
    exact ⟨⟨hdigits fun c hc => digit_of_mem_decimal hc, by decide,
      hdigits fun c hc => two_digits_digit date.month_lt hc⟩, by decide,
      hdigits fun c hc => two_digits_digit date.day_lt hc⟩
  · have hyear : (decimal date.year).length ≤ 4 := decimal_length_le (by decide) date.year_lt
    unfold Date.text
    simp only [List.length_append, List.length_cons, two_digits, List.length_nil]
    omega

/-! ## The moves -/

/-- What is read back as one move: a word that is not taken for a number
    and fits the table of moves. -/
structure Token (m : CString) : Prop where
  ne : m ≠ []
  word : ∀ c ∈ m, isspace c = false
  no_dot : '.' ∉ m
  short : m.length < max_san

/-- Digits and letters come behind the separators and the dot. -/
theorem word_char {c : Char} (h : 46 < c.toNat) : isspace c = false ∧ c ≠ '.' := by
  have hne : ∀ d : Char, d.toNat ≤ 46 → c ≠ d := by
    rintro d hd rfl
    omega
  refine ⟨?_, hne '.' (by decide)⟩
  unfold isspace
  rw [beq_false_of_ne (hne ' ' (by decide)), Bool.false_or, Bool.and_eq_false_iff,
    decide_eq_false_iff_not, decide_eq_false_iff_not]
  right
  omega

theorem isspace_of_digit {c : Char} (h : c.isDigit = true) : isspace c = false := by
  have hlow := (digit_bounds h).1
  exact (word_char (by omega)).1

/-- A number of a pair of moves is read as a word with a dot in it. -/
theorem words_number {n : Nat} (hn : n < 10 ^ 20) (s : CString) :
    words isspace 31 (decimal n ++ ". ".toList ++ s) =
      (decimal n ++ ['.']) :: words isspace 31 s := by
  have hsplit : decimal n ++ ". ".toList ++ s = (decimal n ++ ['.']) ++ ' ' :: s := by
    rw [show ". ".toList = ['.'] ++ [' '] from rfl, ← List.append_assoc,
      List.append_assoc _ [' '] s]
    rfl
  have hword : ∀ c ∈ decimal n ++ ['.'], isspace c = false := by
    intro c hc
    rcases List.mem_append.mp hc with hc | hc
    · exact isspace_of_digit (digit_of_mem_decimal hc)
    · rw [List.mem_singleton.mp hc]
      decide
  have hlen : (decimal n ++ ['.']).length ≤ 31 := by
    have := decimal_length_le (show 0 < 20 by decide) hn
    rw [List.length_append, List.length_singleton]
    omega
  rw [hsplit, words_append (List.append_ne_nil_of_right_ne_nil _ (List.cons_ne_nil _ _)) hword hlen
    (ends_cons (by decide) s), words_space (by decide)]

theorem Token.words_append {m s : CString} (hm : Token m) (hends : Ends isspace s) :
    words isspace 31 (m ++ s) = m :: words isspace 31 s := by
  have hlen : m.length ≤ 31 := by
    have := hm.short
    unfold max_san at this
    omega
  exact Scanning.words_append hm.ne hm.word hlen hends

/-- A move is followed by a blank or by the end of its line. -/
theorem ends_move_text {i : Nat} (hi : i % 2 ≠ 0) (ms : List CString) :
    Ends isspace (move_text i ms) := by
  cases ms with
  | nil =>
    unfold move_text
    rw [if_pos hi]
    exact ends_cons (by decide) _
  | cons m ms =>
    unfold move_text
    rw [if_neg hi]
    exact ends_cons (by decide) _

/-- The words of the move text without the numbers are the moves. -/
theorem words_move_text : ∀ {ms : List CString} {i : Nat}, (∀ m ∈ ms, Token m) →
    i + ms.length ≤ max_moves →
    (words isspace 31 (move_text i ms)).filter (fun w => '.' ∉ w) = ms := by
  intro ms
  induction ms with
  | nil =>
    intro i _ _
    unfold move_text
    split
    · show (words isspace 31 ('\n' :: [])).filter _ = []
      rw [words_space (by decide), words_nil, List.filter_nil]
    · rw [words_nil, List.filter_nil]
  | cons m ms ih =>
    intro i htoken hlen
    have hm := htoken m (List.mem_cons_self ..)
    rw [List.length_cons] at hlen
    have hrest := @ih (i + 1) (fun m' hm' => htoken m' (List.mem_cons_of_mem _ hm')) (by omega)
    have hkeep : (words isspace 31 (move_text (i + 1) ms)).filter (fun w => '.' ∉ w) = ms →
        (m :: words isspace 31 (move_text (i + 1) ms)).filter (fun w => '.' ∉ w) = m :: ms := by
      intro h
      rw [List.filter_cons_of_pos (by rw [decide_eq_true_eq]; exact hm.no_dot), h]
    unfold move_text
    by_cases hi : i % 2 = 0
    · -- a number, a move and what follows the move on the same line
      have hnumber : i / 2 + 1 < 10 ^ 20 := by
        unfold max_moves at hlen
        omega
      have hdot : '.' ∈ decimal ((i / 2 + 1 : Nat) : Int) ++ ['.'] :=
        List.mem_append_right _ (List.mem_singleton_self _)
      rw [if_pos hi, List.append_assoc, words_number hnumber,
        hm.words_append (ends_move_text (by omega) ms),
        List.filter_cons_of_neg (by rw [decide_eq_true_eq]; exact fun h => h hdot)]
      exact hkeep hrest
    · -- a blank, a move and the end of the line
      rw [if_neg hi, List.append_assoc, List.append_assoc]
      show (words isspace 31 (' ' :: (m ++ '\n' :: move_text (i + 1) ms))).filter _ = _
      rw [words_space (by decide), hm.words_append (ends_cons (by decide) _),
        words_space (by decide)]
      exact hkeep hrest

/-- The moves a text is taken for. -/
def moves_in (s : CString) : List CString :=
  ((words isspace 31 s).filter fun w => '.' ∉ w).map (strncpy max_san)

theorem load_moves_eq (fp : CString) :
    load_moves (some fp) = (moves_in (skip_tags fp)).take max_moves := by
  show read_moves 0 (skip_tags fp) = _
  rw [read_moves_eq _ (Nat.zero_le _), List.map_take]
  rfl

/-- The tags and their values fit the buffer of the reader. -/
theorem pgn_tags_fit (date : Date) {state : GameState} (hlocal : state.local_player.length ≤ 200)
    (hopponent : state.opponent_player.length ≤ 200) (hresult : state.pgn_result.length ≤ 200) :
    ∀ t ∈ pgn_tags date state, OneLine t.1 ∧ t.2.length ≤ 200 := by
  have hnames : ∀ tag ∈ ["Event".toList, "Site".toList, "Date".toList, "Round".toList,
      "White".toList, "Black".toList, "Result".toList], OneLine tag := by
    have hall : ∀ tag ∈ ["Event".toList, "Site".toList, "Date".toList, "Round".toList,
        "White".toList, "Black".toList, "Result".toList], '\n' ∉ tag ∧ tag.length ≤ 200 := by
      decide
    exact hall
  have hvalues : ∀ value ∈ (pgn_tags date state).map Prod.snd, value.length ≤ 200 := by
    simp only [pgn_tags, List.map_cons, List.map_nil, List.forall_mem_cons]
    refine ⟨by decide, by decide, date.one_line.2, by decide, ?_, ?_, hresult, nofun⟩
    · split
      · exact hlocal
      · exact hopponent
    · split
      · exact hopponent
      · exact hlocal
  intro t ht
  exact ⟨hnames t.1 (List.mem_map_of_mem ht), hvalues t.2 (List.mem_map_of_mem ht)⟩

/-- Values without a blank line leave nothing over. -/
theorem left_over_append {tags : List (CString × CString)}
    (htags : ∀ t ∈ tags, behind_blank '\n' t.2 = none) (more : List (CString × CString)) :
    left_over (tags ++ more) = left_over more := by
  induction tags with
  | nil => rfl
  | cons t tags ih =>
    rw [List.cons_append, left_over_none (htags t (List.mem_cons_self ..))]
    exact ih fun u hu => htags u (List.mem_cons_of_mem _ hu)

/-- What has been written is read back. -/
theorem load_moves_write_pgn (date : Date) {state : GameState}
    (hlocal : OneLine state.local_player) (hopponent : OneLine state.opponent_player)
    (hresult : OneLine state.pgn_result) (htoken : ∀ m ∈ state.pgn_moves, Token m)
    (hlen : state.pgn_moves.length ≤ max_moves) :
    load_moves (some (write_pgn date state)) = state.pgn_moves := by
  have hlines : ∀ t ∈ pgn_tags date state, behind_blank '\n' t.2 = none := by
    have hvalues : ∀ value ∈ (pgn_tags date state).map Prod.snd, '\n' ∉ value := by
      simp only [pgn_tags, List.map_cons, List.map_nil, List.forall_mem_cons]
      refine ⟨by decide, by decide, date.one_line.1, by decide, ?_, ?_, hresult.1, nofun⟩
      · split
        · exact hlocal.1
        · exact hopponent.1
      · split
        · exact hopponent.1
        · exact hlocal.1
    intro t ht
    exact behind_blank_of_not_mem (hvalues t.2 (List.mem_map_of_mem ht))
  have hskip : skip_tags (write_pgn date state) = move_text 0 state.pgn_moves := by
    rw [write_pgn_eq, skip_tags_section (pgn_tags_fit date hlocal.2 hopponent.2 hresult.2),
      ← List.append_nil (pgn_tags date state), left_over_append hlines]
    rfl
  -- the moves are not cut
  have hcut : ∀ m ∈ state.pgn_moves, strncpy max_san m = m := by
    intro m hm
    have hshort := (htoken m hm).short
    apply List.take_of_length_le
    omega
  have hmoves : moves_in (move_text 0 state.pgn_moves) = state.pgn_moves := by
    unfold moves_in
    rw [words_move_text htoken (by rw [Nat.zero_add]; exact hlen), List.map_congr_left hcut,
      List.map_id']
  rw [load_moves_eq, hskip, hmoves, List.take_of_length_le hlen]

/-! ## What a client saves -/

def is_file (c : Char) : Bool := 'a' ≤ c && c ≤ 'h'

def is_rank (c : Char) : Bool := '1' ≤ c && c ≤ '8'

/-- A move in coordinates, such as `e2e4`. -/
def coordinate_move : CString → Bool
  | [sx, sy, dx, dy] => is_file sx && is_rank sy && is_file dx && is_rank dy
  | _ => false

theorem file_char {c : Char} (h : is_file c = true) : 46 < c.toNat := by
  unfold is_file at h
  rw [Bool.and_eq_true, decide_eq_true_eq, decide_eq_true_eq] at h
  have hle : 'a'.toNat ≤ c.toNat := UInt32.le_iff_toNat_le.mp h.1
  exact Nat.lt_of_lt_of_le (by decide) hle

theorem rank_char {c : Char} (h : is_rank c = true) : 46 < c.toNat := by
  unfold is_rank at h
  rw [Bool.and_eq_true, decide_eq_true_eq, decide_eq_true_eq] at h
  have hle : '1'.toNat ≤ c.toNat := UInt32.le_iff_toNat_le.mp h.1
  exact Nat.lt_of_lt_of_le (by decide) hle

theorem coordinate_move_token {m : CString} (h : coordinate_move m = true) : Token m := by
  unfold coordinate_move at h
  split at h
  · rename_i sx sy dx dy
    simp only [Bool.and_eq_true] at h
    obtain ⟨⟨⟨hsx, hsy⟩, hdx⟩, hdy⟩ := h
    have hchar : ∀ c ∈ [sx, sy, dx, dy], 46 < c.toNat := by
      simp only [List.forall_mem_cons]
      exact ⟨file_char hsx, rank_char hsy, file_char hdx, rank_char hdy, nofun⟩
    exact {
      ne := List.cons_ne_nil _ _
      word := fun c hc => (word_char (hchar c hc)).1
      no_dot := fun hdot => (word_char (hchar '.' hdot)).2 rfl
      short := show 4 < 16 by decide }
  · cases h

/-- The results a client can hold. -/
def pgn_results : List CString :=
  ["*".toList, "1-0".toList, "0-1".toList, "1/2-1/2".toList]

theorem won_by_mem (t : Team) : won_by t ∈ pgn_results := by
  cases t <;> decide

theorem pgn_result_of_mem (state : GameState) : pgn_result_of state ∈ pgn_results := by
  unfold pgn_result_of
  split
  · split
    · exact won_by_mem _
    · exact won_by_mem _
  · split
    · decide
    · split
      · exact won_by_mem _
      · decide

theorem save_result_mem {client : ClientState} (files : FileEnv)
    (h : client.game_state.pgn_result ∈ pgn_results) :
    (client.save files).game_state.pgn_result ∈ pgn_results := by
  unfold ClientState.save save_current_game
  split
  · exact h
  · split
    · exact h
    · exact pgn_result_of_mem _

theorem handle_move_broadcast_result_mem {client : ClientState} (env : ClientEnv)
    (b : MoveBroadcast) (h : client.game_state.pgn_result ∈ pgn_results) :
    (handle_move_broadcast client env b).game_state.pgn_result ∈ pgn_results := by
  have happly := (apply_broadcast_applied client env b).result
  unfold handle_move_broadcast
  simp only
  split
  · apply save_result_mem
    show (apply_broadcast client env b).game_state.pgn_result ∈ pgn_results
    rw [happly]
    exact h
  · rw [happly]
    exact h

/-- Every message leaves the client with one of the results. -/
theorem dispatch_result_mem {client : ClientState} (env : ClientEnv) (msg : ServerMessage)
    (h : client.game_state.pgn_result ∈ pgn_results) :
    (dispatch_server_message client env msg).game_state.pgn_result ∈ pgn_results := by
  by_cases hchat : only_chats msg = true
  · obtain ⟨messages, hstate⟩ := dispatch_only_chats hchat client env
    rw [hstate]
    exact h
  · cases msg with
    | match_game_res res =>
      obtain ⟨hsuccess, hteam⟩ := starts_game_iff.mp (starts_of_not_only_chats hchat)
      show (handle_match_game_response client env res).game_state.pgn_result ∈ pgn_results
      unfold handle_match_game_response
      rw [if_pos hsuccess, if_neg hteam]
      -- a new game is unfinished
      exact show "*".toList ∈ pgn_results by decide
    | move_broadcast b => exact handle_move_broadcast_result_mem env b h
    | resign_broadcast b =>
      show (handle_resign_broadcast client env b).game_state.pgn_result ∈ pgn_results
      -- what the handler has stored is overwritten when the game is saved
      apply save_result_mem
      show (if _ then _ else _) ∈ pgn_results
      split
      · exact won_by_mem _
      · exact won_by_mem _
    | game_end b => exact h
    | _ => exact absurd rfl hchat

theorem client_run_result_mem {client : ClientState} (msgs : List (ClientEnv × ServerMessage))
    (h : client.game_state.pgn_result ∈ pgn_results) :
    (client_run client msgs).game_state.pgn_result ∈ pgn_results := by
  induction msgs generalizing client with
  | nil => exact h
  | cons m msgs ih => exact ih (dispatch_result_mem m.1 m.2 h)

theorem one_line_result {s : CString} (h : s ∈ pgn_results) : OneLine s := by
  have hall : ∀ s ∈ pgn_results, '\n' ∉ s ∧ s.length ≤ 200 := by decide
  exact hall s h

end MultiplayChess
