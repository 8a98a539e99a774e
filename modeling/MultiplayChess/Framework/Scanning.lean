import Mathlib.Data.List.Basic
import Mathlib.Data.List.TakeWhile

/-! # Lines and words of a text

    Readers that take a text apart from the front: into lines, of which a
    buffer holds a bounded part, and into the words between separators.  A
    text that was put together from lines and words is taken apart into
    the same ones again. -/

namespace Scanning

universe u

variable {α : Type u}

/-! ## Lines -/

section Lines

variable [DecidableEq α]

/-- The first line of a text with its end, or as much of it as fits into
    `n` symbols. -/
def line (stop : α) : Nat → List α → List α
  | 0, _ => []
  | _ + 1, [] => []
  | n + 1, c :: s => if c = stop then [c] else c :: line stop n s

variable {stop : α}

theorem line_pos {n : Nat} {s : List α} (hs : s ≠ []) : 0 < (line stop (n + 1) s).length := by
  cases s with
  | nil => exact absurd rfl hs
  | cons c s =>
    unfold line
    split
    · exact Nat.zero_lt_one
    · exact Nat.succ_pos _

/-- A line that fits is read up to its end. -/
theorem line_append {l : List α} (hstop : stop ∉ l) :
    ∀ {n : Nat}, l.length < n → ∀ s, line stop n (l ++ stop :: s) = l ++ [stop] := by
  induction l with
  | nil =>
    intro n hlen s
    cases n with
    | zero => cases hlen
    | succ n =>
      show (if stop = stop then [stop] else _) = [stop]
      rw [if_pos rfl]
  | cons c l ih =>
    intro n hlen s
    have hc : c ≠ stop := by
      intro heq
      apply hstop
      rw [heq]
      exact List.mem_cons_self ..
    cases n with
    | zero => cases hlen
    | succ n =>
      show (if c = stop then [c] else c :: line stop n (l ++ stop :: s)) = c :: l ++ [stop]
      rw [if_neg hc, ih (fun h => hstop (List.mem_cons_of_mem _ h)) (Nat.lt_of_succ_lt_succ hlen)]
      rfl

/-! ### Blank lines -/

/-- What is behind the first two ends of lines in a row. -/
def behind_blank (stop : α) : List α → Option (List α)
  | c :: d :: s => if c = stop ∧ d = stop then some s else behind_blank stop (d :: s)
  | _ => none

theorem behind_blank_cons {c : α} (hc : c ≠ stop) (s : List α) :
    behind_blank stop (c :: s) = behind_blank stop s := by
  cases s with
  | nil => rfl
  | cons d s => exact if_neg fun h => hc h.1

theorem behind_blank_stop_cons {d : α} (hd : d ≠ stop) (s : List α) :
    behind_blank stop (stop :: d :: s) = behind_blank stop s :=
  (if_neg fun h => hd h.2).trans (behind_blank_cons hd s)

/-- Within a line there is no blank line. -/
theorem behind_blank_append_left {l : List α} (hl : stop ∉ l) (s : List α) :
    behind_blank stop (l ++ s) = behind_blank stop s := by
  induction l with
  | nil => rfl
  | cons c l ih =>
    rw [List.mem_cons, not_or] at hl
    exact (behind_blank_cons (Ne.symm hl.1) _).trans (ih hl.2)

theorem behind_blank_of_not_mem {s : List α} (hs : stop ∉ s) : behind_blank stop s = none := by
  rw [← List.append_nil s, behind_blank_append_left hs]
  rfl

/-- A text that does not begin with the end of a line hides no blank line
    from the text before it. -/
theorem behind_blank_append_cons {d : α} (hd : d ≠ stop) (t s : List α) :
    behind_blank stop (s ++ d :: t) =
      match behind_blank stop s with
      | some r => some (r ++ d :: t)
      | none => behind_blank stop t := by
  induction s with
  | nil => exact behind_blank_cons hd t
  | cons c s ih =>
    cases s with
    | nil =>
      show (if c = stop ∧ d = stop then _ else _) = behind_blank stop t
      rw [if_neg fun h => hd h.2]
      exact behind_blank_cons hd t
    | cons c' s =>
      show (if c = stop ∧ c' = stop then some (s ++ d :: t) else
          behind_blank stop (c' :: s ++ d :: t)) =
        match (if c = stop ∧ c' = stop then some s else behind_blank stop (c' :: s)) with
        | some r => some (r ++ d :: t)
        | none => behind_blank stop t
      by_cases hblank : c = stop ∧ c' = stop
      · rw [if_pos hblank, if_pos hblank]
      · rw [if_neg hblank, if_neg hblank]
        exact ih

theorem behind_blank_some {s r : List α} (h : behind_blank stop s = some r) :
    ∃ pre, s = pre ++ stop :: stop :: r := by
  induction s with
  | nil => cases h
  | cons c s ih =>
    by_cases hblank : ∃ t, c :: s = stop :: stop :: t
    · obtain ⟨t, ht⟩ := hblank
      rw [ht] at h ⊢
      have hr : t = r := Option.some.inj ((if_pos ⟨rfl, rfl⟩).symm.trans h)
      exact ⟨[], by rw [hr, List.nil_append]⟩
    · have hrest : behind_blank stop s = some r := by
        cases s with
        | nil => cases h
        | cons d s =>
          rw [← h]
          apply Eq.symm
          apply if_neg
          intro ⟨hc, hd⟩
          exact hblank ⟨s, by rw [hc, hd]⟩
      obtain ⟨pre, hpre⟩ := ih hrest
      exact ⟨c :: pre, by rw [hpre, List.cons_append]⟩

/-- There is a blank line exactly if there are two ends of lines in a row. -/
theorem behind_blank_eq_none_iff {s : List α} :
    behind_blank stop s = none ↔ ¬ [stop, stop] <:+: s := by
  constructor
  · intro hnone ⟨pre, post, hs⟩
    rw [← hs, List.append_assoc] at hnone
    clear hs
    -- wherever the two are, they would have been found
    induction pre with
    | nil => cases (if_pos ⟨rfl, rfl⟩).symm.trans hnone
    | cons c pre ih =>
      apply ih
      by_contra hsome
      obtain ⟨r, hr⟩ := Option.ne_none_iff_exists'.mp hsome
      cases hrest : pre ++ ([stop, stop] ++ post) with
      | nil =>
        rw [hrest] at hr
        cases hr
      | cons d rest =>
        rw [List.cons_append, hrest] at hnone
        rw [hrest] at hr
        unfold behind_blank at hnone
        split at hnone
        · cases hnone
        · rw [hnone] at hr
          cases hr
  · intro hno
    cases h : behind_blank stop s with
    | none => rfl
    | some r =>
      obtain ⟨pre, hpre⟩ := behind_blank_some h
      exact absurd ⟨pre, r, by rw [hpre, List.append_assoc]; rfl⟩ hno

end Lines

/-! ## Words -/

section Words

variable (sep : α → Bool) (width : Nat)

/-- The first word of a text, or its first `width` symbols. -/
def word (s : List α) : List α :=
  ((s.dropWhile sep).takeWhile fun c => !sep c).take width

/-- What is behind the first word. -/
def behind (s : List α) : List α :=
  (s.dropWhile sep).drop (word sep width s).length

variable {sep width}

theorem word_space {c : α} (hc : sep c = true) (s : List α) :
    word sep width (c :: s) = word sep width s := by
  unfold word
  rw [List.dropWhile_cons_of_pos hc]

theorem behind_space {c : α} (hc : sep c = true) (s : List α) :
    behind sep width (c :: s) = behind sep width s := by
  unfold behind
  rw [word_space hc, List.dropWhile_cons_of_pos hc]

/-- The texts a word ends in front of. -/
def Ends (sep : α → Bool) (s : List α) : Prop :=
  s.takeWhile (fun c => !sep c) = []

theorem ends_cons {c : α} (hc : sep c = true) (s : List α) : Ends sep (c :: s) := by
  have hnot : ¬ (!sep c) = true := by
    rw [hc]
    decide
  exact List.takeWhile_cons_of_neg hnot

section Read

variable {w s : List α} (hne : w ≠ []) (hsep : ∀ c ∈ w, sep c = false)
  (hlen : w.length ≤ width) (hends : Ends sep s)

include hne hsep

theorem dropWhile_word : (w ++ s).dropWhile sep = w ++ s := by
  cases w with
  | nil => exact absurd rfl hne
  | cons c w =>
    apply List.dropWhile_cons_of_neg
    rw [hsep c (List.mem_cons_self ..)]
    decide

include hlen hends

/-- A word that fits is read up to its end. -/
theorem word_append : word sep width (w ++ s) = w := by
  unfold word
  have hall : ∀ c ∈ w, (!sep c) = true := by
    intro c hc
    rw [hsep c hc]
    rfl
  rw [dropWhile_word hne hsep, List.takeWhile_append_of_pos hall,
    show s.takeWhile (fun c => !sep c) = [] from hends, List.append_nil]
  exact List.take_of_length_le hlen

theorem behind_append : behind sep width (w ++ s) = s := by
  unfold behind
  rw [word_append hne hsep hlen hends, dropWhile_word hne hsep, List.drop_left]

end Read

theorem behind_length_lt {s : List α} (h : word sep width s ≠ []) :
    (behind sep width s).length < s.length := by
  have hdrop := (List.dropWhile_sublist (l := s) sep).length_le
  have hword : (word sep width s).length ≤ (s.dropWhile sep).length := by
    unfold word
    rw [List.length_take]
    exact Nat.le_trans (Nat.min_le_right ..) (List.takeWhile_sublist _).length_le
  have hpos := List.length_pos_of_ne_nil h
  unfold behind
  rw [List.length_drop]
  omega

variable (sep width) in
/-- The words of a text. -/
def words (s : List α) : List (List α) :=
  if word sep width s = [] then [] else word sep width s :: words (behind sep width s)
termination_by s.length
decreasing_by exact behind_length_lt ‹_›

theorem words_nil : words sep width [] = [] := by
  rw [words]
  exact if_pos List.take_nil

theorem words_space {c : α} (hc : sep c = true) (s : List α) :
    words sep width (c :: s) = words sep width s := by
  rw [words, word_space hc, behind_space hc]
  exact (words.eq_1 sep width s).symm

theorem words_append {w s : List α} (hne : w ≠ []) (hsep : ∀ c ∈ w, sep c = false)
    (hlen : w.length ≤ width) (hends : Ends sep s) :
    words sep width (w ++ s) = w :: words sep width s := by
  rw [words, word_append hne hsep hlen hends, behind_append hne hsep hlen hends, if_neg hne]

/-! ### Words of parts -/

/-- Separators in front of a text add no words. -/
theorem words_append_seps {s : List α} (hs : ∀ c ∈ s, sep c = true) (t : List α) :
    words sep width (s ++ t) = words sep width t := by
  induction s with
  | nil => rfl
  | cons c s ih =>
    rw [List.cons_append, words_space (hs c (List.mem_cons_self ..))]
    exact ih fun d hd => hs d (List.mem_cons_of_mem _ hd)

theorem dropWhile_append_cons {s d : List α} {c : α} (h : s.dropWhile sep = c :: d) (t : List α) :
    (s ++ t).dropWhile sep = c :: d ++ t := by
  rw [List.dropWhile_append, h]
  rfl

/-- In front of a separator the first word of a text ends with the text. -/
theorem word_behind_append {s t : List α} (hword : word sep width s ≠ []) (hends : Ends sep t) :
    word sep width (s ++ t) = word sep width s ∧
      behind sep width (s ++ t) = behind sep width s ++ t := by
  obtain ⟨c, d, hd⟩ : ∃ c d, s.dropWhile sep = c :: d := by
    apply List.exists_cons_of_ne_nil
    intro hnil
    apply hword
    unfold word
    rw [hnil, List.takeWhile_nil, List.take_nil]
  have hends : t.takeWhile (fun c => !sep c) = [] := hends
  have hsame : word sep width (s ++ t) = word sep width s := by
    unfold word
    rw [dropWhile_append_cons hd, hd, List.takeWhile_append, hends, List.append_nil]
    split
    · rename_i hall
      rw [List.IsPrefix.eq_of_length (List.takeWhile_prefix _) hall]
    · rfl
  constructor
  · exact hsame
  · have hlen : (word sep width s).length ≤ (c :: d).length := by
      unfold word
      rw [List.length_take, hd]
      exact Nat.le_trans (Nat.min_le_right ..) (List.takeWhile_prefix _).length_le
    unfold behind
    rw [hsame, dropWhile_append_cons hd, hd, List.drop_append_of_le_length hlen]

/-- **Splitting.** In front of a separator a text can be cut without
    cutting a word. -/
theorem words_split (hwidth : 0 < width) {t : List α} (hends : Ends sep t) (s : List α) :
    words sep width (s ++ t) = words sep width s ++ words sep width t := by
  induction hlen : s.length using Nat.strong_induction_on generalizing s with
  | _ n ih =>
  by_cases hword : word sep width s = []
  · -- nothing but separators
    have hseps : ∀ c ∈ s, sep c = true := by
      apply List.dropWhile_eq_nil_iff.mp
      cases hdrop : s.dropWhile sep with
      | nil => rfl
      | cons c d =>
        have hc : sep c = false := by
          have hnot :=
            List.head_dropWhile_not sep (l := s) (by rw [hdrop]; exact List.cons_ne_nil _ _)
          simpa only [hdrop, List.head_cons] using hnot
        unfold word at hword
        rw [hdrop, List.takeWhile_cons_of_pos (by rw [hc]; rfl), List.take_eq_nil_iff] at hword
        rcases hword with hzero | hnil
        · omega
        · cases hnil
    rw [words_append_seps hseps, words.eq_1 sep width s, if_pos hword, List.nil_append]
  · obtain ⟨hsame, hrest⟩ := word_behind_append hword hends
    have hshort : (behind sep width s).length < n := hlen ▸ behind_length_lt hword
    rw [words.eq_1 sep width (s ++ t), words.eq_1 sep width s, hsame, if_neg hword, if_neg hword,
      hrest, ih _ hshort _ rfl, List.cons_append]

/-- Words are no longer than the text they are from. -/
theorem length_le_of_mem_words {s w : List α} (h : w ∈ words sep width s) :
    w.length ≤ s.length := by
  induction hlen : s.length using Nat.strong_induction_on generalizing s with
  | _ n ih =>
  rw [words] at h
  split at h
  · cases h
  · rename_i hword
    rcases List.mem_cons.mp h with rfl | hrest
    · unfold word
      rw [List.length_take, ← hlen]
      exact Nat.le_trans (Nat.min_le_right ..) (Nat.le_trans (List.takeWhile_prefix _).length_le
        (List.dropWhile_suffix _).length_le)
    · have hshort := hlen ▸ behind_length_lt hword
      exact Nat.le_trans (ih _ hshort hrest rfl) (Nat.le_of_lt hshort)

/-- A text has no more words than symbols. -/
theorem words_length_le (s : List α) : (words sep width s).length ≤ s.length := by
  induction hlen : s.length using Nat.strong_induction_on generalizing s with
  | _ n ih =>
  rw [words]
  split
  · exact Nat.zero_le _
  · rename_i hword
    have hshort := hlen ▸ behind_length_lt hword
    exact Nat.lt_of_le_of_lt (ih _ hshort _ rfl) hshort

end Words

/-! ## Marks -/

/-- What is in front of the last mark of a text. -/
theorem append_cons_cancel {m : α} {s t y z : List α} (hy : m ∉ y) (hz : m ∉ z)
    (h : s ++ m :: y = t ++ m :: z) : s = t := by
  -- the longer one of the two would have a mark behind the last mark
  rcases List.append_eq_append_iff.mp h with ⟨a, ht, ha⟩ | ⟨a, hs, ha⟩
  · cases a with
    | nil => rw [ht, List.append_nil]
    | cons c a =>
      obtain ⟨_, hmark⟩ := List.cons.inj ha
      exact absurd (hmark ▸ List.mem_append_right a (List.mem_cons_self ..)) hy
  · cases a with
    | nil => rw [hs, List.append_nil]
    | cons c a =>
      obtain ⟨_, hmark⟩ := List.cons.inj ha
      exact absurd (hmark ▸ List.mem_append_right a (List.mem_cons_self ..)) hz

/-- Texts with the same end, of which marks do not reach beyond `q`, differ
    within the first `n` symbols if they differ at all. -/
theorem append_cancel_of_mark {m : α} {n : Nat} {s t q r : List α} (hq : m ∈ q) (hr : m ∉ r)
    (hs : (s ++ q).length ≤ n) (ht : (t ++ q).length ≤ n)
    (h : (s ++ (q ++ r)).take n = (t ++ (q ++ r)).take n) : s = t := by
  -- the last mark
  obtain ⟨back, front, hback, hno_mark⟩ := List.eq_append_cons_of_mem (List.mem_reverse.mpr hq)
  have hq_split : q = front.reverse ++ m :: back.reverse := by
    rw [← List.reverse_reverse q, hback, List.reverse_append, List.reverse_cons, List.append_assoc,
      List.singleton_append]
  have hcut : ∀ s : List α, (s ++ q).length ≤ n → ∃ y, m ∉ y ∧
      (s ++ (q ++ r)).take n = s ++ front.reverse ++ m :: y := by
    intro s hs
    refine ⟨back.reverse ++ r.take (n - (s ++ q).length), ?_, ?_⟩
    · rw [List.mem_append, not_or, List.mem_reverse]
      exact ⟨hno_mark, fun hmem => hr (List.mem_of_mem_take hmem)⟩
    · rw [← List.append_assoc, List.take_append, List.take_of_length_le hs]
      rw [hq_split]
      simp only [List.append_assoc, List.cons_append]
  obtain ⟨y, hy, hys⟩ := hcut s hs
  obtain ⟨z, hz, hzt⟩ := hcut t ht
  rw [hys, hzt] at h
  exact List.append_cancel_right (append_cons_cancel hy hz h)

/-- A text that has more in front of the same end, and a mark there, is
    another one within the first `n` symbols. -/
theorem take_ne_of_mark {m : α} {n : Nat} {s q t r : List α} (hq : m ∈ q) (hr : m ∉ r)
    (hlen : (s ++ (q ++ t)).length ≤ n) :
    (t ++ r).take n ≠ (s ++ (q ++ t) ++ r).take n := by
  intro h
  by_cases ht : m ∈ t
  · -- the last mark is in the common end
    have hnil : [] = s ++ q := by
      apply append_cancel_of_mark (n := n) ht hr
      · rw [List.nil_append]
        refine Nat.le_trans ?_ hlen
        rw [List.length_append, List.length_append]
        omega
      · rw [List.append_assoc]
        exact hlen
      · rw [List.nil_append, h]
        simp only [List.append_assoc]
    rw [(List.append_eq_nil_iff.mp hnil.symm).2] at hq
    cases hq
  · -- only one of the two has a mark
    have hmark : m ∈ (s ++ (q ++ t) ++ r).take n := by
      rw [List.take_append, List.take_of_length_le hlen]
      exact List.mem_append_left _ (List.mem_append_right _ (List.mem_append_left _ hq))
    rw [← h] at hmark
    rcases List.mem_append.mp (List.mem_of_mem_take hmark) with hmem | hmem
    · exact ht hmem
    · exact hr hmem

end Scanning
