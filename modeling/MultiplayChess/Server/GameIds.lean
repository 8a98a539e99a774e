import MultiplayChess.Server.System

/-! # Game ids

    A game id carries the serial number of the game.  The number can be
    read back from the text, which fits its buffer as long as the counter
    does not overflow; so the ids of all games ever created differ, and
    `remove_game` ends the game it is meant to end. -/

namespace MultiplayChess

open LTS Loop

/-! ## Serial numbers -/

theorem decimal_of_nonneg {n : Int} (h : 0 ≤ n) : decimal n = Nat.toDigits 10 n.natAbs := by
  unfold decimal
  rw [if_neg (by omega)]

/-- A number has at most one digit more than a bound on its size says, for
    the sign. -/
theorem length_decimal {n : Int} {k : Nat} (hk : 0 < k) (hn : n.natAbs < 10 ^ k) :
    (decimal n).length ≤ k + 1 := by
  have hdigits : (Nat.toDigits 10 n.natAbs).length ≤ k :=
    (Nat.length_toDigits_le_iff (by decide) hk).mpr hn
  unfold decimal
  split
  · rw [List.length_cons]
    omega
  · omega

theorem underscore_not_mem_decimal (n : Int) : '_' ∉ decimal n := by
  have hdigits := @Nat.underscore_not_in_toDigits n.natAbs
  unfold decimal
  split
  · intro h
    rcases List.mem_cons.mp h with h | h
    · cases h
    · exact hdigits h
  · exact hdigits

/-- The digits of a number determine it. -/
theorem decimal_inj {m n : Int} (hm : 0 ≤ m) (hn : 0 ≤ n) (h : decimal m = decimal n) :
    m = n := by
  rw [decimal_of_nonneg hm, decimal_of_nonneg hn] at h
  have hback := congrArg (fun l => Nat.ofDigitChars 10 l 0) h
  simp only [Nat.ofDigitChars_ten_toDigits] at hback
  omega

/-- The serial numbers a counter of 32 bits can take. -/
def Serial (c : Int) : Prop :=
  1 ≤ c ∧ c < 2 ^ 31 - 1

/-- The text of a game id fits its buffer. -/
theorem game_id_text_eq (time : Int) {c : Int} (hc : Serial c) :
    game_id_text time c =
      "game_".toList ++ (decimal (time.tmod 100000) ++ '_' :: decimal c) := by
  have htime : (decimal (time.tmod 100000)).length ≤ 6 := by
    apply length_decimal (k := 5) (by decide) ?_
    have hlt := Int.tmod_lt_of_pos time (show (0 : Int) < 100000 by decide)
    have hgt := Int.lt_tmod_of_pos time (show (0 : Int) < 100000 by decide)
    omega
  have hserial : (decimal c).length ≤ 11 := by
    apply length_decimal (k := 10) (by decide) ?_
    obtain ⟨h1, h2⟩ := hc
    omega
  have hprefix : "game_".toList.length = 5 := by decide
  unfold game_id_text snprintf
  rw [List.append_assoc, List.take_of_length_le]
  simp only [List.length_append, List.length_cons, hprefix, game_id_length]
  omega

/-- **Game ids are unique.** The text of an id determines the serial number. -/
theorem game_id_text_inj {time time' c c' : Int} (hc : Serial c) (hc' : Serial c')
    (h : game_id_text time c = game_id_text time' c') : c = c' := by
  rw [game_id_text_eq time hc, game_id_text_eq time' hc', List.append_cancel_left_eq,
    List.append_cons_inj_of_notMem (underscore_not_mem_decimal _)
      (underscore_not_mem_decimal _)] at h
  have h1 := hc.1
  have h2 := hc'.1
  exact decimal_inj (by omega) (by omega) h.2.2

/-! ## The ids in the table -/

/-- The id is that of a game created before the counter reached `n`. -/
def IssuedBefore (n : Int) (id : CString) : Prop :=
  ∃ time c, Serial c ∧ c < n ∧ id = game_id_text time c

/-- The ids of the active games were issued, and differ. -/
structure IdsOk (mgr : MatchManager) : Prop where
  counter_pos : 1 ≤ mgr.counter
  issued : ∀ i, (mgr.active_games i).is_active = true →
    IssuedBefore mgr.counter (mgr.active_games i).game_id
  distinct : ∀ i j, (mgr.active_games i).is_active = true →
    (mgr.active_games j).is_active = true →
    (mgr.active_games i).game_id = (mgr.active_games j).game_id → i = j

theorem generate_game_id_ok {time counter counter' : Int} {id : CString}
    (h : generate_game_id time counter = .ok (id, counter')) :
    counter < 2 ^ 31 - 1 ∧ id = game_id_text time counter ∧ counter' = counter + 1 := by
  unfold generate_game_id at h
  split at h <;> cases h
  exact ⟨by assumption, rfl, rfl⟩

theorem IssuedBefore.mono {m n : Int} {id : CString} (h : IssuedBefore m id) (hmn : m ≤ n) :
    IssuedBefore n id := by
  obtain ⟨time, c, hc, hlt, rfl⟩ := h
  exact ⟨time, c, hc, by omega, rfl⟩

/-- A new id was not issued before. -/
theorem IssuedBefore.ne_new {n time : Int} {id : CString} (h : IssuedBefore n id)
    (hn : Serial n) : id ≠ game_id_text time n := by
  obtain ⟨time', c, hc, hlt, rfl⟩ := h
  intro heq
  have := game_id_text_inj hc hn heq
  omega

/-- Only the start of a game moves the counter. -/
theorem Change.counter_cases {mgr mgr' : MatchManager} {e : Event} (h : Change mgr e mgr') :
    mgr'.counter = mgr.counter ∨
      (∃ fd player_id env, e = .message fd (.match_game player_id) env) ∧
        mgr.counter < 2 ^ 31 - 1 ∧ mgr'.counter = mgr.counter + 1 := by
  cases h with
  | quiet _ _ => exact .inl rfl
  | enqueue _ _ => exact .inl rfl
  | leave _ _ _ => exact .inl rfl
  | finish _ _ => exact .inl rfl
  | tick _ _ hc => exact .inl hc
  | play _ hmgr =>
    rcases hmgr with rfl | rfl
    · exact .inl rfl
    · unfold remove_game
      split
      · exact .inl rfl
      · exact .inl rfl
  | start _ _ _ hgen _ =>
    obtain ⟨hlt, _, hnext⟩ := generate_game_id_ok hgen
    exact .inr ⟨⟨_, _, _, rfl⟩, hlt, hnext⟩

/-- A game that is active after a step was active before with the same id,
    or it is new. -/
theorem SlotChange.id_cases {mgr : MatchManager} {e : Event} {i : Fin max_active_games}
    {g g' : ActiveGame} (h : SlotChange mgr e i g g') (hactive : g'.is_active = true) :
    (g.is_active = true ∧ g'.game_id = g.game_id) ∨
      (g.is_active = false ∧ mgr.counter < 2 ^ 31 - 1 ∧
        ∃ time, g'.game_id = game_id_text time mgr.counter) := by
  cases h with
  | kept _ hg =>
    rcases hg with rfl | rfl
    · exact .inl ⟨hactive, rfl⟩
    · cases hactive
  | ticked _ hticked =>
    obtain ⟨_, _, hid, _, hwas⟩ := hticked.frame
    exact .inl ⟨hwas hactive, hid⟩
  | started _ _ _ hfree hgen hnew =>
    obtain ⟨hlt, rfl, _⟩ := generate_game_id_ok hgen
    obtain ⟨_, _, hid, _⟩ := new_game_spec hnew
    exact .inr ⟨hfree, hlt, _, hid⟩
  | played _ hacc hg =>
    rcases hg with rfl | rfl
    · exact .inl ⟨hactive, rfl⟩
    · cases hactive

/-- A slot is filled only by the start of a game, which moves the counter
    and leaves the other slots alone. -/
theorem Change.activated {mgr mgr' : MatchManager} {e : Event} (h : Change mgr e mgr')
    {i : Fin max_active_games} (hi : (mgr.active_games i).is_active = false)
    (hi' : (mgr'.active_games i).is_active = true) :
    mgr'.counter = mgr.counter + 1 ∧ ∀ j, j ≠ i → mgr'.active_games j = mgr.active_games j := by
  -- only a match request starts a game
  obtain ⟨fd, player_id, env, _, _, rfl, _⟩ := (h.slot i).starts hi hi'
  cases h with
  | quiet _ _ =>
    rw [hi] at hi'
    cases hi'
  | enqueue _ _ =>
    have hwas : (mgr.active_games i).is_active = true := hi'
    rw [hi] at hwas
    cases hwas
  | leave hw _ _ => exact hw.elim
  | finish hq _ => exact hq.elim
  | @start _ _ _ _ _ _ k game _ _ _ hgen _ =>
    have hik : i = k := by
      by_contra hik
      have hwas : ((mgr.set_game k game).active_games i).is_active = true := hi'
      rw [set_game_ne mgr game hik, hi] at hwas
      cases hwas
    subst hik
    exact ⟨(generate_game_id_ok hgen).2.2, fun j hj => set_game_ne mgr game hj⟩

/-- **The step lemma.** -/
theorem IdsOk.step {mgr mgr' : MatchManager} {e : Event} (h : IdsOk mgr)
    (hchange : Change mgr e mgr') : IdsOk mgr' where
  counter_pos := by
    have := h.counter_pos
    rcases hchange.counter_cases with hc | ⟨_, _, hc⟩ <;> omega
  issued := by
    intro i hactive
    have hpos := h.counter_pos
    have hle : mgr.counter ≤ mgr'.counter := by
      rcases hchange.counter_cases with hc | ⟨_, _, hc⟩ <;> omega
    rcases (hchange.slot i).id_cases hactive with ⟨hwas, hid⟩ | ⟨hwas, hlt, time, hid⟩
    · rw [hid]
      exact (h.issued i hwas).mono hle
    · -- the counter has moved past the new id
      have hmoved : mgr.counter < mgr'.counter := by
        have := (hchange.activated hwas hactive).1
        omega
      exact ⟨time, mgr.counter, ⟨hpos, hlt⟩, hmoved, hid⟩
  distinct := by
    intro i j hi hj hids
    have hpos := h.counter_pos
    rcases (hchange.slot i).id_cases hi with ⟨hwi, hidi⟩ | ⟨hwi, hlt, time, hidi⟩ <;>
      rcases (hchange.slot j).id_cases hj with ⟨hwj, hidj⟩ | ⟨hwj, hlt', time', hidj⟩
    · exact h.distinct i j hwi hwj (by rw [← hidi, ← hidj, hids])
    · exact absurd (hidi.symm.trans (hids.trans hidj)) ((h.issued i hwi).ne_new ⟨hpos, hlt'⟩)
    · exact absurd (hidj.symm.trans (hids.symm.trans hidi)) ((h.issued j hwj).ne_new ⟨hpos, hlt⟩)
    · -- one step starts one game
      by_contra hij
      rw [(hchange.activated hwi hi).2 j (fun h => hij h.symm), hwj] at hj
      cases hj

theorem ids_ok_init : IdsOk init_match_manager where
  counter_pos := Int.le_refl 1
  issued := by
    intro i hactive
    cases hactive
  distinct := by
    intro i j hactive
    cases hactive

/-- In every run the ids of the active games differ. -/
theorem Run.ids_ok {mgr : MatchManager} {ls : List (Event × List Sent)}
    (h : Run server init_match_manager ls mgr) : IdsOk mgr := by
  apply h.invariant (fun _ l _ hs _ hstep => ?_) ids_ok_init
  obtain ⟨e, out⟩ := l
  exact hs.step (step_change hstep)

/-- `remove_game` with the id of an active game ends that game and no
    other. -/
theorem IdsOk.remove_game_eq {mgr : MatchManager} (h : IdsOk mgr) {i : Fin max_active_games}
    (hactive : (mgr.active_games i).is_active = true) :
    remove_game mgr (mgr.active_games i).game_id = mgr.end_game i := by
  unfold remove_game
  split
  · rename_i j hj
    have hfound := find_slot_eq_some hj
    rw [Bool.and_eq_true, beq_iff_eq] at hfound
    rw [h.distinct j i hfound.1 hactive hfound.2]
  · rename_i hnone
    have hmissed := find_slot_eq_none hnone i
    simp [hactive] at hmissed

end MultiplayChess
