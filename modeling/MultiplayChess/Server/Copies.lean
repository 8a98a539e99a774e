import MultiplayChess.Server.Limits

/-! # Copies of names

    The server copies names with `strcpy` into buffers of 64 bytes, and game
    ids into one of `GAME_ID_LENGTH + 1`.  A name is checked nowhere.  Names
    that are in the tables fit everywhere they are copied to; the one copy
    that can be too long is that of the name in a match request. -/

namespace MultiplayChess

open LTS Loop

/-! ## Single copies -/

theorem strcpy_eq_error {size : Nat} {s : CString} {f : Fault} :
    strcpy size s = .error f ↔ size ≤ s.length ∧ f = .copy_too_long := by
  unfold strcpy
  by_cases h : s.length < size
  · rw [if_pos h]
    constructor
    · intro hok
      cases hok
    · intro ⟨hlong, _⟩
      omega
  · rw [if_neg h]
    constructor
    · intro herror
      cases herror
      exact ⟨by omega, rfl⟩
    · intro ⟨_, hf⟩
      rw [hf]

theorem strcpy_fits {size : Nat} {s : CString} (h : s.length < size) : strcpy size s = .ok s :=
  if_pos h

theorem checked_sub_error {bits : Nat} {a b : Int} {f : Fault}
    (h : checked_sub bits a b = .error f) : f = .int_overflow := by
  unfold checked_sub at h
  split at h
  · cases h
  · cases h
    rfl

theorem charge_error {remaining since : Int} {f : Fault} (h : charge remaining since = .error f) :
    f = .int_overflow := by
  unfold charge at h
  rcases bind_eq_error.mp h with hsub | ⟨_, _, h⟩
  · exact checked_sub_error hsub
  · cases h

/-- A generated id fits. -/
theorem generate_game_id_length {time counter counter' : Int} {id : CString}
    (h : generate_game_id time counter = .ok (id, counter')) : id.length < game_id_length + 1 := by
  unfold generate_game_id at h
  split at h
  · cases h
    unfold game_id_text snprintf
    exact Nat.lt_succ_of_le (List.length_take_le _ _)
  · cases h

theorem generate_game_id_isOk (time counter : Int) :
    (∃ r, generate_game_id time counter = .ok r) ↔ counter < 2 ^ 31 - 1 := by
  unfold generate_game_id
  by_cases h : counter < 2 ^ 31 - 1
  · rw [if_pos h]
    exact ⟨fun _ => h, fun _ => ⟨_, rfl⟩⟩
  · rw [if_neg h]
    constructor
    · intro ⟨_, hok⟩
      cases hok
    · intro hlow
      exact absurd hlow h

/-! ## The match request -/

/-- The names in the queue fit their buffers. -/
def QueueFits (mgr : MatchManager) : Prop :=
  ∀ i, (mgr.waiting_players i).player_id.length < 64

/-- A new game is set up unless the name of the new player is too long. -/
theorem new_game_error {env : Env} {old : ActiveGame} {w : WaitingPlayer} {fd : Int}
    {player_id id : CString} (hid : id.length < game_id_length + 1)
    (hw : w.player_id.length < 64) {f : Fault} :
    new_game env old w fd player_id id = .error f ↔
      64 ≤ player_id.length ∧ f = .copy_too_long := by
  unfold new_game
  rw [strcpy_fits hid]
  cases (env.time 0).tmod 2 == 0 with
  | true =>
    simp only [if_true, strcpy_fits hw]
    show (strcpy 64 player_id >>= fun _ => _) = _ ↔ _
    rw [bind_eq_error, strcpy_eq_error, or_iff_left]
    intro ⟨_, _, h⟩
    cases h
  | false =>
    simp only [Bool.false_eq_true, if_false, strcpy_fits hw]
    show (strcpy 64 player_id >>= fun _ => _) = _ ↔ _
    rw [bind_eq_error, strcpy_eq_error, or_iff_left]
    intro ⟨_, _, h⟩
    cases h

/-- The request is given a place, and the game id counter has not run out. -/
def GetsPlace (mgr : MatchManager) : Prop :=
  (∃ i, (mgr.waiting_players i).is_active = true) →
    (∃ j, (mgr.active_games j).is_active = false) ∧ mgr.counter < 2 ^ 31 - 1

section requests

variable {mgr : MatchManager} {env : Env} {fd : Int} {player_id : CString}

/-- A new player's name is copied if there is a place. -/
theorem add_player_copy_iff (hfits : QueueFits mgr) :
    add_player_to_matching mgr env fd player_id = .error .copy_too_long ↔
      64 ≤ player_id.length ∧ GetsPlace mgr := by
  unfold add_player_to_matching GetsPlace
  cases hi : first_waiting mgr with
  | some i =>
    have hwaits : ∃ i, (mgr.waiting_players i).is_active = true := ⟨i, find_slot_eq_some hi⟩
    simp only [hwaits, true_imp_iff]
    cases hj : Fin.find? fun j => !(mgr.active_games j).is_active with
    | some j =>
      have hfree : ∃ j, (mgr.active_games j).is_active = false := ⟨j, free_slot_eq_some hj⟩
      simp only [hfree, true_and, ← generate_game_id_isOk (env.time 1), bind_eq_error]
      constructor
      · intro h
        rcases h with hgen | ⟨⟨id, counter⟩, hgen, hnew⟩
        · unfold generate_game_id at hgen
          split at hgen <;> cases hgen
        · rcases hnew with hnew | ⟨_, _, hnew⟩
          · exact ⟨((new_game_error (generate_game_id_length hgen) (hfits i)).mp hnew).1, _, hgen⟩
          · cases hnew
      · intro ⟨hlong, ⟨id, counter⟩, hgen⟩
        exact .inr ⟨_, hgen,
          .inl ((new_game_error (generate_game_id_length hgen) (hfits i)).mpr ⟨hlong, rfl⟩)⟩
    | none =>
      have hfull : ¬ ∃ j, (mgr.active_games j).is_active = false := by
        intro ⟨j, hfree⟩
        have hbusy := free_slot_eq_none hj j
        rw [hfree] at hbusy
        cases hbusy
      simp only [hfull, false_and, and_false, iff_false]
      intro h
      cases h
  | none =>
    have hnobody : ¬ ∃ i, (mgr.waiting_players i).is_active = true := by
      intro ⟨i, hactive⟩
      rw [find_slot_eq_none hi i] at hactive
      cases hactive
    simp only [hnobody, false_imp_iff, and_true]
    cases hk : Fin.find? fun i => !(mgr.waiting_players i).is_active with
    | some k =>
      simp only [bind_eq_error, strcpy_eq_error, and_true]
      rw [or_iff_left]
      intro ⟨_, _, h⟩
      cases h
    | none => exact absurd hk (queue_has_room hi)

theorem handle_match_game_copy_iff (hfits : QueueFits mgr) :
    handle_match_game_message mgr env fd player_id = .error .copy_too_long ↔
      64 ≤ player_id.length ∧ GetsPlace mgr := by
  unfold handle_match_game_message
  by_cases hid : player_id = []
  · rw [if_pos hid, hid]
    constructor
    · intro h
      cases h
    · intro ⟨hlong, _⟩
      cases hlong
  · rw [if_neg hid, bind_eq_error, add_player_copy_iff hfits, or_iff_left]
    intro ⟨⟨_, result⟩, _, h⟩
    simp only at h
    cases hstatus : result.status <;> rw [hstatus] at h <;> cases h

/-! ## The other copies -/

/-- The names of a seated player and of the opponent fit. -/
theorem ActiveGame.NamesFit.seat {g : ActiveGame} (h : g.NamesFit) (c : Bool) :
    (if c then g.white_player_id else g.black_player_id).length < 64 := by
  cases c with
  | true => exact h.2 .white
  | false => exact h.2 .black

theorem handle_resign_fits (hnames : NamesFit mgr) :
    ∃ o, handle_resign_message mgr env fd player_id = .ok o := by
  unfold handle_resign_message
  split
  · exact ⟨_, rfl⟩
  · rename_i i _
    have hopponent : (if (mgr.active_games i).white_player_fd == fd then
        (mgr.active_games i).black_player_id else (mgr.active_games i).white_player_id).length <
          64 := by
      split
      · exact (hnames i).2 .black
      · exact (hnames i).2 .white
    simp only [strcpy_fits (hnames i).1, strcpy_fits hopponent]
    exact ⟨_, rfl⟩

theorem handle_player_disconnect_fits (hnames : NamesFit mgr) :
    ∃ o, handle_player_disconnect mgr env fd = .ok o := by
  unfold handle_player_disconnect
  split
  · exact ⟨_, rfl⟩
  · split
    · rename_i i _
      simp only [strcpy_fits ((hnames i).seat _)]
      exact ⟨_, rfl⟩
    · exact ⟨_, rfl⟩

end requests

theorem check_game_timeout_error {now : Int} {g : ActiveGame} {f : Fault}
    (h : check_game_timeout now g = .error f) : f = .int_overflow := by
  unfold check_game_timeout at h
  split at h
  · cases h
  · rcases bind_eq_error.mp h with hsub | ⟨since, _, h⟩
    · exact checked_sub_error hsub
    · split at h
      · cases h
      · split at h
        · rcases bind_eq_error.mp h with hcharge | ⟨_, _, h⟩
          · exact charge_error hcharge
          · cases h
        · rcases bind_eq_error.mp h with hcharge | ⟨_, _, h⟩
          · exact charge_error hcharge
          · cases h

/-- A tick copies no name. -/
theorem check_game_timeouts_error {mgr : MatchManager} {env : Env} {f : Fault}
    (h : check_game_timeouts mgr env = .error f) : f = .int_overflow := by
  unfold check_game_timeouts at h
  rcases bind_eq_error.mp h with hloop | ⟨_, _, h⟩
  · obtain ⟨_, i, _, st, _, _, hround⟩ := foldlM_eq_error.mp hloop
    unfold check_slot at hround
    rcases bind_eq_error.mp hround with hcheck | ⟨⟨game, timeout⟩, _, hrest⟩
    · exact check_game_timeout_error hcheck
    · cases timeout <;> cases hrest
  · cases h

/-! ## Every step -/

/-- A match request whose name is copied and too long. -/
def TooLong (mgr : MatchManager) : Event → Prop
  | .message _ (.match_game player_id) _ => 64 ≤ player_id.length ∧ GetsPlace mgr
  | _ => False

/-- What succeeds fails no copy. -/
theorem iff_of_ok {α : Type} {x : Except Fault α} {a : α} {f : Fault} {p : Prop} (hx : x = .ok a)
    (hp : ¬ p) : x = .error f ↔ p := by
  rw [hx]
  constructor
  · intro h
    cases h
  · intro h
    exact absurd h hp

/-- **One step.** With fitting names in the tables, the only copy that can
    be too long is that of a name in a match request. -/
theorem step_copy_iff {mgr : MatchManager} (hnames : NamesFit mgr) (hqueue : QueueFits mgr)
    (e : Event) : server_step mgr e = .error .copy_too_long ↔ TooLong mgr e := by
  cases e with
  | message fd msg env =>
    have hdispatch : server_step mgr (.message fd msg env) = .error .copy_too_long ↔
        dispatch_client_message mgr env fd msg = .error .copy_too_long := map_eq_error
    rw [hdispatch]
    cases msg with
    | match_game player_id => exact handle_match_game_copy_iff hqueue
    | resign player_id =>
      obtain ⟨o, ho⟩ : ∃ o, handle_resign_message mgr env fd player_id = .ok o :=
        handle_resign_fits hnames
      exact iff_of_ok ho id
    | ping _ => exact iff_of_ok rfl id
    | echo _ => exact iff_of_ok rfl id
    | cancel_match _ => exact iff_of_ok rfl id
    | chat _ => exact iff_of_ok rfl id
    | move _ => exact iff_of_ok rfl id
    | unknown => exact iff_of_ok rfl id
  | disconnect fd env =>
    obtain ⟨o, ho⟩ : ∃ o, handle_player_disconnect mgr env fd = .ok o :=
      handle_player_disconnect_fits hnames
    exact iff_of_ok ho id
  | tick env =>
    constructor
    · intro h
      cases check_game_timeouts_error h
    · intro h
      cases h

/-! ## Whole runs -/

theorem QueueFits.set_waiting {mgr : MatchManager} (h : QueueFits mgr)
    {i : Fin max_waiting_players} {w : WaitingPlayer} (hw : w.player_id.length < 64) :
    QueueFits (mgr.set_waiting i w) := by
  intro k
  by_cases hk : k = i
  · rw [hk]
    show (Function.update mgr.waiting_players i w i).player_id.length < 64
    rw [Function.update_self]
    exact hw
  · show (Function.update mgr.waiting_players i w k).player_id.length < 64
    rw [Function.update_of_ne hk]
    exact h k

/-- A name that was too long is not in the queue. -/
theorem QueueFits.step {mgr : MatchManager} (hqueue : QueueFits mgr) (hnames : NamesFit mgr)
    {e : Event} {o : Outcome} (h : server_step mgr e = .ok o) (hchange : Change mgr e o.mgr) :
    QueueFits o.mgr := by
  have hlong : ¬ TooLong mgr e := by
    intro hlong
    cases h.symm.trans ((step_copy_iff hnames hqueue e).mpr hlong)
  generalize o.mgr = mgr' at hchange
  clear h
  cases hchange with
  | quiet _ _ => exact hqueue
  | enqueue _ hnobody =>
    apply hqueue.set_waiting
    by_contra hname
    apply hlong
    constructor
    · exact Nat.le_of_not_lt hname
    · intro ⟨i, hi⟩
      rw [hnobody i] at hi
      cases hi
  | @start _ _ _ _ _ i j game _ _ _ _ _ => exact (QueueFits.set_waiting (i := i) hqueue (hqueue i))
  | @leave _ _ i _ _ _ => exact hqueue.set_waiting (hqueue i)
  | finish _ _ => exact hqueue
  | play _ hmgr =>
    rcases hmgr with rfl | rfl
    · exact hqueue
    · unfold remove_game
      split
      · exact hqueue
      · exact hqueue
  | tick _ hwaiting _ =>
    intro i
    rw [hwaiting]
    exact hqueue i

theorem queue_fits_of_run {ok : MatchManager → Event × List Sent → Prop}
    {ls : List (Event × List Sent)} {mgr : MatchManager}
    (h : RunWhere server ok init_match_manager ls mgr) : QueueFits mgr := by
  have hboth : NamesFit mgr ∧ QueueFits mgr := by
    apply RunWhere.invariant ?_ h ⟨names_fit_init, fun _ => Nat.zero_lt_succ _⟩
    intro mgr l mgr' ⟨hnames, hqueue⟩ _ hstep
    obtain ⟨o, ho, rfl, _⟩ := server_step_ok hstep
    have hchange := step_change hstep
    exact ⟨hnames.step hchange, hqueue.step hnames ho hchange⟩
  exact hboth.2

/-- **Names.** On no list of events does the server copy a name or an id
    into a buffer that is too small for it, if and only if no match request
    that is given a place has a name of 64 bytes or more. -/
theorem serve_copies_fit_iff (es : List Event) :
    serve es ≠ .error .copy_too_long ↔ Served (fun mgr e => ¬ TooLong mgr e) es := by
  unfold serve Served
  rw [foldlM_ne_error_iff]
  apply Throughout.congr (I := fun mgr => NamesFit mgr ∧ QueueFits mgr)
  · intro mgr e mgr' ⟨hnames, hqueue⟩ _ hstep
    obtain ⟨o, ho, rfl, hrun⟩ := handle_event_ok hstep
    have hchange := step_change hrun
    exact ⟨hnames.step hchange, hqueue.step hnames ho hchange⟩
  · intro mgr e ⟨hnames, hqueue⟩
    exact not_congr (map_eq_error.trans (step_copy_iff hnames hqueue e))
  · exact ⟨names_fit_init, fun _ => Nat.zero_lt_succ _⟩

/-- The first request of all may already be too long. -/
theorem serve_long_name : ¬ ∀ es, serve es ≠ .error .copy_too_long := by
  intro h
  let e : Event := .message 5 (.match_game (List.replicate 64 'a')) (.calm 0)
  have hlong : TooLong init_match_manager e := by
    constructor
    · decide
    · intro ⟨i, hi⟩
      cases hi
  have hstep := (step_copy_iff names_fit_init (fun _ => Nat.zero_lt_succ _) e).mpr hlong
  exact h [e] (foldlM_eq_error.mpr ⟨[], e, [], _, rfl, rfl, map_eq_error.mpr hstep⟩)

end MultiplayChess
