import MultiplayChess.Client.Session
import MultiplayChess.Framework.Unwinding

/-! # Clock skew

    The server stamps start responses and `MoveBroadcast`s with the time of
    its own clock.  The client takes the stamp for the time its clocks were
    set and measures from there with the clock of its own machine; so what
    it shows depends on how far the two clocks are apart.  The events are
    the messages of the server and the calls of `update_game_timer`. -/

namespace MultiplayChess

open Unwinding

/-! ## Events and their skew -/

inductive ClockEvent where
  | message (env : ClientEnv) (msg : ServerMessage)
  | timer (now : Int)

/-- The message with the time stamps of a server whose clock is `k` seconds
    ahead. -/
def ServerMessage.skew (k : Int) : ServerMessage → ServerMessage
  | .match_game_res res =>
    .match_game_res { res with game_start_time := res.game_start_time.map (· + k) }
  | .move_broadcast b => .move_broadcast { b with move_timestamp := b.move_timestamp.map (· + k) }
  | msg => msg

/-- The clock of the client is not skewed. -/
def ClockEvent.skew (k : Int) : ClockEvent → ClockEvent
  | .message env msg => .message env (msg.skew k)
  | .timer now => .timer now

def clock_step (client : ClientState) : ClockEvent → ClientState
  | .message env msg => dispatch_server_message client env msg
  | .timer now => { client with game_state := Client.update_game_timer client.game_state now }

def clock_run (client : ClientState) (es : List ClockEvent) : ClientState :=
  es.foldl clock_step client

/-- The clocks on the screen. -/
def displayed_clocks (client : ClientState) : Int × Int :=
  (client.game_state.white_time_remaining, client.game_state.black_time_remaining)

/-- The broadcast is taken in and sets the clocks; the position does not
    matter for this. -/
def MoveBroadcast.SetsClocks (b : MoveBroadcast) (G : Game) : Prop :=
  (apply_move_from_server G b.from_coord b.to_coord).2 = true ∧
    b.white_time_remaining ≥ 0 ∧ b.black_time_remaining ≥ 0

instance (b : MoveBroadcast) (G : Game) : Decidable (b.SetsClocks G) :=
  inferInstanceAs (Decidable (_ ∧ _))

/-- The time stamp of a message that sets the clocks; it may lack one. -/
def stamp_of : ServerMessage → Option (Option Int)
  | .match_game_res res =>
    if starts_game (.match_game_res res) then some res.game_start_time else none
  | .move_broadcast b => if b.SetsClocks .zero then some b.move_timestamp else none
  | _ => none

/-- The last of the messages that set the clocks had a time stamp. -/
def server_stamped (es : List ClockEvent) : Bool :=
  es.foldl (fun before e =>
    match e with
    | .message _ msg => ((stamp_of msg).map Option.isSome).getD before
    | .timer _ => before) false

/-! ## The clocks by themselves -/

/-- What the clocks of a client depend on. -/
structure ClockView where
  game : Game
  in_progress : Bool
  white : Int
  black : Int
  stamp : Int

def GameState.clock_view (state : GameState) : ClockView where
  game := state.game
  in_progress := state.game_in_progress
  white := state.white_time_remaining
  black := state.black_time_remaining
  stamp := state.last_timer_update

/-- The clocks a start response sets up. -/
def ClockView.started (env : ClientEnv) (res : MatchGameResponse) : ClockView where
  game := init_startpos .zero
  in_progress := true
  white :=
    if res.time_limit_per_player > 0 then res.white_time_remaining else default_client_time
  black :=
    if res.time_limit_per_player > 0 then res.black_time_remaining else default_client_time
  stamp := res.game_start_time.getD (env.time 1)

/-- The clocks after a `MoveBroadcast`. -/
def ClockView.moved (v : ClockView) (env : ClientEnv) (b : MoveBroadcast) : ClockView :=
  let game := client_step v.game (b.from_coord, b.to_coord)
  let in_progress := v.in_progress && !b.game_ends
  if b.SetsClocks v.game then
    { game := game
      in_progress := in_progress
      white := b.white_time_remaining
      black := b.black_time_remaining
      stamp := b.move_timestamp.getD (env.time 0) }
  else { v with game := game, in_progress := in_progress }

/-- A message arrives. -/
def ClockView.take_in (v : ClockView) (env : ClientEnv) : ServerMessage → ClockView
  | .match_game_res res => if starts_game (.match_game_res res) then .started env res else v
  | .move_broadcast b => v.moved env b
  | .resign_broadcast _ => { v with in_progress := false }
  | _ => v

/-- The timer is called. -/
def ClockView.tick (v : ClockView) (now : Int) : ClockView :=
  if !v.in_progress then v
  else if v.stamp = 0 then { v with stamp := now }
  else if now - v.stamp < 1 then v
  else if v.game.side_to_move = .white then
    { v with white := max 0 (v.white - to_int32 (now - v.stamp)), stamp := now }
  else { v with black := max 0 (v.black - to_int32 (now - v.stamp)), stamp := now }

def ClockView.step (v : ClockView) : ClockEvent → ClockView
  | .message env msg => v.take_in env msg
  | .timer now => v.tick now

def ClockView.shown (v : ClockView) : Int × Int :=
  (v.white, v.black)

section view

variable (client : ClientState) (env : ClientEnv)

theorem clock_view_save (files : FileEnv) :
    (client.save files).game_state.clock_view = client.game_state.clock_view := by
  obtain ⟨_, _, hsave⟩ := save_eq client files
  rw [hsave]
  rfl

theorem clock_view_record_move (state : GameState) (b : MoveBroadcast) :
    (update_check_flags (record_move state b) b).clock_view = state.clock_view := by
  obtain ⟨moves, _, hmoves⟩ := record_move_eq state b
  obtain ⟨_, _, hflags⟩ := update_check_flags_eq (record_move state b) b
  rw [hflags, hmoves]
  rfl

theorem clock_view_sync (state : GameState) (b : MoveBroadcast) :
    (sync_clocks state env b).clock_view =
      if b.white_time_remaining ≥ 0 ∧ b.black_time_remaining ≥ 0 then
        { state.clock_view with
          white := b.white_time_remaining
          black := b.black_time_remaining
          stamp := b.move_timestamp.getD (env.time 0) }
      else state.clock_view := by
  unfold sync_clocks
  split <;> rfl

/-- The first half of a `MoveBroadcast` leaves the flag alone. -/
theorem clock_view_apply_broadcast (b : MoveBroadcast) :
    (apply_broadcast client env b).game_state.clock_view =
      { client.game_state.clock_view.moved env b with
        in_progress := client.game_state.game_in_progress } := by
  unfold apply_broadcast ClockView.moved
  simp only
  split
  · rename_i hmove
    have happlied : (apply_move_from_server client.game_state.clock_view.game b.from_coord
        b.to_coord).2 = true := hmove
    show (sync_clocks _ env b).clock_view = _
    rw [clock_view_sync, clock_view_record_move]
    by_cases htimes : b.white_time_remaining ≥ 0 ∧ b.black_time_remaining ≥ 0
    · rw [if_pos htimes, if_pos ⟨happlied, htimes⟩]
      rfl
    · rw [if_neg htimes, if_neg fun h => htimes h.2]
      rfl
  · rename_i hmove
    have hrejected : (apply_move_from_server client.game_state.clock_view.game b.from_coord
        b.to_coord).2 = false := Bool.eq_false_of_not_eq_true hmove
    unfold client_step
    rw [if_neg fun h => hmove h.1, apply_move_from_server_rejected hrejected]
    rfl

/-- The end of the game is in the flag only. -/
theorem clock_view_move_broadcast (b : MoveBroadcast) :
    (handle_move_broadcast client env b).game_state.clock_view =
      client.game_state.clock_view.moved env b := by
  have hview := clock_view_apply_broadcast client env b
  have hflag : (client.game_state.clock_view.moved env b).in_progress =
      (client.game_state.game_in_progress && !b.game_ends) := by
    unfold ClockView.moved
    simp only
    split <;> rfl
  unfold handle_move_broadcast finish_game
  cases hends : b.game_ends with
  | true =>
    rw [hends, Bool.not_true, Bool.and_false] at hflag
    show ({ (ClientState.save _ env.files).game_state.clock_view with
      in_progress := false } : ClockView) = _
    rw [clock_view_save, ← hflag]
    show ({ (apply_broadcast client env b).game_state.clock_view with
      in_progress := _ } : ClockView) = _
    rw [hview]
  | false =>
    rw [hends, Bool.not_false, Bool.and_true] at hflag
    show (apply_broadcast client env b).game_state.clock_view = _
    rw [hview, ← hflag]

/-- **Messages** reach the clocks as the view says. -/
theorem clock_view_dispatch (msg : ServerMessage) :
    (dispatch_server_message client env msg).game_state.clock_view =
      client.game_state.clock_view.take_in env msg := by
  by_cases hchat : only_chats msg = true
  · obtain ⟨messages, hstate⟩ := dispatch_only_chats hchat client env
    rw [hstate]
    cases msg with
    | match_game_res res =>
      have hno_start : ¬ starts_game (.match_game_res res) = true := by
        rw [Bool.not_eq_true]
        exact (Bool.not_eq_true' _).mp hchat
      exact (if_neg hno_start).symm
    | move_broadcast b => cases hchat
    | resign_broadcast b => cases hchat
    | _ => rfl
  · cases msg with
    | match_game_res res =>
      have hstart := starts_of_not_only_chats hchat
      obtain ⟨hsuccess, hteam⟩ := starts_game_iff.mp hstart
      show (handle_match_game_response client env res).game_state.clock_view = _
      unfold handle_match_game_response
      rw [if_pos hsuccess, if_neg hteam]
      exact (if_pos hstart).symm
    | move_broadcast b => exact clock_view_move_broadcast client env b
    | resign_broadcast b =>
      show ({ (ClientState.save _ env.files).game_state.clock_view with
        in_progress := false } : ClockView) = _
      rw [clock_view_save]
      rfl
    | game_end b => rfl
    | _ => exact absurd rfl hchat

theorem clock_view_tick (now : Int) :
    (Client.update_game_timer client.game_state now).clock_view =
      client.game_state.clock_view.tick now := by
  unfold Client.update_game_timer ClockView.tick
  simp only [apply_ite GameState.clock_view]
  rfl

/-- **The clocks go by themselves.** -/
theorem clock_view_step (e : ClockEvent) :
    (clock_step client e).game_state.clock_view = client.game_state.clock_view.step e := by
  cases e with
  | message env msg => exact clock_view_dispatch client env msg
  | timer now => exact clock_view_tick client now

theorem clock_run_snoc (es : List ClockEvent) (e : ClockEvent) :
    clock_run client (es ++ [e]) = clock_step (clock_run client es) e :=
  List.foldl_append

theorem clock_view_run (es : List ClockEvent) :
    (clock_run client es).game_state.clock_view =
      es.foldl ClockView.step client.game_state.clock_view := by
  induction es using List.reverseRecOn with
  | nil => rfl
  | append_singleton es e ih =>
    rw [clock_run_snoc, clock_view_step, ih, List.foldl_append]
    rfl

end view

/-! ## The clocks of a skewed run -/

/-- The view with a later stamp. -/
def ClockView.later (v : ClockView) (d : Int) : ClockView :=
  { v with stamp := v.stamp + d }

@[simp] theorem ClockView.later_zero (v : ClockView) : v.later 0 = v := by
  unfold ClockView.later
  rw [Int.add_zero]

/-- By how much the stamp is off after the events, with a skew of `k`. -/
def stamp_skew (es : List ClockEvent) (k : Int) : Int :=
  if server_stamped es then k else 0

section skew

variable {es : List ClockEvent} {v : ClockView} {d k now : Int}

theorem server_stamped_message (env : ClientEnv) (msg : ServerMessage) :
    server_stamped (es ++ [.message env msg]) =
      ((stamp_of msg).map Option.isSome).getD (server_stamped es) :=
  List.foldl_append

theorem server_stamped_timer : server_stamped (es ++ [.timer now]) = server_stamped es :=
  List.foldl_append

/-- Whether a move is taken in depends on its coordinates only. -/
theorem apply_move_from_server_accepts (G G' : Game) (src dst : CString) :
    (apply_move_from_server G src dst).2 = (apply_move_from_server G' src dst).2 := by
  unfold apply_move_from_server
  split
  · simp only
    split <;> rfl
  · rfl

/-- The stamp after a skewed message. -/
theorem getD_skew (stamp : Option Int) (k default : Int) :
    (stamp.map (· + k)).getD default =
      stamp.getD default + if (stamp.isSome : Bool) = true then k else 0 := by
  cases stamp with
  | none => exact (Int.add_zero default).symm
  | some t => rfl

theorem started_skew (env : ClientEnv) (res : MatchGameResponse) (k : Int) :
    ClockView.started env { res with game_start_time := res.game_start_time.map (· + k) } =
      (ClockView.started env res).later (if res.game_start_time.isSome then k else 0) := by
  unfold ClockView.started ClockView.later
  simp only [getD_skew]

theorem ClockView.moved_set {env : ClientEnv} {b : MoveBroadcast} (h : b.SetsClocks v.game) :
    v.moved env b =
      { game := client_step v.game (b.from_coord, b.to_coord)
        in_progress := v.in_progress && !b.game_ends
        white := b.white_time_remaining
        black := b.black_time_remaining
        stamp := b.move_timestamp.getD (env.time 0) } :=
  if_pos h

theorem ClockView.moved_unset {env : ClientEnv} {b : MoveBroadcast} (h : ¬ b.SetsClocks v.game) :
    v.moved env b =
      { v with
        game := client_step v.game (b.from_coord, b.to_coord)
        in_progress := v.in_progress && !b.game_ends } :=
  if_neg h

theorem moved_skew (es : List ClockEvent) (v : ClockView) (k : Int) (env : ClientEnv)
    (b : MoveBroadcast) :
    (v.later (stamp_skew es k)).moved env
        { b with move_timestamp := b.move_timestamp.map (· + k) } =
      (v.moved env b).later (stamp_skew (es ++ [.message env (.move_broadcast b)]) k) := by
  have haccepts := apply_move_from_server_accepts .zero v.game b.from_coord b.to_coord
  unfold stamp_skew
  rw [server_stamped_message]
  by_cases hset : b.SetsClocks v.game
  · have hstamp : stamp_of (.move_broadcast b) = some b.move_timestamp :=
      if_pos ⟨haccepts.trans hset.1, hset.2⟩
    rw [hstamp, ClockView.moved_set hset, ClockView.moved_set (by exact hset)]
    simp only [getD_skew]
    rfl
  · have hstamp : stamp_of (.move_broadcast b) = none :=
      if_neg fun h => hset ⟨haccepts.symm.trans h.1, h.2⟩
    rw [hstamp, ClockView.moved_unset hset, ClockView.moved_unset (by exact hset)]
    rfl

/-- **A skewed message** leaves everything but the stamp as the message
    does. -/
theorem take_in_skew (es : List ClockEvent) (v : ClockView) (k : Int) (env : ClientEnv)
    (msg : ServerMessage) :
    (v.later (stamp_skew es k)).take_in env (msg.skew k) =
      (v.take_in env msg).later (stamp_skew (es ++ [.message env msg]) k) := by
  cases msg with
  | match_game_res res =>
    unfold stamp_skew
    rw [server_stamped_message]
    show (if starts_game (.match_game_res res) = true then ClockView.started env _ else _) =
      ClockView.later (if starts_game (.match_game_res res) = true then _ else _) (if
        ((if starts_game (.match_game_res res) = true then some res.game_start_time
          else none).map Option.isSome).getD _ = true then k else 0)
    split
    · exact started_skew env res k
    · rfl
  | move_broadcast b => exact moved_skew es v k env b
  | _ =>
    unfold stamp_skew
    rw [server_stamped_message]
    rfl

/-- Where the timer measures with one clock, nothing is off. -/
theorem tick_skew (h : v.in_progress = true → server_stamped es = false) (k now : Int) :
    (v.later (stamp_skew es k)).tick now = (v.tick now).later (stamp_skew es k) := by
  cases hprogress : v.in_progress with
  | true =>
    have hskew : stamp_skew es k = 0 := if_neg (by simp [h hprogress])
    rw [hskew, ClockView.later_zero, ClockView.later_zero]
  | false =>
    have hstopped : ∀ w : ClockView, w.in_progress = false → w.tick now = w := by
      intro w hw
      unfold ClockView.tick
      rw [hw]
      rfl
    rw [hstopped v hprogress, hstopped (v.later _) hprogress]

/-- Right after the clocks were set the timer leaves them. -/
theorem tick_fresh (h : v.in_progress = true) (hstamp : v.stamp = now) :
    (v.tick now).shown = v.shown := by
  unfold ClockView.tick
  rw [h, hstamp, Int.sub_self]
  simp only [Bool.not_true, Bool.false_eq_true, if_false]
  split
  · rfl
  · rfl

/-- The clock of the side to move. -/
def ClockView.running (v : ClockView) : Int :=
  if v.game.side_to_move = .white then v.white else v.black

theorem ClockView.running_congr {w : ClockView} (hgame : w.game = v.game)
    (hshown : w.shown = v.shown) : w.running = v.running := by
  obtain ⟨hwhite, hblack⟩ := Prod.mk.inj hshown
  unfold ClockView.running
  rw [hgame, hwhite, hblack]

theorem tick_game (v : ClockView) (now : Int) : (v.tick now).game = v.game := by
  unfold ClockView.tick
  simp only [apply_ite ClockView.game, ite_self]

/-- After a while the timer charges the side to move. -/
theorem tick_elapsed (h : v.in_progress = true) (hstamp : v.stamp ≠ 0) (hlate : 1 ≤ now - v.stamp) :
    (v.tick now).running = max 0 (v.running - to_int32 (now - v.stamp)) := by
  have hstep : v.tick now =
      if v.game.side_to_move = .white then
        { v with white := max 0 (v.white - to_int32 (now - v.stamp)), stamp := now }
      else { v with black := max 0 (v.black - to_int32 (now - v.stamp)), stamp := now } := by
    unfold ClockView.tick
    rw [if_neg (by simp [h]), if_neg hstamp, if_neg (by omega)]
  rw [hstep]
  unfold ClockView.running
  by_cases hside : v.game.side_to_move = .white
  · simp only [if_pos hside]
  · simp only [if_neg hside]

/-- Some lapse makes the timer change any clock: a short one a clock that is
    not zero, and one too long for the conversion a clock that is. -/
theorem exists_lapse (clock now : Int) :
    ∃ lapse, 1 ≤ lapse ∧ now - lapse ≠ 0 ∧ max 0 (clock - to_int32 lapse) ≠ clock := by
  have hone : to_int32 1 = 1 := by decide
  have htwo : to_int32 2 = 2 := by decide
  have hlong : to_int32 (2 ^ 31 + 1) = -(2 ^ 31 - 1) := by decide
  have hlonger : to_int32 (2 ^ 31 + 2) = -(2 ^ 31 - 2) := by decide
  by_cases hclock : clock = 0
  · by_cases hnow : now = 2 ^ 31 + 1
    · exact ⟨2 ^ 31 + 2, by omega, by omega, by rw [hlonger]; omega⟩
    · exact ⟨2 ^ 31 + 1, by omega, by omega, by rw [hlong]; omega⟩
  · by_cases hnow : now = 1
    · exact ⟨2, by omega, by omega, by rw [htwo]; omega⟩
    · exact ⟨1, by omega, by omega, by rw [hone]; omega⟩

/-- A timer call that measures from a stamp of the server shows the skew. -/
theorem tick_shows (h : v.in_progress = true) (now : Int) :
    ¬ ∀ k k', ((v.later k).tick now).shown = ((v.later k').tick now).shown := by
  intro hsame
  obtain ⟨lapse, hlapse, hne, hcharge⟩ := exists_lapse v.running now
  have hfresh : ((v.later (now - v.stamp)).tick now).shown = v.shown := by
    apply tick_fresh (by exact h)
    show v.stamp + (now - v.stamp) = now
    omega
  have hstamp : (v.later (now - lapse - v.stamp)).stamp = now - lapse := by
    show v.stamp + (now - lapse - v.stamp) = now - lapse
    omega
  have helapsed := @tick_elapsed (v.later (now - lapse - v.stamp)) now (by exact h)
    (by rw [hstamp]; exact hne) (by rw [hstamp]; omega)
  rw [hstamp, Int.sub_sub_self] at helapsed
  -- the clock of the side to move would have to be the same
  have hshown := (hsame (now - lapse - v.stamp) (now - v.stamp)).trans hfresh
  have hrunning : ((v.later (now - lapse - v.stamp)).tick now).running = v.running :=
    ClockView.running_congr (tick_game _ now) hshown
  exact hcharge (helapsed.symm.trans hrunning)

end skew

/-! ## Exactly when the skew does not show -/

/-- The timer is not called in a game in progress if the server has stamped
    the last setting of the clocks. -/
def OneClock (client : ClientState) (es : List ClockEvent) (e : ClockEvent) : Prop :=
  ∀ now, e = .timer now → (clock_run client es).game_state.game_in_progress = true →
    server_stamped es = false

/-- The runs differ in the stamp only. -/
def SkewedBy (client : ClientState) (es : List ClockEvent) (runs : Int → ClockView) : Prop :=
  ∀ k, runs k = (clock_run client es).game_state.clock_view.later (stamp_skew es k)

section runs

variable {client : ClientState} {es : List ClockEvent} {e : ClockEvent} {runs : Int → ClockView}

theorem SkewedBy.start : SkewedBy client [] fun _ => client.game_state.clock_view :=
  fun _ => (ClockView.later_zero _).symm

/-- **The step lemma.** -/
theorem SkewedBy.step (h : SkewedBy client es runs) (hok : OneClock client es e) :
    SkewedBy client (es ++ [e]) fun k => (runs k).step (e.skew k) := by
  intro k
  show (runs k).step (e.skew k) = _
  rw [clock_run_snoc, clock_view_step, h k]
  cases e with
  | message env msg => exact take_in_skew es _ k env msg
  | timer now =>
    unfold stamp_skew
    rw [server_stamped_timer]
    exact tick_skew (hok now rfl) k now

/-- Whether the runs look the same after one more event. -/
theorem SkewedBy.looks_iff (h : SkewedBy client es runs) :
    (∀ k k', ((runs k).step (e.skew k)).shown = ((runs k').step (e.skew k')).shown) ↔
      OneClock client es e := by
  constructor
  · intro hsame now he hprogress
    subst he
    by_contra hstamped
    rw [Bool.not_eq_false] at hstamped
    apply tick_shows (v := (clock_run client es).game_state.clock_view) hprogress now
    intro k k'
    have hskew : ∀ k, stamp_skew es k = k := fun k => if_pos hstamped
    have hlook := hsame k k'
    rw [h k, h k', hskew, hskew] at hlook
    exact hlook
  · intro hok k k'
    have hnext : ∀ k, (runs k).step (e.skew k) =
        (clock_run client (es ++ [e])).game_state.clock_view.later (stamp_skew (es ++ [e]) k) :=
      h.step hok
    rw [hnext k, hnext k']
    rfl

end runs

theorem skew_zero (e : ClockEvent) : e.skew 0 = e := by
  cases e with
  | timer now => rfl
  | message env msg =>
    cases msg with
    | match_game_res res =>
      show ClockEvent.message env (.match_game_res { res with
        game_start_time := res.game_start_time.map (· + 0) }) = _
      simp only [Int.add_zero, Option.map_id']
    | move_broadcast b =>
      show ClockEvent.message env (.move_broadcast { b with
        move_timestamp := b.move_timestamp.map (· + 0) }) = _
      simp only [Int.add_zero, Option.map_id']
    | _ => rfl

/-- The clocks of the skewed runs are those of the family of views. -/
theorem shown_clocks_skew (client : ClientState) (es : List ClockEvent) (k : Int) :
    displayed_clocks (clock_run client (es.map (.skew k))) =
      (family ClockView.step ClockEvent.skew client.game_state.clock_view es k).shown := by
  unfold family
  rw [← clock_view_run]
  rfl

/-- **Clock skew.** For any sequence of messages and timer calls, from any
    state of the client: the clocks it shows are the same after every event
    whatever the skew exactly if the timer is never called in a game in
    progress whose clocks were last set with a stamp of the server. -/
theorem clocks_skew_free_iff (client : ClientState) (es : List ClockEvent) :
    (∀ k pre, pre <+: es →
      displayed_clocks (clock_run client (pre.map (.skew k))) =
        displayed_clocks (clock_run client pre)) ↔
    ∀ pre now, pre ++ [.timer now] <+: es →
      (clock_run client pre).game_state.game_in_progress = true →
      server_stamped pre = false := by
  have hunwind : Indistinguishable ClockView.step ClockEvent.skew ClockView.shown
      client.game_state.clock_view es ↔ Everywhere (OneClock client) es :=
    indistinguishable_iff (.start : SkewedBy client [] fun _ => client.game_state.clock_view)
      (fun _ _ _ h hok => h.step hok) fun _ _ _ h => h.looks_iff
  have hskewless : ∀ pre, displayed_clocks (clock_run client pre) =
      (family ClockView.step ClockEvent.skew client.game_state.clock_view pre 0).shown := by
    intro pre
    rw [← shown_clocks_skew, List.map_congr_left (fun e _ => skew_zero e), List.map_id']
  constructor
  · intro h pre now hpre hprogress
    have hfamily : Indistinguishable ClockView.step ClockEvent.skew ClockView.shown
        client.game_state.clock_view es := by
      intro pre hpre k k'
      rw [← shown_clocks_skew, ← shown_clocks_skew, h k pre hpre, h k' pre hpre]
    exact hunwind.mp hfamily pre _ hpre now rfl hprogress
  · intro h k pre hpre
    have hok : Everywhere (OneClock client) es := by
      intro pre e hpre now he
      subst he
      exact h pre now hpre
    rw [shown_clocks_skew, hskewless]
    exact hunwind.mpr hok pre hpre k 0

/-- A game starts with a stamp of 100 seconds, and the clock of the client
    shows ten seconds more when the timer is called. -/
def timed_start : List ClockEvent :=
  [.message ⟨fun _ => 110, true, true⟩ (.match_game_res
      { success := true, message := [], assigned_team := .white, opponent_name := "bob".toList
        time_limit_per_player := 600, game_start_time := some 100
        white_time_remaining := 600, black_time_remaining := 600 }),
    .timer 110]

/-- If the server's clock went ten seconds ahead, White would still have all
    of the time. -/
theorem clocks_skew_free_broken :
    ¬ ∀ (client : ClientState) (es : List ClockEvent) (k : Int) (pre : List ClockEvent),
      pre <+: es → displayed_clocks (clock_run client (pre.map (.skew k))) =
        displayed_clocks (clock_run client pre) := by
  intro h
  have hsame := h init_client_state timed_start 10 timed_start (List.prefix_refl _)
  have hskewed : displayed_clocks (clock_run init_client_state (timed_start.map (.skew 10))) =
      (600, 600) := by decide +kernel
  have hplain : displayed_clocks (clock_run init_client_state timed_start) = (590, 600) := by
    decide +kernel
  rw [hskewed, hplain] at hsame
  cases hsame

end MultiplayChess
