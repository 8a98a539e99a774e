import MultiplayChess.Client.Rematch

/-! # Flags and dialogs

    The network thread tells the main thread what the user should know with
    four flags, each with a text of its own; the main loop shows one dialog
    at a time.  What a step of either thread does to the flags, to their
    texts and to the dialogs. -/

namespace MultiplayChess

open LTS

/-- The flags. -/
inductive Notification where
  | connection_lost
  | resign_result
  | opponent_disconnected
  | game_end
  deriving DecidableEq, Repr

/-- The flag stays set while its dialog is open. -/
def Notification.stays : Notification → Bool
  | .connection_lost => true
  | .opponent_disconnected => true
  | _ => false

/-- The titles of the dialogs of a flag. -/
def Notification.titles : Notification → List CString
  | .connection_lost => ["Connection Lost".toList]
  | .resign_result => ["Game Over - Resignation".toList, "Game Over - Victory".toList]
  | .opponent_disconnected => ["Opponent Disconnected".toList]
  | .game_end => ["Game Over".toList]

/-- The title tells the dialogs apart. -/
theorem Notification.eq_of_title {n m : Notification} {title : CString}
    (hn : title ∈ n.titles) (hm : title ∈ m.titles) : n = m := by
  have hdisjoint : ∀ n m : Notification, n ≠ m → ∀ title ∈ n.titles, title ∉ m.titles := by
    intro n m
    cases n <;> cases m <;> decide
  by_contra hne
  exact hdisjoint n m hne title hn hm

namespace Client

def pending (client : Client) : Notification → Bool
  | .connection_lost => client.connection_lost
  | .resign_result => client.state.resign_result_dialog_pending
  | .opponent_disconnected => client.state.game_state.opponent_disconnected
  | .game_end => client.state.game_end_dialog_pending

/-- Title and text of the dialog that goes with a flag. -/
def dialog_of (client : Client) : Notification → CString × CString
  | .connection_lost => ("Connection Lost".toList, client.disconnect_message)
  | .resign_result => (client.state.resign_result_title, client.state.resign_result_message)
  | .opponent_disconnected =>
    ("Opponent Disconnected".toList, client.state.game_state.opponent_disconnect_message)
  | .game_end => ("Game Over".toList, client.state.game_end_message)

/-- Whose turn it is when the main loop comes to its pending dialogs. -/
def next_dialog (client : Client) : Option Notification :=
  if client.state.dialog_active then none
  else if client.connection_lost then some .connection_lost
  else if client.state.resign_result_dialog_pending then some .resign_result
  else if client.state.game_state.opponent_disconnected then some .opponent_disconnected
  else if client.state.game_end_dialog_pending then some .game_end
  else none

/-- The flag an acknowledgement clears. -/
def clears (client : Client) : Option Notification :=
  if client.connection_lost then some .connection_lost
  else if client.state.game_state.opponent_disconnected then some .opponent_disconnected
  else none

end Client

/-- What a step means for the flags. -/
inductive DialogEvent where
  /-- The network thread sets a flag. -/
  | announce (n : Notification)
  /-- The main loop draws the dialog of a flag. -/
  | draw (n : Notification)
  /-- The user acknowledges the open dialog. -/
  | acknowledge

def Client.dialog_event (client : Client) : ClientEvent → Option DialogEvent
  | .message _ (.game_end _) => some (.announce .opponent_disconnected)
  | .message _ (.resign_broadcast _) => some (.announce .resign_result)
  | .message _ (.move_broadcast b) => if b.game_ends then some (.announce .game_end) else none
  | .lost =>
    if client.state.current_screen = .game then some (.announce .connection_lost) else none
  | .dialog => client.next_dialog.map .draw
  | .key _ ch =>
    if client.state.dialog_active && Client.closes_dialog ch then some .acknowledge else none
  | _ => none

/-! ## Steps -/

/-- The flags with their dialogs, and what has been drawn. -/
def Client.notices (client : Client) :
    (Notification → Bool) × (Notification → CString × CString) × List (CString × CString) :=
  (client.pending, client.dialog_of, client.drawn)

/-- Nothing is announced, drawn or acknowledged. -/
structure Quiet (client client' : Client) : Prop where
  notices : client'.notices = client.notices
  active : client.state.dialog_active = true → client'.state.dialog_active = true

/-- A flag is set. -/
structure Flagged (n : Notification) (client client' : Client) : Prop where
  pending : client'.pending = Function.update client.pending n true
  dialog_of : ∀ m, m ≠ n → client'.dialog_of m = client.dialog_of m
  titled : (client'.dialog_of n).1 ∈ n.titles
  drawn : client'.drawn = client.drawn
  active : client.state.dialog_active = true → client'.state.dialog_active = true

/-- The dialog of a flag is drawn. -/
structure Drew (n : Notification) (client client' : Client) : Prop where
  due : client.pending n = true
  inactive : client.state.dialog_active = false
  pending : ∀ m, m ≠ n → client'.pending m = client.pending m
  dialog_of : client'.dialog_of = client.dialog_of
  drawn : client'.drawn = client.drawn ++ [client.dialog_of n]
  active : client'.state.dialog_active = true

/-- The open dialog is acknowledged. -/
structure Closed (client client' : Client) : Prop where
  pending : ∀ n, client'.pending n = true ↔ client.pending n = true ∧ client.clears ≠ some n
  dialog_of : client'.dialog_of = client.dialog_of
  drawn : client'.drawn = client.drawn

/-- What each of them does. -/
def Effect (client client' : Client) : Option DialogEvent → Prop
  | some (.announce n) => Flagged n client client'
  | some (.draw n) => Drew n client client'
  | some .acknowledge => Closed client client'
  | none => Quiet client client'

section steps

variable {client client' : Client}

theorem Quiet.refl : Quiet client client :=
  ⟨rfl, id⟩

theorem Quiet.trans {client'' : Client} (h : Quiet client client') (h' : Quiet client' client'') :
    Quiet client client'' :=
  ⟨h'.notices.trans h.notices, fun hopen => h'.active (h.active hopen)⟩

theorem Quiet.pending (h : Quiet client client') : client'.pending = client.pending :=
  congrArg Prod.fst h.notices

theorem Quiet.dialog_of (h : Quiet client client') : client'.dialog_of = client.dialog_of :=
  congrArg (fun view => view.2.1) h.notices

theorem Quiet.drawn (h : Quiet client client') : client'.drawn = client.drawn :=
  congrArg (fun view => view.2.2) h.notices

theorem Quiet.flagged {client'' : Client} {n : Notification} (h : Quiet client client')
    (h' : Flagged n client' client'') : Flagged n client client'' := by
  constructor
  · rw [h'.pending, h.pending]
  · intro m hm
    rw [h'.dialog_of m hm, h.dialog_of]
  · exact h'.titled
  · exact h'.drawn.trans h.drawn
  · exact fun hopen => h'.active (h.active hopen)

theorem Quiet.of_beyond_keys (h : client'.beyond_keys = client.beyond_keys) :
    Quiet client client' := by
  have hnotices := congrArg Client.notices h
  have hactive := congrArg (fun client : Client => client.state.dialog_active) h
  exact ⟨hnotices, fun hopen => hactive.trans hopen⟩

/-- The flag of a lost opponent, with its text. -/
def opponent_notice (state : GameState) : Bool × CString :=
  (state.opponent_disconnected, state.opponent_disconnect_message)

/-- Of the game only the flag of a lost opponent matters. -/
theorem Quiet.of_opponent_notice {state : GameState} {update : Bool}
    (h : opponent_notice state = opponent_notice client.state.game_state) :
    Quiet client { client with state := { client.state with
      game_state := state, screen_update_requested := update } } := by
  obtain ⟨hflag, htext⟩ := Prod.mk.inj h
  refine ⟨Prod.ext ?_ (Prod.ext ?_ rfl), id⟩
  · funext n
    cases n with
    | opponent_disconnected => exact hflag
    | _ => rfl
  · funext n
    cases n with
    | opponent_disconnected => exact Prod.ext rfl htext
    | _ => rfl

theorem Quiet.of_beyond_replay (h : client'.beyond_replay = client.beyond_replay) :
    Quiet client client' := by
  have hnotices := congrArg Client.notices h
  have hactive := congrArg (fun client : Client => client.state.dialog_active) h
  exact ⟨hnotices, fun hopen => hactive.trans hopen⟩

/-! ### Messages -/

theorem opponent_notice_broadcast (state : GameState) (env : ClientEnv) (b : MoveBroadcast) :
    opponent_notice (sync_clocks (update_check_flags (record_move state b) b) env b) =
      opponent_notice state := by
  obtain ⟨_, _, hmoves⟩ := record_move_eq state b
  obtain ⟨_, _, hflags⟩ := update_check_flags_eq (record_move state b) b
  obtain ⟨_, _, _, _, _, _, hclocks⟩ :=
    sync_clocks_eq (update_check_flags (record_move state b) b) env b
  rw [hclocks, hflags, hmoves]
  rfl

theorem quiet_apply_broadcast (env : ClientEnv) (b : MoveBroadcast) :
    Quiet client { client with state := apply_broadcast client.state env b } := by
  unfold apply_broadcast
  simp only
  split
  · apply Quiet.of_opponent_notice
    exact opponent_notice_broadcast ..
  · exact ⟨rfl, id⟩

/-- Saving writes the result and the file only. -/
theorem Quiet.save {state : ClientState} (h : Quiet client { client with state := state })
    (files : FileEnv) : Quiet client { client with state := state.save files } :=
  h.trans (.of_beyond_keys (@Client.save_beyond_keys { client with state := state } files))

theorem Quiet.game_end {state : ClientState} (h : Quiet client { client with state := state })
    (message : CString) : Flagged .game_end client { client with state := { state with
      game_state := { state.game_state with game_in_progress := false }
      game_end_dialog_pending := true
      game_end_message := message
      screen_update_requested := true } } := by
  apply h.flagged
  constructor
  · funext n
    cases n <;> rfl
  · intro n hn
    cases n with
    | game_end => exact absurd rfl hn
    | _ => rfl
  · exact List.mem_singleton_self _
  · rfl
  · exact id

theorem Quiet.resign_result {state : ClientState} (h : Quiet client { client with state := state })
    {title : CString} (htitle : title ∈ Notification.resign_result.titles) (message : CString) :
    Flagged .resign_result client { client with state := { state with
      game_state := { state.game_state with game_in_progress := false }
      resign_result_dialog_pending := true
      resign_result_title := title
      resign_result_message := message
      screen_update_requested := true } } := by
  apply h.flagged
  constructor
  · funext n
    cases n <;> rfl
  · intro n hn
    cases n with
    | resign_result => exact absurd rfl hn
    | _ => rfl
  · exact htitle
  · rfl
  · exact id

theorem flagged_resign_broadcast (env : ClientEnv) (b : ResignBroadcast) :
    Flagged .resign_result client
      { client with state := handle_resign_broadcast client.state env b } := by
  apply Quiet.resign_result
  · apply Quiet.save
    exact ⟨rfl, id⟩
  · split <;> decide

theorem flagged_game_end_broadcast (env : ClientEnv) (b : GameEndBroadcast) :
    Flagged .opponent_disconnected client (client.receive env (.game_end b)) := by
  constructor
  · funext n
    cases n <;> rfl
  · intro n hn
    cases n with
    | opponent_disconnected => exact absurd rfl hn
    | _ => rfl
  · exact List.mem_singleton_self _
  · rfl
  · exact id

theorem receive_effect (env : ClientEnv) (msg : ServerMessage) :
    Effect client (client.receive env msg) (client.dialog_event (.message env msg)) := by
  cases msg with
  | game_end b => exact flagged_game_end_broadcast env b
  | resign_broadcast b => exact flagged_resign_broadcast env b
  | move_broadcast b =>
    show Effect client { client with state := handle_move_broadcast client.state env b }
      (if b.game_ends then some (.announce .game_end) else none)
    unfold handle_move_broadcast
    simp only
    split
    · apply Quiet.game_end
      apply Quiet.save
      exact (quiet_apply_broadcast env b).trans ⟨rfl, id⟩
    · exact quiet_apply_broadcast env b
  | match_game_res res =>
    show Quiet client { client with state := handle_match_game_response client.state env res }
    unfold handle_match_game_response
    repeat' split
    all_goals exact ⟨rfl, id⟩
  | move_res res =>
    show Quiet client { client with state := handle_move_response client.state res }
    unfold handle_move_response
    split <;> exact ⟨rfl, id⟩
  | resign_res res =>
    show Quiet client { client with state := handle_resign_response client.state res }
    unfold handle_resign_response
    split <;> exact ⟨rfl, id⟩
  | error res => exact ⟨rfl, fun _ => rfl⟩
  | _ => exact ⟨rfl, id⟩

/-! ### The other steps -/

theorem lose_connection_effect :
    Effect client client.lose_connection (client.dialog_event .lost) := by
  show Effect client client.lose_connection
    (if client.state.current_screen = .game then some (.announce .connection_lost) else none)
  unfold Client.lose_connection
  simp only
  split
  · constructor
    · funext n
      cases n <;> rfl
    · intro n hn
      cases n with
      | connection_lost => exact absurd rfl hn
      | _ => rfl
    · exact List.mem_singleton_self _
    · rfl
    · exact id
  · exact ⟨rfl, id⟩

theorem quiet_reconnect (send : Bool) : Quiet client (client.reconnect send) := by
  unfold Client.reconnect
  split <;> exact ⟨rfl, id⟩

/-- The dialog whose turn it is, if any. -/
theorem show_pending_dialog_effect :
    Effect client client.show_pending_dialog (client.dialog_event .dialog) := by
  show Effect client client.show_pending_dialog (client.next_dialog.map .draw)
  unfold Client.show_pending_dialog Client.next_dialog
  cases hactive : client.state.dialog_active with
  | true => exact .refl
  | false =>
    -- the flags in the order in which the loop asks for them
    rw [if_neg Bool.false_ne_true, if_neg Bool.false_ne_true]
    split
    · rename_i hdue
      exact ⟨hdue, hactive, fun _ _ => rfl, rfl, rfl, rfl⟩
    · split
      · rename_i hdue
        refine ⟨hdue, hactive, ?_, rfl, rfl, rfl⟩
        intro m hm
        cases m with
        | resign_result => exact absurd rfl hm
        | _ => rfl
      · split
        · rename_i hdue
          exact ⟨hdue, hactive, fun _ _ => rfl, rfl, rfl, rfl⟩
        · split
          · rename_i hdue
            refine ⟨hdue, hactive, ?_, rfl, rfl, rfl⟩
            intro m hm
            cases m with
            | game_end => exact absurd rfl hm
            | _ => rfl
          · exact .refl

theorem acknowledge_dialog_closed : Closed client client.acknowledge_dialog := by
  unfold Client.acknowledge_dialog
  simp only
  split
  · rename_i hlost
    have hclears : client.clears = some .connection_lost := if_pos hlost
    refine ⟨?_, rfl, rfl⟩
    intro n
    rw [hclears]
    cases n with
    | connection_lost => exact iff_of_false Bool.false_ne_true fun h => h.2 rfl
    | _ => exact (and_iff_left (by decide)).symm
  · rename_i hlost
    split
    · rename_i hdisconnected
      have hclears : client.clears = some .opponent_disconnected :=
        (if_neg hlost).trans (if_pos hdisconnected)
      refine ⟨?_, rfl, rfl⟩
      intro n
      rw [hclears]
      cases n with
      | opponent_disconnected => exact iff_of_false Bool.false_ne_true fun h => h.2 rfl
      | _ => exact (and_iff_left (by decide)).symm
    · rename_i hdisconnected
      have hclears : client.clears = none := (if_neg hlost).trans (if_neg hdisconnected)
      refine ⟨?_, rfl, rfl⟩
      intro n
      rw [hclears]
      exact (and_iff_left nofun).symm

/-- An open dialog keeps all other keys out. -/
theorem handle_key_effect {env : KeyEnv} {ch : Key} (h : client.handle_key env ch = some client') :
    Effect client client' (client.dialog_event (.key env ch)) := by
  show Effect client client'
    (if client.state.dialog_active && Client.closes_dialog ch then some .acknowledge else none)
  split
  · rename_i hcloses
    obtain ⟨hactive, hch⟩ := Bool.and_eq_true_iff.mp hcloses
    unfold Client.handle_key at h
    rw [if_pos hactive, if_pos (Client.closes_dialog_iff.mp hch)] at h
    cases h
    exact acknowledge_dialog_closed
  · rename_i hother
    rcases Client.handle_key_cases h with ⟨hactive, hch, _⟩ | ⟨file, rfl⟩ | hbeyond
    · exact absurd (Bool.and_eq_true_iff.mpr ⟨hactive, hch⟩) hother
    · exact .of_beyond_replay (Client.start_replay_beyond_replay file)
    · exact .of_beyond_keys hbeyond

theorem quiet_timer (now : Int) :
    Quiet client { client with state := { client.state with
      game_state := Client.update_game_timer client.state.game_state now } } := by
  obtain ⟨_, _, _, htimer⟩ := Client.update_game_timer_eq client.state.game_state now
  rw [htimer]
  exact .of_opponent_notice rfl

/-- **What a step does** to flags and dialogs. -/
theorem step_effect {e : ClientEvent} (hstep : client.step e = some client') :
    Effect client client' (client.dialog_event e) := by
  cases e with
  | message env msg =>
    cases hstep
    exact receive_effect env msg
  | lost =>
    cases hstep
    exact lose_connection_effect
  | connected send =>
    cases hstep
    exact quiet_reconnect send
  | key env ch => exact handle_key_effect (step_key.mp hstep).2
  | dialog =>
    obtain ⟨_, rfl⟩ := step_dialog.mp hstep
    exact show_pending_dialog_effect
  | timer now =>
    obtain ⟨_, rfl⟩ := step_timer.mp hstep
    exact quiet_timer now
  | resize too_small =>
    obtain ⟨_, rfl⟩ := step_resize.mp hstep
    exact ⟨rfl, fun hopen => Bool.or_eq_true_iff.mpr (.inl hopen)⟩
  | auto_play now later =>
    obtain ⟨replay, _, rfl⟩ := step_auto_play.mp hstep
    exact .of_beyond_replay (Client.auto_play_beyond_replay now later)
  | replay_key now ch =>
    obtain ⟨replay, _, rfl⟩ := step_replay_key.mp hstep
    exact .of_beyond_replay (Client.handle_replay_key_beyond_replay now)

end steps

end MultiplayChess
