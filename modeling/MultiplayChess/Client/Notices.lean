import MultiplayChess.Client.Dialogs

/-! # Notifications

    Two of the flags of the network thread go when their dialog is drawn,
    the other two when the user acknowledges a dialog.  The acknowledgement
    does not know which dialog is open: it goes by the flags. -/

namespace MultiplayChess

open LTS

/-! ## What has been drawn since

    Two history variables: how much had been drawn when a flag was last set,
    and which flag the open dialog is for. -/

structure Noted where
  /-- How many dialogs had been drawn when the flag was last set. -/
  mark : Notification → Nat
  /-- The flag the main loop has opened the dialog for, unless it has been
      set again since. -/
  open_for : Option Notification

def Noted.next (noted : Noted) (client : Client) (e : ClientEvent) (_client' : Client) : Noted :=
  match client.dialog_event e with
  | some (.announce n) =>
    { mark := Function.update noted.mark n client.drawn.length
      open_for := if noted.open_for = some n then none else noted.open_for }
  | some (.draw n) => { noted with open_for := some n }
  | some .acknowledge => { noted with open_for := none }
  | none => noted

/-- The client with its history. -/
def noting : System (Client × Noted) ClientEvent :=
  session.with_ghost Noted.next

def noting_init : Client × Noted :=
  (init_client, { mark := fun _ => 0, open_for := none })

/-- The flags the step clears have had their dialog drawn since they were
    last set. -/
def Delivers (s : Client × Noted) (e : ClientEvent) : Prop :=
  ∀ s', noting.step s e s' → ∀ n, s.1.pending n = true → s'.1.pending n = false →
    s.1.dialog_of n ∈ s'.1.drawn.drop (s.2.mark n)

/-- Who acknowledges a dialog answers the one the main loop has opened for
    the flag that goes, and that flag has not been set again since. -/
def AnswersOpenDialog (s : Client × Noted) (e : ClientEvent) : Prop :=
  s.1.dialog_event e = some .acknowledge → ∀ n, s.1.clears = some n → s.2.open_for = some n

/-- What the runs keep. -/
structure Accounted (s : Client × Noted) : Prop where
  mark : ∀ n, s.2.mark n ≤ s.1.drawn.length
  titled : ∀ n, s.1.pending n = true → (s.1.dialog_of n).1 ∈ n.titles
  active : ∀ n, s.2.open_for = some n → s.1.state.dialog_active = true
  drawn : ∀ n, s.2.open_for = some n → s.1.dialog_of n ∈ s.1.drawn.drop (s.2.mark n)
  open_for : ∀ n, n.stays = true → s.1.pending n = true →
    s.1.dialog_of n ∈ s.1.drawn.drop (s.2.mark n) → s.2.open_for = some n

theorem accounted_init : Accounted noting_init := by
  constructor
  · intro n
    exact Nat.zero_le _
  · intro n hpending
    cases n <;> cases hpending
  · exact nofun
  · exact nofun
  · intro n _ hpending
    cases n <;> cases hpending

theorem clears_pending {client : Client} {n : Notification} (h : client.clears = some n) :
    n.stays = true ∧ client.pending n = true := by
  unfold Client.clears at h
  split at h
  · rename_i hlost
    cases h
    exact ⟨rfl, hlost⟩
  · split at h
    · rename_i hdisconnected
      cases h
      exact ⟨rfl, hdisconnected⟩
    · cases h

theorem clears_none {client : Client} (h : client.clears = none) {n : Notification}
    (hstays : n.stays = true) : client.pending n = false := by
  unfold Client.clears at h
  split at h
  · cases h
  · rename_i hlost
    split at h
    · cases h
    · rename_i hdisconnected
      cases n with
      | connection_lost => exact Bool.eq_false_of_not_eq_true hlost
      | opponent_disconnected => exact Bool.eq_false_of_not_eq_true hdisconnected
      | _ => cases hstays

section noting

variable {s s' : Client × Noted} {n : Notification}

/-! ### One step -/

theorem Accounted.quiet (h : Accounted s) (hquiet : Quiet s.1 s'.1) (hnoted : s'.2 = s.2) :
    Accounted s' := by
  constructor
  · intro n
    rw [hnoted, hquiet.drawn]
    exact h.mark n
  · intro n
    rw [hquiet.pending, hquiet.dialog_of]
    exact h.titled n
  · intro n
    rw [hnoted]
    exact fun hopen => hquiet.active (h.active n hopen)
  · intro n
    rw [hnoted, hquiet.dialog_of, hquiet.drawn]
    exact h.drawn n
  · intro n
    rw [hnoted, hquiet.pending, hquiet.dialog_of, hquiet.drawn]
    exact h.open_for n

/-- A flag that is set again no longer has the dialog. -/
theorem open_for_flagged {open_for : Option Notification} {m : Notification} :
    (if open_for = some n then none else open_for) = some m ↔ m ≠ n ∧ open_for = some m := by
  split
  · rename_i hopen
    rw [hopen]
    exact iff_of_false nofun fun h => h.1 (Option.some.inj h.2).symm
  · rename_i hopen
    constructor
    · intro hm
      refine ⟨?_, hm⟩
      rintro rfl
      exact hopen hm
    · exact And.right

/-- A flag that is set has had nothing drawn since. -/
theorem Accounted.flagged (h : Accounted s) (hflagged : Flagged n s.1 s'.1)
    (hnoted : s'.2 =
      { mark := Function.update s.2.mark n s.1.drawn.length
        open_for := if s.2.open_for = some n then none else s.2.open_for }) :
    Accounted s' := by
  obtain ⟨hmarks, hopen_for⟩ := Noted.mk.inj hnoted
  constructor
  · intro m
    rw [hflagged.drawn, hmarks]
    by_cases hm : m = n
    · rw [hm, Function.update_self]
    · rw [Function.update_of_ne hm]
      exact h.mark m
  · intro m hpending
    by_cases hm : m = n
    · rw [hm]
      exact hflagged.titled
    · rw [hflagged.pending, Function.update_of_ne hm] at hpending
      rw [hflagged.dialog_of m hm]
      exact h.titled m hpending
  · intro m hopen
    rw [hopen_for, open_for_flagged] at hopen
    exact hflagged.active (h.active m hopen.2)
  · intro m hopen
    rw [hopen_for, open_for_flagged] at hopen
    obtain ⟨hm, hbefore⟩ := hopen
    rw [hflagged.dialog_of m hm, hflagged.drawn, hmarks, Function.update_of_ne hm]
    exact h.drawn m hbefore
  · intro m hstays hpending hdrawn
    rw [hflagged.drawn, hmarks] at hdrawn
    by_cases hm : m = n
    · -- nothing has been drawn since its mark
      rw [hm, Function.update_self, List.drop_length] at hdrawn
      cases hdrawn
    · rw [hflagged.pending, Function.update_of_ne hm] at hpending
      rw [hflagged.dialog_of m hm, Function.update_of_ne hm] at hdrawn
      rw [hopen_for, open_for_flagged]
      exact ⟨hm, h.open_for m hstays hpending hdrawn⟩

/-- Only its own dialog delivers a flag. -/
theorem Accounted.drew (h : Accounted s) (hdrew : Drew n s.1 s'.1)
    (hnoted : s'.2 = { s.2 with open_for := some n }) : Accounted s' := by
  have hdrop : ∀ m, s'.1.drawn.drop (s'.2.mark m) =
      s.1.drawn.drop (s.2.mark m) ++ [s.1.dialog_of n] := by
    intro m
    rw [hnoted, hdrew.drawn]
    exact List.drop_append_of_le_length (h.mark m)
  constructor
  · intro m
    rw [hnoted, hdrew.drawn, List.length_append]
    exact Nat.le_add_right_of_le (h.mark m)
  · intro m hpending
    rw [hdrew.dialog_of]
    by_cases hm : m = n
    · rw [hm]
      exact h.titled n hdrew.due
    · rw [hdrew.pending m hm] at hpending
      exact h.titled m hpending
  · intro _ _
    exact hdrew.active
  · intro m hopen
    rw [hnoted] at hopen
    cases hopen
    rw [hdrop, hdrew.dialog_of]
    exact List.mem_append_right _ (List.mem_singleton_self _)
  · intro m hstays hpending hdrawn
    rw [hnoted]
    by_contra hother
    have hm : m ≠ n := fun hm => hother (congrArg some hm.symm)
    rw [hdrew.pending m hm] at hpending
    rw [hdrop, hdrew.dialog_of] at hdrawn
    rcases List.mem_append.mp hdrawn with hbefore | hnow
    · -- its dialog would still be open
      have hactive := h.active m (h.open_for m hstays hpending hbefore)
      rw [hdrew.inactive] at hactive
      cases hactive
    · have htitle := h.titled m hpending
      rw [List.mem_singleton.mp hnow] at htitle
      exact hm (Notification.eq_of_title htitle (h.titled n hdrew.due))

/-- An acknowledgement of the right dialog leaves no other one open. -/
theorem Accounted.closed (h : Accounted s) (hclosed : Closed s.1 s'.1)
    (hnoted : s'.2 = { s.2 with open_for := none })
    (hanswers : ∀ n, s.1.clears = some n → s.2.open_for = some n) : Accounted s' := by
  constructor
  · intro n
    rw [hnoted, hclosed.drawn]
    exact h.mark n
  · intro n hpending
    rw [hclosed.dialog_of]
    exact h.titled n ((hclosed.pending n).mp hpending).1
  · intro n hopen
    rw [hnoted] at hopen
    cases hopen
  · intro n hopen
    rw [hnoted] at hopen
    cases hopen
  · intro n hstays hpending hdrawn
    obtain ⟨hbefore, hkept⟩ := (hclosed.pending n).mp hpending
    rw [hnoted, hclosed.dialog_of, hclosed.drawn] at hdrawn
    -- the open dialog was that of the flag which stays
    have hopen := h.open_for n hstays hbefore hdrawn
    cases hclears : s.1.clears with
    | none =>
      rw [clears_none hclears hstays] at hbefore
      cases hbefore
    | some m =>
      rw [hanswers m hclears] at hopen
      exact absurd (hclears.trans hopen) hkept

/-- The effect of a step on client and history. -/
theorem noting_step {e : ClientEvent} (hstep : noting.step s e s') :
    Effect s.1 s'.1 (s.1.dialog_event e) ∧ s'.2 = s.2.next s.1 e s'.1 :=
  ⟨step_effect hstep.1, hstep.2⟩

theorem Accounted.step {e : ClientEvent} (h : Accounted s) (hanswers : AnswersOpenDialog s e)
    (hstep : noting.step s e s') : Accounted s' := by
  obtain ⟨heffect, hnoted⟩ := noting_step hstep
  unfold Noted.next at hnoted
  unfold AnswersOpenDialog at hanswers
  cases hevent : s.1.dialog_event e with
  | none =>
    rw [hevent] at heffect hnoted
    exact h.quiet heffect hnoted
  | some event =>
    rw [hevent] at heffect hnoted hanswers
    cases event with
    | announce n => exact h.flagged heffect hnoted
    | draw n => exact h.drew heffect hnoted
    | acknowledge => exact h.closed heffect hnoted (hanswers rfl)

/-- An acknowledgement delivers what it clears exactly if it answers the
    dialog of that flag. -/
theorem Accounted.acknowledge_iff (h : Accounted s) (hclears : s.1.clears = some n) :
    s.1.dialog_of n ∈ s.1.drawn.drop (s.2.mark n) ↔ s.2.open_for = some n := by
  obtain ⟨hstays, hpending⟩ := clears_pending hclears
  constructor
  · exact h.open_for n hstays hpending
  · exact h.drawn n

theorem Accounted.delivers_acknowledge_iff {e : ClientEvent} (h : Accounted s)
    (hstep : noting.step s e s') (hevent : s.1.dialog_event e = some .acknowledge) :
    Delivers s e ↔ ∀ n, s.1.clears = some n → s.2.open_for = some n := by
  have hclosed : ∀ t, noting.step s e t → Closed s.1 t.1 := by
    intro t ht
    have heffect := (noting_step ht).1
    rw [hevent] at heffect
    exact heffect
  constructor
  · intro hdelivers n hclears
    have hcleared : s'.1.pending n = false := by
      rw [← Bool.not_eq_true, (hclosed s' hstep).pending]
      exact fun hkept => hkept.2 hclears
    have hdrawn := hdelivers s' hstep n (clears_pending hclears).2 hcleared
    rw [(hclosed s' hstep).drawn] at hdrawn
    exact (h.acknowledge_iff hclears).mp hdrawn
  · intro hanswers t ht n hpending hcleared
    rw [(hclosed t ht).drawn]
    have hclears : s.1.clears = some n := by
      by_contra hkept
      rw [((hclosed t ht).pending n).mpr ⟨hpending, hkept⟩] at hcleared
      cases hcleared
    exact (h.acknowledge_iff hclears).mpr (hanswers n hclears)

/-- A flag that goes without an acknowledgement goes with its dialog. -/
theorem Accounted.delivers {e : ClientEvent} (h : Accounted s)
    (hevent : s.1.dialog_event e ≠ some .acknowledge) : Delivers s e := by
  intro t ht n hpending hcleared
  have heffect := (noting_step ht).1
  cases hwhat : s.1.dialog_event e with
  | none =>
    rw [hwhat] at heffect
    rw [Quiet.pending heffect, hpending] at hcleared
    cases hcleared
  | some event =>
    rw [hwhat] at heffect hevent
    cases event with
    | announce m =>
      rw [Flagged.pending heffect] at hcleared
      by_cases hn : n = m
      · rw [hn, Function.update_self] at hcleared
        cases hcleared
      · rw [Function.update_of_ne hn, hpending] at hcleared
        cases hcleared
    | draw m =>
      by_cases hn : n = m
      · rw [hn, Drew.drawn heffect, List.drop_append_of_le_length (h.mark m)]
        exact List.mem_append_right _ (List.mem_singleton_self _)
      · rw [Drew.pending heffect n hn, hpending] at hcleared
        cases hcleared
    | acknowledge => exact absurd rfl hevent

/-- **One step.** -/
theorem Accounted.delivers_iff {e : ClientEvent} (h : Accounted s) (hstep : noting.step s e s') :
    Delivers s e ↔ AnswersOpenDialog s e := by
  by_cases hevent : s.1.dialog_event e = some .acknowledge
  · rw [h.delivers_acknowledge_iff hstep hevent]
    constructor
    · intro hanswers _
      exact hanswers
    · intro hanswers
      exact hanswers hevent
  · apply iff_of_true
    · exact h.delivers hevent
    · intro hacknowledge
      exact absurd hacknowledge hevent

end noting

/-! ## Runs -/

/-- **No notification is lost** in a run exactly if every acknowledgement of
    it that clears a flag answers the dialog of that flag: not one of another
    notification, of a server error or of a small terminal, and not one
    drawn before the flag was set again. -/
theorem notices_delivered_iff (es : List ClientEvent) (s : Client × Noted) :
    RunWhere noting Delivers noting_init es s ↔
      RunWhere noting AnswersOpenDialog noting_init es s := by
  apply RunWhere.where_iff accounted_init
  · intro s e s' h hdelivers hstep
    exact h.step ((h.delivers_iff hstep).mp hdelivers) hstep
  · intro s e s' h hstep
    exact h.delivers_iff hstep

/-! ## A connection that is lost unseen -/

/-- `ann` leaves the game; while the dialog that says so is open, the
    connection goes. -/
def lost_behind_dialog : List ClientEvent :=
  [.connected true, .key bob_types (.char '1'),
    .message ⟨fun _ => 0, true, true⟩ (.match_game_res bob_starts),
    .message ⟨fun _ => 0, true, true⟩ (.game_end
      { game_id := "game_0_1".toList, player_id := "ann".toList, winner_team := .white,
        end_type := .disconnect }),
    .dialog, .lost]

/-- The step with the history, as a function. -/
def note (s : Client × Noted) (e : ClientEvent) : Option (Client × Noted) :=
  (s.1.step e).map fun client' => (client', s.2.next s.1 e client')

theorem note_step {s s' : Client × Noted} {e : ClientEvent} (h : note s e = some s') :
    noting.step s e s' :=
  with_ghost_step (fun _ _ _ hstep => hstep) Noted.next h

/-- Enter: whether the connection is lost before and after it, and the titles
    of what has been drawn. -/
def enter (s : Client × Noted) : Option (Bool × Bool × List CString) :=
  (note s (.key bob_types (.char '\n'))).map fun s' =>
    (s.1.connection_lost, s'.1.connection_lost, s'.1.drawn.map Prod.fst)

theorem enter_lost_behind_dialog : (lost_behind_dialog.foldlM note noting_init).bind enter =
    some (true, false, ["Opponent Disconnected".toList]) := by
  decide +kernel

/-- The user closes the one dialog, and nothing tells him of the other. -/
theorem notices_delivered_broken :
    ¬ ∀ (es : List ClientEvent) (s : Client × Noted) (e : ClientEvent),
      Run noting noting_init es s → Delivers s e := by
  intro hall
  obtain ⟨s, hexec, henter⟩ := Option.bind_eq_some_iff.mp enter_lost_behind_dialog
  obtain ⟨s', hnote, hseen⟩ := Option.map_eq_some_iff.mp henter
  obtain ⟨hlost, hseen'⟩ := Prod.mk.inj hseen
  obtain ⟨hcleared, htitles⟩ := Prod.mk.inj hseen'
  have hrun : Run noting noting_init lost_behind_dialog s :=
    foldlM_run (fun _ _ _ => note_step) hexec
  have hdrawn := hall _ s _ hrun s' (note_step hnote) .connection_lost hlost hcleared
  have htitle : "Connection Lost".toList ∈ s'.1.drawn.map Prod.fst :=
    List.mem_map_of_mem (f := Prod.fst) (List.mem_of_mem_drop hdrawn)
  rw [htitles] at htitle
  exact absurd htitle (by decide)

end MultiplayChess
