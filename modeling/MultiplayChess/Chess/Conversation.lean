import MultiplayChess.Chess.Club

/-! # What one guest notices

    The notices of a single address in the club are a sequence of
    conversations: a game starts, moves that the rules allow follow one
    another from the start position, each with what the rules say of it,
    and one ending closes the conversation before another one starts.

    A guest has at most one place in the club; this is what keeps the
    notices of different tables apart. -/

namespace MultiplayChess.Chess

open LTS

universe u v w

/-! ## One place for each guest -/

section places

variable {A : Type u} {N : Type v} {ι : Type w} [DecidableEq ι]

/-- The address belongs to the player of `team` at the table `t` numbered
    `i`. -/
def Club.Sits (c : Club A N ι) (a : A) (i : ι) (t : Table A N) (team : Team) : Prop :=
  c.tables i = some t ∧ (t.seat team).address = a

/-- No address has two places. -/
structure Club.OnePlace (c : Club A N ι) : Prop where
  seats : ∀ a i t team i' t' team', c.Sits a i t team → c.Sits a i' t' team' → i = i' ∧ team = team'
  waiting : ∀ g, c.waiting = some g → ∀ i t team, ¬ c.Sits g.address i t team

theorem Club.set_self (c : Club A N ι) (i : ι) (x : Option (Table A N)) :
    (c.set i x).tables i = x :=
  Function.update_self ..

theorem Club.set_ne (c : Club A N ι) {i k : ι} (x : Option (Table A N)) (h : k ≠ i) :
    (c.set i x).tables k = c.tables k :=
  Function.update_of_ne h ..

theorem Club.waiting_set (c : Club A N ι) (i : ι) (x : Option (Table A N)) :
    (c.set i x).waiting = c.waiting := rfl

theorem Club.set_set (c : Club A N ι) (i : ι) (x y : Option (Table A N)) :
    (c.set i x).set i y = c.set i y := by
  unfold Club.set
  rw [Function.update_idem]

/-- Putting back what is on a table changes nothing. -/
theorem Club.set_same {c : Club A N ι} {i : ι} {t : Table A N} (h : c.tables i = some t) :
    c.set i (some t) = c := by
  unfold Club.set
  rw [← h, Function.update_eq_self]

variable {c : Club A N ι} {i : ι} {t : Table A N} {x : Option (Table A N)} {g : Guest A N}

/-- Who sits at a table after it was set sat there before, or sits
    elsewhere. -/
theorem Club.Sits.of_set {a : A} {k : ι} {t' : Table A N} {team : Team}
    (h : (c.set i x).Sits a k t' team) (hi : c.tables i = some t)
    (hseats : ∀ t' ∈ x, t'.seat = t.seat) :
    (k = i ∧ c.Sits a i t team ∧ x = some t') ∨ (k ≠ i ∧ c.Sits a k t' team) := by
  obtain ⟨htable, hseat⟩ := h
  by_cases hk : k = i
  · subst hk
    rw [Club.set_self] at htable
    have hsame := hseats t' htable
    rw [hsame] at hseat
    exact .inl ⟨rfl, ⟨hi, hseat⟩, htable⟩
  · rw [Club.set_ne c x hk] at htable
    exact .inr ⟨hk, htable, hseat⟩

/-- A table that keeps its players, or loses them, gives nobody a second
    place. -/
theorem Club.OnePlace.set (h : c.OnePlace) (hi : c.tables i = some t)
    (hseats : ∀ t' ∈ x, t'.seat = t.seat) : (c.set i x).OnePlace where
  seats := by
    intro a k t₁ team k' t₂ team' hk hk'
    rcases hk.of_set hi hseats with ⟨rfl, hold, _⟩ | ⟨_, hold⟩ <;>
      rcases hk'.of_set hi hseats with ⟨rfl, hold', _⟩ | ⟨_, hold'⟩ <;>
      exact h.seats _ _ _ _ _ _ _ hold hold'
  waiting := by
    intro g hg k t' team hk
    rcases hk.of_set hi hseats with ⟨rfl, hold, _⟩ | ⟨_, hold⟩ <;>
      exact h.waiting g hg _ _ _ hold

omit [DecidableEq ι] in
/-- Leaving the queue gives nobody a place. -/
theorem Club.OnePlace.leave (h : c.OnePlace) : Club.OnePlace { c with waiting := none } where
  seats := h.seats
  waiting := by
    intro g hg
    cases hg

omit [DecidableEq ι] in
/-- A guest who was not there may wait. -/
theorem Club.OnePlace.arrive (h : c.OnePlace) (hg : c.Absent g.address) :
    Club.OnePlace { c with waiting := some g } where
  seats := h.seats
  waiting := by
    intro g' hg' k t team ⟨htable, hseat⟩
    cases hg'
    exact hg.seated k t team htable hseat

/-- Who sits at a new table is the guest who came or the one who waited. -/
theorem Club.OnePlace.fresh_seat {w : Guest A N} {team k : Team} :
    ((Table.fresh g w team).seat k).address = if k = team then g.address else w.address := by
  show (if k = team then g else w).address = _
  split <;> rfl

/-- The guest who waited and one who was not there sit down. -/
theorem Club.OnePlace.pair {w : Guest A N} (h : c.OnePlace) (team : Team) (hw : c.waiting = some w)
    (hg : c.Absent g.address) :
    Club.OnePlace { c.set i (some (.fresh g w team)) with waiting := none } where
  seats := by
    have hne : w.address ≠ g.address := hg.waiting w hw
    -- neither has another seat
    have hnew : ∀ {a k t' team'}, (c.set i (some (.fresh g w team))).Sits a k t' team' →
        (k = i ∧ a = if team' = team then g.address else w.address) ∨
          (k ≠ i ∧ c.Sits a k t' team' ∧ a ≠ g.address ∧ a ≠ w.address) := by
      intro a k t' team' ⟨htable, hseat⟩
      by_cases hk : k = i
      · subst hk
        rw [Club.set_self, Option.some.injEq] at htable
        subst htable
        rw [Club.OnePlace.fresh_seat] at hseat
        exact .inl ⟨rfl, hseat.symm⟩
      · rw [Club.set_ne c _ hk] at htable
        refine .inr ⟨hk, ⟨htable, hseat⟩, ?_, ?_⟩
        · rintro rfl
          exact hg.seated k t' team' htable hseat
        · rintro rfl
          exact h.waiting w hw k t' team' ⟨htable, hseat⟩
    intro a k t₁ team₁ k' t₂ team₂ hk hk'
    rcases hnew hk with ⟨rfl, ha⟩ | ⟨hki, hold, hag, haw⟩ <;>
      rcases hnew hk' with ⟨rfl, ha'⟩ | ⟨hki', hold', hag', haw'⟩
    · refine ⟨rfl, ?_⟩
      -- the two seats of the new table have different addresses
      by_cases h₁ : team₁ = team <;> by_cases h₂ : team₂ = team
      · rw [h₁, h₂]
      · rw [if_pos h₁] at ha
        rw [if_neg h₂] at ha'
        exact absurd (ha'.symm.trans ha) hne
      · rw [if_neg h₁] at ha
        rw [if_pos h₂] at ha'
        exact absurd (ha.symm.trans ha') hne
      · rw [Team.eq_other_of_ne h₁, Team.eq_other_of_ne h₂]
    · split at ha
      · exact absurd ha hag'
      · exact absurd ha haw'
    · split at ha'
      · exact absurd ha' hag
      · exact absurd ha' haw
    · exact h.seats _ _ _ _ _ _ _ hold hold'
  waiting := by
    intro g' hg'
    cases hg'

/-- **The step lemma.** -/
theorem Club.OnePlace.step {l : List (A × Notice N)} {c' : Club A N ι} (h : c.OnePlace)
    (hstep : c.Step l c') : c'.OnePlace := by
  cases hstep with
  | arrive _ hg => exact h.arrive hg
  | withdraw _ => exact h.leave
  | pair team hw _ hg => exact h.pair team hw hg
  | move hi _ =>
    apply h.set hi
    intro t' ht'
    split at ht'
    · cases ht'
      rfl
    · cases ht'
  | say _ _ _ => exact h
  | resign _ hi => exact h.set hi fun _ ht' => nomatch ht'
  | flag hi => exact h.set hi fun _ ht' => nomatch ht'
  | depart_waiting _ => exact h.leave
  | depart_playing _ hi => exact h.set hi fun _ ht' => nomatch ht'
  | depart_outside _ => exact h

omit [DecidableEq ι] in
theorem Club.OnePlace.empty : (Club.empty : Club A N ι).OnePlace where
  seats := by
    intro a i t team i' t' team' ⟨htable, _⟩
    cases htable
  waiting := by
    intro g hg
    cases hg

end places

/-! ## Conversations -/

/-- A guest at play: its team, and the position on its table. -/
structure Playing where
  team : Team
  position : Position
  quiet : Nat

/-- What a guest at play, or not at play, may notice next. -/
inductive Hears {N : Type v} : Option Playing → Notice N → Option Playing → Prop where
  | started (team : Team) (opponent : N) :
      Hears none (.started team opponent) (some ⟨team, start, 0⟩)
  | moved {s : Playing} {man : Man} {m : Move} {check : Bool} {ending : Option Ending} :
      Plays s.position s.quiet man m check ending →
      Hears (some s) (.moved m check ending)
        (if ending = none then
          some ⟨s.team, s.position.play man m, quiet_after s.position man m s.quiet⟩ else none)
  | said {s : Playing} (speaker : N) (text : List Char) :
      Hears (some s) (.said speaker text) (some s)
  | resigned {s : Playing} (winner : Team) : Hears (some s) (.over .resigned winner) none
  | flagged {s : Playing} : Hears (some s) (.over .flagged s.position.turn.other) none
  | left {s : Playing} : Hears (some s) (.over .left s.team) none
  | gone (s : Option Playing) : Hears s .gone none

/-- Conversations, of a guest that is not at play yet. -/
def conversation {N : Type v} : System (Option Playing) (Notice N) where
  init s := s = none
  step s n s' := Hears s n s'

section simulation

variable {A : Type u} {N : Type v} {ι : Type w} [DecidableEq A] [DecidableEq ι]

/-- The notices for one address. -/
def addressed (a : A) (l : List (A × Notice N)) : List (Notice N) :=
  l.filterMap fun n => if n.1 = a then some n.2 else none

/-- Whether the address is at play in the club, and how its game stands. -/
def Club.Stands (c : Club A N ι) (a : A) : Option Playing → Prop
  | none => ∀ i t team, ¬ c.Sits a i t team
  | some s => ∃ i t, c.Sits a i t s.team ∧ s.position = t.position ∧ s.quiet = t.quiet

variable {c : Club A N ι} {a : A} {i : ι} {t : Table A N} {x : Option (Table A N)}
  {s : Option Playing}

omit [DecidableEq ι] in
theorem addressed_cons (a : A) (n : A × Notice N) (l : List (A × Notice N)) :
    addressed a (n :: l) = if n.1 = a then n.2 :: addressed a l else addressed a l := by
  unfold addressed
  rw [List.filterMap_cons]
  by_cases hn : n.1 = a
  · rw [if_pos hn, if_pos hn]
  · rw [if_neg hn, if_neg hn]

omit [DecidableEq ι] in
theorem addressed_eq_flatMap (a : A) (l : List (A × Notice N)) :
    addressed a l = l.flatMap fun n => if n.1 = a then [n.2] else [] := by
  induction l with
  | nil => rfl
  | cons n l ih =>
    rw [addressed_cons, List.flatMap_cons, ih]
    split <;> rfl

omit [DecidableEq A] [DecidableEq ι] in
/-- Nothing but the tables matters. -/
theorem Club.Stands.congr {c' : Club A N ι} (h : c.Stands a s) (htables : c'.tables = c.tables) :
    c'.Stands a s := by
  unfold Club.Stands Club.Sits at *
  rw [htables]
  exact h

omit [DecidableEq A] in
/-- Who does not sit at a table stands as before when it is set. -/
theorem Club.Stands.elsewhere (h : c.Stands a s) (hi : c.tables i = some t)
    (hseats : ∀ t' ∈ x, t'.seat = t.seat) (hnot : ∀ team, ¬ c.Sits a i t team) :
    (c.set i x).Stands a s := by
  cases s with
  | none =>
    intro k t' team hk
    rcases hk.of_set hi hseats with ⟨_, hold, _⟩ | ⟨_, hold⟩
    · exact h i t team hold
    · exact h k t' team hold
  | some s =>
    obtain ⟨k, t', ⟨htable, hseat⟩, hp, hq⟩ := h
    have hk : k ≠ i := by
      rintro rfl
      rw [hi, Option.some.injEq] at htable
      subst htable
      exact hnot s.team ⟨hi, hseat⟩
    exact ⟨k, t', ⟨by rw [Club.set_ne c x hk, htable], hseat⟩, hp, hq⟩

omit [DecidableEq A] [DecidableEq ι] in
/-- Who sits at a table stands as that table does. -/
theorem Club.Stands.at_table (hone : c.OnePlace) (h : c.Stands a s) {team : Team}
    (hsits : c.Sits a i t team) : s = some ⟨team, t.position, t.quiet⟩ := by
  cases s with
  | none => exact absurd hsits (h i t team)
  | some s =>
    obtain ⟨k, t', hk, hp, hq⟩ := h
    obtain ⟨rfl, hteam⟩ := hone.seats _ _ _ _ _ _ _ hsits hk
    have ht : t' = t := Option.some.inj (hk.1.symm.trans hsits.1)
    subst ht
    obtain ⟨team', p, q⟩ := s
    simp only at hteam hp hq
    rw [hteam, hp, hq]

omit [DecidableEq A] in
/-- How the players of a table stand after it was set. -/
theorem Club.Stands.set (hone : c.OnePlace) {team : Team} (hsits : c.Sits a i t team)
    (hseats : ∀ t' ∈ x, t'.seat = t.seat) :
    (c.set i x).Stands a (x.map fun t' => ⟨team, t'.position, t'.quiet⟩) := by
  cases x with
  | none =>
    intro k t' team' hk
    rcases hk.of_set hsits.1 hseats with ⟨_, _, hx⟩ | ⟨hki, hold⟩
    · cases hx
    · exact hki (hone.seats _ _ _ _ _ _ _ hold hsits).1
  | some t' =>
    refine ⟨i, t', ⟨Club.set_self c i _, ?_⟩, rfl, rfl⟩
    rw [hseats t' rfl]
    exact hsits.2

/-- **One table.** A step at one table, with a notice for each of its
    players that continues their conversations, continues the conversation
    of every address. -/
theorem Club.Stands.table_step (hone : c.OnePlace) (h : c.Stands a s) (hi : c.tables i = some t)
    (hseats : ∀ t' ∈ x, t'.seat = t.seat) (first : Team) {n : Team → Notice N}
    (hhears : ∀ team, Hears (some ⟨team, t.position, t.quiet⟩) (n team)
      (x.map fun t' => ⟨team, t'.position, t'.quiet⟩)) :
    ∃ ks s', Run conversation s ks s' ∧ (c.set i x).Stands a s' ∧
      ks = addressed a [((t.seat first).address, n first),
        ((t.seat first.other).address, n first.other)] := by
  have hnil : ∀ s : Option Playing, Run conversation s ([] : List (Notice N)) s := fun s => .nil
  by_cases hsits : ∃ team, c.Sits a i t team
  · obtain ⟨team, hteam⟩ := hsits
    have hs := h.at_table hone hteam
    subst hs
    refine ⟨[n team], _, (hnil _).snoc (hhears team), Club.Stands.set hone hteam hseats, ?_⟩
    -- the other player has another address
    have hother : ∀ team', (t.seat team').address = a → team' = team := by
      intro team' haddr
      exact (hone.seats _ _ _ _ _ _ _ ⟨hi, haddr⟩ hteam).2
    by_cases hfirst : team = first
    · subst hfirst
      have hne : (t.seat team.other).address ≠ a := fun ha => Team.other_ne _ (hother _ ha)
      simp only [addressed_cons, hteam.2, hne, if_true, if_false]
      rfl
    · have hteam' := Team.eq_other_of_ne hfirst
      subst hteam'
      have hne : (t.seat first).address ≠ a := fun ha => Team.ne_other _ (hother _ ha)
      simp only [addressed_cons, hteam.2, hne, if_true, if_false]
      rfl
  · have hnot : ∀ team, ¬ c.Sits a i t team := fun team hteam => hsits ⟨team, hteam⟩
    refine ⟨[], s, .nil, h.elsewhere hi hseats hnot, ?_⟩
    have hne : ∀ team, (t.seat team).address ≠ a := fun team ha => hnot team ⟨hi, ha⟩
    simp only [addressed_cons, hne, if_false]
    rfl

omit [DecidableEq A] [DecidableEq ι] in
/-- Who sits nowhere is not at play. -/
theorem Club.Stands.eq_none (h : c.Stands a s) (hnot : ∀ i t team, ¬ c.Sits a i t team) :
    s = none := by
  cases s with
  | none => rfl
  | some s =>
    obtain ⟨i, t, hsits, _, _⟩ := h
    exact absurd hsits (hnot i t s.team)

omit [DecidableEq A] [DecidableEq ι] in
theorem Club.Absent.not_sits (h : c.Absent a) (i : ι) (t : Table A N) (team : Team) :
    ¬ c.Sits a i t team := by
  intro ⟨htable, hseat⟩
  exact h.seated i t team htable hseat

/-- Only one who hears something and its new standing: the two players of a
    new table. -/
theorem Club.Stands.pair {g w : Guest A N} (team : Team) (hone : c.OnePlace) (h : c.Stands a s)
    (hw : c.waiting = some w) (hfree : c.tables i = none) (hg : c.Absent g.address) :
    ∃ ks s', Run conversation s ks s' ∧
      (c.set i (some (.fresh g w team))).Stands a s' ∧
      ks = addressed a
        [(g.address, .started team w.name), (w.address, .started team.other g.name)] := by
  have hnil : Run conversation s ([] : List (Notice N)) s := .nil
  have hself : (c.set i (some (.fresh g w team))).tables i = some (.fresh g w team) :=
    Club.set_self ..
  have hne : w.address ≠ g.address := hg.waiting w hw
  by_cases hag : g.address = a
  · -- the guest who came had no table
    have hs : s = none := h.eq_none (hag ▸ hg.not_sits)
    subst hs
    refine ⟨[.started team w.name], some ⟨team, start, 0⟩, hnil.snoc (.started _ _),
      ⟨i, _, ⟨hself, ?_⟩, rfl, rfl⟩, ?_⟩
    · rw [Club.OnePlace.fresh_seat, if_pos rfl]
      exact hag
    · have hwa : w.address ≠ a := by
        rw [← hag]
        exact hne
      simp only [addressed_cons, hag, hwa, if_true, if_false]
      rfl
  · by_cases haw : w.address = a
    · -- neither had the one who waited
      have hs : s = none := h.eq_none (haw ▸ hone.waiting w hw)
      subst hs
      refine ⟨[.started team.other g.name], some ⟨team.other, start, 0⟩, hnil.snoc (.started _ _),
        ⟨i, _, ⟨hself, ?_⟩, rfl, rfl⟩, ?_⟩
      · rw [Club.OnePlace.fresh_seat, if_neg (Team.other_ne team)]
        exact haw
      · simp only [addressed_cons, hag, haw, if_true, if_false]
        rfl
    · refine ⟨[], s, hnil, ?_, ?_⟩
      · -- a free table is taken by others
        cases s with
        | none =>
          intro k t' team' ⟨htable, hseat⟩
          by_cases hk : k = i
          · subst hk
            rw [hself, Option.some.injEq] at htable
            subst htable
            rw [Club.OnePlace.fresh_seat] at hseat
            split at hseat
            · exact hag hseat
            · exact haw hseat
          · rw [Club.set_ne c _ hk] at htable
            exact h k t' team' ⟨htable, hseat⟩
        | some s =>
          obtain ⟨k, t', ⟨htable, hseat⟩, hp, hq⟩ := h
          have hk : k ≠ i := by
            rintro rfl
            rw [hfree] at htable
            cases htable
          exact ⟨k, t', ⟨by rw [Club.set_ne c _ hk, htable], hseat⟩, hp, hq⟩
      · simp only [addressed_cons, hag, haw, if_false]
        rfl

/-- One notice for both players of a table. -/
theorem Club.Stands.told (hone : c.OnePlace) (h : c.Stands a s) (hi : c.tables i = some t)
    (x : Option (Table A N)) (hseats : ∀ t' ∈ x, t'.seat = t.seat) (first : Team) {n : Notice N}
    (hhears : ∀ team, Hears (some ⟨team, t.position, t.quiet⟩) n
      (x.map fun t' => ⟨team, t'.position, t'.quiet⟩)) :
    ∃ ks s', Run conversation s ks s' ∧ (c.set i x).Stands a s' ∧
      ks = addressed a (t.tell first n) :=
  h.table_step hone hi hseats first hhears

/-- A lonely notice. -/
theorem addressed_gone (a b : A) :
    addressed a [((b, .gone) : A × Notice N)] = if b = a then [.gone] else [] := by
  rw [addressed_cons]
  rfl

/-- **One step of the club** continues the conversation of every address. -/
theorem Club.Stands.step {l : List (A × Notice N)} {c' : Club A N ι} (hone : c.OnePlace)
    (h : c.Stands a s) (hstep : c.Step l c') :
    ∃ ks s', Run conversation s ks s' ∧ c'.Stands a s' ∧ ks = addressed a l := by
  have hnil : Run conversation s ([] : List (Notice N)) s := .nil
  cases hstep with
  | arrive _ _ => exact ⟨[], s, hnil, h.congr rfl, rfl⟩
  | withdraw _ => exact ⟨[], s, hnil, h.congr rfl, rfl⟩
  | pair team hw hfree hg =>
    obtain ⟨ks, s', hrun, hstands, hks⟩ := h.pair team hone hw hfree hg
    exact ⟨ks, s', hrun, hstands.congr rfl, hks⟩
  | @move i t man m check ending hi hplays =>
    apply h.told hone hi _ ?_ t.position.turn.other ?_
    · intro t' ht'
      split at ht'
      · cases ht'
        rfl
      · cases ht'
    · intro team
      have hhears : Hears (some ⟨team, t.position, t.quiet⟩) (.moved m check ending : Notice N) _ :=
        .moved hplays
      split at hhears
      · rename_i hnone
        rw [if_pos hnone]
        exact hhears
      · rename_i hsome
        rw [if_neg hsome]
        exact hhears
  | @say i t team text hi =>
    have hsame : ∀ t' ∈ some t, t'.seat = t.seat := by
      intro t' ht'
      cases ht'
      rfl
    have hset := h.told hone hi (some t) hsame .white fun k => .said (t.seat team).name text
    rwa [Club.set_same hi] at hset
  | @resign i t team hi =>
    exact h.told hone hi none (fun _ ht' => nomatch ht') team fun k => .resigned team.other
  | @flag i t hi =>
    exact h.told hone hi none (fun _ ht' => nomatch ht') .white fun k => .flagged
  | @depart_waiting g hg =>
    rw [addressed_gone]
    by_cases hag : g.address = a
    · -- who waits has no table
      have hs : s = none := h.eq_none (hag ▸ hone.waiting g hg)
      rw [if_pos hag]
      subst hs
      exact ⟨[.gone], none, hnil.snoc (.gone _), h.congr rfl, rfl⟩
    · rw [if_neg hag]
      exact ⟨[], s, hnil, h.congr rfl, rfl⟩
  | @depart_playing i t team hi =>
    have hhears : ∀ k, Hears (some ⟨k, t.position, t.quiet⟩)
        (if k = team then .gone else .over .left k : Notice N) none := by
      intro k
      by_cases hk : k = team
      · rw [if_pos hk]
        exact .gone _
      · rw [if_neg hk]
        exact .left
    have hset := h.table_step hone hi (x := none) (fun _ ht' => nomatch ht') team hhears
    rwa [if_pos rfl, if_neg (Team.other_ne team)] at hset
  | @depart_outside b hb =>
    rw [addressed_gone]
    by_cases hab : b = a
    · have hs : s = none := h.eq_none (hab ▸ hb.not_sits)
      rw [if_pos hab]
      subst hs
      exact ⟨[.gone], none, hnil.snoc (.gone _), h, rfl⟩
    · rw [if_neg hab]
      exact ⟨[], s, hnil, h, rfl⟩

/-- **What an address hears is a conversation.** -/
def converses (a : A) : Simulation (club (A := A) (N := N) (ι := ι)) (fun _ _ => True)
    (conversation (N := N)) (Notice N) where
  related c s := c.OnePlace ∧ c.Stands a s
  seen l := addressed a l
  shown n := [n]
  step := by
    intro c s l c' ⟨hone, hstands⟩ _ hstep
    obtain ⟨ks, s', hrun, hstands', hks⟩ := hstands.step hone hstep
    refine ⟨ks, s', hrun, ⟨hone.step hstep, hstands'⟩, ?_⟩
    rw [hks]
    exact List.flatMap_singleton' _

end simulation

end MultiplayChess.Chess
