import Mathlib.Logic.Function.Basic
import Mathlib.Data.List.Basic

/-! # Labelled transition systems

    States, labelled steps, finite runs and the invariant rule.  A run is
    built at its end (`snoc`), so that an induction over a run follows time
    and the step under consideration is always the last one.

    `RunWhere sys ok` restricts attention to the runs whose every step meets
    a condition `ok` on the state before the step and its label; `Run` is
    the unrestricted case. -/

namespace LTS

universe u v w

variable {State : Type u} {Label : Type v}

/-- A labelled transition system. -/
structure System (State : Type u) (Label : Type v) where
  init : State → Prop
  step : State → Label → State → Prop

/-- The runs of `sys` from `s` whose every step meets `ok`. -/
inductive RunWhere (sys : System State Label) (ok : State → Label → Prop) (s : State) :
    List Label → State → Prop where
  | nil : RunWhere sys ok s [] s
  | snoc {t u : State} {ls : List Label} {l : Label} :
      RunWhere sys ok s ls t → ok t l → sys.step t l u →
      RunWhere sys ok s (ls ++ [l]) u

/-- All finite runs of `sys`. -/
abbrev Run (sys : System State Label) : State → List Label → State → Prop :=
  RunWhere sys (fun _ _ => True)

section runs

variable {sys : System State Label} {ok : State → Label → Prop}

theorem Run.snoc {s t u : State} {ls : List Label} {l : Label}
    (h : Run sys s ls t) (hstep : sys.step t l u) : Run sys s (ls ++ [l]) u :=
  RunWhere.snoc h trivial hstep

/-- One run after the other. -/
theorem RunWhere.append {s t u : State} {ls ls' : List Label} (h : RunWhere sys ok s ls t)
    (h' : RunWhere sys ok t ls' u) : RunWhere sys ok s (ls ++ ls') u := by
  induction h' with
  | nil =>
    rw [List.append_nil]
    exact h
  | snoc _ hl hstep ih =>
    rw [← List.append_assoc]
    exact .snoc ih hl hstep

theorem RunWhere.cons {s t u : State} {l : Label} {ls : List Label} (hok : ok s l)
    (hstep : sys.step s l t) (h : RunWhere sys ok t ls u) : RunWhere sys ok s (l :: ls) u := by
  have hnil : RunWhere sys ok s [] s := .nil
  exact (hnil.snoc hok hstep).append h

/-- The last step of a run. -/
theorem RunWhere.last {s u : State} {ls : List Label} {l : Label}
    (h : RunWhere sys ok s (ls ++ [l]) u) :
    ∃ t, RunWhere sys ok s ls t ∧ ok t l ∧ sys.step t l u := by
  generalize hls : ls ++ [l] = ls' at h
  cases h with
  | nil => exact absurd hls (List.append_ne_nil_of_right_ne_nil _ (List.cons_ne_nil _ _))
  | snoc hrun hl hstep =>
    obtain ⟨rfl, hl'⟩ := List.append_inj' hls rfl
    cases hl'
    exact ⟨_, hrun, hl, hstep⟩

/-- The first steps of a run are a run. -/
theorem RunWhere.take {s u : State} {ls : List Label} (h : RunWhere sys ok s ls u) (n : Nat) :
    ∃ t, RunWhere sys ok s (ls.take n) t := by
  induction h with
  | nil =>
    rw [List.take_nil]
    exact ⟨s, .nil⟩
  | @snoc t u ls l hrun hl hstep ih =>
    rcases Nat.lt_or_ge ls.length n with hlt | hge
    · rw [List.take_of_length_le (by rw [List.length_append]; exact hlt)]
      exact ⟨u, hrun.snoc hl hstep⟩
    · rw [List.take_append_of_le_length hge]
      exact ih

/-- A run whose labels all meet another condition. -/
theorem RunWhere.and_labels {P : Label → Prop} {s u : State} {ls : List Label}
    (h : RunWhere sys ok s ls u) (hls : ∀ l ∈ ls, P l) :
    RunWhere sys (fun s l => ok s l ∧ P l) s ls u := by
  induction h with
  | nil => exact .nil
  | snoc _ hl hstep ih =>
    exact .snoc (ih fun l hl => hls l (List.mem_append_left _ hl))
      ⟨hl, hls _ (List.mem_append_right _ (List.mem_singleton_self _))⟩ hstep

theorem RunWhere.mono {ok' : State → Label → Prop} (hok : ∀ s l, ok s l → ok' s l) {s u : State}
    {ls : List Label} (h : RunWhere sys ok s ls u) : RunWhere sys ok' s ls u := by
  induction h with
  | nil => exact .nil
  | snoc _ hl hstep ih => exact .snoc ih (hok _ _ hl) hstep

/-- A run whose labels all meet a condition. -/
theorem RunWhere.of_labels {P : Label → Prop} {s u : State} {ls : List Label}
    (h : RunWhere sys ok s ls u) (hls : ∀ l ∈ ls, P l) :
    RunWhere sys (fun _ l => P l) s ls u :=
  (h.and_labels hls).mono fun _ _ h => h.2

/-- **Invariant rule.** What holds at the start and is kept by every step
    that meets the condition holds at the end of the run. -/
theorem RunWhere.invariant {P : State → Prop}
    (hstep : ∀ s l s', P s → ok s l → sys.step s l s' → P s')
    {s t : State} {ls : List Label} (h : RunWhere sys ok s ls t) (hs : P s) : P t := by
  induction h with
  | nil => exact hs
  | snoc _ hl hst ih => exact hstep _ _ _ ih hl hst

/-- **Invariant rule with history.** The invariant may also speak about the
    steps taken so far. -/
theorem RunWhere.history {P : List Label → State → Prop}
    (hstep : ∀ ls s l s', P ls s → ok s l → sys.step s l s' → P (ls ++ [l]) s')
    {s t : State} {ls : List Label} (h : RunWhere sys ok s ls t) (hs : P [] s) : P ls t := by
  induction h with
  | nil => exact hs
  | snoc _ hl hst ih => exact hstep _ _ _ _ ih hl hst

/-- What an invariant says about every next step is met by all steps of the
    run. -/
theorem RunWhere.strengthen {P : List Label → State → Prop} {ok' : State → Label → Prop}
    (hstep : ∀ ls s l s', P ls s → ok s l → sys.step s l s' → P (ls ++ [l]) s')
    (hok : ∀ ls s l s', P ls s → ok s l → sys.step s l s' → ok' s l)
    {s t : State} {ls : List Label} (h : RunWhere sys ok s ls t) (hs : P [] s) :
    RunWhere sys ok' s ls t := by
  induction h with
  | nil => exact .nil
  | snoc hrun hl hst ih =>
    exact .snoc ih (hok _ _ _ _ (hrun.history hstep hs) hl hst) hst

/-- The step from `s` keeps `P` wherever it leads. -/
def System.Keeps (sys : System State Label) (P : State → Prop) (s : State) (l : Label) : Prop :=
  ∀ s', sys.step s l s' → P s'

/-- **Exact conditions on runs.** If along the runs `P` is kept exactly by
    the steps that meet the condition, then all states of a run satisfy `P`
    exactly if all its steps meet the condition.  `I` is what the runs keep
    anyway. -/
theorem RunWhere.keeps_iff {I : List Label → State → Prop} {P : State → Prop} {s t : State}
    {ls : List Label} (hinit : I [] s) (hs : P s)
    (hkeep : ∀ ls s l s', I ls s → P s → sys.step s l s' → I (ls ++ [l]) s')
    (hstep : ∀ ls s l s', I ls s → P s → sys.step s l s' → (P s' ↔ ok s l)) :
    RunWhere sys (sys.Keeps P) s ls t ↔ RunWhere sys ok s ls t := by
  constructor
  · intro hrun
    apply hrun.strengthen (P := fun ls s => I ls s ∧ P s)
    · intro ls s l s' ⟨hI, hP⟩ hkeeps hst
      exact ⟨hkeep ls s l s' hI hP hst, hkeeps s' hst⟩
    · intro ls s l s' ⟨hI, hP⟩ hkeeps hst
      exact (hstep ls s l s' hI hP hst).mp (hkeeps s' hst)
    · exact ⟨hinit, hs⟩
  · intro hrun
    apply hrun.strengthen (P := fun ls s => I ls s ∧ P s)
    · intro ls s l s' ⟨hI, hP⟩ hok hst
      exact ⟨hkeep ls s l s' hI hP hst, (hstep ls s l s' hI hP hst).mpr hok⟩
    · intro ls s l _ ⟨hI, hP⟩ hok _ s' hst
      exact (hstep ls s l s' hI hP hst).mpr hok
    · exact ⟨hinit, hs⟩

/-- Two conditions that agree on every step from the states the runs keep
    to have the same runs. -/
theorem RunWhere.where_iff {I : State → Prop} {ok' : State → Label → Prop} {s t : State}
    {ls : List Label} (hs : I s)
    (hkeep : ∀ s l s', I s → ok s l → sys.step s l s' → I s')
    (hiff : ∀ s l s', I s → sys.step s l s' → (ok s l ↔ ok' s l)) :
    RunWhere sys ok s ls t ↔ RunWhere sys ok' s ls t := by
  constructor
  · intro hrun
    apply hrun.strengthen (P := fun _ s => I s)
    · intro _ s l s' hI hok hst
      exact hkeep s l s' hI hok hst
    · intro _ s l s' hI hok hst
      exact (hiff s l s' hI hst).mp hok
    · exact hs
  · intro hrun
    apply hrun.strengthen (P := fun _ s => I s)
    · intro _ s l s' hI hok hst
      exact hkeep s l s' hI ((hiff s l s' hI hst).mpr hok) hst
    · intro _ s l s' hI hok hst
      exact (hiff s l s' hI hst).mpr hok
    · exact hs

/-- The same where the labels of the run are known to meet a condition. -/
theorem RunWhere.where_iff_of_labels {I : State → Prop} {P : Label → Prop}
    {ok' : State → Label → Prop} {s t : State} {ls : List Label} (hls : ∀ l ∈ ls, P l) (hs : I s)
    (hkeep : ∀ s l s', I s → sys.step s l s' → I s')
    (hiff : ∀ s l s', I s → P l → sys.step s l s' → (ok s l ↔ ok' s l)) :
    RunWhere sys ok s ls t ↔ RunWhere sys ok' s ls t := by
  have hmeet : ∀ {ok : State → Label → Prop},
      RunWhere sys ok s ls t ↔ RunWhere sys (fun s l => ok s l ∧ P l) s ls t :=
    ⟨fun h => h.and_labels hls, RunWhere.mono fun _ _ h => h.1⟩
  refine hmeet.trans (Iff.trans ?_ hmeet.symm)
  apply RunWhere.where_iff hs
  · intro s l s' hI _ hst
    exact hkeep s l s' hI hst
  · intro s l s' hI hst
    exact and_congr_left fun hP => hiff s l s' hI hP hst

/-- A log that every step keeps or extends by one entry has had every length
    in between, and then was what the final log begins with. -/
theorem RunWhere.rewind {α : Type w} (log : State → List α)
    (hlog : ∀ s l s', ok s l → sys.step s l s' → log s' = log s ∨ ∃ a, log s' = log s ++ [a])
    {s t : State} {ls : List Label} (h : RunWhere sys ok s ls t) {k : Nat}
    (hlow : (log s).length ≤ k) (hhigh : k ≤ (log t).length) :
    ∃ ls' s', ls' <+: ls ∧ RunWhere sys ok s ls' s' ∧ log s' = (log t).take k := by
  induction h with
  | nil => exact ⟨[], s, List.prefix_refl _, .nil, (List.take_of_length_le hlow).symm⟩
  | @snoc t u ls l hrun hl hst ih =>
    by_cases hlast : k = (log u).length
    · exact ⟨ls ++ [l], u, List.prefix_refl _, .snoc hrun hl hst,
        (List.take_of_length_le (Nat.le_of_eq hlast.symm)).symm⟩
    · have hbefore : k ≤ (log t).length ∧ (log u).take k = (log t).take k := by
        rcases hlog t l u hl hst with heq | ⟨a, heq⟩
        · rw [heq] at hhigh ⊢
          exact ⟨hhigh, rfl⟩
        · rw [heq, List.length_append, List.length_singleton] at hhigh hlast
          have hk : k ≤ (log t).length := by omega
          exact ⟨hk, by rw [heq, List.take_append_of_le_length hk]⟩
      obtain ⟨ls', s', hpre, hrun', hs'⟩ := ih hbefore.1
      exact ⟨ls', s', hpre.trans (List.prefix_append ..), hrun', hs'.trans hbefore.2.symm⟩

end runs

/-! ### History variables

    A variable beside the state that the steps write and never read. -/

section ghost

variable {Ghost : Type w}

/-- The system with a history variable; `next` is its value after a step. -/
def System.with_ghost (sys : System State Label) (next : Ghost → State → Label → State → Ghost) :
    System (State × Ghost) Label where
  init s := sys.init s.1
  step s l s' := sys.step s.1 l s'.1 ∧ s'.2 = next s.2 s.1 l s'.1

/-- Every run has a run with the history variable above it. -/
theorem RunWhere.with_ghost {sys : System State Label} {ok : State → Label → Prop}
    (next : Ghost → State → Label → State → Ghost) {s t : State} {ls : List Label}
    (h : RunWhere sys ok s ls t) (a : Ghost) :
    ∃ b, RunWhere (sys.with_ghost next) (fun s l => ok s.1 l) (s, a) ls (t, b) := by
  induction h with
  | nil => exact ⟨a, .nil⟩
  | @snoc t u ls l _ hok hstep ih =>
    obtain ⟨b, hrun⟩ := ih
    exact ⟨next b t l u, .snoc hrun hok ⟨hstep, rfl⟩⟩

end ghost

/-! ### Executable systems

    A system given by a partial step function can be run on a list of
    events; a successful execution is a run. -/

section exec

variable {Event : Type v} {Out : Type w}

/-- The system of a partial step function; a label pairs the event with
    what the step puts out. -/
def ofStep (init : State → Prop) (f : State → Event → Option (State × Out)) :
    System State (Event × Out) where
  init := init
  step s l s' := f s l.1 = some (s', l.2)

/-- Execute a list of events, collecting the labels. -/
def exec (f : State → Event → Option (State × Out)) :
    State → List Event → Option (List (Event × Out) × State)
  | s, [] => some ([], s)
  | s, e :: es =>
    match f s e with
    | none => none
    | some (s', o) => (exec f s' es).map fun r => ((e, o) :: r.1, r.2)

/-- A successful execution is a run. -/
theorem exec_run {init : State → Prop} {f : State → Event → Option (State × Out)}
    {es : List Event} : ∀ {s t : State} {ls : List (Event × Out)},
      exec f s es = some (ls, t) → Run (ofStep init f) s ls t := by
  induction es with
  | nil =>
    intro s t ls h
    simp only [exec, Option.some.injEq, Prod.mk.injEq] at h
    obtain ⟨rfl, rfl⟩ := h
    exact .nil
  | cons e es ih =>
    intro s t ls h
    simp only [exec] at h
    split at h
    · cases h
    · rename_i s' o hf
      cases hrest : exec f s' es with
      | none => simp [hrest] at h
      | some r =>
        simp only [hrest, Option.map_some, Option.some.injEq, Prod.mk.injEq] at h
        obtain ⟨rfl, rfl⟩ := h
        exact RunWhere.cons trivial hf (ih hrest)

/-- A successful execution of a step function without output is a run. -/
theorem foldlM_run {sys : System State Event} {f : State → Event → Option State}
    (hf : ∀ s e s', f s e = some s' → sys.step s e s') {es : List Event} : ∀ {s t : State},
      es.foldlM f s = some t → Run sys s es t := by
  induction es with
  | nil =>
    intro s t h
    cases h
    exact .nil
  | cons e es ih =>
    intro s t h
    rw [List.foldlM_cons] at h
    obtain ⟨s', hstep, hrest⟩ := Option.bind_eq_some_iff.mp h
    exact RunWhere.cons trivial (hf _ _ _ hstep) (ih hrest)

/-- A step function may carry the history variable along. -/
theorem with_ghost_step {Ghost : Type w} {sys : System State Event}
    {f : State → Event → Option State}
    (hf : ∀ s e s', f s e = some s' → sys.step s e s')
    (next : Ghost → State → Event → State → Ghost) {s s' : State × Ghost} {e : Event}
    (h : ((f s.1 e).map fun t => (t, next s.2 s.1 e t)) = some s') :
    (sys.with_ghost next).step s e s' := by
  obtain ⟨t, ht, rfl⟩ := Option.map_eq_some_iff.mp h
  exact ⟨hf _ _ _ ht, rfl⟩

/-- The same for a step function that takes only steps under a condition. -/
theorem foldlM_runWhere {sys : System State Event} {ok : State → Event → Prop}
    {f : State → Event → Option State}
    (hf : ∀ s e s', f s e = some s' → ok s e ∧ sys.step s e s') {es : List Event} {s t : State}
    (h : es.foldlM f s = some t) : RunWhere sys ok s es t := by
  have hrun : Run { sys with step := fun s e s' => f s e = some s' } s es t :=
    foldlM_run (fun _ _ _ hstep => hstep) h
  clear h
  induction hrun with
  | nil => exact .nil
  | snoc _ _ hstep ih =>
    obtain ⟨hok, hsys⟩ := hf _ _ _ hstep
    exact ih.snoc hok hsys

/-- A step function that also refuses the steps that fail a check. -/
def guarded (check : State → Event × Out → Bool) (f : State → Event → Option (State × Out))
    (s : State) (e : Event) : Option (State × Out) :=
  (f s e).filter fun r => check s (e, r.2)

/-- A successful execution of checked steps is a run whose steps meet the
    condition the check decides. -/
theorem exec_runWhere {init : State → Prop} {check : State → Event × Out → Bool}
    {f : State → Event → Option (State × Out)} {ok : State → Event × Out → Prop}
    (hok : ∀ s l, check s l = true → ok s l) {s t : State} {es : List Event}
    {ls : List (Event × Out)} (h : exec (guarded check f) s es = some (ls, t)) :
    RunWhere (ofStep init f) ok s ls t := by
  have hrun : Run (ofStep init (guarded check f)) s ls t := exec_run h
  clear h
  induction hrun with
  | nil => exact .nil
  | @snoc t u ls l _ _ hstep ih =>
    have hguard : guarded check f t l.1 = some (u, l.2) := hstep
    obtain ⟨hf, hc⟩ := Option.filter_eq_some_iff.mp hguard
    exact .snoc ih (hok t l hc) hf

end exec

/-! ### Simulation

    One system implements another if each of its steps can be matched by
    steps of the other that show the same.  What is shown is a list of
    observations, so a concrete step may be matched by no abstract step at
    all, or by several.

    A simulation is proved step by step and used run by run, and simulations
    compose. -/

universe x y z

variable {Abstract : Type w} {Act : Type x} {Obs : Type y}

/-- Steps of `sys` that meet `ok` are matched by runs of `spec`: from
    related states to related states, with the same observations. -/
structure Simulation (sys : System State Label) (ok : State → Label → Prop)
    (spec : System Abstract Act) (Obs : Type y) where
  related : State → Abstract → Prop
  /-- what a step of the implementation shows -/
  seen : Label → List Obs
  /-- what a step of the specification shows -/
  shown : Act → List Obs
  step : ∀ s a l s', related s a → ok s l → sys.step s l s' →
    ∃ ks a', Run spec a ks a' ∧ related s' a' ∧ ks.flatMap shown = seen l

namespace Simulation

variable {sys : System State Label} {ok : State → Label → Prop} {spec : System Abstract Act}

/-- **Simulation rule.** Every run of the implementation is matched by a run
    of the specification. -/
theorem run (sim : Simulation sys ok spec Obs) {s t : State} {ls : List Label}
    (h : RunWhere sys ok s ls t) {a : Abstract} (hs : sim.related s a) :
    ∃ ks b, Run spec a ks b ∧ sim.related t b ∧ ks.flatMap sim.shown = ls.flatMap sim.seen := by
  induction h with
  | nil => exact ⟨[], a, .nil, hs, rfl⟩
  | @snoc t u ls l _ hl hstep ih =>
    obtain ⟨ks, b, hrun, hrel, hshow⟩ := ih
    obtain ⟨ks', b', hrun', hrel', hshow'⟩ := sim.step t b l u hrel hl hstep
    refine ⟨ks ++ ks', b', hrun.append hrun', hrel', ?_⟩
    rw [List.flatMap_append, List.flatMap_append, hshow, hshow', List.flatMap_singleton]

variable {Lower : Type z} {Deed : Type v} {Obs' : Type w}

/-- **Composition.** A simulation of `low` whose observations are computed
    from those of `spec` follows the runs that match the implementation. -/
def comp (sim : Simulation sys ok spec Obs) {low : System Lower Deed}
    (sim' : Simulation spec (fun _ _ => True) low Obs') (f : Obs → List Obs')
    (hf : ∀ k, sim'.seen k = (sim.shown k).flatMap f) : Simulation sys ok low Obs' where
  related s b := ∃ a, sim.related s a ∧ sim'.related a b
  seen l := (sim.seen l).flatMap f
  shown := sim'.shown
  step := by
    intro s b l s' ⟨a, hsa, hab⟩ hok hstep
    obtain ⟨ks, a', hrun, hrel, hshow⟩ := sim.step s a l s' hsa hok hstep
    obtain ⟨ds, b', hrun', hrel', hshow'⟩ := sim'.run hrun hab
    refine ⟨ds, b', hrun', ⟨a', hrel, hrel'⟩, ?_⟩
    rw [hshow', ← hshow, List.flatMap_assoc]
    congr 1
    funext k
    exact hf k

end Simulation

end LTS
