import Mathlib.Data.List.Basic
import Mathlib.Data.List.Infix

/-!
# Runs of a machine that is driven by events

The next event decides the next state of the machine, which may refuse it.  A list of
events is a run when none is refused.

Main results:

- Theorem `always_of_eachStep`: what holds at first and is kept by every step that meets a
  condition holds all along a run whose steps meet it.
- Theorem `always_iff_eachStep`: what a step leaves true exactly under a condition is always
  true exactly if every step meets it.
- Theorem `eachEvent_iff`: two conditions on the events of a list agree as far as an
  invariant reaches.
- Theorem `run_snoc_inv`: the last step of a run.
- Theorem `exists_run_of_eachStep`: a run whose steps cannot be refused.
- Theorem `run_stepAt`: machines that run side by side.
- Theorem `eachStep_of_check`: the condition, checked along one run.
-/

namespace EventRun

variable {σ ε : Type}

def run (step : σ → ε → Option σ) (s : σ) : List ε → Option σ
  | [] => some s
  | event :: events =>
      match step s event with
      | none => none
      | some t => run step t events

variable (step : σ → ε → Option σ) (s : σ) (events : List ε)

/-- Every state of a run, from the first to the last, has a property. -/
def Always (P : σ → Prop) : Prop :=
  ∀ earlier t, earlier <+: events → run step s earlier = some t → P t

/-- Every event of a run meets a condition in the state in which it occurs. -/
def EachStep (ok : σ → ε → Prop) : Prop :=
  ∀ earlier event t, earlier ++ [event] <+: events → run step s earlier = some t → ok t event

variable {step s events} {t : σ} {event : ε}

attribute [local simp] run in
theorem run_append (step : σ → ε → Option σ) (s : σ) (events events' : List ε) :
    run step s (events ++ events') = (run step s events).bind fun t => run step t events' := by
  induction events generalizing s with
  | nil => rfl
  | cons event events ih =>
      cases hstep : step s event with
      | none => simp [hstep]
      | some t => simp [hstep, ih]

/-- The last step of a run. -/
theorem run_snoc_inv (h : run step s (events ++ [event]) = some t) :
    ∃ u, run step s events = some u ∧ step u event = some t := by
  rw [run_append, Option.bind_eq_some_iff] at h
  obtain ⟨u, hu, hlast⟩ := h
  refine ⟨u, hu, ?_⟩
  simp only [run] at hlast
  split at hlast
  · cases hlast
  · rename_i v hv
    rw [hv, hlast]

/-- What every step keeps holds at the end of a run. -/
theorem invariant_of_run {I : σ → Prop} (hI : I s) (hrun : run step s events = some t)
    (hkeeps : ∀ u event v, I u → step u event = some v → I v) : I t := by
  induction events using List.reverseRecOn generalizing t with
  | nil =>
      cases hrun
      exact hI
  | append_singleton events event ih =>
      obtain ⟨u, hu, hstep⟩ := run_snoc_inv hrun
      exact hkeeps u event t (ih hu) hstep

/-- What holds at first and is kept by every step that meets a condition holds all along a
run whose steps meet it. -/
theorem always_of_eachStep {I : σ → Prop} {ok : σ → ε → Prop} (hI : I s)
    (hok : EachStep step s events ok)
    (hkeeps : ∀ u event v, I u → ok u event → step u event = some v → I v) :
    Always step s events I := by
  intro earlier t hearlier hrun
  induction earlier using List.reverseRecOn generalizing t with
  | nil =>
      cases hrun
      exact hI
  | append_singleton earlier event ih =>
      obtain ⟨u, hu, hstep⟩ := run_snoc_inv hrun
      have hbefore := ih u ((List.prefix_append earlier [event]).trans hearlier) hu
      exact hkeeps u event t hbefore (hok earlier event u hearlier hu) hstep

/-- A run is not refused if no step that meets a condition is. -/
theorem exists_run_of_eachStep {I : σ → Prop} {ok : σ → ε → Prop} (hI : I s)
    (hok : EachStep step s events ok)
    (hsteps : ∀ u event, I u → ok u event → ∃ v, step u event = some v ∧ I v) :
    ∃ t, run step s events = some t ∧ I t := by
  induction events using List.reverseRecOn with
  | nil => exact ⟨s, rfl, hI⟩
  | append_singleton events event ih =>
      obtain ⟨u, hu, hIu⟩ := ih fun earlier event' t hearlier =>
        hok earlier event' t (hearlier.trans (List.prefix_append events [event]))
      obtain ⟨v, hv, hIv⟩ := hsteps u event hIu (hok events event u List.prefix_rfl hu)
      refine ⟨v, ?_, hIv⟩
      rw [run_append, hu, Option.bind_some, run, hv]
      rfl

/-- Two conditions on the steps of a run that agree where an invariant holds. -/
theorem eachStep_congr {I : σ → Prop} {ok P Q : σ → ε → Prop} (hI : I s)
    (hok : EachStep step s events ok)
    (hkeeps : ∀ u event v, I u → ok u event → step u event = some v → I v)
    (hiff : ∀ u event, I u → ok u event → (P u event ↔ Q u event)) :
    EachStep step s events P ↔ EachStep step s events Q := by
  have hI' := always_of_eachStep hI hok hkeeps
  constructor
  · intro hP earlier event t hearlier hrun
    have hbefore := hI' earlier t ((List.prefix_append earlier [event]).trans hearlier) hrun
    exact (hiff t event hbefore (hok earlier event t hearlier hrun)).mp
      (hP earlier event t hearlier hrun)
  · intro hQ earlier event t hearlier hrun
    have hbefore := hI' earlier t ((List.prefix_append earlier [event]).trans hearlier) hrun
    exact (hiff t event hbefore (hok earlier event t hearlier hrun)).mpr
      (hQ earlier event t hearlier hrun)

theorem Always.mono {P Q : σ → Prop} (h : Always step s events P) (himp : ∀ t, P t → Q t) :
    Always step s events Q :=
  fun earlier t hearlier hrun => himp t (h earlier t hearlier hrun)

/-- A step of a run, with the steps before and behind it. -/
theorem exists_step_of_prefix {earlier : List ε} {u : σ}
    (hearlier : earlier ++ [event] <+: events) (hrun : run step s events = some t)
    (hu : run step s earlier = some u) :
    ∃ v later, step u event = some v ∧ run step s (earlier ++ [event]) = some v ∧
      run step v later = some t := by
  obtain ⟨later, rfl⟩ := hearlier
  rw [run_append, Option.bind_eq_some_iff] at hrun
  obtain ⟨v, hv, hlater⟩ := hrun
  obtain ⟨u', hu', hstep⟩ := run_snoc_inv hv
  cases hu.symm.trans hu'
  exact ⟨v, later, hstep, hv, hlater⟩

/-- What holds at first, and holds behind a step from a state where it holds exactly if the
step meets a condition, always holds exactly if every step meets it; an invariant and a
condition on all steps are given. -/
theorem always_iff_eachStep_of {I J : σ → Prop} {ok P : σ → ε → Prop} (hI : I s) (hJ : J s)
    (hrun : run step s events = some t) (hP : EachStep step s events P)
    (hkeeps : ∀ u event v, J u → P u event → step u event = some v → J v)
    (hstep : ∀ u event v, J u → P u event → I u → step u event = some v →
      (I v ↔ ok u event)) :
    Always step s events I ↔ EachStep step s events ok := by
  have hJ' := always_of_eachStep hJ hP hkeeps
  constructor
  · intro halways earlier event u hearlier hu
    obtain ⟨v, later, hnext, hv, -⟩ := exists_step_of_prefix hearlier hrun hu
    have hprefix := (List.prefix_append earlier [event]).trans hearlier
    exact (hstep u event v (hJ' earlier u hprefix hu) (hP earlier event u hearlier hu)
      (halways earlier u hprefix hu) hnext).mp (halways (earlier ++ [event]) v hearlier hv)
  · intro heach
    have hboth : EachStep step s events fun u event => P u event ∧ ok u event :=
      fun earlier event u hearlier hu =>
        ⟨hP earlier event u hearlier hu, heach earlier event u hearlier hu⟩
    refine (always_of_eachStep (I := fun u => J u ∧ I u) ⟨hJ, hI⟩ hboth ?_).mono
      fun _ h => h.2
    intro u event v ⟨hu, hIu⟩ ⟨hevent, hok⟩ hnext
    exact ⟨hkeeps u event v hu hevent hnext, (hstep u event v hu hevent hIu hnext).mpr hok⟩

/-- What holds at first, and holds behind a step from a state where it holds exactly if the
step meets a condition, always holds exactly if every step meets it. -/
theorem always_iff_eachStep {I : σ → Prop} {ok : σ → ε → Prop} (hI : I s)
    (hrun : run step s events = some t)
    (hstep : ∀ u event v, I u → step u event = some v → (I v ↔ ok u event)) :
    Always step s events I ↔ EachStep step s events ok :=
  always_iff_eachStep_of (J := fun _ => True) (P := fun _ _ => True) hI trivial hrun
    (fun _ _ _ _ _ => trivial) (fun _ _ _ _ _ _ => trivial)
    fun u event v _ _ hu hnext => hstep u event v hu hnext

/-- A condition on the events alone, along a run. -/
theorem eachStep_iff_forall {ok : ε → Prop} (hrun : run step s events = some t) :
    EachStep step s events (fun _ => ok) ↔ ∀ event ∈ events, ok event := by
  constructor
  · intro heach event hmem
    obtain ⟨earlier, later, rfl⟩ := List.append_of_mem hmem
    rw [run_append, Option.bind_eq_some_iff] at hrun
    obtain ⟨u, hu, -⟩ := hrun
    refine heach earlier event u ?_ hu
    exact ⟨later, by rw [List.append_assoc, List.singleton_append]⟩
  · intro hall earlier event u hearlier _
    refine hall event (hearlier.subset ?_)
    exact List.mem_append_right earlier List.mem_cons_self

/-! ## Machines side by side -/

/-- An event that goes to the machine at an index. -/
def stepAt (step : σ → ε → Option σ) (states : List σ) (event : Nat × ε) : Option (List σ) :=
  match states[event.1]? with
  | none => none
  | some s => (step s event.2).map fun t => states.set event.1 t

/-- The events of the machine at an index. -/
def eventsAt (index : Nat) (events : List (Nat × ε)) : List ε :=
  (events.filter fun event => event.1 = index).map Prod.snd

/-- Each machine takes its own events. -/
theorem run_stepAt {states states' : List σ} {events : List (Nat × ε)}
    (h : run (stepAt step) states events = some states') {index : Nat}
    (hs : states[index]? = some s) :
    ∃ t, states'[index]? = some t ∧ run step s (eventsAt index events) = some t := by
  induction events using List.reverseRecOn generalizing states' with
  | nil =>
      cases h
      exact ⟨s, hs, rfl⟩
  | append_singleton events event ih =>
      obtain ⟨between, hbetween, hlast⟩ := run_snoc_inv h
      obtain ⟨t, ht, hrun⟩ := ih hbetween
      rw [eventsAt, List.filter_append, List.map_append, ← eventsAt, run_append, hrun,
        Option.bind_some]
      simp only [stepAt] at hlast
      split at hlast
      · cases hlast
      next u hu =>
        obtain ⟨v, hv, rfl⟩ := Option.map_eq_some_iff.mp hlast
        by_cases hindex : event.1 = index
        · subst hindex
          cases hu.symm.trans ht
          refine ⟨v, ?_, by simp [run, hv]⟩
          exact List.getElem?_set_self (List.getElem?_eq_some_iff.mp hu).1
        · refine ⟨t, ?_, by simp [run, hindex]⟩
          rwa [List.getElem?_set_ne hindex]

/-! ## Conditions on the events before -/

/-- What is said of every event with the events before it. -/
def EachEvent (events : List ε) (P : List ε → ε → Prop) : Prop :=
  ∀ earlier event, earlier ++ [event] <+: events → P earlier event

theorem eachEvent_nil (P : List ε → ε → Prop) : EachEvent [] P := by
  intro earlier event hearlier
  exact absurd (List.prefix_nil.mp hearlier) (by simp)

/-- One event more. -/
theorem eachEvent_snoc_iff {P : List ε → ε → Prop} :
    EachEvent (events ++ [event]) P ↔ EachEvent events P ∧ P events event := by
  constructor
  · intro h
    refine ⟨fun earlier first hearlier => ?_, h events event List.prefix_rfl⟩
    exact h earlier first (hearlier.trans (List.prefix_append events [event]))
  · intro ⟨hbefore, hlast⟩ earlier first hearlier
    rcases List.prefix_concat_iff.mp hearlier with heq | hprefix
    · obtain ⟨rfl, hfirst⟩ := List.append_inj' heq rfl
      cases hfirst
      exact hlast
    · exact hbefore earlier first hprefix

theorem eachEvent_singleton_iff {P : List ε → ε → Prop} : EachEvent [event] P ↔ P [] event := by
  have h : EachEvent ([] ++ [event]) P ↔ EachEvent [] P ∧ P [] event := eachEvent_snoc_iff
  rw [List.nil_append] at h
  rw [h, and_iff_right (eachEvent_nil P)]

/-- Two conditions say the same of all events if they say the same of an event where an
invariant holds that the first one keeps. -/
theorem eachEvent_iff (J : List ε → Prop) {P Q : List ε → ε → Prop} (hnil : J [])
    (hkeep : ∀ earlier event, J earlier → P earlier event → J (earlier ++ [event]))
    (hiff : ∀ earlier event, J earlier → (P earlier event ↔ Q earlier event)) :
    EachEvent events P ↔ EachEvent events Q := by
  have hJ : ∀ {R : List ε → ε → Prop}, EachEvent events R →
      (∀ earlier event, J earlier → R earlier event → P earlier event) →
      ∀ earlier, earlier <+: events → J earlier := by
    intro R hR himp earlier
    induction earlier using List.reverseRecOn with
    | nil => exact fun _ => hnil
    | append_singleton earlier event ih =>
        intro hearlier
        have hbefore := ih ((List.prefix_append earlier [event]).trans hearlier)
        exact hkeep earlier event hbefore
          (himp earlier event hbefore (hR earlier event hearlier))
  constructor
  · intro hP earlier event hearlier
    have hbefore := hJ hP (fun _ _ _ h => h) earlier
      ((List.prefix_append earlier [event]).trans hearlier)
    exact (hiff earlier event hbefore).mp (hP earlier event hearlier)
  · intro hQ earlier event hearlier
    have hbefore := hJ hQ (fun earlier event hj h => (hiff earlier event hj).mpr h) earlier
      ((List.prefix_append earlier [event]).trans hearlier)
    exact (hiff earlier event hbefore).mpr (hQ earlier event hearlier)

/-! ## Checking one run -/

/-- A condition on every event in the state in which it occurs, decided. -/
def check (step : σ → ε → Option σ) (ok : σ → ε → Prop) [∀ t event, Decidable (ok t event)]
    (s : σ) : List ε → Bool
  | [] => true
  | event :: events =>
      decide (ok s event) &&
        match step s event with
        | none => true
        | some t => check step ok t events

theorem eachStep_of_check {ok : σ → ε → Prop} [∀ t event, Decidable (ok t event)]
    (h : check step ok s events = true) : EachStep step s events ok := by
  induction events generalizing s with
  | nil =>
      intro earlier event t hearlier
      exact absurd (List.prefix_nil.mp hearlier) (by simp)
  | cons first events ih =>
      intro earlier event t hearlier hrun
      simp only [check, Bool.and_eq_true, decide_eq_true_eq] at h
      obtain ⟨hfirst, hall⟩ := h
      cases earlier with
      | nil =>
          cases hrun
          rw [(List.cons_prefix_cons.mp hearlier).1]
          exact hfirst
      | cons first' earlier =>
          obtain ⟨rfl, hrest⟩ := List.cons_prefix_cons.mp hearlier
          simp only [run] at hrun
          split at hrun
          · cases hrun
          · rename_i u hu
            rw [hu] at hall
            exact ih hall earlier event t hrest hrun

end EventRun
