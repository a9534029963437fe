import ArtPlatform.Foundation.Interleaving
import ArtPlatform.Web.Synchronizer
import Mathlib.Data.List.Nodup

/-!
# Loading a platform context

A page shows a context when its state is `INITIALIZED`.  Every render passes through the
synchronizer of the context: the first one after a reload begins the loads of the included
loaders, and the completion of the synchronizer sets the state.

Main results:

- Theorem `context_shown_when_loaded`: while no render falls between the begin and the
  end of the loads and no load completes after a reload, the context is shown when all
  its loaders have completed, and each load is begun once.
- Theorem `context_shown_too_early`: a second render begins the loads again, and their
  completions stand in for those of another loader.
- Theorem `context_shown_after_reload`: a load of before the reload shows the context.
-/

namespace ArtPlatform.Web

open Interleaving

/-! ## Loaders -/

inductive Loader
  | applications
  | assemblies
  | modules
  | projects
  | resources
  | preparedConfigurations
deriving DecidableEq, Repr

/-- The loaders in the order in which a context begins their loads. -/
def Loader.all : List Loader :=
  [.applications, .assemblies, .modules, .projects, .resources, .preparedConfigurations]

/-- The requests of a load: one for each type of application or of resource. -/
def Loader.requests : Loader → Nat
  | .applications => 1
  | .resources => 5
  | .assemblies | .modules | .projects | .preparedConfigurations => 1

/-! ## The context -/

inductive ContextState
  | created
  | loading
  | initialized
deriving DecidableEq, Repr

/-- The handlers that a context gives to its synchronizer. -/
inductive ContextHandler
  | pauseRender
  | continueRender
  | setInitialized
deriving DecidableEq, Repr

/-- A context and its synchronizer.  The reloads are numbered, and what has been rendered,
begun and completed since the last one is recorded: no action of the source depends on
it. -/
structure PlatformContext where
  includes : Loader → Bool
  state : ContextState := .created
  renderPaused : Bool := false
  synchronizer : Synchronizer Loader ContextHandler := {}
  reloads : Nat := 0
  rendered : Bool := false
  begun : List Loader := []
  completed : List Loader := []

/-- A load of the given reload that waits for a number of responses, a render, or a
reload. -/
inductive ContextTask
  | render
  | reload
  | load (loader : Loader) (reloads waiting : Nat)

inductive ContextSignal
  | go
  | response
  | failed

namespace PlatformContext

def loaders (s : PlatformContext) : List Loader :=
  Loader.all.filter s.includes

def handle (s : PlatformContext) : ContextHandler → PlatformContext
  | .pauseRender => { s with renderPaused := true }
  | .continueRender => { s with renderPaused := false }
  | .setInitialized => { s with state := .initialized }

/-- Run the handlers of a call of the synchronizer and begin the loads of its actions. -/
def run (s : PlatformContext) (calls : SynchronizerCalls Loader ContextHandler) :
    PlatformContext × List ContextTask :=
  ({ calls.handlers.foldl handle s with begun := s.begun ++ calls.actions },
    calls.actions.map fun loader => .load loader s.reloads loader.requests)

/-- The action that the constructor hands to the synchronizer of the widget. -/
def action (s : PlatformContext) : PlatformContext :=
  if s.state = .initialized ∨ s.state = .loading then s
  else
    { s with
      state := .loading
      synchronizer :=
        s.loaders.foldl Synchronizer.action (s.synchronizer.onComplete .setInitialized) }

/-- `synchronize(onRender, action)`: what every render does. -/
def onRender (s : PlatformContext) : PlatformContext × List ContextTask :=
  let handled :=
    { s with synchronizer :=
        (s.synchronizer.onStart .pauseRender).onComplete .continueRender }
  let acted := handled.action
  let (synchronizer, calls) := acted.synchronizer.start
  { acted with synchronizer := synchronizer, rendered := true }.run calls

def reload (s : PlatformContext) : PlatformContext :=
  { s with
    synchronizer := s.synchronizer.reset
    state := .created
    reloads := s.reloads + 1
    rendered := false
    begun := []
    completed := [] }

/-- A loader has its last response and calls `process`. -/
def complete (s : PlatformContext) (loader : Loader) (reloads : Nat) :
    PlatformContext × List ContextTask :=
  let (synchronizer, calls) := s.synchronizer.process
  { s with
    synchronizer := synchronizer
    completed := if reloads = s.reloads then s.completed ++ [loader] else s.completed }.run
      calls

end PlatformContext

/-- A render, a reload, or a response to a request of a load. -/
def ContextTask.step : Actions PlatformContext ContextTask ContextSignal
  | .render, .go, s => some s.onRender
  | .reload, .go, s => some (s.reload, [])
  | .load loader reloads 1, .response, s => some (s.complete loader reloads)
  | .load loader reloads (waiting + 2), .response, s =>
      some (s, [.load loader reloads (waiting + 1)])
  | .load _ _ _, .failed, s => some (s, [])
  | _, _, _ => none

/-! ## Rounds -/

/-- The loads of the last reload that have not completed. -/
def outstanding (reloads : Nat) (tasks : List ContextTask) : List Loader :=
  tasks.filterMap fun
    | .load loader begun _ => if begun = reloads then some loader else none
    | _ => none

/-- The count of the synchronizer in each state of the context. -/
def PlatformContext.Counts (s : PlatformContext) (waiting : List Loader) : Prop :=
  match s.state with
  | .created =>
      s.synchronizer.actions = [] ∧ s.synchronizer.counter = 0 ∧ s.begun = [] ∧
        s.completed = [] ∧ waiting = [] ∧ s.rendered = false
  | .loading =>
      s.synchronizer.actions = s.loaders ∧ s.synchronizer.counter = s.completed.length ∧
        s.completed.length < s.loaders.length ∧ s.begun = s.loaders ∧ s.rendered = true ∧
        .setInitialized ∈ s.synchronizer.onCompleteHandlers
  | .initialized =>
      s.synchronizer.actions = s.loaders ∧ s.synchronizer.counter = s.loaders.length ∧
        s.completed.length = s.loaders.length ∧ s.begun = s.loaders ∧ s.rendered = true

/-- What holds between two steps of an undisturbed context: every included loader is
begun at most once, and it waits, has completed, or has failed. -/
structure PlatformContext.Round (s : PlatformContext) (waiting : List Loader) : Prop where
  unmanaged : s.synchronizer.isManaged = false
  pauses : .setInitialized ∉ s.synchronizer.onStartHandlers
  nodup : (waiting ++ s.completed).Nodup
  included : ∀ loader ∈ waiting ++ s.completed, loader ∈ s.loaders
  counts : s.Counts waiting

variable {s : PlatformContext} {waiting waiting' : List Loader}

theorem nodup_loaders (s : PlatformContext) : s.loaders.Nodup :=
  (by decide : Loader.all.Nodup).filter _

theorem mem_loaders {loader : Loader} : loader ∈ s.loaders ↔ s.includes loader = true := by
  cases loader <;> simp [PlatformContext.loaders, Loader.all]

theorem length_le_of_round (h : s.Round waiting) :
    waiting.length + s.completed.length ≤ s.loaders.length := by
  rw [← List.length_append]
  exact (List.subperm_of_subset h.nodup h.included).length_le

/-- An initialized context waits for no load. -/
theorem waiting_of_initialized (h : s.Round waiting) (hstate : s.state = .initialized) :
    waiting = [] := by
  have hle := length_le_of_round h
  have hcounts := h.counts
  simp only [PlatformContext.Counts, hstate] at hcounts
  exact List.length_eq_zero_iff.mp (by omega)

/-- When as many loads have completed as are included, all included ones have. -/
theorem mem_completed (h : s.Round waiting) (hlength : s.completed.length = s.loaders.length)
    {loader : Loader} (hloader : loader ∈ s.loaders) : loader ∈ s.completed := by
  have hcompleted : s.completed.Nodup := (List.nodup_append.mp h.nodup).2.1
  have hsub : s.completed.Subperm s.loaders :=
    List.subperm_of_subset hcompleted fun l hl => h.included l (List.mem_append_right _ hl)
  exact (hsub.perm_of_length_le (Nat.le_of_eq hlength.symm)).mem_iff.mpr hloader

theorem round_perm (h : s.Round waiting) (hperm : waiting'.Perm waiting) :
    s.Round waiting' := by
  refine ⟨h.unmanaged, h.pauses, (hperm.append_right _).nodup_iff.mpr h.nodup,
    fun l hl => h.included l ((hperm.append_right _).mem_iff.mp hl), ?_⟩
  have hcounts := h.counts
  unfold PlatformContext.Counts at *
  split at hcounts
  · obtain ⟨hactions, hcounter, hbegun, hcompleted, rfl, hrendered⟩ := hcounts
    exact ⟨hactions, hcounter, hbegun, hcompleted, hperm.eq_nil, hrendered⟩
  · exact hcounts
  · exact hcounts

/-! ## What an action does to a round -/

/-- Handlers change the state and the pausing of the context only. -/
theorem foldl_handle (hs : List ContextHandler) (s : PlatformContext) :
    ∃ paused, hs.foldl PlatformContext.handle s =
      { s with
        state := if .setInitialized ∈ hs then .initialized else s.state
        renderPaused := paused } := by
  induction hs generalizing s with
  | nil => exact ⟨s.renderPaused, rfl⟩
  | cons handler hs ih =>
      obtain ⟨paused, hpaused⟩ := ih (s.handle handler)
      refine ⟨paused, ?_⟩
      rw [List.foldl_cons, hpaused]
      cases handler <;> simp [PlatformContext.handle]

section Run

variable (s) (calls : SynchronizerCalls Loader ContextHandler)

@[simp] theorem run_state :
    (s.run calls).1.state =
      if .setInitialized ∈ calls.handlers then .initialized else s.state := by
  obtain ⟨paused, hpaused⟩ := foldl_handle calls.handlers s
  simp [PlatformContext.run, hpaused]

@[simp] theorem run_includes : (s.run calls).1.includes = s.includes := by
  obtain ⟨paused, hpaused⟩ := foldl_handle calls.handlers s
  simp [PlatformContext.run, hpaused]

@[simp] theorem run_loaders : (s.run calls).1.loaders = s.loaders := by
  simp [PlatformContext.loaders]

@[simp] theorem run_synchronizer : (s.run calls).1.synchronizer = s.synchronizer := by
  obtain ⟨paused, hpaused⟩ := foldl_handle calls.handlers s
  simp [PlatformContext.run, hpaused]

@[simp] theorem run_reloads : (s.run calls).1.reloads = s.reloads := by
  obtain ⟨paused, hpaused⟩ := foldl_handle calls.handlers s
  simp [PlatformContext.run, hpaused]

@[simp] theorem run_rendered : (s.run calls).1.rendered = s.rendered := by
  obtain ⟨paused, hpaused⟩ := foldl_handle calls.handlers s
  simp [PlatformContext.run, hpaused]

@[simp] theorem run_begun : (s.run calls).1.begun = s.begun ++ calls.actions :=
  rfl

@[simp] theorem run_completed : (s.run calls).1.completed = s.completed := by
  obtain ⟨paused, hpaused⟩ := foldl_handle calls.handlers s
  simp [PlatformContext.run, hpaused]

@[simp] theorem run_tasks :
    (s.run calls).2 = calls.actions.map fun loader => .load loader s.reloads loader.requests :=
  rfl

end Run

/-- The loads that are begun wait. -/
theorem outstanding_begin (reloads : Nat) (ls : List Loader) :
    outstanding reloads (ls.map fun loader => .load loader reloads loader.requests) = ls := by
  induction ls with
  | nil => rfl
  | cons loader ls ih =>
      unfold outstanding at *
      simp [ih]

theorem onRender_eq {acted : PlatformContext} {synchronizer : Synchronizer Loader ContextHandler}
    {calls : SynchronizerCalls Loader ContextHandler}
    (hacted : { s with synchronizer :=
      (s.synchronizer.onStart .pauseRender).onComplete .continueRender }.action = acted)
    (hstart : acted.synchronizer.start = (synchronizer, calls)) :
    s.onRender = { acted with synchronizer := synchronizer, rendered := true }.run calls := by
  simp only [PlatformContext.onRender, hacted, hstart]

/-- A render of a context whose loads are not under way keeps the round; it begins loads
only of the current reload. -/
structure KeepsRound (s s' : PlatformContext) (ts : List ContextTask)
    (waiting : List Loader) : Prop where
  round : s'.Round waiting
  reloads : s'.reloads = s.reloads
  includes : s'.includes = s.includes
  begins : ∃ ls : List Loader, waiting = ls ∧
    ts = ls.map fun loader => .load loader s.reloads loader.requests

/-- The first render of a round begins all loads, or shows a context without loaders. -/
theorem keepsRound_created (h : s.Round waiting) (hstate : s.state = .created) :
    KeepsRound s s.onRender.1 s.onRender.2 s.loaders := by
  obtain ⟨hunmanaged, hpauses, -, -, hcounts⟩ := h
  simp only [PlatformContext.Counts, hstate] at hcounts
  obtain ⟨hactions, hcounter, hbegun, hcompleted, -, -⟩ := hcounts
  let synchronizer : Synchronizer Loader ContextHandler :=
    { s.synchronizer with
      actions := s.loaders
      onStartHandlers := s.synchronizer.onStartHandlers ++ [.pauseRender]
      onCompleteHandlers :=
        .setInitialized :: .continueRender :: s.synchronizer.onCompleteHandlers }
  have hacted : { s with synchronizer :=
      (s.synchronizer.onStart .pauseRender).onComplete .continueRender }.action =
      { s with state := .loading, synchronizer := synchronizer } := by
    simp only [PlatformContext.action, hstate, reduceCtorEq, or_self, ↓reduceIte,
      Synchronizer.foldl_action, Synchronizer.onStart, Synchronizer.onComplete, hactions,
      List.nil_append]
    rfl
  have hstarts : .setInitialized ∉ synchronizer.onStartHandlers := by
    simpa [synchronizer] using hpauses
  by_cases hnone : s.loaders = []
  · have hstart : synchronizer.start =
        (synchronizer, { handlers := synchronizer.onCompleteHandlers }) :=
      Synchronizer.start_of_eq (by simp [synchronizer, hcounter, hnone])
    have hstate' : ContextHandler.setInitialized ∈ synchronizer.onCompleteHandlers :=
      List.mem_cons_self
    rw [onRender_eq hacted hstart]
    refine ⟨⟨?_, ?_, ?_, ?_, ?_⟩, ?_, ?_, [], hnone, ?_⟩
    · simpa using hunmanaged
    · simpa using hstarts
    · simp [hnone, hcompleted]
    · simp [hnone, hcompleted]
    · have hlength : s.loaders.length = 0 := by rw [hnone, List.length_nil]
      simp only [PlatformContext.Counts, run_state, run_loaders, run_synchronizer, run_begun,
        run_completed, run_rendered, if_pos hstate']
      refine ⟨rfl, hcounter.trans hlength.symm, ?_, ?_, trivial⟩
      · exact (congrArg List.length hcompleted).trans hlength.symm
      · exact (congrArg (· ++ []) hbegun).trans hnone.symm
    · simp
    · simp
    · simp
  · have hpos : 0 < s.loaders.length := List.length_pos_iff.mpr hnone
    have hstart : synchronizer.start =
        (synchronizer, { handlers := synchronizer.onStartHandlers, actions := s.loaders }) :=
      Synchronizer.start_of_ne hunmanaged (by simp only [synchronizer, hcounter]; omega)
    rw [onRender_eq hacted hstart]
    refine ⟨⟨?_, ?_, ?_, ?_, ?_⟩, ?_, ?_, s.loaders, rfl, ?_⟩
    · simpa using hunmanaged
    · simpa using hstarts
    · simpa [hcompleted] using nodup_loaders s
    · simp only [run_completed, run_loaders, hcompleted, List.append_nil]
      exact fun _ h => h
    · simp only [PlatformContext.Counts, run_state, run_loaders, run_synchronizer, run_begun,
        run_completed, run_rendered, if_neg hstarts]
      refine ⟨rfl, ?_, ?_, ?_, trivial, List.mem_cons_self⟩
      · exact hcounter.trans (congrArg List.length hcompleted).symm
      · exact (congrArg List.length hcompleted).symm ▸ hpos
      · exact congrArg (· ++ s.loaders) hbegun
    · simp
    · simp
    · simp

/-- A render of an initialized context begins nothing. -/
theorem keepsRound_initialized (h : s.Round waiting) (hstate : s.state = .initialized) :
    KeepsRound s s.onRender.1 s.onRender.2 [] := by
  have hwaiting := waiting_of_initialized h hstate
  obtain ⟨hunmanaged, hpauses, hnodup, hincluded, hcounts⟩ := h
  simp only [PlatformContext.Counts, hstate] at hcounts
  obtain ⟨hactions, hcounter, hcompleted, hbegun, hrendered⟩ := hcounts
  let synchronizer := (s.synchronizer.onStart .pauseRender).onComplete .continueRender
  have hacted : { s with synchronizer := synchronizer }.action =
      { s with synchronizer := synchronizer } := by
    simp [PlatformContext.action, hstate]
  have hstart : synchronizer.start =
      (synchronizer, { handlers := synchronizer.onCompleteHandlers }) :=
    Synchronizer.start_of_eq (hcounter.trans (congrArg List.length hactions).symm)
  rw [onRender_eq hacted hstart]
  refine ⟨⟨?_, ?_, ?_, ?_, ?_⟩, ?_, ?_, [], rfl, ?_⟩
  · simp only [run_synchronizer]
    exact hunmanaged
  · simpa [synchronizer, Synchronizer.onStart, Synchronizer.onComplete] using hpauses
  · simpa [hwaiting] using hnodup
  · rw [hwaiting] at hincluded
    simp only [run_completed, run_loaders]
    exact hincluded
  · simp only [PlatformContext.Counts, run_state, run_loaders, run_synchronizer, run_begun,
      run_completed, run_rendered, hstate, ite_self]
    exact ⟨hactions, hcounter, hcompleted, (List.append_nil _).trans hbegun, trivial⟩
  · simp
  · simp
  · simp

/-- A reload starts the next round. -/
theorem round_reload (h : s.Round waiting) : s.reload.Round [] :=
  ⟨h.unmanaged, h.pauses, List.nodup_nil, fun _ hl => (List.not_mem_nil hl).elim,
    rfl, rfl, rfl, rfl, rfl, rfl⟩

/-- A load that fails waits no longer. -/
theorem round_failed {loader : Loader} (h : s.Round (loader :: waiting)) :
    s.Round waiting := by
  refine ⟨h.unmanaged, h.pauses, (List.nodup_cons.mp h.nodup).2,
    fun l hl => h.included l (List.mem_cons_of_mem loader hl), ?_⟩
  have hcounts := h.counts
  unfold PlatformContext.Counts at *
  split at hcounts
  · cases hcounts.2.2.2.2.1
  · exact hcounts
  · exact hcounts

/-- The completion of a load that waits is counted; the last one shows the context. -/
theorem round_complete {loader : Loader} (h : s.Round (loader :: waiting)) :
    (s.complete loader s.reloads).1.Round waiting ∧
      (s.complete loader s.reloads).1.reloads = s.reloads ∧
      (s.complete loader s.reloads).1.includes = s.includes ∧
      (s.complete loader s.reloads).2 = [] := by
  cases hstate : s.state with
  | created =>
      have hcounts := h.counts
      simp only [PlatformContext.Counts, hstate] at hcounts
      cases hcounts.2.2.2.2.1
  | initialized => cases waiting_of_initialized h hstate
  | loading =>
      obtain ⟨hunmanaged, hpauses, hnodup, hincluded, hcounts⟩ := h
      simp only [PlatformContext.Counts, hstate] at hcounts
      obtain ⟨hactions, hcounter, hlt, hbegun, hrendered, hinitialize⟩ := hcounts
      have hperm : (waiting ++ (s.completed ++ [loader])).Perm
          (loader :: waiting ++ s.completed) := by
        rw [← List.append_assoc]
        exact List.perm_append_singleton loader (waiting ++ s.completed)
      have hlength : (s.completed ++ [loader]).length = s.synchronizer.counter + 1 := by
        rw [List.length_append, List.length_singleton, hcounter]
      have hnodup' := hperm.nodup_iff.mpr hnodup
      have hincluded' := fun l hl => hincluded l (hperm.mem_iff.mp hl)
      unfold PlatformContext.complete
      by_cases hlast : s.synchronizer.actions.length ≤ s.synchronizer.counter + 1
      · simp only [Synchronizer.process_of_le hlast, if_true]
        refine ⟨⟨?_, ?_, ?_, ?_, ?_⟩, ?_, ?_, ?_⟩
        · simpa using hunmanaged
        · simpa using hpauses
        · simpa using hnodup'
        · simp only [run_completed, run_loaders]
          exact hincluded'
        · simp only [PlatformContext.Counts, run_state, run_loaders, run_synchronizer,
            run_begun, run_completed, run_rendered, if_pos hinitialize, List.append_nil]
          rw [hactions] at hlast
          refine ⟨hactions, ?_, ?_, hbegun, hrendered⟩
          · change s.synchronizer.counter + 1 = s.loaders.length
            omega
          · change (s.completed ++ [loader]).length = s.loaders.length
            omega
        · simp
        · simp
        · simp
      · simp only [Synchronizer.process_of_lt hunmanaged (Nat.not_le.mp hlast), if_true]
        refine ⟨⟨?_, ?_, ?_, ?_, ?_⟩, ?_, ?_, ?_⟩
        · simpa using hunmanaged
        · simpa using hpauses
        · simpa using hnodup'
        · simp only [run_completed, run_loaders]
          exact hincluded'
        · simp only [PlatformContext.Counts, run_state, run_loaders, run_synchronizer,
            run_begun, run_completed, run_rendered, List.not_mem_nil, if_false, hstate,
            List.append_nil]
          rw [hactions] at hlast
          refine ⟨hactions, hlength.symm, ?_, hbegun, hrendered, hinitialize⟩
          change (s.completed ++ [loader]).length < s.loaders.length
          omega
        · simp
        · simp
        · simp

/-! ## Runs -/

/-- The context is not rendered while its loads are under way, and no load completes that
was begun before the last reload. -/
def Undisturbed (c : Config PlatformContext ContextTask) :
    Label ContextTask ContextSignal → Prop
  | .call (.load _ _ _) => False
  | .act .render _ => c.shared.state ≠ .loading
  | .act (.load _ reloads 1) .response => reloads = c.shared.reloads
  | _ => True

/-- What holds of the context and its tasks between two steps. -/
structure KeepsRounds (includes : Loader → Bool) (c : Config PlatformContext ContextTask) :
    Prop where
  includes : c.shared.includes = includes
  past : ∀ loader reloads waiting, .load loader reloads waiting ∈ c.tasks →
    reloads ≤ c.shared.reloads
  round : c.shared.Round (outstanding c.shared.reloads c.tasks)

variable {includes : Loader → Bool} {c c' : Config PlatformContext ContextTask}
  {l : Label ContextTask ContextSignal} {ls : List (Label ContextTask ContextSignal)}

theorem outstanding_cons_load (reloads begun waiting : Nat) (loader : Loader)
    (tasks : List ContextTask) :
    outstanding reloads (.load loader begun waiting :: tasks) =
      if begun = reloads then loader :: outstanding reloads tasks
      else outstanding reloads tasks := by
  unfold outstanding
  split <;> simp_all

theorem outstanding_append (reloads : Nat) (ts us : List ContextTask) :
    outstanding reloads (ts ++ us) = outstanding reloads ts ++ outstanding reloads us :=
  List.filterMap_append

/-- No load of the next reload has begun. -/
theorem outstanding_eq_nil {reloads : Nat} {tasks : List ContextTask}
    (h : ∀ loader begun waiting, .load loader begun waiting ∈ tasks → begun < reloads) :
    outstanding reloads tasks = [] := by
  refine List.filterMap_eq_nil_iff.mpr fun t ht => ?_
  cases t with
  | load loader begun waiting =>
      have hlt := h loader begun waiting ht
      exact if_neg (by omega)
  | _ => rfl

/-- A render of the context whose loads are not under way. -/
theorem KeepsRounds.render {tasks others : List ContextTask} (h : KeepsRounds includes ⟨s, tasks⟩)
    (hpool : tasks.Perm (.render :: others)) (hstate : s.state ≠ .loading) :
    KeepsRounds includes ⟨s.onRender.1, s.onRender.2 ++ others⟩ := by
  have hbag : (outstanding s.reloads tasks).Perm (outstanding s.reloads others) :=
    hpool.filterMap _
  have hround := round_perm h.round hbag.symm
  have hpast : ∀ loader reloads waiting, .load loader reloads waiting ∈ others →
      reloads ≤ s.reloads := fun loader reloads waiting ht =>
    h.past loader reloads waiting (hpool.mem_iff.mpr (List.mem_cons_of_mem _ ht))
  have hkeeps : KeepsRound s s.onRender.1 s.onRender.2
      (if s.state = .created then s.loaders else []) ∧ outstanding s.reloads others = [] := by
    cases hs : s.state with
    | created =>
        have hcounts := hround.counts
        simp only [PlatformContext.Counts, hs] at hcounts
        exact ⟨keepsRound_created hround hs, hcounts.2.2.2.2.1⟩
    | loading => exact absurd hs hstate
    | initialized =>
        exact ⟨keepsRound_initialized hround hs, waiting_of_initialized hround hs⟩
  obtain ⟨⟨hround', hreloads, hincludes, begun, hbegun, htasks⟩, hidle⟩ := hkeeps
  refine ⟨hincludes.trans h.includes, ?_, ?_⟩
  · intro loader reloads waiting ht
    rw [hreloads]
    rcases List.mem_append.mp ht with ht | ht
    · rw [htasks] at ht
      obtain ⟨_, -, heq⟩ := List.mem_map.mp ht
      cases heq
      exact Nat.le_refl _
    · exact hpast loader reloads waiting ht
  · rw [hreloads, outstanding_append, htasks, outstanding_begin, hidle, List.append_nil,
      ← hbegun]
    exact hround'

/-- A reload leaves the loads that have begun behind. -/
theorem KeepsRounds.reload {tasks others : List ContextTask} (h : KeepsRounds includes ⟨s, tasks⟩)
    (hpool : tasks.Perm (.reload :: others)) : KeepsRounds includes ⟨s.reload, others⟩ := by
  have hpast : ∀ loader reloads waiting, .load loader reloads waiting ∈ others →
      reloads ≤ s.reloads := fun loader reloads waiting ht =>
    h.past loader reloads waiting (hpool.mem_iff.mpr (List.mem_cons_of_mem _ ht))
  refine ⟨h.includes, ?_, ?_⟩
  · intro loader reloads waiting ht
    exact Nat.le_succ_of_le (hpast loader reloads waiting ht)
  · have hnone : outstanding s.reload.reloads others = [] :=
      outstanding_eq_nil fun loader begun waiting ht =>
        Nat.lt_succ_of_le (hpast loader begun waiting ht)
    change s.reload.Round (outstanding s.reload.reloads others)
    rw [hnone]
    exact round_reload h.round

/-- A response to a load that waits for more, or the failure of a load. -/
theorem KeepsRounds.wait {tasks others ts : List ContextTask} {loader : Loader}
    {reloads waiting : Nat} (h : KeepsRounds includes ⟨s, tasks⟩)
    (hpool : tasks.Perm (.load loader reloads waiting :: others))
    (hts : ts = [] ∨ ∃ rest, ts = [.load loader reloads rest]) :
    KeepsRounds includes ⟨s, ts ++ others⟩ := by
  have hbag : (outstanding s.reloads tasks).Perm
      (outstanding s.reloads (.load loader reloads waiting :: others)) := hpool.filterMap _
  rw [outstanding_cons_load] at hbag
  have hround := round_perm h.round hbag.symm
  have hpast : ∀ l r w, .load l r w ∈ .load loader reloads waiting :: others →
      r ≤ s.reloads := fun l r w ht => h.past l r w (hpool.mem_iff.mpr ht)
  rcases hts with rfl | ⟨rest, rfl⟩
  · refine ⟨h.includes, fun l r w ht => hpast l r w (List.mem_cons_of_mem _ ht), ?_⟩
    split at hround
    · exact round_failed hround
    · exact hround
  · refine ⟨h.includes, ?_, ?_⟩
    · intro l r w ht
      rcases List.mem_cons.mp ht with heq | ht
      · cases heq
        exact hpast loader reloads waiting List.mem_cons_self
      · exact hpast l r w (List.mem_cons_of_mem _ ht)
    · rw [List.singleton_append, outstanding_cons_load]
      exact hround

/-- The completion of a load of the last reload. -/
theorem KeepsRounds.complete {tasks others : List ContextTask} {loader : Loader}
    {waiting : Nat} (h : KeepsRounds includes ⟨s, tasks⟩)
    (hpool : tasks.Perm (.load loader s.reloads waiting :: others)) :
    KeepsRounds includes
      ⟨(s.complete loader s.reloads).1, (s.complete loader s.reloads).2 ++ others⟩ := by
  have hbag : (outstanding s.reloads tasks).Perm
      (outstanding s.reloads (.load loader s.reloads waiting :: others)) :=
    hpool.filterMap _
  rw [outstanding_cons_load, if_pos rfl] at hbag
  obtain ⟨hround, hreloads, hincludes, htasks⟩ :=
    round_complete (round_perm h.round hbag.symm)
  refine ⟨hincludes.trans h.includes, ?_, ?_⟩
  · intro l r w ht
    rw [htasks, List.nil_append] at ht
    rw [hreloads]
    exact h.past l r w (hpool.mem_iff.mpr (List.mem_cons_of_mem _ ht))
  · rw [hreloads, htasks]
    exact hround

/-- Every step of an undisturbed context keeps its rounds. -/
theorem keepsRounds_step (h : KeepsRounds includes c) (hok : Undisturbed c l)
    (hstep : Step ContextTask.step c l c') : KeepsRounds includes c' := by
  obtain ⟨s, tasks⟩ := c
  cases hstep with
  | call t =>
      have hnone : outstanding s.reloads (t :: tasks) = outstanding s.reloads tasks := by
        cases t with
        | load => exact hok.elim
        | render | reload => rfl
      refine ⟨h.includes, ?_, hnone ▸ h.round⟩
      intro loader reloads waiting ht
      rcases List.mem_cons.mp ht with rfl | ht
      · exact hok.elim
      · exact h.past loader reloads waiting ht
  | @act t x s' ts others hpool hact =>
      revert hact hok
      dsimp only at hpool ⊢
      fun_cases ContextTask.step t x s <;> intro hact hok <;>
        simp only [Option.some.injEq, Prod.mk.injEq, reduceCtorEq] at hact
      case case1 =>
          have hkept := h.render hpool hok
          rw [hact] at hkept
          exact hkept
      case case2 =>
          obtain ⟨rfl, rfl⟩ := hact
          exact h.reload hpool
      case case3 loader reloads =>
          obtain rfl : reloads = s.reloads := hok
          have hkept := h.complete hpool
          rw [hact] at hkept
          exact hkept
      case case4 loader reloads waiting =>
          obtain ⟨rfl, rfl⟩ := hact
          exact h.wait hpool (.inr ⟨_, rfl⟩)
      case case5 =>
          obtain ⟨rfl, rfl⟩ := hact
          exact h.wait hpool (.inl rfl)

/-- The context is shown when all included loaders have completed a load of the last
reload, and a render begins each of their loads once. -/
structure ShownWhenLoaded (s : PlatformContext) : Prop where
  shown : s.state = .initialized → ∀ loader, s.includes loader = true → loader ∈ s.completed
  once : ∀ loader,
    s.begun.count loader = if s.rendered = true ∧ s.includes loader = true then 1 else 0

theorem shownWhenLoaded_of_round (h : s.Round waiting) : ShownWhenLoaded s := by
  have hcounts := h.counts
  have hcount : ∀ loader,
      s.loaders.count loader = if s.includes loader = true then 1 else 0 := by
    intro loader
    split
    · rename_i hloader
      exact List.count_eq_one_of_mem (nodup_loaders s) (mem_loaders.mpr hloader)
    · rename_i hloader
      exact List.count_eq_zero.mpr fun hin => hloader (mem_loaders.mp hin)
  unfold PlatformContext.Counts at hcounts
  split at hcounts
  · rename_i hstate
    obtain ⟨-, -, hbegun, -, -, hrendered⟩ := hcounts
    refine ⟨by simp [hstate], ?_⟩
    simp [hbegun, hrendered]
  · rename_i hstate
    obtain ⟨-, -, -, hbegun, hrendered, -⟩ := hcounts
    refine ⟨by simp [hstate], ?_⟩
    simp [hbegun, hrendered, hcount]
  · obtain ⟨-, -, hlength, hbegun, hrendered⟩ := hcounts
    refine ⟨fun _ loader hloader => mem_completed h hlength (mem_loaders.mpr hloader), ?_⟩
    simp [hbegun, hrendered, hcount]

/-- A context of the given loaders that has not been rendered. -/
def platformContext (includes : Loader → Bool) : Config PlatformContext ContextTask :=
  ⟨{ includes := includes }, []⟩

/-- While no render falls between the begin and the end of its loads and no load completes
after a reload, a context is shown only when its loaders have completed, and each load is
begun once however often it is rendered. -/
theorem context_shown_when_loaded (includes : Loader → Bool)
    (ls : List (Label ContextTask ContextSignal)) (c : Config PlatformContext ContextTask)
    (hrun : Run ContextTask.step Undisturbed (platformContext includes) ls c) :
    c.shared.includes = includes ∧ ShownWhenLoaded c.shared := by
  have hstart : KeepsRounds includes (platformContext includes) :=
    ⟨rfl, fun _ _ _ ht => (List.not_mem_nil ht).elim,
      ⟨rfl, List.not_mem_nil, List.nodup_nil, fun _ hl => (List.not_mem_nil hl).elim,
        rfl, rfl, rfl, rfl, rfl, rfl⟩⟩
  have hkept : KeepsRounds includes c :=
    hrun.invariant hstart fun _ _ _ h hok hstep => keepsRounds_step h hok hstep
  exact ⟨hkept.includes, shownWhenLoaded_of_round hkept.round⟩

instance : Decidable (Undisturbed c l) := by
  unfold Undisturbed
  split <;> infer_instance

/-! ## A context of modules and projects -/

private def modulesAndProjects : Loader → Bool
  | .modules | .projects => true
  | _ => false

/-- One render, both loads, a render of the shown context, a reload, and one render. -/
private def patientRenders : List (Move ContextTask ContextSignal) :=
  [.call .render, .act 0 .go, .act 1 .response, .act 0 .response, .call .render, .act 0 .go,
    .call .reload, .act 0 .go, .call .render, .act 0 .go, .act 0 .response, .act 0 .response]

theorem context_shown_when_loaded_patient :
    ∃ ls c, Run ContextTask.step Undisturbed (platformContext modulesAndProjects) ls c ∧
      (c.shared.state = .initialized ∧ c.shared.reloads = 1) ∧
      c.shared.includes = modulesAndProjects ∧ ShownWhenLoaded c.shared := by
  obtain ⟨ls, c, hrun, hend⟩ := exists_run_of_exec ContextTask.step
    (fun c l => decide (Undisturbed c l)) (platformContext modulesAndProjects)
    patientRenders (fun _ c => c.shared.state = .initialized && c.shared.reloads = 1)
    (by decide)
  simp only [Bool.and_eq_true, decide_eq_true_eq] at hend
  have hquiet : Run ContextTask.step Undisturbed (platformContext modulesAndProjects) ls c :=
    hrun.mono fun _ _ h => of_decide_eq_true h
  exact ⟨ls, c, hquiet, hend, context_shown_when_loaded modulesAndProjects ls c hquiet⟩

/-- Two renders, and both loads of the modules complete. -/
private def hastyRenders : List (Move ContextTask ContextSignal) :=
  [.call .render, .act 0 .go, .call .render, .act 0 .go, .act 0 .response, .act 1 .response]

/-- Renders and reloads only are called. -/
private def rendersOnly : Label ContextTask ContextSignal → Bool
  | .call (.load _ _ _) => false
  | _ => true

/-- The context is shown without its projects, whose load has not completed, and has begun
the loads twice. -/
theorem context_shown_too_early :
    ∃ ls c, Run ContextTask.step (fun _ l => rendersOnly l = true)
        (platformContext modulesAndProjects) ls c ∧
      (c.shared.state = .initialized ∧ c.shared.includes .projects = true ∧
        .projects ∉ c.shared.completed) ∧
      c.shared.begun.count .modules = 2 := by
  obtain ⟨ls, c, hrun, hend⟩ := exists_run_of_exec ContextTask.step
    (fun _ => rendersOnly) (platformContext modulesAndProjects) hastyRenders
    (fun _ c => (c.shared.state = .initialized && (c.shared.includes .projects &&
      .projects ∉ c.shared.completed)) && c.shared.begun.count .modules = 2) (by decide)
  simp only [Bool.and_eq_true, decide_eq_true_eq] at hend
  exact ⟨ls, c, hrun, hend⟩

/-- A load that completes after a reload shows the context with nothing loaded. -/
theorem context_shown_after_reload (loader : Loader) {reloads : Nat}
    (hcreated : s.synchronizer.actions = [] ∧ s.completed = [])
    (hhandler : .setInitialized ∈ s.synchronizer.onCompleteHandlers)
    (hstale : reloads ≠ s.reloads) :
    (s.complete loader reloads).1.state = .initialized ∧
      (s.complete loader reloads).1.completed = [] := by
  have hprocess := Synchronizer.process_of_le
    (show s.synchronizer.actions.length ≤ s.synchronizer.counter + 1 by simp [hcreated.1])
  simp only [PlatformContext.complete, hprocess, if_neg hstale]
  exact ⟨by simp [hhandler], by simp [hcreated.2]⟩

end ArtPlatform.Web
