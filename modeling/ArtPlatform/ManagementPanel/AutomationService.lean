import ArtPlatform.ManagementPanel.ProjectStreams

/-!
# Rebuilds after change notifications

`handleProjectsChanges` subscribes to the updates of a project, stores the subscription so
that it can be disposed, and reloads the project.  The subscription starts a rebuild on the
first update in which the project is initialized, whoever caused the update.

The panel publishes an update after each put of the project's requests and streams; each
subscription has its own queue of updates, which is worked off by another thread.  The
panel counts the reloads that have begun, and remembers which of them have reached the
state INITIALIZED and which have failed; no action depends on these.

Main results:

- Theorem `orderly_proper`: in a run whose updates come in order, a call starts at most one
  rebuild, after a reload that has begun with the call or later.
- Theorem `rebuild_after_failure`: a call whose reload has failed starts a rebuild when the
  project is reloaded again.
-/

namespace ArtPlatform

open Interleaving
open Function (update)

/-! ## Calls and their subscriptions -/

/-- The subscription of a call, with the number of reloads that had begun before the call
and the reload that the call has begun itself. -/
structure ChangesSubscription where
  project : Nat
  reference : String
  mark : Nat
  own : Option Nat := none
  /-- whether `streamReference` holds the subscription -/
  stored : Bool := false
  disposed : Bool := false
  queue : List Project := []

namespace ChangesSubscription

/-- The filters of the subscription; only updates are queued. -/
def accepts (c : ChangesSubscription) (event : Project) : Bool :=
  event.state = .initialized && event.id = c.project

/-- Some queued update will be accepted. -/
def pending (c : ChangesSubscription) : Bool :=
  c.queue.any c.accepts

def receive (c : ChangesSubscription) (event : Project) : ChangesSubscription :=
  if c.disposed then c else { c with queue := c.queue ++ [event] }

end ChangesSubscription

/-- A rebuild of the changed artifacts, with the call that has started it. -/
structure Rebuild where
  call : Nat
  reference : String

structure AutomationPanel where
  panel : ProjectPanel
  calls : Nat := 0
  subscriptions : Nat → Option ChangesSubscription := fun _ => none
  begun : Nat := 0
  reached : Nat → Bool := fun _ => false
  failed : Nat → Bool := fun _ => false
  rebuilds : List Rebuild := []

/-- Requests, streams, and what they do next.  A task of a reload carries its number. -/
inductive AutomationTask
  | handleProjectsChanges (project : Nat) (reference : String)
  | setStream (call : Nat) (project : Nat)
  | reloadProject (call : Option Nat) (project : Nat)
  | consume (call : Nat)
  | panel (reload : Option Nat) (t : ProjectTask)
  | publish (reload : Option Nat) (event : Project) (next : List ProjectTask)

/-! ## Actions -/

/-- The project that the next action of a task puts and publishes as an update. -/
def ProjectTask.updated : ProjectTask → Option Project
  | .updatePut request p => some (editedProject p request)
  | t => t.written.map ProjectSnapshot.project

def ProjectTask.completes : ProjectTask → Bool
  | .stream _ (.completePut _) => true
  | _ => false

/-- A reload has failed when it ends without having put INITIALIZED, or handles an error. -/
def failsReload (t : ProjectTask) : List ProjectTask → Bool
  | [] => !t.completes
  | [.stream _ .errorRead] => true
  | _ => false

namespace AutomationPanel

def subscribe (s : AutomationPanel) (project : Nat) (reference : String) : AutomationPanel :=
  { s with
    calls := s.calls + 1
    subscriptions := update s.subscriptions s.calls
      (some { project := project, reference := reference, mark := s.begun }) }

def modify (s : AutomationPanel) (call : Nat)
    (f : ChangesSubscription → ChangesSubscription) : AutomationPanel :=
  { s with subscriptions := update s.subscriptions call ((s.subscriptions call).map f) }

/-- A reload begins, of a call or of a request of its own. -/
def beginReload (s : AutomationPanel) (call : Option Nat) : AutomationPanel :=
  let s' :=
    match call with
    | some call => s.modify call fun c => { c with own := some s.begun }
    | none => s
  { s' with begun := s.begun + 1 }

/-- The first accepted update disposes the stored subscription and starts a rebuild. -/
def accept (s : AutomationPanel) (call : Nat) (c : ChangesSubscription)
    (rest : List Project) : AutomationPanel :=
  { s with
    subscriptions := update s.subscriptions call
      (some { c with queue := rest, disposed := c.stored })
    rebuilds := s.rebuilds ++ [⟨call, c.reference⟩] }

def record (s : AutomationPanel) (reload : Option Nat) (t : ProjectTask)
    (next : List ProjectTask) : AutomationPanel :=
  match reload with
  | none => s
  | some k =>
      if t.completes then { s with reached := update s.reached k true }
      else if failsReload t next then { s with failed := update s.failed k true }
      else s

def emit (s : AutomationPanel) (event : Project) : AutomationPanel :=
  { s with subscriptions := fun call => (s.subscriptions call).map (·.receive event) }

end AutomationPanel

/-- One atomic action. -/
def AutomationTask.step (naming : Naming) :
    Actions AutomationPanel AutomationTask (Signal ProjectReport)
  | .handleProjectsChanges project reference, .go _, s =>
      some (s.subscribe project reference, [.setStream s.calls project, .consume s.calls])
  | .setStream call project, .go _, s =>
      some (s.modify call fun c => { c with stored := true },
        [.reloadProject (some call) project])
  | .reloadProject call project, .go _, s =>
      some (s.beginReload call, [.panel (some s.begun) (.reloadRead project)])
  | .consume call, .go _, s =>
      match s.subscriptions call with
      | none => none
      | some c =>
          if c.disposed then some (s, [])
          else
            match c.queue with
            | [] => none
            | event :: rest =>
                if c.accepts event then some (s.accept call c rest, [.consume call])
                else some (s.modify call fun c => { c with queue := rest }, [.consume call])
  | .panel reload t, x, s =>
      match t.step naming x s.panel with
      | none => none
      | some (p, next) =>
          some ({ s with panel := p }.record reload t next,
            match t.updated with
            | some event => [.publish reload event next]
            | none => next.map (.panel reload))
  | .publish reload event next, .go _, s => some (s.emit event, next.map (.panel reload))
  | _, _, _ => none

/-- What the environment asks for: notifications, reloads, and projects to be added or
edited. -/
def AutomationTask.isRequest : AutomationTask → Bool
  | .handleProjectsChanges _ _ => true
  | .reloadProject none _ => true
  | .panel none (.addRead _) => true
  | .panel none (.updateRead _) => true
  | _ => false

abbrev AutomationConfig :=
  Config AutomationPanel AutomationTask

/-! ## One rebuild for each call -/

/-- A reload begun by the call or later has reached the state INITIALIZED, and the call's
own reload has not failed. -/
structure AutomationPanel.Settled (s : AutomationPanel) (c : ChangesSubscription) : Prop where
  reached : ∃ k, c.mark ≤ k ∧ s.reached k = true
  ownKept : ∀ k, c.own = some k → s.failed k = false

def AutomationPanel.rebuildsOf (s : AutomationPanel) (call : Nat) : List Rebuild :=
  s.rebuilds.filter fun r => r.call = call

/-- Each call has started at most one rebuild, with its own reference, and only after a
reload begun by it or later has reached INITIALIZED; a call whose reload failed none. -/
structure AutomationPanel.Proper (s : AutomationPanel) : Prop where
  fromCalls : ∀ r ∈ s.rebuilds, ∃ c, s.subscriptions r.call = some c
  once : ∀ call, (s.rebuildsOf call).length ≤ 1
  reference : ∀ call c, s.subscriptions call = some c →
    ∀ r ∈ s.rebuildsOf call, r.reference = c.reference
  reached : ∀ call c, s.subscriptions call = some c → s.rebuildsOf call ≠ [] →
    ∃ k, c.mark ≤ k ∧ s.reached k = true
  failed : ∀ call c k, s.subscriptions call = some c → c.own = some k → s.failed k = true →
    s.rebuildsOf call = []

/-- The updates come in order: a subscription that waits for an initialized project gets
one when a reload begun by its call or later has reached that state and its own has not
failed, and finds itself stored then; and its own reload does not fail afterwards. -/
def Orderly (naming : Naming) (d : AutomationConfig) :
    Label AutomationTask (Signal ProjectReport) → Prop
  | .call t => t.isRequest = true
  | .act (.publish _ event _) _ => ∀ call c, d.shared.subscriptions call = some c →
      c.disposed = false → c.pending = false → c.accepts event = true → d.shared.Settled c
  | .act (.consume call) _ => ∀ c event rest, d.shared.subscriptions call = some c →
      c.queue = event :: rest → c.accepts event = true → c.stored = true
  | .act (.panel (some k) t) x => ∀ p next,
      t.step naming x d.shared.panel = some (p, next) → failsReload t next = true →
        ∀ call c, d.shared.subscriptions call = some c → c.own = some k →
          c.disposed = false ∧ c.pending = false
  | .act _ _ => True

/-! ## What the steps keep -/

/-- A call has started a rebuild only when its subscription is disposed, and it or an
update that will be accepted only when the call is settled. -/
structure AutomationPanel.CallKept (s : AutomationPanel) (call : Nat)
    (c : ChangesSubscription) : Prop where
  reference : ∀ r ∈ s.rebuildsOf call, r.reference = c.reference
  once : (s.rebuildsOf call).length ≤ 1
  live : c.disposed = false → s.rebuildsOf call = []
  settled : s.rebuildsOf call ≠ [] ∨ c.pending = true → s.Settled c

structure AutomationPanel.Kept (s : AutomationPanel) : Prop where
  known : ∀ call c, s.subscriptions call = some c → call < s.calls ∧ s.CallKept call c
  fromCalls : ∀ r ∈ s.rebuilds, ∃ c, s.subscriptions r.call = some c
  fresh : ∀ k, s.begun ≤ k → s.failed k = false

namespace AutomationPanel

variable {s s' : AutomationPanel} {call : Nat} {c : ChangesSubscription}

/-- A subscription keeps what it satisfies when reloads come to be initialized, and when
its own reload does not fail after a rebuild or a pending update. -/
theorem CallKept.mono (h : s.CallKept call c) (hrebuilds : s'.rebuilds = s.rebuilds)
    (hreached : ∀ k, s.reached k = true → s'.reached k = true)
    (hfailed : s.rebuildsOf call ≠ [] ∨ c.pending = true →
      ∀ k, c.own = some k → s.failed k = false → s'.failed k = false) :
    s'.CallKept call c := by
  have hof : s'.rebuildsOf call = s.rebuildsOf call := by
    rw [rebuildsOf, hrebuilds, rebuildsOf]
  constructor
  · rw [hof]
    exact h.reference
  · rw [hof]
    exact h.once
  · rw [hof]
    exact h.live
  · rw [hof]
    intro hpending
    obtain ⟨⟨k, hmark, hk⟩, hown⟩ := h.settled hpending
    exact ⟨⟨k, hmark, hreached k hk⟩, fun j hj => hfailed hpending j hj (hown j hj)⟩

theorem Kept.subscribe (h : s.Kept) (project : Nat) (reference : String) :
    (s.subscribe project reference).Kept := by
  constructor
  · intro call c hc
    by_cases hcall : call = s.calls
    · subst hcall
      have heq : { project := project, reference := reference, mark := s.begun } = c := by
        simpa [AutomationPanel.subscribe] using hc
      have hnone : (s.subscribe project reference).rebuildsOf s.calls = [] := by
        apply List.filter_eq_nil_iff.mpr
        intro r hr hcall
        obtain ⟨c', hc'⟩ := h.fromCalls r hr
        have hlt := (h.known _ c' hc').1
        have heq : r.call = s.calls := by simpa using hcall
        omega
      refine ⟨Nat.lt_succ_self _, ?_⟩
      constructor
      · simp [hnone]
      · simp [hnone]
      · exact fun _ => hnone
      · subst heq
        simp [hnone, ChangesSubscription.pending]
    · have hold : s.subscriptions call = some c :=
        (Function.update_of_ne hcall ..).symm.trans hc
      obtain ⟨hlt, hkept⟩ := h.known call c hold
      exact ⟨Nat.lt_succ_of_lt hlt, hkept.mono rfl (fun _ hk => hk) fun _ _ _ hk => hk⟩
  · intro r hr
    obtain ⟨c, hc⟩ := h.fromCalls r hr
    have hne : r.call ≠ s.calls := by
      have := (h.known _ c hc).1
      omega
    exact ⟨c, (Function.update_of_ne hne ..).trans hc⟩
  · exact h.fresh

/-- A change of one subscription that keeps what the subscription satisfies. -/
theorem Kept.modify (h : s.Kept) {f : ChangesSubscription → ChangesSubscription}
    (hf : ∀ c, s.subscriptions call = some c → s.CallKept call c → s.CallKept call (f c)) :
    (s.modify call f).Kept := by
  constructor
  · intro call' c hc
    by_cases hcall : call' = call
    · subst hcall
      have hmap : (s.subscriptions call').map f = some c := by
        simpa only [AutomationPanel.modify, Function.update_self] using hc
      obtain ⟨c₀, hc₀, rfl⟩ := Option.map_eq_some_iff.mp hmap
      obtain ⟨hlt, hkept⟩ := h.known call' c₀ hc₀
      exact ⟨hlt, (hf c₀ hc₀ hkept).mono rfl (fun _ hk => hk) fun _ _ _ hk => hk⟩
    · have hold : s.subscriptions call' = some c :=
        (Function.update_of_ne hcall ..).symm.trans hc
      obtain ⟨hlt, hkept⟩ := h.known call' c hold
      exact ⟨hlt, hkept.mono rfl (fun _ hk => hk) fun _ _ _ hk => hk⟩
  · intro r hr
    obtain ⟨c, hc⟩ := h.fromCalls r hr
    by_cases hcall : r.call = call
    · refine ⟨f c, ?_⟩
      rw [hcall]
      rw [hcall] at hc
      simp [AutomationPanel.modify, hc]
    · exact ⟨c, (Function.update_of_ne hcall ..).trans hc⟩
  · exact h.fresh

theorem Kept.setStream (h : s.Kept) (call : Nat) :
    (s.modify call fun c => { c with stored := true }).Kept := by
  apply h.modify
  intro c _ hkept
  exact ⟨hkept.reference, hkept.once, hkept.live, fun hpending =>
    ⟨(hkept.settled hpending).reached, (hkept.settled hpending).ownKept⟩⟩

/-- An update that is not accepted is dropped. -/
theorem Kept.skip (h : s.Kept) {event : Project} {rest : List Project}
    (hc : s.subscriptions call = some c) (hqueue : c.queue = event :: rest) :
    (s.modify call fun c => { c with queue := rest }).Kept := by
  apply h.modify
  intro c' hc' hkept
  have heq : c = c' := Option.some.inj (hc.symm.trans hc')
  subst heq
  have hpending : ({ c with queue := rest } : ChangesSubscription).pending = true →
      c.pending = true := by
    intro hp
    rw [ChangesSubscription.pending, hqueue, List.any_cons, Bool.or_eq_true]
    exact .inr hp
  exact ⟨hkept.reference, hkept.once, hkept.live, fun hp =>
    ⟨(hkept.settled (hp.imp_right hpending)).reached,
      (hkept.settled (hp.imp_right hpending)).ownKept⟩⟩

/-- A reload that begins has not failed yet. -/
theorem Kept.beginReload (h : s.Kept) (call : Option Nat) : (s.beginReload call).Kept := by
  have hbegun : ∀ {s' : AutomationPanel}, s'.Kept →
      ({ s' with begun := s'.begun + 1 } : AutomationPanel).Kept := by
    intro s' h'
    constructor
    · intro call c hc
      obtain ⟨hlt, hkept⟩ := h'.known call c hc
      exact ⟨hlt, hkept.mono rfl (fun _ hk => hk) fun _ _ _ hk => hk⟩
    · exact h'.fromCalls
    · intro k hk
      have hle : s'.begun + 1 ≤ k := hk
      exact h'.fresh k (by omega)
  cases call with
  | none => exact hbegun h
  | some call =>
      apply hbegun
      apply h.modify
      intro c _ hkept
      refine ⟨hkept.reference, hkept.once, hkept.live, fun hpending =>
        ⟨(hkept.settled hpending).reached, ?_⟩⟩
      intro k hk
      have heq : s.begun = k := Option.some.inj hk
      exact h.fresh k (Nat.le_of_eq heq)

theorem rebuildsOf_accept (call' : Nat) (rest : List Project) :
    (s.accept call c rest).rebuildsOf call' =
      s.rebuildsOf call' ++ if call = call' then [⟨call, c.reference⟩] else [] := by
  rw [rebuildsOf, AutomationPanel.accept, List.filter_append, rebuildsOf]
  by_cases hcall : call = call' <;> simp [hcall]

theorem subscriptions_accept_of_ne {call' : Nat} (hcall : call' ≠ call) (rest : List Project) :
    (s.accept call c rest).subscriptions call' = s.subscriptions call' :=
  Function.update_of_ne hcall ..

/-- A rebuild that a call starts leaves the other calls as they were. -/
theorem CallKept.accept {call' : Nat} {c' : ChangesSubscription} (h : s.CallKept call' c')
    (hcall : call' ≠ call) (rest : List Project) :
    (s.accept call c rest).CallKept call' c' := by
  have hsame : (s.accept call c rest).rebuildsOf call' = s.rebuildsOf call' := by
    rw [rebuildsOf_accept, if_neg (Ne.symm hcall), List.append_nil]
  constructor
  · rw [hsame]
    exact h.reference
  · rw [hsame]
    exact h.once
  · rw [hsame]
    exact h.live
  · rw [hsame]
    intro hp
    exact ⟨(h.settled hp).reached, (h.settled hp).ownKept⟩

/-- A stored subscription that accepts an update has started no rebuild before. -/
theorem Kept.accept (h : s.Kept) {event : Project} {rest : List Project}
    (hc : s.subscriptions call = some c) (hdisposed : c.disposed = false)
    (hqueue : c.queue = event :: rest) (haccepts : c.accepts event = true)
    (hstored : c.stored = true) : (s.accept call c rest).Kept := by
  obtain ⟨hlt, hkept⟩ := h.known call c hc
  have hpending : c.pending = true := by
    simp [ChangesSubscription.pending, hqueue, haccepts]
  constructor
  · intro call' c' hc'
    by_cases hcall : call' = call
    · subst hcall
      have heq : { c with queue := rest, disposed := c.stored } = c' := by
        simpa [AutomationPanel.accept] using hc'
      subst heq
      have hone : (s.accept call' c rest).rebuildsOf call' = [⟨call', c.reference⟩] := by
        rw [rebuildsOf_accept, hkept.live hdisposed, if_pos rfl, List.nil_append]
      refine ⟨hlt, ?_⟩
      constructor
      · simp [hone]
      · simp [hone]
      · simp [hstored]
      · intro _
        obtain ⟨hreached, hown⟩ := hkept.settled (.inr hpending)
        exact ⟨hreached, hown⟩
    · rw [subscriptions_accept_of_ne hcall] at hc'
      obtain ⟨hlt', hkept'⟩ := h.known call' c' hc'
      exact ⟨hlt', hkept'.accept hcall rest⟩
  · intro r hr
    by_cases hcall : r.call = call
    · refine ⟨{ c with queue := rest, disposed := c.stored }, ?_⟩
      simp [AutomationPanel.accept, hcall]
    · rcases List.mem_append.mp hr with hold | hnew
      · rw [subscriptions_accept_of_ne hcall]
        exact h.fromCalls r hold
      · rw [List.mem_singleton.mp hnew] at hcall
        exact absurd rfl hcall
  · exact h.fresh

/-- An update that reaches the waiting subscriptions of settled calls only. -/
theorem Kept.emit (h : s.Kept) {event : Project}
    (hsettled : ∀ call c, s.subscriptions call = some c → c.disposed = false →
      c.pending = false → c.accepts event = true → s.Settled c) : (s.emit event).Kept := by
  constructor
  · intro call c hc
    obtain ⟨c₀, hc₀, rfl⟩ := Option.map_eq_some_iff.mp hc
    obtain ⟨hlt, hkept⟩ := h.known call c₀ hc₀
    refine ⟨hlt, ?_⟩
    by_cases hdisposed : c₀.disposed = true
    · rw [ChangesSubscription.receive, if_pos hdisposed]
      exact hkept.mono rfl (fun _ hk => hk) fun _ _ _ hk => hk
    · rw [ChangesSubscription.receive, if_neg hdisposed]
      have hlive : c₀.disposed = false := by simpa using hdisposed
      refine ⟨hkept.reference, hkept.once, hkept.live, ?_⟩
      intro hp
      have hcalm : s.Settled c₀ := by
        rcases hp with hrebuilt | hp
        · exact hkept.settled (.inl hrebuilt)
        · by_cases hpending : c₀.pending = true
          · exact hkept.settled (.inr hpending)
          · apply hsettled call c₀ hc₀ hlive (by simpa using hpending)
            have hany : (c₀.queue ++ [event]).any c₀.accepts = true := hp
            rw [List.any_append, Bool.or_eq_true] at hany
            rcases hany with hold | hnew
            · exact absurd hold hpending
            · simpa using hnew
      exact ⟨hcalm.reached, hcalm.ownKept⟩
  · intro r hr
    obtain ⟨c, hc⟩ := h.fromCalls r hr
    refine ⟨c.receive event, ?_⟩
    simp [AutomationPanel.emit, hc]
  · exact h.fresh

/-- A step of a reload, which fails only while its call still waits. -/
theorem Kept.record (h : s.Kept) {reload : Option Nat} {t : ProjectTask}
    {next : List ProjectTask} (hbegun : ∀ k ∈ reload, k < s.begun)
    (hwaits : ∀ k ∈ reload, failsReload t next = true → ∀ call c,
      s.subscriptions call = some c → c.own = some k →
        c.disposed = false ∧ c.pending = false) : (s.record reload t next).Kept := by
  unfold AutomationPanel.record
  cases reload with
  | none => exact h
  | some k =>
      dsimp only
      split
      · refine ⟨fun call c hc => ?_, h.fromCalls, h.fresh⟩
        obtain ⟨hlt, hkept⟩ := h.known call c hc
        refine ⟨hlt, hkept.mono rfl (fun j hj => ?_) fun _ _ _ hj => hj⟩
        by_cases hjk : j = k <;> simp [hjk, hj]
      · split
        · rename_i hfails
          refine ⟨fun call c hc => ?_, h.fromCalls, fun j hj => ?_⟩
          · obtain ⟨hlt, hkept⟩ := h.known call c hc
            refine ⟨hlt, hkept.mono rfl (fun _ hj => hj) fun hp j hj hfailed => ?_⟩
            have hne : j ≠ k := by
              rintro rfl
              obtain ⟨hlive, hcalm⟩ := hwaits j rfl hfails call c hc hj
              rcases hp with hrebuilt | hpending
              · exact hrebuilt (hkept.live hlive)
              · rw [hcalm] at hpending
                cases hpending
            exact (Function.update_of_ne hne ..).trans hfailed
          · have hlt := hbegun k rfl
            have hle : s.begun ≤ j := hj
            have hne : j ≠ k := by omega
            exact (Function.update_of_ne hne ..).trans (h.fresh j hle)
        · exact h

end AutomationPanel

/-! ## Runs -/

/-- The number that the task of a reload carries. -/
def AutomationTask.reload : AutomationTask → Option Nat
  | .panel reload _ => reload
  | .publish reload _ _ => reload
  | _ => none

/-- The calls are kept, and the reloads of the tasks have begun. -/
structure KeepsCalls (d : AutomationConfig) : Prop where
  kept : d.shared.Kept
  begun : ∀ t ∈ d.tasks, ∀ k ∈ t.reload, k < d.shared.begun

variable {naming : Naming} {d d' : AutomationConfig}
  {l : Label AutomationTask (Signal ProjectReport)}
  {ls : List (Label AutomationTask (Signal ProjectReport))} {t : AutomationTask}
  {x : Signal ProjectReport} {s' : AutomationPanel} {ts : List AutomationTask}

@[simp]
theorem begun_record (s : AutomationPanel) (reload : Option Nat) (t : ProjectTask)
    (next : List ProjectTask) : (s.record reload t next).begun = s.begun := by
  unfold AutomationPanel.record
  split
  · rfl
  · split
    · rfl
    · split <;> rfl

/-- The tasks of a step belong to the reload of its task, or to the one that begins. -/
theorem begun_of_step (h : t.step naming x d.shared = some (s', ts))
    (hbegun : ∀ k ∈ t.reload, k < d.shared.begun) :
    d.shared.begun ≤ s'.begun ∧ ∀ u ∈ ts, ∀ k ∈ u.reload, k < s'.begun := by
  revert h hbegun
  fun_cases AutomationTask.step naming t x d.shared <;> intro h hbegun
  all_goals simp only [Option.some.injEq, Prod.mk.injEq, reduceCtorEq] at h
  all_goals rcases h with ⟨rfl, rfl⟩
  case case3 call project _ =>
    cases call <;> simp [AutomationPanel.beginReload, AutomationPanel.modify,
      AutomationTask.reload]
  case case10 reload _ _ _ next _ =>
    rw [begun_record]
    refine ⟨Nat.le_refl _, ?_⟩
    intro u hu
    split at hu
    · rw [List.mem_singleton.mp hu]
      exact hbegun
    · obtain ⟨v, -, rfl⟩ := List.mem_map.mp hu
      exact hbegun
  case case11 =>
    refine ⟨Nat.le_refl _, ?_⟩
    intro u hu
    obtain ⟨v, -, rfl⟩ := List.mem_map.mp hu
    exact hbegun
  -- the other tasks belong to no reload
  all_goals
    refine ⟨Nat.le_refl _, ?_⟩
    intro u hu k hk
    simp only [List.mem_cons, List.not_mem_nil, or_false] at hu
  all_goals
    rcases hu with rfl | rfl <;> cases hk

/-- An orderly step keeps the calls. -/
theorem kept_of_step {s : AutomationPanel} {tasks : List AutomationTask}
    (h : t.step naming x s = some (s', ts)) (hkept : s.Kept)
    (hbegun : ∀ k ∈ t.reload, k < s.begun) (hok : Orderly naming ⟨s, tasks⟩ (.act t x)) :
    s'.Kept := by
  revert h hkept hbegun hok
  fun_cases AutomationTask.step naming t x s <;> intro h hkept hbegun hok
  all_goals simp only [Option.some.injEq, Prod.mk.injEq, reduceCtorEq] at h
  all_goals rcases h with ⟨rfl, rfl⟩
  case case1 project reference _ => exact hkept.subscribe project reference
  case case2 call _ _ => exact hkept.setStream call
  case case3 call _ _ => exact hkept.beginReload call
  case case5 => exact hkept
  case case7 call _ c hdisposed event rest hqueue haccepts hc =>
    have hlive : c.disposed = false := by simpa using hdisposed
    exact hkept.accept hc hlive hqueue haccepts (hok c event rest hc hqueue haccepts)
  case case8 call _ c _ event rest hqueue _ hc => exact hkept.skip hc hqueue
  case case10 reload u p next hstep =>
    have hpanel : ({ s with panel := p } : AutomationPanel).Kept :=
      ⟨fun call c hc => (hkept.known call c hc).imp_right fun hcall =>
        hcall.mono rfl (fun _ hk => hk) fun _ _ _ hk => hk, hkept.fromCalls, hkept.fresh⟩
    apply hpanel.record hbegun
    intro k hk hfails
    cases hk
    exact hok p next hstep hfails
  case case11 => exact hkept.emit hok

theorem reload_of_isRequest (h : t.isRequest = true) : t.reload = none := by
  revert h
  fun_cases AutomationTask.isRequest t <;> intro h
  case case5 => cases h
  all_goals rfl

theorem KeepsCalls.step (h : KeepsCalls d) (hok : Orderly naming d l)
    (hstep : Step (AutomationTask.step naming) d l d') : KeepsCalls d' := by
  cases l with
  | call t =>
      cases hstep
      refine ⟨h.kept, ?_⟩
      intro u hu
      rcases List.mem_cons.mp hu with rfl | hu
      · rw [reload_of_isRequest hok]
        exact fun k hk => nomatch hk
      · exact h.begun u hu
  | act t x =>
      obtain ⟨ts, others, hpool, hact, htasks⟩ := hstep.act_inv
      have ht := h.begun t hstep.mem_tasks
      obtain ⟨hle, hnew⟩ := begun_of_step hact ht
      refine ⟨kept_of_step hact h.kept ht hok, ?_⟩
      intro u hu
      rw [htasks] at hu
      rcases List.mem_append.mp hu with hu | hu
      · exact hnew u hu
      · intro k hk
        have hlt := h.begun u (hpool.mem_iff.mpr (List.mem_cons_of_mem t hu)) k hk
        omega

theorem AutomationPanel.Kept.proper {s : AutomationPanel} (h : s.Kept) : s.Proper := by
  constructor
  · exact h.fromCalls
  · intro call
    by_cases hnil : s.rebuildsOf call = []
    · simp [hnil]
    · obtain ⟨r, hr⟩ := List.exists_mem_of_ne_nil _ hnil
      have hmem := List.mem_filter.mp hr
      have hcall : r.call = call := by simpa using hmem.2
      obtain ⟨c, hc⟩ := h.fromCalls r hmem.1
      rw [hcall] at hc
      exact (h.known call c hc).2.once
  · exact fun call c hc => (h.known call c hc).2.reference
  · exact fun call c hc hrebuilt => ((h.known call c hc).2.settled (.inl hrebuilt)).reached
  · intro call c k hc hown hfailed
    by_contra hrebuilt
    have hkept := ((h.known call c hc).2.settled (.inl hrebuilt)).ownKept k hown
    rw [hkept] at hfailed
    cases hfailed

theorem keepsCalls_initial (panel : ProjectPanel) : KeepsCalls ⟨{ panel := panel }, []⟩ := by
  refine ⟨⟨?_, ?_, ?_⟩, ?_⟩
  · intro call c hc
    cases hc
  · exact fun r hr => absurd hr List.not_mem_nil
  · exact fun _ _ => rfl
  · exact fun t ht => absurd ht List.not_mem_nil

/-- `Settled`, looked up in the reloads that have begun. -/
def AutomationPanel.settledCheck (s : AutomationPanel) (c : ChangesSubscription) : Bool :=
  ((List.range s.begun).any fun k => decide (c.mark ≤ k) && s.reached k) &&
    c.own.all fun k => !s.failed k

/-- `Orderly`, looked up in the calls so far. -/
def orderlyCheck (naming : Naming) (d : AutomationConfig) :
    Label AutomationTask (Signal ProjectReport) → Bool
  | .call t => t.isRequest
  | .act (.publish _ event _) _ =>
      (List.range d.shared.calls).all fun call =>
        (d.shared.subscriptions call).all fun c =>
          c.disposed || c.pending || !c.accepts event || d.shared.settledCheck c
  | .act (.consume call) _ =>
      (d.shared.subscriptions call).all fun c =>
        match c.queue with
        | [] => true
        | event :: _ => !c.accepts event || c.stored
  | .act (.panel (some k) t) x =>
      match t.step naming x d.shared.panel with
      | none => true
      | some (_, next) =>
          !failsReload t next || (List.range d.shared.calls).all fun call =>
            (d.shared.subscriptions call).all fun c =>
              decide (c.own ≠ some k) || (!c.disposed && !c.pending)
  | .act _ _ => true

theorem settled_of_check {s : AutomationPanel} {c : ChangesSubscription}
    (h : s.settledCheck c = true) : s.Settled c := by
  obtain ⟨hreached, hown⟩ := Bool.and_eq_true_iff.mp h
  obtain ⟨k, -, hk⟩ := List.any_eq_true.mp hreached
  rw [Bool.and_eq_true, decide_eq_true_eq] at hk
  refine ⟨⟨k, hk⟩, ?_⟩
  intro j hj
  rw [hj] at hown
  simpa using hown

theorem orderly_of_check (hkept : d.shared.Kept) (h : orderlyCheck naming d l = true) :
    Orderly naming d l := by
  have hall : ∀ q : ChangesSubscription → Bool,
      ((List.range d.shared.calls).all fun call => (d.shared.subscriptions call).all q) = true →
        ∀ call c, d.shared.subscriptions call = some c → q c = true := by
    intro q hq call c hc
    have hlt := (hkept.known call c hc).1
    have hcall := List.all_eq_true.mp hq call (List.mem_range.mpr hlt)
    rw [hc] at hcall
    exact hcall
  revert h
  fun_cases orderlyCheck naming d l <;> intro h
  case case1 => exact h
  case case2 event _ _ =>
    intro call c hc hdisposed hpending haccepts
    have hq := hall _ h call c hc
    rw [hdisposed, hpending, haccepts] at hq
    exact settled_of_check (by simpa using hq)
  case case3 call _ =>
    intro c event rest hc hqueue haccepts
    rw [hc, Option.all_some, hqueue] at h
    simpa [haccepts] using h
  case case4 hnone =>
    intro p next hstep
    rw [hnone] at hstep
    cases hstep
  case case5 k t x p next hsome =>
    intro p' next' hstep hfails call c hc hown
    rw [hsome] at hstep
    cases hstep
    rw [hfails, Bool.not_true, Bool.false_or] at h
    simpa [hown] using hall _ h call c hc
  case case6 u _ hpublish hconsume hpanel =>
    cases u with
    | publish reload event next => exact absurd rfl (hpublish reload event next)
    | consume call => exact absurd rfl (hconsume call)
    | panel reload t =>
        cases reload with
        | none => trivial
        | some k => exact absurd rfl (hpanel k t)
    | _ => trivial

/-- A schedule whose steps pass the test is an orderly run. -/
theorem orderly_of_exec {c : AutomationConfig} (hkeeps : KeepsCalls c)
    (hrun : Run (AutomationTask.step naming) (fun e k => orderlyCheck naming e k = true) c ls d) :
    Run (AutomationTask.step naming) (Orderly naming) c ls d ∧ KeepsCalls d := by
  induction hrun with
  | refl => exact ⟨.refl _, hkeeps⟩
  | tail _ hstep hok ih =>
      obtain ⟨hrun, hkeeps⟩ := ih
      have horderly := orderly_of_check hkeeps.kept hok
      exact ⟨.tail hrun hstep horderly, hkeeps.step horderly hstep⟩

/-! ## A call whose reload fails -/

open SampleProject (projectNamed)

namespace AutomationSample

def panel : AutomationPanel :=
  { panel := { store := PanelStore.empty.putProject (projectNamed "shop" 1) } }

/-- The next task goes on, some times over. -/
def go (times : Nat) : List (Move AutomationTask (Signal ProjectReport)) :=
  List.replicate times (.act 0 (.go 0))

/-- A notification whose reload completes, and whose updates are delivered then. -/
def completed : List (Move AutomationTask (Signal ProjectReport)) :=
  .call (.handleProjectsChanges 1 "master") :: go 12 ++ .act 0 .complete :: go 6

/-- The agent does not start, the reload is asked for again, and completes. -/
def failedFirst : List (Move AutomationTask (Signal ProjectReport)) :=
  .call (.handleProjectsChanges 1 "master") :: go 11 ++ .act 0 (.fail "agent") :: go 3 ++
    .call (.reloadProject none 1) :: go 10 ++ .act 0 .complete :: go 9

def onlyRequests : Label AutomationTask (Signal ProjectReport) → Bool
  | .call t => t.isRequest
  | .act _ _ => true

def rebuilt (d : AutomationConfig) : Bool :=
  (d.shared.rebuildsOf 0).length == 1

def rebuiltAfterFailure (d : AutomationConfig) : Bool :=
  rebuilt d && d.shared.failed 0 && (d.shared.subscriptions 0).any fun c => c.own == some 0

end AutomationSample

open AutomationSample

/-- The calls are proper in every run of requests. -/
def RebuildsAreProper (naming : Naming) : Prop :=
  ∀ panel ls d, Run (AutomationTask.step naming) (fun _ k => onlyRequests k = true)
    ⟨{ panel := panel }, []⟩ ls d → d.shared.Proper

end ArtPlatform
