import ArtPlatform.ManagementPanel.AssemblyService

/-!
# Cancelled assemblies stay cancelled

`cancelAssembly` puts a whole snapshot whose state is cancelled, and every
handler of the assembly's stream reads that the assembly is running before it
puts a whole snapshot of its own.  A handler that has passed its guard before
the cancellation's put therefore overwrites the cancellation, and a handler that
comes to its guard afterwards does not.

Main results:

- Theorem `cancellation_sticky`: a cancellation that is stored while no other task
  holds a put of the assembly is kept by every later run without a rebuild.
- Theorem `cancellation_overwritten`: without that condition it is not.
-/

namespace ArtPlatform

open Interleaving

variable {r : Rendering} {t u : AssemblyTask} {x : Signal AssemblyEvent}
  {id : Nat}

/-- The stored assembly of an id exists and is cancelled. -/
def PanelState.StoredCanceled (s : PanelState) (id : Nat) : Prop :=
  ∃ a, s.store.tryGetAssembly id = some a ∧ a.isCanceled = true

/-- No task of the pool will put a snapshot of the assembly without a new look at
the stored one, be it a handler past its guard or a rebuild. -/
def Unheld (id : Nat) (c : BuildConfig) : Prop :=
  ∀ u ∈ c.tasks, id ∉ u.heldPut ∧ id ∉ u.rebuilding

/-- The stored assembly is cancelled in every later state without a rebuild. -/
def StaysCanceled (r : Rendering) (id : Nat) (c : BuildConfig) : Prop :=
  ∀ ls c', Run (AssemblyTask.step r) (fun _ l => requestsWithoutRebuild id l = true) c ls c' →
    c'.shared.StoredCanceled id

/-! ## The invariant -/

/-- What carries the cancellation through a run. -/
structure CancellationHolds (id : Nat) (c : BuildConfig) : Prop where
  canceled : c.shared.StoredCanceled id
  unheld : Unheld id c

theorem not_running_of_canceled {s : PanelState} (h : s.StoredCanceled id) :
    s.runningAssembly id = none := by
  obtain ⟨a, hget, hcanceled⟩ := h
  have hstate : a.state = .canceled := by simpa [Assembly.isCanceled] using hcanceled
  have hrun : a.isRunning = false := by simp [Assembly.isRunning, hstate, AssemblyState.isRunning]
  unfold PanelState.runningAssembly
  rw [hget, Option.filter_some, hrun]
  rfl

/-- What the assembly that a task puts can be. -/
theorem written_cases {s : PanelState} {a : Assembly} {now : Nat}
    (h : t.written s now = some a) :
    a.id ∈ t.heldPut ∨ a.id ∈ t.rebuilding ∨ a.isCanceled = true ∨
      a.id = s.store.assemblies.freshKey := by
  revert h
  fun_cases AssemblyTask.written s now t <;> intro h <;>
    simp only [Option.some.injEq, reduceCtorEq] at h <;> subst h
  · exact .inr (.inr (.inl rfl))
  · exact .inr (.inl rfl)
  · exact .inr (.inr (.inr rfl))
  · exact .inl rfl
  · rename_i b event
    exact .inl (congrArg some event.2.symm)
  · exact .inl rfl
  · exact .inl rfl

/-- A task without a held put and without a rebuild of the id writes the stored
assembly of that id only by cancelling it. -/
theorem stored_canceled_of_step {s s' : PanelState} {ts : List AssemblyTask}
    (h : t.step r x s = some (s', ts)) (hcanceled : s.StoredCanceled id)
    (hheld : id ∉ t.heldPut) (hrebuild : id ∉ t.rebuilding) : s'.StoredCanceled id := by
  unfold PanelState.StoredCanceled PanelStore.tryGetAssembly
  rw [assemblies_of_step h]
  cases hw : t.written s x.clock with
  | none => exact hcanceled
  | some a =>
      have hput : (s.assembliesAfter (some a)).get id =
          if id = a.id then some a else s.store.assemblies.get id :=
        s.store.assemblies.get_put a id
      rw [hput]
      by_cases ha : id = a.id
      · subst ha
        rcases written_cases hw with hid | hid | hid | hid
        · exact absurd hid hheld
        · exact absurd hid hrebuild
        · exact ⟨a, if_pos rfl, hid⟩
        · obtain ⟨b, hb, -⟩ := hcanceled
          rw [hid] at hb
          have hfree := s.store.assemblies.get_freshKey
          rw [show s.store.assemblies.get s.store.assemblies.freshKey = some b from hb] at hfree
          cases hfree
      · rw [if_neg ha]
        exact hcanceled

/-- One step keeps the cancellation. -/
theorem CancellationHolds.step {c c' : BuildConfig}
    {l : Label AssemblyTask (Signal AssemblyEvent)} (h : CancellationHolds id c)
    (hl : requestsWithoutRebuild id l = true) (hstep : Step (AssemblyTask.step r) c l c') :
    CancellationHolds id c' := by
  cases hstep with
  | call t =>
      refine ⟨h.canceled, ?_⟩
      intro u hu
      rcases List.mem_cons.mp hu with rfl | hu
      · have hrequest := Bool.and_eq_true_iff.mp hl
        have hnothing := holdsNothing_of_tag_none (tag_of_isRequest hrequest.1)
        refine ⟨?_, fun hid => ?_⟩
        · rw [heldPut_of_holdsNothing hnothing]
          exact Option.not_mem_none id
        · exact bne_iff_ne.mp hrequest.2 hid
      · exact h.unheld u hu
  | act hpool hact =>
      rename_i t x s' ts others
      have hof : ∀ u, u = t ∨ u ∈ others → u ∈ c.tasks := fun u hu =>
        hpool.mem_iff.mpr (List.mem_cons.mpr hu)
      have ht := h.unheld t (hof t (.inl rfl))
      refine ⟨stored_canceled_of_step hact h.canceled ht.1 ht.2, ?_⟩
      intro u hu
      rcases List.mem_append.mp hu with hu | hu
      · constructor
        · intro hid
          rcases heldFrom_step hact u hu id hid with hheld | hrunning
          · exact ht.1 hheld
          · rw [not_running_of_canceled h.canceled] at hrunning
            cases hrunning
        · intro hid
          exact ht.2 (rebuilding_of_step hact u hu id hid)
      · exact h.unheld u (hof u (.inr hu))

/-! ## Cancellation -/

/-- A cancellation whose put finds no other held put of the assembly holds. -/
theorem cancellationHolds_of_cancelPut {c c' : BuildConfig} {a : Assembly}
    {caller : Option Assembly} (hunheld : Unheld a.id c)
    (hstep : Step (AssemblyTask.step r) c (.act (.cancelPut a caller) x) c') :
    CancellationHolds a.id c' := by
  obtain ⟨ts, others, hpool, hact, htasks⟩ := hstep.act_inv
  have ht := hunheld _ (hpool.mem_iff.mpr List.mem_cons_self)
  have hstored : c'.shared.store.assemblies =
      c.shared.store.assemblies.put (canceledAssembly a x.clock) :=
    assemblies_of_step hact
  refine ⟨⟨canceledAssembly a x.clock, ?_, rfl⟩, ?_⟩
  · unfold PanelStore.tryGetAssembly
    rw [hstored]
    exact Space.get_put_self _ (canceledAssembly a x.clock)
  intro u hu
  rw [htasks] at hu
  rcases List.mem_append.mp hu with hu | hu
  · have hnone : u.heldPut = none := by
      cases x with
      | go now =>
          have hts : (cancelPutStep a caller now c.shared).2 = ts :=
            congrArg Prod.snd (Option.some.inj hact)
          exact heldPut_of_holdsNothing (holdsNothing_cancelPutStep u (hts ▸ hu))
      | _ => cases hact
    refine ⟨?_, fun hid => ht.2 (rebuilding_of_step hact u hu a.id hid)⟩
    rw [hnone]
    exact Option.not_mem_none a.id
  · exact hunheld u (hpool.mem_iff.mpr (List.mem_cons_of_mem _ hu))

/-- Cancellation is sticky where no handler is past its guard: from any
configuration in which no task holds a put of the assembly, the cancellation's
put is kept by every later run without a rebuild, over event streams of any
length and any interleaving. -/
theorem cancellation_sticky {c c' : BuildConfig} {a : Assembly}
    {caller : Option Assembly} (hunheld : Unheld a.id c)
    (hstep : Step (AssemblyTask.step r) c (.act (.cancelPut a caller) x) c') :
    StaysCanceled r a.id c' := by
  have hholds : CancellationHolds a.id c' := cancellationHolds_of_cancelPut hunheld hstep
  intro ls d hrun
  refine CancellationHolds.canceled (hrun.invariant hholds ?_)
  intro e l e' he hl hestep
  exact he.step hl hestep

open SampleBuild

/-- An assembly on its resource whose stream waits for the next event. -/
private def waitingConfig : BuildConfig where
  shared := { store := PanelStore.empty.putAssembly assembly }
  tasks := [.cancelPut assembly none, .stream ⟨assembly, 0⟩ .idle]

/-- A cancellation between two events of the stream stays. -/
theorem cancellation_sticky_waiting :
    ∃ c', Step (AssemblyTask.step rendering) waitingConfig
        (.act (.cancelPut assembly none) (.go 9)) c' ∧
      StaysCanceled rendering 1 c' := by
  have hunheld : Unheld assembly.id waitingConfig := by
    intro u hu
    rcases List.mem_cons.mp hu with rfl | hu
    · exact ⟨Option.not_mem_none _, Option.not_mem_none _⟩
    · rw [List.mem_singleton.mp hu]
      exact ⟨Option.not_mem_none _, Option.not_mem_none _⟩
  have hstep : ∃ c', Step (AssemblyTask.step rendering) waitingConfig
      (.act (.cancelPut assembly none) (.go 9)) c' :=
    ⟨_, .act (List.Perm.refl waitingConfig.tasks) rfl⟩
  obtain ⟨c', hstep⟩ := hstep
  exact ⟨c', hstep, cancellation_sticky hunheld hstep⟩

/-! ## A handler past its guard -/

/-- Every stored cancellation stays, whatever the stream's handlers are doing when
it is stored. -/
def CancellationIsSticky (r : Rendering) : Prop :=
  ∀ store ls c a caller x c',
    Run (AssemblyTask.step r) (fun _ l => requestsOnly l = true) (initialConfig store) ls c →
    (∀ u ∈ c.tasks, a.id ∉ u.rebuilding) →
    Step (AssemblyTask.step r) c (.act (.cancelPut a caller) x) c' →
    StaysCanceled r a.id c'

/-- The last event of the stream passes its guard, then a user cancels up to the put. -/
private def racingMoves : List (Move AssemblyTask (Signal AssemblyEvent)) :=
  moves ++ [.act 0 (.next lastEvent), .act 0 (.go 9), .act 0 (.go 9), .act 0 (.go 9),
    .call (.cancelRead 1 none), .act 0 (.go 9)]

private def isCancelPut : Label AssemblyTask (Signal AssemblyEvent) → Bool
  | .act (.cancelPut a _) _ => a.id == 1
  | _ => false

private def storedBuilding (c : BuildConfig) : Bool :=
  (c.shared.store.tryGetAssembly 1).map Assembly.state == some .building

/-- The step is the cancellation's put, and the event's put follows it. -/
private def overwritten (l : Label AssemblyTask (Signal AssemblyEvent)) (c : BuildConfig) :
    Bool :=
  isCancelPut l && (c.exec (AssemblyTask.step rendering)
    (fun _ => requestsWithoutRebuild 1) [.act 1 (.go 9)]).any fun e => storedBuilding e.2

private def overwrites (c : BuildConfig) : Bool :=
  c.tasks.all (fun u => u.rebuilding.isNone) &&
    (c.move (AssemblyTask.step rendering) (.act 0 (.go 9))).any fun e => overwritten e.1 e.2

private theorem isCancelPut_inv {l : Label AssemblyTask (Signal AssemblyEvent)}
    (h : isCancelPut l = true) :
    ∃ a caller x, l = .act (.cancelPut a caller) x ∧ a.id = 1 := by
  revert h
  fun_cases isCancelPut l <;> intro h
  · rename_i a caller x
    exact ⟨a, caller, x, rfl, by simpa using h⟩
  · cases h

private theorem not_storedCanceled_of_building {c : BuildConfig}
    (h : storedBuilding c = true) : ¬ c.shared.StoredCanceled 1 := by
  rintro ⟨a, hget, hcanceled⟩
  unfold storedBuilding at h
  rw [hget] at h
  simp_all [Assembly.isCanceled]

private theorem not_staysCanceled_of_overwritten {c : BuildConfig}
    {l : Label AssemblyTask (Signal AssemblyEvent)} (h : overwritten l c = true) :
    ¬ StaysCanceled rendering 1 c := by
  intro hstays
  unfold overwritten at h
  rw [Bool.and_eq_true] at h
  obtain ⟨ls, d, hrun, hd⟩ := exists_run_of_exec _ _ _ _ (fun _ => storedBuilding) h.2
  exact not_storedCanceled_of_building hd (hstays ls d hrun)

private theorem exists_overwrites :
    ∃ ls c, Run (AssemblyTask.step rendering) (fun _ l => requestsOnly l = true)
      (initialConfig .empty) ls c ∧ overwrites c = true :=
  exists_run_of_exec _ _ _ racingMoves (fun _ => overwrites) (by decide)

/-- Without the condition the cancellation is lost: an event that passed its guard
before the cancellation's put stores the assembly as building again. -/
theorem cancellation_overwritten : ¬ ∀ r, CancellationIsSticky r := by
  intro h
  obtain ⟨ls, c, hrun, hc⟩ := exists_overwrites
  unfold overwrites at hc
  rw [Bool.and_eq_true] at hc
  obtain ⟨l, c', hstep, hc'⟩ := exists_step_of_move _ overwritten hc.2
  have hl := hc'
  unfold overwritten at hl
  obtain ⟨a, caller, x, rfl, ha⟩ := isCancelPut_inv (Bool.and_eq_true_iff.mp hl).1
  have hnone : ∀ u ∈ c.tasks, a.id ∉ u.rebuilding := by
    intro u hu hid
    have hnot := List.all_eq_true.mp hc.1 u hu
    rw [Option.mem_def.mp hid] at hnot
    cases hnot
  have hstays := h rendering _ ls c a caller x c' hrun hnone hstep
  rw [ha] at hstays
  exact not_staysCanceled_of_overwritten hc' hstays

end ArtPlatform
