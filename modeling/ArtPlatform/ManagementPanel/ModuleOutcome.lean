import ArtPlatform.ManagementPanel.ModuleManagement

/-!
# The outcome of an operation

What is stored of a module follows the stream of the agent that carries out an
operation on it: up to the end of the stream it is the last event, and then the last
event in the state of the stream's end.  This is for the runs in which no other task
changes the module.

Main results:

- Theorem `follows_workStep`: one action of the operation.
- Theorem `operationStarted_of_putRequest`: a request that stores the started state
  begins an operation.
- Theorem `module_follows_stream`: the stored module, in every run.
-/

namespace ArtPlatform

open Interleaving

/-! ## The agent's stream -/

inductive StreamEnding
  | completed
  | failed
deriving DecidableEq, Repr

/-- The state that the handler of a stream's end puts. -/
def StreamEnding.state (operation : ModuleOperation) : StreamEnding → ModuleState
  | .completed => operation.finalState
  | .failed => .invalid

/-- What an agent has sent so far: the last event, or the snapshot of the request
before there is one, and how the stream has ended. -/
structure AgentStream where
  last : Module
  ending : Option StreamEnding := none

/-- What a signal to an operation adds to its agent's stream. -/
def AgentStream.receive {w : ModuleWork} (stream : AgentStream) :
    WorkPosition w → Signal Module → AgentStream
  | .idle, .next m => { stream with last := m }
  | .idle, .complete => { stream with ending := some .completed }
  | .idle, .error _ => { stream with ending := some .failed }
  | _, _ => stream

/-- What a step of a run adds to the stream of the operation. -/
def AgentStream.after (w : ModuleWork) (stream : AgentStream) :
    Label ModuleTask (Signal Module) → AgentStream
  | .act (.work w' position) x =>
      if w'.number = w.number then stream.receive position x else stream
  | _ => stream

/-- The stream of the operation's agent in a run. -/
def agentStream (w : ModuleWork) (ls : List (Label ModuleTask (Signal Module))) :
    AgentStream :=
  ls.foldl (AgentStream.after w) { last := w.inProgress }

theorem agentStream_append (w : ModuleWork) (ls : List (Label ModuleTask (Signal Module)))
    (l : Label ModuleTask (Signal Module)) :
    agentStream w (ls ++ [l]) = (agentStream w ls).after w l :=
  List.foldl_concat _ _ _ _

/-! ## What is stored at each position -/

variable {toLowerCase : String → String} {w : ModuleWork} {x : Signal Module}
  {s s' : ModulePanel} {ts : List ModuleTask} {stream : AgentStream} {row : Option Module}

/-- A module as the operation's events are. -/
def ModuleWork.Emits (w : ModuleWork) (m : Module) : Prop :=
  m.id = w.module.id ∧ m.state = w.operation.inProgressState

/-- What is stored, while the operation is at a position, after what its agent has
sent. -/
def Follows (w : ModuleWork) (stream : AgentStream) (row : Option Module) :
    WorkPosition w → Prop
  | .manager | .project | .prepare | .connect | .announceRead | .announcePut =>
      stream = { last := w.inProgress } ∧ row.isSome = true
  | .request | .subscribe | .idle => stream.ending = none ∧ row = some stream.last
  | .eventRead event | .eventPut event =>
      stream.ending = none ∧ stream.last = event.val ∧ ∃ m, row = some m ∧ w.Emits m
  | .completeRead => stream.ending = some .completed ∧ row = some stream.last
  | .completeTryRead m | .completePut m =>
      stream.ending = some .completed ∧ row.isSome = true ∧
        ∃ now, m = settledModule stream.last w.operation.finalState now
  | .errorRead => stream.ending = some .failed ∧ row = some stream.last
  | .caughtRead => stream.ending = none ∧ row.isSome = true
  | .errorGet =>
      stream.ending = none ∧ row.isSome = true ∨
        stream.ending = some .failed ∧ row = some stream.last
  | .errorTryRead m | .errorPut m =>
      stream.ending = none ∨ stream.ending = some .failed ∧ row.isSome = true ∧
        ∃ now, m = settledModule stream.last .invalid now

/-- When the operation is through: what is stored after a stream that has ended. -/
def Settled (w : ModuleWork) (stream : AgentStream) (row : Option Module) : Prop :=
  ∀ ending, stream.ending = some ending →
    ∃ now, row = some (settledModule stream.last (ending.state w.operation) now)

theorem settled_of_open (h : stream.ending = none) : Settled w stream row := by
  intro ending hending
  rw [h] at hending
  cases hending

theorem tryGetModule_putModule {m : Module} {id : Nat} (h : m.id = id) :
    (s.putModule m).store.tryGetModule id = some m := by
  subst h
  exact s.store.modules.get_put_self m

/-- The handlers find what the operation's events have left. -/
theorem moduleInState_of_emits {m : Module}
    (hrow : s.store.tryGetModule w.module.id = some m) (hm : w.Emits m) :
    s.moduleInState w.module.id w.operation.inProgressState = some m := by
  unfold ModulePanel.moduleInState
  rw [hrow]
  simp [hm.2]

theorem eq_of_moduleInState {m m' : Module}
    (hrow : s.store.tryGetModule w.module.id = some m) (hm : w.Emits m)
    (h : s.moduleInState w.module.id w.operation.inProgressState = some m') : m' = m := by
  rw [moduleInState_of_emits hrow hm] at h
  exact (Option.some.inj h).symm

theorem getModule_of_row {m : Module} (hrow : s.store.tryGetModule w.module.id = some m) :
    s.store.getModule w.module.id = .ok m :=
  PanelStore.getModule_eq_ok.mpr hrow

/-- One action of the operation: it goes on at a position that follows the stream, or
it is through. -/
theorem follows_workStep {p : WorkPosition w} (hlast : w.Emits stream.last)
    (hp : Follows w stream (s.store.tryGetModule w.module.id) p)
    (h : workStep w p x s = some (s', ts)) :
    w.Emits (stream.receive p x).last ∧
      ((∃ q : WorkPosition w, ts = [.work w q] ∧
          Follows w (stream.receive p x) (s'.store.tryGetModule w.module.id) q) ∨
        ts = [] ∧ Settled w (stream.receive p x) (s'.store.tryGetModule w.module.id)) := by
  revert h
  fun_cases workStep w p x s <;> intro h <;>
    simp only [Option.some.injEq, Prod.mk.injEq, reduceCtorEq] at h <;>
    rcases h with ⟨rfl, rfl⟩
  -- The body, up to the put of the snapshot.
  case case2 | case3 =>
      exact ⟨hlast, .inr ⟨rfl, settled_of_open (congrArg AgentStream.ending hp.1)⟩⟩
  case case6 | case8 =>
      exact ⟨hlast, .inl ⟨_, rfl, congrArg AgentStream.ending hp.1, hp.2⟩⟩
  case case9 hnone =>
      have hsome := hp.2
      rw [hnone] at hsome
      cases hsome
  case case11 =>
      refine ⟨hlast, .inl ⟨_, rfl, congrArg AgentStream.ending hp.1, ?_⟩⟩
      have hid : w.inProgress.id = w.module.id := rfl
      rw [tryGetModule_putModule hid]
      exact congrArg some (congrArg AgentStream.last hp.1).symm
  case case13 =>
      refine ⟨hlast, .inl ⟨_, rfl, hp.1, ?_⟩⟩
      rw [hp.2]
      rfl
  -- The stream.
  case case15 m hm =>
      exact ⟨hm, .inl ⟨_, rfl, hp.1, rfl, _, hp.2, hlast⟩⟩
  case case17 | case18 =>
      exact ⟨hlast, .inl ⟨_, rfl, rfl, hp.2⟩⟩
  case case19 event hnone =>
      obtain ⟨-, -, m, hrow, hm⟩ := hp
      rw [moduleInState_of_emits hrow hm] at hnone
      cases hnone
  case case21 event _ =>
      refine ⟨hlast, .inl ⟨_, rfl, hp.1, ?_⟩⟩
      rw [tryGetModule_putModule event.2.1]
      exact congrArg some hp.2.1.symm
  -- The handler of the completion.
  case case22 hnone =>
      rw [moduleInState_of_emits hp.2 hlast] at hnone
      cases hnone
  case case23 m hm =>
      obtain rfl := eq_of_moduleInState hp.2 hlast hm
      refine ⟨hlast, .inl ⟨_, rfl, hp.1, ?_, _, rfl⟩⟩
      rw [hp.2]
      rfl
  case case24 m hnone =>
      obtain ⟨-, hsome, now, rfl⟩ := hp
      have hid : (settledModule stream.last w.operation.finalState now).id = w.module.id :=
        hlast.1
      rw [hid] at hnone
      rw [hnone] at hsome
      cases hsome
  case case26 m _ =>
      obtain ⟨hending, -, now, rfl⟩ := hp
      refine ⟨hlast, .inr ⟨rfl, ?_⟩⟩
      intro ending hend
      obtain rfl := Option.some.inj (hending.symm.trans hend)
      exact ⟨now, tryGetModule_putModule hlast.1⟩
  -- The handlers of errors.
  case case27 hnone =>
      rw [moduleInState_of_emits hp.2 hlast] at hnone
      cases hnone
  case case28 => exact ⟨hlast, .inl ⟨_, rfl, .inr hp⟩⟩
  case case29 => exact ⟨hlast, .inr ⟨rfl, settled_of_open hp.1⟩⟩
  case case30 => exact ⟨hlast, .inl ⟨_, rfl, .inl hp⟩⟩
  case case31 herror =>
      rcases hp with hopen | ⟨-, hrow⟩
      · exact ⟨hlast, .inr ⟨rfl, settled_of_open hopen.1⟩⟩
      · rw [getModule_of_row hrow] at herror
        cases herror
  case case32 m hok =>
      refine ⟨hlast, .inl ⟨_, rfl, ?_⟩⟩
      rcases hp with hopen | ⟨hfailed, hrow⟩
      · exact .inl hopen.1
      · rw [getModule_of_row hrow] at hok
        obtain rfl := Except.ok.inj hok
        refine .inr ⟨hfailed, ?_, _, rfl⟩
        rw [hrow]
        rfl
  case case33 m hnone =>
      rcases hp with hopen | ⟨-, hsome, now, rfl⟩
      · exact ⟨hlast, .inr ⟨rfl, settled_of_open hopen⟩⟩
      · have hid : (settledModule stream.last .invalid now).id = w.module.id := hlast.1
        rw [hid] at hnone
        rw [hnone] at hsome
        cases hsome
  case case35 m _ =>
      refine ⟨hlast, .inr ⟨rfl, ?_⟩⟩
      rcases hp with hopen | ⟨hfailed, -, now, rfl⟩
      · exact settled_of_open hopen
      · intro ending hend
        obtain rfl := Option.some.inj (hfailed.symm.trans hend)
        exact ⟨now, tryGetModule_putModule hlast.1⟩
  -- Everywhere else the operation goes on with what it had.
  all_goals exact ⟨hlast, .inl ⟨_, rfl, hp⟩⟩

/-! ## The operation in a run -/

variable {c c' : ModuleConfig} {l : Label ModuleTask (Signal Module)}
  {ls : List (Label ModuleTask (Signal Module))}

/-- The task carries out the operation of that number. -/
def ModuleTask.worksFor (w : ModuleWork) : ModuleTask → Bool
  | .work w' _ => w'.number = w.number
  | _ => false

/-- The operation has stored its started state, and nothing of it has run yet. -/
structure OperationStarted (w : ModuleWork) (c : ModuleConfig) : Prop where
  task : c.tasks.filter (·.worksFor w) = [.work w .manager]
  number : w.number < c.shared.started
  stored : (c.shared.store.tryGetModule w.module.id).isSome = true

/-- Only requests are called, and a task that does not carry out the operation leaves
its module as it is. -/
def NotIntervened (toLowerCase : String → String) (w : ModuleWork) (c : ModuleConfig) :
    Label ModuleTask (Signal Module) → Prop
  | .call t => t.isRequest = true
  | .act t x => t.worksFor w = true ∨
      ∀ s' ts, t.step toLowerCase x c.shared = some (s', ts) →
        s'.store.tryGetModule w.module.id = c.shared.store.tryGetModule w.module.id

/-- The operation is at a position that follows its agent's stream, or it is through. -/
structure FollowsStream (w : ModuleWork) (stream : AgentStream) (c : ModuleConfig) : Prop where
  number : w.number < c.shared.started
  last : w.Emits stream.last
  task :
    (∃ p : WorkPosition w, c.tasks.filter (·.worksFor w) = [.work w p] ∧
      Follows w stream (c.shared.store.tryGetModule w.module.id) p) ∨
    c.tasks.filter (·.worksFor w) = [] ∧
      Settled w stream (c.shared.store.tryGetModule w.module.id)

/-- An operation is continued by itself. -/
theorem work_of_workStep {p : WorkPosition w} (h : workStep w p x s = some (s', ts)) :
    s'.started = s.started ∧ ∀ u ∈ ts, ∃ q : WorkPosition w, u = .work w q := by
  revert h
  fun_cases workStep w p x s <;> intro h <;>
    simp only [Option.some.injEq, Prod.mk.injEq, reduceCtorEq] at h <;>
    rcases h with ⟨rfl, rfl⟩ <;> refine ⟨rfl, ?_⟩ <;> intro u hu
  all_goals first
    | (cases hu; done)
    | exact ⟨_, List.mem_singleton.mp hu⟩

/-- What works for other operations, or for none, starts no task of this one. -/
theorem not_worksFor_step {t : ModuleTask} (ht : ¬ t.worksFor w = true)
    (hnumber : w.number < s.started) (h : t.step toLowerCase x s = some (s', ts)) :
    s.started ≤ s'.started ∧ ∀ u ∈ ts, ¬ u.worksFor w = true := by
  revert h
  fun_cases ModuleTask.step toLowerCase t x s <;> intro h
  case case11 w' p =>
      obtain ⟨hstarted, hts⟩ := work_of_workStep h
      refine ⟨Nat.le_of_eq hstarted.symm, ?_⟩
      intro u hu
      obtain ⟨q, rfl⟩ := hts u hu
      exact ht
  all_goals
    simp only [Option.some.injEq, Prod.mk.injEq, reduceCtorEq] at h
  all_goals
    rcases h with ⟨rfl, rfl⟩
  case case10 operation m _ =>
      refine ⟨Nat.le_succ _, ?_⟩
      intro u hu
      obtain rfl := List.mem_singleton.mp hu
      have hne : s.started ≠ w.number := by omega
      simpa [ModuleTask.worksFor] using hne
  all_goals
    refine ⟨Nat.le_refl _, ?_⟩
    simp [ModuleTask.worksFor]

theorem after_of_not_worksFor {t : ModuleTask} (ht : ¬ t.worksFor w = true) :
    stream.after w (.act t x) = stream := by
  cases t with
  | work w' p =>
      have hne : ¬ w'.number = w.number := by simpa [ModuleTask.worksFor] using ht
      simp [AgentStream.after, hne]
  | _ => rfl

/-- One step of a run keeps the module in line with the stream. -/
theorem FollowsStream.step (h : FollowsStream w stream c)
    (hok : NotIntervened toLowerCase w c l)
    (hstep : Step (ModuleTask.step toLowerCase) c l c') :
    FollowsStream w (stream.after w l) c' := by
  cases l with
  | call t =>
      cases hstep
      have ht : ¬ t.worksFor w = true := by
        cases t with
        | work w' p => cases hok
        | _ => simp [ModuleTask.worksFor]
      refine ⟨h.number, h.last, ?_⟩
      rw [List.filter_cons_of_neg ht]
      exact h.task
  | act t x =>
      by_cases ht : t.worksFor w = true
      · rcases h.task with ⟨p, hone, hp⟩ | ⟨hnone, -⟩
        · obtain ⟨rfl, ts, hact, htasks⟩ := hstep.filter_of_own hone ht
          obtain ⟨hstarted, hts⟩ := work_of_workStep hact
          have hafter : stream.after w (.act (.work w p) x) = stream.receive p x := if_pos rfl
          have hall : ts.filter (·.worksFor w) = ts := by
            refine List.filter_eq_self.mpr fun u hu => ?_
            obtain ⟨q, rfl⟩ := hts u hu
            simp [ModuleTask.worksFor]
          obtain ⟨hlast, hnext⟩ := follows_workStep h.last hp hact
          rw [hafter]
          refine ⟨hstarted ▸ h.number, hlast, ?_⟩
          rw [htasks, hall]
          exact hnext
        · have hmem := List.mem_filter.mpr ⟨hstep.mem_tasks, ht⟩
          rw [hnone] at hmem
          cases hmem
      · obtain ⟨ts, hact, htasks⟩ := hstep.filter_of_other ht
        obtain ⟨hstarted, hts⟩ := not_worksFor_step ht h.number hact
        have hrow := (hok.resolve_left ht) _ _ hact
        have hnone : ts.filter (·.worksFor w) = [] := by
          refine List.filter_eq_nil_iff.mpr fun u hu => ?_
          exact hts u hu
        rw [hnone, List.nil_append] at htasks
        rw [after_of_not_worksFor ht]
        refine ⟨Nat.lt_of_lt_of_le h.number hstarted, h.last, ?_⟩
        rw [hrow]
        rcases h.task with ⟨p, hone, hp⟩ | ⟨hempty, hsettled⟩
        · refine .inl ⟨p, ?_, hp⟩
          rw [hone] at htasks
          exact List.perm_singleton.mp htasks
        · refine .inr ⟨?_, hsettled⟩
          rw [hempty] at htasks
          exact List.perm_nil.mp htasks

theorem followsStream_of_run (hstart : OperationStarted w c)
    (hrun : Run (ModuleTask.step toLowerCase) (NotIntervened toLowerCase w) c ls c') :
    FollowsStream w (agentStream w ls) c' := by
  induction hrun with
  | refl =>
      exact ⟨hstart.number, ⟨rfl, rfl⟩, .inl ⟨_, hstart.task, rfl, hstart.stored⟩⟩
  | tail _ hstep hok ih =>
      rw [agentStream_append]
      exact ih.step hok hstep

/-- A request that stores the started state begins an operation, whose number no task
has had before. -/
theorem operationStarted_of_putRequest {operation : ModuleOperation} {m : Module}
    (hnumbers : ∀ w p, .work w p ∈ c.tasks → w.number < c.shared.started)
    (hstep : Step (ModuleTask.step toLowerCase) c (.act (.putRequest operation m) x) c') :
    OperationStarted
      ⟨operation, { m with state := operation.startedState }, c.shared.started⟩ c' := by
  obtain ⟨ts, others, hpool, hact, htasks⟩ := hstep.act_inv
  cases x with
  | go now =>
      obtain ⟨hshared, rfl⟩ := Prod.mk.inj (Option.some.inj hact)
      have hothers : others.filter (·.worksFor
          ⟨operation, { m with state := operation.startedState }, c.shared.started⟩) = [] := by
        refine List.filter_eq_nil_iff.mpr fun u hu => ?_
        cases u with
        | work w' p =>
            have hmem := hpool.mem_iff.mpr (List.mem_cons_of_mem _ hu)
            have hnumber := hnumbers w' p hmem
            have hne : ¬ w'.number = c.shared.started := by omega
            simpa [ModuleTask.worksFor] using hne
        | _ => simp [ModuleTask.worksFor]
      refine ⟨?_, ?_, ?_⟩
      · rw [htasks, List.filter_append, hothers, List.append_nil]
        simp [ModuleTask.worksFor]
      · rw [← hshared]
        exact Nat.lt_succ_self _
      · rw [← hshared]
        exact congrArg Option.isSome (tryGetModule_putModule (s := c.shared)
          (m := { m with state := operation.startedState }) rfl)
  | _ => cases hact

/-! ## The handler of the stream's end -/

/-- How many actions a handler has before it. -/
def WorkPosition.remaining {w : ModuleWork} : WorkPosition w → Nat
  | .errorRead => 4
  | .completeRead | .errorGet => 3
  | .completeTryRead _ | .errorTryRead _ => 2
  | .completePut _ | .errorPut _ => 1
  | _ => 0

/-- Once the stream has ended, the operation is in a handler, which proceeds. -/
theorem handler_proceeds {p : WorkPosition w} {ending : StreamEnding}
    (hending : stream.ending = some ending) (hp : Follows w stream row p) (s : ModulePanel) :
    ∃ s' ts, workStep w p (.go 0) s = some (s', ts) ∧
      ∀ q : WorkPosition w, .work w q ∈ ts → q.remaining < p.remaining := by
  have hnotOpen : ¬ stream.ending = none := by
    rw [hending]
    exact Option.some_ne_none ending
  cases p with
  | manager | project | prepare | connect | announceRead | announcePut =>
      exact absurd (congrArg AgentStream.ending hp.1) hnotOpen
  | request | subscribe | idle | eventRead _ | eventPut _ | caughtRead =>
      exact absurd hp.1 hnotOpen
  | completeRead | completeTryRead _ | errorRead | errorGet | errorTryRead _ =>
      simp only [workStep]
      split
      · exact ⟨_, _, rfl, by simp⟩
      · exact ⟨_, _, rfl, by simp [WorkPosition.remaining]⟩
  | completePut _ | errorPut _ => exact ⟨_, _, rfl, by simp⟩

theorem receive_go (stream : AgentStream) (p : WorkPosition w) (now : Nat) :
    stream.receive p (.go now) = stream := by
  cases p <;> rfl

theorem mem_of_filter {t : ModuleTask} (h : c.tasks.filter (·.worksFor w) = [t]) :
    t ∈ c.tasks ∧ t.worksFor w = true := by
  have hmem : t ∈ c.tasks.filter (·.worksFor w) := by
    rw [h]
    exact List.mem_singleton_self t
  exact List.mem_filter.mp hmem

/-- Once the stream has ended, the operation can go on to its end. -/
theorem exists_run_through {ending : StreamEnding} (hending : stream.ending = some ending)
    (n : Nat) {c : ModuleConfig} (h : FollowsStream w stream c)
    (hn : ∀ p : WorkPosition w, .work w p ∈ c.tasks → p.remaining < n) :
    ∃ ls c', Run (ModuleTask.step toLowerCase) (NotIntervened toLowerCase w) c ls c' ∧
      ls.foldl (AgentStream.after w) stream = stream ∧
      ∀ t ∈ c'.tasks, ¬ t.worksFor w = true := by
  induction n generalizing c with
  | zero =>
      rcases h.task with ⟨p, hone, -⟩ | ⟨hnone, -⟩
      · exact absurd (hn p (mem_of_filter hone).1) (Nat.not_lt_zero _)
      · exact ⟨[], c, .refl c, rfl, fun t ht => List.filter_eq_nil_iff.mp hnone t ht⟩
  | succ n ih =>
      rcases h.task with ⟨p, hone, hp⟩ | ⟨hnone, -⟩
      · obtain ⟨s', ts, hact, hless⟩ := handler_proceeds hending hp c.shared
        obtain ⟨before, after, hsplit⟩ := List.append_of_mem (mem_of_filter hone).1
        have hpool : c.tasks.Perm (.work w p :: (before ++ after)) := by
          rw [hsplit]
          exact List.perm_middle
        have hstep : Step (ModuleTask.step toLowerCase) c (.act (.work w p) (.go 0))
            ⟨s', ts ++ (before ++ after)⟩ := .act hpool hact
        have hok : NotIntervened toLowerCase w c (.act (.work w p) (.go 0)) :=
          .inl (by simp [ModuleTask.worksFor])
        have hafter : stream.after w (.act (.work w p) (.go 0)) = stream :=
          (if_pos rfl).trans (receive_go stream p 0)
        have hnext := h.step hok hstep
        rw [hafter] at hnext
        have hothers : ∀ q : WorkPosition w, .work w q ∉ before ++ after := by
          intro q hq
          have hfilter := hpool.filter (·.worksFor w)
          have hin := List.mem_filter.mpr ⟨hq, (by simp [ModuleTask.worksFor] :
            (ModuleTask.work w q).worksFor w = true)⟩
          rw [hone, List.filter_cons_of_pos (by simp [ModuleTask.worksFor])] at hfilter
          have hnil := (List.cons.inj (List.singleton_perm.mp hfilter)).2
          rw [← hnil] at hin
          cases hin
        have hbound : ∀ q : WorkPosition w, .work w q ∈ ts ++ (before ++ after) →
            q.remaining < n := by
          intro q hq
          have hin := (List.mem_append.mp hq).resolve_right (hothers q)
          have hq' := hless q hin
          have hp' := hn p (mem_of_filter hone).1
          omega
        obtain ⟨ls, c', hrun, hsame, hthrough⟩ := ih hnext hbound
        refine ⟨.act (.work w p) (.go 0) :: ls, c', ?_, ?_, hthrough⟩
        · exact (Run.single hstep hok).trans hrun
        · rw [List.foldl_cons, hafter]
          exact hsame
      · exact ⟨[], c, .refl c, rfl, fun t ht => List.filter_eq_nil_iff.mp hnone t ht⟩

/-- The stored module follows the stream of the operation's agent.  In every run in
which no other task changes the module, it is the last event while the stream is open;
after the stream's end the operation can go on to its own end, and wherever it is
through, the module is the last event in the state of the stream's end. -/
theorem module_follows_stream (hstart : OperationStarted w c)
    (hrun : Run (ModuleTask.step toLowerCase) (NotIntervened toLowerCase w) c ls c') :
    (.work w .idle ∈ c'.tasks →
      c'.shared.store.tryGetModule w.module.id = some (agentStream w ls).last) ∧
    (∀ ending, (agentStream w ls).ending = some ending →
      (∃ ls' c'', Run (ModuleTask.step toLowerCase) (NotIntervened toLowerCase w) c' ls' c'' ∧
        agentStream w (ls ++ ls') = agentStream w ls ∧
        ∀ t ∈ c''.tasks, ¬ t.worksFor w = true) ∧
      ((∀ t ∈ c'.tasks, ¬ t.worksFor w = true) →
        ∃ now, c'.shared.store.tryGetModule w.module.id =
          some (settledModule (agentStream w ls).last (ending.state w.operation) now))) := by
  have hfollows := followsStream_of_run hstart hrun
  refine ⟨?_, ?_⟩
  · intro hidle
    have hworks : (ModuleTask.work w .idle).worksFor w = true := by
      simp [ModuleTask.worksFor]
    have hmem : ModuleTask.work w .idle ∈ c'.tasks.filter (·.worksFor w) :=
      List.mem_filter.mpr ⟨hidle, hworks⟩
    rcases hfollows.task with ⟨p, hone, hp⟩ | ⟨hnone, -⟩
    · rw [hone] at hmem
      obtain rfl : WorkPosition.idle = p := by simpa using hmem
      exact hp.2
    · rw [hnone] at hmem
      cases hmem
  · intro ending hending
    refine ⟨?_, ?_⟩
    · obtain ⟨ls', c'', hrun', hsame, hthrough⟩ := exists_run_through hending 5 hfollows
        fun p _ => by cases p <;> simp [WorkPosition.remaining]
      refine ⟨ls', c'', hrun', ?_, hthrough⟩
      unfold agentStream at *
      rw [List.foldl_append]
      exact hsame
    · intro hthrough
      rcases hfollows.task with ⟨p, hone, -⟩ | ⟨-, hsettled⟩
      · obtain ⟨hin, hworks⟩ := mem_of_filter hone
        exact absurd hworks (hthrough _ hin)
      · exact hsettled ending hending

/-! ## A module that is stopped -/

private def stoppingModule : Module :=
  { createModule asciiLowerCase SampleModule.installation 1 0 with state := .stopStarted }

private def stoppingWork : ModuleWork :=
  ⟨.stop, stoppingModule, 0⟩

/-- The stop of a module of a stored project has begun. -/
private def stoppingConfig : ModuleConfig :=
  let store := PanelStore.empty.putProject (SampleProject.projectNamed "shop" 1)
  ⟨{ store := store.putModule stoppingModule, started := 1 }, [.work stoppingWork .manager]⟩

/-- The agent reports the address once and completes. -/
private def stoppingMoves : List (Move ModuleTask (Signal Module)) :=
  List.replicate 8 (.act 0 (.go 0)) ++
    .act 0 (.next { stoppingWork.inProgress with internalIp := some "10.0.0.7" }) ::
    List.replicate 2 (.act 0 (.go 0)) ++
    .act 0 .complete :: List.replicate 3 (.act 0 (.go 60))

private def actsForStopping : Label ModuleTask (Signal Module) → Bool
  | .act t _ => t.worksFor stoppingWork
  | .call _ => false

/-- The module that has been stopped keeps the address that its agent reported. -/
theorem module_follows_stream_stopped :
    ∃ ls c', Run (ModuleTask.step asciiLowerCase)
        (NotIntervened asciiLowerCase stoppingWork) stoppingConfig ls c' ∧
      (agentStream stoppingWork ls).last.internalIp = some "10.0.0.7" ∧
      ∃ now, c'.shared.store.tryGetModule stoppingWork.module.id =
        some (settledModule (agentStream stoppingWork ls).last .stopped now) := by
  obtain ⟨ls, c', hrun, hend⟩ := exists_run_of_exec (ModuleTask.step asciiLowerCase)
    (fun _ => actsForStopping) stoppingConfig stoppingMoves
    (fun ls c' => (agentStream stoppingWork ls).last.internalIp = some "10.0.0.7" &&
      (agentStream stoppingWork ls).ending = some .completed && c'.tasks.isEmpty)
    (by decide)
  have hok : Run (ModuleTask.step asciiLowerCase)
      (NotIntervened asciiLowerCase stoppingWork) stoppingConfig ls c' := by
    refine hrun.mono fun d l hl => ?_
    cases l with
    | act t x => exact .inl hl
    | call t => cases hl
  have hstart : OperationStarted stoppingWork stoppingConfig :=
    ⟨by simp [stoppingConfig, ModuleTask.worksFor], by decide, by decide⟩
  simp only [Bool.and_eq_true, decide_eq_true_eq, List.isEmpty_iff] at hend
  obtain ⟨⟨haddress, hending⟩, hthrough⟩ := hend
  refine ⟨ls, c', hok, haddress, ?_⟩
  refine ((module_follows_stream hstart hok).2 _ hending).2 ?_
  rw [hthrough]
  intro t ht
  cases ht

end ArtPlatform
