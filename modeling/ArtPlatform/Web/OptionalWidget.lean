import ArtPlatform.Web.WidgetCache

/-!
# Optional widgets

A dialog stands in an optional: it is spawned with some properties, drawn and destroyed.
The optional holds a cached conditional, whose factory is composed with every action that
is applied.  A widget that was built already gets the action at once.

Main results:

- Theorem `draw_forget`: what an optional draws is what its conditional draws.
- Theorem `shown_of_stretch`: the widget that is shown was built at the first draw since
  the optional was last drawn destroyed, and has had every action once.
- Theorem `widget_of_persisted`: a persisted widget stays, whatever is spawned.
-/

namespace ArtPlatform.Web

/-! ## The optional -/

/-- How a widget is built: from the properties of the last spawn, or from those that were
given with the factory, and then by the applied actions. -/
structure WidgetFactory (P A : Type) where
  properties : Option (Option P) := none
  actions : List A
deriving DecidableEq, Repr

/-- A widget, with the properties it was built from and the actions it has had. -/
structure BuiltWidget (P A : Type) where
  properties : Option P
  actions : List A
deriving DecidableEq, Repr

/-- What is done to an optional, and its draws. -/
inductive OptionalCall (P A : Type)
  | spawn (properties : Option P)
  | destroy
  | apply (action : A)
  | persist (properties : Option P)
  | draw
deriving DecidableEq, Repr

structure Optional (P A : Type) where
  /-- The action that lets a widget destroy its optional when it closes. -/
  onClose : A
  spawned : Option Bool
  spawnProperties : Option P := none
  factory : WidgetFactory P A
  persisted : Bool := false
  lastCachedValue : Option Bool := none
  widget : Option (BuiltWidget P A) := none
deriving DecidableEq, Repr

namespace Optional

variable {P A : Type}

def new (onClose : A) (spawned : Option Bool) : Optional P A where
  onClose := onClose
  spawned := spawned
  factory := ⟨none, [onClose]⟩

def isSpawned (o : Optional P A) : Bool :=
  o.spawned = some true

/-- The factory calls the actions in the order of their application. -/
def build (o : Optional P A) : BuiltWidget P A :=
  ⟨o.factory.properties.getD o.spawnProperties, o.factory.actions⟩

def createWidget (o : Optional P A) : Optional P A :=
  { o with widget := some o.build }

def getOrCreateWidget (o : Optional P A) : Optional P A :=
  match o.widget with
  | none => o.createWidget
  | some _ => o

/-- An action is composed with the factory, and done to the widget that is there. -/
def apply (o : Optional P A) (action : A) : Optional P A :=
  { o with
    factory := { o.factory with actions := o.factory.actions ++ [action] }
    widget := o.widget.map fun w => { w with actions := w.actions ++ [action] } }

/-- Another factory, without the actions of the one before. -/
def persist (o : Optional P A) (properties : Option P) : Optional P A :=
  apply { o with persisted := true, factory := ⟨some properties, []⟩ } o.onClose

def draw (o : Optional P A) : Optional P A :=
  if !o.isSpawned then { o with lastCachedValue := o.spawned }
  else if o.persisted then o.getOrCreateWidget
  else
    let seen := { o with lastCachedValue := o.spawned }
    if o.lastCachedValue = none then seen.getOrCreateWidget
    else if o.lastCachedValue = o.spawned then seen.getOrCreateWidget
    else seen.createWidget

def call (o : Optional P A) : OptionalCall P A → Optional P A
  | .spawn properties => { o with spawnProperties := properties, spawned := some true }
  | .destroy => { o with spawned := some false }
  | .apply action => o.apply action
  | .persist properties => o.persist properties
  | .draw => o.draw

/-- The optional behind its calls. -/
def behind (o : Optional P A) (calls : List (OptionalCall P A)) : Optional P A :=
  calls.foldl call o

/-- What a draw shows, if not the stub. -/
def shown (o : Optional P A) : Option (BuiltWidget P A) :=
  if o.isSpawned then o.draw.widget else none

/-- The properties of the spawns. -/
def spawns (calls : List (OptionalCall P A)) : List (Option P) :=
  calls.filterMap fun
    | .spawn properties => some properties
    | _ => none

/-- The actions of the calls; a factory that persists lets its widget destroy the optional. -/
def applied (onClose : A) (calls : List (OptionalCall P A)) : List A :=
  calls.filterMap fun
    | .apply action => some action
    | .persist _ => some onClose
    | _ => none

def isPersist : OptionalCall P A → Bool
  | .persist _ => true
  | _ => false

def isDraw : OptionalCall P A → Bool
  | .draw => true
  | _ => false

/-! ## The conditional of an optional -/

/-- A value of the cache function, as a script sees it. -/
def scriptValue : Option Bool → JsValue Bool
  | none => .undefined
  | some b => .value b

/-- The draw of the conditional: its predicate and its cache function read one field. -/
def conditionalDraw (o : Optional P A) : ConditionalDraw Bool :=
  ⟨o.isSpawned, scriptValue o.spawned⟩

/-- The conditional, which does not know what its widget was built from. -/
def forget (o : Optional P A) : Conditional Bool where
  persisted := o.persisted
  cached := true
  hasCacheFunction := true
  lastCachedValue := scriptValue o.lastCachedValue
  widget := o.widget.map fun _ => ⟨true, .value true⟩

theorem scriptValue_inj {a b : Option Bool} : scriptValue a = scriptValue b ↔ a = b := by
  cases a <;> cases b <;> simp [scriptValue]

theorem isNullish_scriptValue (a : Option Bool) : (scriptValue a).isNullish = true ↔ a = none := by
  cases a <;> simp [scriptValue, JsValue.isNullish]

theorem forget_createWidget {o : Optional P A} (h : o.spawned = some true) :
    o.createWidget.forget = (o.forget.createWidget o.conditionalDraw).1 := by
  simp [createWidget, forget, Conditional.createWidget, conditionalDraw, isSpawned, h, scriptValue]

theorem forget_getOrCreateWidget {o : Optional P A} (h : o.spawned = some true) :
    o.getOrCreateWidget.forget = (o.forget.getOrCreateWidget o.conditionalDraw).1 := by
  cases hw : o.widget with
  | none =>
      have hforget : o.forget.widget = none := by simp [forget, hw]
      simp only [getOrCreateWidget, hw, Conditional.getOrCreateWidget, hforget]
      exact forget_createWidget h
  | some b =>
      have hforget : o.forget.widget = some ⟨true, .value true⟩ := by simp [forget, hw]
      simp only [getOrCreateWidget, hw, Conditional.getOrCreateWidget, hforget]

/-- The draw of a spawned optional whose widget is not persisted. -/
theorem draw_of_spawned {o : Optional P A} (hspawned : o.spawned = some true)
    (hpersisted : o.persisted = false) :
    o.draw =
      if o.lastCachedValue = none ∨ o.lastCachedValue = some true then
        { o with lastCachedValue := some true }.getOrCreateWidget
      else { o with lastCachedValue := some true }.createWidget := by
  simp only [draw, isSpawned, hspawned, hpersisted, decide_true, Bool.not_true,
    Bool.false_eq_true, if_false]
  by_cases hnone : o.lastCachedValue = none
  · simp [hnone]
  · by_cases htrue : o.lastCachedValue = some true
    · simp [htrue]
    · simp [hnone, htrue]

theorem forget_draw_of_spawned {o : Optional P A} (hspawned : o.spawned = some true)
    (hpersisted : o.persisted = false) :
    o.forget.draw o.conditionalDraw =
      if o.lastCachedValue = none ∨ o.lastCachedValue = some true then
        ({ o with lastCachedValue := some true } : Optional P A).forget.getOrCreateWidget
          o.conditionalDraw
      else ({ o with lastCachedValue := some true } : Optional P A).forget.createWidget
        o.conditionalDraw := by
  have hpredicate : o.conditionalDraw.predicate = true := by
    simp [conditionalDraw, isSpawned, hspawned]
  have hvalue : o.conditionalDraw.cacheValue = scriptValue (some true) := by
    simp [conditionalDraw, hspawned]
  have hcached : (!o.forget.cached || !o.forget.hasCacheFunction) = false := rfl
  have hlast : o.forget.lastCachedValue = scriptValue o.lastCachedValue := rfl
  have hforget : o.forget.persisted = false := hpersisted
  have hseen : { o.forget with lastCachedValue := scriptValue (some true) } =
      ({ o with lastCachedValue := some true } : Optional P A).forget := rfl
  unfold Conditional.draw
  rw [hcached, hvalue, hlast, hseen]
  simp only [hpredicate, hforget, Bool.not_true, Bool.false_eq_true, if_false,
    isNullish_scriptValue, scriptValue_inj]
  by_cases hnone : o.lastCachedValue = none
  · rw [if_pos hnone, if_pos (.inl hnone)]
  · rw [if_neg hnone]
    by_cases htrue : o.lastCachedValue = some true
    · rw [if_pos htrue, if_pos (.inr htrue)]
    · rw [if_neg htrue, if_neg (not_or.mpr ⟨hnone, htrue⟩)]

/-- An optional draws what its conditional draws. -/
theorem draw_forget (o : Optional P A) :
    o.draw.forget = (o.forget.draw o.conditionalDraw).1 := by
  by_cases hspawned : o.spawned = some true
  · cases hpersisted : o.persisted with
    | true =>
        have hforget : o.forget.persisted = true := hpersisted
        have hdraw : o.draw = o.getOrCreateWidget := by
          simp [draw, isSpawned, hspawned, hpersisted]
        rw [hdraw, forget_getOrCreateWidget hspawned]
        simp [Conditional.draw, hforget, conditionalDraw, isSpawned, hspawned]
    | false =>
        rw [draw_of_spawned hspawned hpersisted, forget_draw_of_spawned hspawned hpersisted]
        split
        · exact forget_getOrCreateWidget (o := { o with lastCachedValue := some true }) hspawned
        · exact forget_createWidget (o := { o with lastCachedValue := some true }) hspawned
  · have hhidden : o.isSpawned = false := by simp [isSpawned, hspawned]
    have hpredicate : o.conditionalDraw.predicate = false := hhidden
    unfold draw Conditional.draw
    simp only [hhidden, hpredicate, Bool.not_false, if_true]
    rfl

/-! ## The actions of a widget -/

theorem behind_append (o : Optional P A) (calls : List (OptionalCall P A))
    (c : OptionalCall P A) : o.behind (calls ++ [c]) = (o.behind calls).call c := by
  simp [behind]

theorem behind_append_list (o : Optional P A) (calls later : List (OptionalCall P A)) :
    o.behind (calls ++ later) = (o.behind calls).behind later := by
  simp [behind]

/-- The widget is one that was there, or is built now. -/
theorem draw_cases (o : Optional P A) :
    ∃ last, o.draw = { o with lastCachedValue := last } ∨
      o.isSpawned = true ∧
        o.draw = { o with lastCachedValue := last, widget := some o.build } := by
  by_cases hspawned : o.spawned = some true
  · have hshown : o.isSpawned = true := by simp [isSpawned, hspawned]
    have hget : ∀ last, { o with lastCachedValue := last }.getOrCreateWidget =
          { o with lastCachedValue := last } ∨
        { o with lastCachedValue := last }.getOrCreateWidget =
          { o with lastCachedValue := last, widget := some o.build } := by
      intro last
      unfold getOrCreateWidget
      split
      · exact .inr rfl
      · exact .inl rfl
    by_cases hpersisted : o.persisted = true
    · have hdraw : o.draw = o.getOrCreateWidget := by
        simp [draw, isSpawned, hspawned, hpersisted]
      rw [hdraw]
      exact ⟨o.lastCachedValue, (hget o.lastCachedValue).imp id fun h => ⟨hshown, h⟩⟩
    · rw [draw_of_spawned hspawned (Bool.eq_false_iff.mpr hpersisted)]
      refine ⟨some true, ?_⟩
      split
      · exact (hget (some true)).imp id fun h => ⟨hshown, h⟩
      · exact .inr ⟨hshown, rfl⟩
  · have hhidden : o.isSpawned = false := by simp [isSpawned, hspawned]
    refine ⟨o.spawned, .inl ?_⟩
    simp [draw, hhidden]

/-- Whatever was built, it has had the actions of its factory. -/
structure Complete (onClose : A) (actions : List A) (o : Optional P A) : Prop where
  close : o.onClose = onClose
  notPersisted : o.persisted = false
  factory : o.factory = ⟨none, actions⟩
  widget : ∀ w, o.widget = some w → w.actions = actions

theorem Complete.call {o : Optional P A} {onClose : A} {actions : List A}
    (h : Complete onClose actions o) {c : OptionalCall P A} (hc : isPersist c = false) :
    Complete onClose (actions ++ applied onClose [c]) (o.call c) := by
  cases c with
  | spawn properties | destroy =>
      simp only [applied, List.filterMap_cons_none, List.filterMap_nil, List.append_nil]
      exact ⟨h.close, h.notPersisted, h.factory, h.widget⟩
  | apply action =>
      refine ⟨h.close, h.notPersisted, ?_, ?_⟩
      · simp [Optional.call, apply, h.factory, applied]
      · intro w hw
        simp only [Optional.call, apply, Option.map_eq_some_iff] at hw
        obtain ⟨before, hbefore, rfl⟩ := hw
        simp [h.widget before hbefore, applied]
  | persist properties => cases hc
  | draw =>
      simp only [applied, List.filterMap_cons_none, List.filterMap_nil, List.append_nil]
      obtain ⟨last, hdraw | ⟨-, hdraw⟩⟩ := o.draw_cases
      · simp only [Optional.call, hdraw]
        exact ⟨h.close, h.notPersisted, h.factory, h.widget⟩
      · simp only [Optional.call, hdraw]
        refine ⟨h.close, h.notPersisted, h.factory, ?_⟩
        intro w hw
        cases hw
        simp [build, h.factory]

theorem complete_behind (onClose : A) (spawned : Option Bool) {calls : List (OptionalCall P A)}
    (hcalls : ∀ c ∈ calls, isPersist c = false) :
    Complete onClose (onClose :: applied onClose calls) ((new onClose spawned).behind calls) := by
  induction calls using List.reverseRecOn with
  | nil => exact ⟨rfl, rfl, rfl, fun w hw => by cases hw⟩
  | append_singleton calls c ih =>
      have hbefore := ih fun d hd => hcalls d (List.mem_append_left _ hd)
      rw [behind_append, applied, List.filterMap_append, ← List.cons_append]
      exact hbefore.call (hcalls c (by simp))

/-! ## The properties of a widget -/

/-- The next draw of the spawned optional builds a widget. -/
structure Renewed (o : Optional P A) : Prop where
  last : o.lastCachedValue ≠ some true
  empty : o.lastCachedValue = none → o.widget = none

/-- The next draw of the spawned optional shows a widget of these properties. -/
structure Showing (properties : Option P) (o : Optional P A) : Prop where
  last : o.lastCachedValue = some true
  widget : o.widget.map BuiltWidget.properties = some properties

/-- Nothing is built before the first spawn. -/
theorem widget_of_never_spawned (onClose : A) (spawned : Option Bool)
    (calls : List (OptionalCall P A)) :
    ((new onClose spawned).behind calls).spawned = none →
      ((new onClose spawned).behind calls).widget = none := by
  induction calls using List.reverseRecOn with
  | nil => exact fun _ => rfl
  | append_singleton calls c ih =>
      rw [behind_append]
      cases c with
      | spawn properties | destroy => intro h; cases h
      | apply action | persist properties =>
          intro h
          simp only [Optional.call, apply, persist, Option.map_eq_none_iff]
          exact ih h
      | draw =>
          obtain ⟨last, hdraw | ⟨hshown, hdraw⟩⟩ := ((new onClose spawned).behind calls).draw_cases
          · simp only [Optional.call, hdraw]
            exact ih
          · simp only [Optional.call, hdraw]
            intro h
            simp [isSpawned, h] at hshown

/-- A draw of the destroyed optional makes the next widget a new one. -/
theorem renewed_draw {o : Optional P A} (hhidden : o.isSpawned = false)
    (hnever : o.spawned = none → o.widget = none) : Renewed o.draw := by
  have hdraw : o.draw = { o with lastCachedValue := o.spawned } := by simp [draw, hhidden]
  rw [hdraw]
  refine ⟨?_, hnever⟩
  simpa [isSpawned] using hhidden

theorem Renewed.call {o : Optional P A} (h : Renewed o) {c : OptionalCall P A}
    (hc : isDraw c = false) : Renewed (o.call c) := by
  cases c with
  | spawn properties | destroy => exact ⟨h.last, h.empty⟩
  | apply action | persist properties =>
      refine ⟨h.last, fun hlast => ?_⟩
      simp only [Optional.call, apply, persist, Option.map_eq_none_iff]
      exact h.empty hlast
  | draw => cases hc

theorem Renewed.behind {o : Optional P A} (h : Renewed o) {calls : List (OptionalCall P A)}
    (hcalls : ∀ c ∈ calls, isDraw c = false) : Renewed (o.behind calls) := by
  induction calls using List.reverseRecOn with
  | nil => exact h
  | append_singleton calls c ih =>
      rw [behind_append]
      exact (ih fun d hd => hcalls d (List.mem_append_left _ hd)).call (hcalls c (by simp))

theorem Renewed.showing_draw {o : Optional P A} (h : Renewed o) (hshown : o.isSpawned = true)
    (hpersisted : o.persisted = false) (hfactory : o.factory.properties = none) :
    Showing o.spawnProperties o.draw := by
  have hspawned : o.spawned = some true := by simpa [isSpawned] using hshown
  have hbuild : o.build.properties = o.spawnProperties := by simp [build, hfactory]
  rw [draw_of_spawned hspawned hpersisted]
  split
  · rename_i hlast
    have hempty := h.empty (hlast.resolve_right h.last)
    simp only [getOrCreateWidget, hempty]
    exact ⟨rfl, congrArg some hbuild⟩
  · exact ⟨rfl, congrArg some hbuild⟩

theorem Showing.call {o : Optional P A} {properties : Option P} (h : Showing properties o)
    {c : OptionalCall P A} (hpersist : isPersist c = false) (hpersisted : o.persisted = false)
    (hdraw : isDraw c = true → o.isSpawned = true) : Showing properties (o.call c) := by
  cases c with
  | spawn _ | destroy => exact ⟨h.last, h.widget⟩
  | apply action =>
      refine ⟨h.last, ?_⟩
      obtain ⟨w, hw, hproperties⟩ := Option.map_eq_some_iff.mp h.widget
      simp [Optional.call, apply, hw, hproperties]
  | persist _ => cases hpersist
  | draw =>
      have hspawned : o.spawned = some true := by simpa [isSpawned] using hdraw rfl
      obtain ⟨w, hw, hproperties⟩ := Option.map_eq_some_iff.mp h.widget
      simp only [Optional.call, draw_of_spawned hspawned hpersisted, h.last, or_true, if_true,
        getOrCreateWidget, hw]
      exact ⟨rfl, by simp [hproperties]⟩

theorem Showing.behind {o : Optional P A} {properties : Option P} (h : Showing properties o)
    {calls : List (OptionalCall P A)} (hpersist : ∀ c ∈ calls, isPersist c = false)
    (hpersisted : ∀ earlier, earlier <+: calls → (o.behind earlier).persisted = false)
    (hdraws : EventRun.EachEvent calls fun earlier c =>
      isDraw c = true → (o.behind earlier).isSpawned = true) :
    Showing properties (o.behind calls) := by
  induction calls using List.reverseRecOn with
  | nil => exact h
  | append_singleton calls c ih =>
      obtain ⟨hbefore, hlast⟩ := EventRun.eachEvent_snoc_iff.mp hdraws
      rw [behind_append]
      exact (ih (fun d hd => hpersist d (List.mem_append_left _ hd))
        (fun earlier hearlier => hpersisted earlier (hearlier.trans (List.prefix_append _ _)))
        hbefore).call (hpersist c (by simp)) (hpersisted calls (List.prefix_append _ _)) hlast

/-- The properties of the last spawn. -/
theorem spawnProperties_behind (onClose : A) (spawned : Option Bool)
    (calls : List (OptionalCall P A)) :
    ((new onClose spawned).behind calls).spawnProperties = ((spawns calls).getLast?).join := by
  induction calls using List.reverseRecOn with
  | nil => rfl
  | append_singleton calls c ih =>
      rw [behind_append, spawns, List.filterMap_append]
      cases c with
      | spawn properties => simp [Optional.call]
      | destroy | apply action | persist properties =>
          simpa [Optional.call, apply, persist, spawns] using ih
      | draw =>
          obtain ⟨last, hdraw | ⟨-, hdraw⟩⟩ := ((new onClose spawned).behind calls).draw_cases
          · simpa [Optional.call, hdraw, spawns] using ih
          · simpa [Optional.call, hdraw, spawns] using ih

/-- At the beginning, and behind a draw of the destroyed optional, a new widget is due. -/
theorem renewed_behind (onClose : A) (spawned : Option Bool)
    {earlier : List (OptionalCall P A)}
    (hearlier : earlier = [] ∨ ∃ before, earlier = before ++ [.draw] ∧
      ((new onClose spawned).behind before).isSpawned = false) :
    Renewed ((new onClose spawned).behind earlier) := by
  rcases hearlier with rfl | ⟨before, rfl, hhidden⟩
  · exact ⟨by simp [behind, new], fun _ => rfl⟩
  · rw [behind_append]
    exact renewed_draw hhidden (widget_of_never_spawned onClose spawned before)

/-- Since the optional was last drawn destroyed, or ever, no draw has found it destroyed.
Then the widget that is shown has the properties of the last spawn before the first draw of
this time, not of the spawns behind that draw; and it has had, once each and in the order of
the calls, the closing action and all actions, those before it was built and those after. -/
theorem shown_of_stretch (onClose : A) (spawned : Option Bool)
    {earlier pre rest : List (OptionalCall P A)}
    (hpersist : ∀ c ∈ earlier ++ pre ++ .draw :: rest, isPersist c = false)
    (hearlier : earlier = [] ∨ ∃ before, earlier = before ++ [.draw] ∧
      ((new onClose spawned).behind before).isSpawned = false)
    (hpre : ∀ c ∈ pre, isDraw c = false)
    (hfirst : ((new onClose spawned).behind (earlier ++ pre)).isSpawned = true)
    (hrest : EventRun.EachEvent rest fun later c => isDraw c = true →
      ((new onClose spawned).behind (earlier ++ pre ++ .draw :: later)).isSpawned = true)
    (hlast : ((new onClose spawned).behind (earlier ++ pre ++ .draw :: rest)).isSpawned = true) :
    ((new onClose spawned).behind (earlier ++ pre ++ .draw :: rest)).shown =
      some ⟨((spawns (earlier ++ pre)).getLast?).join,
        onClose :: applied onClose (earlier ++ pre ++ .draw :: rest)⟩ := by
  have hcomplete : ∀ calls, calls <+: earlier ++ pre ++ .draw :: rest →
      Complete onClose (onClose :: applied onClose calls) ((new onClose spawned).behind calls) :=
    fun calls hcalls => complete_behind onClose spawned fun c hc => hpersist c (hcalls.subset hc)
  -- the first draw builds the widget
  have hatFirst := hcomplete (earlier ++ pre) (List.prefix_append _ _)
  have hrenewed : Renewed ((new onClose spawned).behind (earlier ++ pre)) := by
    rw [behind_append_list]
    exact (renewed_behind onClose spawned hearlier).behind hpre
  have hbuilt := hrenewed.showing_draw hfirst hatFirst.notPersisted (by rw [hatFirst.factory])
  rw [spawnProperties_behind] at hbuilt
  -- the calls behind it leave the widget
  have hsplit : ∀ later, (new onClose spawned).behind (earlier ++ pre ++ .draw :: later) =
      (((new onClose spawned).behind (earlier ++ pre)).draw).behind later := by
    intro later
    rw [behind_append_list]
    rfl
  have hshowing : Showing ((spawns (earlier ++ pre)).getLast?).join
      ((new onClose spawned).behind (earlier ++ pre ++ .draw :: rest)) := by
    rw [hsplit]
    refine hbuilt.behind ?_ ?_ ?_
    · exact fun c hc => hpersist c (by simp [hc])
    · intro later hlater
      rw [← hsplit]
      refine (hcomplete _ ?_).notPersisted
      exact (List.prefix_append_right_inj _).mpr (List.cons_prefix_cons.mpr ⟨rfl, hlater⟩)
    · intro later c hlater hdraw
      rw [← hsplit]
      exact hrest later c hlater hdraw
  have hatLast := hcomplete _ List.prefix_rfl
  have hnext := hshowing.call (c := .draw) rfl hatLast.notPersisted fun _ => hlast
  have hactions := hatLast.call (c := .draw) rfl
  obtain ⟨w, hw, hproperties⟩ := Option.map_eq_some_iff.mp hnext.widget
  have hw' := hactions.widget w hw
  simp only [applied, List.filterMap_cons_none, List.filterMap_nil, List.append_nil] at hw'
  rw [shown, if_pos hlast]
  refine hw.trans (congrArg some ?_)
  rw [← hproperties, applied, ← hw']

/-- The widget of a persisted optional keeps its properties, and has every action behind
those it has had. -/
theorem widget_of_persisted (o : Optional P A) {w : BuiltWidget P A}
    (hpersisted : o.persisted = true) (hw : o.widget = some w) (calls : List (OptionalCall P A)) :
    (o.behind calls).widget = some ⟨w.properties, w.actions ++ applied o.onClose calls⟩ := by
  suffices h : (o.behind calls).onClose = o.onClose ∧ (o.behind calls).persisted = true ∧
      (o.behind calls).widget = some ⟨w.properties, w.actions ++ applied o.onClose calls⟩ from
    h.2.2
  induction calls using List.reverseRecOn with
  | nil => exact ⟨rfl, hpersisted, by simpa [behind, applied] using hw⟩
  | append_singleton calls c ih =>
      obtain ⟨hclose, hkept, hwidget⟩ := ih
      rw [behind_append]
      simp only [applied, List.filterMap_append, ← List.append_assoc] at hwidget ⊢
      cases c with
      | spawn _ | destroy => exact ⟨hclose, hkept, by simpa [Optional.call] using hwidget⟩
      | apply action =>
          exact ⟨hclose, hkept, by simp [Optional.call, apply, hwidget]⟩
      | persist _ =>
          exact ⟨hclose, rfl, by simp [Optional.call, persist, apply, hwidget, hclose]⟩
      | draw =>
          have hstays : ∀ p : Optional P A, p.persisted = true →
              p.widget = some ⟨w.properties, w.actions ++ applied o.onClose calls⟩ →
              p.draw.onClose = p.onClose ∧ p.draw.persisted = true ∧ p.draw.widget = p.widget := by
            intro p hp hpw
            unfold draw
            split
            · exact ⟨rfl, hp, rfl⟩
            · simp [hp, getOrCreateWidget, hpw]
          obtain ⟨hclose', hkept', hwidget'⟩ := hstays _ hkept hwidget
          have hsame := hwidget'.trans hwidget
          exact ⟨hclose'.trans hclose, hkept', by simpa [Optional.call] using hsame⟩

/-! ## A dialog that is opened again -/

/-- The dialog is opened for one thing, closed and opened for another between two draws. -/
def openedAgain : List (OptionalCall Nat String) :=
  [.destroy, .spawn (some 2), .apply "onSave"]

theorem shown_of_stretch_openedAgain :
    (behind (new "onClose" none) ([.draw] ++ [.spawn (some 1)] ++ .draw :: openedAgain)).shown =
      some ⟨some 1, ["onClose", "onSave"]⟩ := by
  have hundrawn : ∀ c ∈ openedAgain, isDraw c = false := by decide
  refine shown_of_stretch "onClose" none (by decide) (.inr ⟨[], rfl, rfl⟩) (by decide) rfl ?_ rfl
  intro later c hlater hdraw
  rw [hundrawn c (hlater.subset (by simp))] at hdraw
  cases hdraw

end Optional

end ArtPlatform.Web
