import ArtPlatform.Foundation.EventRun
import ArtPlatform.Web.ResourcesLoader
import ArtPlatform.Web.ValidatedForm

/-!
# The dialogs of resources

A dialog asks for the name of a resource and for its other texts.  A click on its button sends
the texts and closes the dialog; a dialog that is closed clears its name and its fields.  The
dialog of a new resource begins empty, and the dialog of a stored one with its texts.

Main results:

- Theorem `EntityDialog.sound_of_step`: what a step of a dialog keeps.
- Theorem `EntityDialog.kept_of_step`: what is kept of a field by proposals and marks is kept.
- Theorem `resource_addition_sends_once`: what a dialog of a new resource sends.
- Theorem `resource_editing_sends_once`: what a dialog of a stored resource sends.
- Theorem `resource_editing_port_iff`: which ports the dialog of a stored proxy shows.
-/

namespace ArtPlatform.Web

open Regex TextField EventRun

/-! ## Dialogs -/

/-- The rules of a dialog: the field of the name, the other fields, which of these are required,
the names that an answer says to be taken, and whether a click sends anything. -/
structure DialogRules (κ ι : Type) where
  name : κ
  fields : List κ
  required : List κ
  taken : ι → List Text
  sends : Bool

def DialogRules.formRules {κ ι : Type} (rules : DialogRules κ ι) : FormRules κ where
  required := rules.name :: rules.required
  checked := rules.name :: rules.fields
  unique := [rules.name]

structure EntityDialog (κ : Type) where
  form : Form κ
  visible : Bool := true
  requests : List (FormRequest κ) := []

inductive DialogAction (κ ι : Type)
  | typed (k : κ) (value : Text)
  | loaded (ids : ι)
  | clicked
  | closed

namespace EntityDialog

variable {κ ι : Type} [DecidableEq κ] (rules : DialogRules κ ι)

/-- What is done to the texts when the dialog is closed. -/
def clear (f : Form κ) : Form κ :=
  rules.fields.foldl (fun f k => f.setText rules.formRules k [])
    (f.setText rules.formRules rules.name [])

def close (d : EntityDialog κ) : EntityDialog κ :=
  if d.visible then { d with visible := false, form := clear rules d.form } else d

def send (d : EntityDialog κ) : EntityDialog κ :=
  if rules.sends then
    { d with requests := d.requests ++ [⟨d.form.text, d.form.checkedAgainst⟩] }
  else d

/-- What the user of the dialog and its server do.  The answer to a request closes the dialog
once more. -/
def step (d : EntityDialog κ) : DialogAction κ ι → Option (EntityDialog κ)
  | .typed k value =>
      if d.visible ∧ k ∈ rules.name :: rules.fields then
        some { d with form := d.form.setText rules.formRules k value }
      else none
  | .loaded ids => some { d with form := d.form.load rules.formRules rules.name (rules.taken ids) }
  | .clicked => if d.form.disabled then none else some ((d.send rules).close rules)
  | .closed => some (d.close rules)

variable {rules} {start f : Form κ} {d d' : EntityDialog κ} {action : DialogAction κ ι}

/-! ## What a step keeps -/

/-- What holds of a dialog that began with a form: it has sent acceptable texts only, and
nothing while it can be seen; and when it cannot be seen any more, it cannot send. -/
structure Sound (rules : DialogRules κ ι) (start : Form κ) (d : EntityDialog κ) : Prop where
  valid : d.form.Valid rules.formRules start
  plain : (d.form.fields rules.name).prevents = []
  hidden : d.visible = false → d.form.disabled = true ∧ d.form.text rules.name = []
  fresh : d.visible = true → d.requests = []
  once : d.requests.length ≤ 1
  sent : ∀ r ∈ d.requests, Form.Acceptable rules.formRules start r.texts r.checkedAgainst

/-- A form whose texts have been cleared. -/
structure Cleared (rules : DialogRules κ ι) (start f : Form κ) : Prop where
  valid : f.Valid rules.formRules start
  plain : (f.fields rules.name).prevents = []
  disabled : f.disabled = true
  empty : f.text rules.name = []

omit [DecidableEq κ] in
theorem name_mem_required (rules : DialogRules κ ι) : rules.name ∈ rules.formRules.required :=
  List.mem_cons_self

theorem Cleared.setText (h : Cleared rules start f) (k : κ) :
    Cleared rules start (f.setText rules.formRules k []) := by
  obtain ⟨hdisabled, hempty⟩ :=
    Form.disabled_clear (name_mem_required rules) h.disabled h.empty k
  exact ⟨h.valid.setText k [], (Form.prevents_setText f k [] _).trans h.plain, hdisabled, hempty⟩

theorem cleared_clear (hvalid : f.Valid rules.formRules start)
    (hplain : (f.fields rules.name).prevents = []) : Cleared rules start (clear rules f) := by
  have hname : Cleared rules start (f.setText rules.formRules rules.name []) := by
    obtain ⟨hdisabled, hempty⟩ := hvalid.disabled_clear (name_mem_required rules) hplain
    exact ⟨hvalid.setText rules.name [], (Form.prevents_setText f _ [] _).trans hplain, hdisabled,
      hempty⟩
  unfold clear
  generalize f.setText rules.formRules rules.name [] = g at hname
  induction rules.fields generalizing g with
  | nil => exact hname
  | cons k keys ih => exact ih _ (hname.setText k)

theorem Sound.close (h : d.Sound rules start) : (d.close rules).Sound rules start := by
  unfold EntityDialog.close
  split
  · have hcleared := cleared_clear h.valid h.plain
    exact ⟨hcleared.valid, hcleared.plain, fun _ => ⟨hcleared.disabled, hcleared.empty⟩, nofun,
      h.once, h.sent⟩
  · exact h

/-- A dialog that sends is closed at once. -/
theorem Sound.send_close (h : d.Sound rules start) (henabled : d.form.disabled = false) :
    ((d.send rules).close rules).Sound rules start := by
  have hvisible : d.visible = true := by
    cases hvisible : d.visible with
    | true => rfl
    | false =>
        have hdisabled := (h.hidden hvisible).1
        rw [henabled] at hdisabled
        cases hdisabled
  have hnone := h.fresh hvisible
  unfold send
  split
  · have hcleared := cleared_clear h.valid h.plain
    have hclosed : EntityDialog.close rules
        { d with requests := d.requests ++ [⟨d.form.text, d.form.checkedAgainst⟩] } =
        { visible := false
          form := clear rules d.form
          requests := d.requests ++ [⟨d.form.text, d.form.checkedAgainst⟩] } := if_pos hvisible
    rw [hclosed, hnone, List.nil_append]
    refine ⟨hcleared.valid, hcleared.plain, fun _ => ⟨hcleared.disabled, hcleared.empty⟩, nofun,
      le_rfl, fun r hr => ?_⟩
    obtain rfl := List.mem_singleton.mp hr
    exact h.valid.acceptable henabled
  · exact h.close

theorem sound_of_step (h : d.Sound rules start) (hstep : d.step rules action = some d') :
    d'.Sound rules start := by
  cases action with
  | typed k value =>
      simp only [step] at hstep
      split at hstep
      · rename_i hopen
        cases hstep
        refine ⟨h.valid.setText k value, (Form.prevents_setText _ k value _).trans h.plain,
          fun hhidden => ?_, h.fresh, h.once, h.sent⟩
        have hvisible : d.visible = true := hopen.1
        rw [hvisible] at hhidden
        cases hhidden
      · cases hstep
  | loaded ids =>
      simp only [step, Option.some.injEq] at hstep
      subst hstep
      refine ⟨h.valid.load rules.name _,
        (Form.prevents_validateDuplicates rules.formRules _ _).trans h.plain, fun hhidden => ?_,
        h.fresh, h.once, h.sent⟩
      obtain ⟨hdisabled, hempty⟩ := h.hidden hhidden
      exact ⟨hdisabled, (Form.text_validateDuplicates _ _).trans hempty⟩
  | clicked =>
      simp only [step] at hstep
      split at hstep
      · cases hstep
      · rename_i henabled
        cases hstep
        exact h.send_close (Bool.eq_false_of_not_eq_true henabled)
  | closed =>
      simp only [step, Option.some.injEq] at hstep
      subst hstep
      exact h.close

omit [DecidableEq κ] in
theorem sound_opened (hvalid : f.Valid rules.formRules start)
    (hplain : (f.fields rules.name).prevents = []) : Sound rules start { form := f } where
  valid := hvalid
  plain := hplain
  hidden hhidden := by cases hhidden
  fresh _ := rfl
  once := Nat.zero_le 1
  sent r hr := absurd hr List.not_mem_nil

theorem sound_of_run {actions : List (DialogAction κ ι)} (hvalid : f.Valid rules.formRules start)
    (hplain : (f.fields rules.name).prevents = [])
    (hrun : run (step rules) { form := f } actions = some d) : d.Sound rules start :=
  EventRun.invariant_of_run (I := Sound rules start) (sound_opened hvalid hplain) hrun
    fun _ _ _ h hstep => sound_of_step h hstep

/-! ## What is kept of a field -/

/-- A property of a field that proposals and marks keep. -/
structure Keeps (P : TextField → Prop) : Prop where
  setText : ∀ s value, P s → P (s.setText value)
  mark : ∀ s, P s → P { s with error := true }

variable {P : TextField → Prop} {k : κ}

theorem Keeps.validateDuplicates (hP : Keeps P) (rules : FormRules κ) (h : P (f.fields k)) :
    P ((f.validateDuplicates rules).fields k) := by
  unfold Form.validateDuplicates
  dsimp only
  split
  · exact hP.mark _ h
  · exact h

theorem Keeps.propose (hP : Keeps P) (h : P (f.fields k)) (k' : κ) (value : Text) :
    P ((f.propose k' value).fields k) := by
  rcases eq_or_ne k k' with rfl | hne
  · rw [Form.fields_propose_self]
    exact hP.setText _ value h
  · rwa [Form.fields_propose_of_ne hne]

theorem Keeps.formSetText (hP : Keeps P) (rules : FormRules κ) (h : P (f.fields k)) (k' : κ)
    (value : Text) : P ((f.setText rules k' value).fields k) := by
  unfold Form.setText
  dsimp only
  split
  · exact hP.propose h k' value
  · exact hP.validateDuplicates rules (hP.propose h k' value)

theorem Keeps.clear (hP : Keeps P) (h : P (f.fields k)) : P ((clear rules f).fields k) := by
  have hname := hP.formSetText rules.formRules h rules.name []
  unfold EntityDialog.clear
  generalize f.setText rules.formRules rules.name [] = g at hname
  induction rules.fields generalizing g with
  | nil => exact hname
  | cons k' keys ih => exact ih _ (hP.formSetText rules.formRules hname k' [])

/-- The field has the property, and what has been sent was the text of a field that has it. -/
def Kept (P : TextField → Prop) (k : κ) (d : EntityDialog κ) : Prop :=
  P (d.form.fields k) ∧ ∀ r ∈ d.requests, ∃ s, P s ∧ r.texts k = s.text

omit [DecidableEq κ] in
theorem Kept.send (h : d.Kept P k) : (d.send rules).Kept P k := by
  unfold EntityDialog.send
  split
  · refine ⟨h.1, fun r hr => ?_⟩
    rcases List.mem_append.mp hr with hold | hnew
    · exact h.2 r hold
    · obtain rfl := List.mem_singleton.mp hnew
      exact ⟨d.form.fields k, h.1, rfl⟩
  · exact h

theorem Kept.close (hP : Keeps P) (h : d.Kept P k) : (d.close rules).Kept P k := by
  unfold EntityDialog.close
  split
  · exact ⟨hP.clear h.1, h.2⟩
  · exact h

theorem kept_of_step (hP : Keeps P) (h : d.Kept P k) (hstep : d.step rules action = some d') :
    d'.Kept P k := by
  cases action with
  | typed k' value =>
      simp only [step] at hstep
      split at hstep
      · cases hstep
        exact ⟨hP.formSetText rules.formRules h.1 k' value, h.2⟩
      · cases hstep
  | loaded ids =>
      simp only [step, Option.some.injEq] at hstep
      subst hstep
      exact ⟨hP.validateDuplicates rules.formRules h.1, h.2⟩
  | clicked =>
      simp only [step] at hstep
      split at hstep
      · cases hstep
      · cases hstep
        exact h.send.close hP
  | closed =>
      simp only [step, Option.some.injEq] at hstep
      subst hstep
      exact h.close hP

theorem kept_of_run {actions : List (DialogAction κ ι)} (hP : Keeps P) (h : P (f.fields k))
    (hrun : run (step rules) { form := f } actions = some d) : d.Kept P k :=
  EventRun.invariant_of_run (I := Kept P k) ⟨h, fun _ hr => absurd hr List.not_mem_nil⟩ hrun
    fun _ _ _ h hstep => kept_of_step hP h hstep

end EntityDialog

/-! ## The fields of resources -/

inductive ResourceField
  | name
  | apiUrl
  | privateRegistryUrl
  | applicationsDomain
  | url
  | host
  | port
  | userName
  | password
deriving DecidableEq, Repr

/-- A field of a dialog with its name. -/
structure ResourceFieldEntry where
  key : ResourceField
  field : TextField
  required : Bool := false

def openShiftResourceFields : List ResourceFieldEntry :=
  [⟨.apiUrl, { regexp := some urlRegex }, true⟩,
    ⟨.privateRegistryUrl, { regexp := some urlWithoutSchemeRegex }, true⟩,
    ⟨.applicationsDomain, { regexp := some hostNameRegex }, true⟩,
    ⟨.userName, { regexp := some userNameRegex }, true⟩,
    ⟨.password, { regexp := some passwordRegex }, true⟩]

def gitResourceFields : List ResourceFieldEntry :=
  [⟨.url, { regexp := some gitUrlRegex }, true⟩,
    ⟨.userName, { regexp := some userNameRegex }, false⟩,
    ⟨.password, { regexp := some passwordRegex }, false⟩]

def artifactsResourceFields : List ResourceFieldEntry :=
  [⟨.url, { regexp := some urlWithoutSchemeRegex }, true⟩,
    ⟨.userName, { regexp := some userNameRegex }, false⟩,
    ⟨.password, { regexp := some passwordRegex }, false⟩]

/-- The field of the port has the rules of the fields of ports. -/
def proxyResourceFields : List ResourceFieldEntry :=
  [⟨.host, { regexp := some hostNameAndIpRegex }, true⟩,
    ⟨.port, portField none, false⟩,
    ⟨.userName, { regexp := some userNameRegex }, false⟩,
    ⟨.password, { regexp := some passwordRegex }, false⟩]

def createFields : Loading.ResourceType → List ResourceFieldEntry
  | .openShift => openShiftResourceFields
  | .git => gitResourceFields
  | .artifacts => artifactsResourceFields
  | .proxy => proxyResourceFields
  | .platform => []

def nameField (name : Text) : TextField where
  regexp := some entityNameRegex
  text := name

/-- All fields of a dialog, the name among them. -/
def resourceFields (type : Loading.ResourceType) (name : Text) (k : ResourceField) : TextField :=
  if k = .name then nameField name
  else (((createFields type).find? fun entry => entry.key = k).map (·.field)).getD {}

/-- What a dialog reads of the identifier of a resource. -/
structure ResourceId where
  type : Loading.ResourceType
  name : Text

/-- The rules of the dialog of a new resource, or of one that has a name already. -/
def resourceRules (type : Loading.ResourceType) (own : Option Text) :
    DialogRules ResourceField (List ResourceId) where
  name := .name
  fields := (createFields type).map (·.key)
  required := ((createFields type).filter (·.required)).map (·.key)
  taken ids := (ids.filter fun id => id.type = type ∧ own ≠ some id.name).map (·.name)
  sends := type ≠ .platform

abbrev ResourceDialog : Type :=
  EntityDialog ResourceField

abbrev ResourceDialogAction : Type :=
  DialogAction ResourceField (List ResourceId)

def resourceAdditionDialog (type : Loading.ResourceType) : ResourceDialog where
  form := { fields := resourceFields type [] }

/-- A stored resource, with the texts that it has. -/
structure ResourceTexts where
  type : Loading.ResourceType
  name : Text
  texts : ResourceField → Option Text

/-- The text of a stored resource is proposed.  A text that is taken over is validated at once,
since the validation is told of the last text when it is added. -/
def initialise {κ : Type} [DecidableEq κ] (rules : FormRules κ) (texts : κ → Option Text)
    (f : Form κ) (k : κ) : Form κ :=
  match texts k with
  | none => f
  | some value =>
      let proposed := f.propose k value
      if proposed.text k = value then proposed.validate rules else proposed

def resourceEditingDialog (resource : ResourceTexts) : ResourceDialog where
  form :=
    let rules := resourceRules resource.type (some resource.name)
    rules.fields.foldl (initialise rules.formRules resource.texts)
      { fields := resourceFields resource.type resource.name }

/-! ## What the dialogs send -/

/-- Every field has what its dialog asks for. -/
def WellFilled (type : Loading.ResourceType) (texts : ResourceField → Text) : Prop :=
  ∀ entry ∈ createFields type, (entry.required = true → texts entry.key ≠ []) ∧
    mismatch entry.field.regexp (texts entry.key) = false

theorem resourceFields_entry {type : Loading.ResourceType} {entry : ResourceFieldEntry}
    (name : Text) (h : entry ∈ createFields type) :
    resourceFields type name entry.key = entry.field ∧ entry.field.text = [] := by
  cases type with
  | openShift =>
      simp only [createFields, openShiftResourceFields, List.mem_cons, List.not_mem_nil,
        or_false] at h
      rcases h with rfl | rfl | rfl | rfl | rfl <;> exact ⟨rfl, rfl⟩
  | git =>
      simp only [createFields, gitResourceFields, List.mem_cons, List.not_mem_nil, or_false] at h
      rcases h with rfl | rfl | rfl <;> exact ⟨rfl, rfl⟩
  | artifacts =>
      simp only [createFields, artifactsResourceFields, List.mem_cons, List.not_mem_nil,
        or_false] at h
      rcases h with rfl | rfl | rfl <;> exact ⟨rfl, rfl⟩
  | proxy =>
      simp only [createFields, proxyResourceFields, List.mem_cons, List.not_mem_nil, or_false] at h
      rcases h with rfl | rfl | rfl | rfl <;> exact ⟨rfl, rfl⟩
  | platform => exact absurd h List.not_mem_nil

section

variable {type : Loading.ResourceType} {name : Text} {own : Option Text} {f : Form ResourceField}

/-- The fields begin without errors, and the port with the rules of ports. -/
theorem checked_resourceFields (type : Loading.ResourceType) (name : Text) (k : ResourceField) :
    (resourceFields type name k).Checked (resourceFields type name k).text := by
  by_cases hport : (resourceFields type name k).prevents = []
  · exact .inl ⟨hport, fun _ => .inr rfl⟩
  · refine .inr ⟨?_, .inr rfl⟩
    cases type <;> cases k <;> first | rfl | exact absurd rfl hport

theorem valid_resourceFields (rules : FormRules ResourceField) (type : Loading.ResourceType)
    (name : Text) :
    Form.Valid rules { fields := resourceFields type name }
      { fields := resourceFields type name } where
  regexp _ := rfl
  checked := checked_resourceFields type name
  acceptable henabled := by cases henabled

/-- What is acceptable has an acceptable name and is well filled. -/
theorem wellFilled_of_acceptable {texts : ResourceField → Text}
    {against : ResourceField → List Text}
    (h : Form.Acceptable (resourceRules type own).formRules { fields := resourceFields type name }
      texts against) :
    (entityNameRegex.test (texts .name) = true ∨ texts .name = name) ∧ texts .name ≠ [] ∧
      texts .name ∉ against .name ∧ WellFilled type texts := by
  have hname : texts .name ≠ [] := h.filled .name List.mem_cons_self
  refine ⟨?_, hname, h.free .name List.mem_cons_self List.mem_cons_self, fun entry hentry => ?_⟩
  · refine (h.matching .name List.mem_cons_self).imp_left fun hmatch => ?_
    change mismatch (some entityNameRegex) (texts .name) = false at hmatch
    simpa [mismatch, hname] using hmatch
  · obtain ⟨hfield, hempty⟩ := resourceFields_entry name hentry
    refine ⟨fun hrequired => ?_, ?_⟩
    · exact h.filled entry.key (List.mem_cons_of_mem _ (List.mem_map_of_mem
        (List.mem_filter.mpr ⟨hentry, hrequired⟩)))
    · have hmatching := h.matching entry.key
        (List.mem_cons_of_mem _ (List.mem_map_of_mem hentry))
      have hstart : Form.text { fields := resourceFields type name } entry.key = [] :=
        (congrArg TextField.text hfield).trans hempty
      rw [hstart] at hmatching
      rcases hmatching with hmatch | htext
      · rw [← hfield]
        exact hmatch
      · rw [htext]
        simp [mismatch]

/-- What is kept of the field of a port. -/
def HoldsPort (s : TextField) : Prop :=
  PortRules s ∧ (s.text = [] ∨ IsPortNumeral s.text)

theorem keeps_holdsPort : EntityDialog.Keeps HoldsPort where
  setText s value h := by
    refine ⟨h.1.setText value, ?_⟩
    rcases text_setText h.1 value with hstays | ⟨htaken, hvalue⟩
    · rw [hstays]
      exact h.2
    · rw [htaken]
      exact hvalue
  mark s h := ⟨⟨h.1.mask, h.1.regexp, h.1.prevents⟩, h.2⟩

theorem holdsPort_proxy (name : Text) : HoldsPort (resourceFields .proxy name .port) :=
  ⟨portRules_portField none, .inl rfl⟩

/-! ## The dialog of a new resource -/

variable {actions : List ResourceDialogAction} {d : ResourceDialog}

/-- A repository is named and found, and added; the answer closes the dialog once more. -/
def addRepository : List ResourceDialogAction :=
  [.loaded [⟨.git, units ['o', 'l', 'd']⟩, ⟨.proxy, units ['a', 'r', 't']⟩],
    .typed .name (units ['a', 'r', 't']),
    .typed .url (units ['g', 'i', 't', ':', 'a', '.', 'g', 'i', 't']), .clicked, .closed]

/-- What holds of the form of a stored resource while its texts are proposed. -/
structure Initialised (type : Loading.ResourceType) (name : Text) (own : Option Text)
    (f : Form ResourceField) : Prop where
  valid : f.Valid (resourceRules type own).formRules { fields := resourceFields type name }
  plain : (f.fields .name).prevents = []
  port : type = .proxy → HoldsPort (f.fields .port)

theorem Initialised.initialise (h : Initialised type name own f)
    (texts : ResourceField → Option Text) (k : ResourceField) :
    Initialised type name own (initialise (resourceRules type own).formRules texts f k) := by
  unfold ArtPlatform.Web.initialise
  split
  · exact h
  · rename_i value _
    have hplain : ((f.propose k value).fields .name).prevents = [] := by
      have hkeeps : EntityDialog.Keeps fun s => s.prevents = [] :=
        ⟨fun s value h => (rules_setText s value).2.trans h, fun _ h => h⟩
      exact hkeeps.propose h.plain k value
    have hport : type = .proxy → HoldsPort ((f.propose k value).fields .port) :=
      fun hproxy => keeps_holdsPort.propose (h.port hproxy) k value
    dsimp only
    split
    · refine ⟨Form.valid_validate (h.valid.regexp_propose k value)
        (h.valid.checked_propose k value), ?_, fun hproxy => ?_⟩
      · exact (Form.prevents_validateDuplicates _ _ _).trans hplain
      · exact keeps_holdsPort.validateDuplicates (resourceRules type own).formRules (hport hproxy)
    · rename_i hrefused
      refine ⟨h.valid.propose ?_, hplain, hport⟩
      rw [Form.text_propose_self] at hrefused ⊢
      exact (text_setText_or (f.fields k) value).resolve_left hrefused

theorem initialised_resourceEditingDialog (resource : ResourceTexts) :
    Initialised resource.type resource.name (some resource.name)
      (resourceEditingDialog resource).form := by
  have hstart : Initialised resource.type resource.name (some resource.name)
      { fields := resourceFields resource.type resource.name } := by
    refine ⟨valid_resourceFields _ _ _, rfl, fun hproxy => ?_⟩
    rw [hproxy]
    exact holdsPort_proxy resource.name
  have hfold : ∀ keys : List ResourceField, ∀ f,
      Initialised resource.type resource.name (some resource.name) f →
        Initialised resource.type resource.name (some resource.name)
          (keys.foldl (initialise (resourceRules resource.type (some resource.name)).formRules
            resource.texts) f) := by
    intro keys
    induction keys with
    | nil => exact fun _ h => h
    | cons k keys ih => exact fun f h => ih _ (h.initialise resource.texts k)
  exact hfold _ _ hstart

/-- A dialog of a stored resource sends at most one request, and can be seen no longer then.
The name is the one that the resource has, or an entity name; it was not known to be the name
of another resource when a text was last typed. -/
theorem resource_editing_sends_once {resource : ResourceTexts}
    (hrun : run (EntityDialog.step (resourceRules resource.type (some resource.name)))
      (resourceEditingDialog resource) actions = some d) :
    d.requests.length ≤ 1 ∧ (d.visible = true → d.requests = []) ∧ ∀ r ∈ d.requests,
      (entityNameRegex.test (r.texts .name) = true ∨ r.texts .name = resource.name) ∧
        r.texts .name ≠ [] ∧ r.texts .name ∉ r.checkedAgainst .name ∧
        WellFilled resource.type r.texts ∧
        (resource.type = .proxy → r.texts .port = [] ∨ IsPortNumeral (r.texts .port)) := by
  have hstart := initialised_resourceEditingDialog resource
  have hsound := EntityDialog.sound_of_run hstart.valid hstart.plain hrun
  refine ⟨hsound.once, hsound.fresh, fun r hr => ?_⟩
  obtain ⟨hname, hfilled, hfree, hwell⟩ := wellFilled_of_acceptable (hsound.sent r hr)
  refine ⟨hname, hfilled, hfree, hwell, fun hproxy => ?_⟩
  have hkept := EntityDialog.kept_of_run (k := .port) keeps_holdsPort (hstart.port hproxy) hrun
  obtain ⟨s, hs, htext⟩ := hkept.2 r hr
  rw [htext]
  exact hs.2

/-- A proxy with a port that the pattern has. -/
def storedProxy : ResourceTexts where
  type := .proxy
  name := units ['s', 'q', 'u', 'i', 'd']
  texts
    | .host => some (units ['a', '.', 'b'])
    | .port => some (numeral 8080)
    | _ => none

theorem resource_editing_sends_once_proxy : ∃ d : ResourceDialog,
    run (EntityDialog.step (resourceRules storedProxy.type (some storedProxy.name)))
      (resourceEditingDialog storedProxy) [.typed .port (numeral 90), .clicked] = some d ∧
      d.requests ≠ [] ∧
      d.requests.length ≤ 1 ∧ (d.visible = true → d.requests = []) ∧ ∀ r ∈ d.requests,
        (entityNameRegex.test (r.texts .name) = true ∨ r.texts .name = storedProxy.name) ∧
          r.texts .name ≠ [] ∧ r.texts .name ∉ r.checkedAgainst .name ∧
          WellFilled storedProxy.type r.texts ∧
          (storedProxy.type = .proxy → r.texts .port = [] ∨ IsPortNumeral (r.texts .port)) := by
  have hruns : (run (EntityDialog.step (resourceRules storedProxy.type (some storedProxy.name)))
      (resourceEditingDialog storedProxy) [.typed .port (numeral 90), .clicked]).map
        (fun d => d.requests.length) = some 1 := by
    decide +kernel
  obtain ⟨d, hd, hone⟩ := Option.map_eq_some_iff.mp hruns
  exact ⟨d, hd, List.ne_nil_of_length_eq_add_one hone, resource_editing_sends_once hd⟩

/-! ## The port of a stored proxy -/

theorem text_initialise_of_ne {κ : Type} [DecidableEq κ] {rules : FormRules κ}
    {texts : κ → Option Text} {f : Form κ} {k k' : κ} (h : k' ≠ k) :
    (initialise rules texts f k).text k' = f.text k' := by
  unfold initialise
  split
  · rfl
  · dsimp only
    split
    · rw [Form.text_validate, Form.text_propose_of_ne h]
    · exact Form.text_propose_of_ne h _

theorem text_initialise_self {κ : Type} [DecidableEq κ] {rules : FormRules κ}
    {texts : κ → Option Text} {f : Form κ} {k : κ} {value : Text} (h : texts k = some value) :
    (initialise rules texts f k).text k = ((f.fields k).setText value).text := by
  have htext := Form.text_propose_self f k value
  unfold initialise
  rw [h]
  dsimp only
  split
  · rw [Form.text_validate, htext]
  · exact htext

/-- The dialog of a stored proxy shows its port exactly if the pattern does not lack it.  The
field is empty otherwise. -/
theorem resource_editing_port_iff (resource : ResourceTexts) (port : Port)
    (hproxy : resource.type = .proxy) (hport : resource.texts .port = some (numeral port)) :
    ((resourceEditingDialog resource).form.text .port = numeral port ↔ ¬ LackingPort port) ∧
      (LackingPort port → (resourceEditingDialog resource).form.text .port = []) := by
  obtain ⟨type, name, texts⟩ := resource
  subst hproxy
  have hne : numeral (port : Nat) ≠ [] := numeral_ne_nil port.2.1
  -- the other fields leave the port alone, and find it with its rules and without a text
  let rules := (resourceRules .proxy (some name)).formRules
  let first := initialise rules texts { fields := resourceFields .proxy name } .host
  have hfirst : Initialised .proxy name (some name) first :=
    Initialised.initialise ⟨valid_resourceFields _ _ _, rfl, fun _ => holdsPort_proxy name⟩ texts
      .host
  have hempty : first.text .port = [] := text_initialise_of_ne (by decide)
  have hshown : (resourceEditingDialog ⟨.proxy, name, texts⟩).form.text .port =
      ((first.fields .port).setText (numeral port)).text := by
    have hlast : (resourceEditingDialog ⟨.proxy, name, texts⟩).form = initialise rules texts
        (initialise rules texts (initialise rules texts first .port) .userName) .password := rfl
    rw [hlast, text_initialise_of_ne (by decide), text_initialise_of_ne (by decide)]
    exact text_initialise_self hport
  have hrules : PortRules (first.fields .port) := (hfirst.port rfl).1
  have htext : (first.fields .port).text ≠ numeral port := by
    intro hsame
    exact hne (hsame.symm.trans hempty)
  rw [hshown]
  by_cases hlacking : LackingPort port
  · have htest : portRegex.test (numeral port) = false := by
      refine Bool.eq_false_of_not_eq_true fun htest => ?_
      exact ((portRegex_numeral_iff port.2.1).mp htest).2 hlacking
    rw [setText_of_lacking hrules hne htest]
    exact ⟨iff_of_false htext (not_not_intro hlacking), fun _ => hempty⟩
  · have htest : portRegex.test (numeral port) = true :=
      (portRegex_numeral_iff port.2.1).mpr ⟨port.2.2, hlacking⟩
    have hhead := head?_numeral_ne port.2.1
    have hzero : withoutLeadingZero (numeral port) = true := by
      simpa [withoutLeadingZero] using hhead
    exact ⟨iff_of_true (setText_of_portRegex hrules htext htest hzero).1 hlacking,
      fun h => absurd h hlacking⟩

theorem resource_editing_port_iff_8080 :
    ((resourceEditingDialog storedProxy).form.text .port = numeral 8080 ↔ ¬ LackingPort 8080) ∧
      (LackingPort 8080 → (resourceEditingDialog storedProxy).form.text .port = []) :=
  resource_editing_port_iff storedProxy ⟨8080, by decide⟩ rfl rfl

end

end ArtPlatform.Web
