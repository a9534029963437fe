import ArtPlatform.Foundation.EventRun
import ArtPlatform.ManagementPanel.UserService
import ArtPlatform.Web.ValidatedForm

/-!
# The pages of authorization and registration

A page is a form whose texts are all required.  A click on its button sends the texts and
disables the fields and the button until the answer comes.  An error enables them again, on the
page of registration all but the full name and the e-mail.

Main results:

- Theorem `Page.sound_of_step`: what a step of a page keeps.
- Theorem `Page.sendable_iff`: what a page can send.
- Theorems `authorization_sendable_iff` and `registration_sendable_iff`: what the two pages can
  send.
- Theorem `registration_identity`: a page of registration sends one full name and one e-mail.
- Theorem `registration_taken_email`: a page whose e-mail is taken registers nobody.
-/

namespace ArtPlatform.Web

open Regex TextField EventRun

/-! ## Pages -/

/-- The rules of a page: the rules of its form, and the fields that are enabled again. -/
structure PageRules (κ : Type) extends FormRules κ where
  thawed : List κ

structure Page (κ : Type) where
  form : Form κ
  frozen : κ → Bool := fun _ => false
  waiting : Nat := 0
  requests : List (FormRequest κ) := []
  user : Bool := false

inductive CredentialAnswer
  | user
  | error
  | unauthorized
deriving DecidableEq, Repr

inductive PageAction (κ : Type)
  | typed (k : κ) (value : Text)
  | loaded (k : κ) (texts : List Text)
  | clicked
  | answered (answer : CredentialAnswer)

namespace Page

variable {κ : Type} [DecidableEq κ] (rules : PageRules κ)

def disable (p : Page κ) : Page κ :=
  { p with form := { p.form with disabled := true }, frozen := fun _ => true }

def enable (p : Page κ) : Page κ :=
  { p with form := { p.form with disabled := false }, frozen := fun k => k ∉ rules.thawed }

/-- What the users of the page and its server do.  An unauthorized request leaves the page
alone, since it logs out. -/
def step (p : Page κ) : PageAction κ → Option (Page κ)
  | .typed k value =>
      if p.frozen k then none else some { p with form := p.form.setText rules.toFormRules k value }
  | .loaded k texts =>
      if k ∈ rules.unique then some { p with form := p.form.load rules.toFormRules k texts }
      else none
  | .clicked =>
      if p.form.disabled then none
      else if rules.required.any fun k => p.form.text k = [] then some p
      else some { p.disable with
        waiting := p.waiting + 1
        requests := p.requests ++ [⟨p.form.text, p.form.checkedAgainst⟩] }
  | .answered answer =>
      if p.waiting = 0 then none
      else
        let answered := { p with waiting := p.waiting - 1 }
        match answer with
        | .user => some { answered.enable rules with user := true }
        | .error => some (answered.enable rules)
        | .unauthorized => some answered

/-- A page with empty fields. -/
def opened (patterns : κ → Pattern UInt16) : Page κ where
  form := { fields := fun k => { regexp := some (patterns k) } }

/-! ## What a step keeps -/

variable {rules} {start : Form κ} {p q : Page κ} {action : PageAction κ}

/-- What holds of a page that began with a form: whatever has been sent was acceptable; while
a request waits nothing can be typed or sent, and its texts are still there. -/
structure Sound (rules : PageRules κ) (start : Form κ) (p : Page κ) : Prop where
  valid : p.form.Valid rules.toFormRules start
  sent : ∀ r ∈ p.requests,
    Form.Acceptable rules.toFormRules start r.texts r.checkedAgainst
  still : 0 < p.waiting → p.waiting = 1 ∧ p.form.disabled = true ∧ (∀ k, p.frozen k = true) ∧
    Form.Acceptable rules.toFormRules start p.form.text p.form.checkedAgainst

omit [DecidableEq κ] in
theorem sound_opened (patterns : κ → Pattern UInt16) :
    Sound rules (opened patterns).form (opened patterns) := by
  refine ⟨⟨fun _ => rfl, fun k => .inl ⟨rfl, fun _ => .inr rfl⟩, nofun⟩, nofun, nofun⟩

theorem text_load (f : Form κ) (k : κ) (texts : List Text) :
    (f.load rules.toFormRules k texts).text = f.text :=
  funext fun k' => Form.text_validateDuplicates _ k'

theorem sound_of_step (h : p.Sound rules start) (hstep : p.step rules action = some q) :
    q.Sound rules start := by
  cases action with
  | typed k value =>
      simp only [step] at hstep
      split at hstep
      · cases hstep
      · rename_i hfrozen
        cases hstep
        refine ⟨h.valid.setText k value, h.sent, fun hwaiting => ?_⟩
        exact absurd ((h.still hwaiting).2.2.1 k) hfrozen
  | loaded k texts =>
      simp only [step] at hstep
      split at hstep
      · cases hstep
        refine ⟨h.valid.load k texts, h.sent, fun hwaiting => ?_⟩
        obtain ⟨hone, hdisabled, hfrozen, hacceptable⟩ := h.still hwaiting
        refine ⟨hone, hdisabled, hfrozen, ?_⟩
        rw [text_load]
        exact hacceptable
      · cases hstep
  | clicked =>
      simp only [step] at hstep
      split at hstep
      · cases hstep
      · rename_i henabled
        have hacceptable := h.valid.acceptable (Bool.eq_false_of_not_eq_true henabled)
        have hwaiting : p.waiting = 0 := by
          rcases Nat.eq_zero_or_pos p.waiting with hzero | hpos
          · exact hzero
          · exact absurd (h.still hpos).2.1 henabled
        split at hstep
        · cases hstep
          exact h
        · cases hstep
          refine ⟨⟨h.valid.regexp, h.valid.checked, nofun⟩, fun r hr => ?_, fun _ => ?_⟩
          · rcases List.mem_append.mp hr with hold | hnew
            · exact h.sent r hold
            · obtain rfl := List.mem_singleton.mp hnew
              exact hacceptable
          · exact ⟨congrArg (· + 1) hwaiting, rfl, fun _ => rfl, hacceptable⟩
  | answered answer =>
      simp only [step] at hstep
      split at hstep
      · cases hstep
      · rename_i hwaiting
        obtain ⟨hone, hdisabled, -, hacceptable⟩ := h.still (Nat.pos_of_ne_zero hwaiting)
        have hnone : ¬ 0 < p.waiting - 1 := by omega
        have hvalid : Form.Valid rules.toFormRules { p.form with disabled := false } start :=
          ⟨h.valid.regexp, h.valid.checked, fun _ => hacceptable⟩
        cases answer with
        | user =>
            cases hstep
            exact ⟨hvalid, h.sent, fun hpos => absurd hpos hnone⟩
        | error =>
            cases hstep
            exact ⟨hvalid, h.sent, fun hpos => absurd hpos hnone⟩
        | unauthorized =>
            cases hstep
            exact ⟨h.valid, h.sent, fun hpos => absurd hpos hnone⟩

theorem sound_of_run {patterns : κ → Pattern UInt16} {actions : List (PageAction κ)}
    (hrun : run (step rules) (opened patterns) actions = some p) :
    p.Sound rules (opened patterns).form :=
  EventRun.invariant_of_run (I := Sound rules (opened patterns).form) (sound_opened patterns) hrun
    fun _ _ _ h hstep => sound_of_step h hstep

/-! ## What a page can send -/

/-- The taken texts come before anything is typed. -/
theorem exists_loads {texts : κ → Text} {against : κ → List Text} {keys : List κ}
    (hkeys : ∀ k ∈ keys, k ∈ rules.unique) (hfree : ∀ k ∈ keys, texts k ∉ against k)
    (htyped : p.form.Typed rules.toFormRules texts []) :
    ∃ q, run (step rules) p (keys.map fun k => .loaded k (against k)) = some q ∧
      q.frozen = p.frozen ∧ q.form.Typed rules.toFormRules texts [] ∧
      ∀ k, q.form.known k = if k ∈ keys then against k else p.form.known k := by
  induction keys generalizing p with
  | nil => exact ⟨p, rfl, rfl, htyped, fun k => (if_neg List.not_mem_nil).symm⟩
  | cons k keys ih =>
      have hstep : p.step rules (.loaded k (against k)) =
          some { p with form := p.form.load rules.toFormRules k (against k) } :=
        if_pos (hkeys k List.mem_cons_self)
      obtain ⟨q, hq, hfrozen, hqtyped, hknown⟩ :=
        ih (p := { p with form := p.form.load rules.toFormRules k (against k) })
          (fun k' hk' => hkeys k' (List.mem_cons_of_mem k hk'))
          (fun k' hk' => hfree k' (List.mem_cons_of_mem k hk'))
          (htyped.load (hfree k List.mem_cons_self))
      refine ⟨q, ?_, hfrozen, hqtyped, fun k' => ?_⟩
      · rw [List.map_cons, run, hstep]
        exact hq
      · have hload : (p.form.load rules.toFormRules k (against k)).known k' =
            Function.update p.form.known k (against k) k' := rfl
        rw [hknown k', hload]
        rcases eq_or_ne k' k with rfl | hne
        · rw [Function.update_self, if_pos List.mem_cons_self, ite_self]
        · rw [Function.update_of_ne hne]
          simp only [List.mem_cons, hne, false_or]

/-- Nothing keeps the texts of an open page from being typed. -/
theorem run_typed {texts : κ → Text} {keys : List κ} (hopen : ∀ k, p.frozen k = false) :
    run (step rules) p (keys.map fun k => .typed k (texts k)) = some { p with
      form := keys.foldl (fun f k => f.setText rules.toFormRules k (texts k)) p.form } := by
  induction keys generalizing p with
  | nil => rfl
  | cons k keys ih =>
      have hstep : p.step rules (.typed k (texts k)) =
          some { p with form := p.form.setText rules.toFormRules k (texts k) } := by
        simp only [step, hopen k, Bool.false_eq_true, if_false]
      rw [List.map_cons, run, hstep]
      exact ih hopen

theorem known_foldl_setText (texts : κ → Text) (keys : List κ) (f : Form κ) :
    (keys.foldl (fun f k => f.setText rules.toFormRules k (texts k)) f).known = f.known := by
  induction keys generalizing f with
  | nil => rfl
  | cons k keys ih => exact (ih _).trans (Form.known_setText f k (texts k))

/-- A click on an enabled button sends the texts. -/
theorem sends_of_enabled (henabled : p.form.disabled = false)
    (hfilled : ∀ k ∈ rules.required, p.form.text k ≠ []) :
    ∃ q, p.step rules .clicked = some q ∧
      ⟨p.form.text, p.form.checkedAgainst⟩ ∈ q.requests := by
  have hempties : (rules.required.any fun k => p.form.text k = []) = false := by
    rw [List.any_eq_false]
    intro k hk
    simpa using hfilled k hk
  refine ⟨{ p.disable with
    waiting := p.waiting + 1
    requests := p.requests ++ [⟨p.form.text, p.form.checkedAgainst⟩] }, ?_, ?_⟩
  · simp only [step, henabled, hempties, Bool.false_eq_true, if_false]
  · exact List.mem_append_right _ (List.mem_singleton.mpr rfl)

/-- A page whose texts are all required can send what is acceptable, and nothing else. -/
theorem sendable_iff (patterns : κ → Pattern UInt16) {r : FormRequest κ}
    (hrequired : ∀ k, k ∈ rules.required) (hnodup : rules.required.Nodup)
    (hsome : rules.required ≠ []) (hunique : ∀ k ∈ rules.unique, k ∈ rules.checked)
    (hagainst : ∀ k, k ∉ rules.unique → r.checkedAgainst k = []) :
    (∃ actions p, run (step rules) (opened patterns) actions = some p ∧ r ∈ p.requests) ↔
      Form.Acceptable rules.toFormRules (opened patterns).form r.texts r.checkedAgainst := by
  constructor
  · rintro ⟨actions, p, hrun, hr⟩
    exact (sound_of_run hrun).sent r hr
  · intro h
    have hfilled : ∀ k ∈ rules.required, r.texts k ≠ [] := h.filled
    have hfree : ∀ k ∈ rules.unique, r.texts k ∉ r.checkedAgainst k :=
      fun k hk => h.free k hk (hunique k hk)
    have htyped : (opened patterns).form.Typed rules.toFormRules r.texts [] := by
      refine ⟨fun _ => ⟨rfl, rfl⟩, fun k hk => ?_, fun _ _ => List.not_mem_nil, nofun,
        fun _ _ => rfl, fun hne => absurd rfl hne⟩
      exact (h.matching k hk).resolve_right (hfilled k (hrequired k))
    obtain ⟨q, hq, hfrozen, hqtyped, hknown⟩ :=
      exists_loads (p := opened patterns) (fun _ hk => hk) hfree htyped
    have hopen : ∀ k, q.frozen k = false := fun k => congrFun hfrozen k
    have hlast := hqtyped.foldl hnodup (fun _ _ => List.not_mem_nil) hfilled
    rw [List.append_nil] at hlast
    have hdone : rules.required.reverse ≠ [] := by simpa using hsome
    obtain ⟨henabled, htexts, hchecked⟩ := Form.enabled_of_typed hlast hdone hfilled
      fun k => List.mem_reverse.mpr (hrequired k)
    rw [known_foldl_setText] at hchecked
    have hagainst' : q.form.known = r.checkedAgainst := by
      funext k
      rw [hknown k]
      split
      · rfl
      · rename_i hk
        exact (hagainst k hk).symm
    rw [hagainst'] at hchecked
    obtain ⟨sent, hsent, hmem⟩ := sends_of_enabled
      (p := { q with
        form := rules.required.foldl (fun f k => f.setText rules.toFormRules k (r.texts k))
          q.form }) henabled
      (by rw [htexts]; exact hfilled)
    refine ⟨(rules.unique.map fun k => .loaded k (r.checkedAgainst k)) ++
      ((rules.required.map fun k => .typed k (r.texts k)) ++ [.clicked]), sent, ?_, ?_⟩
    · rw [run_append, hq, Option.bind_some, run_append, run_typed hopen, Option.bind_some, run,
        hsent]
      rfl
    · rw [htexts, hchecked] at hmem
      exact hmem

/-! ## Fields that stay disabled -/

/-- Once a request has been sent, a field that is not enabled again keeps its text, and every
request has had it. -/
def Fixed (k : κ) (p : Page κ) : Prop :=
  p.requests ≠ [] → p.frozen k = true ∧ ∀ r ∈ p.requests, r.texts k = p.form.text k

theorem fixed_of_step {k : κ} (hk : k ∉ rules.thawed) (h : p.Fixed k)
    (hstep : p.step rules action = some q) : q.Fixed k := by
  have henable : ∀ (s : Page κ), s.requests = p.requests → s.form.text = p.form.text →
      (s.enable rules).Fixed k := by
    intro s hrequests htext hsome
    have hold := h (hrequests ▸ hsome)
    refine ⟨by simpa [enable] using hk, fun r hr => ?_⟩
    change r.texts k = s.form.text k
    rw [htext]
    exact hold.2 r (hrequests ▸ hr)
  cases action with
  | typed k' value =>
      simp only [step] at hstep
      split at hstep
      · cases hstep
      · rename_i hopen
        cases hstep
        intro hsome
        obtain ⟨hfrozen, htexts⟩ := h hsome
        have hne : k ≠ k' := by
          rintro rfl
          exact hopen hfrozen
        refine ⟨hfrozen, fun r hr => ?_⟩
        rw [Form.text_setText_of_ne hne]
        exact htexts r hr
  | loaded k' texts =>
      simp only [step] at hstep
      split at hstep
      · cases hstep
        intro hsome
        refine ⟨(h hsome).1, fun r hr => ?_⟩
        rw [text_load]
        exact (h hsome).2 r hr
      · cases hstep
  | clicked =>
      simp only [step] at hstep
      split at hstep
      · cases hstep
      · split at hstep
        · cases hstep
          exact h
        · cases hstep
          intro _
          refine ⟨rfl, fun r hr => ?_⟩
          rcases List.mem_append.mp hr with hold | hnew
          · exact (h (List.ne_nil_of_mem hold)).2 r hold
          · obtain rfl := List.mem_singleton.mp hnew
            rfl
  | answered answer =>
      simp only [step] at hstep
      split at hstep
      · cases hstep
      · cases answer with
        | user =>
            cases hstep
            exact henable { p with waiting := p.waiting - 1 } rfl rfl
        | error =>
            cases hstep
            exact henable { p with waiting := p.waiting - 1 } rfl rfl
        | unauthorized =>
            cases hstep
            exact h

theorem fixed_of_run {patterns : κ → Pattern UInt16} {actions : List (PageAction κ)} {k : κ}
    (hk : k ∉ rules.thawed) (hrun : run (step rules) (opened patterns) actions = some p) :
    p.Fixed k :=
  EventRun.invariant_of_run (I := Fixed k) (fun hsome => absurd rfl hsome) hrun
    fun _ _ _ h hstep => fixed_of_step hk h hstep

theorem requests_agree {patterns : κ → Pattern UInt16} {actions : List (PageAction κ)} {k : κ}
    (hk : k ∉ rules.thawed) (hrun : run (step rules) (opened patterns) actions = some p)
    {r r' : FormRequest κ} (hr : r ∈ p.requests) (hr' : r' ∈ p.requests) :
    r.texts k = r'.texts k := by
  obtain ⟨-, htexts⟩ := fixed_of_run hk hrun (List.ne_nil_of_mem hr)
  exact (htexts r hr).trans (htexts r' hr').symm

end Page

/-! ## The page of authorization -/

inductive AuthorizationField
  | name
  | password
deriving DecidableEq, Repr

namespace AuthorizationPage

def patterns : AuthorizationField → Pattern UInt16
  | .name => userNameRegex
  | .password => passwordRegex

def rules : PageRules AuthorizationField where
  required := [.name, .password]
  checked := [.name, .password]
  unique := []
  thawed := [.name, .password]

def authorizationPage : Page AuthorizationField :=
  .opened patterns

def step : Page AuthorizationField → PageAction AuthorizationField →
    Option (Page AuthorizationField) :=
  Page.step rules

end AuthorizationPage

/-! ## The page of registration -/

inductive RegistrationField
  | fullName
  | email
  | name
  | password
deriving DecidableEq, Repr

namespace RegistrationPage

def patterns : RegistrationField → Pattern UInt16
  | .fullName => fullNameRegex
  | .email => emailRegex
  | .name => userNameRegex
  | .password => passwordRegex

/-- The error of the password is looked at twice, and that of the full name not at all; the
full name and the e-mail are not enabled again. -/
def rules : PageRules RegistrationField where
  required := [.name, .password, .fullName, .email]
  checked := [.name, .email, .password, .password]
  unique := [.name, .email]
  thawed := [.name, .password]

def registrationPage : Page RegistrationField :=
  .opened patterns

def step : Page RegistrationField → PageAction RegistrationField →
    Option (Page RegistrationField) :=
  Page.step rules

/-- The names and the e-mails that the page knew. -/
def against (names emails : List Text) : RegistrationField → List Text
  | .name => names
  | .email => emails
  | _ => []

end RegistrationPage

/-- What a text says that is not empty and does not miss its pattern. -/
theorem test_iff_filled {pattern : Pattern UInt16} {value : Text}
    (hempty : pattern.test [] = false) :
    pattern.test value = true ↔ value ≠ [] ∧ mismatch (some pattern) value = false := by
  constructor
  · intro htest
    refine ⟨?_, by simp [mismatch, htest]⟩
    rintro rfl
    rw [hempty] at htest
    cases htest
  · rintro ⟨hne, hmatch⟩
    simpa [mismatch, hne] using hmatch

/-- A text that is empty is what it was in the beginning; one that is not must be what its
pattern asks for. -/
theorem mismatch_or_empty_iff (pattern : Pattern UInt16) (value : Text) :
    mismatch (some pattern) value = false ∨ value = [] ↔ mismatch (some pattern) value = false := by
  refine or_iff_left_of_imp fun hempty => ?_
  simp [mismatch, hempty]

/-- A page of authorization can send exactly the names and passwords that are what their
patterns ask for. -/
theorem authorization_sendable_iff (texts : AuthorizationField → Text) :
    (∃ actions page, run AuthorizationPage.step AuthorizationPage.authorizationPage actions =
        some page ∧ ⟨texts, fun _ => []⟩ ∈ page.requests) ↔
      userNameRegex.test (texts .name) = true ∧ passwordRegex.test (texts .password) = true := by
  have hrequired : ∀ k, k ∈ AuthorizationPage.rules.required := by
    intro k
    cases k <;> decide
  have hsendable := Page.sendable_iff AuthorizationPage.patterns
    (r := ⟨texts, fun _ => []⟩) hrequired (by decide) (by decide) (by decide) fun _ _ => rfl
  rw [AuthorizationPage.step, AuthorizationPage.authorizationPage, hsendable,
    test_iff_filled (by decide), test_iff_filled (by decide)]
  constructor
  · rintro ⟨hfilled, hmatch, -⟩
    have hpattern := fun k hk => (mismatch_or_empty_iff _ _).mp (hmatch k hk)
    exact ⟨⟨hfilled .name (by decide), hpattern .name (by decide)⟩,
      hfilled .password (by decide), hpattern .password (by decide)⟩
  · rintro ⟨hname, hpassword⟩
    refine ⟨fun k _ => ?_, fun k _ => ?_, nofun⟩
    · cases k with
      | name => exact hname.1
      | password => exact hpassword.1
    · cases k with
      | name => exact .inl hname.2
      | password => exact .inl hpassword.2

section

open RegistrationPage

variable {actions : List (PageAction RegistrationField)} {page : Page RegistrationField}

/-- A page of registration can send exactly the texts whose name, e-mail and password are what
their patterns ask for and whose full name is not empty, if the name and the e-mail were not
known to be taken when a text was last typed. -/
theorem registration_sendable_iff (texts : RegistrationField → Text) (names emails : List Text) :
    (∃ actions page, run step registrationPage actions = some page ∧
        ⟨texts, against names emails⟩ ∈ page.requests) ↔
      userNameRegex.test (texts .name) = true ∧ passwordRegex.test (texts .password) = true ∧
        emailRegex.test (texts .email) = true ∧ texts .fullName ≠ [] ∧
        texts .name ∉ names ∧ texts .email ∉ emails := by
  have hrequired : ∀ k, k ∈ rules.required := by
    intro k
    cases k <;> decide
  have hagainst : ∀ k, k ∉ rules.unique → against names emails k = [] := by
    intro k hk
    cases k with
    | name => exact absurd (by decide) hk
    | email => exact absurd (by decide) hk
    | fullName => rfl
    | password => rfl
  have hsendable := Page.sendable_iff patterns
    (r := ⟨texts, against names emails⟩) hrequired (by decide) (by decide) (by decide) hagainst
  rw [step, registrationPage, hsendable, test_iff_filled (by decide), test_iff_filled (by decide),
    test_iff_filled (by decide)]
  constructor
  · rintro ⟨hfilled, hmatch, hfree⟩
    have hpattern := fun k hk => (mismatch_or_empty_iff _ _).mp (hmatch k hk)
    exact ⟨⟨hfilled .name (by decide), hpattern .name (by decide)⟩,
      ⟨hfilled .password (by decide), hpattern .password (by decide)⟩,
      ⟨hfilled .email (by decide), hpattern .email (by decide)⟩, hfilled .fullName (by decide),
      hfree .name (by decide) (by decide), hfree .email (by decide) (by decide)⟩
  · rintro ⟨hname, hpassword, hemail, hfullName, hnames, hemails⟩
    refine ⟨fun k _ => ?_, fun k hk => ?_, fun k hk _ => ?_⟩
    · cases k with
      | name => exact hname.1
      | password => exact hpassword.1
      | email => exact hemail.1
      | fullName => exact hfullName
    · cases k with
      | name => exact .inl hname.2
      | password => exact .inl hpassword.2
      | email => exact .inl hemail.2
      | fullName => exact absurd hk (by decide)
    · cases k with
      | name => exact hnames
      | email => exact hemails
      | password => exact absurd hk (by decide)
      | fullName => exact absurd hk (by decide)

/-- All requests of one page of registration have the same full name and the same e-mail, since
neither can be typed once a request has been sent; and at most one of them waits. -/
theorem registration_identity (hrun : run step registrationPage actions = some page) :
    (∀ r ∈ page.requests, ∀ r' ∈ page.requests,
      r.texts .fullName = r'.texts .fullName ∧ r.texts .email = r'.texts .email) ∧
      page.waiting ≤ 1 := by
  refine ⟨fun r hr r' hr' => ?_, ?_⟩
  · exact ⟨Page.requests_agree (by decide) hrun hr hr', Page.requests_agree (by decide) hrun hr hr'⟩
  · rcases Nat.eq_zero_or_pos page.waiting with hzero | hpos
    · omega
    · exact ((Page.sound_of_run hrun).still hpos).1.le

/-- A registration with a full name of one letter fails, and is sent again under another
name. -/
def retried : List (PageAction RegistrationField) :=
  [.typed .name (units ['a', 'n', 'n']), .typed .password (units ['x', 'y', 'z']),
    .typed .fullName (units ['A']), .typed .email (units ['a', '@', 'b', '.', 'r', 'u']),
    .clicked, .answered .error, .typed .name (units ['b', 'o', 'b']), .clicked]

theorem exists_retried : ∃ page, run step registrationPage retried = some page ∧
    page.requests.map (fun r => (r.texts .name, r.texts .email)) =
      [(units ['a', 'n', 'n'], units ['a', '@', 'b', '.', 'r', 'u']),
        (units ['b', 'o', 'b'], units ['a', '@', 'b', '.', 'r', 'u'])] := by
  have hsent : (run step registrationPage retried).map
      (fun page => page.requests.map fun r => (r.texts .name, r.texts .email)) =
        some [(units ['a', 'n', 'n'], units ['a', '@', 'b', '.', 'r', 'u']),
          (units ['b', 'o', 'b'], units ['a', '@', 'b', '.', 'r', 'u'])] := by
    decide +kernel
  exact Option.map_eq_some_iff.mp hsent

theorem registration_identity_retried : ∃ page, run step registrationPage retried = some page ∧
    (∀ r ∈ page.requests, ∀ r' ∈ page.requests,
      r.texts .fullName = r'.texts .fullName ∧ r.texts .email = r'.texts .email) ∧
      page.waiting ≤ 1 := by
  obtain ⟨page, hpage, -⟩ := exists_retried
  exact ⟨page, hpage, registration_identity hpage⟩

/-! ## A registration that is refused -/

def registrationRequest (decode : Text → String) (r : FormRequest RegistrationField) :
    UserRegistrationRequest where
  name := decode (r.texts .name)
  fullName := decode (r.texts .fullName)
  password := decode (r.texts .password)
  email := decode (r.texts .email)

/-- When the e-mail of one request of a page belongs to a stored user, the panel refuses every
request of this page. -/
theorem registration_taken_email (hrun : run step registrationPage actions = some page)
    {r r' : FormRequest RegistrationField} (hr : r ∈ page.requests) (hr' : r' ∈ page.requests)
    {decode : Text → String} {s : UserDatabase} {user : User} (hstored : user ∈ s.users.rows)
    (htaken : user.email = decode (r.texts .email)) (env : UserEnvironment) (now : Nat) :
    ∃ failure s', UserService.registerUser env (registrationRequest decode r') now s =
      .error failure s' := by
  have hsame : r.texts .email = r'.texts .email :=
    Page.requests_agree (by decide) hrun hr hr'
  have hexists : UserService.AlreadyExists (registrationRequest decode r') s := by
    refine ⟨user, hstored, .inr ?_⟩
    rw [htaken, hsame, registrationRequest]
  rw [UserService.registerUser_eq]
  split
  · exact ⟨_, _, rfl⟩
  · rw [if_pos ((UserService.alreadyExists_iff _ s).mp hexists)]
    exact ⟨_, _, rfl⟩

/-- A panel with a user who has the e-mail of the retried registration. -/
def panelWithEmail : UserDatabase where
  users := Space.empty.put
    { id := 1, name := "cid", token := "t", fullName := "Cid", password := [], email := "a@b.ru",
      updateTimeStamp := 0 }
  tokens := .empty

def panelEnvironment : UserEnvironment where
  administratorName := "admin"
  administratorPassword := "secret"
  defaultUserRights := []
  createToken name now := name ++ toString now
  verifies _ _ := true
  text _ := ""

def decodeUnits (text : Text) : String :=
  String.ofList (text.map fun c => Char.ofNat c.toNat)

theorem registration_taken_email_retried :
    ∃ page, run step registrationPage retried = some page ∧ page.requests ≠ [] ∧
      ∀ r' ∈ page.requests, ∃ failure s',
        UserService.registerUser panelEnvironment (registrationRequest decodeUnits r') 7
          panelWithEmail = .error failure s' := by
  obtain ⟨page, hpage, hsent⟩ := exists_retried
  have hfirst : (units ['a', 'n', 'n'], units ['a', '@', 'b', '.', 'r', 'u']) ∈
      page.requests.map fun r => (r.texts .name, r.texts .email) := by
    rw [hsent]
    exact List.mem_cons_self
  obtain ⟨r, hr, hpair⟩ := List.mem_map.mp hfirst
  refine ⟨page, hpage, List.ne_nil_of_mem hr, fun r' hr' => ?_⟩
  refine registration_taken_email hpage hr hr' (s := panelWithEmail) List.mem_cons_self ?_ _ _
  rw [(Prod.mk.inj hpair).2]
  decide +kernel

end

end ArtPlatform.Web
