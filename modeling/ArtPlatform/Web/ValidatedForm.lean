import ArtPlatform.Web.PortField
import Mathlib.Logic.Function.Basic

/-!
# Validated forms

A form has text fields and a button.  Whenever a text changes, the form marks the fields whose
text is taken and enables or disables its button.  The taken texts are loaded meanwhile: when
they come, the fields are marked, but the button is left as it is.

Main results:

- Theorem `TextField.Checked.setText`: what is known of the text of a field without an error.
- Theorem `Form.valid_validate`: what an enabled button says.
- Theorems `Form.Valid.setText` and `Form.Valid.load`: it goes on saying it.
- Theorem `Form.enabled_of_typed`: acceptable texts, typed one after the other, enable the
  button.
-/

namespace ArtPlatform.Web

open Regex TextField

/-! ## Text fields -/

/-- The text is what its pattern asks for, or has been there from the beginning. -/
def TextField.SoundText (initial : Text) (s : TextField) : Prop :=
  mismatch s.regexp s.text = false ∨ s.text = initial

/-- An unmarked field has a sound text.  A field with further rules has one anyway: its mask is
its pattern. -/
def TextField.Checked (initial : Text) (s : TextField) : Prop :=
  s.prevents = [] ∧ (s.error = false → s.SoundText initial) ∨
    s.mask = s.regexp ∧ s.SoundText initial

namespace TextField

variable {s : TextField} {initial value : Text}

theorem regexp_setText (s : TextField) (value : Text) : (s.setText value).regexp = s.regexp := by
  unfold setText
  split
  · rfl
  · split
    · rfl
    · dsimp only
      split <;> rfl

/-- A proposed text is taken over or refused. -/
theorem text_setText_or (s : TextField) (value : Text) :
    (s.setText value).text = value ∨ (s.setText value).text = s.text := by
  unfold setText
  split
  · exact .inr rfl
  · split
    · exact .inr rfl
    · dsimp only
      split
      · exact .inl rfl
      · exact .inr rfl

theorem rules_setText (s : TextField) (value : Text) :
    (s.setText value).mask = s.mask ∧ (s.setText value).prevents = s.prevents := by
  unfold setText
  split
  · exact ⟨rfl, rfl⟩
  · split
    · exact ⟨rfl, rfl⟩
    · dsimp only
      split
      · exact ⟨rfl, rfl⟩
      · exact ⟨rfl, rfl⟩

/-- What is known of the text of a field stays known when a text is proposed. -/
theorem Checked.setText (h : s.Checked initial) (value : Text) :
    (s.setText value).Checked initial := by
  unfold TextField.setText
  split
  · exact h
  · rename_i hne
    split
    · exact h
    · rename_i hmask
      dsimp only
      rcases h with ⟨hprevents, -⟩ | ⟨hrules, hsound⟩
      · have hlets : (s.prevents.all fun lets => lets value) = true := by rw [hprevents]; rfl
        rw [if_pos hlets]
        exact .inl ⟨hprevents, fun herror => .inl herror⟩
      · have hmatch : mismatch s.regexp value = false := by
          rw [← hrules]
          exact Bool.eq_false_of_not_eq_true hmask
        split
        · exact .inr ⟨hrules, .inl hmatch⟩
        · exact .inr ⟨hrules, hsound⟩

theorem Checked.mark (h : s.Checked initial) : Checked initial { s with error := true } := by
  rcases h with ⟨hprevents, -⟩ | h
  · exact .inl ⟨hprevents, nofun⟩
  · exact .inr h

/-- A field without further rules takes over every text. -/
theorem setText_of_plain (hmask : s.mask = none) (hprevents : s.prevents = [])
    (hne : s.text ≠ value) :
    s.setText value = { s with text := value, error := mismatch s.regexp value } := by
  have hlets : (s.prevents.all fun lets => lets value) = true := by rw [hprevents]; rfl
  have hpass : ¬ mismatch s.mask value = true := by simp [hmask, mismatch]
  unfold TextField.setText
  rw [if_neg hne, if_neg hpass]
  dsimp only
  rw [if_pos hlets]

/-- A field without further rules can be cleared. -/
theorem text_clear_of_plain (hprevents : s.prevents = []) : (s.setText []).text = [] := by
  have hpass : ¬ mismatch s.mask [] = true := by simp [mismatch]
  have hlets : (s.prevents.all fun lets => lets []) = true := by
    rw [hprevents]
    rfl
  rcases eq_or_ne s.text [] with hempty | hne
  · unfold TextField.setText
    rw [if_pos hempty]
    exact hempty
  · unfold TextField.setText
    rw [if_neg hne, if_neg hpass]
    dsimp only
    rw [if_pos hlets]

end TextField

/-! ## Forms -/

/-- What a form asks of its texts: which must not be empty, which fields must not be marked,
and in which fields a text may be taken. -/
structure FormRules (κ : Type) where
  required : List κ
  checked : List κ
  unique : List κ

/-- A form, with the taken texts that it knows.  It remembers which it knew when it was last
validated; no action depends on that. -/
structure Form (κ : Type) where
  fields : κ → TextField
  known : κ → List Text := fun _ => []
  disabled : Bool := true
  checkedAgainst : κ → List Text := fun _ => []

/-- The texts of a request.  The taken texts that the form knew when it was last validated are
kept with them; nothing depends on that. -/
structure FormRequest (κ : Type) where
  texts : κ → Text
  checkedAgainst : κ → List Text

namespace Form

variable {κ : Type} [DecidableEq κ] (rules : FormRules κ)

def text (f : Form κ) (k : κ) : Text :=
  (f.fields k).text

def validateDuplicates (f : Form κ) : Form κ :=
  { f with fields := fun k =>
      if k ∈ rules.unique ∧ (f.known k).contains (f.text k) then { f.fields k with error := true }
      else f.fields k }

def validate (f : Form κ) : Form κ :=
  let marked := f.validateDuplicates rules
  { marked with
    disabled := rules.required.any (fun k => marked.text k = []) ||
      rules.checked.any fun k => (marked.fields k).error
    checkedAgainst := marked.known }

/-- The field of a text that is proposed. -/
def propose (f : Form κ) (k : κ) (value : Text) : Form κ :=
  { f with fields := Function.update f.fields k ((f.fields k).setText value) }

/-- A proposed text.  The form is validated when the text of the field changes. -/
def setText (f : Form κ) (k : κ) (value : Text) : Form κ :=
  let proposed := f.propose k value
  if proposed.text k = f.text k then proposed else proposed.validate rules

/-- The taken texts of a field come. -/
def load (f : Form κ) (k : κ) (texts : List Text) : Form κ :=
  validateDuplicates rules { f with known := Function.update f.known k texts }

variable {rules} {f start : Form κ} {k : κ}

@[simp]
theorem text_validateDuplicates (f : Form κ) (k : κ) :
    (f.validateDuplicates rules).text k = f.text k := by
  unfold validateDuplicates text
  dsimp only
  split <;> rfl

@[simp]
theorem regexp_validateDuplicates (rules : FormRules κ) (f : Form κ) (k : κ) :
    ((f.validateDuplicates rules).fields k).regexp = (f.fields k).regexp := by
  unfold validateDuplicates
  dsimp only
  split <;> rfl

theorem prevents_validateDuplicates (rules : FormRules κ) (f : Form κ) (k : κ) :
    ((f.validateDuplicates rules).fields k).prevents = (f.fields k).prevents := by
  unfold validateDuplicates
  dsimp only
  split <;> rfl

/-- A taken text is marked. -/
theorem error_validateDuplicates (hunique : k ∈ rules.unique) (htaken : f.text k ∈ f.known k) :
    ((f.validateDuplicates rules).fields k).error = true := by
  unfold validateDuplicates
  dsimp only
  rw [if_pos ⟨hunique, List.contains_iff_mem.mpr htaken⟩]

theorem fields_validateDuplicates (hfree : k ∈ rules.unique → f.text k ∉ f.known k) :
    (f.validateDuplicates rules).fields k = f.fields k := by
  unfold validateDuplicates
  dsimp only
  rw [if_neg fun h => hfree h.1 (List.contains_iff_mem.mp h.2)]

@[simp]
theorem text_validate (f : Form κ) (k : κ) : (f.validate rules).text k = f.text k :=
  text_validateDuplicates f k

theorem fields_propose_self (f : Form κ) (k : κ) (value : Text) :
    (f.propose k value).fields k = (f.fields k).setText value :=
  Function.update_self ..

theorem text_propose_self (f : Form κ) (k : κ) (value : Text) :
    (f.propose k value).text k = ((f.fields k).setText value).text :=
  congrArg TextField.text (fields_propose_self f k value)

theorem fields_propose_of_ne {k' : κ} (h : k' ≠ k) (value : Text) :
    (f.propose k value).fields k' = f.fields k' :=
  Function.update_of_ne h _ _

theorem text_propose_of_ne {k' : κ} (h : k' ≠ k) (value : Text) :
    (f.propose k value).text k' = f.text k' :=
  congrArg TextField.text (fields_propose_of_ne h value)

theorem regexp_propose (f : Form κ) (k : κ) (value : Text) (k' : κ) :
    ((f.propose k value).fields k').regexp = (f.fields k').regexp := by
  rcases eq_or_ne k' k with rfl | hne
  · rw [fields_propose_self, regexp_setText]
  · rw [fields_propose_of_ne hne]

theorem rules_propose (f : Form κ) (k : κ) (value : Text) (k' : κ) :
    ((f.propose k value).fields k').mask = (f.fields k').mask ∧
      ((f.propose k value).fields k').prevents = (f.fields k').prevents := by
  rcases eq_or_ne k' k with rfl | hne
  · rw [fields_propose_self]
    exact rules_setText _ _
  · rw [fields_propose_of_ne hne]
    exact ⟨rfl, rfl⟩

theorem text_setText_of_ne {k' : κ} (h : k' ≠ k) (value : Text) :
    (f.setText rules k value).text k' = f.text k' := by
  unfold setText
  dsimp only
  split
  · exact text_propose_of_ne h value
  · rw [text_validate, text_propose_of_ne h]

theorem known_setText (f : Form κ) (k : κ) (value : Text) :
    (f.setText rules k value).known = f.known := by
  unfold setText
  dsimp only
  split <;> rfl

theorem prevents_setText (f : Form κ) (k : κ) (value : Text) (k' : κ) :
    ((f.setText rules k value).fields k').prevents = (f.fields k').prevents := by
  have hpropose := (rules_propose f k value k').2
  unfold setText
  dsimp only
  split
  · exact hpropose
  · exact (prevents_validateDuplicates rules _ k').trans hpropose

/-- A required text that is empty disables the button. -/
theorem disabled_validate_of_empty (hk : k ∈ rules.required) (hempty : f.text k = []) :
    (f.validate rules).disabled = true := by
  have hany : (rules.required.any fun k => (f.validateDuplicates rules).text k = []) = true :=
    List.any_eq_true.mpr ⟨k, hk, by simpa using hempty⟩
  unfold validate
  dsimp only
  rw [hany, Bool.true_or]

/-- A form with an empty required text and a disabled button stays so when a field is
cleared. -/
theorem disabled_clear {n : κ} (hn : n ∈ rules.required) (hdisabled : f.disabled = true)
    (hempty : f.text n = []) (k : κ) :
    (f.setText rules k []).disabled = true ∧ (f.setText rules k []).text n = [] := by
  have htext : (f.propose k []).text n = [] := by
    rcases eq_or_ne n k with rfl | hne
    · rw [text_propose_self]
      rcases text_setText_or (f.fields n) [] with htaken | hstays
      · exact htaken
      · exact hstays.trans hempty
    · rw [text_propose_of_ne hne, hempty]
  unfold setText
  dsimp only
  split
  · exact ⟨hdisabled, htext⟩
  · exact ⟨disabled_validate_of_empty hn htext, (text_validate _ n).trans htext⟩

/-! ## What an enabled button says -/

/-- What texts must be to be accepted, against taken texts. -/
structure Acceptable (rules : FormRules κ) (start : Form κ) (texts : κ → Text)
    (against : κ → List Text) : Prop where
  filled : ∀ k ∈ rules.required, texts k ≠ []
  matching : ∀ k ∈ rules.checked,
    mismatch (start.fields k).regexp (texts k) = false ∨ texts k = start.text k
  free : ∀ k ∈ rules.unique, k ∈ rules.checked → texts k ∉ against k

/-- What holds of a form that began as another one. -/
structure Valid (rules : FormRules κ) (f start : Form κ) : Prop where
  regexp : ∀ k, (f.fields k).regexp = (start.fields k).regexp
  checked : ∀ k, (f.fields k).Checked (start.text k)
  acceptable : f.disabled = false → Acceptable rules start f.text f.checkedAgainst

theorem checked_validateDuplicates (rules : FormRules κ)
    (h : ∀ k, (f.fields k).Checked (start.text k)) (k : κ) :
    ((f.validateDuplicates rules).fields k).Checked (start.text k) := by
  unfold validateDuplicates
  dsimp only
  split
  · exact (h k).mark
  · exact h k

omit [DecidableEq κ] in
theorem soundText_of_error (hregexp : ∀ k, (f.fields k).regexp = (start.fields k).regexp)
    (hchecked : ∀ k, (f.fields k).Checked (start.text k)) (herror : (f.fields k).error = false) :
    mismatch (start.fields k).regexp (f.text k) = false ∨ f.text k = start.text k := by
  rw [← hregexp k]
  rcases hchecked k with ⟨-, hsound⟩ | ⟨-, hsound⟩
  · exact hsound herror
  · exact hsound

/-- After a validation an enabled button says that the texts are acceptable. -/
theorem valid_validate (hregexp : ∀ k, (f.fields k).regexp = (start.fields k).regexp)
    (hchecked : ∀ k, (f.fields k).Checked (start.text k)) :
    (f.validate rules).Valid rules start := by
  have hregexp' : ∀ k,
      ((f.validateDuplicates rules).fields k).regexp = (start.fields k).regexp :=
    fun k => (regexp_validateDuplicates rules f k).trans (hregexp k)
  have hchecked' := checked_validateDuplicates rules hchecked
  refine ⟨hregexp', hchecked', fun henabled => ?_⟩
  obtain ⟨hempties, herrors⟩ := Bool.or_eq_false_iff.mp henabled
  rw [List.any_eq_false] at hempties herrors
  have herror : ∀ k ∈ rules.checked,
      ((f.validateDuplicates rules).fields k).error = false :=
    fun k hk => Bool.eq_false_of_not_eq_true (herrors k hk)
  refine ⟨fun k hk => ?_, fun k hk => ?_, fun k hunique hk htaken => ?_⟩
  · simpa using hempties k hk
  · exact soundText_of_error hregexp' hchecked' (herror k hk)
  · rw [text_validate] at htaken
    have hmarked := error_validateDuplicates hunique htaken
    rw [herror k hk] at hmarked
    cases hmarked

theorem Valid.regexp_propose (h : f.Valid rules start) (k : κ) (value : Text) (k' : κ) :
    ((f.propose k value).fields k').regexp = (start.fields k').regexp :=
  (Form.regexp_propose f k value k').trans (h.regexp k')

theorem Valid.checked_propose (h : f.Valid rules start) (k : κ) (value : Text) (k' : κ) :
    ((f.propose k value).fields k').Checked (start.text k') := by
  rcases eq_or_ne k' k with rfl | hne
  · rw [fields_propose_self]
    exact (h.checked k').setText value
  · rw [fields_propose_of_ne hne]
    exact h.checked k'

/-- A text that is refused changes no text. -/
theorem Valid.propose (h : f.Valid rules start) {value : Text}
    (hsame : (f.propose k value).text k = f.text k) :
    (f.propose k value).Valid rules start := by
  refine ⟨h.regexp_propose k value, h.checked_propose k value, fun henabled => ?_⟩
  have htexts : (f.propose k value).text = f.text := by
    funext k'
    rcases eq_or_ne k' k with rfl | hne
    · exact hsame
    · exact text_propose_of_ne hne value
  rw [htexts]
  exact h.acceptable henabled

/-- The first required text is cleared, and the button is disabled if it was not. -/
theorem Valid.disabled_clear (h : f.Valid rules start) {n : κ} (hn : n ∈ rules.required)
    (hprevents : (f.fields n).prevents = []) :
    (f.setText rules n []).disabled = true ∧ (f.setText rules n []).text n = [] := by
  have htext : (f.propose n []).text n = [] := by
    rw [text_propose_self]
    exact text_clear_of_plain hprevents
  unfold Form.setText
  dsimp only
  split
  · rename_i hsame
    refine ⟨?_, htext⟩
    cases hdisabled : f.disabled with
    | true => exact hdisabled
    | false =>
        have hempty := hsame.symm.trans htext
        exact absurd hempty ((h.acceptable hdisabled).filled n hn)
  · exact ⟨disabled_validate_of_empty hn htext, (text_validate _ n).trans htext⟩

theorem Valid.setText (h : f.Valid rules start) (k : κ) (value : Text) :
    (f.setText rules k value).Valid rules start := by
  unfold Form.setText
  dsimp only
  split
  · rename_i hsame
    exact h.propose hsame
  · exact valid_validate (h.regexp_propose k value) (h.checked_propose k value)

theorem Valid.load (h : f.Valid rules start) (k : κ) (texts : List Text) :
    (f.load rules k texts).Valid rules start := by
  refine ⟨fun k' => (regexp_validateDuplicates rules _ k').trans (h.regexp k'),
    checked_validateDuplicates rules h.checked, fun henabled => ?_⟩
  have htexts : (f.load rules k texts).text = f.text := by
    funext k'
    exact text_validateDuplicates _ k'
  rw [htexts]
  exact h.acceptable henabled

/-! ## Typing acceptable texts -/

/-- The button is as the last validation has left it, and so are the fields. -/
def Judged (rules : FormRules κ) (f : Form κ) : Prop :=
  f.disabled = (rules.required.any (fun k => f.text k = []) ||
      rules.checked.any fun k => (f.fields k).error) ∧
    f.checkedAgainst = f.known

theorem judged_validate (f : Form κ) : (f.validate rules).Judged rules :=
  ⟨rfl, rfl⟩

/-- The first fields have been typed, and the others are empty. -/
structure Typed (rules : FormRules κ) (texts : κ → Text) (done : List κ) (f : Form κ) : Prop where
  plain : ∀ k, (f.fields k).mask = none ∧ (f.fields k).prevents = []
  matching : ∀ k ∈ rules.checked, mismatch (f.fields k).regexp (texts k) = false
  free : ∀ k ∈ rules.unique, texts k ∉ f.known k
  typed : ∀ k ∈ done, f.text k = texts k ∧ (k ∈ rules.checked → (f.fields k).error = false)
  untyped : ∀ k, k ∉ done → f.text k = []
  judged : done ≠ [] → f.Judged rules

variable {texts : κ → Text} {done keys : List κ}

/-- One field more. -/
theorem Typed.setText (h : f.Typed rules texts done) (hk : k ∉ done) (hfilled : texts k ≠ []) :
    (f.setText rules k (texts k)).Typed rules texts (k :: done) := by
  have hne : f.text k ≠ texts k := by
    rw [h.untyped k hk]
    exact hfilled.symm
  have hfield : (f.propose k (texts k)).fields k =
      { f.fields k with text := texts k, error := mismatch (f.fields k).regexp (texts k) } := by
    rw [fields_propose_self]
    exact setText_of_plain (h.plain k).1 (h.plain k).2 hne
  have htext : (f.propose k (texts k)).text k = texts k := congrArg TextField.text hfield
  have hchanged : (f.propose k (texts k)).text k ≠ f.text k := by
    rw [htext]
    exact hne.symm
  have hvalidated : f.setText rules k (texts k) = (f.propose k (texts k)).validate rules :=
    if_neg hchanged
  -- a typed text is free, so that the marking leaves its field alone
  have hdone : ∀ k' ∈ k :: done, (f.propose k (texts k)).text k' = texts k' ∧
      (k' ∈ rules.checked → ((f.propose k (texts k)).fields k').error = false) := by
    intro k' hk'
    rcases eq_or_ne k' k with rfl | hother
    · refine ⟨htext, fun hchecked => ?_⟩
      rw [hfield]
      exact h.matching k' hchecked
    · rw [text_propose_of_ne hother, fields_propose_of_ne hother]
      exact h.typed k' (List.mem_of_ne_of_mem hother hk')
  rw [hvalidated]
  refine ⟨fun k' => ?_, fun k' hchecked => ?_, h.free, fun k' hk' => ?_, fun k' hk' => ?_,
    fun _ => judged_validate _⟩
  · have hrules := rules_propose f k (texts k) k'
    unfold validate validateDuplicates
    dsimp only
    split
    · exact ⟨hrules.1.trans (h.plain k').1, hrules.2.trans (h.plain k').2⟩
    · exact ⟨hrules.1.trans (h.plain k').1, hrules.2.trans (h.plain k').2⟩
  · have hsame := (regexp_validateDuplicates rules (f.propose k (texts k)) k').trans
      (regexp_propose f k (texts k) k')
    exact (congrArg (mismatch · (texts k')) hsame).trans (h.matching k' hchecked)
  · have hleft : ((f.propose k (texts k)).validateDuplicates rules).fields k' =
        (f.propose k (texts k)).fields k' := by
      refine fields_validateDuplicates fun hunique => ?_
      rw [(hdone k' hk').1]
      exact h.free k' hunique
    refine ⟨(text_validate _ k').trans (hdone k' hk').1, fun hchecked => ?_⟩
    exact (congrArg TextField.error hleft).trans ((hdone k' hk').2 hchecked)
  · rw [List.mem_cons, not_or] at hk'
    rw [text_validate, text_propose_of_ne hk'.1]
    exact h.untyped k' hk'.2

/-- Taken texts that leave the texts free do not matter before. -/
theorem Typed.load (h : f.Typed rules texts []) {taken : List Text} (hfree : texts k ∉ taken) :
    (f.load rules k taken).Typed rules texts [] := by
  refine ⟨fun k' => ?_, fun k' hchecked => ?_, fun k' hunique => ?_, nofun, fun k' hk' => ?_,
    fun hne => absurd rfl hne⟩
  · unfold Form.load validateDuplicates
    dsimp only
    split
    · exact h.plain k'
    · exact h.plain k'
  · have hsame := regexp_validateDuplicates rules
      { f with known := Function.update f.known k taken } k'
    exact (congrArg (mismatch · (texts k')) hsame).trans (h.matching k' hchecked)
  · change texts k' ∉ Function.update f.known k taken k'
    rcases eq_or_ne k' k with rfl | hother
    · rwa [Function.update_self]
    · rw [Function.update_of_ne hother]
      exact h.free k' hunique
  · exact (text_validateDuplicates _ k').trans (h.untyped k' hk')

/-- All fields, one after the other. -/
theorem Typed.foldl (h : f.Typed rules texts done) (hkeys : keys.Nodup)
    (hnew : ∀ k ∈ keys, k ∉ done) (hfilled : ∀ k ∈ keys, texts k ≠ []) :
    ((keys.foldl (fun f k => f.setText rules k (texts k)) f).Typed rules texts
      (keys.reverse ++ done)) := by
  induction keys generalizing f done with
  | nil => exact h
  | cons k keys ih =>
      rw [List.nodup_cons] at hkeys
      rw [List.foldl_cons, List.reverse_cons, List.append_assoc, List.singleton_append]
      refine ih (h.setText (hnew k List.mem_cons_self) (hfilled k List.mem_cons_self)) hkeys.2
        ?_ fun k' hk' => hfilled k' (List.mem_cons_of_mem k hk')
      intro k' hk'
      rw [List.mem_cons, not_or]
      refine ⟨?_, hnew k' (List.mem_cons_of_mem k hk')⟩
      rintro rfl
      exact hkeys.1 hk'

omit [DecidableEq κ] in
/-- Acceptable texts, typed one after the other, enable the button. -/
theorem enabled_of_typed (h : f.Typed rules texts done) (hdone : done ≠ [])
    (hfilled : ∀ k ∈ rules.required, texts k ≠ []) (hall : ∀ k, k ∈ done) :
    f.disabled = false ∧ f.text = texts ∧ f.checkedAgainst = f.known := by
  have htexts : f.text = texts := funext fun k => (h.typed k (hall k)).1
  obtain ⟨hdisabled, hagainst⟩ := h.judged hdone
  refine ⟨?_, htexts, hagainst⟩
  rw [hdisabled, htexts, Bool.or_eq_false_iff, List.any_eq_false, List.any_eq_false]
  refine ⟨fun k hk => ?_, fun k hk => ?_⟩
  · simpa using hfilled k hk
  · rw [(h.typed k (hall k)).2 hk]
    exact Bool.false_ne_true

end Form

end ArtPlatform.Web
