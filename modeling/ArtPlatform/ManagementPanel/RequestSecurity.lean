import ArtPlatform.Foundation.Interleaving
import ArtPlatform.ManagementPanel.UserService

/-!
# Admission of requests

Every request but five passes an interceptor before its service: the metadata must be the
text of a token that is stored and verifies, and a user must have this token, who becomes
the user of the session.  Users and tokens are written by the requests themselves, one
operation of the database at a time, so the admissions, the authorizations, the
registrations and the other writers of users interleave in any order.

Main results:

- Theorem `keeps_perform`: what the operations of the database keep, every step keeps.
- Theorem `sound_of_run`: what is known of every step that is under way.
- Theorem `admission_sound`: a request that is admitted has a token that the panel issued
  and verified, and acts for the one user who has it.
- Theorem `issued_token_admitted`: a token that was given to a user is admitted as long as
  it verifies and nobody else writes this user.
- Theorem `renewed_token_lost`: a project is added while a token is renewed.
-/

namespace ArtPlatform

namespace UserDatabase

def getUserByToken (token : String) : PanelAction UserDatabase User := do
  let user ← PanelAction.orElseThrow ((← get).users.getByIndex User.token token)
    ⟨.userDoesNotExists, s!"User with token '{token}' does not exist"⟩
  pure { user with password := decrypt user.password }

end UserDatabase

open UserDatabase UserService Interleaving

namespace Security

/-! ## Requests -/

/-- The metadata of a request, as far as the interceptor tells them apart. -/
inductive MetadataValue
  | primitive (text : String)
  | other
deriving DecidableEq, Repr

/-- The functions that write users and tokens, those that are public, and the others. -/
inductive Function
  | authenticate (token : String)
  | authorize (request : UserAuthorizationRequest)
  | registerUser (request : UserRegistrationRequest)
  | getUserNames
  | getUserEmails
  | addProject (projectId : Nat)
  | updateUser (user : User)
  | deleteUser (id : Nat)
  | other (functionId : String)

/-- The functions that the predicate of the interceptor leaves out. -/
def Function.isPublic : Function → Bool
  | .authenticate _ | .authorize _ | .getUserNames | .getUserEmails | .registerUser _ => true
  | .addProject _ | .updateUser _ | .deleteUser _ | .other _ => false

structure Request where
  metadata : Option MetadataValue
  function : Function

/-- What the thread of a request does next. -/
inductive Task
  | receive (r : Request)
  | checkToken (r : Request) (token : String)
  | findUser (r : Request) (token : String) (valid : Bool)
  | serve (r : Request) (localUser : Option User)
  | answerOwner (token : String)
  | findByEmail (request : UserAuthorizationRequest)
  | checkUserToken (request : UserAuthorizationRequest) (user : User)
  | renewToken (request : UserAuthorizationRequest) (user : User)
  | putRenewed (user : User)
  | findNamed (request : UserRegistrationRequest) (token : String)
  | findMailed (request : UserRegistrationRequest) (token : String)
  | insertRegistered (request : UserRegistrationRequest) (token : String)
  | readOwner (id projectId : Nat)
  | putOwner (user : User) (projectId : Nat)
  | answer (user : User)

namespace Task

variable (env : UserEnvironment)

/-- A user that an authorization has found. -/
def checkPassword (request : UserAuthorizationRequest) (user : User) : List Task :=
  if env.text user.password ≠ request.password then [] else [.checkUserToken request user]

/-- The first step of a service. -/
def start (now : Nat) (localUser : Option User) :
    Function → PanelAction UserDatabase (List Task)
  | .authenticate token => do
      let valid ← UserService.checkToken env token now
      pure (if valid then [.answerOwner token] else [])
  | .authorize request => do
      match ← getUserByName request.name with
      | some user => pure (checkPassword env request user)
      | none => pure [.findByEmail request]
  | .registerUser request => do
      let token ← generateToken env request.name now
      pure [.findNamed request token]
  | .addProject projectId =>
      -- without a user of the session the service fails
      pure (localUser.toList.map fun user => .readOwner user.id projectId)
  | .updateUser user => do
      let stored ← putUser user now
      pure [.answer stored]
  | .deleteUser id => do
      let user ← UserDatabase.deleteUser id
      pure [.answer user]
  | .getUserNames | .getUserEmails | .other _ => pure []

/-- One step of a request, with one operation of the database.  A request that fails or is
refused ends. -/
def perform (now : Nat) : Task → PanelAction UserDatabase (List Task)
  | .receive r =>
      pure (if r.function.isPublic then [.serve r none]
        else match r.metadata with
          | some (.primitive text) => [.checkToken r text]
          | some .other | none => [])
  | .checkToken r token => do
      let valid ← UserService.checkToken env token now
      pure [.findUser r token valid]
  | .findUser r token valid => do
      -- the user of the session is looked up whether the check was passed or not
      let user ← getUserByToken token
      pure (if valid then [.serve r (some user)] else [])
  | .serve r localUser => start env now localUser r.function
  | .answerOwner token => do
      let user ← getUserByToken token
      pure [.answer user]
  | .findByEmail request => do
      match ← getUserByEmail request.name with
      | some user => pure (checkPassword env request user)
      | none => pure []
  | .checkUserToken request user => do
      let valid ← UserService.checkToken env user.token now
      pure (if valid then [.answer user] else [.renewToken request user])
  | .renewToken request user => do
      let token ← generateToken env request.name now
      pure [.putRenewed { user with token := token }]
  | .putRenewed user => do
      let stored ← putUser user now
      pure [.answer stored]
  | .findNamed request token => do
      let named ← getUserByName request.name
      pure (if named.isSome then [] else [.findMailed request token])
  | .findMailed request token => do
      let mailed ← getUserByEmail request.email
      pure (if mailed.isSome then [] else [.insertRegistered request token])
  | .insertRegistered request token => do
      let stored ← insertUser (registeredUser env request now token)
      pure [.answer stored]
  | .readOwner id projectId => do
      let user ← getUser id
      pure [.putOwner user projectId]
  | .putOwner user projectId => do
      let _ ← putUser { user with availableProjects := user.availableProjects.insert projectId } now
      pure []
  | .answer _ => pure []

/-- The name for which a step creates a token. -/
def issues : Task → Option String
  | .serve ⟨_, .registerUser request⟩ _ => some request.name
  | .renewToken request _ => some request.name
  | _ => none

/-- The user that a step puts under the id of a stored one. -/
def puts : Task → Option User
  | .serve ⟨_, .updateUser user⟩ _ => some user
  | .putRenewed user => some user
  | .putOwner user projectId =>
      some { user with availableProjects := user.availableProjects.insert projectId }
  | _ => none

/-- The id of the user that a step deletes. -/
def deletes : Task → Option Nat
  | .serve ⟨_, .deleteUser id⟩ _ => some id
  | _ => none

/-- The registration whose user a step inserts, with the token. -/
def inserts : Task → Option (UserRegistrationRequest × String)
  | .insertRegistered request token => some (request, token)
  | _ => none

end Task

/-- The steps of the panel; the input of a step is its time. -/
def act (env : UserEnvironment) : Actions UserDatabase Task Nat := fun t now s =>
  match t.perform env now s with
  | .ok ts s' => some (s', ts)
  | .error _ s' => some (s', [])

/-- Threads begin with a request. -/
def Receives (_ : Config UserDatabase Task) : Label Task Nat → Prop
  | .call t => ∃ r, t = .receive r
  | .act _ _ => True

variable {env : UserEnvironment}

/-! ## What a step keeps -/

section Keeps

open PanelAction

variable {P : UserDatabase → Prop} {t : Task} {now : Nat}

theorem keeps_getUserByToken (token : String) : Keeps P (getUserByToken token) := by
  unfold getUserByToken
  refine keeps_get.bind fun s => ?_
  exact (keeps_orElseThrow _ _).bind fun user => keeps_pure _

theorem keeps_named (name : String) : Keeps P (getUserByName name) :=
  keeps_get.bind fun _ => keeps_pure _

theorem keeps_mailed (email : String) : Keeps P (getUserByEmail email) :=
  keeps_get.bind fun _ => keeps_pure _

theorem keeps_validity (token : String) (now : Nat) :
    Keeps P (UserService.checkToken env token now) :=
  (keeps_get.bind fun _ => keeps_pure _).bind fun _ => keeps_pure _

theorem keeps_user (id : Nat) : Keeps P (getUser id) := by
  unfold getUser
  refine keeps_get.bind fun s => ?_
  exact (keeps_orElseThrow _ _).bind fun user => keeps_pure _

/-- The writes of a step keep a property. -/
structure WritesKeep (env : UserEnvironment) (P : UserDatabase → Prop) (now : Nat) (t : Task) :
    Prop where
  issue : ∀ name, t.issues = some name → Keeps P (generateToken env name now)
  put : ∀ user, t.puts = some user → Keeps P (putUser user now)
  delete : ∀ id, t.deletes = some id → Keeps P (deleteUser id)
  insert : ∀ request token, t.inserts = some (request, token) →
    Keeps P (insertUser (registeredUser env request now token))

theorem keeps_start {localUser : Option User} {r : Request}
    (h : WritesKeep env P now (.serve r localUser)) :
    Keeps P (Task.start env now localUser r.function) := by
  obtain ⟨metadata, f⟩ := r
  cases f with
  | authenticate token => exact (keeps_validity _ _).bind fun valid => keeps_pure _
  | authorize request =>
      refine (keeps_named _).bind fun found => ?_
      cases found with
      | none => exact keeps_pure _
      | some user => exact keeps_pure _
  | registerUser request => exact (h.issue _ rfl).bind fun token => keeps_pure _
  | addProject projectId => exact keeps_pure _
  | updateUser user => exact (h.put _ rfl).bind fun stored => keeps_pure _
  | deleteUser id => exact (h.delete _ rfl).bind fun user => keeps_pure _
  | getUserNames | getUserEmails | other functionId => exact keeps_pure _

/-- What the writes of a step keep, the step keeps. -/
theorem keeps_perform (h : WritesKeep env P now t) : Keeps P (t.perform env now) := by
  cases t with
  | receive r => exact keeps_pure _
  | checkToken r token => exact (keeps_validity _ _).bind fun valid => keeps_pure _
  | findUser r token valid => exact (keeps_getUserByToken _).bind fun user => keeps_pure _
  | serve r localUser => exact keeps_start h
  | answerOwner token => exact (keeps_getUserByToken _).bind fun user => keeps_pure _
  | findByEmail request =>
      refine (keeps_mailed _).bind fun found => ?_
      cases found with
      | none => exact keeps_pure _
      | some user => exact keeps_pure _
  | checkUserToken request user => exact (keeps_validity _ _).bind fun valid => keeps_pure _
  | renewToken request user => exact (h.issue _ rfl).bind fun token => keeps_pure _
  | putRenewed user => exact (h.put _ rfl).bind fun stored => keeps_pure _
  | findNamed request token => exact (keeps_named _).bind fun named => keeps_pure _
  | findMailed request token => exact (keeps_mailed _).bind fun mailed => keeps_pure _
  | insertRegistered request token => exact (h.insert _ _ rfl).bind fun stored => keeps_pure _
  | readOwner id projectId => exact (keeps_user id).bind fun user => keeps_pure _
  | putOwner user projectId => exact (h.put _ rfl).bind fun stored => keeps_pure _
  | answer user => exact keeps_pure _

theorem keeps_identified_perform : Keeps Identified (t.perform env now) :=
  keeps_perform
    { issue := fun name _ => keeps_generateToken name now
      put := fun user _ => keeps_putUser user now
      delete := fun id _ => keeps_deleteUser id
      insert := fun _ _ _ => keeps_get.bind fun _ => keeps_storeUser _ }

theorem keeps_generateToken_of {name : String}
    (h : ∀ s, P s → P (s.withToken (env.createToken name now))) :
    Keeps P (generateToken env name now) := by
  intro s hs
  unfold storeAfter
  rw [generateToken_eq]
  by_cases htaken : s.tokens.taken Token.value
      ⟨s.tokens.freshKey, env.createToken name now⟩ = true
  · rw [if_pos htaken]
    exact hs
  · rw [if_neg htaken]
    exact h s hs

theorem storeUser_storeAfter (user : User) (s : UserDatabase) :
    (storeUser user).storeAfter s = s ∨
      (storeUser user).storeAfter s = { s with users := s.users.put user } := by
  unfold storeAfter storeUser
  cases s.rejecting user with
  | none => exact .inr rfl
  | some index => exact .inl rfl

theorem keeps_deleteUser_of {id : Nat}
    (h : ∀ s, P s → P { s with users := s.users.delete id }) : Keeps P (deleteUser id) :=
  (keeps_user id).bind fun _ => Keeps.bind (fun s hs => h s hs) fun _ => keeps_pure _

/-- The tokens are kept by what does not create one. -/
theorem keeps_of_tokens {Q : Space Token → Prop}
    (hissue : ∀ name, t.issues = some name → ∀ s : UserDatabase, Q s.tokens →
      Q (s.withToken (env.createToken name now)).tokens) :
    Keeps (fun s => Q s.tokens) (t.perform env now) := by
  have hstore : ∀ user, Keeps (fun s => Q s.tokens) (storeUser user) := by
    intro user s hs
    rcases storeUser_storeAfter user s with hsame | hput
    · rwa [hsame]
    · rwa [hput]
  exact keeps_perform
    { issue := fun name hname => keeps_generateToken_of (hissue name hname)
      put := fun user _ => hstore _
      delete := fun id _ => keeps_deleteUser_of fun _ hs => hs
      insert := fun _ _ _ => keeps_get.bind fun _ => hstore _ }

/-- A stored token stays. -/
theorem keeps_stored (token : String) :
    Keeps (fun s => ∃ row ∈ s.tokens.rows, row.value = token) (t.perform env now) := by
  refine keeps_of_tokens (Q := fun tokens => ∃ row ∈ tokens.rows, row.value = token) ?_
  rintro name - s ⟨row, hrow, hvalue⟩
  exact ⟨row, by rw [withToken_tokens]; exact List.mem_cons_of_mem _ hrow, hvalue⟩

/-- A new token is the one that the step creates. -/
theorem keeps_issued (old : Space Token) :
    Keeps (fun s => ∀ row ∈ s.tokens.rows, row ∈ old.rows ∨
      ∃ name, t.issues = some name ∧ row.value = env.createToken name now)
      (t.perform env now) := by
  refine keeps_of_tokens (Q := fun tokens => ∀ row ∈ tokens.rows, row ∈ old.rows ∨
    ∃ name, t.issues = some name ∧ row.value = env.createToken name now) ?_
  intro name hname s hs row hrow
  rw [withToken_tokens] at hrow
  rcases List.mem_cons.mp hrow with rfl | hold
  · exact .inr ⟨name, hname, rfl⟩
  · exact hs row hold

end Keeps

/-! ## What a step does -/

theorem act_inv {t : Task} {now : Nat} {s s' : UserDatabase} {ts : List Task}
    (h : act env t now s = some (s', ts)) :
    s' = (t.perform env now).storeAfter s ∧ (ts = [] ∨ t.perform env now s = .ok ts s') := by
  unfold act at h
  unfold PanelAction.storeAfter
  split at h
  · rename_i hresult
    cases h
    exact ⟨by rw [hresult], .inr hresult⟩
  · rename_i hresult
    cases h
    exact ⟨by rw [hresult], .inl rfl⟩

theorem checkToken_eq (token : String) (now : Nat) (s : UserDatabase) :
    UserService.checkToken env token now s =
      .ok ((s.tokens.getByIndex Token.value token).isSome && env.verifies token now) s := by
  simp only [UserService.checkToken, getToken, PanelAction.bind_apply, PanelAction.get_apply,
    PanelAction.pure_apply, Option.isSome_map]

theorem getUserByToken_eq (token : String) (s : UserDatabase) :
    getUserByToken token s =
      match s.users.getByIndex User.token token with
      | some user => .ok user s
      | none => .error (.raised ⟨.userDoesNotExists,
          s!"User with token '{token}' does not exist"⟩) s := by
  unfold getUserByToken
  rw [PanelAction.bind_apply, PanelAction.get_apply]
  simp only [PanelAction.bind_apply]
  cases hfound : s.users.getByIndex User.token token with
  | none => rfl
  | some user => rfl

theorem bind_ok_inv {α β : Type} {action : PanelAction UserDatabase α}
    {f : α → PanelAction UserDatabase β} {s s' : UserDatabase} {b : β}
    (h : (action >>= f) s = .ok b s') : ∃ a u, action s = .ok a u ∧ f a u = .ok b s' := by
  rw [PanelAction.bind_apply] at h
  cases hresult : action s with
  | ok a u =>
      rw [hresult] at h
      exact ⟨a, u, rfl, h⟩
  | error e u =>
      rw [hresult] at h
      cases h

theorem generateToken_ok_inv {name token : String} {now : Nat} {s s' : UserDatabase}
    (h : generateToken env name now s = .ok token s') :
    token = env.createToken name now ∧ s' = s.withToken token := by
  rw [generateToken_eq] at h
  split at h
  · cases h
  · cases h
    exact ⟨rfl, rfl⟩

theorem stored_withToken (s : UserDatabase) (token : String) :
    ∃ row ∈ (s.withToken token).tokens.rows, row.value = token :=
  ⟨_, by rw [withToken_tokens]; exact List.mem_cons_self, rfl⟩

theorem stored_of_isSome {s : UserDatabase} {token : String}
    (h : (s.tokens.getByIndex Token.value token).isSome = true) :
    ∃ row ∈ s.tokens.rows, row.value = token :=
  Space.getByIndex_isSome_iff.mp h

/-! ## What is known of the steps under way -/

section Runs

variable {c c' : Config UserDatabase Task} {ls : List (Label Task Nat)} {l : Label Task Nat}

/-- The panel has created the token in a step of the run. -/
def Issued (env : UserEnvironment) (ls : List (Label Task Nat)) (token : String) : Prop :=
  ∃ t name now, .act t now ∈ ls ∧ t.issues = some name ∧ token = env.createToken name now

/-- The token of the request was found stored and verified in a step of the run. -/
def Checked (env : UserEnvironment) (ls : List (Label Task Nat)) (r : Request)
    (token : String) : Prop :=
  ∃ now, .act (.checkToken r token) now ∈ ls ∧ env.verifies token now = true

def Task.Sound (env : UserEnvironment) (ls : List (Label Task Nat)) (s : UserDatabase) :
    Task → Prop
  | .checkToken r token => r.metadata = some (.primitive token)
  | .findUser r token valid =>
      r.metadata = some (.primitive token) ∧
        (valid = true → Checked env ls r token ∧ Issued env ls token)
  | .findNamed _ token | .findMailed _ token | .insertRegistered _ token =>
      ∃ row ∈ s.tokens.rows, row.value = token
  | .putRenewed user => ∃ row ∈ s.tokens.rows, row.value = user.token
  | _ => True

structure Sound (env : UserEnvironment) (ls : List (Label Task Nat))
    (c : Config UserDatabase Task) : Prop where
  identified : c.shared.Identified
  issued : ∀ row ∈ c.shared.tokens.rows, Issued env ls row.value
  tasks : ∀ t ∈ c.tasks, t.Sound env ls c.shared

theorem Issued.append {token : String} (h : Issued env ls token) :
    Issued env (ls ++ [l]) token := by
  obtain ⟨t, name, now, hmem, hrest⟩ := h
  exact ⟨t, name, now, List.mem_append_left _ hmem, hrest⟩

theorem Checked.append {r : Request} {token : String} (h : Checked env ls r token) :
    Checked env (ls ++ [l]) r token := by
  obtain ⟨now, hmem, hverifies⟩ := h
  exact ⟨now, List.mem_append_left _ hmem, hverifies⟩

/-- What is known of a task stays known. -/
theorem Task.Sound.append {t : Task} {s s' : UserDatabase} (h : t.Sound env ls s)
    (hstored : ∀ token, (∃ row ∈ s.tokens.rows, row.value = token) →
      ∃ row ∈ s'.tokens.rows, row.value = token) : t.Sound env (ls ++ [l]) s' := by
  cases t with
  | checkToken r token => exact h
  | findUser r token valid => exact ⟨h.1, fun hvalid => (h.2 hvalid).imp .append .append⟩
  | findNamed request token | findMailed request token | insertRegistered request token
  | putRenewed user => exact hstored _ h
  | receive r | serve r localUser | answerOwner token | findByEmail request
  | checkUserToken request user | renewToken request user | readOwner id projectId
  | putOwner user projectId | answer user => trivial

/-- The tokens and their users behind a step. -/
theorem Sound.shared {t : Task} {now : Nat} {ts : List Task} {s' : UserDatabase}
    (h : Sound env ls c) (hact : act env t now c.shared = some (s', ts)) :
    s'.Identified ∧ ∀ row ∈ s'.tokens.rows, Issued env (ls ++ [.act t now]) row.value := by
  obtain ⟨rfl, -⟩ := act_inv hact
  refine ⟨keeps_identified_perform _ h.identified, fun row hrow => ?_⟩
  rcases keeps_issued c.shared.tokens c.shared (fun row hrow => .inl hrow) row hrow with
    hold | ⟨name, hname, hvalue⟩
  · exact (h.issued row hold).append
  · exact ⟨t, name, now, by simp, hname, hvalue⟩

/-- What is known of the tasks that a service begins with. -/
theorem sound_start {r : Request} {localUser : Option User} {now : Nat} {ts : List Task}
    {s s' : UserDatabase} {ls' : List (Label Task Nat)}
    (h : Task.start env now localUser r.function s = .ok ts s') :
    ∀ u ∈ ts, u.Sound env ls' s' := by
  obtain ⟨metadata, f⟩ := r
  cases f with
  | authenticate token =>
      obtain ⟨valid, v, -, hlast⟩ := bind_ok_inv h
      cases hlast
      cases valid with
      | true => simp [Task.Sound]
      | false => simp
  | authorize request =>
      obtain ⟨found, v, -, hlast⟩ := bind_ok_inv h
      cases found with
      | none =>
          cases hlast
          simp [Task.Sound]
      | some user =>
          cases hlast
          unfold Task.checkPassword
          split <;> simp [Task.Sound]
  | registerUser request =>
      obtain ⟨token, v, hissue, hlast⟩ := bind_ok_inv h
      cases hlast
      obtain ⟨-, rfl⟩ := generateToken_ok_inv hissue
      simpa [Task.Sound] using stored_withToken s token
  | addProject projectId =>
      cases h
      simp [Task.Sound]
  | updateUser user =>
      obtain ⟨stored, v, -, hlast⟩ := bind_ok_inv h
      cases hlast
      simp [Task.Sound]
  | deleteUser id =>
      obtain ⟨stored, v, -, hlast⟩ := bind_ok_inv h
      cases hlast
      simp [Task.Sound]
  | getUserNames | getUserEmails | other functionId =>
      cases h
      simp

/-- What is known of the tasks behind a step. -/
theorem Sound.perform {t : Task} {now : Nat} {ts : List Task} {s' : UserDatabase}
    (h : Sound env ls c) (ht : t.Sound env ls c.shared)
    (hperform : t.perform env now c.shared = .ok ts s') :
    ∀ u ∈ ts, u.Sound env (ls ++ [.act t now]) s' := by
  cases t with
  | receive r =>
      cases hperform
      split
      · simp [Task.Sound]
      · split
        · rename_i text htext
          simpa [Task.Sound] using htext
        · simp
        · simp
  | checkToken r token =>
      obtain ⟨valid, v, hvalid, hlast⟩ := bind_ok_inv hperform
      cases hlast
      rw [checkToken_eq] at hvalid
      cases hvalid
      intro u hu
      rw [List.mem_singleton.mp hu]
      refine ⟨ht, fun hboth => ?_⟩
      obtain ⟨hstored, hverifies⟩ := Bool.and_eq_true_iff.mp hboth
      obtain ⟨row, hrow, rfl⟩ := stored_of_isSome hstored
      exact ⟨⟨now, by simp, hverifies⟩, (h.issued row hrow).append⟩
  | findUser r token valid =>
      obtain ⟨user, v, -, hlast⟩ := bind_ok_inv hperform
      cases hlast
      cases valid with
      | true => simp [Task.Sound]
      | false => simp
  | serve r localUser => exact sound_start hperform
  | answerOwner token =>
      obtain ⟨user, v, -, hlast⟩ := bind_ok_inv hperform
      cases hlast
      simp [Task.Sound]
  | findByEmail request =>
      obtain ⟨found, v, -, hlast⟩ := bind_ok_inv hperform
      cases found with
      | none =>
          cases hlast
          simp
      | some user =>
          cases hlast
          unfold Task.checkPassword
          split <;> simp [Task.Sound]
  | checkUserToken request user =>
      obtain ⟨valid, v, -, hlast⟩ := bind_ok_inv hperform
      cases hlast
      cases valid with
      | true => simp [Task.Sound]
      | false => simp [Task.Sound]
  | renewToken request user =>
      obtain ⟨token, v, hissue, hlast⟩ := bind_ok_inv hperform
      cases hlast
      obtain ⟨-, rfl⟩ := generateToken_ok_inv hissue
      simpa [Task.Sound] using stored_withToken c.shared token
  | putRenewed user =>
      obtain ⟨stored, v, -, hlast⟩ := bind_ok_inv hperform
      cases hlast
      simp [Task.Sound]
  | findNamed request token =>
      obtain ⟨named, v, hread, hlast⟩ := bind_ok_inv hperform
      cases hlast
      cases hread
      split
      · simp
      · simpa [Task.Sound] using ht
  | findMailed request token =>
      obtain ⟨mailed, v, hread, hlast⟩ := bind_ok_inv hperform
      cases hlast
      cases hread
      split
      · simp
      · simpa [Task.Sound] using ht
  | insertRegistered request token =>
      obtain ⟨stored, v, -, hlast⟩ := bind_ok_inv hperform
      cases hlast
      simp [Task.Sound]
  | readOwner id projectId =>
      obtain ⟨user, v, -, hlast⟩ := bind_ok_inv hperform
      cases hlast
      simp [Task.Sound]
  | putOwner user projectId =>
      obtain ⟨stored, v, -, hlast⟩ := bind_ok_inv hperform
      cases hlast
      simp
  | answer user =>
      cases hperform
      simp

/-- Every step leaves what is known true. -/
theorem Sound.step (h : Sound env ls c) (hstep : Step (act env) c l c')
    (hreceives : Receives c l) : Sound env (ls ++ [l]) c' := by
  cases hstep with
  | call t =>
      obtain ⟨r, rfl⟩ := hreceives
      refine ⟨h.identified, fun row hrow => (h.issued row hrow).append, fun u hu => ?_⟩
      rcases List.mem_cons.mp hu with rfl | hu
      · trivial
      · exact (h.tasks u hu).append fun _ hstored => hstored
  | @act t now s' ts others hpool hact =>
      obtain ⟨hidentified, hissued⟩ := h.shared hact
      obtain ⟨hshared, hts⟩ := act_inv hact
      refine ⟨hidentified, hissued, fun u hu => ?_⟩
      rcases List.mem_append.mp hu with hnew | hold
      · rcases hts with rfl | hperform
        · cases hnew
        · exact h.perform (h.tasks t (hpool.mem_iff.mpr List.mem_cons_self)) hperform u hnew
      · have hmem := hpool.mem_iff.mpr (List.mem_cons_of_mem t hold)
        refine (h.tasks u hmem).append fun token hstored => ?_
        rw [hshared]
        exact keeps_stored token c.shared hstored

/-- Before the first request. -/
theorem sound_empty : Sound env [] ⟨.empty, []⟩ where
  identified := ⟨Space.distinct_empty, Space.distinct_empty, Space.distinct_empty⟩
  issued := fun _ hrow => absurd hrow List.not_mem_nil
  tasks := fun _ ht => absurd ht List.not_mem_nil

theorem sound_of_run (hrun : Run (act env) Receives ⟨.empty, []⟩ ls c) : Sound env ls c := by
  induction hrun with
  | refl => exact sound_empty
  | tail _ hstep hreceives ih => exact ih.step hstep hreceives

/-! ## Admissions -/

theorem getUserByToken_ok_inv {token : String} {user : User} {s s' : UserDatabase}
    (h : getUserByToken token s = .ok user s') :
    user ∈ s.users.rows ∧ user.token = token ∧ s' = s := by
  rw [getUserByToken_eq] at h
  cases hfound : s.users.getByIndex User.token token with
  | none =>
      rw [hfound] at h
      cases h
  | some found =>
      rw [hfound] at h
      cases h
      have hmem := List.mem_of_find?_eq_some hfound
      have htoken := List.find?_some hfound
      simp only [decide_eq_true_eq] at htoken
      exact ⟨hmem, htoken, rfl⟩

/-- No service begins another one. -/
theorem serve_notMem_start {r r' : Request} {localUser localUser' : Option User} {now : Nat}
    {ts : List Task} {s s' : UserDatabase}
    (h : Task.start env now localUser r.function s = .ok ts s') : .serve r' localUser' ∉ ts := by
  obtain ⟨metadata, f⟩ := r
  have hpassword : ∀ request user, .serve r' localUser' ∉ Task.checkPassword env request user := by
    intro request user
    unfold Task.checkPassword
    split <;> simp
  cases f with
  | authenticate token =>
      obtain ⟨valid, v, -, hlast⟩ := bind_ok_inv h
      cases hlast
      split <;> simp
  | authorize request =>
      obtain ⟨found, v, -, hlast⟩ := bind_ok_inv h
      cases found with
      | none =>
          cases hlast
          simp
      | some user =>
          cases hlast
          exact hpassword request user
  | registerUser request =>
      obtain ⟨token, v, -, hlast⟩ := bind_ok_inv h
      cases hlast
      simp
  | addProject projectId =>
      cases h
      simp
  | updateUser user =>
      obtain ⟨stored, v, -, hlast⟩ := bind_ok_inv h
      cases hlast
      simp
  | deleteUser id =>
      obtain ⟨stored, v, -, hlast⟩ := bind_ok_inv h
      cases hlast
      simp
  | getUserNames | getUserEmails | other functionId =>
      cases h
      simp

/-- The steps behind which a service begins. -/
theorem serve_of_perform {t : Task} {now : Nat} {ts : List Task} {s s' : UserDatabase}
    {r : Request} {localUser : Option User} (hperform : t.perform env now s = .ok ts s')
    (hmem : .serve r localUser ∈ ts) :
    (t = .receive r ∧ r.function.isPublic = true ∧ localUser = none) ∨
      ∃ token user, t = .findUser r token true ∧ localUser = some user ∧
        getUserByToken token s = .ok user s' := by
  have hpassword : ∀ request user, .serve r localUser ∉ Task.checkPassword env request user := by
    intro request user
    unfold Task.checkPassword
    split <;> simp
  cases t with
  | receive r' =>
      cases hperform
      split at hmem
      · rename_i hpublic
        cases List.mem_singleton.mp hmem
        exact .inl ⟨rfl, hpublic, rfl⟩
      · split at hmem <;> simp at hmem
  | findUser r' token valid =>
      obtain ⟨user, v, huser, hlast⟩ := bind_ok_inv hperform
      cases hlast
      cases valid with
      | true =>
          cases List.mem_singleton.mp hmem
          exact .inr ⟨token, user, rfl, rfl, huser⟩
      | false => simp at hmem
  | serve r' localUser' => exact absurd hmem (serve_notMem_start hperform)
  | findByEmail request =>
      obtain ⟨found, v, -, hlast⟩ := bind_ok_inv hperform
      cases found with
      | none =>
          cases hlast
          simp at hmem
      | some user =>
          cases hlast
          exact absurd hmem (hpassword request user)
  | checkToken r' token | answerOwner token | renewToken request user | putRenewed user
  | insertRegistered request token | readOwner id projectId | putOwner user projectId =>
      obtain ⟨value, v, -, hlast⟩ := bind_ok_inv hperform
      cases hlast
      simp at hmem
  | checkUserToken request user | findNamed request token | findMailed request token =>
      obtain ⟨value, v, -, hlast⟩ := bind_ok_inv hperform
      cases hlast
      split at hmem <;> simp at hmem
  | answer user =>
      cases hperform
      simp at hmem

/-- In every interleaving of requests, a request for a function that is not public reaches
its service only by a step behind which its metadata are a token that the panel has created
and, in an earlier step of this request, found stored and verified; and the user of the
session is the one stored user who has this token. -/
theorem admission_sound (hrun : Run (act env) Receives ⟨.empty, []⟩ ls c) {t : Task} {now : Nat}
    {ts : List Task} {s' : UserDatabase} {r : Request} {localUser : Option User}
    (ht : t ∈ c.tasks) (hact : act env t now c.shared = some (s', ts))
    (hserve : .serve r localUser ∈ ts) (hfunction : r.function.isPublic = false) :
    ∃ token user, t = .findUser r token true ∧ r.metadata = some (.primitive token) ∧
      Issued env ls token ∧ Checked env ls r token ∧ localUser = some user ∧
      user ∈ c.shared.users.rows ∧ user.token = token ∧
      ∀ other ∈ c.shared.users.rows, other.token = token → other = user := by
  have h := sound_of_run hrun
  obtain ⟨-, hts⟩ := act_inv hact
  rcases hts with rfl | hperform
  · cases hserve
  · rcases serve_of_perform hperform hserve with ⟨-, hpublic, -⟩ | ⟨token, user, rfl, rfl, hfound⟩
    · rw [hfunction] at hpublic
      cases hpublic
    · obtain ⟨hmetadata, hvalid⟩ := h.tasks _ ht
      obtain ⟨hchecked, hissued⟩ := hvalid rfl
      obtain ⟨hmem, htoken, -⟩ := getUserByToken_ok_inv hfound
      refine ⟨token, user, rfl, hmetadata, hissued, hchecked, rfl, hmem, htoken, ?_⟩
      exact fun other hother hsame =>
        h.identified.tokens other hother user hmem (hsame.trans htoken.symm)

/-! ## Tokens that stay -/

/-- The function leaves the token of the user. -/
def Function.Leaves (id : Nat) (token : String) : Function → Prop
  | .updateUser user => user.id = id → user.token = token
  | .deleteUser deleted => deleted ≠ id
  | _ => True

/-- The thread will not give another token to the user. -/
def Task.Leaves (id : Nat) (token : String) : Task → Prop
  | .receive r | .checkToken r _ | .findUser r _ _ | .serve r _ => r.function.Leaves id token
  | .checkUserToken _ user | .putOwner user _ => user.id = id → user.token = token
  | .renewToken _ user | .putRenewed user => user.id ≠ id
  | _ => True

/-- The user has the token, which is stored. -/
structure Held (id : Nat) (token : String) (s : UserDatabase) : Prop where
  identified : s.Identified
  stored : ∃ row ∈ s.tokens.rows, row.value = token
  user : ∃ user ∈ s.users.rows, user.id = id ∧ user.token = token

/-- While the token verifies, threads begin with requests that leave it. -/
def Undisturbed (env : UserEnvironment) (id : Nat) (token : String)
    (_ : Config UserDatabase Task) : Label Task Nat → Prop
  | .call t => ∃ r, t = .receive r ∧ r.function.Leaves id token
  | .act _ now => env.verifies token now = true

variable {id : Nat} {token : String} {s s' : UserDatabase} {t : Task} {now : Nat} {ts : List Task}

theorem Held.token_of_id (h : Held id token s) {user : User} (huser : user ∈ s.users.rows)
    (hid : user.id = id) : user.token = token := by
  obtain ⟨held, hheld, hheldId, rfl⟩ := h.user
  rw [s.users.row_eq_of_key_eq huser hheld (hid.trans hheldId.symm)]

theorem user_of_put {user : User} (hstays : user.id = id → user.token = token)
    (h : ∃ u ∈ s.users.rows, u.id = id ∧ u.token = token) :
    ∃ u ∈ (s.users.put user).rows, u.id = id ∧ u.token = token := by
  obtain ⟨held, hheld, hid, htoken⟩ := h
  by_cases hsame : user.id = id
  · exact ⟨user, (Space.mem_rows_put _ _ _).mpr (.inl rfl), hsame, hstays hsame⟩
  · exact ⟨held, (Space.mem_rows_put _ _ _).mpr (.inr ⟨hheld, fun hkey =>
      hsame (hkey.symm.trans hid)⟩), hid, htoken⟩

theorem keeps_user_storeUser {user : User} (hstays : user.id = id → user.token = token) :
    PanelAction.Keeps (fun s => ∃ u ∈ s.users.rows, u.id = id ∧ u.token = token)
      (storeUser user) := by
  intro s hs
  rcases storeUser_storeAfter user s with hsame | hput
  · rwa [hsame]
  · rw [hput]
    exact user_of_put hstays hs

/-- The user keeps the token in a step that leaves it. -/
theorem keeps_held_user (ht : t.Leaves id token) :
    PanelAction.Keeps (fun s => ∃ u ∈ s.users.rows, u.id = id ∧ u.token = token)
      (t.perform env now) := by
  refine keeps_perform ⟨fun name _ => keeps_generateToken_of fun s hs => hs, ?_, ?_, ?_⟩
  · intro user huser
    refine keeps_user_storeUser fun hid => ?_
    cases t with
    | serve r localUser =>
        obtain ⟨metadata, f⟩ := r
        cases f with
        | updateUser written =>
            cases huser
            exact ht hid
        | authenticate _ | authorize _ | registerUser _ | getUserNames | getUserEmails
        | addProject _ | deleteUser _ | other _ => cases huser
    | putRenewed written =>
        cases huser
        exact absurd hid ht
    | putOwner written projectId =>
        cases huser
        exact ht hid
    | receive _ | checkToken _ _ | findUser _ _ _ | answerOwner _ | findByEmail _
    | checkUserToken _ _ | renewToken _ _ | findNamed _ _ | findMailed _ _
    | insertRegistered _ _ | readOwner _ _ | answer _ => cases huser
  · intro other hother
    have hne : other ≠ id := by
      cases t with
      | serve r localUser =>
          obtain ⟨metadata, f⟩ := r
          cases f with
          | deleteUser deleted =>
              cases hother
              exact ht
          | authenticate _ | authorize _ | registerUser _ | getUserNames | getUserEmails
          | addProject _ | updateUser _ | other _ => cases hother
      | receive _ | checkToken _ _ | findUser _ _ _ | answerOwner _ | findByEmail _
      | checkUserToken _ _ | renewToken _ _ | putRenewed _ | findNamed _ _ | findMailed _ _
      | insertRegistered _ _ | readOwner _ _ | putOwner _ _ | answer _ => cases hother
    refine keeps_deleteUser_of fun s hs => ?_
    obtain ⟨held, hheld, hid, htoken⟩ := hs
    refine ⟨held, List.mem_filter.mpr ⟨hheld, ?_⟩, hid, htoken⟩
    simpa [hid] using Ne.symm hne
  · intro request issued _ s hs
    -- the id of a new user is free
    have hfree : s.users.freshKey ≠ id := by
      obtain ⟨held, hheld, hid, -⟩ := hs
      have hlt := s.users.key_lt_freshKey hheld
      rw [key_user, hid] at hlt
      omega
    exact keeps_user_storeUser (fun hfresh => absurd hfresh hfree) s hs

theorem Held.perform (h : Held id token s) (ht : t.Leaves id token) :
    Held id token ((t.perform env now).storeAfter s) where
  identified := keeps_identified_perform s h.identified
  stored := keeps_stored token s h.stored
  user := keeps_held_user ht s h.user

theorem getUserByName_ok_inv {name : String} {found : Option User}
    (h : getUserByName name s = .ok found s') : ∀ user ∈ found, user ∈ s.users.rows := by
  intro user huser
  cases h
  obtain ⟨row, hrow, rfl⟩ := Option.map_eq_some_iff.mp huser
  exact List.mem_of_find?_eq_some hrow

theorem getUserByEmail_ok_inv {email : String} {found : Option User}
    (h : getUserByEmail email s = .ok found s') : ∀ user ∈ found, user ∈ s.users.rows := by
  intro user huser
  cases h
  obtain ⟨row, hrow, rfl⟩ := Option.map_eq_some_iff.mp huser
  exact List.mem_of_find?_eq_some hrow

theorem getUser_ok_inv {other : Nat} {user : User} (h : getUser other s = .ok user s') :
    user ∈ s.users.rows := by
  obtain ⟨u, v, hget, hread⟩ := bind_ok_inv h
  cases hget
  obtain ⟨row, w, hfound, hlast⟩ := bind_ok_inv hread
  cases hlast
  cases hrow : s.users.get other with
  | none =>
      rw [hrow] at hfound
      cases hfound
  | some stored =>
      rw [hrow] at hfound
      cases hfound
      exact Space.mem_rows_of_get hrow

attribute [local simp] Task.Leaves in
theorem leaves_checkPassword {request : UserAuthorizationRequest} {user : User}
    (h : user.id = id → user.token = token) :
    ∀ u ∈ Task.checkPassword env request user, u.Leaves id token := by
  unfold Task.checkPassword
  split
  · simp
  · simpa using h

theorem Held.leaves_start (h : Held id token s) {r : Request} {localUser : Option User}
    (hstart : Task.start env now localUser r.function s = .ok ts s') :
    ∀ u ∈ ts, u.Leaves id token := by
  obtain ⟨metadata, f⟩ := r
  cases f with
  | authenticate other =>
      obtain ⟨valid, v, -, hlast⟩ := bind_ok_inv hstart
      cases hlast
      split <;> simp [Task.Leaves]
  | authorize request =>
      obtain ⟨found, v, hfound, hlast⟩ := bind_ok_inv hstart
      cases found with
      | none =>
          cases hlast
          simp [Task.Leaves]
      | some user =>
          cases hlast
          exact leaves_checkPassword (h.token_of_id (getUserByName_ok_inv hfound user rfl))
  | registerUser request =>
      obtain ⟨issued, v, -, hlast⟩ := bind_ok_inv hstart
      cases hlast
      simp [Task.Leaves]
  | addProject projectId =>
      cases hstart
      simp [Task.Leaves]
  | updateUser user =>
      obtain ⟨stored, v, -, hlast⟩ := bind_ok_inv hstart
      cases hlast
      simp [Task.Leaves]
  | deleteUser deleted =>
      obtain ⟨stored, v, -, hlast⟩ := bind_ok_inv hstart
      cases hlast
      simp [Task.Leaves]
  | getUserNames | getUserEmails | other functionId =>
      cases hstart
      simp

theorem checkToken_of_held (h : Held id token s) (hverifies : env.verifies token now = true) :
    UserService.checkToken env token now s = .ok true s := by
  rw [checkToken_eq, hverifies, Space.getByIndex_isSome_iff.mpr h.stored]
  rfl

/-- What continues leaves the token, too. -/
theorem Held.leaves_perform (h : Held id token s) (ht : t.Leaves id token)
    (hverifies : env.verifies token now = true) (hperform : t.perform env now s = .ok ts s') :
    ∀ u ∈ ts, u.Leaves id token := by
  cases t with
  | receive r =>
      cases hperform
      split
      · simpa [Task.Leaves] using ht
      · split
        · simpa [Task.Leaves] using ht
        · simp
        · simp
  | checkToken r other =>
      obtain ⟨valid, v, -, hlast⟩ := bind_ok_inv hperform
      cases hlast
      simpa [Task.Leaves] using ht
  | findUser r other valid =>
      obtain ⟨user, v, -, hlast⟩ := bind_ok_inv hperform
      cases hlast
      split
      · simpa [Task.Leaves] using ht
      · simp
  | serve r localUser => exact h.leaves_start hperform
  | findByEmail request =>
      obtain ⟨found, v, hfound, hlast⟩ := bind_ok_inv hperform
      cases found with
      | none =>
          cases hlast
          simp
      | some user =>
          cases hlast
          exact leaves_checkPassword (h.token_of_id (getUserByEmail_ok_inv hfound user rfl))
  | checkUserToken request user =>
      obtain ⟨valid, v, hvalid, hlast⟩ := bind_ok_inv hperform
      cases hlast
      cases valid with
      | true => simp [Task.Leaves]
      | false =>
          -- the token of this user would have passed the check
          have hother : user.id ≠ id := by
            intro hid
            rw [ht hid, checkToken_of_held h hverifies] at hvalid
            cases hvalid
          simpa [Task.Leaves] using hother
  | renewToken request user =>
      obtain ⟨issued, v, -, hlast⟩ := bind_ok_inv hperform
      cases hlast
      simpa [Task.Leaves] using ht
  | readOwner other projectId =>
      obtain ⟨user, v, hfound, hlast⟩ := bind_ok_inv hperform
      cases hlast
      simpa [Task.Leaves] using h.token_of_id (getUser_ok_inv hfound)
  | answerOwner other | putRenewed user | insertRegistered request issued
  | putOwner user projectId =>
      obtain ⟨value, v, -, hlast⟩ := bind_ok_inv hperform
      cases hlast
      simp [Task.Leaves]
  | findNamed request issued | findMailed request issued =>
      obtain ⟨value, v, -, hlast⟩ := bind_ok_inv hperform
      cases hlast
      split <;> simp [Task.Leaves]
  | answer user =>
      cases hperform
      simp

/-- The user holds the token, and every thread leaves it. -/
structure Keeping (id : Nat) (token : String) (c : Config UserDatabase Task) : Prop where
  held : Held id token c.shared
  tasks : ∀ t ∈ c.tasks, t.Leaves id token

theorem Keeping.step (h : Keeping id token c) (hstep : Step (act env) c l c')
    (hundisturbed : Undisturbed env id token c l) : Keeping id token c' := by
  cases hstep with
  | call t =>
      obtain ⟨r, rfl, hleaves⟩ := hundisturbed
      refine ⟨h.held, fun u hu => ?_⟩
      rcases List.mem_cons.mp hu with rfl | hu
      · exact hleaves
      · exact h.tasks u hu
  | @act t now s' ts others hpool hact =>
      have ht := h.tasks t (hpool.mem_iff.mpr List.mem_cons_self)
      obtain ⟨rfl, hts⟩ := act_inv hact
      refine ⟨h.held.perform ht, fun u hu => ?_⟩
      rcases List.mem_append.mp hu with hnew | hold
      · rcases hts with rfl | hperform
        · cases hnew
        · exact h.held.leaves_perform ht hundisturbed hperform u hnew
      · exact h.tasks u (hpool.mem_iff.mpr (List.mem_cons_of_mem t hold))

theorem Keeping.run (h : Keeping id token c)
    (hrun : Run (act env) (Undisturbed env id token) c ls c') : Keeping id token c' :=
  hrun.invariant h fun _ _ _ hd hok hstep => hd.step hstep hok

/-- A token that was written with its user. -/
theorem held_of_answer {user : User} (hsound : Sound env ls c) (ht : t ∈ c.tasks)
    (hgives : (∃ u, t = .putRenewed u) ∨ ∃ request issued, t = .insertRegistered request issued)
    (hact : act env t now c.shared = some (s', [.answer user])) : Held user.id user.token s' := by
  obtain ⟨hidentified, -⟩ := hsound.shared hact
  obtain ⟨hshared, hts⟩ := act_inv hact
  have hperform := hts.resolve_left (by simp)
  have hkeeps : PanelAction.Keeps (fun s => ∃ row ∈ s.tokens.rows, row.value = user.token)
      (t.perform env now) := keeps_stored user.token
  have hkept := hkeeps c.shared
  rw [← hshared] at hkept
  have hknown := hsound.tasks t ht
  have hstored : ∀ row : User, storeUser row c.shared = .ok user s' →
      row = user ∧ user ∈ s'.users.rows := by
    intro row hstore
    unfold storeUser at hstore
    split at hstore
    · cases hstore
    · cases hstore
      exact ⟨rfl, (Space.mem_rows_put _ _ _).mpr (.inl rfl)⟩
  rcases hgives with ⟨u, rfl⟩ | ⟨request, issued, rfl⟩
  · obtain ⟨value, v, hput, hlast⟩ := bind_ok_inv hperform
    cases hlast
    obtain ⟨rfl, hmem⟩ := hstored _ hput
    exact ⟨hidentified, hkept hknown, _, hmem, rfl, rfl⟩
  · obtain ⟨value, v, hinsert, hlast⟩ := bind_ok_inv hperform
    cases hlast
    obtain ⟨u, w, hget, hput⟩ := bind_ok_inv hinsert
    cases hget
    obtain ⟨rfl, hmem⟩ := hstored _ hput
    exact ⟨hidentified, hkept hknown, _, hmem, rfl, rfl⟩

theorem Held.getUserByToken (h : Held id token s) :
    ∃ user, user.id = id ∧ UserDatabase.getUserByToken token s = .ok user s := by
  obtain ⟨held, hheld, hid, htoken⟩ := h.user
  cases hfound : s.users.getByIndex User.token token with
  | none =>
      have hsome : (s.users.getByIndex User.token token).isSome = true :=
        Space.getByIndex_isSome_iff.mpr ⟨held, hheld, htoken⟩
      rw [hfound] at hsome
      cases hsome
  | some user =>
      have hread : UserDatabase.getUserByToken token s = .ok user s := by
        rw [getUserByToken_eq, hfound]
      obtain ⟨hmem, hsame, -⟩ := getUserByToken_ok_inv hread
      have heq := h.identified.tokens user hmem held hheld (hsame.trans htoken.symm)
      exact ⟨user, heq ▸ hid, hread⟩

/-- A registration, or an authorization that has renewed a token, answers with a user whose
token is stored.  Let no thread that is under way write another token to this user, and no
later request delete it or change its token.  Then, however all requests interleave, a
request with this token is admitted in every later configuration at a time at which the
token verifies, and acts for this user, as long as the token has verified so far. -/
theorem issued_token_admitted {user : User} {others : List Task} {ls' : List (Label Task Nat)}
    (hrun : Run (act env) Receives ⟨.empty, []⟩ ls c) (hpool : c.tasks.Perm (t :: others))
    (hgives : (∃ u, t = .putRenewed u) ∨ ∃ request issued, t = .insertRegistered request issued)
    (hact : act env t now c.shared = some (s', [.answer user]))
    (hothers : ∀ u ∈ others, u.Leaves user.id user.token)
    (hlater : Run (act env) (Undisturbed env user.id user.token) ⟨s', .answer user :: others⟩
      ls' c')
    {later : Nat} (hverifies : env.verifies user.token later = true) {r : Request}
    (hmetadata : r.metadata = some (.primitive user.token))
    (hfunction : r.function.isPublic = false) :
    act env (.receive r) later c'.shared = some (c'.shared, [.checkToken r user.token]) ∧
      act env (.checkToken r user.token) later c'.shared =
        some (c'.shared, [.findUser r user.token true]) ∧
      ∃ owner, owner.id = user.id ∧
        act env (.findUser r user.token true) later c'.shared =
          some (c'.shared, [.serve r (some owner)]) := by
  have hheld := held_of_answer (sound_of_run hrun) (hpool.mem_iff.mpr List.mem_cons_self)
    hgives hact
  have hkeeping : Keeping user.id user.token ⟨s', .answer user :: others⟩ := by
    refine ⟨hheld, fun u hu => ?_⟩
    rcases List.mem_cons.mp hu with rfl | hu
    · trivial
    · exact hothers u hu
  have hend := (hkeeping.run hlater).held
  refine ⟨?_, ?_, ?_⟩
  · simp [act, Task.perform, hfunction, hmetadata]
  · simp only [act, Task.perform, PanelAction.bind_apply, checkToken_of_held hend hverifies,
      PanelAction.pure_apply]
  · obtain ⟨owner, hid, hread⟩ := hend.getUserByToken
    refine ⟨owner, hid, ?_⟩
    simp only [act, Task.perform, PanelAction.bind_apply, hread, PanelAction.pure_apply, if_true]

end Runs

/-! ## Runs of one user -/

/-- Tokens that are created at early times do not verify at later ones. -/
def agingEnvironment : UserEnvironment where
  administratorName := "admin"
  administratorPassword := "secret"
  defaultUserRights := ["MODULES_MANAGEMENT"]
  createToken _ now := if now < 5 then "old" else "new"
  verifies token now := token = "new" || now < 5
  text _ := "word"

def annRegistration : UserRegistrationRequest :=
  ⟨"ann", "Ann", "word", "ann@mail"⟩

def projectOf (token : String) : Request :=
  ⟨some (.primitive token), .addProject 7⟩

def receives : Label Task Nat → Bool
  | .call (.receive _) | .act _ _ => true
  | .call _ => false

theorem receives_of_test (c : Config UserDatabase Task) (l : Label Task Nat)
    (h : receives l = true) : Receives c l := by
  cases l with
  | call t =>
      cases t with
      | receive r => exact ⟨r, rfl⟩
      | _ => cases h
  | act t now => trivial

/-- The registration up to the insertion of the user. -/
def beforeInsertion : List (Move Task Nat) :=
  [.call (.receive ⟨none, .registerUser annRegistration⟩), .act 0 1, .act 0 1, .act 0 1, .act 0 1]

/-- A request of the new user, up to the look-up of its token. -/
def beforeAdmission : List (Move Task Nat) :=
  beforeInsertion ++ [.act 0 1, .call (.receive (projectOf "old")), .act 0 2, .act 0 2]

theorem admission_sound_beforeAdmission :
    ∃ ls c user, Run (act agingEnvironment) Receives ⟨.empty, []⟩ ls c ∧
      Issued agingEnvironment ls "old" ∧ user ∈ c.shared.users.rows ∧ user.token = "old" := by
  have hexec : Config.exec (act agingEnvironment) (fun _ l => receives l) ⟨.empty, []⟩
      beforeAdmission = some _ := rfl
  have hrun : Run (act agingEnvironment) Receives ⟨.empty, []⟩ _ _ :=
    (run_of_exec hexec).mono receives_of_test
  obtain ⟨token, user, heq, -, hissued, -, -, hmem, htoken, -⟩ := admission_sound hrun
    (t := .findUser (projectOf "old") "old" true) (r := projectOf "old") List.mem_cons_self
    (rfl : act agingEnvironment _ 2 _ = some _) List.mem_cons_self rfl
  cases heq
  exact ⟨_, _, user, hrun, hissued, hmem, htoken⟩

theorem issued_token_admitted_beforeInsertion :
    ∃ ls c s' user, Run (act agingEnvironment) Receives ⟨.empty, []⟩ ls c ∧
      act agingEnvironment (.insertRegistered annRegistration "old") 1 c.shared =
        some (s', [.answer user]) ∧
      act agingEnvironment (.receive (projectOf "old")) 4 s' =
        some (s', [.checkToken (projectOf "old") "old"]) := by
  have hexec : Config.exec (act agingEnvironment) (fun _ l => receives l) ⟨.empty, []⟩
      beforeInsertion = some _ := rfl
  have hrun : Run (act agingEnvironment) Receives ⟨.empty, []⟩ _ _ :=
    (run_of_exec hexec).mono receives_of_test
  have hothers : ∀ u ∈ ([] : List Task), u.Leaves 1 "old" :=
    fun _ h => absurd h List.not_mem_nil
  have hverifies : agingEnvironment.verifies "old" 4 = true := rfl
  exact ⟨_, _, _, _, hrun, rfl, (issued_token_admitted hrun (.refl _) (.inr ⟨_, _, rfl⟩) rfl
    hothers (.refl _) hverifies (r := projectOf "old") rfl rfl).1⟩

/-- The user adds a project, and logs in anew between the look-up and the put of the row. -/
def renewedMeanwhile : List (Move Task Nat) :=
  beforeAdmission ++ [.act 0 2, .act 0 2, .act 0 2,
    .call (.receive ⟨none, .authorize ⟨"ann", "word"⟩⟩), .act 0 6, .act 0 6, .act 0 6, .act 0 6,
    .act 0 6, .act 1 7]

/-- The authorization answers with the new token, which verifies and which no user has any
more. -/
theorem renewed_token_lost :
    ∃ ls c, Run (act agingEnvironment) Receives ⟨.empty, []⟩ ls c ∧
      (∃ user, Task.answer user ∈ c.tasks ∧ user.token = "new") ∧
      agingEnvironment.verifies "new" 8 = true ∧
      c.shared.users.getByIndex User.token "new" = none := by
  have hexec : Config.exec (act agingEnvironment) (fun _ l => receives l) ⟨.empty, []⟩
      renewedMeanwhile = some _ := rfl
  have hrun : Run (act agingEnvironment) Receives ⟨.empty, []⟩ _ _ :=
    (run_of_exec hexec).mono receives_of_test
  exact ⟨_, _, hrun, ⟨_, List.mem_cons_self, rfl⟩, rfl, rfl⟩

end Security

end ArtPlatform
