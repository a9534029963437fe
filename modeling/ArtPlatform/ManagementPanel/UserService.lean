import ArtPlatform.ManagementPanel.PanelAction

/-!
# Users

A registration creates a token and stores it, then looks the requested name and e-mail
up, and inserts the user last.  A registration that is refused leaves its token in the
database.  The database has unique indexes on the names, the e-mails and the tokens.

Main results:

- Theorem `registerUser_eq`: what a registration answers and what it leaves.
- Theorem `identified_storeAfter`: in a reachable store no two users share a name, an
  e-mail or a token.
- Theorem `registration_atomic_iff`: a registration is atomic exactly when neither the
  name nor the e-mail belongs to a stored user, or the database rejects the token.
-/

namespace ArtPlatform

structure User where
  id : Nat
  name : String
  token : String
  fullName : String
  password : List UInt8
  email : String
  admin : Bool := false
  updateTimeStamp : Nat
  availableProjects : List Nat := []
  availableActions : List String := []
deriving DecidableEq, Repr

/-- A row of the tokens. -/
structure Token where
  id : Nat
  value : String
deriving DecidableEq, Repr

structure UserRegistrationRequest where
  name : String
  fullName : String
  password : String
  email : String

structure UserAuthorizationRequest where
  name : String
  password : String

instance : Keyed User Nat := ⟨User.id⟩
instance : Keyed Token Nat := ⟨Token.id⟩

@[simp] theorem key_user (user : User) : Keyed.key user = user.id := rfl
@[simp] theorem key_token (token : Token) : Keyed.key token = token.id := rfl

structure UserDatabase where
  users : Space User
  tokens : Space Token

/-- The panel's configuration, and what libraries answer: the signed token of a name and a
time, its verification, and the text of bytes. -/
structure UserEnvironment where
  administratorName : String
  administratorPassword : String
  defaultUserRights : List String
  createToken : String → Nat → String
  verifies : String → Nat → Bool
  text : List UInt8 → String

namespace UserDatabase

def NAME_INDEX_NAME : String := "name"
def TOKEN_INDEX_NAME : String := "token"
def EMAIL_INDEX_NAME : String := "email"

def empty : UserDatabase :=
  ⟨.empty, .empty⟩

/-! ## Securing -/

/-- Passwords are stored as they are. -/
def encrypt (value : List UInt8) : List UInt8 :=
  value

def decrypt (value : List UInt8) : List UInt8 :=
  value

/-! ## The repositories -/

/-- The unique index that rejects a row. -/
def rejecting (s : UserDatabase) (user : User) : Option String :=
  if s.users.taken User.name user then some NAME_INDEX_NAME
  else if s.users.taken User.token user then some TOKEN_INDEX_NAME
  else if s.users.taken User.email user then some EMAIL_INDEX_NAME
  else none

def storeUser (user : User) : PanelAction UserDatabase User := fun s =>
  match s.rejecting user with
  | some index => .error (.duplicateKey index) s
  | none => .ok user { s with users := s.users.put user }

def putUser (user : User) (now : Nat) : PanelAction UserDatabase User :=
  storeUser { user with password := encrypt user.password, updateTimeStamp := now }

/-- The row of a user without an id, which the database gives to it. -/
def insertUser (user : Nat → User) : PanelAction UserDatabase User := do
  let id := (← get).users.freshKey
  storeUser { user id with password := encrypt (user id).password }

def getUser (id : Nat) : PanelAction UserDatabase User := do
  let user ← PanelAction.orElseThrow ((← get).users.get id) ⟨.userDoesNotExists,
    s!"User with an id '{id}' does not exist"⟩
  pure { user with password := decrypt user.password }

def getUserByName (name : String) : PanelAction UserDatabase (Option User) := do
  pure (((← get).users.getByIndex User.name name).map fun user =>
    { user with password := decrypt user.password })

def getUserByEmail (email : String) : PanelAction UserDatabase (Option User) := do
  pure (((← get).users.getByIndex User.email email).map fun user =>
    { user with password := decrypt user.password })

def deleteUser (id : Nat) : PanelAction UserDatabase User := do
  let user ← getUser id
  modify fun s => { s with users := s.users.delete id }
  pure user

def putToken (token : String) : PanelAction UserDatabase String := fun s =>
  if s.tokens.taken Token.value ⟨s.tokens.freshKey, token⟩ then
    .error (.duplicateKey TOKEN_INDEX_NAME) s
  else .ok token { s with tokens := s.tokens.put ⟨s.tokens.freshKey, token⟩ }

def getToken (token : String) : PanelAction UserDatabase (Option String) := do
  pure (((← get).tokens.getByIndex Token.value token).map Token.value)

end UserDatabase

/-! ## The services -/

open UserDatabase

namespace UserService

def GLOBAL_ADMINISTRATOR_ACTIONS : List String :=
  ["CONFIGURATIONS_MANAGEMENT", "PROJECTS_MANAGEMENT", "ASSEMBLIES_MANAGEMENT",
    "RESOURCES_MANAGEMENT", "MODULES_MANAGEMENT", "NETWORK_ACCESSES_CHECKING",
    "LOAD_TESTS_MANAGEMENT", "APPLICATIONS_MANAGEMENT", "ADMINISTRATION"]

variable (env : UserEnvironment)

def generateToken (name : String) (now : Nat) : PanelAction UserDatabase String :=
  putToken (env.createToken name now)

def checkToken (token : String) (now : Nat) : PanelAction UserDatabase Bool := do
  let stored ← getToken token
  pure (stored.isSome && env.verifies token now)

def isAdmin (name password : String) : Bool :=
  password = env.administratorPassword && name = env.administratorName

def getInitialUserActions (name password : String) : List String :=
  if isAdmin env name password then GLOBAL_ADMINISTRATOR_ACTIONS else env.defaultUserRights

def authorize (request : UserAuthorizationRequest) (now : Nat) :
    PanelAction UserDatabase User := do
  let named ← getUserByName request.name
  let mailed ← getUserByEmail request.name
  let user ← PanelAction.orElseThrow (named.or mailed) { code := .userDoesNotExists }
  if env.text user.password ≠ request.password then
    PanelAction.raise .invalidPassword
  else
    let valid ← checkToken env user.token now
    if valid then pure user
    else
      let token ← generateToken env request.name now
      putUser { user with token := token } now

/-- The user of a registration, under its id. -/
def registeredUser (request : UserRegistrationRequest) (now : Nat) (token : String)
    (id : Nat) : User where
  id := id
  name := request.name
  token := token
  fullName := request.fullName
  password := request.password.toUTF8.toList
  email := request.email
  admin := isAdmin env request.name request.password
  updateTimeStamp := now
  availableActions := getInitialUserActions env request.name request.password

def registerUser (request : UserRegistrationRequest) (now : Nat) :
    PanelAction UserDatabase User := do
  let token ← generateToken env request.name now
  let user := registeredUser env request now token
  let named ← getUserByName request.name
  if named.isSome then PanelAction.raise .userAlreadyExists
  else
    let mailed ← getUserByEmail request.email
    if mailed.isSome then PanelAction.raise .userAlreadyExists
    else insertUser user

/-- What the addition of a project does to the users. -/
def addAvailableProject (id projectId now : Nat) : PanelAction UserDatabase User := do
  let user ← getUser id
  putUser { user with availableProjects := user.availableProjects.insert projectId } now

end UserService

open UserService

/-- The requests that write users and tokens. -/
inductive UserOperation
  | register (request : UserRegistrationRequest) (now : Nat)
  | authorize (request : UserAuthorizationRequest) (now : Nat)
  | update (user : User) (now : Nat)
  | addAvailableProject (id projectId now : Nat)
  | delete (id : Nat)

namespace UserOperation

def perform (env : UserEnvironment) : UserOperation → PanelAction UserDatabase User
  | .register request now => registerUser env request now
  | .authorize request now => UserService.authorize env request now
  | .update user now => putUser user now
  | .addAvailableProject id projectId now => UserService.addAvailableProject id projectId now
  | .delete id => deleteUser id

/-- The store that a sequence of requests leaves, failed ones included. -/
def storeAfter (env : UserEnvironment) (operations : List UserOperation) : UserDatabase :=
  operations.foldl (fun s operation => (operation.perform env).storeAfter s) .empty

end UserOperation

/-! ## What a registration does -/

namespace UserDatabase

/-- The database after a token is stored. -/
def withToken (s : UserDatabase) (token : String) : UserDatabase :=
  { s with tokens := s.tokens.put ⟨s.tokens.freshKey, token⟩ }

variable {s : UserDatabase}

/-- The database rejects a token exactly when it is stored. -/
theorem taken_token_iff (s : UserDatabase) (token : String) :
    s.tokens.taken Token.value ⟨s.tokens.freshKey, token⟩ = true ↔
      ∃ stored ∈ s.tokens.rows, stored.value = token := by
  rw [Space.taken_eq_true_iff]
  constructor
  · rintro ⟨stored, hstored, hvalue, -⟩
    exact ⟨stored, hstored, hvalue⟩
  · rintro ⟨stored, hstored, hvalue⟩
    exact ⟨stored, hstored, hvalue, Nat.ne_of_lt (s.tokens.key_lt_freshKey hstored)⟩

theorem withToken_tokens (s : UserDatabase) (token : String) :
    (s.withToken token).tokens.rows = ⟨s.tokens.freshKey, token⟩ :: s.tokens.rows :=
  Space.rows_put_of_get_eq_none s.tokens.get_freshKey

theorem withToken_ne (s : UserDatabase) (token : String) : s.withToken token ≠ s := by
  intro heq
  have hlength := congrArg (fun s => s.tokens.rows.length) heq
  simp [withToken_tokens] at hlength

theorem rejecting_eq_none_iff (user : User) :
    s.rejecting user = none ↔
      s.users.taken User.name user = false ∧ s.users.taken User.token user = false ∧
        s.users.taken User.email user = false := by
  unfold rejecting
  split
  · simp_all
  · split
    · simp_all
    · split <;> simp_all

end UserDatabase

namespace UserService

variable (env : UserEnvironment) (request : UserRegistrationRequest) (now : Nat)

/-- A stored user has the requested name or e-mail. -/
def AlreadyExists (s : UserDatabase) : Prop :=
  ∃ user ∈ s.users.rows, user.name = request.name ∨ user.email = request.email

theorem generateToken_eq (name : String) (s : UserDatabase) :
    generateToken env name now s =
      if s.tokens.taken Token.value ⟨s.tokens.freshKey, env.createToken name now⟩ then
        .error (.duplicateKey TOKEN_INDEX_NAME) s
      else .ok (env.createToken name now) (s.withToken (env.createToken name now)) :=
  rfl

/-- The checks and the insertion that follow the token. -/
theorem registerUser_eq (s : UserDatabase) :
    registerUser env request now s =
      if s.tokens.taken Token.value
          ⟨s.tokens.freshKey, env.createToken request.name now⟩ then
        .error (.duplicateKey TOKEN_INDEX_NAME) s
      else if (s.users.getByIndex User.name request.name).isSome ||
          (s.users.getByIndex User.email request.email).isSome then
        .error (.raised { code := .userAlreadyExists })
          (s.withToken (env.createToken request.name now))
      else
        storeUser (registeredUser env request now (env.createToken request.name now)
          s.users.freshKey) (s.withToken (env.createToken request.name now)) := by
  unfold registerUser
  rw [PanelAction.bind_apply, generateToken_eq]
  by_cases htaken : s.tokens.taken Token.value
      ⟨s.tokens.freshKey, env.createToken request.name now⟩ = true
  · rw [if_pos htaken, if_pos htaken]
  · rw [if_neg htaken, if_neg htaken]
    simp only [getUserByName, getUserByEmail, PanelAction.bind_apply, PanelAction.get_apply,
      PanelAction.pure_apply, Option.isSome_map]
    have husers : (s.withToken (env.createToken request.name now)).users = s.users := rfl
    rw [husers]
    cases hname : (s.users.getByIndex User.name request.name).isSome with
    | true => rfl
    | false =>
        simp only [Bool.false_eq_true, ↓reduceIte, PanelAction.bind_apply,
          PanelAction.get_apply, PanelAction.pure_apply, Option.isSome_map, husers,
          Bool.false_or]
        cases hemail : (s.users.getByIndex User.email request.email).isSome with
        | true => rfl
        | false => rfl

theorem alreadyExists_iff (s : UserDatabase) :
    AlreadyExists request s ↔
      ((s.users.getByIndex User.name request.name).isSome ||
        (s.users.getByIndex User.email request.email).isSome) = true := by
  rw [Bool.or_eq_true, Space.getByIndex_isSome_iff, Space.getByIndex_isSome_iff]
  constructor
  · rintro ⟨user, huser, hname | hemail⟩
    · exact .inl ⟨user, huser, hname⟩
    · exact .inr ⟨user, huser, hemail⟩
  · rintro (⟨user, huser, hname⟩ | ⟨user, huser, hemail⟩)
    · exact ⟨user, huser, .inl hname⟩
    · exact ⟨user, huser, .inr hemail⟩

end UserService

/-! ## Reachable stores -/

/-- No two users share a name, an e-mail or a token. -/
structure UserDatabase.Identified (s : UserDatabase) : Prop where
  names : s.users.Distinct User.name
  tokens : s.users.Distinct User.token
  emails : s.users.Distinct User.email

open PanelAction

variable {env : UserEnvironment}

/-- The unique indexes keep the users identified. -/
theorem keeps_storeUser (user : User) : Keeps Identified (storeUser user) := by
  intro s hs
  cases hrejecting : s.rejecting user with
  | some index =>
      have hresult : storeUser user s = .error (.duplicateKey index) s := by
        simp [storeUser, hrejecting]
      rw [storeAfter_of_error hresult]
      exact hs
  | none =>
      have hresult : storeUser user s = .ok user { s with users := s.users.put user } := by
        simp [storeUser, hrejecting]
      obtain ⟨hname, htoken, hemail⟩ := (rejecting_eq_none_iff user).mp hrejecting
      rw [storeAfter_of_ok hresult]
      exact
        { names := (Space.distinct_put_iff hs.names).mpr hname
          tokens := (Space.distinct_put_iff hs.tokens).mpr htoken
          emails := (Space.distinct_put_iff hs.emails).mpr hemail }

theorem keeps_putUser (user : User) (now : Nat) : Keeps Identified (putUser user now) :=
  keeps_storeUser _

theorem keeps_getUser (id : Nat) : Keeps Identified (getUser id) := by
  unfold getUser
  refine keeps_get.bind fun s => ?_
  refine (keeps_orElseThrow _ _).bind fun user => ?_
  exact keeps_pure _

theorem keeps_generateToken (name : String) (now : Nat) :
    Keeps Identified (generateToken env name now) := by
  intro s hs
  unfold storeAfter
  rw [generateToken_eq]
  split
  · rename_i hresult
    split at hresult
    · cases hresult
    · cases hresult
      exact ⟨hs.names, hs.tokens, hs.emails⟩
  · rename_i hresult
    split at hresult
    · cases hresult
      exact hs
    · cases hresult

theorem keeps_getUserByName (name : String) : Keeps Identified (getUserByName name) :=
  keeps_get.bind fun _ => keeps_pure _

theorem keeps_getUserByEmail (email : String) : Keeps Identified (getUserByEmail email) :=
  keeps_get.bind fun _ => keeps_pure _

theorem keeps_checkToken (token : String) (now : Nat) :
    Keeps Identified (checkToken env token now) :=
  (keeps_get.bind fun _ => keeps_pure _).bind fun _ => keeps_pure _

theorem keeps_registerUser (request : UserRegistrationRequest) (now : Nat) :
    Keeps Identified (registerUser env request now) := by
  refine (keeps_generateToken _ _).bind fun token => ?_
  refine (keeps_getUserByName _).bind fun named => ?_
  split
  · exact keeps_raise _
  · refine (keeps_getUserByEmail _).bind fun mailed => ?_
    split
    · exact keeps_raise _
    · unfold insertUser
      refine keeps_get.bind fun s => ?_
      exact keeps_storeUser _

theorem keeps_authorize (request : UserAuthorizationRequest) (now : Nat) :
    Keeps Identified (UserService.authorize env request now) := by
  refine (keeps_getUserByName _).bind fun named => ?_
  refine (keeps_getUserByEmail _).bind fun mailed => ?_
  refine (keeps_orElseThrow _ _).bind fun user => ?_
  split
  · exact keeps_raise _
  · refine (keeps_checkToken _ _).bind fun valid => ?_
    split
    · exact keeps_pure _
    · refine (keeps_generateToken _ _).bind fun token => ?_
      exact keeps_putUser _ _

theorem keeps_addAvailableProject (id projectId now : Nat) :
    Keeps Identified (UserService.addAvailableProject id projectId now) := by
  refine (keeps_getUser id).bind fun user => ?_
  exact keeps_putUser _ _

theorem keeps_deleteUser (id : Nat) : Keeps Identified (deleteUser id) := by
  refine (keeps_getUser id).bind fun user => ?_
  intro s hs
  exact ⟨hs.names.delete id, hs.tokens.delete id, hs.emails.delete id⟩

namespace UserOperation

theorem keeps_perform (operation : UserOperation) :
    Keeps Identified (operation.perform env) := by
  cases operation with
  | register request now => exact keeps_registerUser request now
  | authorize request now => exact keeps_authorize request now
  | update user now => exact keeps_putUser user now
  | addAvailableProject id projectId now => exact keeps_addAvailableProject id projectId now
  | delete id => exact keeps_deleteUser id

/-- In a reachable store no two users share a name, an e-mail or a token. -/
theorem identified_storeAfter (env : UserEnvironment) (operations : List UserOperation) :
    (storeAfter env operations).Identified := by
  induction operations using List.reverseRecOn with
  | nil => exact ⟨Space.distinct_empty, Space.distinct_empty, Space.distinct_empty⟩
  | append_singleton operations operation ih =>
      unfold storeAfter at ih ⊢
      rw [List.foldl_concat]
      exact keeps_perform operation _ ih

end UserOperation

/-! ## Atomic registrations -/

namespace UserService

/-- A registration is atomic: a refused one leaves the database, and one that succeeds
adds one user with its token, and keeps the names and the e-mails distinct. -/
structure Atomic (env : UserEnvironment) (request : UserRegistrationRequest) (now : Nat)
    (s : UserDatabase) : Prop where
  unchanged : (registerUser env request now).Raises s .userAlreadyExists →
    (registerUser env request now).storeAfter s = s
  added : ∀ user s', registerUser env request now s = .ok user s' →
    s'.users.rows.Perm (user :: s.users.rows) ∧
      (∃ id, s'.tokens.rows.Perm (⟨id, user.token⟩ :: s.tokens.rows)) ∧
      s'.users.Distinct User.name ∧ s'.users.Distinct User.email

variable {request : UserRegistrationRequest} {now : Nat} {s : UserDatabase}

/-- A registration that succeeds adds one user with its token. -/
theorem registerUser_adds (hs : s.Identified) {user : User} {s' : UserDatabase}
    (h : registerUser env request now s = .ok user s') :
    s'.users.rows.Perm (user :: s.users.rows) ∧
      (∃ id, s'.tokens.rows.Perm (⟨id, user.token⟩ :: s.tokens.rows)) ∧
      s'.users.Distinct User.name ∧ s'.users.Distinct User.email := by
  have hidentified : s'.Identified := by
    have hregister : Keeps Identified (registerUser env request now) :=
      keeps_registerUser request now
    have hkeeps := hregister s hs
    rwa [storeAfter_of_ok h] at hkeeps
  rw [registerUser_eq] at h
  split at h
  · cases h
  · split at h
    · cases h
    · unfold storeUser at h
      split at h
      · cases h
      · cases h
        refine ⟨?_, ⟨s.tokens.freshKey, ?_⟩, hidentified.names, hidentified.emails⟩
        · exact List.Perm.of_eq (Space.rows_put_of_get_eq_none s.users.get_freshKey)
        · exact List.Perm.of_eq (s.withToken_tokens _)

/-- A refusal has stored the token. -/
theorem raises_userAlreadyExists_iff :
    (registerUser env request now).Raises s .userAlreadyExists ↔
      AlreadyExists request s ∧
        ¬ ∃ token ∈ s.tokens.rows, token.value = env.createToken request.name now := by
  rw [← taken_token_iff, alreadyExists_iff]
  unfold PanelAction.Raises
  rw [registerUser_eq]
  constructor
  · rintro ⟨exception, s', h, -⟩
    split at h
    · cases h
    · rename_i htaken
      split at h
      · rename_i hexists
        exact ⟨hexists, htaken⟩
      · unfold storeUser at h
        split at h <;> cases h
  · rintro ⟨hexists, htaken⟩
    rw [if_neg htaken, if_pos hexists]
    exact ⟨_, _, rfl, rfl⟩

theorem storeAfter_of_raises
    (h : (registerUser env request now).Raises s .userAlreadyExists) :
    (registerUser env request now).storeAfter s =
      s.withToken (env.createToken request.name now) := by
  obtain ⟨hexists, htaken⟩ := raises_userAlreadyExists_iff.mp h
  rw [← taken_token_iff] at htaken
  rw [alreadyExists_iff] at hexists
  unfold PanelAction.storeAfter
  rw [registerUser_eq, if_neg htaken, if_pos hexists]

/-- A registration is atomic exactly when neither the name nor the e-mail belongs to a
stored user, or the created token is stored already and the database rejects it. -/
theorem registration_atomic_iff (env : UserEnvironment) (operations : List UserOperation)
    (request : UserRegistrationRequest) (now : Nat) :
    Atomic env request now (UserOperation.storeAfter env operations) ↔
      (∀ user ∈ (UserOperation.storeAfter env operations).users.rows,
          user.name ≠ request.name ∧ user.email ≠ request.email) ∨
        ∃ token ∈ (UserOperation.storeAfter env operations).tokens.rows,
          token.value = env.createToken request.name now := by
  have hs := UserOperation.identified_storeAfter env operations
  generalize UserOperation.storeAfter env operations = s at hs ⊢
  have hnew : (∀ user ∈ s.users.rows,
      user.name ≠ request.name ∧ user.email ≠ request.email) ↔ ¬ AlreadyExists request s := by
    simp only [AlreadyExists, not_exists, not_and, not_or, ne_eq]
  rw [hnew]
  constructor
  · intro h
    by_contra hneither
    rw [not_or, not_not] at hneither
    have hraises := raises_userAlreadyExists_iff.mpr hneither
    have hsame := h.unchanged hraises
    rw [storeAfter_of_raises hraises] at hsame
    exact s.withToken_ne _ hsame
  · intro h
    refine ⟨fun hraises => ?_, fun user s' hresult => registerUser_adds hs hresult⟩
    obtain ⟨hexists, htaken⟩ := raises_userAlreadyExists_iff.mp hraises
    rcases h with hnew | hstored
    · exact absurd hexists hnew
    · exact absurd hstored htaken

/-! ## A refused registration -/

/-- A panel whose tokens tell the name and the time. -/
private def sampleEnvironment : UserEnvironment where
  administratorName := "admin"
  administratorPassword := "secret"
  defaultUserRights := ["MODULES_MANAGEMENT"]
  createToken name now := name ++ toString now
  verifies _ _ := true
  text _ := ""

private def sampleRequest : UserRegistrationRequest :=
  ⟨"ann", "Ann", "secret", "ann@mail"⟩

/-- A name that is registered a second time is refused, and the token stays. -/
theorem refused_registration_stores_token :
    (registerUser sampleEnvironment sampleRequest 2).Raises
        (UserOperation.storeAfter sampleEnvironment [.register sampleRequest 1])
        .userAlreadyExists ∧
      ¬ Atomic sampleEnvironment sampleRequest 2
        (UserOperation.storeAfter sampleEnvironment [.register sampleRequest 1]) := by
  have hraises : (registerUser sampleEnvironment sampleRequest 2).Raises
      (UserOperation.storeAfter sampleEnvironment [.register sampleRequest 1])
      .userAlreadyExists := by
    rw [raises_userAlreadyExists_iff]
    refine ⟨⟨_, List.mem_cons_self, .inl rfl⟩, ?_⟩
    decide
  refine ⟨hraises, fun h => ?_⟩
  have hsame := h.unchanged hraises
  rw [storeAfter_of_raises hraises] at hsame
  exact withToken_ne _ _ hsame

end UserService

end ArtPlatform
