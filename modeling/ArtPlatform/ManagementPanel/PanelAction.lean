import ArtPlatform.Foundation.UniqueIndex
import ArtPlatform.ManagementPanel.Store

/-!
# Actions of the panel on its database

A request of the panel reads and writes the database step by step.  A failure ends it,
and what it has written before stays: there is no transaction around a request.

The database rejects a row whose value of a unique index belongs to another row.  The
indexes that the panel creates are unique unless it says otherwise.
-/

namespace ArtPlatform

/-- What ends a request early: an exception of the panel, or the database's rejection
of a row. -/
inductive PanelFailure
  | raised (exception : PlatformException)
  | duplicateKey (index : String)
deriving DecidableEq, Repr

/-- A request on a store: its answer or its failure, with the store it leaves. -/
abbrev PanelAction (σ α : Type) := EStateM PanelFailure σ α

namespace PanelAction

variable {σ α β : Type}

/-- Raise an exception whose message is its code. -/
def raise (code : ErrorCode) : PanelAction σ α :=
  throw (.raised { code := code })

def orElseThrow (row : Option α) (exception : PlatformException) : PanelAction σ α :=
  match row with
  | some e => pure e
  | none => throw (.raised exception)

/-- Go on with the result of a repository operation, or raise its exception. -/
def ofExcept (result : Except PlatformException α) : PanelAction σ α :=
  match result with
  | .ok a => pure a
  | .error exception => throw (.raised exception)

/-- The store that a request leaves. -/
def storeAfter (action : PanelAction σ α) (s : σ) : σ :=
  match action s with
  | .ok _ s' => s'
  | .error _ s' => s'

/-- The request raises an exception of a code. -/
def Raises (action : PanelAction σ α) (s : σ) (code : ErrorCode) : Prop :=
  ∃ exception s', action s = .error (.raised exception) s' ∧ exception.code = code

theorem bind_apply (action : PanelAction σ α) (f : α → PanelAction σ β) (s : σ) :
    (action >>= f) s =
      match action s with
      | .ok a s' => f a s'
      | .error e s' => .error e s' := by
  change EStateM.bind action f s = _
  unfold EStateM.bind
  cases action s <;> rfl

theorem mapM_cons_apply (f : α → PanelAction σ β) (a : α) (as : List α) (s : σ) :
    (a :: as).mapM f s =
      match f a s with
      | .ok b s' =>
          match as.mapM f s' with
          | .ok bs s'' => .ok (b :: bs) s''
          | .error e s'' => .error e s''
      | .error e s' => .error e s' := by
  rw [List.mapM_cons, bind_apply]
  cases f a s with
  | ok b s' =>
      simp only [bind_apply]
      cases as.mapM f s' with
      | ok bs s'' => rfl
      | error e s'' => rfl
  | error e s' => rfl

@[simp]
theorem pure_apply (a : α) (s : σ) : (pure a : PanelAction σ α) s = .ok a s :=
  rfl

@[simp]
theorem get_apply (s : σ) : (get : PanelAction σ σ) s = .ok s s :=
  rfl

@[simp]
theorem modify_apply (f : σ → σ) (s : σ) :
    (modify f : PanelAction σ PUnit) s = .ok ⟨⟩ (f s) :=
  rfl

@[simp]
theorem raise_apply (code : ErrorCode) (s : σ) :
    (raise code : PanelAction σ α) s = .error (.raised { code := code }) s :=
  rfl

@[simp]
theorem ofExcept_ok (a : α) (s : σ) : (ofExcept (.ok a) : PanelAction σ α) s = .ok a s :=
  rfl

@[simp]
theorem ofExcept_error (exception : PlatformException) (s : σ) :
    (ofExcept (.error exception) : PanelAction σ α) s = .error (.raised exception) s :=
  rfl

theorem storeAfter_of_ok {action : PanelAction σ α} {s s' : σ} {a : α}
    (h : action s = .ok a s') : action.storeAfter s = s' := by
  simp [storeAfter, h]

theorem storeAfter_of_error {action : PanelAction σ α} {s s' : σ} {e : PanelFailure}
    (h : action s = .error e s') : action.storeAfter s = s' := by
  simp [storeAfter, h]

/-! ## What requests keep -/

/-- Whatever its outcome, the request keeps a property of the store. -/
def Keeps (P : σ → Prop) (action : PanelAction σ α) : Prop :=
  ∀ s, P s → P (action.storeAfter s)

variable {P : σ → Prop}

theorem keeps_pure (a : α) : Keeps P (pure a : PanelAction σ α) :=
  fun _ hs => hs

theorem keeps_get : Keeps P (get : PanelAction σ σ) :=
  fun _ hs => hs

theorem keeps_raise (code : ErrorCode) : Keeps P (raise code : PanelAction σ α) :=
  fun _ hs => hs

theorem keeps_orElseThrow (row : Option α) (exception : PlatformException) :
    Keeps P (orElseThrow row exception : PanelAction σ α) := by
  intro s hs
  cases row with
  | some e => exact hs
  | none => exact hs

/-- A request keeps what its parts keep. -/
theorem Keeps.bind {action : PanelAction σ α} {f : α → PanelAction σ β}
    (haction : Keeps P action) (hf : ∀ a, Keeps P (f a)) : Keeps P (action >>= f) := by
  intro s hs
  have hfirst := haction s hs
  unfold storeAfter at hfirst ⊢
  rw [bind_apply]
  cases hresult : action s with
  | ok a s' =>
      rw [hresult] at hfirst
      exact hf a s' hfirst
  | error e s' =>
      rw [hresult] at hfirst
      exact hfirst

end PanelAction

end ArtPlatform
