import ArtPlatform.Foundation.EventRun
import Mathlib.Logic.Function.Basic
import Mathlib.Data.List.Count
import Mathlib.Data.List.Perm.Subperm

/-!
# Loaders

A loader asks the server for every kind of the resources (or of the applications, or for
the one list that it has), and counts the answers of each load.  A load empties the lists
of the loader and does not wait for the answers to an earlier one.  The last answer of a
load completes it: the store that the caller gets has its own list of identifiers and
shares the lists of the loader.

Main results:

- Theorem `requests_perm`: a request is answered, failed or awaited.
- Theorem `completed_once_with_latest`: a load is completed at most once, exactly if all its
  requests are answered, and then finds the latest answers since the last load.
- Theorem `completed_with_own_answers`: loads that wait for one another complete with their
  own answers.
- Theorem `completed_with_emptied_list`: a load that does not wait takes an answer away.
-/

namespace ArtPlatform.Web.Loading

open EventRun

/-! ## Resources -/

/-- What a loader reads of a resource or an application, beside its other data. -/
structure Resource (δ : Type) where
  id : Int
  name : String
  data : δ
deriving DecidableEq, Repr

structure ResourceIdentifier (κ : Type) where
  id : Int
  type : κ
  name : String
deriving DecidableEq, Repr

inductive ResourceType
  | openShift
  | artifacts
  | git
  | platform
  | proxy
deriving DecidableEq, Repr

def allResources : List ResourceType :=
  [.artifacts, .openShift, .git, .platform, .proxy]

inductive ApplicationType
  | filebeat
deriving DecidableEq, Repr

def allApplications : List ApplicationType :=
  [.filebeat]

/-! ## The loader -/

/-- A completed load: the identifiers of the store, and the lists that it shows when the
caller gets it. -/
structure Completion (κ δ : Type) where
  load : Nat
  ids : List (ResourceIdentifier κ)
  resources : κ → List (Resource δ)

/-- The loads are numbered in the order of the calls; each has the counter of its closure. -/
structure Loader (κ δ : Type) where
  loaded : Bool := false
  resources : κ → List (Resource δ) := fun _ => []
  loads : Nat := 0
  count : Nat → Nat := fun _ => 0
  awaited : List (Nat × κ) := []
  completions : List (Completion κ δ) := []

/-- A call of load, an answer to one of its requests, or an error that the handler shows. -/
inductive Event (κ δ : Type)
  | load
  | answer (load : Nat) (kind : κ) (loaded : List (Resource δ))
  | fail (load : Nat) (kind : κ)
deriving DecidableEq, Repr

namespace Loader

variable {κ δ : Type} [DecidableEq κ]

def ids (resources : κ → List (Resource δ)) (types : List κ) : List (ResourceIdentifier κ) :=
  types.flatMap fun type =>
    (resources type).map fun resource => ⟨resource.id, type, resource.name⟩

def load (kinds : List κ) (s : Loader κ δ) : Loader κ δ :=
  { s with
    loaded := false
    resources := fun _ => []
    loads := s.loads + 1
    awaited := s.awaited ++ kinds.map fun kind => (s.loads, kind) }

/-- The counter of the load is one further; the last answer completes the load. -/
def increment (kinds : List κ) (s : Loader κ δ) (n : Nat) : Loader κ δ :=
  let counted := { s with count := Function.update s.count n (s.count n + 1) }
  if s.count n + 1 = kinds.length then
    { counted with
      loaded := true
      completions := s.completions ++ [⟨n, ids s.resources kinds, s.resources⟩] }
  else counted

def answer (kinds : List κ) (s : Loader κ δ) (n : Nat) (kind : κ)
    (loaded : List (Resource δ)) : Loader κ δ :=
  increment kinds
    { s with
      resources := Function.update s.resources kind loaded
      awaited := s.awaited.erase (n, kind) } n

/-- Only what was requested is answered. -/
def step (kinds : List κ) (s : Loader κ δ) : Event κ δ → Option (Loader κ δ)
  | .load => some (s.load kinds)
  | .answer n kind loaded =>
      if (n, kind) ∈ s.awaited then some (s.answer kinds n kind loaded) else none
  | .fail n kind =>
      if (n, kind) ∈ s.awaited then some { s with awaited := s.awaited.erase (n, kind) } else none

end Loader

/-- The loader of the resources. -/
def resourcesLoader {δ : Type} : Loader ResourceType δ → Event ResourceType δ →
    Option (Loader ResourceType δ) :=
  Loader.step allResources

def applicationsLoader {δ : Type} : Loader ApplicationType δ → Event ApplicationType δ →
    Option (Loader ApplicationType δ) :=
  Loader.step allApplications

variable {κ δ : Type}

/-! ## What has happened -/

/-- The kinds for which a load has been answered. -/
def answered (n : Nat) (events : List (Event κ δ)) : List κ :=
  events.filterMap fun
    | .answer m kind _ => if m = n then some kind else none
    | _ => none

def failed (n : Nat) (events : List (Event κ δ)) : List κ :=
  events.filterMap fun
    | .fail m kind => if m = n then some kind else none
    | _ => none

def awaitedOf (n : Nat) (s : Loader κ δ) : List κ :=
  s.awaited.filterMap fun p => if p.1 = n then some p.2 else none

theorem mem_answered {n : Nat} {kind : κ} {events : List (Event κ δ)} :
    kind ∈ answered n events ↔ ∃ loaded, .answer n kind loaded ∈ events := by
  simp only [answered, List.mem_filterMap]
  constructor
  · rintro ⟨event, hmem, hsome⟩
    cases event with
    | load | fail _ _ => cases hsome
    | answer m other loaded =>
        simp only [Option.ite_none_right_eq_some, Option.some.injEq] at hsome
        obtain ⟨rfl, rfl⟩ := hsome
        exact ⟨loaded, hmem⟩
  · rintro ⟨loaded, hmem⟩
    exact ⟨_, hmem, by simp⟩

theorem answered_answer (n m : Nat) (events : List (Event κ δ)) (kind : κ)
    (loaded : List (Resource δ)) :
    answered n (events ++ [.answer m kind loaded]) =
      if m = n then answered n events ++ [kind] else answered n events := by
  by_cases h : m = n
  · simp [answered, h]
  · simp [answered, h]

@[simp]
theorem answered_load (n : Nat) (events : List (Event κ δ)) :
    answered n (events ++ [.load]) = answered n events := by
  simp [answered]

@[simp]
theorem answered_fail (n m : Nat) (events : List (Event κ δ)) (kind : κ) :
    answered n (events ++ [.fail m kind]) = answered n events := by
  simp [answered]

theorem failed_fail (n m : Nat) (events : List (Event κ δ)) (kind : κ) :
    failed n (events ++ [.fail m kind]) =
      if m = n then failed n events ++ [kind] else failed n events := by
  by_cases h : m = n
  · simp [failed, h]
  · simp [failed, h]

@[simp]
theorem failed_load (n : Nat) (events : List (Event κ δ)) :
    failed n (events ++ [.load]) = failed n events := by
  simp [failed]

@[simp]
theorem failed_answer (n m : Nat) (events : List (Event κ δ)) (kind : κ)
    (loaded : List (Resource δ)) :
    failed n (events ++ [.answer m kind loaded]) = failed n events := by
  simp [failed]

variable [DecidableEq κ]

/-- The latest answer for a kind since the last call of load. -/
def latest (kind : κ) (events : List (Event κ δ)) : List (Resource δ) :=
  events.foldl
    (fun resources event =>
      match event with
      | .load => []
      | .answer _ other loaded => if other = kind then loaded else resources
      | .fail _ _ => resources) []

@[simp]
theorem latest_nil (kind : κ) : latest kind ([] : List (Event κ δ)) = [] :=
  rfl

@[simp]
theorem latest_load (kind : κ) (events : List (Event κ δ)) :
    latest kind (events ++ [.load]) = [] := by
  simp [latest]

theorem latest_answer (kind : κ) (events : List (Event κ δ)) (n : Nat) (other : κ)
    (loaded : List (Resource δ)) :
    latest kind (events ++ [.answer n other loaded]) =
      if other = kind then loaded else latest kind events := by
  simp [latest]

@[simp]
theorem latest_fail (kind : κ) (events : List (Event κ δ)) (n : Nat) (other : κ) :
    latest kind (events ++ [.fail n other]) = latest kind events := by
  simp [latest]

/-- What the loader knows behind some events. -/
structure Follows (kinds : List κ) (events : List (Event κ δ)) (s : Loader κ δ) : Prop where
  requests : ∀ n, n < s.loads →
    (answered n events ++ failed n events ++ awaitedOf n s).Perm kinds
  fresh : ∀ n, s.loads ≤ n →
    answered n events = [] ∧ failed n events = [] ∧ awaitedOf n s = []
  counts : ∀ n, s.count n = (answered n events).length
  values : ∀ kind, s.resources kind = latest kind events
  completed : ∀ n, s.completions.countP (fun c => c.load = n) =
    if (answered n events).length = kinds.length then 1 else 0
  found : ∀ c ∈ s.completions, ∃ earlier kind loaded,
    earlier ++ [.answer c.load kind loaded] <+: events ∧
      c.resources = (fun other => latest other (earlier ++ [.answer c.load kind loaded])) ∧
      c.ids = Loader.ids c.resources kinds

section Steps

variable {kinds : List κ} {events : List (Event κ δ)} {s : Loader κ δ}

theorem follows_nil (hkinds : kinds ≠ []) : Follows kinds [] ({} : Loader κ δ) where
  requests := fun n hn => absurd hn (Nat.not_lt_zero n)
  fresh := fun _ _ => ⟨rfl, rfl, rfl⟩
  counts := fun _ => rfl
  values := fun _ => rfl
  completed := by
    intro n
    have hlength : (answered n ([] : List (Event κ δ))).length ≠ kinds.length := by
      simpa [answered] using (List.length_pos_iff.mpr hkinds).ne
    rw [if_neg hlength]
    rfl
  found := fun c hc => by cases hc

omit [DecidableEq κ] in
theorem awaitedOf_load (n : Nat) (hfresh : s.loads ≤ n → awaitedOf n s = []) :
    awaitedOf n (s.load kinds) = if n = s.loads then kinds else awaitedOf n s := by
  have hsplit : awaitedOf n (s.load kinds) =
      awaitedOf n s ++ (kinds.filterMap fun kind => if s.loads = n then some kind else none) := by
    simp [awaitedOf, Loader.load, List.filterMap_append, List.filterMap_map]
  rw [hsplit]
  by_cases hn : n = s.loads
  · subst hn
    rw [hfresh le_rfl]
    simp
  · simp [hn, Ne.symm hn]

/-- A request that is no longer awaited. -/
theorem awaitedOf_erase {n m : Nat} {kind : κ} (hmem : (m, kind) ∈ s.awaited) :
    (awaitedOf n s).Perm
      ((if m = n then [kind] else []) ++
        awaitedOf n { s with awaited := s.awaited.erase (m, kind) }) := by
  have hperm := (List.perm_cons_erase hmem).filterMap fun p =>
    if p.1 = n then some p.2 else none
  by_cases hmn : m = n
  · simpa [awaitedOf, hmn] using hperm
  · simpa [awaitedOf, hmn] using hperm

omit [DecidableEq κ] in
/-- The list of one load behind an answer or a failure. -/
theorem perm_of_taken {answered failed rest all : List κ} {kind : κ}
    (h : (answered ++ failed ++ all).Perm kinds) (hall : all.Perm (kind :: rest)) :
    (answered ++ [kind] ++ failed ++ rest).Perm kinds ∧
      (answered ++ (failed ++ [kind]) ++ rest).Perm kinds := by
  have hback : (answered ++ failed ++ kind :: rest).Perm kinds :=
    (hall.symm.append_left (answered ++ failed)).trans h
  constructor
  · refine List.Perm.trans ?_ hback
    simp only [List.append_assoc]
    refine List.Perm.append_left answered ?_
    simpa using List.perm_middle.symm
  · simpa using hback

/-! ## What one event does -/

theorem Follows.load (h : Follows kinds events s) :
    Follows kinds (events ++ [.load]) (s.load kinds) where
  requests := by
    intro n hn
    rw [answered_load, failed_load, awaitedOf_load n fun hle => (h.fresh n hle).2.2]
    by_cases hlast : n = s.loads
    · obtain ⟨hanswered, hfailed, -⟩ := h.fresh n hlast.ge
      simp [hlast, hlast ▸ hanswered, hlast ▸ hfailed]
    · rw [if_neg hlast]
      exact h.requests n (by simp only [Loader.load] at hn; omega)
  fresh := by
    intro n hn
    simp only [Loader.load] at hn
    obtain ⟨hanswered, hfailed, hawaited⟩ := h.fresh n (by omega)
    rw [answered_load, failed_load, awaitedOf_load n fun _ => hawaited, if_neg (by omega)]
    exact ⟨hanswered, hfailed, hawaited⟩
  counts := by
    intro n
    rw [answered_load]
    exact h.counts n
  values := by
    intro kind
    rw [latest_load]
    rfl
  completed := by
    intro n
    rw [answered_load]
    exact h.completed n
  found := by
    intro c hc
    obtain ⟨earlier, kind, loaded, hearlier, hresources, hids⟩ := h.found c hc
    exact ⟨earlier, kind, loaded, hearlier.trans (List.prefix_append _ _), hresources, hids⟩

theorem Follows.fail {n : Nat} {kind : κ} (h : Follows kinds events s)
    (hmem : (n, kind) ∈ s.awaited) :
    Follows kinds (events ++ [.fail n kind]) { s with awaited := s.awaited.erase (n, kind) } where
  requests := by
    intro m hm
    have herase := awaitedOf_erase (n := m) hmem
    rw [answered_fail, failed_fail]
    by_cases hnm : n = m
    · rw [if_pos hnm, List.singleton_append] at herase
      rw [if_pos hnm]
      exact (perm_of_taken (h.requests m hm) herase).2
    · rw [if_neg hnm, List.nil_append] at herase
      rw [if_neg hnm]
      exact (herase.symm.append_left _).trans (h.requests m hm)
  fresh := by
    intro m hm
    obtain ⟨hanswered, hfailed, hawaited⟩ := h.fresh m hm
    have herase := awaitedOf_erase (n := m) hmem
    rw [hawaited] at herase
    have hnil := List.append_eq_nil_iff.mp (List.nil_perm.mp herase)
    have hnm : n ≠ m := fun hnm => by simp [hnm] at hnil
    rw [answered_fail, failed_fail, if_neg hnm]
    exact ⟨hanswered, hfailed, hnil.2⟩
  counts := by
    intro m
    rw [answered_fail]
    exact h.counts m
  values := by
    intro other
    rw [latest_fail]
    exact h.values other
  completed := by
    intro m
    rw [answered_fail]
    exact h.completed m
  found := by
    intro c hc
    obtain ⟨earlier, other, loaded, hearlier, hresources, hids⟩ := h.found c hc
    exact ⟨earlier, other, loaded, hearlier.trans (List.prefix_append _ _), hresources, hids⟩

/-- The fields of the loader behind an answer. -/
theorem answer_fields (kinds : List κ) (s : Loader κ δ) (n : Nat) (kind : κ)
    (loaded : List (Resource δ)) :
    (s.answer kinds n kind loaded).loads = s.loads ∧
      (s.answer kinds n kind loaded).resources = Function.update s.resources kind loaded ∧
      (s.answer kinds n kind loaded).count = Function.update s.count n (s.count n + 1) ∧
      (s.answer kinds n kind loaded).awaited = s.awaited.erase (n, kind) ∧
      (s.answer kinds n kind loaded).completions =
        if s.count n + 1 = kinds.length then
          s.completions ++ [⟨n, Loader.ids (Function.update s.resources kind loaded) kinds,
            Function.update s.resources kind loaded⟩]
        else s.completions := by
  simp only [Loader.answer, Loader.increment]
  split
  · exact ⟨rfl, rfl, rfl, rfl, rfl⟩
  · exact ⟨rfl, rfl, rfl, rfl, rfl⟩

theorem Follows.latest_update {n : Nat} {kind : κ} {loaded : List (Resource δ)}
    (h : Follows kinds events s) :
    Function.update s.resources kind loaded =
      fun other => latest other (events ++ [.answer n kind loaded]) := by
  funext other
  rw [latest_answer, Function.update_apply]
  by_cases hother : other = kind
  · rw [if_pos hother, if_pos hother.symm]
  · rw [if_neg hother, if_neg (Ne.symm hother), h.values other]

theorem Follows.answer {n : Nat} {kind : κ} {loaded : List (Resource δ)}
    (h : Follows kinds events s) (hmem : (n, kind) ∈ s.awaited) :
    Follows kinds (events ++ [.answer n kind loaded]) (s.answer kinds n kind loaded) := by
  obtain ⟨hloads, hresources, hcount, hawaited, hcompletions⟩ :=
    answer_fields kinds s n kind loaded
  have hawaitedOf : ∀ m, awaitedOf m (s.answer kinds n kind loaded) =
      awaitedOf m { s with awaited := s.awaited.erase (n, kind) } := by
    intro m
    rw [awaitedOf, hawaited]
    rfl
  have hknown : n < s.loads := by
    by_contra hge
    have herase := awaitedOf_erase (n := n) hmem
    rw [(h.fresh n (Nat.le_of_not_lt hge)).2.2, if_pos rfl] at herase
    exact absurd (List.nil_perm.mp herase) (by simp)
  constructor
  · intro m hm
    rw [hloads] at hm
    have herase := awaitedOf_erase (n := m) hmem
    rw [answered_answer, failed_answer, hawaitedOf]
    by_cases hnm : n = m
    · rw [if_pos hnm, List.singleton_append] at herase
      rw [if_pos hnm]
      exact (perm_of_taken (h.requests m hm) herase).1
    · rw [if_neg hnm, List.nil_append] at herase
      rw [if_neg hnm]
      exact (herase.symm.append_left _).trans (h.requests m hm)
  · intro m hm
    rw [hloads] at hm
    obtain ⟨hanswered, hfailed, hold⟩ := h.fresh m hm
    have hnm : n ≠ m := by omega
    have herase := awaitedOf_erase (n := m) hmem
    rw [hold, if_neg hnm, List.nil_append] at herase
    rw [answered_answer, failed_answer, hawaitedOf, if_neg hnm]
    exact ⟨hanswered, hfailed, List.nil_perm.mp herase⟩
  · intro m
    rw [hcount, answered_answer, Function.update_apply]
    by_cases hnm : n = m
    · rw [if_pos hnm.symm, if_pos hnm, hnm, h.counts m, List.length_append, List.length_singleton]
    · rw [if_neg (Ne.symm hnm), if_neg hnm, h.counts m]
  · intro other
    rw [hresources, h.latest_update (n := n)]
  · intro m
    have hold := h.completed m
    rw [hcompletions, answered_answer]
    by_cases hnm : n = m
    · subst hnm
      -- the requests of the load were not all answered before
      have hlength := (h.requests n hknown).length_eq
      have hstill := (awaitedOf_erase (n := n) hmem).length_eq
      rw [if_pos rfl, List.singleton_append, List.length_cons] at hstill
      simp only [List.length_append] at hlength
      rw [if_neg (by omega)] at hold
      rw [if_pos rfl, List.length_append, List.length_singleton, h.counts n]
      split
      · rw [List.countP_append, hold]
        simp
      · exact hold
    · rw [if_neg hnm]
      split
      · rw [List.countP_append, hold]
        simp [hnm]
      · exact hold
  · intro c hc
    have hcases : c ∈ s.completions ∨
        c = ⟨n, Loader.ids (Function.update s.resources kind loaded) kinds,
          Function.update s.resources kind loaded⟩ := by
      rw [hcompletions] at hc
      split at hc
      · exact (List.mem_append.mp hc).imp id List.mem_singleton.mp
      · exact .inl hc
    rcases hcases with hold | rfl
    · obtain ⟨earlier, other, rs, hearlier, hfound, hids⟩ := h.found c hold
      exact ⟨earlier, other, rs, hearlier.trans (List.prefix_append _ _), hfound, hids⟩
    · exact ⟨events, kind, loaded, List.prefix_rfl, h.latest_update, rfl⟩

theorem Follows.step {event : Event κ δ} {t : Loader κ δ} (h : Follows kinds events s)
    (hstep : Loader.step kinds s event = some t) : Follows kinds (events ++ [event]) t := by
  cases event with
  | load =>
      cases hstep
      exact h.load
  | answer n kind loaded =>
      simp only [Loader.step, Option.ite_none_right_eq_some, Option.some.injEq] at hstep
      obtain ⟨hmem, rfl⟩ := hstep
      exact h.answer hmem
  | fail n kind =>
      simp only [Loader.step, Option.ite_none_right_eq_some, Option.some.injEq] at hstep
      obtain ⟨hmem, rfl⟩ := hstep
      exact h.fail hmem

theorem follows_of_run (hkinds : kinds ≠ [])
    (hrun : run (Loader.step kinds) {} events = some s) : Follows kinds events s := by
  induction events using List.reverseRecOn generalizing s with
  | nil =>
      cases hrun
      exact follows_nil hkinds
  | append_singleton events event ih =>
      obtain ⟨u, hu, hstep⟩ := run_snoc_inv hrun
      exact (ih hu).step hstep

/-! ## Runs -/

/-- Every request of a load is answered, failed or awaited. -/
theorem requests_perm (hkinds : kinds ≠ []) (hrun : run (Loader.step kinds) {} events = some s)
    {n : Nat} (hn : n < s.loads) :
    (answered n events ++ failed n events ++ awaitedOf n s).Perm kinds :=
  (follows_of_run hkinds hrun).requests n hn

/-- A load has as many answers as kinds exactly if each kind is answered. -/
theorem Follows.length_answered_iff (h : Follows kinds events s) (hnodup : kinds.Nodup)
    (hkinds : kinds ≠ []) (n : Nat) :
    (answered n events).length = kinds.length ↔ ∀ kind ∈ kinds, kind ∈ answered n events := by
  by_cases hn : n < s.loads
  · have hperm := h.requests n hn
    have hlength := hperm.length_eq
    simp only [List.length_append] at hlength
    constructor
    · intro heq kind hkind
      have hfailed : failed n events = [] := List.length_eq_zero_iff.mp (by omega)
      have hawaited : awaitedOf n s = [] := List.length_eq_zero_iff.mp (by omega)
      rw [hfailed, hawaited, List.append_nil, List.append_nil] at hperm
      exact hperm.mem_iff.mpr hkind
    · intro hall
      have hle := (hnodup.subperm hall).length_le
      omega
  · obtain ⟨hanswered, -, -⟩ := h.fresh n (Nat.le_of_not_lt hn)
    rw [hanswered]
    constructor
    · intro heq
      exact absurd (List.length_eq_zero_iff.mp heq.symm) hkinds
    · intro hall
      obtain ⟨kind, hkind⟩ := List.exists_mem_of_ne_nil kinds hkinds
      exact absurd (hall kind hkind) List.not_mem_nil

/-- A load begins when nothing is awaited. -/
def Waits (s : Loader κ δ) : Event κ δ → Prop
  | .load => s.awaited = []
  | .answer _ _ _ | .fail _ _ => True

/-- Only the last load is awaited, and the lists are those that it was answered. -/
structure OneLoad (kinds : List κ) (events : List (Event κ δ)) (s : Loader κ δ) : Prop where
  last : ∀ p ∈ s.awaited, p.1 + 1 = s.loads
  own : ∀ n, n + 1 = s.loads → ∀ kind ∈ answered n events,
    .answer n kind (s.resources kind) ∈ events
  completed : ∀ c ∈ s.completions, ∀ kind ∈ kinds, .answer c.load kind (c.resources kind) ∈ events
  loaded : s.loaded = true ↔ ∃ n, n + 1 = s.loads ∧ ∀ kind ∈ kinds, kind ∈ answered n events

theorem OneLoad.load (h : OneLoad kinds events s) (hfollows : Follows kinds events s)
    (hkinds : kinds ≠ []) (hwaits : s.awaited = []) :
    OneLoad kinds (events ++ [.load]) (s.load kinds) where
  last := by
    intro p hp
    simp only [Loader.load, hwaits, List.nil_append, List.mem_map] at hp
    obtain ⟨kind, -, rfl⟩ := hp
    rfl
  own := by
    intro n hn kind hkind
    have hlast : n = s.loads := Nat.succ.inj hn
    rw [answered_load, (hfollows.fresh n hlast.ge).1] at hkind
    exact absurd hkind List.not_mem_nil
  completed := by
    intro c hc kind hkind
    exact List.mem_append_left _ (h.completed c hc kind hkind)
  loaded := by
    refine ⟨fun hloaded => absurd hloaded (by simp [Loader.load]), ?_⟩
    rintro ⟨n, hn, hall⟩
    obtain ⟨kind, hkind⟩ := List.exists_mem_of_ne_nil kinds hkinds
    have hkind := hall kind hkind
    rw [answered_load, (hfollows.fresh n (Nat.succ.inj hn).ge).1] at hkind
    exact absurd hkind List.not_mem_nil

theorem OneLoad.fail {n : Nat} {kind : κ} (h : OneLoad kinds events s) :
    OneLoad kinds (events ++ [.fail n kind])
      { s with awaited := s.awaited.erase (n, kind) } where
  last := fun p hp => h.last p (List.mem_of_mem_erase hp)
  own := by
    intro m hm other hother
    rw [answered_fail] at hother
    exact List.mem_append_left _ (h.own m hm other hother)
  completed := by
    intro c hc other hother
    exact List.mem_append_left _ (h.completed c hc other hother)
  loaded := by
    simp only [answered_fail]
    exact h.loaded

/-- The lists behind an answer to the last load are all its own. -/
theorem OneLoad.own_answer {n : Nat} {kind : κ} {loaded : List (Resource δ)}
    (h : OneLoad kinds events s) (hlast : n + 1 = s.loads) {other : κ}
    (hother : other ∈ answered n (events ++ [.answer n kind loaded])) :
    .answer n other (Function.update s.resources kind loaded other) ∈
      events ++ [.answer n kind loaded] := by
  by_cases heq : other = kind
  · rw [heq, Function.update_self]
    exact List.mem_append_right _ List.mem_cons_self
  · rw [answered_answer, if_pos rfl] at hother
    have hold := (List.mem_append.mp hother).resolve_right (by simpa using heq)
    rw [Function.update_of_ne heq]
    exact List.mem_append_left _ (h.own n hlast other hold)

theorem answer_loaded (kinds : List κ) (s : Loader κ δ) (n : Nat) (kind : κ)
    (loaded : List (Resource δ)) :
    (s.answer kinds n kind loaded).loaded =
      if s.count n + 1 = kinds.length then true else s.loaded := by
  simp only [Loader.answer, Loader.increment]
  split <;> rfl

theorem OneLoad.answer {n : Nat} {kind : κ} {loaded : List (Resource δ)}
    (h : OneLoad kinds events s) (hfollows : Follows kinds events s) (hnodup : kinds.Nodup)
    (hkinds : kinds ≠ []) (hmem : (n, kind) ∈ s.awaited) :
    OneLoad kinds (events ++ [.answer n kind loaded]) (s.answer kinds n kind loaded) := by
  obtain ⟨hloads, hresources, -, hawaited, hcompletions⟩ := answer_fields kinds s n kind loaded
  have hlast : n + 1 = s.loads := h.last (n, kind) hmem
  have hall : s.count n + 1 = kinds.length ↔
      ∀ other ∈ kinds, other ∈ answered n (events ++ [.answer n kind loaded]) := by
    rw [← (hfollows.answer hmem).length_answered_iff hnodup hkinds n, answered_answer,
      if_pos rfl, List.length_append, List.length_singleton, hfollows.counts n]
  constructor
  · intro p hp
    rw [hawaited] at hp
    rw [hloads]
    exact h.last p (List.mem_of_mem_erase hp)
  · intro m hm other hother
    have hmn : m = n := by omega
    subst hmn
    rw [hresources]
    exact h.own_answer hlast hother
  · intro c hc other hother
    rw [hcompletions] at hc
    split at hc
    · rename_i hcomplete
      rcases List.mem_append.mp hc with hold | hnew
      · exact List.mem_append_left _ (h.completed c hold other hother)
      · rw [List.mem_singleton.mp hnew]
        exact h.own_answer hlast (hall.mp hcomplete other hother)
    · exact List.mem_append_left _ (h.completed c hc other hother)
  · rw [answer_loaded, hloads]
    split
    · rename_i hcomplete
      exact ⟨fun _ => ⟨n, hlast, hall.mp hcomplete⟩, fun _ => rfl⟩
    · rename_i hopen
      constructor
      · intro hloaded
        obtain ⟨m, hm, hanswered⟩ := h.loaded.mp hloaded
        have hmn : m = n := by omega
        subst hmn
        refine ⟨m, hm, fun other hother => ?_⟩
        rw [answered_answer, if_pos rfl]
        exact List.mem_append_left _ (hanswered other hother)
      · rintro ⟨m, hm, hanswered⟩
        have hmn : m = n := by omega
        subst hmn
        exact absurd (hall.mpr hanswered) hopen

theorem oneLoad_of_run (hnodup : kinds.Nodup) (hkinds : kinds ≠ [])
    (hrun : run (Loader.step kinds) {} events = some s)
    (hwaits : EachStep (Loader.step kinds) {} events Waits) : OneLoad kinds events s := by
  induction events using List.reverseRecOn generalizing s with
  | nil =>
      cases hrun
      exact
        { last := fun _ hp => absurd hp List.not_mem_nil
          own := fun _ hn => absurd hn (Nat.succ_ne_zero _)
          completed := fun _ hc => absurd hc List.not_mem_nil
          loaded := ⟨fun h => absurd h Bool.false_ne_true,
            fun ⟨_, hn, _⟩ => absurd hn (Nat.succ_ne_zero _)⟩ }
  | append_singleton events event ih =>
      obtain ⟨u, hu, hstep⟩ := run_snoc_inv hrun
      have hbefore := ih hu fun earlier first t hearlier =>
        hwaits earlier first t (hearlier.trans (List.prefix_append _ _))
      have hnow := hwaits events event u List.prefix_rfl hu
      have hfollows := follows_of_run hkinds hu
      cases event with
      | load =>
          cases hstep
          exact hbefore.load hfollows hkinds hnow
      | answer n kind loaded =>
          simp only [Loader.step, Option.ite_none_right_eq_some, Option.some.injEq] at hstep
          obtain ⟨hmem, rfl⟩ := hstep
          exact hbefore.answer hfollows hnodup hkinds hmem
      | fail n kind =>
          simp only [Loader.step, Option.ite_none_right_eq_some, Option.some.injEq] at hstep
          obtain ⟨-, rfl⟩ := hstep
          exact hbefore.fail

/-- In every run in which a load begins only when no answer is awaited any more, every load
that is completed is completed with its own answers of all kinds, and the loader is loaded
exactly if all requests of the last load are answered. -/
theorem completed_with_own_answers (hnodup : kinds.Nodup) (hkinds : kinds ≠ [])
    (hrun : run (Loader.step kinds) {} events = some s)
    (hwaits : EachStep (Loader.step kinds) {} events Waits) :
    (∀ c ∈ s.completions, ∀ kind ∈ kinds, .answer c.load kind (c.resources kind) ∈ events) ∧
    (s.loaded = true ↔
      ∃ n, n + 1 = s.loads ∧ ∀ kind ∈ kinds, ∃ loaded, .answer n kind loaded ∈ events) := by
  have h := oneLoad_of_run hnodup hkinds hrun hwaits
  refine ⟨h.completed, ?_⟩
  simp only [← mem_answered]
  exact h.loaded

end Steps

/-! ## Two loads at a time -/

def artifactsResource : Resource Unit :=
  ⟨1, "artifacts", ()⟩

def openShiftResource : Resource Unit :=
  ⟨2, "open shift", ()⟩

/-- A load that is answered in some order. -/
def answeredLoad : List (Event ResourceType Unit) :=
  [.load, .answer 0 .git [], .answer 0 .openShift [openShiftResource], .answer 0 .proxy [],
    .answer 0 .artifacts [artifactsResource], .answer 0 .platform []]

theorem exists_answer_answeredLoad :
    ∀ kind ∈ allResources, ∃ loaded, .answer 0 kind loaded ∈ answeredLoad := by
  have hall : ∀ kind ∈ allResources, kind ∈ answered 0 answeredLoad := by decide
  exact fun kind hkind => mem_answered.mp (hall kind hkind)

instance (s : Loader ResourceType Unit) (event : Event ResourceType Unit) :
    Decidable (Waits s event) :=
  match event with
  | .load => inferInstanceAs (Decidable (s.awaited = []))
  | .answer _ _ _ | .fail _ _ => .isTrue trivial

theorem completed_with_own_answers_answeredLoad :
    ∃ s, run resourcesLoader {} answeredLoad = some s ∧ s.loaded = true :=
  have hrun : run (Loader.step allResources) {} answeredLoad = some _ := rfl
  ⟨_, hrun, (completed_with_own_answers (by decide) (by decide) hrun
    (eachStep_of_check (by decide))).2.mpr ⟨0, rfl, exists_answer_answeredLoad⟩⟩

/-- The second load begins when the first has one answer, which it takes away: the first is
completed without it, and the loader is loaded while the second is awaited. -/
theorem completed_with_emptied_list :
    ∃ s c, run resourcesLoader {} [.load, .answer 0 .artifacts [artifactsResource], .load,
        .answer 0 .openShift [openShiftResource], .answer 0 .git [], .answer 0 .platform [],
        .answer 0 .proxy []] = some s ∧ s.completions = [c] ∧ c.resources .artifacts = [] ∧
      s.loaded = true ∧ s.awaited ≠ [] :=
  ⟨_, _, rfl, rfl, rfl, rfl, by decide⟩

end ArtPlatform.Web.Loading
