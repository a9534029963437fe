import Mathlib.Data.List.Basic
import Mathlib.Data.List.Induction
import Mathlib.Data.List.Nodup
import Mathlib.Tactic.Common

/-!
# Maps in order of insertion

A map that lists its entries in the order in which their keys were first put.  A
later put of a key replaces the value and keeps the place.  The entries carry the
proof that no key occurs twice.

Main results:

- Theorem `LinkedMap.get_put`: a put is visible at its own key and nowhere else.
- Theorem `LinkedMap.get_eq_some_iff`: the entries are exactly what `get` finds.
- Theorem `LinkedMap.mem_of_mem_ofEntries`: a map built from a list holds nothing
  else than entries of the list.
- Theorem `LinkedMap.forall_mem_ofEntries_iff`: exactly when it holds all of them.
- Theorem `LinkedMap.mem_uniqueBy`: the last element of each key, where a key determines it.
-/

structure LinkedMap (κ α : Type) where
  entries : List (κ × α)
  nodup : (entries.map Prod.fst).Nodup
deriving DecidableEq, Repr

namespace LinkedMap

variable {κ α : Type} [DecidableEq κ]

/-- The entries after a put: in place where the key is there, at the end otherwise. -/
def putEntry (key : κ) (value : α) : List (κ × α) → List (κ × α)
  | [] => [(key, value)]
  | e :: rest => if e.1 = key then (key, value) :: rest else e :: putEntry key value rest

attribute [local simp] putEntry in
theorem mem_keys_putEntry {key k : κ} {value : α} {entries : List (κ × α)} :
    k ∈ (putEntry key value entries).map Prod.fst ↔ k = key ∨ k ∈ entries.map Prod.fst := by
  induction entries with
  | nil => simp
  | cons e rest ih =>
      by_cases h : e.1 = key
      · rw [putEntry, if_pos h, List.map_cons, List.map_cons, List.mem_cons, List.mem_cons, h]
        exact or_self_left.symm
      · simp only [putEntry, if_neg h, List.map_cons, List.mem_cons, ih]
        exact or_left_comm

theorem nodup_putEntry (key : κ) (value : α) {entries : List (κ × α)}
    (h : (entries.map Prod.fst).Nodup) :
    ((putEntry key value entries).map Prod.fst).Nodup := by
  induction entries with
  | nil => exact List.nodup_singleton key
  | cons e rest ih =>
      rw [List.map_cons, List.nodup_cons] at h
      by_cases hkey : e.1 = key
      · simp only [putEntry, if_pos hkey, List.map_cons, List.nodup_cons]
        exact ⟨hkey ▸ h.1, h.2⟩
      · simp only [putEntry, if_neg hkey, List.map_cons, List.nodup_cons]
        refine ⟨?_, ih h.2⟩
        intro hmem
        rcases mem_keys_putEntry.mp hmem with heq | hrest
        · exact hkey heq
        · exact h.1 hrest

theorem mem_putEntry {key : κ} {value : α} {entries : List (κ × α)} {e : κ × α}
    (h : e ∈ putEntry key value entries) : e = (key, value) ∨ e ∈ entries := by
  induction entries with
  | nil => exact .inl (List.mem_singleton.mp h)
  | cons f rest ih =>
      by_cases hkey : f.1 = key
      · rw [putEntry, if_pos hkey] at h
        exact (List.mem_cons.mp h).imp_right (List.mem_cons_of_mem f)
      · rw [putEntry, if_neg hkey] at h
        rcases List.mem_cons.mp h with rfl | hrest
        · exact .inr List.mem_cons_self
        · exact (ih hrest).imp_right (List.mem_cons_of_mem f)

/-! ## The operations -/

def empty : LinkedMap κ α where
  entries := []
  nodup := List.nodup_nil

def get (m : LinkedMap κ α) (key : κ) : Option α :=
  (m.entries.find? fun e => e.1 = key).map Prod.snd

def put (m : LinkedMap κ α) (key : κ) (value : α) : LinkedMap κ α where
  entries := putEntry key value m.entries
  nodup := nodup_putEntry key value m.nodup

def values (m : LinkedMap κ α) : List α :=
  m.entries.map Prod.snd

/-- The value of a key, changed in its place. -/
def modify (m : LinkedMap κ α) (key : κ) (f : α → α) : LinkedMap κ α where
  entries := m.entries.map fun e => if e.1 = key then (e.1, f e.2) else e
  nodup := by
    rw [List.map_map]
    refine (congrArg List.Nodup (List.map_congr_left fun e _ => ?_)).mp m.nodup
    by_cases h : e.1 = key <;> simp [h]

def remove (m : LinkedMap κ α) (key : κ) : LinkedMap κ α where
  entries := m.entries.filter fun e => e.1 ≠ key
  nodup := m.nodup.sublist (List.filter_sublist.map Prod.fst)

/-- The map of a list of pairs: the last value of a key wins. -/
def ofEntries (entries : List (κ × α)) : LinkedMap κ α :=
  entries.foldl (fun m e => m.put e.1 e.2) empty

@[simp]
theorem get_empty (k : κ) : (empty : LinkedMap κ α).get k = none :=
  rfl

/-! ## Lookups -/

/-- A key determines its entry. -/
theorem get_eq_some_iff {m : LinkedMap κ α} {k : κ} {v : α} :
    m.get k = some v ↔ (k, v) ∈ m.entries := by
  rcases m with ⟨entries, hnodup⟩
  simp only [get]
  induction entries with
  | nil => simp
  | cons e rest ih =>
      rw [List.map_cons, List.nodup_cons] at hnodup
      by_cases h : e.1 = k
      · have hnot : (k, v) ∉ rest := by
          intro hmem
          exact hnodup.1 (h ▸ List.mem_map_of_mem (f := Prod.fst) hmem)
        simp [List.find?_cons_of_pos, h, hnot, Prod.ext_iff, eq_comm]
      · have hne : (k, v) ≠ e := fun heq => h (heq ▸ rfl)
        rw [List.find?_cons_of_neg (by simpa using h), ih hnodup.2, List.mem_cons,
          or_iff_right hne]

theorem get_put (m : LinkedMap κ α) (key k : κ) (value : α) :
    (m.put key value).get k = if k = key then some value else m.get k := by
  rcases m with ⟨entries, hnodup⟩
  simp only [get, put]
  clear hnodup
  induction entries with
  | nil =>
      by_cases h : k = key
      · simp [putEntry, h]
      · simp [putEntry, h, Ne.symm h]
  | cons e rest ih =>
      by_cases hkey : e.1 = key
      · by_cases h : k = key
        · simp [putEntry, hkey, h]
        · simp [putEntry, hkey, h, Ne.symm h]
      · by_cases h : e.1 = k
        · have hne : k ≠ key := fun heq => hkey (h.trans heq)
          simp [putEntry, h, hne]
        · rw [putEntry, if_neg hkey, List.find?_cons_of_neg (by simpa using h),
            List.find?_cons_of_neg (by simpa using h), ih]

/-- What holds of the old entries and of the new one holds of all afterwards. -/
theorem forall_entries_put {P : κ → α → Prop} {m : LinkedMap κ α} {key : κ} {value : α}
    (hold : ∀ e ∈ m.entries, P e.1 e.2) (hnew : P key value) :
    ∀ e ∈ (m.put key value).entries, P e.1 e.2 := by
  intro e he
  rcases mem_putEntry he with rfl | hmem
  · exact hnew
  · exact hold e hmem

/-- A map that is put together from a list holds entries of the list only. -/
theorem mem_of_mem_ofEntries {entries : List (κ × α)} {e : κ × α}
    (h : e ∈ (ofEntries entries).entries) : e ∈ entries := by
  have hfold : ∀ (rest : List (κ × α)) (m : LinkedMap κ α),
      (∀ f ∈ m.entries, f ∈ entries) → (∀ f ∈ rest, f ∈ entries) →
        ∀ f ∈ (rest.foldl (fun m e => m.put e.1 e.2) m).entries, f ∈ entries := by
    intro rest
    induction rest with
    | nil => exact fun m hm _ => hm
    | cons f rest ih =>
        intro m hm hrest
        rw [List.foldl_cons]
        apply ih
        · exact forall_entries_put (P := fun k v => (k, v) ∈ entries) hm
            (hrest f List.mem_cons_self)
        · exact fun g hg => hrest g (List.mem_cons_of_mem f hg)
  exact hfold entries empty (fun _ hf => nomatch hf) (fun _ hf => hf) e h

/-- A listed key is found, under one of its listed values. -/
theorem exists_get_ofEntries {entries : List (κ × α)} {k : κ}
    (h : k ∈ entries.map Prod.fst) :
    ∃ v, (ofEntries entries).get k = some v ∧ (k, v) ∈ entries := by
  have hsome : ((ofEntries entries).get k).isSome = true := by
    induction entries using List.reverseRecOn with
    | nil => cases h
    | append_singleton entries e ih =>
        unfold ofEntries at ih ⊢
        rw [List.foldl_concat, get_put]
        split
        · rfl
        · rename_i hne
          apply ih
          simpa [hne] using h
  obtain ⟨v, hv⟩ := Option.isSome_iff_exists.mp hsome
  exact ⟨v, hv, mem_of_mem_ofEntries (get_eq_some_iff.mp hv)⟩

/-- The value that a list of pairs gives a key last. -/
def lastValue (entries : List (κ × α)) (key : κ) : Option α :=
  (entries.reverse.find? fun e => e.1 = key).map Prod.snd

theorem lastValue_append_singleton (entries : List (κ × α)) (e : κ × α) (key : κ) :
    lastValue (entries ++ [e]) key = if e.1 = key then some e.2 else lastValue entries key := by
  by_cases h : e.1 = key <;> simp [lastValue, h]

theorem lastValue_append (entries later : List (κ × α)) (key : κ) :
    lastValue (entries ++ later) key = (lastValue later key).or (lastValue entries key) := by
  induction later using List.reverseRecOn with
  | nil => simp [lastValue]
  | append_singleton later e ih =>
      rw [← List.append_assoc, lastValue_append_singleton, lastValue_append_singleton, ih]
      by_cases h : e.1 = key
      · simp [h]
      · simp [h]

theorem lastValue_eq_none_iff {entries : List (κ × α)} {key : κ} :
    lastValue entries key = none ↔ ∀ e ∈ entries, e.1 ≠ key := by
  simp [lastValue]

theorem mem_of_lastValue {entries : List (κ × α)} {key : κ} {value : α}
    (h : lastValue entries key = some value) : (key, value) ∈ entries := by
  simp only [lastValue, Option.map_eq_some_iff] at h
  rcases h with ⟨e, hfind, rfl⟩
  have hkey : e.1 = key := by simpa using List.find?_some hfind
  have hmem : e ∈ entries := List.mem_reverse.mp (List.mem_of_find?_eq_some hfind)
  rw [← hkey]
  exact hmem

/-- Of a list of pairs a map keeps the last value of each key. -/
theorem get_ofEntries (entries : List (κ × α)) (key : κ) :
    (ofEntries entries).get key = lastValue entries key := by
  induction entries using List.reverseRecOn with
  | nil => rfl
  | append_singleton entries e ih =>
      rw [lastValue_append_singleton, ← ih]
      unfold ofEntries
      rw [List.foldl_concat, get_put]
      by_cases h : e.1 = key
      · simp [h]
      · simp [h, Ne.symm h]

/-- A map holds every listed pair exactly when no key is listed with two values. -/
theorem forall_mem_ofEntries_iff {entries : List (κ × α)} :
    (∀ e, e ∈ (ofEntries entries).entries ↔ e ∈ entries) ↔
      ∀ e ∈ entries, ∀ f ∈ entries, e.1 = f.1 → e = f := by
  constructor
  · intro h e he f hf hkey
    have hget : (ofEntries entries).get e.1 = some e.2 := get_eq_some_iff.mpr ((h e).mpr he)
    have hget' : (ofEntries entries).get f.1 = some f.2 := get_eq_some_iff.mpr ((h f).mpr hf)
    rw [hkey, hget'] at hget
    exact Prod.ext hkey (Option.some.inj hget).symm
  · intro h e
    constructor
    · exact mem_of_mem_ofEntries
    · intro he
      obtain ⟨v, hv, hmem⟩ := exists_get_ofEntries (List.mem_map_of_mem (f := Prod.fst) he)
      have heq : (e.1, v) = e := h _ hmem e he rfl
      rw [← heq]
      exact get_eq_some_iff.mp hv

/-! ## Changes in place -/

theorem entries_put_of_fresh {m : LinkedMap κ α} {key : κ} {value : α}
    (h : key ∉ m.entries.map Prod.fst) :
    (m.put key value).entries = m.entries ++ [(key, value)] := by
  rcases m with ⟨entries, hnodup⟩
  simp only [put] at h ⊢
  clear hnodup
  induction entries with
  | nil => rfl
  | cons e rest ih =>
      rw [List.map_cons, List.mem_cons, not_or] at h
      rw [putEntry, if_neg (Ne.symm h.1), ih h.2, List.cons_append]

/-- The entries of a map make the map again. -/
theorem ofEntries_entries (m : LinkedMap κ α) : ofEntries m.entries = m := by
  have hlist : ∀ entries : List (κ × α), (entries.map Prod.fst).Nodup →
      (ofEntries entries).entries = entries := by
    intro entries
    induction entries using List.reverseRecOn with
    | nil => exact fun _ => rfl
    | append_singleton entries e ih =>
        intro hnodup
        rw [List.map_append, List.map_singleton, List.nodup_append] at hnodup
        obtain ⟨hbefore, -, hfresh⟩ := hnodup
        have hentries := ih hbefore
        unfold ofEntries at hentries ⊢
        rw [List.foldl_concat, entries_put_of_fresh, hentries]
        rw [hentries]
        exact fun hmem => hfresh e.1 hmem e.1 (List.mem_singleton.mpr rfl) rfl
  rcases m with ⟨entries, hnodup⟩
  have hsame := hlist entries hnodup
  rcases hmap : ofEntries entries with ⟨entries', hnodup'⟩
  rw [hmap] at hsame
  subst hsame
  rfl

theorem mem_entries_modify {m : LinkedMap κ α} {key : κ} {f : α → α} {e : κ × α} :
    e ∈ (m.modify key f).entries ↔
      (e ∈ m.entries ∧ e.1 ≠ key) ∨ ∃ value, (key, value) ∈ m.entries ∧ e = (key, f value) := by
  simp only [modify, List.mem_map]
  constructor
  · rintro ⟨⟨k, value⟩, hmem, rfl⟩
    by_cases h : k = key
    · subst h
      exact .inr ⟨value, hmem, by simp⟩
    · exact .inl (by simpa [h] using hmem)
  · rintro (⟨hmem, hne⟩ | ⟨value, hmem, rfl⟩)
    · exact ⟨e, hmem, by simp [hne]⟩
    · exact ⟨_, hmem, by simp⟩

theorem get_modify_self {m : LinkedMap κ α} {key : κ} {value : α} (h : m.get key = some value)
    (f : α → α) : (m.modify key f).get key = some (f value) := by
  rw [get_eq_some_iff, mem_entries_modify]
  exact .inr ⟨value, get_eq_some_iff.mp h, rfl⟩

theorem modify_modify (m : LinkedMap κ α) (key : κ) (f g : α → α) :
    (m.modify key f).modify key g = m.modify key (g ∘ f) := by
  simp only [modify, mk.injEq, List.map_map]
  refine List.map_congr_left fun e _ => ?_
  by_cases h : e.1 = key <;> simp [h]

theorem modify_eq_self {m : LinkedMap κ α} {key : κ} {value : α} {f : α → α}
    (h : m.get key = some value) (hf : f value = value) : m.modify key f = m := by
  have hentries : (m.modify key f).entries = m.entries := by
    refine (List.map_congr_left fun e he => ?_).trans (List.map_id m.entries)
    by_cases hkey : e.1 = key
    · have hget : m.get key = some e.2 := get_eq_some_iff.mpr (hkey ▸ he)
      rw [h, Option.some.injEq] at hget
      rw [if_pos hkey, ← hget, hf, hget]
      rfl
    · rw [if_neg hkey]
      rfl
  rcases m with ⟨entries, hnodup⟩
  simpa only [modify, mk.injEq] using hentries

theorem mem_entries_remove {m : LinkedMap κ α} {key : κ} {e : κ × α} :
    e ∈ (m.remove key).entries ↔ e ∈ m.entries ∧ e.1 ≠ key := by
  simp [remove]

/-! ## The last element of a key -/

section

variable {key : α → κ} {l : List α} {a : α}

/-- Of the elements with the same key the last one, at the place of the first. -/
def uniqueBy (key : α → κ) (l : List α) : List α :=
  (ofEntries (l.map fun a => (key a, a))).values

theorem mem_of_mem_uniqueBy (h : a ∈ uniqueBy key l) : a ∈ l := by
  obtain ⟨e, he, rfl⟩ := List.mem_map.mp h
  obtain ⟨b, hb, rfl⟩ := List.mem_map.mp (mem_of_mem_ofEntries he)
  exact hb

/-- Nothing is lost where a key determines its element. -/
theorem mem_uniqueBy (hkey : ∀ a ∈ l, ∀ b ∈ l, key a = key b → a = b) :
    a ∈ uniqueBy key l ↔ a ∈ l := by
  refine ⟨mem_of_mem_uniqueBy, fun h => ?_⟩
  have hlisted : key a ∈ (l.map fun a => (key a, a)).map Prod.fst :=
    List.mem_map_of_mem (List.mem_map_of_mem h)
  obtain ⟨b, hb, hmem⟩ := exists_get_ofEntries hlisted
  obtain ⟨c, hc, heq⟩ := List.mem_map.mp hmem
  obtain ⟨hsame, rfl⟩ := Prod.ext_iff.mp heq
  cases hkey c hc a h hsame
  exact List.mem_map.mpr ⟨_, get_eq_some_iff.mp hb, rfl⟩

theorem map_key_uniqueBy (key : α → κ) (l : List α) :
    (uniqueBy key l).map key = (ofEntries (l.map fun a => (key a, a))).entries.map Prod.fst := by
  rw [uniqueBy, values, List.map_map]
  refine List.map_congr_left fun e he => ?_
  obtain ⟨b, -, rfl⟩ := List.mem_map.mp (mem_of_mem_ofEntries he)
  rfl

theorem nodup_map_uniqueBy (key : α → κ) (l : List α) : ((uniqueBy key l).map key).Nodup := by
  rw [map_key_uniqueBy]
  exact (ofEntries _).nodup

theorem nodup_uniqueBy (key : α → κ) (l : List α) : (uniqueBy key l).Nodup :=
  (nodup_map_uniqueBy key l).of_map

end

end LinkedMap

/-! ## Sets in order of insertion -/

section Repetitions

variable {α : Type} [DecidableEq α]

/-- A set lists its members in the order in which they were first added. -/
theorem nodup_eraseDups (l : List α) : l.eraseDups.Nodup := by
  induction hn : l.length using Nat.strongRecOn generalizing l with
  | ind n ih =>
      cases l with
      | nil => simp
      | cons a rest =>
          have hlength : (rest.filter fun b => !b == a).length < n := by
            have hle := List.length_filter_le (fun b => !b == a) rest
            rw [List.length_cons] at hn
            omega
          rw [List.eraseDups_cons, List.nodup_cons]
          refine ⟨?_, ih _ hlength _ rfl⟩
          rw [List.mem_eraseDups]
          simp

theorem eraseDups_eq_self_iff {l : List α} : l.eraseDups = l ↔ l.Nodup := by
  constructor
  · intro h
    rw [← h]
    exact nodup_eraseDups l
  · intro h
    induction l with
    | nil => rfl
    | cons a rest ih =>
        rw [List.nodup_cons] at h
        have hfilter : (rest.filter fun b => !b == a) = rest := by
          apply List.filter_eq_self.mpr
          intro b hb
          have hne : b ≠ a := fun heq => h.1 (heq ▸ hb)
          simpa using hne
        rw [List.eraseDups_cons, hfilter, ih h.2]

end Repetitions
