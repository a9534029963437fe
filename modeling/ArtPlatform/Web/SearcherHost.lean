import ArtPlatform.Web.ManagedSearcher
import Mathlib.Data.List.Nodup

/-!
# Widgets with a searcher

The selected values of a searcher have a second consumer in the widget that the searcher is
part of.  It is called behind the consumer of the searcher, when the calls that this one makes
have returned.

Main results:

- Theorem `settles_selectIndexes`: where an assignment of the indexes comes to an end if the
  comparator identifies only equal items.
- Theorem `SearcherHost.returns`: the calls of the searcher end in the widget as they do on
  their own, and then the second consumer has been told.
-/

namespace ArtPlatform.Web

open CallStack

/-! ## Exact selections -/

namespace ManagedSearcher

variable {V : Type} {p : SearcherProperties V} {items values : List V} {indexes : List Nat}
  {value : V}

theorem mem_of_exactly (h : Exactly items indexes values) :
    value ∈ values ↔ ∃ index ∈ indexes, items[index]? = some value := by
  rw [← List.mem_map, h]
  simp

theorem mem_items_of_consistent {s : ManagedSearcher V} (h : s.Consistent)
    (hvalue : value ∈ s.values) : value ∈ s.items := by
  obtain ⟨index, -, hitem⟩ := (mem_of_exactly h).mp hvalue
  exact List.mem_of_getElem? hitem

theorem getElem?_of_exactly (h : Exactly items indexes values) {index : Nat}
    (hindex : index ∈ indexes) : ∃ value ∈ values, items[index]? = some value := by
  have hmem : items[index]? ∈ indexes.map (items[·]?) := List.mem_map_of_mem hindex
  rw [h] at hmem
  obtain ⟨value, hvalue, heq⟩ := List.mem_map.mp hmem
  exact ⟨value, hvalue, heq.symm⟩

theorem valuesAt_of_exactly (h : Exactly items indexes values)
    (hdefined : ∀ value ∈ values, p.isDefined value = true) :
    valuesAt p items indexes = values := by
  have hfound : indexes.filterMap (items[·]?) = values := by
    simpa [List.filterMap_map, Function.comp_def] using congrArg (List.filterMap id) h
  rw [valuesAt, hfound]
  exact List.filter_eq_self.mpr hdefined

/-- The comparator identifies only equal items. -/
def TellsApart (p : SearcherProperties V) (items : List V) : Prop :=
  ∀ item ∈ items, ∀ value ∈ items, p.comparator item value = true ↔ item = value

/-- Values that are all available are at their first indexes. -/
theorem exactly_firstIndexes (hvalues : ∀ value ∈ values, value ∈ items)
    (hcomparator : TellsApart p items) :
    Exactly items (firstIndexes p items values) values := by
  induction values with
  | nil => rfl
  | cons value values ih =>
      have hmem := hvalues value List.mem_cons_self
      have htail := ih fun value' hvalue' => hvalues value' (List.mem_cons_of_mem value hvalue')
      cases hfind : items.findIdx? fun item => p.comparator item value with
      | none =>
          have hnone := List.findIdx?_eq_none_iff.mp hfind value hmem
          rw [(hcomparator value hmem value hmem).mpr rfl] at hnone
          cases hnone
      | some index =>
          obtain ⟨hlt, hitem, -⟩ := List.findIdx?_eq_some_iff_getElem.mp hfind
          have hsame := (hcomparator _ (List.getElem_mem hlt) value hmem).mp hitem
          have hindexes : firstIndexes p items (value :: values) =
              index :: firstIndexes p items values := by
            simp [firstIndexes, hfind]
          rw [Exactly, hindexes, List.map_cons, List.map_cons, htail,
            List.getElem?_eq_getElem hlt, hsame]

theorem Holds.eq {s : ManagedSearcher V} (h : s.Holds items indexes values) :
    s.items = items ∧ s.indexes = indexes ∧ s.values = values := by
  refine ⟨h.items, ?_, ?_⟩
  · rw [ManagedSearcher.indexes, h.indexes, Option.getD_some]
  · rw [ManagedSearcher.values, h.values, Option.getD_some]

/-- The values at the indexes of all items like some available values are these values. -/
theorem mem_valuesAt_indexesOf (hdefined : ∀ item, p.isDefined item = true)
    (hcomparator : TellsApart p items) (hvalues : ∀ value ∈ values, value ∈ items) :
    value ∈ valuesAt p items (indexesOf p items values) ↔ value ∈ values := by
  simp only [mem_valuesAt, hdefined, and_true]
  constructor
  · intro ⟨index, hindex, hvalue⟩
    obtain ⟨item, hitem, value', hvalue', hlike⟩ := mem_indexesOf.mp hindex
    cases hvalue.symm.trans hitem
    have hsame := (hcomparator value (List.mem_of_getElem? hvalue) value'
      (hvalues value' hvalue')).mp hlike
    exact hsame ▸ hvalue'
  · intro hvalue
    obtain ⟨index, hindex⟩ := List.mem_iff_getElem?.mp (hvalues value hvalue)
    refine ⟨index, mem_indexesOf.mpr ⟨value, hindex, value, hvalue, ?_⟩, hindex⟩
    exact (hcomparator value (hvalues value hvalue) value (hvalues value hvalue)).mpr rfl

theorem mem_valuesAt_firstIndexes (hdefined : ∀ item, p.isDefined item = true)
    (hcomparator : ∀ items, TellsApart p items) :
    value ∈ valuesAt p items (firstIndexes p items values) ↔ value ∈ values ∧ value ∈ items := by
  have happart := hcomparator (items ++ values)
  simp only [mem_valuesAt, hdefined, and_true, firstIndexes, List.mem_filterMap]
  constructor
  · rintro ⟨index, ⟨value', hvalue', hfind⟩, hvalue⟩
    obtain ⟨hlt, hlike, -⟩ := List.findIdx?_eq_some_iff_getElem.mp hfind
    obtain ⟨-, rfl⟩ := List.getElem?_eq_some_iff.mp hvalue
    have hmem := List.getElem_mem hlt
    refine ⟨?_, hmem⟩
    rwa [(happart _ (List.mem_append_left _ hmem) _ (List.mem_append_right _ hvalue')).mp hlike]
  · rintro ⟨hvalue, hmem⟩
    have hboth := List.mem_append_left values hmem
    cases hfind : items.findIdx? fun item => p.comparator item value with
    | none =>
        have hnone := List.findIdx?_eq_none_iff.mp hfind value hmem
        rw [(happart value hboth value hboth).mpr rfl] at hnone
        cases hnone
    | some index =>
        obtain ⟨hlt, hlike, -⟩ := List.findIdx?_eq_some_iff_getElem.mp hfind
        refine ⟨index, ⟨value, hvalue, hfind⟩, List.getElem?_eq_some_iff.mpr ⟨hlt, ?_⟩⟩
        exact (happart _ (List.mem_append_left _ (List.getElem_mem hlt)) value hboth).mp hlike

/-- Values that all have a first index are at these indexes. -/
theorem exactly_firstIndexes_of_length (hcomparator : ∀ items, TellsApart p items)
    (h : (firstIndexes p items values).length = values.length) :
    Exactly items (firstIndexes p items values) values := by
  refine exactly_firstIndexes (fun value hvalue => ?_) (hcomparator items)
  have hsome := List.filterMap_length_eq_length.mp h value hvalue
  obtain ⟨index, hfind⟩ := Option.isSome_iff_exists.mp hsome
  obtain ⟨hlt, hlike, -⟩ := List.findIdx?_eq_some_iff_getElem.mp hfind
  have hmem := List.getElem_mem hlt
  have hsame := (hcomparator (items ++ values) _ (List.mem_append_left _ hmem) value
    (List.mem_append_right _ hvalue)).mp hlike
  exact hsame ▸ hmem

theorem nodup_valuesAt (hitems : items.Nodup) (hindexes : indexes.Nodup) :
    (valuesAt p items indexes).Nodup := by
  refine (List.Nodup.filterMap (fun index index' value hvalue hvalue' => ?_) hindexes).filter _
  obtain ⟨hlt, hindex⟩ := List.getElem?_eq_some_iff.mp hvalue
  obtain ⟨hlt', hindex'⟩ := List.getElem?_eq_some_iff.mp hvalue'
  exact (hitems.getElem_inj_iff).mp (hindex.trans hindex'.symm)

/-- All items are at all indexes. -/
theorem exactly_range (items : List V) : Exactly items (List.range items.length) items := by
  refine List.ext_getElem? fun index => ?_
  by_cases hlt : index < items.length
  · simp [hlt]
  · simp [hlt]

theorem indexesOf_items (hcomparator : TellsApart p items) :
    indexesOf p items items = List.range items.length := by
  refine List.filter_eq_self.mpr fun index hindex => ?_
  have hmem := List.getElem_mem (List.mem_range.mp hindex)
  rw [List.getElem?_eq_getElem (List.mem_range.mp hindex)]
  exact List.any_eq_true.mpr ⟨_, hmem, (hcomparator _ hmem _ hmem).mpr rfl⟩

variable [DecidableEq V] {s : ManagedSearcher V}

/-- The values at indexes are selected, together with all items like them. -/
theorem settles_selectIndexes {indexes' : List Nat} (h : s.Holds items indexes values)
    (hexactly : indexes' = indexes → Exactly items indexes values)
    (hrange : ∀ index ∈ indexes', index < items.length)
    (hdefined : ∀ item, p.isDefined item = true)
    (hequivalence : Equivalence fun a b => p.comparator a b = true)
    (hcomparator : TellsApart p items) :
    ∃ settledIndexes settledValues,
      Settles p 9 s (.setSelectedIndexes indexes') items settledIndexes settledValues ∧
      Exactly items settledIndexes settledValues ∧
      (∀ value, value ∈ settledValues ↔ value ∈ valuesAt p items indexes') ∧
      (items.Nodup → values.Nodup → settledValues.Nodup) := by
  by_cases hsame : indexes' = indexes
  · refine ⟨indexes, values, ?_, hexactly hsame, fun value => ?_, fun _ hnodup => hnodup⟩
    · rw [hsame]
      exact Ends.mono (settles_same_indexes h) (by omega)
    · rw [hsame, valuesAt_of_exactly (hexactly hsame) fun value _ => hdefined value]
  · refine ⟨_, _, settles_setSelectedIndexes hequivalence h hrange hsame, ?_, fun value => ?_,
      fun hitems hnodup => ?_⟩
    · exact (exactly_valuesAt_iff (settled_lt hrange)).mpr fun _ _ value _ => hdefined value
    · rw [settled]
      split
      · rfl
      · refine mem_valuesAt_indexesOf hdefined hcomparator fun value hvalue => ?_
        obtain ⟨⟨index, -, hitem⟩, -⟩ := mem_valuesAt.mp hvalue
        exact List.mem_of_getElem? hitem
    · rw [settled]
      split
      next hvalues => rwa [hvalues]
      next => exact nodup_valuesAt hitems (List.nodup_range.filter _)

/-- All items are selected. -/
theorem settles_selectItems (h : s.Holds items indexes values)
    (hexactly : Exactly items indexes values) (hdefined : ∀ item, p.isDefined item = true)
    (hcomparator : TellsApart p items) :
    ∃ settledIndexes, Settles p 5 s (.setSelected items) items settledIndexes items ∧
      Exactly items settledIndexes items := by
  by_cases hsame : items = values
  · refine ⟨indexes, ?_, hsame.symm ▸ hexactly⟩
    have hsettles := settles_same_values (p := p) h
    rw [← hsame] at hsettles
    exact Ends.mono hsettles (by omega)
  · refine ⟨List.range items.length, ?_, exactly_range items⟩
    refine settles_other_values h hsame fun t ht => ?_
    rw [indexesOf_items hcomparator]
    by_cases hrange : List.range items.length = indexes
    · rw [hrange]
      exact Ends.mono (settles_same_indexes ht) (by omega)
    · refine settles_other_indexes ht hrange (fun index => List.mem_range.mp) fun u hu => ?_
      rw [valuesAt_of_exactly (exactly_range items) fun value _ => hdefined value]
      exact settles_same_values hu

/-- A call makes at most one other. -/
theorem inner_of_call {c : SearcherCall V} {t : ManagedSearcher V}
    {inner : List (SearcherCall V)} (h : call p s c = some (t, inner)) :
    inner = [] ∨ ∃ next, inner = [next] := by
  cases c with
  | setSelectedIndexes indexes =>
      obtain ⟨-, rfl⟩ := Prod.ext_iff.mp (Option.some.inj h)
      by_cases htold : (s.selectedIndexes.set (some indexes)).2 = true
      · exact .inr ⟨_, if_pos htold⟩
      · exact .inl (if_neg htold)
  | consumeIndexes indexes =>
      simp only [call] at h
      split at h
      · cases h
        exact .inr ⟨_, rfl⟩
      · cases h
  | setSelected values =>
      obtain ⟨-, rfl⟩ := Prod.ext_iff.mp (Option.some.inj h)
      by_cases htold : (s.selected.set (some values)).2 = true
      · exact .inr ⟨_, if_pos htold⟩
      · exact .inl (if_neg htold)
  | consumeSelected values =>
      cases h
      exact .inr ⟨_, rfl⟩
  | setAvailableValues values =>
      simp only [call] at h
      split at h
      · cases h
      · cases h
        exact .inr ⟨_, rfl⟩

/-- Only the setter of the selected values changes them, and then it tells them. -/
theorem selected_of_call {c : SearcherCall V} {t : ManagedSearcher V}
    {inner : List (SearcherCall V)} (h : call p s c = some (t, inner))
    (hnone : ∀ values, c = .setSelected values → inner = []) :
    t.selected.value = s.selected.value := by
  cases c with
  | setSelectedIndexes indexes =>
      obtain ⟨rfl, -⟩ := Prod.ext_iff.mp (Option.some.inj h)
      rfl
  | consumeIndexes indexes =>
      simp only [call] at h
      split at h <;> cases h
      rfl
  | setSelected values =>
      have hsame : s.selected.value = some values := by
        by_contra hne
        have htold : ∃ initial, s.selected.set (some values) =
            (s.selected.commit initial (some values), true) :=
          Property.set_told fun heq => absurd heq.symm hne
        obtain ⟨initial, hset⟩ := htold
        simp only [call, hset, if_true] at h
        cases h
        exact absurd (hnone values rfl) (by simp)
      simp only [call, Property.set_same hsame] at h
      cases h
      exact hsame.symm
  | consumeSelected values =>
      cases h
      rfl
  | setAvailableValues values =>
      simp only [call] at h
      split at h <;> cases h
      rfl

/-- The call selects these values, in some order, of the items. -/
def LeadsTo (p : SearcherProperties V) (values : List V) (s : ManagedSearcher V) :
    SearcherCall V → Prop
  | .setSelectedIndexes indexes | .consumeIndexes indexes =>
      (∀ value ∈ values, value ∈ s.items) ∧
        ∀ value, value ∈ valuesAt p s.items indexes ↔ value ∈ values
  | .setSelected values' | .consumeSelected values' =>
      (∀ value ∈ values, value ∈ s.items) ∧ ∀ value, value ∈ values' ↔ value ∈ values
  | .setAvailableValues _ => False

/-- The calls of such a call select the same values. -/
theorem leadsTo_next (hdefined : ∀ item, p.isDefined item = true)
    (hcomparator : ∀ items, TellsApart p items) {t : ManagedSearcher V} {c next : SearcherCall V}
    (h : LeadsTo p values s c) (hcall : call p s c = some (t, [next])) :
    LeadsTo p values t next := by
  cases c with
  | setSelectedIndexes indexes =>
      obtain ⟨rfl, hnext⟩ := Prod.ext_iff.mp (Option.some.inj hcall)
      by_cases htold : (s.selectedIndexes.set (some indexes)).2 = true
      · cases (if_pos htold).symm.trans hnext
        exact h
      · cases (if_neg htold).symm.trans hnext
  | consumeIndexes indexes =>
      simp only [call] at hcall
      split at hcall
      · cases hcall
        exact h
      · cases hcall
  | setSelected values' =>
      obtain ⟨rfl, hnext⟩ := Prod.ext_iff.mp (Option.some.inj hcall)
      by_cases htold : (s.selected.set (some values')).2 = true
      · cases (if_pos htold).symm.trans hnext
        exact h
      · cases (if_neg htold).symm.trans hnext
  | consumeSelected values' =>
      cases hcall
      refine ⟨h.1, fun value => ?_⟩
      rw [mem_valuesAt_indexesOf hdefined (hcomparator s.items) fun value hvalue =>
        h.1 value ((h.2 value).mp hvalue)]
      exact h.2 value
  | setAvailableValues values' => exact h.elim

end ManagedSearcher

/-! ## The second consumer -/

section

variable {V α : Type}

/-- The calls that a call of the searcher makes in its widget. -/
def hostCalls (embed : SearcherCall V → α) (tell : List V → α) :
    SearcherCall V → List (SearcherCall V) → List α
  | .setSelected values, inner@(_ :: _) => inner.map embed ++ [tell values]
  | _, inner => inner.map embed

theorem hostCalls_of_not_told {embed : SearcherCall V → α} {tell : List V → α}
    {c : SearcherCall V} {inner : List (SearcherCall V)}
    (h : ∀ values, c = .setSelected values → inner = []) :
    hostCalls embed tell c inner = inner.map embed := by
  cases c with
  | setSelected values =>
      rw [h values rfl]
      rfl
  | _ => rfl

end

/-- A widget that has a searcher, with the call of its own consumer. -/
structure SearcherHost {V : Type} [DecidableEq V] (p : SearcherProperties V) (σ α : Type) where
  call : σ → α → Option (σ × List α)
  Has : σ → ManagedSearcher V → Prop
  put : σ → ManagedSearcher V → σ
  embed : SearcherCall V → α
  tell : List V → α
  told : σ → List V → σ
  has_put : ∀ {s searcher}, Has s searcher → ∀ searcher', Has (put s searcher') searcher'
  put_put : ∀ s searcher searcher', put (put s searcher) searcher' = put s searcher'
  call_embed : ∀ {s searcher c searcher' inner}, Has s searcher →
    ManagedSearcher.call p searcher c = some (searcher', inner) →
      call s (embed c) = some (put s searcher', hostCalls embed tell c inner)
  call_tell : ∀ s values, call s (tell values) = some (told s values, [])

namespace SearcherHost

variable {V σ α : Type} [DecidableEq V] {p : SearcherProperties V} {s : σ}
  {searcher searcher' : ManagedSearcher V}

theorem returns_tell (host : SearcherHost p σ α) (s : σ) (values : List V) :
    Returns host.call 1 s [host.tell values] (host.told s values) :=
  .cons (host.call_tell s values) (by exact .nil _)

/-- The calls of the searcher return in the widget too, and the second consumer is told the
values of some assignments behind them; if it is told none, the selection is the same. -/
theorem returns (host : SearcherHost p σ α)
    {Q : ManagedSearcher V → SearcherCall V → Prop}
    (hkeeps : ∀ t c t' next, Q t c → ManagedSearcher.call p t c = some (t', [next]) → Q t' next)
    {n : Nat} {c : SearcherCall V}
    (h : Returns (ManagedSearcher.call p) n searcher [c] searcher') (hc : Q searcher c)
    (hs : host.Has s searcher) :
    ∃ m ≤ 2 * n, ∃ told : List (List V),
      Returns host.call m s [host.embed c] (told.foldl host.told (host.put s searcher')) ∧
      (told = [] → searcher'.selected.value = searcher.selected.value) ∧
      ∀ values ∈ told, ∃ t, Q t (.setSelected values) := by
  induction n generalizing searcher s c with
  | zero => cases h
  | succ n ih =>
      cases h with
      | @cons _ _ between _ _ inner _ hcall hreturns =>
          rw [List.append_nil] at hreturns
          have hfirst := host.call_embed hs hcall
          rcases ManagedSearcher.inner_of_call hcall with rfl | ⟨next, rfl⟩
          · -- nothing is told
            cases hreturns
            refine ⟨1, by omega, [], .cons hfirst ?_, fun _ => ?_, fun _ h => nomatch h⟩
            · rw [hostCalls_of_not_told fun _ _ => rfl]
              exact .nil _
            · exact ManagedSearcher.selected_of_call hcall fun _ _ => rfl
          · obtain ⟨m, hm, told, hrest, hsame, htold⟩ :=
              ih hreturns (hkeeps _ _ _ _ hc hcall) (host.has_put hs between)
            rw [host.put_put] at hrest
            by_cases hset : ∃ values, c = .setSelected values
            · -- the second consumer comes behind that of the searcher
              obtain ⟨values, rfl⟩ := hset
              refine ⟨m + 1 + 1, by omega, told ++ [values], .cons hfirst ?_, ?_, ?_⟩
              · rw [List.foldl_concat]
                exact hrest.append (host.returns_tell _ values)
              · intro hnone
                exact absurd hnone (by simp)
              · intro values' hmem
                rcases List.mem_append.mp hmem with hmem | hmem
                · exact htold values' hmem
                · cases List.mem_singleton.mp hmem
                  exact ⟨_, hc⟩
            · have hnot : ∀ values, c = .setSelected values → [next] = [] :=
                fun values heq => absurd ⟨values, heq⟩ hset
              rw [hostCalls_of_not_told hnot] at hfirst
              refine ⟨m + 1, by omega, told, .cons hfirst hrest, fun hnone => ?_, htold⟩
              exact (hsame hnone).trans (ManagedSearcher.selected_of_call hcall hnot)

/-- A call that settles ends in the widget too, and the second consumer has been told nothing
but the values that the call selects. -/
theorem ends (host : SearcherHost p σ α) (hdefined : ∀ item, p.isDefined item = true)
    (hcomparator : ∀ items, ManagedSearcher.TellsApart p items) {c : SearcherCall V}
    {bound : Nat} {items values : List V} {indexes : List Nat}
    (h : ManagedSearcher.Settles p bound searcher c items indexes values)
    (hleads : ManagedSearcher.LeadsTo p values searcher c) (hs : host.Has s searcher) :
    Ends host.call (2 * bound) s [host.embed c] fun t =>
      ∃ searcher', searcher'.Holds items indexes values ∧ ∃ told : List (List V),
        t = told.foldl host.told (host.put s searcher') ∧
        (told = [] → searcher'.selected.value = searcher.selected.value) ∧
        ∀ values' ∈ told, ∀ value, value ∈ values' ↔ value ∈ values := by
  obtain ⟨n, hn, searcher', hreturns, hholds⟩ := h
  obtain ⟨m, hm, told, hcalls, hsame, htold⟩ := host.returns
    (fun _ _ _ _ hc hcall => ManagedSearcher.leadsTo_next hdefined hcomparator hc hcall)
    hreturns hleads hs
  refine ⟨m, by omega, _, hcalls, searcher', hholds, told, rfl, hsame, fun values' hmem => ?_⟩
  obtain ⟨t, ht⟩ := htold values' hmem
  exact ht.2

end SearcherHost

end ArtPlatform.Web
