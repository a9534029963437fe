import Mathlib.Data.List.Basic
import Mathlib.Data.List.Nodup
import Mathlib.Data.List.Perm.Basic
import Mathlib.Tactic.Common

/-!
# Answers in turn

A desk receives numbered tickets, each about some key.  A ticket that closes its key is
told at once; for any other one the desk asks a question, and it tells the ticket when
the answer arrives.  Answers arrive in any order, and a question may fail.

The tickets of a key are told in the order of their reception when its questions are
answered in turn and a closing ticket arrives while none of them is outstanding.  When no
question fails this is also necessary: a ticket that has been overtaken is told out of
order as soon as its answer arrives.

Main results:

- Theorem `Desk.Kept.tellsInOrder`: what a desk whose turns were kept has told.
- Theorem `Desk.Kept.moves`: a turn that is kept preserves what makes a desk tell so.
- Theorem `Desk.overtaken_of_moves`: a turn that is not kept leaves a ticket overtaken.
- Theorem `Desk.Overtaken.moves`: a ticket that has been overtaken stays so.
- Theorem `Desk.Overtaken.not_tellsInOrder`: at a desk without outstanding questions it
  has been told out of order.
-/

/-- The number of a ticket, the key it is about, and whether it closes its key. -/
class Ticket (τ : Type) (κ : outParam Type) where
  number : τ → Nat
  key : τ → κ
  closes : τ → Bool

open Ticket (number key closes)

/-- The tickets that were received, those whose question is outstanding, and those that
have been told, in the order of the telling. -/
structure Desk (τ : Type) where
  received : List τ
  outstanding : List τ
  told : List τ

inductive Turn (τ : Type)
  | idle
  | ask (t : τ)
  | close (t : τ)
  | answer (t : τ)
  | fail (t : τ)

namespace Desk

variable {τ κ : Type} [Ticket τ κ]

/-- What each turn does to the desk; the outstanding questions are a bag. -/
def Moves (d : Desk τ) : Turn τ → Desk τ → Prop
  | .idle, d' =>
      d'.received = d.received ∧ d'.told = d.told ∧ d'.outstanding.Perm d.outstanding
  | .ask t, d' =>
      (closes t = false ∧ number t = d.received.length) ∧
        d'.received = d.received ++ [t] ∧ d'.told = d.told ∧
        d'.outstanding.Perm (t :: d.outstanding)
  | .close t, d' =>
      (closes t = true ∧ number t = d.received.length) ∧
        d'.received = d.received ++ [t] ∧ d'.told = d.told ++ [t] ∧
        d'.outstanding.Perm d.outstanding
  | .answer t, d' =>
      d'.received = d.received ∧ d'.told = d.told ++ [t] ∧
        d.outstanding.Perm (t :: d'.outstanding)
  | .fail t, d' =>
      d'.received = d.received ∧ d'.told = d.told ∧
        d.outstanding.Perm (t :: d'.outstanding)

/-- The oldest outstanding question of a key is answered first, a ticket that closes the
key arrives when none is outstanding and is the last one of it, and a question fails only
when a later ticket of its key has arrived. -/
def InTurn (d : Desk τ) : Turn τ → Prop
  | .idle => True
  | .ask t => ∀ r ∈ d.received, key r = key t → closes r = false
  | .close t =>
      (∀ r ∈ d.received, key r = key t → closes r = false) ∧
        ∀ r ∈ d.outstanding, key r ≠ key t
  | .answer t => ∀ r ∈ d.outstanding, key r = key t → number t ≤ number r
  | .fail t => ∃ r ∈ d.received, key r = key t ∧ number t < number r

/-! ## What is told -/

variable [DecidableEq κ]

instance (d : Desk τ) : (turn : Turn τ) → Decidable (d.InTurn turn)
  | .idle => .isTrue trivial
  | .ask t =>
      inferInstanceAs (Decidable (∀ r ∈ d.received, key r = key t → closes r = false))
  | .close t =>
      inferInstanceAs (Decidable ((∀ r ∈ d.received, key r = key t → closes r = false) ∧
        ∀ r ∈ d.outstanding, key r ≠ key t))
  | .answer t =>
      inferInstanceAs (Decidable (∀ r ∈ d.outstanding, key r = key t → number t ≤ number r))
  | .fail t =>
      inferInstanceAs (Decidable (∃ r ∈ d.received, key r = key t ∧ number t < number r))

/-- The tickets of a key. -/
def about (k : κ) (ts : List τ) : List τ :=
  ts.filter fun t => key t = k

theorem mem_about {k : κ} {ts : List τ} {t : τ} : t ∈ about k ts ↔ t ∈ ts ∧ key t = k := by
  simp [about]

/-- The tickets of a key are told in the order of their reception, none is told after the
one that closes the key, and when no question of the key is outstanding the last one
received is the last one told. -/
structure TellsInOrder (d : Desk τ) (k : κ) : Prop where
  received : ∀ t ∈ about k d.told, t ∈ d.received
  ordered : (about k d.told).Pairwise fun t r => number t < number r
  closed : (about k d.told).Pairwise fun t _ => closes t = false
  last : (∀ r ∈ d.outstanding, key r ≠ k) →
    (about k d.told).getLast? = (about k d.received).getLast?

omit [DecidableEq κ] in
/-- In a list of increasing numbers the greatest one is the last. -/
theorem getLast?_of_forall_le {l : List τ} (hl : l.Pairwise fun t r => number t < number r)
    {t : τ} (ht : t ∈ l) (hmax : ∀ r ∈ l, number r ≤ number t) : l.getLast? = some t := by
  induction l with
  | nil => cases ht
  | cons r l ih =>
      rw [List.pairwise_cons] at hl
      cases l with
      | nil => simpa using (List.mem_singleton.mp ht).symm
      | cons u l =>
          rw [List.getLast?_cons_cons]
          refine ih hl.2 ?_ fun v hv => hmax v (List.mem_cons_of_mem r hv)
          rcases List.mem_cons.mp ht with rfl | ht
          · have hlt := hl.1 u List.mem_cons_self
            have hle := hmax u (by simp)
            omega
          · exact ht

/-! ## Invariants -/

/-- What holds of a desk whatever the order of the answers. -/
structure Sound (d : Desk τ) : Prop where
  numbered : d.received.Pairwise fun t r => number t < number r
  below : ∀ t ∈ d.received, number t < d.received.length
  asked : ∀ t ∈ d.outstanding, t ∈ d.received
  nodup : d.outstanding.Nodup
  told : ∀ t ∈ d.told, t ∈ d.received
  closing : ∀ t ∈ d.received, closes t = true → t ∈ d.told

/-- What holds of a desk whose turns have been kept. -/
structure Kept (d : Desk τ) : Prop extends Sound d where
  behind : ∀ t ∈ d.told, ∀ r ∈ d.outstanding, key t = key r → number t < number r
  ordered : d.told.Pairwise fun t r => key t = key r → number t < number r
  closed : ∀ t ∈ d.received, closes t = true →
    ∀ r ∈ d.received, key r = key t → number r ≤ number t
  settled : ∀ t ∈ d.received, t ∈ d.outstanding ∨ t ∈ d.told ∨
    ∃ r ∈ d.received, key r = key t ∧ number t < number r

omit [DecidableEq κ] in
/-- A number is given once. -/
theorem Sound.eq_of_number {d : Desk τ} (h : d.Sound) {t r : τ} (ht : t ∈ d.received)
    (hr : r ∈ d.received) (heq : number t = number r) : t = r := by
  have hnodup : (d.received.map number).Nodup :=
    List.pairwise_map.mpr (h.numbered.imp fun hlt => Nat.ne_of_lt hlt)
  exact List.inj_on_of_nodup_map hnodup ht hr heq

/-- A desk that has received nothing. -/
def empty : Desk τ :=
  ⟨[], [], []⟩

omit [DecidableEq κ] in
theorem kept_empty : (empty : Desk τ).Kept := by
  constructor
  · constructor <;> simp [empty]
  all_goals simp [empty]

/-! ## What a turn keeps -/

variable {d d' : Desk τ} {turn : Turn τ}

omit [DecidableEq κ] in
/-- A new ticket keeps the numbers increasing. -/
theorem Sound.numbered_snoc (h : d.Sound) {t : τ} (hnumber : number t = d.received.length) :
    (d.received ++ [t]).Pairwise fun t r => number t < number r := by
  refine List.pairwise_append.mpr ⟨h.numbered, List.pairwise_singleton _ t, ?_⟩
  intro r hr u hu
  have hlt := h.below r hr
  rw [List.mem_singleton.mp hu]
  omega

omit [DecidableEq κ] in
theorem Sound.below_snoc (h : d.Sound) {t : τ} (hnumber : number t = d.received.length) :
    ∀ r ∈ d.received ++ [t], number r < (d.received ++ [t]).length := by
  intro r hr
  rw [List.length_append, List.length_singleton]
  rcases List.mem_append.mp hr with hr | hr
  · have hlt := h.below r hr
    omega
  · rw [List.mem_singleton.mp hr]
    omega

omit [DecidableEq κ] in
/-- A desk stays sound in every turn. -/
theorem Sound.moves (h : d.Sound) (hmoves : d.Moves turn d') : d'.Sound := by
  cases turn with
  | idle =>
      obtain ⟨hreceived, htold, hbag⟩ := hmoves
      refine ⟨?_, ?_, ?_, hbag.nodup_iff.mpr h.nodup, ?_, ?_⟩ <;> rw [hreceived]
      · exact h.numbered
      · exact h.below
      · exact fun t ht => h.asked t (hbag.mem_iff.mp ht)
      · exact htold ▸ h.told
      · exact htold ▸ h.closing
  | ask t =>
      obtain ⟨⟨hopen, hnumber⟩, hreceived, htold, hbag⟩ := hmoves
      have hnew : t ∉ d.outstanding := by
        intro ht
        have hlt := h.below t (h.asked t ht)
        omega
      refine ⟨?_, ?_, ?_, hbag.nodup_iff.mpr (List.nodup_cons.mpr ⟨hnew, h.nodup⟩), ?_, ?_⟩ <;>
        rw [hreceived]
      · exact h.numbered_snoc hnumber
      · exact h.below_snoc hnumber
      · intro r hr
        rcases List.mem_cons.mp (hbag.mem_iff.mp hr) with rfl | hr
        · exact List.mem_append_right _ List.mem_cons_self
        · exact List.mem_append_left _ (h.asked r hr)
      · intro r hr
        exact List.mem_append_left _ (h.told r (htold ▸ hr))
      · intro r hr hcloses
        rw [htold]
        rcases List.mem_append.mp hr with hr | hr
        · exact h.closing r hr hcloses
        · rw [List.mem_singleton.mp hr, hopen] at hcloses
          cases hcloses
  | close t =>
      obtain ⟨⟨-, hnumber⟩, hreceived, htold, hbag⟩ := hmoves
      refine ⟨?_, ?_, ?_, hbag.nodup_iff.mpr h.nodup, ?_, ?_⟩ <;> rw [hreceived]
      · exact h.numbered_snoc hnumber
      · exact h.below_snoc hnumber
      · exact fun r hr => List.mem_append_left _ (h.asked r (hbag.mem_iff.mp hr))
      · intro r hr
        rw [htold] at hr
        rcases List.mem_append.mp hr with hr | hr
        · exact List.mem_append_left _ (h.told r hr)
        · exact List.mem_append_right _ hr
      · intro r hr hcloses
        rw [htold]
        rcases List.mem_append.mp hr with hr | hr
        · exact List.mem_append_left _ (h.closing r hr hcloses)
        · exact List.mem_append_right _ hr
  | answer t =>
      obtain ⟨hreceived, htold, hbag⟩ := hmoves
      have hin : ∀ r ∈ t :: d'.outstanding, r ∈ d.received :=
        fun r hr => h.asked r (hbag.mem_iff.mpr hr)
      refine ⟨?_, ?_, ?_, (List.nodup_cons.mp (hbag.nodup_iff.mp h.nodup)).2, ?_, ?_⟩ <;>
        rw [hreceived]
      · exact h.numbered
      · exact h.below
      · exact fun r hr => hin r (List.mem_cons_of_mem t hr)
      · intro r hr
        rw [htold] at hr
        rcases List.mem_append.mp hr with hr | hr
        · exact h.told r hr
        · exact List.mem_singleton.mp hr ▸ hin t List.mem_cons_self
      · exact fun r hr hcloses => htold ▸ List.mem_append_left _ (h.closing r hr hcloses)
  | fail t =>
      obtain ⟨hreceived, htold, hbag⟩ := hmoves
      refine ⟨?_, ?_, ?_, (List.nodup_cons.mp (hbag.nodup_iff.mp h.nodup)).2, ?_, ?_⟩ <;>
        rw [hreceived]
      · exact h.numbered
      · exact h.below
      · exact fun r hr => h.asked r (hbag.mem_iff.mpr (List.mem_cons_of_mem t hr))
      · exact htold ▸ h.told
      · exact htold ▸ h.closing

/-! ## Turns that are kept -/

omit [DecidableEq κ] in
/-- Only the last ticket of a key may close it. -/
theorem Kept.closed_snoc (h : d.Kept) {t : τ} (hnumber : number t = d.received.length)
    (hopen : ∀ r ∈ d.received, key r = key t → closes r = false) :
    ∀ u ∈ d.received ++ [t], closes u = true →
      ∀ r ∈ d.received ++ [t], key r = key u → number r ≤ number u := by
  intro u hu hcloses r hr hkey
  rcases List.mem_append.mp hu with hu | hu
  · rcases List.mem_append.mp hr with hr | hr
    · exact h.closed u hu hcloses r hr hkey
    · rw [List.mem_singleton.mp hr] at hkey
      rw [hopen u hu hkey.symm] at hcloses
      cases hcloses
  · have hbelow := h.below_snoc hnumber r hr
    rw [List.length_append, List.length_singleton] at hbelow
    rw [List.mem_singleton.mp hu]
    omega

omit [DecidableEq κ] in
/-- A told ticket is told behind all told ones of its key. -/
theorem Kept.ordered_snoc (h : d.Kept) {t : τ}
    (hlt : ∀ r ∈ d.told, key r = key t → number r < number t) :
    (d.told ++ [t]).Pairwise fun t r => key t = key r → number t < number r := by
  refine List.pairwise_append.mpr ⟨h.ordered, List.pairwise_singleton _ t, ?_⟩
  intro r hr u hu hkey
  rw [List.mem_singleton.mp hu] at hkey ⊢
  exact hlt r hr hkey

omit [DecidableEq κ] in
/-- Every received ticket stays settled when a turn tells it or leaves it outstanding. -/
theorem Kept.settled_of (h : d.Kept)
    (hreceived : ∀ t ∈ d.received, t ∈ d'.received)
    (htold : ∀ t ∈ d.told, t ∈ d'.told)
    (hbag : ∀ t ∈ d.outstanding, t ∈ d'.outstanding ∨ t ∈ d'.told ∨
      ∃ r ∈ d'.received, key r = key t ∧ number t < number r)
    {t : τ} (ht : t ∈ d.received) :
    t ∈ d'.outstanding ∨ t ∈ d'.told ∨
      ∃ r ∈ d'.received, key r = key t ∧ number t < number r := by
  rcases h.settled t ht with hout | htell | ⟨r, hr, hlater⟩
  · exact hbag t hout
  · exact .inr (.inl (htold t htell))
  · exact .inr (.inr ⟨r, hreceived r hr, hlater⟩)

omit [DecidableEq κ] in
/-- A turn that is kept preserves the invariant. -/
theorem Kept.moves (h : d.Kept) (hturn : d.InTurn turn) (hmoves : d.Moves turn d') :
    d'.Kept := by
  have hsound := h.toSound.moves hmoves
  cases turn with
  | idle =>
      obtain ⟨hreceived, htold, hbag⟩ := hmoves
      refine ⟨hsound, ?_, htold ▸ h.ordered, hreceived ▸ h.closed, ?_⟩
      · rw [htold]
        exact fun t ht r hr => h.behind t ht r (hbag.mem_iff.mp hr)
      · intro t ht
        refine h.settled_of (by simp [hreceived]) (by simp [htold]) ?_ (hreceived ▸ ht)
        exact fun t ht => .inl (hbag.mem_iff.mpr ht)
  | ask t =>
      obtain ⟨⟨-, hnumber⟩, hreceived, htold, hbag⟩ := hmoves
      refine ⟨hsound, ?_, htold ▸ h.ordered, hreceived ▸ h.closed_snoc hnumber hturn, ?_⟩
      · intro u hu r hr hkey
        rw [htold] at hu
        rcases List.mem_cons.mp (hbag.mem_iff.mp hr) with rfl | hr
        · have hlt := h.below u (h.told u hu)
          omega
        · exact h.behind u hu r hr hkey
      · intro u hu
        rw [hreceived] at hu
        rcases List.mem_append.mp hu with hu | hu
        · refine h.settled_of (by simp +contextual [hreceived]) (by simp [htold]) ?_ hu
          exact fun r hr => .inl (hbag.mem_iff.mpr (List.mem_cons_of_mem t hr))
        · exact .inl (hbag.mem_iff.mpr (List.mem_singleton.mp hu ▸ List.mem_cons_self))
  | close t =>
      obtain ⟨⟨-, hnumber⟩, hreceived, htold, hbag⟩ := hmoves
      refine ⟨hsound, ?_, ?_, hreceived ▸ h.closed_snoc hnumber hturn.1, ?_⟩
      · intro u hu r hr hkey
        have hr := hbag.mem_iff.mp hr
        rw [htold] at hu
        rcases List.mem_append.mp hu with hu | hu
        · exact h.behind u hu r hr hkey
        · rw [List.mem_singleton.mp hu] at hkey
          exact absurd hkey.symm (hturn.2 r hr)
      · rw [htold]
        refine h.ordered_snoc fun r hr _ => ?_
        have hlt := h.below r (h.told r hr)
        omega
      · intro u hu
        rw [hreceived] at hu
        rcases List.mem_append.mp hu with hu | hu
        · refine h.settled_of (by simp +contextual [hreceived])
            (by simp +contextual [htold]) ?_ hu
          exact fun r hr => .inl (hbag.mem_iff.mpr hr)
        · exact .inr (.inl (htold ▸ List.mem_append_right _ hu))
  | answer t =>
      obtain ⟨hreceived, htold, hbag⟩ := hmoves
      have ht : t ∈ d.outstanding := hbag.mem_iff.mpr List.mem_cons_self
      have hnew : t ∉ d'.outstanding :=
        (List.nodup_cons.mp (hbag.nodup_iff.mp h.nodup)).1
      refine ⟨hsound, ?_, ?_, hreceived ▸ h.closed, ?_⟩
      · intro u hu r hr hkey
        have hr' : r ∈ d.outstanding := hbag.mem_iff.mpr (List.mem_cons_of_mem t hr)
        rw [htold] at hu
        rcases List.mem_append.mp hu with hu | hu
        · exact h.behind u hu r hr' hkey
        · rw [List.mem_singleton.mp hu] at hkey ⊢
          have hle := hturn r hr' hkey.symm
          have hne : number t ≠ number r := by
            intro heq
            rw [h.eq_of_number (h.asked t ht) (h.asked r hr') heq] at hnew
            exact hnew hr
          omega
      · rw [htold]
        exact h.ordered_snoc fun r hr hkey => h.behind r hr t ht hkey
      · intro u hu
        refine h.settled_of (by simp [hreceived]) (by simp +contextual [htold]) ?_
          (hreceived ▸ hu)
        intro r hr
        rcases List.mem_cons.mp (hbag.mem_iff.mp hr) with rfl | hr
        · exact .inr (.inl (htold ▸ List.mem_append_right _ List.mem_cons_self))
        · exact .inl hr
  | fail t =>
      obtain ⟨hreceived, htold, hbag⟩ := hmoves
      refine ⟨hsound, ?_, htold ▸ h.ordered, hreceived ▸ h.closed, ?_⟩
      · intro u hu r hr hkey
        exact h.behind u (htold ▸ hu) r (hbag.mem_iff.mpr (List.mem_cons_of_mem t hr)) hkey
      · intro u hu
        refine h.settled_of (by simp [hreceived]) (by simp [htold]) ?_ (hreceived ▸ hu)
        intro r hr
        rcases List.mem_cons.mp (hbag.mem_iff.mp hr) with rfl | hr
        · exact .inr (.inr (hreceived.symm ▸ hturn))
        · exact .inl hr

/-- A desk whose turns have been kept tells the tickets of every key in order. -/
theorem Kept.tellsInOrder (h : d.Kept) (k : κ) : d.TellsInOrder k := by
  have hordered : (about k d.told).Pairwise fun t r => number t < number r := by
    refine (h.ordered.filter _).imp_of_mem ?_
    intro t r ht hr hlt
    exact hlt ((mem_about.mp ht).2.trans (mem_about.mp hr).2.symm)
  refine ⟨fun t ht => h.told t (mem_about.mp ht).1, hordered, ?_, ?_⟩
  · refine hordered.imp_of_mem ?_
    intro t r ht hr hlt
    rw [mem_about] at ht hr
    rw [Bool.eq_false_iff]
    intro hcloses
    have hle := h.closed t (h.told t ht.1) hcloses r (h.told r hr.1) (hr.2.trans ht.2.symm)
    omega
  · intro hidle
    have hnumbered : (about k d.received).Pairwise fun t r => number t < number r :=
      h.numbered.filter _
    cases hlast : (about k d.received).getLast? with
    | none =>
        rw [List.getLast?_eq_none_iff] at hlast ⊢
        refine List.eq_nil_iff_forall_not_mem.mpr fun t ht => ?_
        rw [mem_about] at ht
        have hin : t ∈ about k d.received := mem_about.mpr ⟨h.told t ht.1, ht.2⟩
        rw [hlast] at hin
        cases hin
    | some t =>
        have ht := List.mem_of_getLast? hlast
        have hmax : ∀ r ∈ about k d.received, number r ≤ number t := by
          obtain ⟨rest, hrest⟩ := List.getLast?_eq_some_iff.mp hlast
          intro r hr
          rw [hrest] at hr hnumbered
          rcases List.mem_append.mp hr with hr | hr
          · exact Nat.le_of_lt ((List.pairwise_append.mp hnumbered).2.2 r hr t
              List.mem_cons_self)
          · exact List.mem_singleton.mp hr ▸ Nat.le_refl _
        rw [mem_about] at ht
        refine getLast?_of_forall_le hordered ?_ ?_
        · rcases h.settled t ht.1 with hout | htold | ⟨r, hr, hkey, hlt⟩
          · exact absurd ht.2 (hidle t hout)
          · exact mem_about.mpr ⟨htold, ht.2⟩
          · have hle := hmax r (mem_about.mpr ⟨hr, hkey.trans ht.2⟩)
            omega
        · intro r hr
          rw [mem_about] at hr
          exact hmax r (mem_about.mpr ⟨h.told r hr.1, hr.2⟩)

/-! ## Turns that are not kept -/

/-- The ticket `r` has been overtaken by the told ticket `t` of its key. -/
def Overtakes (t r : τ) : Prop :=
  key t = key r ∧ (number r < number t ∨ closes t = true)

/-- A ticket has been told, or is still to be told, after one that overtakes it. -/
def Overtaken (d : Desk τ) : Prop :=
  (∃ t r, [t, r].Sublist d.told ∧ Overtakes t r) ∨
    ∃ t ∈ d.told, ∃ r ∈ d.outstanding, Overtakes t r

omit [DecidableEq κ] in
theorem overtaken_snoc {t r : τ} (ht : t ∈ d.told) (htold : d'.told = d.told ++ [r])
    (h : Overtakes t r) : d'.Overtaken := by
  refine .inl ⟨t, r, ?_, h⟩
  rw [htold]
  exact (List.singleton_sublist.mpr ht).append (.refl [r])

omit [DecidableEq κ] in
/-- A turn that is not kept, and is no failure, leaves a ticket overtaken. -/
theorem overtaken_of_moves (h : d.Sound) (hfail : ∀ t, turn ≠ .fail t)
    (hturn : ¬ d.InTurn turn) (hmoves : d.Moves turn d') : d'.Overtaken := by
  cases turn with
  | idle => exact absurd trivial hturn
  | ask t =>
      obtain ⟨-, -, htold, hbag⟩ := hmoves
      simp only [InTurn, not_forall, Bool.not_eq_false] at hturn
      obtain ⟨r, hr, hkey, hcloses⟩ := hturn
      exact .inr ⟨r, htold ▸ h.closing r hr hcloses, t, hbag.mem_iff.mpr List.mem_cons_self,
        hkey, .inr hcloses⟩
  | close t =>
      obtain ⟨⟨-, hnumber⟩, -, htold, hbag⟩ := hmoves
      simp only [InTurn, not_and_or, not_forall, Bool.not_eq_false, not_not] at hturn
      rcases hturn with ⟨r, hr, hkey, hcloses⟩ | ⟨r, hr, hkey⟩
      · exact overtaken_snoc (h.closing r hr hcloses) htold ⟨hkey, .inr hcloses⟩
      · refine .inr ⟨t, ?_, r, hbag.mem_iff.mpr hr, hkey.symm, .inl ?_⟩
        · exact htold ▸ List.mem_append_right _ List.mem_cons_self
        · exact hnumber ▸ h.below r (h.asked r hr)
  | answer t =>
      obtain ⟨-, htold, hbag⟩ := hmoves
      simp only [InTurn, not_forall, Nat.not_le] at hturn
      obtain ⟨r, hr, hkey, hlt⟩ := hturn
      refine .inr ⟨t, htold ▸ List.mem_append_right _ List.mem_cons_self, r, ?_, hkey.symm,
        .inl hlt⟩
      rcases List.mem_cons.mp (hbag.mem_iff.mp hr) with rfl | hr
      · exact absurd hlt (Nat.lt_irrefl _)
      · exact hr
  | fail t => exact absurd rfl (hfail t)

omit [DecidableEq κ] in
/-- A ticket that has been overtaken stays so, unless its question fails. -/
theorem Overtaken.moves (h : d.Overtaken) (hfail : ∀ t, turn ≠ .fail t)
    (hmoves : d.Moves turn d') : d'.Overtaken := by
  have hkeep : ∀ r : τ, r ∈ d.outstanding → r ∈ d'.outstanding ∨ d'.told = d.told ++ [r] := by
    intro r hr
    cases turn with
    | idle => exact .inl (hmoves.2.2.mem_iff.mpr hr)
    | ask t => exact .inl (hmoves.2.2.2.mem_iff.mpr (List.mem_cons_of_mem t hr))
    | close t => exact .inl (hmoves.2.2.2.mem_iff.mpr hr)
    | answer t =>
        rcases List.mem_cons.mp (hmoves.2.2.mem_iff.mp hr) with rfl | hr
        · exact .inr hmoves.2.1
        · exact .inl hr
    | fail t => exact absurd rfl (hfail t)
  have htold : ∃ ts, d'.told = d.told ++ ts := by
    cases turn with
    | idle => exact ⟨[], by rw [hmoves.2.1, List.append_nil]⟩
    | ask t => exact ⟨[], by rw [hmoves.2.2.1, List.append_nil]⟩
    | close t => exact ⟨[t], hmoves.2.2.1⟩
    | answer t => exact ⟨[t], hmoves.2.1⟩
    | fail t => exact absurd rfl (hfail t)
  obtain ⟨ts, hts⟩ := htold
  rcases h with ⟨t, r, hsub, hover⟩ | ⟨t, ht, r, hr, hover⟩
  · exact .inl ⟨t, r, hts ▸ hsub.trans (List.sublist_append_left _ ts), hover⟩
  · rcases hkeep r hr with hr | hsnoc
    · exact .inr ⟨t, hts ▸ List.mem_append_left ts ht, r, hr, hover⟩
    · exact overtaken_snoc ht hsnoc hover

/-- At a desk without outstanding questions an overtaken ticket has been told out of
order. -/
theorem Overtaken.not_tellsInOrder (h : d.Overtaken) (hidle : d.outstanding = []) :
    ∃ k, ¬ d.TellsInOrder k := by
  rcases h with ⟨t, r, hsub, hkey, hover⟩ | ⟨t, -, r, hr, -⟩
  · refine ⟨key t, fun htells => ?_⟩
    have hpair : [t, r].Sublist (about (key t) d.told) := by
      have hfilter := hsub.filter fun u => key u = key t
      rwa [List.filter_eq_self.mpr (by simp [hkey])] at hfilter
    rcases hover with hlt | hcloses
    · have hlt' := List.pairwise_pair.mp (htells.ordered.sublist hpair)
      omega
    · have hopen := List.pairwise_pair.mp (htells.closed.sublist hpair)
      rw [hcloses] at hopen
      cases hopen
  · rw [hidle] at hr
    cases hr

end Desk
