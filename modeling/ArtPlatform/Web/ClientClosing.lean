import ArtPlatform.Web.PlatformClient

/-!
# Closing the connections of a page

The function that `requestStream` returns cancels the stream of its client if there is one
already, cancels what the client has subscribed and closes its socket.  It takes back
neither an attempt nor the timer.

Main results:

- Theorem `subscriptions_exact`: the subscriptions of a client are always its subscribed
  streams.
- Theorem `unload_cancels`: unloading the page cancels every subscribed stream.
- Theorem `closed_silent_iff`: nothing is called any more after a client was closed, as long
  as its timer finds the platform connected, exactly when no attempt of the client is
  pending and none of its streams still waits for its subscription.
- Theorem `reconnects_iff`: every client makes one attempt and the page is not reloaded,
  exactly when no timer finds the platform's client down.
-/

namespace ArtPlatform.Web.Connection

open Function (update update_apply)
open EventRun

namespace Page

variable {page page' : Page} {event : PageEvent} {a c k : Nat}

/-! ## The subscriptions of a client -/

/-- The subscriptions of every client are its streams that are subscribed. -/
def Tracked (page : Page) : Prop :=
  ∀ c k, k ∈ (page.clients c).subscriptions ↔
    ∃ s, page.streams[k]? = some s ∧ s.client = c ∧ s.phase = .subscribed

theorem Tracked.congr (h : page.Tracked) (hstreams : page'.streams = page.streams)
    (hclients : ∀ c, (page'.clients c).subscriptions = (page.clients c).subscriptions) :
    page'.Tracked := by
  intro c k
  rw [hclients, hstreams]
  exact h c k

theorem subscriptions_modifyClient {f : PlatformClient → PlatformClient}
    (hf : ∀ client, (f client).subscriptions = client.subscriptions) (c d : Nat) :
    ((page.modifyClient c f).clients d).subscriptions = (page.clients d).subscriptions := by
  unfold modifyClient
  dsimp only
  rw [update_apply]
  split
  · rename_i hd
    rw [hf, hd]
  · rfl

theorem Tracked.modifyClient (h : page.Tracked) {f : PlatformClient → PlatformClient}
    (hf : ∀ client, (f client).subscriptions = client.subscriptions) (c : Nat) :
    (page.modifyClient c f).Tracked :=
  h.congr rfl (subscriptions_modifyClient hf c)

theorem Tracked.openSocket (h : page.Tracked) (c : Nat) : (page.openSocket c).Tracked :=
  h.congr rfl fun d => by
    unfold Page.openSocket
    exact subscriptions_modifyClient (by exact fun _ => rfl) c d

theorem Tracked.startConnectionListening (h : page.Tracked) (c : Nat) :
    (page.startConnectionListening c).Tracked := by
  refine h.modifyClient (fun client => ?_) c
  split <;> rfl

/-- A requested stream is not subscribed yet. -/
theorem Tracked.request (h : page.Tracked) (c : Nat) (kind : StreamKind) :
    (page.request c kind).Tracked := by
  intro d k
  have hclients : ((page.request c kind).clients d).subscriptions =
      (page.clients d).subscriptions := rfl
  rw [hclients, h d k]
  have hstreams : (page.request c kind).streams =
      page.streams ++ [{ client := c, kind := kind }] := rfl
  rw [hstreams]
  constructor
  · rintro ⟨s, hs, hclient, hphase⟩
    have hk := (List.getElem?_eq_some_iff.mp hs).1
    exact ⟨s, (List.getElem?_append_left hk).trans hs, hclient, hphase⟩
  · rintro ⟨s, hs, hclient, hphase⟩
    by_cases hk : k < page.streams.length
    · rw [List.getElem?_append_left hk] at hs
      exact ⟨s, hs, hclient, hphase⟩
    · rw [List.getElem?_append_right (Nat.le_of_not_lt hk)] at hs
      rw [List.mem_singleton.mp (List.mem_of_getElem? hs)] at hphase
      cases hphase

/-- A stream that ends or is canceled leaves the subscriptions of its client. -/
theorem Tracked.leave (h : page.Tracked) {s : ClientStream} (hs : page.streams[k]? = some s)
    {phase : Phase} (hphase : phase ≠ .subscribed) :
    ((page.setPhase k s phase).unsubscribe k s.client).Tracked := by
  intro d j
  have hsubs : ((page.setPhase k s phase).unsubscribe k s.client).clients d =
      if d = s.client then
        { page.clients s.client with
          subscriptions := (page.clients s.client).subscriptions.filter fun i => i ≠ k }
      else page.clients d := update_apply _ _ _ _
  rw [hsubs]
  constructor
  · intro hj
    have hold : j ∈ (page.clients d).subscriptions ∧ (d = s.client → j ≠ k) := by
      split at hj
      · rename_i hd
        obtain ⟨hmem, hne⟩ := List.mem_filter.mp hj
        exact ⟨hd ▸ hmem, fun _ => of_decide_eq_true hne⟩
      · exact ⟨hj, fun hd => absurd hd ‹_›⟩
    obtain ⟨t, ht, hclient, hsub⟩ := (h d j).mp hold.1
    have hne : j ≠ k := by
      rintro rfl
      rw [hs] at ht
      exact hold.2 (Option.some.inj ht ▸ hclient.symm) rfl
    exact ⟨t, (List.getElem?_set_ne hne.symm).trans ht, hclient, hsub⟩
  · rintro ⟨t, ht, hclient, hsub⟩
    rcases getElem?_set_cases ht with ⟨-, rfl⟩ | ⟨hne, ht⟩
    · exact absurd hsub hphase
    · have hmem := (h d j).mpr ⟨t, ht, hclient, hsub⟩
      split
      · rename_i hd
        exact List.mem_filter.mpr ⟨hd ▸ hmem, decide_eq_true hne⟩
      · exact hmem

theorem Tracked.cancel (h : page.Tracked) {s : ClientStream} (hs : page.streams[k]? = some s) :
    (page.cancel k s).Tracked := by
  unfold Page.cancel
  split
  · exact h.leave hs (by decide)
  · exact h

/-- A subscription is one of its client. -/
theorem Tracked.onSubscribe (h : page.Tracked) {s : ClientStream}
    (hs : page.streams[k]? = some s) : (page.onSubscribe k s).Tracked := by
  intro d j
  have hk := (List.getElem?_eq_some_iff.mp hs).1
  have hself : (page.onSubscribe k s).streams[k]? = some { s with phase := .subscribed } :=
    List.getElem?_set_self hk
  have hclients : (page.onSubscribe k s).clients d =
      if d = s.client then
        { page.clients s.client with subscriptions := k :: (page.clients s.client).subscriptions }
      else page.clients d := update_apply _ _ _ _
  have hother : ∀ t, j ≠ k →
      ((page.onSubscribe k s).streams[j]? = some t ↔ page.streams[j]? = some t) := by
    intro t hne
    rw [show (page.onSubscribe k s).streams[j]? = page.streams[j]? from
      List.getElem?_set_ne hne.symm]
  rw [hclients]
  by_cases hj : j = k
  · subst hj
    constructor
    · intro hmem
      refine ⟨_, hself, ?_, rfl⟩
      by_contra hd
      rw [if_neg fun heq => hd heq.symm] at hmem
      obtain ⟨t, ht, hclient, -⟩ := (h d j).mp hmem
      rw [hs] at ht
      exact hd (Option.some.inj ht ▸ hclient)
    · rintro ⟨t, ht, hclient, -⟩
      rw [hself] at ht
      rw [if_pos (show d = s.client from (Option.some.inj ht ▸ hclient).symm)]
      exact List.mem_cons_self
  · have hmem : j ∈ (if d = s.client then
        { page.clients s.client with
          subscriptions := k :: (page.clients s.client).subscriptions }
      else page.clients d).subscriptions ↔ j ∈ (page.clients d).subscriptions := by
      split
      · rename_i hd
        rw [hd]
        simp [hj]
      · rfl
    rw [hmem, h d j]
    exact exists_congr fun t => and_congr_left' (hother t hj).symm

theorem subscriptions_disposeRsocket (c d : Nat) :
    ((page.disposeRsocket c).clients d).subscriptions =
      if d = c then [] else (page.clients d).subscriptions := by
  have hcancel : ((page.cancelSubscriptions c).clients d).subscriptions =
      if d = c then [] else (page.clients d).subscriptions := by
    unfold cancelSubscriptions Page.modifyClient
    dsimp only
    rw [update_apply]
    split <;> rfl
  unfold disposeRsocket closeRsocket
  split
  · exact hcancel
  · exact hcancel

theorem Tracked.disposeRsocket (h : page.Tracked) (c : Nat) : (page.disposeRsocket c).Tracked := by
  intro d k
  rw [subscriptions_disposeRsocket, streams_disposeRsocket, getElem?_canceling]
  constructor
  · intro hk
    split at hk
    · cases hk
    · rename_i hd
      obtain ⟨s, hs, hclient, hsub⟩ := (h d k).mp hk
      have hnot : k ∉ (page.clients c).subscriptions := by
        intro hmem
        obtain ⟨t, ht, hclient', -⟩ := (h c k).mp hmem
        rw [hs] at ht
        exact hd (hclient.symm.trans (Option.some.inj ht ▸ hclient'))
      exact ⟨s, by rw [hs, Option.map_some, if_neg hnot], hclient, hsub⟩
  · rintro ⟨s', hs', hclient, hsub⟩
    obtain ⟨s, hs, rfl⟩ := Option.map_eq_some_iff.mp hs'
    split at hsub
    · cases hsub
    · rename_i hnot
      rw [if_neg hnot] at hclient
      have hmem := (h d k).mpr ⟨s, hs, hclient, hsub⟩
      rwa [if_neg]
      rintro rfl
      exact hnot hmem

theorem Tracked.close (h : page.Tracked) (c : Nat) : (page.close c).Tracked := by
  unfold Page.close
  split
  · exact h.disposeRsocket c
  · split
    · exact h.disposeRsocket c
    · rename_i hs
      exact (h.cancel hs).disposeRsocket c

theorem subscriptions_close (page : Page) (c : Nat) :
    ((page.close c).clients c).subscriptions = [] := by
  fun_cases Page.close page c <;> rw [subscriptions_disposeRsocket, if_pos rfl]

theorem Tracked.connected (h : page.Tracked) (c : Nat) (reason : Reason) :
    (page.connected c reason).Tracked := by
  unfold Page.connected
  split
  · split
    · exact h.congr rfl fun _ => rfl
    · exact h.congr rfl fun _ => rfl
    · refine (h.request c _).modifyClient ?_ c
      exact fun _ => rfl
  · have hreloaded : Tracked { page with reloads := page.reloads + 1 } :=
      h.congr rfl fun _ => rfl
    refine hreloaded.modifyClient (fun client => ?_) c
    split <;> rfl

/-! ## What holds in every state of a page -/

/-- The attempts and streams are those of clients of the page, whose subscriptions are its
subscribed streams. -/
structure Sound (page : Page) : Prop where
  attempts : ∀ x ∈ page.attempts, x.client < page.clientCount
  streams : ∀ s ∈ page.streams, s.client < page.clientCount
  positive : 0 < page.clientCount
  tracked : page.Tracked

theorem tracked_connect (h : page.Sound) (purpose : Purpose) : (page.connect purpose).Tracked := by
  refine h.tracked.congr rfl fun c => ?_
  have hclients : (page.connect purpose).clients c =
      if c = page.clientCount then { purpose := purpose } else page.clients c :=
    update_apply _ _ _ _
  rw [hclients]
  split
  · rename_i hc
    symm
    apply List.eq_nil_iff_forall_not_mem.mpr
    intro k hk
    obtain ⟨s, hs, hclient, -⟩ := (h.tracked c k).mp hk
    have hlt := h.streams s (List.mem_of_getElem? hs)
    omega
  · rfl

theorem tracked_of_step (h : page.Sound) (hstep : page.step event = some page') :
    page'.Tracked := by
  cases event <;> simp only [step, Option.some.injEq, Option.map_eq_some_iff,
    Option.ite_none_right_eq_some, streamIn?_eq_some_iff, Option.filter_eq_some_iff] at hstep
  case requestStream => exact hstep ▸ tracked_connect h _
  case connectExternal => exact hstep ▸ tracked_connect h _
  case chunkedRequest =>
      obtain ⟨-, rfl⟩ := hstep
      exact h.tracked.request 0 _
  case resolve a =>
      obtain ⟨attempt, -, rfl⟩ := hstep
      have hsettled : (page.settle a attempt).Tracked := h.tracked.congr rfl fun _ => rfl
      exact ((hsettled.openSocket _).startConnectionListening _).connected _ _
  case reject a =>
      obtain ⟨attempt, -, rfl⟩ := hstep
      have hsettled : (page.settle a attempt).Tracked := h.tracked.congr rfl fun _ => rfl
      have hfailed := hsettled.modifyClient (f := fun client =>
        { client with connectionStatus := .error }) (fun _ => rfl) attempt.client
      exact (hfailed.startConnectionListening attempt.client).congr rfl fun _ => rfl
  case status =>
      obtain ⟨s, -, rfl⟩ := hstep
      refine h.tracked.modifyClient ?_ _
      exact fun _ => rfl
  case tick =>
      obtain ⟨-, rfl⟩ := hstep
      unfold tick
      split
      · exact h.tracked.congr rfl fun _ => rfl
      · exact h.tracked
  case onSubscribe k =>
      obtain ⟨s, ⟨hs, -⟩, rfl⟩ := hstep
      exact h.tracked.onSubscribe hs
  case onNext =>
      obtain ⟨s, -, rfl⟩ := hstep
      unfold onNext
      split
      · exact h.tracked
      · exact h.tracked.congr rfl fun _ => rfl
  case onComplete k =>
      obtain ⟨s, ⟨hs, -⟩, rfl⟩ := hstep
      have hended : ((page.setPhase k s .ended).unsubscribe k s.client).Tracked :=
        h.tracked.leave hs (by decide)
      unfold onComplete
      dsimp only
      split
      · exact hended
      · exact hended.congr rfl fun _ => rfl
  case onError k =>
      obtain ⟨s, ⟨hs, -⟩, rfl⟩ := hstep
      have hended : ((page.setPhase k s .ended).unsubscribe k s.client).Tracked :=
        h.tracked.leave hs (by decide)
      exact hended.congr rfl fun _ => rfl
  case cancelRequest k =>
      obtain ⟨s, ⟨hs, -⟩, rfl⟩ := hstep
      exact h.tracked.cancel hs
  case close c =>
      obtain ⟨-, rfl⟩ := hstep
      exact h.tracked.close c
  case beforeUnload =>
      exact hstep ▸ disposeRsockets_induction h.tracked fun _ c ih => ih.disposeRsocket c

theorem Leads.client {s s' : ClientStream} (h : Leads s s') : s'.client = s.client := by
  cases h <;> rfl

theorem Sound.step (h : page.Sound) (hstep : page.step event = some page') : page'.Sound := by
  have hle := clientCount_le_of_step hstep
  refine ⟨?_, ?_, h.positive.trans_le hle, tracked_of_step h hstep⟩
  · intro x hx
    cases attempts_of_step hstep with
    | connect hcount heq =>
        rcases List.mem_append.mp (heq ▸ hx) with hx | hx
        · exact (h.attempts x hx).trans_le hle
        · rw [List.mem_singleton.mp hx, hcount]
          exact Nat.lt_succ_self _
    | reconnect _ hc _ _ heq =>
        rcases List.mem_append.mp (heq ▸ hx) with hx | hx
        · exact (h.attempts x hx).trans_le hle
        · rw [List.mem_singleton.mp hx]
          exact hc.trans_le hle
    | settle hy _ heq =>
        rcases List.mem_or_eq_of_mem_set (heq ▸ hx) with hx | rfl
        · exact (h.attempts x hx).trans_le hle
        · have hmem := List.mem_of_getElem? (pending?_eq_some_iff.mp hy).1
          exact (h.attempts _ hmem).trans_le hle
    | keep _ heq => exact (h.attempts x (heq ▸ hx)).trans_le hle
  · intro s' hs'
    obtain ⟨k, hk⟩ := List.mem_iff_getElem?.mp hs'
    rcases stream_of_step hstep hk with ⟨s, hs, hleads⟩ | ⟨-, -, hzero | ⟨a, y, hy, hclient⟩⟩
    · rw [hleads.client]
      exact (h.streams s (List.mem_of_getElem? hs)).trans_le hle
    · rw [hzero]
      exact h.positive.trans_le hle
    · have hmem := List.mem_of_getElem? (pending?_eq_some_iff.mp hy).1
      exact hclient ▸ (h.attempts y hmem).trans_le hle

theorem sound_loaded : loaded.Sound where
  attempts x hx := by
    rw [List.mem_singleton.mp hx]
    exact Nat.zero_lt_one
  streams _ hs := nomatch hs
  positive := Nat.zero_lt_one
  tracked c k := by
    have hclient : (loaded.clients c).subscriptions = [] := by
      unfold loaded connect processConnection
      dsimp only
      rw [update_apply]
      split <;> rfl
    rw [hclient]
    constructor
    · intro hk
      cases hk
    · rintro ⟨s, hs, -⟩
      cases hs

theorem sound_of_run {events : List PageEvent} (h : run step loaded events = some page) :
    page.Sound :=
  EventRun.invariant_of_run sound_loaded h fun _ _ _ hsound hstep => hsound.step hstep

/-- In every state of a page the subscriptions of a client are its subscribed streams. -/
theorem subscriptions_exact {events : List PageEvent} (h : run step loaded events = some page)
    (c k : Nat) :
    k ∈ (page.clients c).subscriptions ↔
      ∃ s, page.streams[k]? = some s ∧ s.client = c ∧ s.phase = .subscribed :=
  (sound_of_run h).tracked c k

/-- A page whose client is connected and of which a component has requested a stream. -/
private def requesting : List PageEvent :=
  [.resolve 0, .status 0 .connected, .requestStream true]

/-- The stream has its subscription. -/
private def subscribing : List PageEvent :=
  requesting ++ [.resolve 1, .status 1 .connected, .onSubscribe 0]

theorem subscriptions_exact_subscribed :
    ∃ page, run step loaded subscribing = some page ∧ 0 ∈ (page.clients 1).subscriptions := by
  have hrun : ∃ page, run step loaded subscribing = some page ∧
      ∃ s, page.streams[0]? = some s ∧ s.client = 1 ∧ s.phase = .subscribed :=
    ⟨_, rfl, _, rfl, rfl, rfl⟩
  obtain ⟨page, hpage, hstream⟩ := hrun
  exact ⟨page, hpage, (subscriptions_exact hpage 1 0).mpr hstream⟩

/-! ## Unloading the page -/

theorem tracked_foldl_disposeRsocket (h : page.Tracked) (cs : List Nat) :
    (cs.foldl disposeRsocket page).Tracked :=
  List.foldlRecOn (motive := Tracked) cs disposeRsocket h fun _ ih c _ => ih.disposeRsocket c

/-- A client whose socket is disposed of keeps no subscribed stream, whatever is disposed of
afterwards. -/
theorem subscriptions_foldl_disposeRsocket {cs : List Nat} (hc : c ∈ cs) (page : Page) :
    ((cs.foldl disposeRsocket page).clients c).subscriptions = [] := by
  have hkeeps : ∀ (ds : List Nat) (p : Page), (p.clients c).subscriptions = [] →
      ((ds.foldl disposeRsocket p).clients c).subscriptions = [] := by
    intro ds p hp
    refine List.foldlRecOn (motive := fun q => (q.clients c).subscriptions = []) ds
      disposeRsocket hp fun q hq d _ => ?_
    rw [subscriptions_disposeRsocket, hq, ite_self]
  induction cs generalizing page with
  | nil => cases hc
  | cons d cs ih =>
      rcases List.mem_cons.mp hc with rfl | hc
      · refine hkeeps cs _ ?_
        rw [subscriptions_disposeRsocket, if_pos rfl]
      · exact ih hc _

/-- Unloading the page cancels every stream that is subscribed, of whichever client. -/
theorem unload_cancels {events : List PageEvent} (h : run step loaded events = some page)
    (hunload : page.step .beforeUnload = some page') :
    ∀ s ∈ page'.streams, s.phase ≠ .subscribed := by
  have hsound := sound_of_run h
  obtain rfl := Option.some.inj hunload
  intro s hs hsub
  obtain ⟨k, hk⟩ := List.mem_iff_getElem?.mp hs
  have htracked := tracked_foldl_disposeRsocket hsound.tracked (List.range page.clientCount)
  obtain ⟨t, ht, hcanceled⟩ := cancels_disposeRsockets page k s hk
  have hclient : s.client = t.client := by
    rcases hcanceled with rfl | rfl <;> rfl
  have hlt : s.client ∈ List.range page.clientCount := by
    rw [hclient]
    exact List.mem_range.mpr (hsound.streams t (List.mem_of_getElem? ht))
  have hmem := (htracked s.client k).mpr ⟨s, hk, rfl, hsub⟩
  rw [subscriptions_foldl_disposeRsocket hlt page] at hmem
  cases hmem

theorem unload_cancels_subscribed :
    ∃ page page', run step loaded subscribing = some page ∧
      page.step .beforeUnload = some page' ∧ ∀ s ∈ page'.streams, s.phase ≠ .subscribed := by
  have hrun : ∃ page, run step loaded subscribing = some page := ⟨_, rfl⟩
  obtain ⟨page, hpage⟩ := hrun
  exact ⟨page, page.disposeRsockets, hpage, rfl, unload_cancels hpage rfl⟩

/-! ## Closing a client -/

/-- The client's attempts are over, and its streams have got their subscriptions. -/
def Settled (page : Page) (c : Nat) : Prop :=
  (∀ x ∈ page.attempts, x.client = c → x.pending = false) ∧
    ∀ s ∈ page.streams, s.client = c → s.phase ≠ .requested

/-- The client has no way left to call anything, but for its timer. -/
structure Silent (page : Page) (c : Nat) : Prop where
  positive : 0 < c
  known : c < page.clientCount
  attempts : ∀ x ∈ page.attempts, x.client = c → x.pending = false
  streams : ∀ s ∈ page.streams, s.client = c → s.phase = .ended ∨ s.phase = .canceled

/-- The timer of the client finds the page's client connected. -/
def FindsUp (c : Nat) (page : Page) (event : PageEvent) : Prop :=
  event = .tick c → (page.clients 0).connectionStatus.isDown = false

theorem Silent.step (h : page.Silent c) (hup : FindsUp c page event)
    (hstep : page.step event = some page') : page'.Silent c := by
  have hpending : ∀ a x, page.pending? a = some x → x.client ≠ c := by
    intro a x hx hclient
    obtain ⟨hget, htrue⟩ := pending?_eq_some_iff.mp hx
    rw [h.attempts x (List.mem_of_getElem? hget) hclient] at htrue
    cases htrue
  refine ⟨h.positive, h.known.trans_le (clientCount_le_of_step hstep), ?_, ?_⟩
  · intro x hx hclient
    cases attempts_of_step hstep with
    | connect _ heq =>
        rcases List.mem_append.mp (heq ▸ hx) with hx | hx
        · exact h.attempts x hx hclient
        · rw [List.mem_singleton.mp hx] at hclient
          exact absurd hclient h.known.ne'
    | reconnect hevent _ hdown _ heq =>
        rcases List.mem_append.mp (heq ▸ hx) with hx | hx
        · exact h.attempts x hx hclient
        · rw [List.mem_singleton.mp hx] at hclient
          subst hclient
          rw [hup hevent] at hdown
          cases hdown
    | settle _ _ heq =>
        rcases List.mem_or_eq_of_mem_set (heq ▸ hx) with hx | rfl
        · exact h.attempts x hx hclient
        · rfl
    | keep _ heq => exact h.attempts x (heq ▸ hx) hclient
  · intro s' hs' hclient
    obtain ⟨k, hk⟩ := List.mem_iff_getElem?.mp hs'
    rcases stream_of_step hstep hk with ⟨s, hs, hleads⟩ | ⟨-, -, hzero | ⟨a, x, hx, hclient'⟩⟩
    · have hphase := h.streams s (List.mem_of_getElem? hs) (hleads.client.symm.trans hclient)
      cases hleads with
      | same => exact hphase
      | subscribed hrequested => rw [hrequested] at hphase; simp at hphase
      | ended => exact .inl rfl
      | canceled => exact .inr rfl
    · exact absurd (hclient.symm.trans hzero) h.positive.ne'
    · exact absurd (hclient'.trans hclient) (hpending a x hx)

theorem Silent.calls_eq (h : page.Silent c) (hstep : page.step event = some page') :
    page'.calls c = page.calls c := by
  refine calls_of_step hstep ?_ ?_
  · intro a x hx hclient
    obtain ⟨hget, htrue⟩ := pending?_eq_some_iff.mp hx
    rw [h.attempts x (List.mem_of_getElem? hget) hclient] at htrue
    cases htrue
  · intro k s hs hclient
    obtain ⟨hget, hsub⟩ := streamIn?_eq_some_iff.mp hs
    rcases h.streams s (List.mem_of_getElem? hget) hclient with hphase | hphase
    · rw [hsub] at hphase
      cases hphase
    · rw [hsub] at hphase
      cases hphase

theorem Silent.run (h : page.Silent c) {events : List PageEvent}
    (hrun : EventRun.run Page.step page events = some page')
    (hup : EachStep Page.step page events (FindsUp c)) :
    page'.calls c = page.calls c := by
  have halways : Always Page.step page events
      fun p => p.Silent c ∧ p.calls c = page.calls c := by
    refine always_of_eachStep ⟨h, rfl⟩ hup ?_
    intro p event q ⟨hsilent, hcalls⟩ hfinds hstep
    exact ⟨hsilent.step hfinds hstep, (hsilent.calls_eq hstep).trans hcalls⟩
  exact (halways events page' List.prefix_rfl hrun).2

theorem silent_close (hsound : page.Sound) (h : page.Settled c) (hpos : 0 < c)
    (hc : c < page.clientCount) : (page.close c).Silent c := by
  refine ⟨hpos, (clientCount_close c).symm ▸ hc, ?_, ?_⟩
  · rw [attempts_close]
    exact h.1
  · intro s hs hclient
    obtain ⟨k, hk⟩ := List.mem_iff_getElem?.mp hs
    obtain ⟨t, ht, heq⟩ := cancels_close page c k s hk
    rcases heq with rfl | rfl
    · have hnot := h.2 s (List.mem_of_getElem? ht) hclient
      have hsub : s.phase ≠ .subscribed := by
        intro hsub
        have hmem := ((hsound.tracked.close c) c k).mpr ⟨s, hk, hclient, hsub⟩
        rw [subscriptions_close] at hmem
        cases hmem
      cases hphase : s.phase with
      | requested => exact absurd hphase hnot
      | subscribed => exact absurd hphase hsub
      | ended => exact .inl rfl
      | canceled => exact .inr rfl
    · exact .inr rfl

/-- Closing a client does not reach a stream that waits for its subscription. -/
theorem getElem?_close_of_requested (h : page.Tracked) {s : ClientStream}
    (hs : page.streams[k]? = some s) (hphase : s.phase = .requested) (c : Nat) :
    (page.close c).streams[k]? = some s := by
  have hdispose : ∀ {p : Page}, p.Tracked → p.streams[k]? = some s →
      (p.disposeRsocket c).streams[k]? = some s := by
    intro p hp hget
    have hnot : k ∉ (p.clients c).subscriptions := by
      intro hmem
      obtain ⟨t, ht, -, hsub⟩ := (hp c k).mp hmem
      rw [hget] at ht
      rw [← Option.some.inj ht, hphase] at hsub
      cases hsub
    rw [streams_disposeRsocket, getElem?_canceling, hget, Option.map_some, if_neg hnot]
  unfold close
  split
  · exact hdispose h hs
  · split
    · exact hdispose h hs
    · rename_i j _ _ t ht
      refine hdispose (h.cancel ht) ?_
      unfold cancel
      split
      · rename_i hsub
        have hne : j ≠ k := by
          rintro rfl
          rw [hs] at ht
          rw [← Option.some.inj ht, hphase] at hsub
          cases hsub
        exact (List.getElem?_set_ne hne).trans hs
      · exact hs

theorem run_singleton (h : page.step event = some page') :
    run step page [event] = some page' := by
  rw [run, h]
  rfl

/-- Nothing is asked of the page's client where the timer is silent. -/
theorem eachStep_findsUp {events : List PageEvent} (h : .tick c ∉ events) :
    EachStep step page events (FindsUp c) := by
  intro earlier event _ hearlier _ heq
  exact absurd (hearlier.subset (heq ▸ List.mem_append_right earlier List.mem_cons_self)) h

theorem calls_call_ne {callback : Callback} :
    (page.call c callback).calls c ≠ page.calls c := by
  intro heq
  have hlen := congrArg List.length heq
  simp [call] at hlen

/-- After a client was closed nothing is called for it, whatever happens on the page and as
long as its timer finds the page's client connected, exactly when the client was settled. -/
theorem closed_silent_iff {events : List PageEvent} (h : run step loaded events = some page)
    (hclose : page.step (.close c) = some page') :
    (∀ later page'', run step page' later = some page'' →
      EachStep step page' later (FindsUp c) → page''.calls c = page'.calls c) ↔
        page.Settled c := by
  have hsound := sound_of_run h
  obtain ⟨⟨hpos, hc⟩, heq⟩ := Option.ite_none_right_eq_some.mp hclose
  obtain rfl := Option.some.inj heq
  constructor
  · intro hsilent
    constructor
    · intro x hx hclient
      by_contra htrue
      obtain ⟨a, ha⟩ := List.mem_iff_getElem?.mp hx
      have hpending : (page.close c).pending? a = some x := by
        rw [pending?_eq_some_iff, attempts_close]
        exact ⟨ha, by simpa using htrue⟩
      have hreject : (page.close c).step (.reject a) = some ((page.close c).reject a x) := by
        simp only [step, hpending, Option.map_some]
      have hsame := hsilent [.reject a] _ (run_singleton hreject)
        (eachStep_findsUp (by simp))
      exact calls_call_ne (hclient ▸ hsame)
    · intro s hs hclient hphase
      obtain ⟨k, hk⟩ := List.mem_iff_getElem?.mp hs
      have hstill := getElem?_close_of_requested hsound.tracked hk hphase c
      have hsubscribe : (page.close c).step (.onSubscribe k) =
          some ((page.close c).onSubscribe k s) := by
        have hin : (page.close c).streamIn? .requested k = some s :=
          streamIn?_eq_some_iff.mpr ⟨hstill, hphase⟩
        simp only [step, hin, Option.map_some]
      have hsubscribed : ((page.close c).onSubscribe k s).streamIn? .subscribed k =
          some { s with phase := .subscribed } := by
        rw [streamIn?_eq_some_iff]
        exact ⟨List.getElem?_set_self (List.getElem?_eq_some_iff.mp hstill).1, rfl⟩
      have herror : ((page.close c).onSubscribe k s).step (.onError k) =
          some (((page.close c).onSubscribe k s).onError k { s with phase := .subscribed }) := by
        simp only [step, hsubscribed, Option.map_some]
      have hrun : run step (page.close c) [.onSubscribe k, .onError k] =
          some (((page.close c).onSubscribe k s).onError k { s with phase := .subscribed }) := by
        rw [run, hsubscribe]
        exact run_singleton herror
      have hsame := hsilent _ _ hrun (eachStep_findsUp (by simp))
      exact calls_call_ne (hclient ▸ hsame)
  · intro hsettled later page'' hrun hup
    exact (silent_close hsound hsettled hpos hc).run hrun hup

/-- A stream that is closed once it has its subscription stays silent.  One that is closed
before its attempt is over does not. -/
theorem closed_silent_iff_subscribed :
    (∃ page page', run step loaded subscribing = some page ∧
      page.step (.close 1) = some page' ∧
      ∀ later page'', run step page' later = some page'' →
        EachStep step page' later (FindsUp 1) → page''.calls 1 = page'.calls 1) ∧
      ∃ page page', run step loaded requesting = some page ∧
        page.step (.close 1) = some page' ∧
        ¬ ∀ later page'', run step page' later = some page'' →
          EachStep step page' later (FindsUp 1) → page''.calls 1 = page'.calls 1 := by
  constructor
  · have hrun : ∃ page, run step loaded subscribing = some page ∧
        page.step (.close 1) = some (page.close 1) ∧ page.Settled 1 :=
      ⟨_, rfl, rfl, by decide, by decide⟩
    obtain ⟨page, hpage, hclose, hsettled⟩ := hrun
    exact ⟨page, page.close 1, hpage, hclose, (closed_silent_iff hpage hclose).mpr hsettled⟩
  · have hrun : ∃ page, run step loaded requesting = some page ∧
        page.step (.close 1) = some (page.close 1) ∧
          { client := 1, reason := .connect } ∈ page.attempts :=
      ⟨_, rfl, rfl, by decide⟩
    obtain ⟨page, hpage, hclose, hpending⟩ := hrun
    refine ⟨page, page.close 1, hpage, hclose, fun hsilent => ?_⟩
    have hsettled := ((closed_silent_iff hpage hclose).mp hsilent).1
    exact absurd (hsettled _ hpending rfl) (by decide)

/-! ## Connecting again -/

/-- Every client has made one attempt, and the page was not reloaded. -/
structure OneAttempt (page : Page) : Prop where
  connects : ∀ x ∈ page.attempts, x.reason = .connect
  clients : page.attempts.map Attempt.client = List.range page.clientCount
  reloads : page.reloads = 0

@[simp] theorem reloads_onNext (s : ClientStream) (failed : Bool) :
    (page.onNext s failed).reloads = page.reloads := by
  fun_cases onNext page s failed <;> rfl

@[simp] theorem reloads_onComplete (k : Nat) (s : ClientStream) :
    (page.onComplete k s).reloads = page.reloads := by
  fun_cases onComplete page k s <;> rfl

@[simp] theorem reloads_cancel (k : Nat) (s : ClientStream) :
    (page.cancel k s).reloads = page.reloads := by
  fun_cases cancel page k s <;> rfl

@[simp] theorem reloads_disposeRsocket (c : Nat) :
    (page.disposeRsocket c).reloads = page.reloads := by
  unfold disposeRsocket closeRsocket
  split <;> rfl

@[simp] theorem reloads_close (c : Nat) : (page.close c).reloads = page.reloads := by
  fun_cases close page c <;> simp

/-- Settling an attempt changes nothing else of it. -/
theorem map_settle {β : Type} (f : Attempt → β) {x : Attempt} (h : page.attempts[a]? = some x)
    (hf : f { x with pending := false } = f x) :
    (page.attempts.set a { x with pending := false }).map f = page.attempts.map f := by
  rw [List.map_set, hf]
  apply List.ext_getElem?
  intro i
  rw [List.getElem?_set]
  split
  · rename_i hi
    subst hi
    obtain ⟨hlt, hx⟩ := List.getElem?_eq_some_iff.mp h
    simp [hlt, hx]
  · rfl

/-- The page is reloaded only by an attempt to connect again. -/
theorem reloads_of_step (hconnects : ∀ x ∈ page.attempts, x.reason = .connect)
    (h : page.step event = some page') : page'.reloads = page.reloads := by
  cases event <;> simp only [Page.step, Option.some.injEq, Option.map_eq_some_iff,
    Option.ite_none_right_eq_some] at h
  case requestStream => exact h ▸ rfl
  case connectExternal => exact h ▸ rfl
  case chunkedRequest =>
      obtain ⟨-, rfl⟩ := h
      rfl
  case resolve a =>
      obtain ⟨x, hpending, rfl⟩ := h
      have hreason := hconnects x (List.mem_of_getElem? (pending?_eq_some_iff.mp hpending).1)
      unfold resolve connected
      rw [hreason]
      dsimp only
      split <;> rfl
  case tick =>
      obtain ⟨-, rfl⟩ := h
      unfold tick
      split <;> rfl
  case close =>
      obtain ⟨-, rfl⟩ := h
      exact reloads_close _
  case beforeUnload =>
      rw [← h]
      exact disposeRsockets_induction (P := fun p => p.reloads = page.reloads) rfl
        fun _ c ih => (reloads_disposeRsocket c).trans ih
  all_goals
    obtain ⟨_, -, rfl⟩ := h
    first | rfl | simp

theorem OneAttempt.step (h : page.OneAttempt) (hup : ∀ c, FindsUp c page event)
    (hstep : page.step event = some page') : page'.OneAttempt := by
  have hreloads := (reloads_of_step h.connects hstep).trans h.reloads
  cases attempts_of_step hstep with
  | connect hcount heq =>
      refine ⟨?_, ?_, hreloads⟩
      · intro x hx
        rcases List.mem_append.mp (heq ▸ hx) with hx | hx
        · exact h.connects x hx
        · rw [List.mem_singleton.mp hx]
      · rw [heq, List.map_append, h.clients, hcount, List.range_succ]
        rfl
  | reconnect hevent _ hdown =>
      rw [hup _ hevent] at hdown
      cases hdown
  | @settle a attempt hpending hcount heq =>
      obtain ⟨hget, -⟩ := pending?_eq_some_iff.mp hpending
      refine ⟨?_, ?_, hreloads⟩
      · intro x hx
        rcases List.mem_or_eq_of_mem_set (heq ▸ hx) with hx | rfl
        · exact h.connects x hx
        · exact h.connects attempt (List.mem_of_getElem? hget)
      · rw [heq, map_settle Attempt.client hget rfl, h.clients, hcount]
  | keep hcount heq =>
      refine ⟨?_, ?_, hreloads⟩
      · rw [heq]
        exact h.connects
      · rw [heq, hcount]
        exact h.clients

/-- An attempt is not forgotten. -/
theorem reasons_prefix_of_step (h : page.step event = some page') :
    page.attempts.map Attempt.reason <+: page'.attempts.map Attempt.reason := by
  cases attempts_of_step h with
  | connect _ heq => rw [heq, List.map_append]; exact List.prefix_append _ _
  | reconnect _ _ _ _ heq => rw [heq, List.map_append]; exact List.prefix_append _ _
  | settle hpending _ heq =>
      rw [heq, map_settle Attempt.reason (pending?_eq_some_iff.mp hpending).1 rfl]
  | keep _ heq => rw [heq]

/-- Every client makes one attempt and the page is not reloaded, exactly when no timer finds
the page's client down. -/
theorem reconnects_iff {events : List PageEvent} (h : run step loaded events = some page) :
    EachStep step loaded events (fun p event => ∀ c, FindsUp c p event) ↔
      page.OneAttempt := by
  constructor
  · intro hup
    have hloaded : loaded.OneAttempt := ⟨fun x hx => by rw [List.mem_singleton.mp hx], rfl, rfl⟩
    exact always_of_eachStep hloaded hup (fun _ _ _ hone hfinds hstep => hone.step hfinds hstep)
      events page List.prefix_rfl h
  · intro hone earlier event u hearlier hu c hevent
    subst hevent
    by_contra hdown
    obtain ⟨v, later, hstep, -, hlater⟩ := exists_step_of_prefix hearlier h hu
    have hv : v.attempts = u.attempts ++ [{ client := c, reason := .reconnect }] := by
      obtain ⟨-, heq⟩ := Option.ite_none_right_eq_some.mp hstep
      rw [← Option.some.inj heq, tick, if_pos (by simpa using hdown)]
      rfl
    have hreasons : v.attempts.map Attempt.reason <+: page.attempts.map Attempt.reason :=
      EventRun.invariant_of_run
        (I := fun p => v.attempts.map Attempt.reason <+: p.attempts.map Attempt.reason)
        List.prefix_rfl hlater fun _ _ _ ih hstep => ih.trans (reasons_prefix_of_step hstep)
    have hmem : Reason.reconnect ∈ v.attempts.map Attempt.reason := by
      rw [hv, List.map_append]
      exact List.mem_append_right _ List.mem_cons_self
    obtain ⟨x, hx, hreason⟩ := List.mem_map.mp (hreasons.subset hmem)
    rw [hone.connects x hx] at hreason
    cases hreason

/-- A timer ticks once while the page's client is connected. -/
private def ticking : List PageEvent :=
  subscribing ++ [.tick 1]

theorem reconnects_iff_ticking :
    ∃ page, run step loaded ticking = some page ∧
      EachStep step loaded ticking fun p event => ∀ c, FindsUp c p event := by
  have hrun : ∃ page, run step loaded ticking = some page ∧ page.OneAttempt :=
    ⟨_, rfl, by decide, rfl, rfl⟩
  obtain ⟨page, hpage, hone⟩ := hrun
  exact ⟨page, hpage, (reconnects_iff hpage).mpr hone⟩

end Page

end ArtPlatform.Web.Connection
