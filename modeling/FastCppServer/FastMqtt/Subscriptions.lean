import FastCppServer.FastMqtt.Callbacks
import FastCppServer.Lib.Parties
import FastCppServer.Lib.Transition
import Mathlib.Logic.Function.Basic

/-!
# The subscriptions at the broker

The table of callbacks changes under `cb_mutex_`; the subscriptions at the broker follow it by calls
of their own, some under `pub_mutex_` alone: any number of clients in `RegisterCallback`,
`UnregisterCallback`, `ClearCallback` and `ClearAllCallbacks`, and the network thread in
`HandleConnect` with `ResubscribeAll` and in `HandleDisconnect`. The broker is a map from filters to
the QoS of the last subscription it has accepted.

What keeps the two together is that every callback is either subscribed with its QoS or on the way
there (`Covered`), and that a filter at the broker has a callback or is being removed (`Wanted`). A
run keeps this as long as its steps are `Careful`; each way in which a step can fail to be is a way
in which the broker and the table come apart.
-/

namespace FastMqtt

namespace Subscriptions

open Function Parties Transition

/-- Where a client stands. In `removing`, `unsubscribing` and `erasing` it holds `cb_mutex_`, and
the filter is on its way out of the table. -/
inductive Client (κ : Type) where
  | idle
  | registering (e : CallbackEntry κ)
  | checking (e : CallbackEntry κ)
  | subscribing (e : CallbackEntry κ)
  | unregistering (handle : Nat)
  | clearing (filter : String)
  | removing (filter : String)
  | unsubscribing (filter : String)
  | erasing (filter : String)
  | clearingAll

/-- Where the network thread stands: no connection, connected at the broker, `session_connected_`
set, the table read, and, with `pub_mutex_`, in the middle of its subscriptions. -/
inductive Network where
  | down
  | accepted
  | flagged
  | listed (subs : List (String × Int))
  | resubscribing (subs : List (String × Int))
  | up

structure System (ι κ : Type) where
  cleanSession : Bool
  mosq : Bool
  table : Table κ := ∅
  nextHandle : Nat := 1
  sessionConnected : Bool := false
  /-- The broker has a connection with this client. -/
  link : Bool := false
  broker : String → Option Int := fun _ => none
  cbMutex : Option ι := none
  client : ι → Client κ := fun _ => .idle
  network : Network := .down

variable {ι κ : Type}

/-- `pub_mutex_` is free. -/
def System.pubFree (s : System ι κ) : Bool :=
  match s.network with
  | .resubscribing _ => false
  | _ => true

/-- `mosquitto_subscribe`: the broker takes it only over a connection. -/
def System.subscribe (s : System ι κ) (accepted : Bool) (filter : String) (qos : Int) :
    System ι κ :=
  if accepted ∧ s.link then { s with broker := update s.broker filter (some qos) } else s

/-- `mosquitto_unsubscribe`. -/
def System.unsubscribe (s : System ι κ) (accepted : Bool) (filter : String) : System ι κ :=
  if accepted ∧ s.link then { s with broker := update s.broker filter none } else s

/-- One step of a client; it waits where a mutex is taken. -/
def clientAct (s : System ι κ) (i : ι) (accepted : Bool) :
    Client κ → Option (System ι κ × Client κ)
  | .idle => none
  | .registering e =>
    if s.cbMutex.isSome then none else some ({ s with table := s.table.add e }, .checking e)
  | .checking e => some (s, if s.sessionConnected ∧ s.mosq then .subscribing e else .idle)
  | .subscribing e =>
    if s.pubFree then some (s.subscribe accepted e.filter e.qos, .idle) else none
  | .unregistering handle =>
    if s.cbMutex.isSome then none
    else match s.table.remove handle with
      | none => some (s, .idle)
      | some (filter, []) =>
        some ({ s with table := s.table.insert filter [], cbMutex := some i }, .removing filter)
      | some (filter, es) => some ({ s with table := s.table.insert filter es }, .idle)
  | .clearing filter =>
    if s.cbMutex.isSome then none
    else if filter ∈ s.table then some ({ s with cbMutex := some i }, .removing filter)
    else some (s, .idle)
  | .removing filter =>
    some (s, if s.sessionConnected ∧ s.mosq then .unsubscribing filter else .erasing filter)
  | .unsubscribing filter =>
    if s.pubFree then some (s.unsubscribe accepted filter, .erasing filter) else none
  | .erasing filter => some ({ s with table := s.table.erase filter, cbMutex := none }, .idle)
  | .clearingAll => if s.cbMutex.isSome then none else some ({ s with table := ∅ }, .idle)

/-- One step of `HandleConnect`, once the broker has accepted the connection. -/
def networkAct (s : System ι κ) (accepted : Bool) : Network → Option (System ι κ × Network)
  | .down => none
  | .accepted => some ({ s with sessionConnected := true }, .flagged)
  | .flagged => if s.cbMutex.isSome then none else some (s, .listed s.table.subscriptions)
  | .listed subs => some (s, .resubscribing subs)
  | .resubscribing [] => some (s, .up)
  | .resubscribing ((filter, qos) :: subs) =>
    some (s.subscribe accepted filter qos, .resubscribing subs)
  | .up => none

/-- The calls, the steps, and what happens to the connection: it is made, or refused; it drops; and
the drop is noticed (`HandleDisconnect`). -/
inductive Label (ι κ : Type) where
  | register (i : ι) (filter : String) (callback : Option κ) (qos : Int)
  | unregister (i : ι) (handle : Nat)
  | clear (i : ι) (filter : String)
  | clearAll (i : ι)
  | client (i : ι) (accepted : Bool)
  | network (accepted : Bool)
  | connect
  | refused
  | drop
  | disconnect

variable [DecidableEq ι]

/-- A client calls when its last call has returned. -/
def call (s : System ι κ) (i : ι) (phase : Client κ) : Option (System ι κ) :=
  match s.client i with
  | .idle => some { s with client := update s.client i phase }
  | _ => none

def step (s : System ι κ) : Label ι κ → Option (System ι κ)
  | .register _ _ none _ => some s
  | .register i filter (some callback) qos =>
    call { s with nextHandle := s.nextHandle + 1 } i
      (.registering { handle := s.nextHandle, filter, callback, qos })
  | .unregister i handle => call s i (.unregistering handle)
  | .clear i filter => call s i (.clearing filter)
  | .clearAll i => call s i .clearingAll
  | .client i accepted =>
    (clientAct s i accepted (s.client i)).map fun (s', phase) =>
      { s' with client := update s.client i phase }
  | .network accepted =>
    (networkAct s accepted s.network).map fun (s', phase) => { s' with network := phase }
  | .connect =>
    match s.network with
    | .down =>
      if s.mosq then
        some
          { s with
            link := true
            broker := if s.cleanSession then fun _ => none else s.broker
            network := .accepted }
      else none
    | _ => none
  | .refused =>
    match s.network with
    | .down => some { s with sessionConnected := false }
    | _ => none
  | .drop => some { s with link := false }
  | .disconnect =>
    match s.network with
    | .up => if s.link then none else some { s with sessionConnected := false, network := .down }
    | _ => none

/-- Nothing is in progress, and the session is connected. -/
def Settled (s : System ι κ) : Prop :=
  (∀ i, s.client i = .idle) ∧ s.network = .up ∧ s.sessionConnected = true ∧ s.link = true

/-- The broker has the filters of the table, with a QoS that is enough for each callback. -/
def Agrees (s : System ι κ) : Prop :=
  ∀ filter, ((s.broker filter).isSome ↔ s.table.callbacks filter ≠ []) ∧
    ∀ qos, s.broker filter = some qos → ∀ e ∈ s.table.callbacks filter, e.qos ≤ qos

/-! ## Careful steps -/

/-- The client is about to subscribe the filter, with this QoS at least. -/
def Client.Brings (filter : String) (qos : Int) (c : Client κ) : Prop :=
  ∃ e, (c = .checking e ∨ c = .subscribing e) ∧ e.filter = filter ∧ qos ≤ e.qos

/-- The network thread is about to subscribe the filter. -/
def Network.Brings (filter : String) : Network → Prop
  | .accepted | .flagged => True
  | .listed subs | .resubscribing subs => ∃ qos, (filter, qos) ∈ subs
  | .down | .up => False

/-- The client takes the filter out of the table. -/
def Client.Removes (filter : String) (c : Client κ) : Prop :=
  c = .removing filter ∨ c = .unsubscribing filter ∨ c = .erasing filter

/-- The broker does not have the filter, or has it in a session that is over. -/
def Gone (s : System ι κ) (filter : String) : Prop :=
  s.broker filter = none ∨ s.cleanSession = true ∧ s.link = false

/-- A subscription that reaches the broker is accepted, the filter has callbacks that are not just
being erased, and its QoS is enough for each of them, or a later subscription brings more. -/
def SubscribesWell (s : System ι κ) (later : Int → Prop) (accepted : Bool) (filter : String)
    (qos : Int) : Prop :=
  s.link = true → accepted = true ∧ s.table.callbacks filter ≠ [] ∧
    (∀ i, s.client i ≠ .erasing filter) ∧
    ∀ e ∈ s.table.callbacks filter, e.qos ≤ qos ∨ later e.qos

/-- The steps that keep the broker with the table. -/
def Careful (s : System ι κ) : Label ι κ → Prop
  | .client i accepted => match s.client i with
    | .subscribing e =>
      let later q := (∃ j, j ≠ i ∧ (s.client j).Brings e.filter q) ∨ s.network.Brings e.filter
      SubscribesWell s later accepted e.filter e.qos
    -- the session counts as down, so nothing is going to be unsubscribed
    | .removing filter => (s.sessionConnected = false ∨ s.mosq = false) → Gone s filter
    | .unsubscribing filter => accepted = true ∧ s.link = true ∨ Gone s filter
    | .clearingAll => ∀ filter, Gone s filter
    | _ => True
  | .network accepted => match s.network with
    | .resubscribing ((filter, qos) :: subs) =>
      let later q := (∃ j, (s.client j).Brings filter q) ∨ ∃ qos, (filter, qos) ∈ subs
      SubscribesWell s later accepted filter qos
    | _ => True
  | _ => True

/-! ## What is kept -/

/-- A callback with this QoS is subscribed, or on the way there, or on its way out. -/
def Covered (s : System ι κ) (filter : String) (qos : Int) : Prop :=
  (∃ q, s.broker filter = some q ∧ qos ≤ q) ∨ (∃ i, (s.client i).Brings filter qos) ∨
    s.network.Brings filter ∨ ∃ i, (s.client i).Removes filter

structure Kept (s : System ι κ) : Prop where
  covered : s.link = true → ∀ filter, ∀ e ∈ s.table.callbacks filter, Covered s filter e.qos
  wanted : ∀ filter, s.table.callbacks filter ≠ [] ∨ (∃ i, (s.client i).Removes filter) ∨
    Gone s filter
  erased : ∀ i filter, s.client i = .erasing filter → Gone s filter
  flagged : s.link = true → s.sessionConnected = false ∨ s.mosq = false → s.network = .accepted
  down : s.network = .down → s.link = false
  handle : s.link = true → s.mosq = true

section
variable {s s' : System ι κ}

/-- Who is erasing a filter was so before a step that does not come to it. -/
theorem erasing_of_update {c : ι → Client κ} {i j : ι} {p : Client κ} {f : String}
    (hp : ∀ f, p ≠ .erasing f) (hj : update c i p j = .erasing f) : c j = .erasing f := by
  rcases eq_or_ne j i with rfl | hne
  · rw [update_self] at hj
    exact absurd hj (hp f)
  · rwa [update_of_ne hne] at hj

/-- A step of a client that leaves all but its own phase. -/
theorem Kept.client (h : Kept s) {i : ι} {p : Client κ}
    (hbrings : s.link = true → ∀ f q, (s.client i).Brings f q → p.Brings f q ∨ s.network.Brings f)
    (hremoves : ∀ f, (s.client i).Removes f → p.Removes f)
    (herase : ∀ f, p = .erasing f → Gone s f) (cb : Option ι) :
    Kept { s with client := update s.client i p, cbMutex := cb } where
  covered hl f e he := by
    rcases h.covered hl f e he with hb | ⟨j, hj⟩ | hn | hr
    · exact .inl hb
    · rcases eq_or_ne j i with rfl | hne
      · rcases hbrings hl f e.qos hj with hp | hn
        · exact .inr (.inl ⟨j, by simpa using hp⟩)
        · exact .inr (.inr (.inl hn))
      · exact .inr (.inl ⟨j, by simpa [update_of_ne hne] using hj⟩)
    · exact .inr (.inr (.inl hn))
    · exact .inr (.inr (.inr (exists_update hr (hremoves f))))
  wanted f := (h.wanted f).imp id (Or.imp (fun hr => exists_update hr (hremoves f)) id)
  erased j f hj := by
    rcases eq_or_ne j i with rfl | hne
    · exact herase f (by simpa using hj)
    · exact h.erased j f (by simpa [update_of_ne hne] using hj)
  flagged := h.flagged
  down := h.down
  handle := h.handle

/-- A callback comes into the table; its client brings it to the broker. -/
theorem Kept.add (h : Kept s) {i : ι} {e : CallbackEntry κ} (hi : s.client i = .registering e) :
    Kept { s with table := s.table.add e, client := update s.client i (.checking e) } where
  covered hl f e' he' := by
    have hold : e' ∈ s.table.callbacks f → Covered
        { s with table := s.table.add e, client := update s.client i (.checking e) } f e'.qos := by
      intro he'
      rcases h.covered hl f e' he' with hb | hc | hn | hr
      · exact .inl hb
      · exact .inr (.inl (exists_update hc fun ⟨_, hp, _⟩ => by simp [hi] at hp))
      · exact .inr (.inr (.inl hn))
      · exact .inr (.inr (.inr (exists_update hr fun hp => by simp [hi, Client.Removes] at hp)))
    dsimp only at he'
    rw [Table.callbacks_add] at he'
    split at he'
    next hf =>
      rcases List.mem_append.1 he' with he' | he'
      · exact hold he'
      · rw [List.mem_singleton.1 he']
        exact .inr (.inl ⟨i, e, .inl (update_self _ _ _), hf, Int.le_refl _⟩)
    next => exact hold he'
  wanted f := by
    rcases h.wanted f with hc | hr | hg
    · refine .inl ?_
      dsimp only
      rw [Table.callbacks_add]
      split
      · simp
      · exact hc
    · exact .inr (.inl (exists_update hr fun hp => by simp [hi, Client.Removes] at hp))
    · exact .inr (.inr hg)
  erased j f hj := h.erased j f (erasing_of_update (by nofun) hj)
  flagged := h.flagged
  down := h.down
  handle := h.handle

/-- A filter loses callbacks, and where it loses the last one it is being removed. -/
theorem Kept.shrink (h : Kept s) {i : ι} {p : Client κ} {filter : String}
    {es : List (CallbackEntry κ)} (hes : ∀ e ∈ es, e ∈ s.table.callbacks filter)
    (hi : ∀ f, ¬ (s.client i).Removes f ∧ ∀ q, ¬ (s.client i).Brings f q)
    (hp : es = [] → p = .removing filter) (hne : ∀ f, p ≠ .erasing f) (cb : Option ι) :
    Kept { s with
      table := s.table.insert filter es, client := update s.client i p, cbMutex := cb } where
  covered hl f e he := by
    have he' : e ∈ s.table.callbacks f := by
      dsimp only at he
      rw [Table.callbacks_insert] at he
      split at he
      next hf => exact hf ▸ hes e he
      next => exact he
    rcases h.covered hl f e he' with hb | hc | hn | hr
    · exact .inl hb
    · exact .inr (.inl (exists_update hc fun hp => absurd hp ((hi f).2 _)))
    · exact .inr (.inr (.inl hn))
    · exact .inr (.inr (.inr (exists_update hr fun hp => absurd hp (hi f).1)))
  wanted f := by
    dsimp only
    rw [Table.callbacks_insert]
    rcases h.wanted f with hc | hr | hg
    · split
      next hf =>
        subst hf
        rcases es with _ | ⟨e, es⟩
        · exact .inr (.inl ⟨i, by simp [Client.Removes, hp rfl]⟩)
        · exact .inl (List.cons_ne_nil _ _)
      next => exact .inl hc
    · exact .inr (.inl (exists_update hr fun hp => absurd hp (hi f).1))
    · exact .inr (.inr hg)
  erased j f hj := h.erased j f (erasing_of_update hne hj)
  flagged := h.flagged
  down := h.down
  handle := h.handle

/-- A filter goes out of the table for good. -/
theorem Kept.erase (h : Kept s) {i : ι} {filter : String} (hi : s.client i = .erasing filter) :
    Kept { s with
      table := s.table.erase filter, client := update s.client i .idle, cbMutex := none } where
  covered hl f e he := by
    dsimp only at he
    rw [Table.callbacks_erase] at he
    split at he
    · cases he
    next hf =>
      rcases h.covered hl f e he with hb | hc | hn | hr
      · exact .inl hb
      · exact .inr (.inl (exists_update hc fun ⟨_, hp, _⟩ => by simp [hi] at hp))
      · exact .inr (.inr (.inl hn))
      · exact .inr (.inr (.inr (exists_update hr fun hp => by
          simp [hi, Client.Removes] at hp
          exact absurd hp hf)))
  wanted f := by
    dsimp only
    rw [Table.callbacks_erase]
    split
    next hf => exact .inr (.inr (hf ▸ h.erased i filter hi))
    next hf =>
      exact (h.wanted f).imp id (Or.imp (fun hr => exists_update hr fun hp => by
        simp [hi, Client.Removes] at hp
        exact absurd hp hf) id)
  erased j f hj := h.erased j f (erasing_of_update (by nofun) hj)
  flagged := h.flagged
  down := h.down
  handle := h.handle

/-- The table is emptied, with nothing of it at the broker. -/
theorem Kept.eraseAll (h : Kept s) {i : ι} (hgone : ∀ f, Gone s f) :
    Kept { s with table := ∅, client := update s.client i .idle } where
  covered _ f e he := by
    dsimp only at he
    rw [Table.callbacks_empty] at he
    cases he
  wanted f := .inr (.inr (hgone f))
  erased j f hj := h.erased j f (erasing_of_update (by nofun) hj)
  flagged := h.flagged
  down := h.down
  handle := h.handle

omit [DecidableEq ι] in
/-- The broker takes a subscription, the step after which the clients are at `c` and the network
thread is at `n`. -/
theorem Kept.subscribe (h : Kept s) {later : Int → Prop} {filter : String} {qos : Int}
    {c : ι → Client κ} {n : Network} (hl : s.link = true)
    (hwell : SubscribesWell s later true filter qos)
    (hother : ∀ f q, f ≠ filter → (∃ j, (s.client j).Brings f q) ∨ s.network.Brings f →
      (∃ j, (c j).Brings f q) ∨ n.Brings f)
    (hlater : ∀ q, later q → (∃ j, (c j).Brings filter q) ∨ n.Brings filter)
    (hremoves : ∀ f, (∃ j, (s.client j).Removes f) → ∃ j, (c j).Removes f)
    (herase : ∀ j f, c j = .erasing f → s.client j = .erasing f)
    (hn : s.network = .accepted → n = .accepted) (hdown : n = .down → s.network = .down) :
    Kept { s with broker := update s.broker filter (some qos), client := c, network := n } where
  covered _ f e he := by
    obtain ⟨-, -, -, hqos⟩ := hwell hl
    rcases eq_or_ne f filter with rfl | hf
    · rcases hqos e he with hq | hq
      · exact .inl ⟨qos, update_self _ _ _, hq⟩
      · exact .inr (Or.imp id .inl (hlater _ hq))
    · rcases h.covered hl f e he with ⟨q, hb, hq⟩ | hc | hn | hr
      · exact .inl ⟨q, by simpa [update_of_ne hf] using hb, hq⟩
      · exact .inr (Or.imp id .inl (hother f _ hf (.inl hc)))
      · exact .inr (Or.imp id .inl (hother f e.qos hf (.inr hn)))
      · exact .inr (.inr (.inr (hremoves f hr)))
  wanted f := by
    rcases eq_or_ne f filter with rfl | hf
    · exact .inl (hwell hl).2.1
    · refine (h.wanted f).imp id (Or.imp (hremoves f) fun hg => ?_)
      exact hg.imp (fun hb => by simpa [update_of_ne hf] using hb) id
  erased j f hj := by
    have hold := herase j f hj
    rcases eq_or_ne f filter with rfl | hf
    · exact absurd hold ((hwell hl).2.2.1 j)
    · exact (h.erased j f hold).imp (fun hb => by simpa [update_of_ne hf] using hb) id
  flagged hl hfl := hn (h.flagged hl hfl)
  down hd := h.down (hdown hd)
  handle := h.handle

/-- A filter that is being removed goes at the broker. -/
theorem Kept.unsubscribe (h : Kept s) {i : ι} {filter : String}
    (hi : s.client i = .unsubscribing filter) :
    Kept { s with
      broker := update s.broker filter none, client := update s.client i (.erasing filter) } where
  covered hl f e he := by
    rcases eq_or_ne f filter with rfl | hf
    · exact .inr (.inr (.inr ⟨i, by simp [Client.Removes]⟩))
    · rcases h.covered hl f e he with ⟨q, hb, hq⟩ | hc | hn | hr
      · exact .inl ⟨q, by simpa [update_of_ne hf] using hb, hq⟩
      · exact .inr (.inl (exists_update hc fun ⟨_, hp, _⟩ => by simp [hi] at hp))
      · exact .inr (.inr (.inl hn))
      · exact .inr (.inr (.inr (exists_update hr fun hp => by
          simp [hi, Client.Removes] at hp
          exact absurd hp.symm hf)))
  wanted f := by
    rcases eq_or_ne f filter with rfl | hf
    · exact .inr (.inr (.inl (update_self _ _ _)))
    · refine (h.wanted f).imp id (Or.imp (fun hr => exists_update hr fun hp => ?_) fun hg => ?_)
      · simp [hi, Client.Removes] at hp
        exact absurd hp.symm hf
      · exact hg.imp (fun hb => by simpa [update_of_ne hf] using hb) id
  erased j f hj := by
    rcases eq_or_ne f filter with rfl | hf
    · exact .inl (update_self _ _ _)
    · rcases eq_or_ne j i with rfl | hji
      · simp at hj
        exact absurd hj.symm hf
      · have hj := h.erased j f (by simpa [update_of_ne hji] using hj)
        exact hj.imp (fun hb => by simpa [update_of_ne hf] using hb) id
  flagged := h.flagged
  down := h.down
  handle := h.handle

/-- A client that neither brings a filter nor takes one away moves on. -/
theorem Kept.move (h : Kept s) {i : ι} {p : Client κ}
    (hfree : ∀ f, ¬ (s.client i).Removes f ∧ ∀ q, ¬ (s.client i).Brings f q)
    (hp : ∀ f, p ≠ .erasing f) (cb : Option ι) :
    Kept { s with client := update s.client i p, cbMutex := cb } :=
  h.client (fun _ f q hb => absurd hb ((hfree f).2 q)) (fun f hr => absurd hr (hfree f).1)
    (fun f hf => absurd hf (hp f)) cb

/-- The callback is in the table; its subscription is left to the network thread while the session
counts as down. -/
theorem check_kept (h : Kept s) {i : ι} {e : CallbackEntry κ} (hi : s.client i = .checking e) :
    Kept { s with
      client := update s.client i
        (if s.sessionConnected ∧ s.mosq then .subscribing e else .idle) } := by
  split
  next =>
    refine h.client (fun _ f q hb => .inl ?_) (by simp [hi, Client.Removes]) (by simp) s.cbMutex
    obtain ⟨e', he', hf, hq⟩ := hb
    rw [hi] at he'
    simp at he'
    exact ⟨e', .inr (by rw [he']), hf, hq⟩
  next hdown =>
    -- the session counts as down, so the network thread is going to read the table
    refine h.client (fun hl f q _ => .inr ?_) (by simp [hi, Client.Removes]) (by simp) s.cbMutex
    rw [h.flagged hl (by simpa [imp_iff_not_or] using hdown)]
    trivial

/-- `RegisterCallback` subscribes. -/
theorem subscribe_kept (h : Kept s) {i : ι} {e : CallbackEntry κ} {accepted : Bool}
    (hi : s.client i = .subscribing e) (hc : Careful s (.client i accepted)) :
    Kept { s.subscribe accepted e.filter e.qos with client := update s.client i .idle } := by
  rw [Careful, hi] at hc
  rw [System.subscribe]
  split
  next hl =>
    obtain ⟨rfl, hl⟩ := hl
    refine h.subscribe hl hc (fun f q hf hb => hb.imp (fun hb => exists_update hb ?_) id)
      (fun q hq => hq.imp (fun ⟨j, hj, hb⟩ => ⟨j, by rwa [update_of_ne hj]⟩) id)
      (fun f hr => exists_update hr (by simp [hi, Client.Removes]))
      (fun j f hj => erasing_of_update (by nofun) hj) id id
    rintro ⟨e', he', hf', -⟩
    rw [hi] at he'
    simp at he'
    exact absurd (he' ▸ hf') (Ne.symm hf)
  next hl =>
    refine h.client (fun hlink f q _ => ?_) (by simp [hi, Client.Removes]) (by simp) s.cbMutex
    exact absurd ⟨(hc hlink).1, hlink⟩ hl

/-- `UnregisterCallback` takes a callback out of the table. -/
theorem unregister_kept (h : Kept s) {i : ι} {handle : Nat} {accepted : Bool} {p : Client κ}
    (hi : s.client i = .unregistering handle)
    (hs : clientAct s i accepted (.unregistering handle) = some (s', p)) :
    Kept { s' with client := update s.client i p } := by
  have hfree : ∀ f, ¬ (s.client i).Removes f ∧ ∀ q, ¬ (s.client i).Brings f q := by
    simp [hi, Client.Removes, Client.Brings]
  rw [clientAct] at hs
  split at hs
  next => cases hs
  split at hs
  next =>
    cases hs
    exact h.move hfree (by nofun) s.cbMutex
  next filter hrem =>
    cases hs
    exact h.shrink (by simp) hfree (fun _ => rfl) (by simp) (some i)
  next filter es hne hrem =>
    cases hs
    have hes := (Table.remove_some hrem).2
    refine h.shrink (fun e he => ?_) hfree (fun hnil => absurd hnil ?_) (by simp) s.cbMutex
    · rw [hes] at he
      exact List.mem_of_mem_eraseP he
    · rintro rfl
      exact hne rfl

/-- A filter that is on its way out is unsubscribed, unless the session counts as down. -/
theorem remove_kept (h : Kept s) {i : ι} {filter : String} {accepted : Bool}
    (hi : s.client i = .removing filter) (hc : Careful s (.client i accepted)) :
    Kept { s with
      client := update s.client i
        (if s.sessionConnected ∧ s.mosq then .unsubscribing filter else .erasing filter) } := by
  rw [Careful, hi] at hc
  split
  next =>
    exact h.client (by simp [hi, Client.Brings]) (by simp [hi, Client.Removes]) (by simp)
      s.cbMutex
  next hdown =>
    refine h.client (by simp [hi, Client.Brings]) (by simp [hi, Client.Removes]) ?_ s.cbMutex
    intro f hf
    cases hf
    exact hc (by simpa [imp_iff_not_or] using hdown)

theorem unsubscribe_kept (h : Kept s) {i : ι} {filter : String} {accepted : Bool}
    (hi : s.client i = .unsubscribing filter) (hc : Careful s (.client i accepted)) :
    Kept { s.unsubscribe accepted filter with
      client := update s.client i (.erasing filter) } := by
  rw [Careful, hi] at hc
  rw [System.unsubscribe]
  split
  next => exact h.unsubscribe hi
  next hno =>
    refine h.client (by simp [hi, Client.Brings]) (by simp [hi, Client.Removes]) ?_ s.cbMutex
    intro f hf
    cases hf
    exact hc.resolve_left hno

/-- **A careful step of a client keeps what is kept.** -/
theorem kept_clientAct (h : Kept s) {i : ι} {accepted : Bool} {p : Client κ}
    (hc : Careful s (.client i accepted))
    (hs : clientAct s i accepted (s.client i) = some (s', p)) :
    Kept { s' with client := update s.client i p } := by
  cases hi : s.client i with
  | idle =>
    rw [hi] at hs
    cases hs
  | registering e =>
    rw [hi, clientAct] at hs
    split at hs
    next => cases hs
    next =>
      cases hs
      exact h.add hi
  | checking e =>
    rw [hi] at hs
    cases hs
    exact check_kept h hi
  | subscribing e =>
    rw [hi, clientAct] at hs
    split at hs
    next =>
      cases hs
      exact subscribe_kept h hi hc
    next => cases hs
  | unregistering handle =>
    rw [hi] at hs
    exact unregister_kept h hi hs
  | clearing filter =>
    have hfree : ∀ f, ¬ (s.client i).Removes f ∧ ∀ q, ¬ (s.client i).Brings f q := by
      simp [hi, Client.Removes, Client.Brings]
    rw [hi, clientAct] at hs
    split at hs
    next => cases hs
    split at hs
    all_goals
      cases hs
      exact h.move hfree (by nofun) _
  | removing filter =>
    rw [hi] at hs
    cases hs
    exact remove_kept h hi hc
  | unsubscribing filter =>
    rw [hi, clientAct] at hs
    split at hs
    next =>
      cases hs
      exact unsubscribe_kept h hi hc
    next => cases hs
  | erasing filter =>
    rw [hi] at hs
    cases hs
    exact h.erase hi
  | clearingAll =>
    rw [hi, clientAct] at hs
    split at hs
    next => cases hs
    next =>
      cases hs
      rw [Careful, hi] at hc
      exact h.eraseAll hc

omit [DecidableEq ι] in
/-- A step of the network thread that subscribes nothing. -/
theorem Kept.network (h : Kept s) {n : Network}
    (hbrings : s.link = true → ∀ f q, (∃ e ∈ s.table.callbacks f, e.qos = q) →
      s.network.Brings f → n.Brings f ∨ ∃ b, s.broker f = some b ∧ q ≤ b)
    (hdown : n = .down → s.link = false) {connected : Bool}
    (hflag : s.link = true → connected = false ∨ s.mosq = false → n = .accepted) :
    Kept { s with sessionConnected := connected, network := n } where
  covered hl f e he := by
    rcases h.covered hl f e he with hb | hc | hn | hr
    · exact .inl hb
    · exact .inr (.inl hc)
    · rcases hbrings hl f e.qos ⟨e, he, rfl⟩ hn with hn | hb
      · exact .inr (.inr (.inl hn))
      · exact .inl hb
    · exact .inr (.inr (.inr hr))
  wanted := h.wanted
  erased := h.erased
  flagged := hflag
  down := hdown
  handle := h.handle

omit [DecidableEq ι] in
/-- **A careful step of the network thread keeps what is kept.** -/
theorem kept_networkAct [DecidableEq ι] (h : Kept s) {accepted : Bool} {n : Network}
    (hc : Careful s (.network accepted)) (hs : networkAct s accepted s.network = some (s', n)) :
    Kept { s' with network := n } := by
  have hflagged := h.flagged
  cases hn : s.network with
  | down | up =>
    rw [hn] at hs
    cases hs
  | accepted =>
    rw [hn] at hs
    cases hs
    refine h.network (fun _ f _ _ _ => .inl (by rw [Network.Brings]; trivial)) (by simp) ?_
    intro hl hfl
    simp [h.handle hl] at hfl
  | flagged =>
    rw [hn, networkAct] at hs
    split at hs
    · cases hs
    · cases hs
      refine h.network (fun _ f q ⟨e, he, _⟩ _ => .inl ?_) (by simp) fun hl hfl => ?_
      · exact Table.mem_subscriptions (List.ne_nil_of_mem he)
      · rw [hn] at hflagged
        cases hflagged hl hfl
  | listed subs =>
    rw [hn] at hs
    cases hs
    refine h.network (fun _ f q _ hb => .inl (by rwa [hn] at hb)) (by simp) fun hl hfl => ?_
    rw [hn] at hflagged
    cases hflagged hl hfl
  | resubscribing subs =>
    cases subs with
    | nil =>
      rw [hn] at hs
      cases hs
      refine h.network (fun _ f q _ hb => ?_) (by simp) fun hl hfl => ?_
      · rw [hn] at hb
        obtain ⟨_, hb⟩ := hb
        cases hb
      · rw [hn] at hflagged
        cases hflagged hl hfl
    | cons sub subs =>
      obtain ⟨filter, qos⟩ := sub
      rw [Careful, hn] at hc
      rw [hn] at hs
      cases hs
      rw [System.subscribe]
      split
      next hl =>
        obtain ⟨rfl, hl⟩ := hl
        refine h.subscribe hl hc (fun f q hf hb => hb.imp id fun hb => ?_) (fun q hq => hq)
          (fun f hr => hr) (fun j f hj => hj) (by simp [hn]) (by simp)
        rw [hn] at hb
        obtain ⟨q', hq'⟩ := hb
        rcases List.mem_cons.1 hq' with hq' | hq'
        · exact absurd (congrArg Prod.fst hq') hf
        · exact ⟨q', hq'⟩
      next hno =>
        have hlink : ¬ s.link = true := fun hl => hno ⟨(hc hl).1, hl⟩
        exact h.network (fun hl => absurd hl hlink) (by simp) fun hl => absurd hl hlink

omit [DecidableEq ι] in
/-- The connection is made. -/
theorem Kept.connect (h : Kept s) (hm : s.mosq = true) :
    Kept { s with
      link := true
      broker := if s.cleanSession then fun _ => none else s.broker
      network := .accepted } where
  covered _ _ _ _ := .inr (.inr (.inl trivial))
  wanted f := by
    refine (h.wanted f).imp id (Or.imp id fun hg => .inl ?_)
    dsimp only
    split
    next => rfl
    next hclean =>
      rcases hg with hb | ⟨hclean', -⟩
      · exact hb
      · exact absurd hclean' hclean
  erased i f hi := by
    refine .inl ?_
    dsimp only
    split
    next => rfl
    next hclean =>
      rcases h.erased i f hi with hb | ⟨hclean', -⟩
      · exact hb
      · exact absurd hclean' hclean
  flagged _ _ := rfl
  down := by simp
  handle _ := hm

omit [DecidableEq ι] in
/-- The connection drops. -/
theorem Kept.drop (h : Kept s) : Kept { s with link := false } where
  covered hl := by cases hl
  wanted f := (h.wanted f).imp id (Or.imp id (Or.imp id fun hg => ⟨hg.1, rfl⟩))
  erased i f hi := (h.erased i f hi).imp id fun hg => ⟨hg.1, rfl⟩
  flagged hl := by cases hl
  down _ := rfl
  handle hl := by cases hl

theorem Kept.call (h : Kept s) {i : ι} {p : Client κ} (hp : ∀ f, p ≠ .erasing f)
    (hs : call s i p = some s') : Kept s' := by
  rw [Subscriptions.call] at hs
  split at hs
  next hi =>
    cases hs
    exact h.client (by simp [hi, Client.Brings]) (by simp [hi, Client.Removes])
      (fun f hf => absurd hf (hp f)) s.cbMutex
  next => cases hs

/-- **A careful step keeps what is kept.** -/
theorem kept_step {l : Label ι κ} (h : Kept s) (hc : Careful s l) (hs : step s l = some s') :
    Kept s' := by
  cases l with
  | register i filter callback qos =>
    cases callback with
    | none =>
      cases hs
      exact h
    | some callback =>
      have h' : Kept { s with nextHandle := s.nextHandle + 1 } :=
        ⟨h.covered, h.wanted, h.erased, h.flagged, h.down, h.handle⟩
      exact h'.call (by simp) hs
  | unregister i handle | clear i filter | clearAll i => exact h.call (by simp) hs
  | client i accepted =>
    obtain ⟨⟨t, p⟩, hact, rfl⟩ := Option.map_eq_some_iff.1 hs
    exact kept_clientAct h hc hact
  | network accepted =>
    obtain ⟨⟨t, n⟩, hact, rfl⟩ := Option.map_eq_some_iff.1 hs
    exact kept_networkAct h hc hact
  | connect =>
    rw [step] at hs
    split at hs
    · split at hs
      next hm =>
        cases hs
        exact h.connect hm
      next => cases hs
    · cases hs
  | refused =>
    rw [step] at hs
    split at hs
    next hn =>
      cases hs
      have hl := h.down hn
      exact h.network (fun _ _ _ _ hb => .inl hb) h.down fun hl' => by simp [hl] at hl'
    next => cases hs
  | drop =>
    cases hs
    exact h.drop
  | disconnect =>
    rw [step] at hs
    split at hs
    · split at hs
      next => cases hs
      next hl =>
        cases hs
        have hl : s.link = false := by simpa using hl
        exact h.network (fun hl' => by simp [hl] at hl') (fun _ => hl)
          fun hl' => by simp [hl] at hl'
    · cases hs

end

omit [DecidableEq ι] in
theorem kept_initial (cleanSession mosq : Bool) :
    Kept ({ cleanSession, mosq } : System ι κ) where
  covered hl := by cases hl
  wanted _ := .inr (.inr (.inl rfl))
  erased _ _ hi := by cases hi
  flagged hl := by cases hl
  down _ := rfl
  handle hl := by cases hl

/-- **The broker and the table.** In a run whose steps are all careful, whenever the session is
connected and nothing is in progress, the filters at the broker are those with a callback, and the
QoS of each is enough for each of its callbacks. -/
theorem broker_agrees {cleanSession mosq : Bool} {ls : List (Label ι κ)} {s : System ι κ}
    (h : run step { cleanSession, mosq } ls = some s)
    (hcareful : Along step Careful { cleanSession, mosq } ls) (hs : Settled s) : Agrees s := by
  have hkept := run_along (C := Careful) (P := Kept)
    (fun _ _ _ hc hk hstep => kept_step hk hc hstep) (kept_initial cleanSession mosq) hcareful h
  obtain ⟨hclient, hnetwork, -, hl⟩ := hs
  have hcovered : ∀ f, ∀ e ∈ s.table.callbacks f, ∃ q, s.broker f = some q ∧ e.qos ≤ q := by
    intro f e he
    rcases hkept.covered hl f e he with hb | ⟨i, _, hi, -⟩ | hn | ⟨i, hi⟩
    · exact hb
    · simp [hclient i] at hi
    · rw [hnetwork] at hn
      cases hn
    · simp [hclient i, Client.Removes] at hi
  intro f
  refine ⟨⟨fun hb => ?_, fun hne => ?_⟩, fun q hq e he => ?_⟩
  · rcases hkept.wanted f with hc | ⟨i, hi⟩ | hg | ⟨-, hl'⟩
    · exact hc
    · simp [hclient i, Client.Removes] at hi
    · simp [hg] at hb
    · simp [hl] at hl'
  · obtain ⟨e, he⟩ := List.exists_mem_of_ne_nil _ hne
    obtain ⟨q, hq, -⟩ := hcovered f e he
    simp [hq]
  · obtain ⟨q', hq', hle⟩ := hcovered f e he
    rw [hq] at hq'
    cases hq'
    exact hle

/-- The session is connected, and a client registers a callback. -/
def connectAndRegister : List (Label Unit Unit) :=
  [.connect, .network true, .network true, .network true, .network true,
    .register () "status" (some ()) 1, .client () true, .client () true, .client () true]

theorem broker_agrees_connectAndRegister : ∃ s : System Unit Unit,
    run step { cleanSession := true, mosq := true } connectAndRegister = some s ∧
      ((s.broker "status").isSome ↔ s.table.callbacks "status" ≠ []) := by
  have hcareful : Along step Careful { cleanSession := true, mosq := true } connectAndRegister := by
    refine ⟨trivial, fun s h => ?_⟩
    cases h
    refine ⟨trivial, fun s h => ?_⟩
    cases h
    refine ⟨trivial, fun s h => ?_⟩
    cases h
    refine ⟨trivial, fun s h => ?_⟩
    cases h
    refine ⟨trivial, fun s h => ?_⟩
    cases h
    refine ⟨trivial, fun s h => ?_⟩
    cases h
    refine ⟨trivial, fun s h => ?_⟩
    cases h
    refine ⟨trivial, fun s h => ?_⟩
    cases h
    refine ⟨fun _ => ⟨rfl, by simp [Table.callbacks_add], by simp, fun e he => .inl ?_⟩,
      fun _ _ => trivial⟩
    simp [Table.callbacks_add] at he
    simp [he]
  refine ⟨_, rfl, ?_⟩
  exact (broker_agrees (s := _) rfl hcareful ⟨fun _ => rfl, rfl, rfl, rfl⟩ "status").1

/-- **Clearing the table leaves the broker behind.** The filter of a callback is still subscribed
after `ClearAllCallbacks`. -/
theorem clearAll_leaves_broker :
    ¬ ∀ (ls : List (Label Unit Unit)) (s : System Unit Unit),
      run step { cleanSession := true, mosq := true } ls = some s → Settled s → Agrees s := by
  intro h
  have hagrees := h (connectAndRegister ++ [.clearAll (), .client () true]) _ rfl
    ⟨fun _ => rfl, rfl, rfl, rfl⟩ "status"
  exact hagrees.1.1 rfl (Table.callbacks_empty _)

end Subscriptions

end FastMqtt
