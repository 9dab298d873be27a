import SubscriptionGateway.Proofs.Engine.Play
import Mathlib.Logic.Function.Basic

/-!
The books of an engine: of every subscription where it was registered and its phase, of every
binding its members, of every connection what it owns, and the three lists that say what counts.
Inboxes, queues, permits and counters are not in them. What an operation of the engine does to the
books is said once here, and nothing else about it is used where the books are reasoned about.
-/
namespace SubscriptionGateway

open Broker Function

@[ext] structure Books where
  connection : SubscriptionId → Option ConnectionId
  key : SubscriptionId → Option SourceKey
  place : SubscriptionId → Option BindingId
  phase : SubscriptionId → Option Phase
  source : BindingId → Option SourceKey
  stage : BindingId → Option BindingPhase
  locked : BindingId → Bool
  members : BindingId → List SubscriptionId
  closed : ConnectionId → Bool
  owned : ConnectionId → List SubscriptionId
  listed : List (SourceKey × BindingId)
  registered : List SubscriptionId
  managed : List ConnectionId
  /-- How many connections there have been. -/
  made : Nat

def Engine.books (e : Engine) : Books where
  connection s := e.subscribers[s]?.map (·.connection)
  key s := e.subscribers[s]?.map (·.compiled.sourceKey)
  place s := e.subscribers[s]?.bind (·.binding?)
  phase s := e.subscribers[s]?.map (·.life.phase)
  source b := e.bindings[b]?.map (·.key)
  stage b := e.bindings[b]?.map (·.phase)
  locked := e.isLocked
  members b := (e.bindings[b]?.map (·.members)).getD []
  closed := e.isClosed
  owned c := (e.owned c).map (·.1)
  listed := e.listed
  registered := e.registered
  managed := e.managed
  made := e.connections.length

namespace Books

variable (k : Books)

def close (c : ConnectionId) : Books := { k with closed := update k.closed c true }

def unlist (b : BindingId) : Books := { k with listed := k.listed.filter (·.2 != b) }

def shut (b : BindingId) : Books :=
  { k.unlist b with
    stage := update k.stage b (some .closed), locked := update k.locked b false }

def dropMember (b : BindingId) (s : SubscriptionId) : Books :=
  { k with members := update k.members b ((k.members b).filter (· != s)) }

def shutIfIdle (b : BindingId) : Books :=
  if k.members b = [] ∧ k.stage b = some .opened then k.shut b else k

def leave (b : BindingId) (s : SubscriptionId) : Books := (k.dropMember b s).shutIfIdle b

/-- Out of the registered ones and over for good. -/
def strike (s : SubscriptionId) : Books :=
  { k with
    registered := k.registered.filter (· != s), phase := update k.phase s (some .cancelled) }

def disown (c : ConnectionId) (s : SubscriptionId) : Books :=
  { k with owned := update k.owned c ((k.owned c).filter (· != s)) }

/-- Member, active and registered, and not owned yet. -/
def enroll (b : BindingId) (s : SubscriptionId) : Books :=
  { k with
    members := update k.members b (k.members b ++ [s])
    phase := update k.phase s (some .active)
    place := update k.place s (some b)
    registered := k.registered ++ [s] }

def own (c : ConnectionId) (s : SubscriptionId) : Books :=
  { k with owned := update k.owned c (k.owned c ++ [s]) }

def addDesk (b : BindingId) (key : SourceKey) : Books :=
  { k with
    source := update k.source b (some key), stage := update k.stage b (some .opening)
    listed := k.listed ++ [(key, b)] }

def addEntry (s : SubscriptionId) (c : ConnectionId) (key : SourceKey) (phase : Phase) : Books :=
  { k with
    connection := update k.connection s (some c), key := update k.key s (some key)
    phase := update k.phase s (some phase) }

def addHolder (c : ConnectionId) : Books :=
  { k with
    closed := update k.closed c false, managed := k.managed ++ [c], made := k.made + 1 }

def empty (b : BindingId) : Books := { k.shut b with members := update k.members b [] }

theorem leave_phase (b : BindingId) (s : SubscriptionId) : (k.leave b s).phase = k.phase := by
  simp only [leave, shutIfIdle]
  split <;> rfl

theorem leave_rest (b : BindingId) (s : SubscriptionId) :
    (k.leave b s).connection = k.connection ∧ (k.leave b s).managed = k.managed ∧
      (k.leave b s).made = k.made := by
  simp only [leave, shutIfIdle]
  split <;> exact ⟨rfl, rfl, rfl⟩

end Books

namespace Engine

variable (e : Engine)

/-! ## Operations on one record -/

theorem view_modify {α β : Type} (view : Option α → β) {l : List α} {i : Nat} {f : α → α} {v : β}
    (written : view (l[i]?.map f) = v) :
    (fun j : Nat => view (l.modify i f)[j]?) = update (fun j : Nat => view l[j]?) i v := by
  funext j
  by_cases same : j = i
  · subst same
    simpa using written
  · simp [same, Ne.symm same]

theorem view_modify_same {α β : Type} (view : Option α → β) {l : List α} {i : Nat}
    {f : α → α} (kept : ∀ x, view (some (f x)) = view (some x)) :
    (fun j : Nat => view (l.modify i f)[j]?) = fun j : Nat => view l[j]? := by
  have same : view (l[i]?.map f) = view l[i]? := by
    cases l[i]? with
    | none => rfl
    | some x => exact kept x
  rw [view_modify view same]
  exact update_eq_self i (fun j : Nat => view l[j]?)

theorem view_append {α β : Type} (view : Option α → β) {l : List α} (x : α) :
    (fun j : Nat => view (l ++ [x])[j]?) = update
    (fun j : Nat => view l[j]?) l.length (view (some x)) := by
  funext j
  by_cases last : j = l.length
  · subst last
    simp
  · have same : (l ++ [x])[j]? = l[j]? := by
      rw [List.getElem?_append]
      split
      · rfl
      · rw [List.getElem?_eq_none (by simp; omega), List.getElem?_eq_none (by omega)]
    simp [last, same]

theorem view_append_same {α β : Type} (view : Option α → β) {l : List α} {x : α}
    (nothing : view (some x) = view none) :
    (fun j : Nat => view (l ++ [x])[j]?) = fun j : Nat => view l[j]? := by
  have last : view (some x) = view l[l.length]? := by simp [nothing]
  rw [view_append, last]
  exact update_eq_self l.length (fun j : Nat => view l[j]?)

/-! ### One subscription -/

def connectionOf (x? : Option Subscriber) : Option ConnectionId := x?.map (·.connection)
def keyOf (x? : Option Subscriber) : Option SourceKey := x?.map (·.compiled.sourceKey)
def placeOf (x? : Option Subscriber) : Option BindingId := x?.bind (·.binding?)
def phaseOf (x? : Option Subscriber) : Option Phase := x?.map (·.life.phase)

theorem books_updateSubscriber {s : SubscriptionId} {f : Subscriber → Subscriber}
    (kept : ∀ x, (f x).connection = x.connection ∧ (f x).compiled = x.compiled ∧
      (f x).binding? = x.binding? ∧ (f x).life = x.life) :
    (e.updateSubscriber s f).books = e.books :=
  Books.ext
    (view_modify_same connectionOf fun x => by simp [connectionOf, kept])
    (view_modify_same keyOf fun x => by simp [keyOf, kept])
    (view_modify_same placeOf fun x => by simp [placeOf, kept])
    (view_modify_same phaseOf fun x => by simp [phaseOf, kept])
    rfl rfl rfl rfl rfl rfl rfl rfl rfl rfl

theorem books_setLife {s : SubscriptionId} {x : Subscriber} (found : e.subscribers[s]? = some x)
    (life : Lifecycle) :
    (e.updateSubscriber s fun x => { x with life := life }).books =
      { e.books with phase := update e.books.phase s (some life.phase) } :=
  Books.ext
    (view_modify_same connectionOf fun _ => rfl)
    (view_modify_same keyOf fun _ => rfl)
    (view_modify_same placeOf fun _ => rfl)
    (view_modify phaseOf (by simp [found, phaseOf]))
    rfl rfl rfl rfl rfl rfl rfl rfl rfl rfl

theorem books_setPlace {s : SubscriptionId} {x : Subscriber} (found : e.subscribers[s]? = some x)
    (life : Lifecycle) (b : BindingId) :
    (e.updateSubscriber s fun x => { x with life := life, binding? := some b }).books =
      { e.books with
        phase := update e.books.phase s (some life.phase)
        place := update e.books.place s (some b) } :=
  Books.ext
    (view_modify_same connectionOf fun _ => rfl)
    (view_modify_same keyOf fun _ => rfl)
    (view_modify placeOf (by simp [found, placeOf]))
    (view_modify phaseOf (by simp [found, phaseOf]))
    rfl rfl rfl rfl rfl rfl rfl rfl rfl rfl

theorem subscriber_of_phase {s : SubscriptionId} {p : Phase} (known : e.books.phase s = some p) :
    ∃ x, e.subscribers[s]? = some x ∧ x.life.phase = p := by
  simpa [books] using known

theorem books_endLife {s : SubscriptionId} {x : Subscriber} {f : Lifecycle → Bool × Lifecycle}
    (found : e.subscribers[s]? = some x) (ends : ∀ l, (f l).2.phase = .cancelled) :
    (e.endLife s f).books = { e.books with phase := update e.books.phase s (some .cancelled) } := by
  simp only [endLife, found]
  rw [← ends x.life, ← books_setLife e found]
  split <;> rfl

theorem books_strike {s : SubscriptionId} {x : Subscriber} {f : Lifecycle → Bool × Lifecycle}
    (found : e.subscribers[s]? = some x) (ends : ∀ l, (f l).2.phase = .cancelled) :
    ((e.deregister s).endLife s f).books = e.books.strike s := by
  rw [books_endLife (e.deregister s) found ends]
  rfl

/-! ### One binding -/

def sourceOf (y? : Option Binding) : Option SourceKey := y?.map (·.key)
def stageOf (y? : Option Binding) : Option BindingPhase := y?.map (·.phase)
def lockedOf (y? : Option Binding) : Bool :=
  match y? with
  | some y => y.locked
  | none => false
def membersOf (y? : Option Binding) : List SubscriptionId := (y?.map (·.members)).getD []

theorem books_cancelBinding (b : BindingId) : (e.cancelBinding b).books = e.books :=
  Books.ext rfl rfl rfl rfl
    (view_modify_same sourceOf fun _ => rfl)
    (view_modify_same stageOf fun _ => rfl)
    (view_modify_same lockedOf fun _ => rfl)
    (view_modify_same membersOf fun _ => rfl)
    rfl rfl rfl rfl rfl rfl

theorem books_lockBinding {b : BindingId} {y : Binding} (found : e.bindings[b]? = some y)
    (held : Bool) :
    (e.updateBinding b fun y => { y with locked := held }).books =
      { e.books with locked := update e.books.locked b held } :=
  Books.ext rfl rfl rfl rfl
    (view_modify_same sourceOf fun _ => rfl)
    (view_modify_same stageOf fun _ => rfl)
    (view_modify lockedOf (by simp [found, lockedOf]))
    (view_modify_same membersOf fun _ => rfl)
    rfl rfl rfl rfl rfl rfl

theorem books_setStage {b : BindingId} {y : Binding} (found : e.bindings[b]? = some y)
    (stage : BindingPhase) :
    (e.updateBinding b fun y => { y with phase := stage, locked := false }).books =
      { e.books with
        stage := update e.books.stage b (some stage), locked := update e.books.locked b false } :=
  Books.ext rfl rfl rfl rfl
    (view_modify_same sourceOf fun _ => rfl)
    (view_modify stageOf (by simp [found, stageOf]))
    (view_modify lockedOf (by simp [found, lockedOf]))
    (view_modify_same membersOf fun _ => rfl)
    rfl rfl rfl rfl rfl rfl

theorem books_setMembers {b : BindingId} {f : List SubscriptionId → List SubscriptionId}
    (found : (∃ y, e.bindings[b]? = some y) ∨ f [] = []) :
    (e.updateBinding b fun y => { y with members := f y.members }).books =
      { e.books with members := update e.books.members b (f (e.books.members b)) } := by
  refine Books.ext rfl rfl rfl rfl
    (view_modify_same sourceOf fun _ => rfl)
    (view_modify_same stageOf fun _ => rfl)
    (view_modify_same lockedOf fun _ => rfl)
    (view_modify membersOf ?_)
    rfl rfl rfl rfl rfl rfl
  simp only [membersOf, books]
  cases read : e.bindings[b]? with
  | some y => rfl
  | none => simpa [read] using found

/-! ### One connection -/

def closedOf (z? : Option Connection) : Bool :=
  match z? with
  | some z => z.closed
  | none => true
def ownedOf (z? : Option Connection) : List SubscriptionId :=
  let owned : List (SubscriptionId × String) := match z? with
    | some z => z.owned
    | none => []
  owned.map (·.1)

theorem books_updateConnection {c : ConnectionId} {f : Connection → Connection}
    (kept : ∀ z, (f z).closed = z.closed ∧ (f z).owned = z.owned) :
    (e.updateConnection c f).books = e.books :=
  Books.ext rfl rfl rfl rfl rfl rfl rfl rfl
    (view_modify_same closedOf fun z => by simp [closedOf, kept])
    (view_modify_same ownedOf fun z => by simp [ownedOf, kept])
    rfl rfl rfl (List.length_modify ..)

theorem books_closeConnection (c : ConnectionId) :
    (e.closeConnection c).2.books = e.books.close c := by
  refine Books.ext rfl rfl rfl rfl rfl rfl rfl rfl
    (view_modify closedOf ?_)
    (view_modify_same ownedOf fun _ => rfl)
    rfl rfl rfl (List.length_modify ..)
  cases e.connections[c]? <;> rfl

theorem books_detach (c : ConnectionId) (s : SubscriptionId) :
    (e.detach c s).books = e.books.disown c s := by
  refine Books.ext rfl rfl rfl rfl rfl rfl rfl rfl
    (view_modify_same closedOf fun _ => rfl)
    (view_modify ownedOf ?_)
    rfl rfl rfl (List.length_modify ..)
  simp only [books, owned, ownedOf]
  cases e.connections[c]? with
  | none => rfl
  | some z => simp [List.filter_map, Function.comp_def]

theorem books_setOwned {c : ConnectionId} {z : Connection} (found : e.connections[c]? = some z)
    (s : SubscriptionId) (clientId : String) :
    (e.updateConnection c fun z => { z with owned := z.owned ++ [(s, clientId)] }).books =
      e.books.own c s := by
  refine Books.ext rfl rfl rfl rfl rfl rfl rfl rfl
    (view_modify_same closedOf fun _ => rfl)
    (view_modify ownedOf ?_)
    rfl rfl rfl (List.length_modify ..)
  simp [books, owned, ownedOf, found]

/-! ## Bindings in and out of use -/

theorem books_unlist (b : BindingId) : (e.unlist b).books = e.books.unlist b := rfl

theorem books_shut {b : BindingId} {y : Binding} (found : e.bindings[b]? = some y) :
    ((e.closeBinding b).unlist b).books = e.books.shut b := by
  rw [books_unlist, closeBinding, books_setStage e found]
  rfl

theorem books_dropMember (b : BindingId) (s : SubscriptionId) :
    (e.dropMember b s).books = e.books.dropMember b s := by
  have dropped := books_setMembers e (b := b) (f := (·.filter (· != s))) (.inr rfl)
  simp only [dropMember]
  split
  · rw [books_updateSubscriber _ fun _ => by simp]
    exact dropped
  · exact dropped

theorem books_closeIfIdle (b : BindingId) : (e.closeIfIdle b).books = e.books.shutIfIdle b := by
  simp only [closeIfIdle, Books.shutIfIdle]
  cases read : e.bindings[b]? with
  | none => simp [books, read]
  | some y =>
    have idle : (Binding.isIdle y = true) ↔
      e.books.members b = [] ∧ e.books.stage b = some .opened := by
      simp [Binding.isIdle, books, read]
    by_cases shuts : Binding.isIdle y = true
    · simp only [shuts, ↓reduceIte, if_pos (idle.mp shuts), books_unlist, books_cancelBinding]
      exact books_shut e read
    · simp only [shuts, Bool.false_eq_true, ↓reduceIte, if_neg (fun both => shuts (idle.mpr both))]

theorem books_leave (b : BindingId) (s : SubscriptionId) :
    (e.leave b s).books = e.books.leave b s := by
  rw [leave, books_closeIfIdle, books_dropMember, Books.leave]

theorem books_empty {b : BindingId} {y : Binding} (found : e.bindings[b]? = some y) :
    (e.empty b).1 = e.books.members b ∧ ((e.empty b).2.unlist b).books = e.books.empty b := by
  have emptied := books_setMembers e (b := b) (f := fun _ => []) (.inr rfl)
  have still : (e.updateBinding b fun y => { y with members := [] }).bindings[b]? =
      some { y with members := [] } := by simp [updateBinding, found]
  simp only [empty, found]
  refine ⟨by simp [books, found], ?_⟩
  rw [books_shut _ still, emptied]
  rfl

theorem bindingFor_listed {key : SourceKey} {b : BindingId} (found : e.bindingFor? key = some b) :
    e.bindingFor key = (b, e) ∧ (key, b) ∈ e.books.listed := by
  refine ⟨by simp [bindingFor, found], ?_⟩
  obtain ⟨⟨key', b'⟩, first, rfl⟩ := Option.map_eq_some_iff.mp found
  have same := List.find?_some first
  simp only [beq_iff_eq] at same
  exact same ▸ List.mem_of_find?_eq_some first

theorem bindingFor_fresh {key : SourceKey} (absent : e.bindingFor? key = none) :
    (e.bindingFor key).1 = e.bindings.length ∧
      (e.bindingFor key).2.books = e.books.addDesk e.bindings.length key ∧
      e.books.source e.bindings.length = none ∧ ∀ b, (key, b) ∉ e.books.listed := by
  simp only [bindingFor, absent, true_and]
  refine ⟨?_, by simp [books], ?_⟩
  · exact Books.ext rfl rfl rfl rfl
      (view_append sourceOf _)
      (view_append stageOf _)
      (view_append_same lockedOf rfl)
      (view_append_same membersOf rfl)
      rfl rfl rfl rfl rfl rfl
  · intro b listed
    have differ := List.find?_eq_none.mp (Option.map_eq_none_iff.mp absent) _ listed
    simp at differ

/-! ## Subscriptions and connections that are new -/

theorem books_addSubscriber (x : Subscriber) (fresh : x.binding? = none) :
    ({ e with subscribers := e.subscribers ++ [x] } : Engine).books =
      e.books.addEntry e.subscribers.length x.connection x.compiled.sourceKey x.life.phase :=
  Books.ext
    (view_append connectionOf x)
    (view_append keyOf x)
    (view_append_same placeOf (by simp [placeOf, fresh]))
    (view_append phaseOf x)
    rfl rfl rfl rfl rfl rfl rfl rfl rfl rfl

theorem prepare_ok {c : ConnectionId} {clientId : String} {r : Request} {s : SubscriptionId}
    {key : SourceKey} {e' : Engine} (prepared : e.prepare c clientId r = .ok (s, key, e')) :
    ∃ compiled : CompiledSubscription, s = e.subscribers.length ∧ key = compiled.sourceKey ∧
      e.isClosed c = false ∧ e.setup.catalog.compile r = .ok compiled ∧
      e' = { e with
        subscribers :=
          e.subscribers ++ [{ clientId := clientId, connection := c, compiled }] } := by
  simp only [prepare] at prepared
  split at prepared
  · simp at prepared
  split at prepared
  · simp at prepared
  rename_i isOpen
  split at prepared
  · simp at prepared
  rename_i compiled compiles
  split at prepared
  · simp at prepared
  injection prepared with prepared
  obtain ⟨rfl, rfl, rfl⟩ : _ ∧ _ ∧ _ := by simpa using prepared
  exact ⟨compiled, rfl, rfl, by simpa using isOpen, compiles, rfl⟩

theorem books_openConnection (t : Transport) :
    (e.openConnection t).2.books = e.books.addHolder e.connections.length :=
  Books.ext rfl rfl rfl rfl rfl rfl rfl rfl
    (view_append closedOf _)
    (view_append_same ownedOf rfl)
    rfl rfl rfl
    (by simp [books, Books.addHolder, openConnection, count])

/-! ## Registration -/

theorem books_enroll {b : BindingId} {s : SubscriptionId} {x : Subscriber} {y : Binding}
    (found : e.subscribers[s]? = some x) (here : e.bindings[b]? = some y)
    (pending : x.life.phase = .pending) : (e.enroll b s x).books = e.books.enroll b s := by
  have active : x.life.activate.2.phase = .active := by simp [Lifecycle.activate, pending]
  have joined := books_setMembers e (b := b) (f := (· ++ [s])) (.inl ⟨y, here⟩)
  have placed := books_setPlace (e.updateBinding b fun y => { y with members := y.members ++ [s] })
    (s := s) found x.life.activate.2 b
  rw [joined, active] at placed
  simp only [enroll]
  split
  · exact congrArg (fun k : Books => { k with registered := k.registered ++ [s] }) placed
  · exact congrArg (fun k : Books => { k with registered := k.registered ++ [s] }) placed

theorem register_open {b : BindingId} {s : SubscriptionId} {x : Subscriber} {y : Binding}
    (found : e.subscribers[s]? = some x) (here : e.bindings[b]? = some y)
    (pending : x.life.phase = .pending) (isOpen : e.books.closed x.connection = false) :
    (e.register b s).1 = .ok () ∧
      (e.register b s).2.books = (e.books.enroll b s).own x.connection s := by
  have stays : (e.enroll b s x).isClosed x.connection = false := by
    have read := books_enroll e found here pending
    exact (congrFun (congrArg Books.closed read) x.connection).trans isOpen
  obtain ⟨z, there⟩ : ∃ z, (e.enroll b s x).connections[x.connection]? = some z := by
    cases read : (e.enroll b s x).connections[x.connection]? with
    | some z => exact ⟨z, rfl⟩
    | none => simp [isClosed, read] at stays
  simp only [register, found, attach, stays, Bool.false_eq_true, ↓reduceIte, true_and]
  rw [books_setOwned _ there, books_enroll e found here pending]

theorem register_closed {b : BindingId} {s : SubscriptionId} {x : Subscriber} {y : Binding}
    (found : e.subscribers[s]? = some x) (here : e.bindings[b]? = some y)
    (pending : x.life.phase = .pending) (closed : e.books.closed x.connection = true) :
    (e.register b s).1 = .error Trouble.closedWhileSubscribing ∧
      (e.register b s).2.books = ((e.books.enroll b s).leave b s).strike s := by
  have stays : (e.enroll b s x).isClosed x.connection = true := by
    have read := books_enroll e found here pending
    exact (congrFun (congrArg Books.closed read) x.connection).trans closed
  have known : ((e.enroll b s x).leave b s).books.phase s = some .active := by
    rw [books_leave, books_enroll e found here pending, Books.leave_phase]
    simp [Books.enroll]
  obtain ⟨x', left, -⟩ := subscriber_of_phase _ known
  simp only [register, found, attach, stays, ↓reduceIte, true_and]
  rw [books_strike _ left fun _ => rfl, books_leave, books_enroll e found here pending]

end Engine

end SubscriptionGateway
