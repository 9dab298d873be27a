import SubscriptionGateway.Proofs.Broker.Retries
import SubscriptionGateway.Proofs.Engine.Clock
import SubscriptionGateway.Proofs.Engine.Handover
import SubscriptionGateway.Server.Construction

/-!
What a server is made with. Settings are checked against themselves, and the event fields in them
against the brokers that the server gets, be they given or connected. The catalogue keeps the last
of the fields with one name, so it holds none that has not been checked, and whoever subscribes to
one finds its provider: engines open, poll and close consumers, which takes no provider away.
-/
namespace SubscriptionGateway

open Broker

/-! ## Settings that pass -/

namespace Settings

structure Fit (s : Settings) : Prop where
  queue : 0 < s.engine.outboundQueueSize
  concurrency : 0 < s.engine.resolverConcurrency
  ids : (s.providers.map (·.id)).Nodup
  urls : ∀ p ∈ s.providers, p.backend = .memory ∨ p.urls ≠ []
  fields : ∀ f ∈ s.events, f.provider ∈ s.providers.map (·.id) ∧ f.topics ≠ []

theorem providerDefect?_none_iff (before : List String) (ps : List ProviderSettings) :
    providerDefect? before ps = none ↔ (ps.map (·.id)).Nodup ∧ (∀ p ∈ ps, p.id ∉ before) ∧
      ∀ p ∈ ps, p.backend = .memory ∨ p.urls ≠ [] := by
  induction ps generalizing before with
  | nil => simp [providerDefect?]
  | cons p rest ih =>
    simp only [providerDefect?]
    by_cases known : p.id ∈ before
    · simp [known]
    by_cases bare : p.backend ≠ .memory ∧ p.urls = []
    · have fails : ¬ (p.backend = .memory ∨ p.urls ≠ []) := fun either =>
        either.elim bare.1 fun some => some bare.2
      simp [known, bare]
    · have passes : p.backend = .memory ∨ p.urls ≠ [] := by
        by_cases memory : p.backend = .memory
        · exact .inl memory
        · exact .inr fun none => bare ⟨memory, none⟩
      rw [List.contains_eq_mem, decide_eq_false known, if_neg Bool.false_ne_true, if_neg bare, ih]
      constructor
      · rintro ⟨nodup, fresh, addressed⟩
        have apart : p.id ∉ rest.map (·.id) := fun member => by
          obtain ⟨q, listed, same⟩ := List.mem_map.mp member
          exact fresh q listed (same ▸ List.mem_cons_self ..)
        exact ⟨List.nodup_cons.mpr ⟨apart, nodup⟩,
          List.forall_mem_cons.mpr ⟨known, fun q listed old =>
            fresh q listed (List.mem_cons_of_mem _ old)⟩,
          List.forall_mem_cons.mpr ⟨passes, addressed⟩⟩
      · rintro ⟨nodup, fresh, addressed⟩
        obtain ⟨apart, nodup⟩ := List.nodup_cons.mp nodup
        refine ⟨nodup, fun q listed old => ?_, fun q listed =>
          addressed q (List.mem_cons_of_mem _ listed)⟩
        rcases List.mem_cons.mp old with same | old
        · exact apart (List.mem_map.mpr ⟨q, listed, same⟩)
        · exact fresh q (List.mem_cons_of_mem _ listed) old

theorem eventDefect?_none_iff (ids : List String) (fs : List EventField) :
    eventDefect? ids fs = none ↔ ∀ f ∈ fs, f.provider ∈ ids ∧ f.topics ≠ [] := by
  induction fs with
  | nil => simp [eventDefect?]
  | cons f rest ih =>
    simp only [eventDefect?, List.forall_mem_cons]
    by_cases known : f.provider ∈ ids
    · by_cases bare : f.topics = []
      · simp [known, bare]
      · simp [known, bare, ih]
    · simp [known]

theorem defect?_none_iff (s : Settings) : s.defect? = none ↔ s.Fit := by
  simp only [defect?]
  by_cases queue : s.engine.outboundQueueSize = 0
  · exact ⟨by simp [queue], fun fit => absurd queue (Nat.pos_iff_ne_zero.mp fit.queue)⟩
  by_cases concurrency : s.engine.resolverConcurrency = 0
  · exact ⟨by simp [queue, concurrency], fun fit =>
      absurd concurrency (Nat.pos_iff_ne_zero.mp fit.concurrency)⟩
  rw [if_neg queue, if_neg concurrency, Option.or_eq_none_iff, providerDefect?_none_iff,
    eventDefect?_none_iff]
  constructor
  · rintro ⟨⟨ids, -, urls⟩, fields⟩
    exact ⟨Nat.pos_of_ne_zero queue, Nat.pos_of_ne_zero concurrency, ids, urls, fields⟩
  · intro fit
    exact ⟨⟨fit.ids, fun _ _ => List.not_mem_nil, fit.urls⟩, fit.fields⟩

end Settings

/-! ## The catalogue -/

namespace Catalog

theorem mem_insertField {f g : EventField} {fs : List EventField} (member : g ∈ insertField f fs) :
    g = f ∨ g ∈ fs := by
  induction fs with
  | nil => exact .inl (List.mem_singleton.mp member)
  | cons head rest ih =>
    simp only [insertField] at member
    split at member
    · exact (List.mem_cons.mp member).imp_right (List.mem_cons_of_mem _)
    · rcases List.mem_cons.mp member with same | later
      · exact .inr (same ▸ List.mem_cons_self ..)
      · exact (ih later).imp_right (List.mem_cons_of_mem _)

theorem mem_inserted {f : EventField} {fs kept : List EventField}
    (member : f ∈ fs.foldl (fun acc g => insertField g acc) kept) : f ∈ fs ∨ f ∈ kept := by
  induction fs generalizing kept with
  | nil => exact .inr member
  | cons g rest ih =>
    rcases ih member with later | now
    · exact .inl (List.mem_cons_of_mem _ later)
    · exact (mem_insertField now).imp_left fun (same : f = g) => same ▸ List.mem_cons_self ..

theorem mem_ofList {f : EventField} {fs : List EventField} (member : f ∈ (ofList fs).fields) :
    f ∈ fs := (mem_inserted member).resolve_right List.not_mem_nil

variable {c : Catalog} {r : Request} {compiled : CompiledSubscription}

theorem compile_field (compiles : c.compile r = .ok compiled) :
    compiled.field ∈ c.fields ∧ compiled.sourceKey.provider = compiled.field.provider := by
  simp only [compile] at compiles
  split at compiles
  · cases compiles
  simp only [compileOperation] at compiles
  split at compiles
  · cases compiles
  rename_i f found
  split at compiles
  · cases compiles
  · cases compiles
    exact ⟨List.mem_of_find?_eq_some found, rfl⟩

theorem compile_fault (err : CompileError) (detail : String) : err.fault ≠ .notFound detail := by
  cases err with
  | operation cause => exact Fault.noConfusion
  | unknownField name => exact Fault.noConfusion
  | topic cause => cases cause <;> exact Fault.noConfusion

end Catalog

/-! ## Providers that stay -/

namespace Broker.Hub

def Has (h : Hub) (id : String) : Prop := (h.provider? id).isSome = true

theorem has_of_retry {h h' : Hub} {id : String}
    (same : (h'.provider? id).map (·.retry) = (h.provider? id).map (·.retry)) (has : h.Has id) :
    h'.Has id := by
  have both := congrArg Option.isSome same
  rw [Option.isSome_map, Option.isSome_map] at both
  exact both.trans has

theorem after_has {h : Hub} {id : String} (has : h.Has id) (ops : List Operation) :
    (h.after ops).Has id :=
  after_induction has fun h' op _ has => has_of_retry (h'.retry_perform op id) has

theorem find_has {h : Hub} {id : String} (has : h.Has id) : ∃ p, h.find id = .ok p := by
  obtain ⟨p, there⟩ := Option.isSome_iff_exists.mp has
  exact ⟨p, by simp only [find, there]⟩

end Broker.Hub

namespace Engine

variable {e e' : Engine} {a : Action} {rest : List Action}

/-- An engine takes no provider away. -/
theorem perform_has (e : Engine) (a : Action) {id : String} (has : e.hub.Has id) :
    (e.perform a).engine.hub.Has id := by
  refine perform_brokers (P := (·.Has id)) ?_ ?_ ?_ e a has
  · intro h p key has
    exact Hub.has_of_retry (h.retry_openConsumer p key id) has
  · intro h now c w has
    exact Hub.has_of_retry (Hub.retry_of_providers (h.poll_providers now c w) id) has
  · intro h c has
    exact Hub.has_of_retry (h.retry_closeConsumer c id) has

/-! ## What subscriptions ask for -/

/-- Everybody has asked for something that compiled. -/
def Catalogued (e : Engine) : Prop :=
  ∀ (s : SubscriptionId) (x : Subscriber), e.subscribers[s]? = some x →
    ∃ r, e.setup.catalog.compile r = .ok x.compiled

theorem catalogued_upheld : Upheld Reliable fun e _ _ => Catalogued e where
  shuffle _ before := before
  idle before := before
  outside {e _ _} i _ before := by
    obtain ⟨subscribers, -, setup⟩ := input_spares e i
    intro s x found
    rw [setup]
    exact before s x (subscribers ▸ found)
  inside {e a todo others _} _ known before := by
    intro s x' found'
    rw [(perform_setup e a).1]
    cases found : e.subscribers[s]? with
    | some x =>
      obtain ⟨x'', found'', same⟩ := perform_same e a found
      obtain rfl : x' = x'' := Option.some.inj (found'.symm.trans found'')
      rw [same.compiled]
      exact before s x found
    | none =>
      obtain ⟨call, c, clientId, r, rfl, rfl⟩ :=
        absent_subscribes (known.1.1.sound (List.cons_append ..)) found found'
      obtain ⟨-, compiled, rfl, compiles⟩ := subscribe_record found'
      exact ⟨r, compiles⟩

theorem start_catalogued (setup : Setup) (hub : Hub) :
    Always (World.start setup hub) fun e ts log => Reliable e ts log ∧ Catalogued e := by
  refine (start_reliable setup hub).and catalogued_upheld fun s x found => ?_
  simp [World.start, Engine.start] at found

/-! ## Nobody is told that there is no provider -/

def Sourced (e : Engine) : Prop := ∀ f ∈ e.setup.catalog.fields, e.hub.Has f.provider

/-- No call has been answered that something is not there. -/
def Found (e : Engine) : Prop := ∀ call detail, (call, Reply.failed (.notFound detail)) ∉ e.replies

theorem found_same (same : e'.replies = e.replies) (found : Found e) : Found e' := by
  unfold Found at found ⊢
  rwa [same]

theorem found_reply {call : CallId} {r : Reply} (found : Found e)
    (other : ∀ detail, r ≠ .failed (.notFound detail)) : Found (e.reply call r) := by
  intro call' detail member
  rcases List.mem_append.mp member with old | new
  · exact found call' detail old
  · obtain ⟨-, same⟩ := Prod.mk.inj (List.mem_singleton.mp new)
    exact other detail same.symm

theorem found_failed {call : CallId} {fault : Fault} (found : Found e)
    (other : ∀ detail, fault ≠ .notFound detail) : Found (e.reply call (.failed fault)) :=
  found_reply found fun detail same => other detail (Reply.failed.inj same)

theorem sourced_compiled (sourced : Sourced e) {r : Request} {compiled : CompiledSubscription}
    (compiles : e.setup.catalog.compile r = .ok compiled) :
    ∃ p, e.hub.find compiled.sourceKey.provider = .ok p := by
  obtain ⟨member, same⟩ := Catalog.compile_field compiles
  exact Hub.find_has (same ▸ sourced compiled.field member)

theorem prepare_error (sourced : Sourced e) {c : ConnectionId} {clientId : String} {r : Request}
    {fault : Fault} (refused : e.prepare c clientId r = .error fault) (detail : String) :
    fault ≠ .notFound detail := by
  simp only [prepare] at refused
  split at refused
  · cases refused
    exact Fault.noConfusion
  split at refused
  · cases refused
    exact Fault.noConfusion
  split at refused
  · rename_i err _
    cases refused
    exact Catalog.compile_fault err detail
  · rename_i compiled compiles
    obtain ⟨p, there⟩ := sourced_compiled sourced compiles
    rw [there] at refused
    cases refused

theorem brokerError_fault (err : BrokerError) (detail : String) : err.fault ≠ .notFound detail := by
  cases err <;> exact Fault.noConfusion

theorem enter_found {call : CallId} {b : BindingId} {s : SubscriptionId} {x : Subscriber}
    (started : List (List Action)) (there : e.subscribers[s]? = some x) (found : Found e) :
    Found (e.enter call b s started).engine := by
  rcases enter_cases call b started there with ⟨-, admitted⟩ | ⟨-, refused⟩
  · rw [admitted]
    refine found_reply ?_ fun detail => Reply.noConfusion
    exact found_same (inward_admission e b s x).replies found
  · rw [refused]
    exact found_failed (found_same (inward_refusal e b s x).replies found) fun detail =>
      Fault.noConfusion

theorem receipt_found {result : Except Fault Unit} (r : Receipt)
    (other : ∀ detail, result ≠ .error (.notFound detail)) (found : Found e) :
    Found (e.receipt result r).engine := by
  cases r with
  | ending s => exact found
  | event s => cases result <;> exact found
  | call call =>
    cases result with
    | ok => exact found_reply found fun detail => Reply.noConfusion
    | error fault => exact found_failed found fun detail same => other detail (same ▸ rfl)

theorem openBinding_found (sound : e.books.Sound (duties (a :: rest))) {call : CallId}
    {b : BindingId}
    {s : SubscriptionId} {due : Nat} (opens : a = .openSource call b s due)
    (catalogued : Catalogued e) (sourced : Sourced e) (found : Found e) :
    Found (e.openBinding call b s).engine := by
  subst opens
  obtain ⟨y, here, asked, -⟩ := seeker_binding sound rfl
  obtain ⟨x, there, -⟩ := seeker_pending sound rfl
  have key : x.compiled.sourceKey = y.key := by simpa [books, there] using asked
  obtain ⟨r, compiles⟩ := catalogued s x there
  obtain ⟨p, provider⟩ := sourced_compiled sourced compiles
  rw [key] at provider
  simp only [openBinding, here, provider]
  split
  · rename_i err hub _
    exact found_failed (found_same rfl found) (brokerError_fault err)
  · split
    · exact enter_found (x := x) _ there (found_same rfl found)
    · exact found_failed (found_same rfl found) fun detail => Fault.noConfusion

theorem perform_found (sound : e.books.Sound (duties (a :: rest))) (honored : Honored e (a :: rest))
    (catalogued : Catalogued e) (sourced : Sourced e) (found : Found e) :
    Found (e.perform a).engine := by
  have serves := honored_serves sound honored
  have silent (none : a.ticket? = none) : Found (e.perform a).engine := by
    cases serves.answered with
    | none kept _ => exact found_same kept found
    | reply call r whose _ _ _ => simp [none] at whose
  cases a with
  | subscribe call c clientId r =>
    simp only [perform]
    cases prepared : e.prepare c clientId r with
    | error fault => exact found_failed found (prepare_error sourced prepared)
    | ok made =>
      obtain ⟨s, key, e'⟩ := made
      obtain ⟨compiled, -, -, -, -, made⟩ := prepare_ok e prepared
      have entered : Found e' := found_same (made ▸ rfl) found
      exact found_same (inward_seek e' call s key).replies entered
  | join call b s =>
    obtain ⟨y, here, -, -⟩ := seeker_binding sound rfl
    obtain ⟨x, there, -⟩ := seeker_pending sound rfl
    simp only [perform]
    rcases joinBinding_cases call s here with ⟨-, seeks⟩ | ⟨-, -, enters⟩ | ⟨-, -,
      refused⟩ | ⟨-, locks⟩
    · rw [seeks]
      exact found_same (inward_seek (e.unlist b) call s y.key).replies found
    · rw [enters]
      exact enter_found [] there found
    · rw [refused]
      exact found_failed found fun detail => Fault.noConfusion
    · rw [locks]
      exact found_same rfl found
  | openSource call b s due => exact openBinding_found sound rfl catalogued sourced found
  | dispatch call event =>
    simp only [perform]
    split
    · exact found
    · exact found_reply found fun detail => Reply.noConfusion
  | fanOut call? b event =>
    have scheduled := found_same (inward_scheduleAll event (e.targets b) e).replies found
    simp only [perform, fanOut_targets]
    cases call? with
    | none => exact scheduled
    | some call => exact found_reply scheduled fun detail => Reply.noConfusion
  | offer c f r =>
    simp only [perform, offer]
    split
    · exact receipt_found r (by rintro detail ⟨⟩) found
    · exact found
  | enqueue c f due r =>
    have closes : Found (e.closeConnection c).2 := found_same rfl found
    simp only [perform, enqueue]
    split
    · exact receipt_found r (by rintro detail ⟨⟩) found
    split
    · exact receipt_found r (by rintro detail ⟨⟩) closes
    split
    · refine receipt_found r (by rintro detail ⟨⟩) ?_
      split <;> exact found_same rfl found
    · exact receipt_found r (by rintro detail ⟨⟩) closes
  | answer call r =>
    obtain rfl := honored.plain call r (List.mem_cons_self ..)
    exact found_reply found fun detail => Reply.noConfusion
  | _ => exact silent rfl

/-- Whatever happens to the brokers, the providers that there were stay, as they do under every
operation (`Hub.after_has`). -/
def Keeping (hub : Hub) (moves : List Move) : Prop :=
  ∀ hub', .input (.brokers hub') ∈ moves → ∀ id, hub.Has id → hub'.Has id

structure Stocked (setup : Setup) (hub : Hub) (e : Engine) : Prop where
  setup : e.setup = setup
  has : ∀ id, hub.Has id → e.hub.Has id
  found : Found e

variable {setup : Setup} {hub : Hub} {moves : List Move}

theorem stocked_sourced (stocked : Stocked setup hub e)
    (sourced : ∀ f ∈ setup.catalog.fields, hub.Has f.provider) : Sourced e := by
  intro f member
  rw [stocked.setup] at member
  exact stocked.has f.provider (sourced f member)

theorem input_stocked (i : Input)
    (keeps : ∀ hub', i = .brokers hub' → ∀ id, hub.Has id → hub'.Has id)
    (stocked : Stocked setup hub e) : Stocked setup hub (i.apply e) := by
  refine ⟨(input_spares e i).2.2.trans stocked.setup, ?_,
    found_same (input_replies e i) stocked.found⟩
  cases i with
  | brokers hub' => exact keeps hub' rfl
  | take c most =>
    simp only [Input.apply, takeFrames]
    split <;> exact stocked.has
  | _ => exact stocked.has

theorem perform_stocked (sound : e.books.Sound (duties (a :: rest)))
    (honored : Honored e (a :: rest))
    (catalogued : Catalogued e) (sourced : ∀ f ∈ setup.catalog.fields, hub.Has f.provider)
    (stocked : Stocked setup hub e) : Stocked setup hub (e.perform a).engine where
  setup := (perform_setup e a).1.trans stocked.setup
  has id has := perform_has e a (stocked.has id has)
  found := perform_found sound honored catalogued (stocked_sourced stocked sourced) stocked.found

theorem play_stocked (sourced : ∀ f ∈ setup.catalog.fields, hub.Has f.provider)
    (keeping : Keeping hub moves) :
    Stocked setup hub ((World.start setup hub).play moves).state := by
  induction moves using List.reverseRecOn with
  | nil => exact ⟨rfl, fun _ has => has, fun call detail => List.not_mem_nil⟩
  | append_singleton before v ih =>
    have stocked := ih fun hub' member => keeping hub' (List.mem_append_left _ member)
    obtain ⟨⟨⟨accounted, honored⟩, -⟩, catalogued⟩ := (start_catalogued setup hub).throughout before
    rw [World.play_append]
    generalize (World.start setup hub).play before = w at stocked accounted honored catalogued
    change Stocked setup hub (w.move v).state
    rcases World.move_cases w v with ⟨i, rfl, eq⟩ | ⟨place, a, rest, rfl, -, exchange⟩ |
      ⟨place, rfl, -, eq⟩
    · rw [eq, World.input_state]
      refine input_stocked i (fun hub' same => keeping hub' ?_) stocked
      rw [same]
      exact List.mem_append_right _ (List.mem_singleton.mpr rfl)
    · rw [exchange.state]
      exact perform_stocked (sound_shuffle exchange.before accounted)
        (honored_shuffle exchange.before honored) catalogued sourced stocked
    · rwa [eq]

end Engine

/-! ## Connecting -/

namespace Broker.Hub

/-- The first provider that cannot be connected is the reason, one that takes another build or one
that cannot be reached. -/
theorem connectAll_error {settings : List ProviderSettings} {h : Hub} {fault : Fault}
    (failed : h.connectAll settings = .error fault) :
    (∃ p ∈ settings, fault = kafkaMissing p.id) ∨ h.server.up = false ∧
      ∃ p ∈ settings, p.backend = .nats ∧
        fault = (BrokerError.connect (Server.address p.urls)).fault := by
  induction settings generalizing h with
  | nil => cases failed
  | cons p rest ih =>
    simp only [connectAll] at failed
    cases first : h.connectProvider p with
    | error fault' =>
      rw [first] at failed
      cases failed
      cases backend : p.backend with
      | memory => simp [connectProvider, backend] at first
      | kafka =>
        simp only [connectProvider, backend] at first
        cases first
        exact .inl ⟨p, List.mem_cons_self .., rfl⟩
      | nats =>
        simp only [connectProvider, backend, addNats, Server.connect] at first
        split at first
        · cases first
        · rename_i down
          cases first
          exact .inr ⟨by simpa using down, p, List.mem_cons_self .., backend, rfl⟩
    | ok h' =>
      rw [first] at failed
      have up : h'.server.up = h.server.up := by
        cases backend : p.backend with
        | memory =>
          simp only [connectProvider, backend] at first
          cases first
          rfl
        | kafka => simp [connectProvider, backend] at first
        | nats =>
          simp only [connectProvider, backend, addNats, Server.connect] at first
          split at first
          · cases first
            rfl
          · cases first
      rcases ih failed with ⟨q, listed, same⟩ | ⟨down, q, listed, nats, same⟩
      · exact .inl ⟨q, List.mem_cons_of_mem _ listed, same⟩
      · exact .inr ⟨up ▸ down, q, List.mem_cons_of_mem _ listed, nats, same⟩

end Broker.Hub

/-! ## Making a server -/

namespace Server

variable {s : Settings} {around : Surroundings} {hub : Hub}

def sources (s : Settings) (around : Surroundings) : Except Fault Hub :=
  match around.brokers? with
  | some hub => .ok hub
  | none => ({ server := around.messages } : Hub).connectAll s.providers

/-- What settings and brokers have to be like for a server. -/
structure Complete (s : Settings) (hub : Hub) : Prop where
  queue : 0 < s.engine.outboundQueueSize
  concurrency : 0 < s.engine.resolverConcurrency
  ids : (s.providers.map (·.id)).Nodup
  topics : ∀ f ∈ s.catalog.fields, f.topics ≠ []
  listed : ∀ f ∈ s.catalog.fields, f.provider ∈ s.providers.map (·.id)
  connected : ∀ f ∈ s.catalog.fields, hub.Has f.provider

def assembled (s : Settings) (around : Surroundings) (hub : Hub) : Server where
  settings := s.engine
  blocked := s.blockSubscriptions
  engine := Engine.start
    (setup s (around.entities?.or (entitySource? s.entities around.graph))) hub

inductive Built (s : Settings) (around : Surroundings) : Except Fault Server → Prop
  | defect {d : Settings.Defect} (found : s.defect? = some d) :
      Built s around (.error (.config d.message))
  | unconnected {fault : Fault} (fit : s.Fit) (failed : sources s around = .error fault) :
      Built s around (.error fault)
  | unsourced {hub : Hub} {f : EventField} (fit : s.Fit) (connected : sources s around = .ok hub)
      (listed : f ∈ s.events) (missing : ¬ hub.Has f.provider) :
      Built s around (.error (noSource f))
  | made {hub : Hub} (fit : s.Fit) (connected : sources s around = .ok hub)
      (sourced : ∀ f ∈ s.events, hub.Has f.provider) : Built s around (.ok (assembled s around hub))

theorem build_passed (around : Surroundings) (passes : s.defect? = none) :
    build s around = match sources s around with
      | .error fault => .error fault
      | .ok hub =>
        match unsourced? hub s.events with
        | some f => .error (noSource f)
        | none => .ok (assembled s around hub) := by
  simp only [build, Settings.checked, passes]
  rfl

theorem build_built (s : Settings) (around : Surroundings) : Built s around (build s around) := by
  cases passes : s.defect? with
  | some d =>
    simp only [build, Settings.checked, passes]
    exact .defect passes
  | none =>
    have fit := (Settings.defect?_none_iff s).mp passes
    rw [build_passed around passes]
    cases connected : sources s around with
    | error fault => exact .unconnected fit connected
    | ok hub =>
      dsimp only
      cases searched : unsourced? hub s.events with
      | some f =>
        have missing : hub.provider? f.provider = none := by simpa using List.find?_some searched
        exact .unsourced fit connected (List.mem_of_find?_eq_some searched)
          (by simp [Hub.Has, missing])
      | none =>
        refine .made fit connected fun f listed => ?_
        have there := List.find?_eq_none.mp searched f listed
        simpa [Hub.Has, Option.isSome_iff_ne_none] using there

theorem fit_complete (fit : s.Fit) (sourced : ∀ f ∈ s.events, hub.Has f.provider) :
    Complete s hub where
  queue := fit.queue
  concurrency := fit.concurrency
  ids := fit.ids
  topics f member := (fit.fields f (Catalog.mem_ofList member)).2
  listed f member := (fit.fields f (Catalog.mem_ofList member)).1
  connected f member := sourced f (Catalog.mem_ofList member)

/-- What a server that has been made can be relied on for. -/
structure Assured (s : Settings) (around : Surroundings) (server : Server) (hub : Hub) : Prop where
  connected : sources s around = .ok hub
  complete : Complete s hub
  catalog : server.engine.setup.catalog = s.catalog
  queues : server.engine.setup.queueCapacity = s.engine.outboundQueueSize ∧
    server.engine.setup.inboxCapacity = s.engine.outboundQueueSize
  permits : server.engine.permits = s.engine.resolverConcurrency
  /-- Whatever is asked of it, and whatever happens to the brokers, no call is answered that
  something is not there. -/
  found : ∀ moves, Engine.Keeping hub moves →
    Engine.Found (Engine.World.play ⟨server.engine, []⟩ moves).state

theorem assembled_assured (fit : s.Fit) (connected : sources s around = .ok hub)
    (sourced : ∀ f ∈ s.events, hub.Has f.provider) :
    Assured s around (assembled s around hub) hub where
  connected := connected
  complete := fit_complete fit sourced
  catalog := rfl
  queues := ⟨rfl, rfl⟩
  permits := Nat.max_eq_left fit.concurrency
  found _ keeping := (Engine.play_stocked (fit_complete fit sourced).connected keeping).found

/-- A server is made just of settings that are fit and whose fields have their brokers. Then they
are complete, and no subscription ever misses a provider. Where anything is missing the settings are
refused before there is a server: for what is wrong with them or with the brokers that are given, or
because a message server that has to be connected cannot be reached. -/
theorem build_assured (s : Settings) (around : Surroundings) :
    (∀ server, build s around = .ok server → ∃ hub, Assured s around server hub) ∧
    ((¬ ∃ hub, sources s around = .ok hub ∧ Complete s hub) →
      (∃ text, build s around = .error (.config text)) ∨
      s.Fit ∧ around.brokers? = none ∧ around.messages.up = false ∧
        ∃ p ∈ s.providers, p.backend = .nats ∧
          build s around = .error (BrokerError.connect (Broker.Server.address p.urls)).fault) ∧
    ∀ hub, s.Fit → sources s around = .ok hub → (∀ f ∈ s.events, hub.Has f.provider) →
      ∃ server, build s around = .ok server := by
  have built := build_built s around
  generalize build s around = answer at built
  refine ⟨?_, ?_, ?_⟩
  · rintro server rfl
    cases built with
    | made fit connected sourced => exact ⟨_, assembled_assured fit connected sourced⟩
  · intro incomplete
    cases built with
    | defect found => exact .inl ⟨_, rfl⟩
    | unsourced => exact .inl ⟨_, rfl⟩
    | made fit connected sourced =>
      exact absurd ⟨_, connected, fit_complete fit sourced⟩ incomplete
    | unconnected fit failed =>
      simp only [sources] at failed
      split at failed
      · cases failed
      · rename_i given
        rcases Hub.connectAll_error failed with ⟨p, -, rfl⟩ | ⟨down, p, listed, nats, rfl⟩
        · exact .inl ⟨_, rfl⟩
        · exact .inr ⟨fit, given, down, p, listed, nats, rfl⟩
  · intro hub fit connected sourced
    cases built with
    | made => exact ⟨_, rfl⟩
    | defect found =>
      have none := (Settings.defect?_none_iff s).mpr fit
      rw [none] at found
      cases found
    | unconnected _ failed =>
      rw [connected] at failed
      cases failed
    | unsourced _ connected' listed missing =>
      cases connected.symm.trans connected'
      exact absurd (sourced _ listed) missing

/-!
A memory broker that is there when the server is made and down when a subscriber opens it; the same
settings without any broker; and a message server that cannot be reached.
-/

def staffSettings : Settings where
  providers := [.memory "p"]
  events := [{ name := "employee", provider := "p", topics := ["t"], typeName := "Employee" }]

def staffProviders : Hub := ({} : Hub).addMemory "p" {}

def staffDown : Hub := staffProviders.after [.setAvailable "p" false]

def staffRefusal : List Engine.Move :=
  [.input (.connect .webSocket),
    .input (.call (.subscribe 0 "1" { query := "subscription { employee { id } }" })),
    .step 0, .step 0, .input (.brokers staffDown), .step 0]

def remoteSettings : Settings where
  providers := [{ id := "n", backend := .nats, urls := ["nats://h:4222"] }]
  events := [{ name := "e", provider := "n", topics := ["t"], typeName := "Employee" }]

def remoteDown : Surroundings where
  messages := { up := false }

theorem staff_refusal_keeps : Engine.Keeping staffProviders staffRefusal := by
  intro hub' member id has
  have only : hub' = staffDown := by simpa [staffRefusal] using member
  rw [only]
  exact Hub.after_has has [.setAvailable "p" false]

theorem staff_assured :
    (∃ server, build staffSettings {} = .ok server ∧
      Assured staffSettings {} server staffProviders ∧
      (match (Engine.World.play ⟨server.engine, []⟩ staffRefusal).state.reply? 0 with
        | some (.failed fault) => fault.message == (BrokerError.memoryDown "p").fault.message
        | _ => false) = true ∧
      Engine.Found (Engine.World.play ⟨server.engine, []⟩ staffRefusal).state) ∧
    ∃ text, build staffSettings { brokers? := some {} } = .error (.config text) := by
  constructor
  · have fit : staffSettings.Fit := (Settings.defect?_none_iff staffSettings).mp (by decide)
    have sourced : ∀ f ∈ staffSettings.events, staffProviders.Has f.provider := by
      intro f listed
      obtain rfl := List.mem_singleton.mp listed
      exact rfl
    obtain ⟨server, built⟩ := (build_assured staffSettings {}).2.2 staffProviders fit rfl sourced
    obtain ⟨hub, assured⟩ := (build_assured staffSettings {}).1 server built
    obtain rfl : staffProviders = hub := Except.ok.inj assured.connected
    obtain rfl : assembled staffSettings {} staffProviders = server := Except.ok.inj built
    exact ⟨_, built, assured, by decide +kernel, assured.found staffRefusal staff_refusal_keeps⟩
  · have incomplete : ¬ ∃ hub, sources staffSettings { brokers? := some {} } = .ok hub ∧
        Complete staffSettings hub := by
      rintro ⟨hub, given, complete⟩
      obtain rfl : ({} : Hub) = hub := Except.ok.inj given
      have has := complete.connected _ (List.mem_singleton.mpr rfl)
      exact absurd has Bool.false_ne_true
    rcases (build_assured staffSettings { brokers? := some {} }).2.1 incomplete with
      refused | ⟨-, none, -⟩
    · exact refused
    · cases none

/-- Settings without a fault whose message server cannot be reached are not refused as settings. -/
theorem unreachable_no_config :
    (¬ ∃ hub, sources remoteSettings remoteDown = .ok hub ∧ Complete remoteSettings hub) ∧
    build remoteSettings remoteDown =
      .error (.sourceUnavailable "Failed to connect to NATS at nats://h:4222") ∧
    ¬ ∃ text, build remoteSettings remoteDown = .error (.config text) := by
  have refused : build remoteSettings remoteDown =
      .error (.sourceUnavailable "Failed to connect to NATS at nats://h:4222") := by rfl
  refine ⟨?_, refused, ?_⟩
  · rintro ⟨hub, connected, -⟩
    cases connected
  · rintro ⟨text, config⟩
    rw [refused] at config
    cases config

end Server

end SubscriptionGateway
