import SubscriptionGateway.Proofs.Broker.Polling

/-!
The steps of a play. Every operation is one of a few kinds: it sends on a memory topic, it ends one
outlet, it ends all subscriptions on the server, it opens, closes or polls a consumer, or it
concerns nobody but those who listen to the server.
-/
namespace SubscriptionGateway.Broker

namespace Hub

variable {h h' : Hub} {c : ConsumerId}

def Operation.endsOne : Operation → Bool
  | .deleteTopic .. | .endSubscription _ => true
  | _ => false

def Operation.deletes : Operation → String → String → Prop
  | .deleteTopic id topic, id', topic' => id = id' ∧ topic = topic'
  | _, _, _ => False

def Operation.closes : Operation → Option ConsumerId
  | .closeConsumer c | .dropConsumer c => some c
  | _ => none

/-- Nothing that a memory broker took, and nothing that a consumer came to. -/
def Happening.Mute (h : Hub) : Happening → Prop
  | .produced id _ _ (.ok _) => h.memory? id = none
  | .produced _ _ _ (.error _) => True
  | .opened .. => True
  | .polled .. => False

inductive Performed (h : Hub) : Operation → Hub × List Happening → Prop
  | produced {id topic : String} {payload : List UInt8} {ch : ChannelId} {stamp : Nat} {h' : Hub}
      (memory : (h.memory? id).isSome)
      (deed : Deed (fun _ => False)
        (Receiver.onChannel ch (Receiver.push (some topicWindow) stamp ⟨topic, payload⟩)) h h')
      (outlet : h'.Outlet (some id) topic ch)
      (available : ∀ id', (h'.memory? id').map (·.available) = (h.memory? id').map (·.available)) :
      Performed h (.produce id topic payload) (h', [.produced id topic payload (.ok ())])
  | quiet {op : Operation} {h' : Hub} {log : List Happening} {f : Receiver → Receiver}
      (deed : Deed (fun _ => False) f h h')
      (server : Confined (fun ch => ∃ t, h.Outlet none t ch) f)
      (mute : ∀ x ∈ log, x.Mute h) : Performed h op (h', log)
  | ended {op : Operation} {h' : Hub} {o : Option String} {t : String}
      {ch : ChannelId} {stamp : Nat}
      (one : op.endsOne = true) (there : h.Outlet o t ch)
      (deletes : ∀ id, o = some id → op.deletes id t)
      (deed : Deed (· = ch) (Receiver.onChannel ch (Receiver.finish stamp)) h h') :
      Performed h op (h', [])
  | cut {h' : Hub} {f : Receiver → Receiver}
      (deed : Deed (fun ch => ∃ t, h.Outlet none t ch) f h h')
      (server : Confined (fun ch => ∃ t, h.Outlet none t ch) f) : Performed h .cut (h', [])
  | opened {id : String} {p : Provider} {key : SourceKey} {proper : key.topics.Nodup} {h' : Hub}
      {r : Except BrokerError ConsumerId} (opening : Opening p key h (r, h')) :
      Performed h (.openConsumer id key proper) (h', [.opened id key r])
  | closed {op : Operation} {c : ConsumerId} {h' : Hub} (closes : op.closes = some c)
      (closing : Closing c h h') : Performed h op (h', [])
  | next {c : ConsumerId} {now : Nat} {a : Awaiting} :
      Performed h (.next c now a) ((h.poll now c a).2, [.polled c (h.poll now c a).1])

theorem Performed.nothing {op : Operation} : Performed h op (h, []) :=
  .quiet (.of_same (.refl h) rfl) (fun _ _ => rfl) (by simp)

theorem performed_produce (sound : h.Sound) {p : Provider} (known : h.provider? p.id = some p)
    (topic : String) (payload : List UInt8) :
    Performed h (.produce p.id topic payload) ((h.produce p topic payload).2,
      [.produced p.id topic payload (h.produce p topic payload).1]) := by
  cases kind : p.kind with
  | memory b =>
    by_cases up : b.available = true
    · obtain ⟨ch, stamp, done, deed, outlet, available⟩ :=
        produce_memory_deed sound.toOrderly known kind up topic payload
      rw [done]
      exact .produced (by simp [memory?, known, kind]) deed outlet available
    · have refused : h.produce p topic payload = (.error (.memoryDown p.id), h) := by
        simp [produce, kind, up]
      rw [refused]
      exact .quiet (.of_same (.refl h) rfl) (fun _ _ => rfl) (by simp [Happening.Mute])
  | nats =>
    obtain ⟨f, deed, confined, -⟩ := produce_nats_deed (h := h) kind topic payload
    refine .quiet deed (fun r other => confined r ?_) ?_
    · rintro ⟨t, there, -⟩
      exact other ⟨t, there⟩
    intro x member
    rw [List.mem_singleton.mp member]
    cases (h.produce p topic payload).1 with
    | error e => trivial
    | ok u => simp [Happening.Mute, memory?, known, kind]

theorem performed_delete (sound : h.Sound) {p : Provider} (known : h.provider? p.id = some p)
    (topic : String) :
    Performed h (.deleteTopic p.id topic) ((h.deleteTopic p topic).2, []) := by
  rcases deleteTopic_deed sound.toOrderly known topic with ⟨same, consumers⟩ | ⟨ch, there, deed⟩
  · exact .quiet (.of_same same consumers) (fun _ _ => rfl) (by simp)
  · refine .ended rfl there (fun id same => ?_) deed
    cases same
    exact ⟨rfl, rfl⟩

theorem performed (sound : h.Sound) (op : Operation) : Performed h op (h.perform op) := by
  cases op with
  | produce id topic payload =>
    cases known : h.provider? id with
    | some p =>
      cases provider?_id known
      simpa only [perform, known] using performed_produce sound known topic payload
    | none => simpa only [perform, known] using .nothing
  | createTopic id topic replication =>
    cases known : h.provider? id with
    | some p =>
      cases provider?_id known
      simp only [perform, known]
      exact .quiet (createTopic_deed sound.toOrderly known topic replication) (fun _ _ => rfl)
        (by simp)
    | none => simpa only [perform, known] using .nothing
  | deleteTopic id topic =>
    cases known : h.provider? id with
    | some p =>
      cases provider?_id known
      simpa only [perform, known] using performed_delete sound known topic
    | none => simpa only [perform, known] using .nothing
  | setAvailable id up =>
    exact .quiet (setAvailable_deed h id up) (fun _ _ => rfl) (by simp)
  | openConsumer id key proper =>
    cases known : h.provider? id with
    | some p =>
      cases provider?_id known
      simp only [perform, known]
      exact .opened (openConsumer_opening sound known proper)
    | none => simpa only [perform, known] using .nothing
  | closeConsumer c => exact .closed rfl (closeConsumer_closing sound c)
  | dropConsumer c => exact .closed rfl (dropConsumer_closing sound c)
  | next c now a => exact .next
  | publish topic payload =>
    obtain ⟨f, deed, sends⟩ := publish_deed h topic payload
    exact .quiet deed (fun r other => sends.confined r fun ⟨t, there, _⟩ =>
      other ⟨t, there⟩) (by simp)
  | endSubscription s =>
    by_cases there : s ∈ h.server.subscriptions
    · exact .ended (o := none) rfl there nofun (endSubscription_deed sound.toOrderly there)
    · simpa only [perform, endSubscription, there, if_false] using .nothing
  | cut =>
    obtain ⟨f, deed, confined⟩ := cut_deed sound.toOrderly
    exact .cut deed confined
  | limit call n => exact .quiet (limit_deed h call n) (fun _ _ => rfl) (by simp)

theorem perform_sound (sound : h.Sound) (op : Operation) : (h.perform op).1.Sound := by
  have step := performed sound op
  generalize h.perform op = r at step
  cases step with
  | produced memory deed => exact deed.sound sound
  | quiet deed => exact deed.sound sound
  | ended one there deletes deed => exact deed.sound sound
  | cut deed => exact deed.sound sound
  | opened opening => exact opening.sound
  | closed closes closing => exact closing.sound
  | next => exact (poll_sound sound _ _ _).1

theorem after_sound (sound : h.Sound) (ops : List Operation) : (h.after ops).Sound :=
  after_induction sound fun _ op _ sound => perform_sound sound op

theorem produced_memory (sound : h.Sound) {id topic : String} {payload : List UInt8}
    (memory : (h.memory? id).isSome)
    (done : h.perform (.produce id topic payload) = (h', [.produced id topic payload (.ok ())])) :
    ∃ ch stamp, Deed (fun _ => False)
        (Receiver.onChannel ch (Receiver.push (some topicWindow) stamp ⟨topic, payload⟩)) h h' ∧
      h'.Outlet (some id) topic ch ∧
      ∀ id', (h'.memory? id').map (·.available) = (h.memory? id').map (·.available) := by
  have step := performed sound (.produce id topic payload)
  rw [done] at step
  cases step with
  | produced _ deed outlet available => exact ⟨_, _, deed, outlet, available⟩
  | quiet deed server mute =>
    have none : h.memory? id = none := mute _ (List.mem_cons_self ..)
    simp [none] at memory

theorem produced_server {id topic : String} {payload : List UInt8} (server : h.memory? id = none)
    (done : h.perform (.produce id topic payload) = (h', [.produced id topic payload (.ok ())])) :
    ∃ f, Deed (fun _ => False) f h h' ∧ Sends ⟨topic, payload⟩ (h.Published topic) f := by
  cases known : h.provider? id with
  | none => simp [perform, known] at done
  | some p =>
    have kind : p.kind = .nats := by
      cases kind : p.kind with
      | memory b => simp [memory?, known, kind] at server
      | nats => rfl
    obtain ⟨f, deed, -, sends⟩ := produce_nats_deed (h := h) kind topic payload
    simp only [perform, known, Prod.mk.injEq, List.cons.injEq, Happening.produced.injEq,
      true_and, and_true] at done
    exact ⟨f, done.1 ▸ deed, sends done.2⟩

def Opened (h : Hub) (c : ConsumerId) (provider : String) (key : SourceKey) : Prop :=
  ∃ (server : Server) (settings : List ProviderSettings) (h₀ : Hub) (before : List Operation)
    (proper : key.topics.Nodup), server.subscriptions = [] ∧
    ({ server := server } : Hub).connectAll settings = .ok h₀ ∧
    (h₀.after before).perform (.openConsumer provider key proper) =
      (h, [.opened provider key (.ok c)])

theorem Opened.consumer {provider : String} {key : SourceKey} (opened : h.Opened c provider key) :
    h.Sound ∧ ∃ k, h.consumers[c]? = some k ∧ k.provider = provider ∧ k.key = key ∧
      k.closed = false ∧ Attuned h k := by
  obtain ⟨server, settings, h₀, before, proper, none, connected, done⟩ := opened
  have fresh : h₀.Fresh := connectAll_fresh ⟨rfl, none, by simp [memory?, provider?]⟩ connected
  have sound := after_sound fresh.sound before
  cases known : (h₀.after before).provider? provider with
  | none => simp [perform, known] at done
  | some p =>
    cases provider?_id known
    have opening := openConsumer_opening sound known proper
    simp only [perform, known, Prod.mk.injEq, List.cons.injEq, Happening.opened.injEq, true_and,
      and_true] at done
    obtain ⟨rfl, made⟩ := done
    exact ⟨opening.sound, (opening.opened c made).2⟩

end Hub

end SubscriptionGateway.Broker
