import SubscriptionGateway.Proofs.Broker.Polling
import Mathlib.Data.List.Induction

/-!
The streams of the message server by their names. Topics are told apart by the name of the stream
behind them, so two topics of one name share a stream: it keeps the subject of the one it was made
for, and goes when either is deleted. A stream lasts until a topic of its name is deleted, and no
other topic touches it.
-/
namespace SubscriptionGateway.Broker

namespace Server

def stream? (s : Server) (name : String) : Option Stream :=
  (s.streams.find? (·.1 == name)).map (·.2)

@[simp] theorem grant_streams (s : Server) (call : Call) :
    (s.grant call).2.streams = s.streams := by
  unfold grant
  split <;> rfl

theorem stream?_isSome (s : Server) (name : String) :
    (s.stream? name).isSome = s.streams.any (·.1 == name) := by
  rw [stream?, Option.isSome_map, Bool.eq_iff_iff, List.find?_isSome, List.any_eq_true]

variable {s s' : Server} {topic : String} {replication : Int}

theorem createStream_streams (created : s.createStream topic replication = (.ok (), s')) :
    s'.streams = if (s.stream? (streamName topic)).isSome then s.streams else
      s.streams ++ [(streamName topic, ⟨[topic], (max replication 1).toNat⟩)] := by
  have same := grant_streams s .createStream
  unfold createStream at created
  generalize s.grant .createStream = granted at created same
  obtain ⟨_ | _, s₁⟩ := granted
  · simp at created
  · change s₁.streams = s.streams at same
    rw [stream?_isSome, ← same]
    by_cases taken : s₁.streams.any (·.1 == streamName topic)
    · obtain rfl : s₁ = s' := by simpa [taken] using created
      rw [if_pos taken]
    · rw [if_neg taken]
      simp only [taken, Bool.false_eq_true, ↓reduceIte, Prod.mk.injEq, true_and] at created
      rw [← created]

theorem deleteStream_streams (deleted : s.deleteStream topic = (.ok (), s')) :
    s'.streams = s.streams.filter (·.1 != streamName topic) := by
  have same := grant_streams s .deleteStream
  unfold deleteStream at deleted
  by_cases there : s.streams.any (·.1 == streamName topic)
  · simp only [there, ↓reduceIte] at deleted
    generalize s.grant .deleteStream = granted at deleted same
    obtain ⟨_ | _, s₁⟩ := granted
    · simp at deleted
    · simp only [Prod.mk.injEq, true_and] at deleted
      rw [← deleted, ← same]
  · obtain rfl : s = s' := by simpa [there] using deleted
    refine (List.filter_eq_self.mpr fun x member => ?_).symm
    simpa using fun same => there (List.any_eq_true.mpr ⟨x, member, by simpa using same⟩)

theorem createStream_failed {e : BrokerError}
    (failed : s.createStream topic replication = (.error e, s')) : s'.streams = s.streams := by
  have same := grant_streams s .createStream
  unfold createStream at failed
  generalize s.grant .createStream = granted at failed same
  obtain ⟨_ | _, s₁⟩ := granted
  · simp only [Prod.mk.injEq] at failed
    exact failed.2 ▸ same
  · dsimp only at failed
    split at failed <;> simp at failed

theorem deleteStream_failed {e : BrokerError}
    (failed : s.deleteStream topic = (.error e, s')) : s'.streams = s.streams := by
  have same := grant_streams s .deleteStream
  unfold deleteStream at failed
  generalize s.grant .deleteStream = granted at failed same
  dsimp only at failed
  split at failed
  · obtain ⟨_ | _, s₁⟩ := granted
    · simp only [Prod.mk.injEq] at failed
      exact failed.2 ▸ same
    · simp at failed
  · simp at failed

theorem stream?_create (created : s.createStream topic replication = (.ok (), s')) (name : String) :
    s'.stream? name = (s.stream? name).or
      (if name = streamName topic then some ⟨[topic], (max replication 1).toNat⟩ else none) := by
  have streams := createStream_streams created
  by_cases mine : name = streamName topic
  · subst mine
    cases there : s.stream? (streamName topic) with
    | some stream =>
      rw [there, Option.isSome_some, if_pos rfl] at streams
      rw [stream?, streams, ← stream?, there]
      rfl
    | none =>
      rw [there, Option.isSome_none, if_neg Bool.false_ne_true] at streams
      have absent : s.streams.find? (·.1 == streamName topic) = none := by
        simpa [stream?] using there
      rw [stream?, streams, List.find?_append, absent]
      simp
  · rw [if_neg mine, Option.or_none, stream?, stream?, streams]
    split
    · rfl
    · simp [List.find?_append, Ne.symm mine]

theorem stream?_delete (deleted : s.deleteStream topic = (.ok (), s')) (name : String) :
    s'.stream? name = if name = streamName topic then none else s.stream? name := by
  rw [stream?, deleteStream_streams deleted, List.find?_filter]
  split
  · next mine =>
    subst mine
    simp
  · next other =>
    rw [stream?]
    congr 2
    funext x
    by_cases here : x.1 = name
    · simp [here, other]
    · simp [here]

theorem subscribeAll_streams (s : Server) (channel : ChannelId) (made : List ChannelId)
    (topics : List String) : (s.subscribeAll channel made topics).2.streams = s.streams := by
  induction topics generalizing s channel made with
  | nil =>
    have same := grant_streams s .flush
    unfold subscribeAll
    generalize s.grant .flush = granted at same
    obtain ⟨_ | _, s₁⟩ := granted <;> exact same
  | cons topic topics ih =>
    have same := grant_streams s .subscribe
    unfold subscribeAll
    generalize s.grant .subscribe = granted at same
    obtain ⟨_ | _, s₁⟩ := granted
    · exact same
    · exact (ih _ _ _).trans same

end Server

namespace Hub

variable {h h' : Hub} {id topic name : String}

/-! ## What leaves streams alone -/

@[simp] theorem updateMemory_server (h : Hub) (id : String) (f : MemoryBroker → MemoryBroker) :
    (h.updateMemory id f).server = h.server := by
  unfold updateMemory
  split <;> rfl

@[simp] theorem topicChannel_server (h : Hub) (id : String) (b : MemoryBroker) (topic : String) :
    (h.topicChannel id b topic).2.server = h.server := by
  unfold topicChannel
  split <;> rfl

@[simp] theorem topicChannels_server (id : String) (topics : List String) (h : Hub) :
    (topicChannels id topics h).2.server = h.server := by
  induction topics generalizing h with
  | nil => rfl
  | cons topic topics ih =>
    unfold topicChannels
    split
    · rfl
    · exact (ih _).trans (topicChannel_server ..)

theorem sendAll_server (m : Message) (channels : List ChannelId) (h : Hub) :
    (channels.foldl (fun h c => h.send none c m) h).server = h.server :=
  foldl_view Hub.server (fun h c => h.send none c m) (fun _ _ => rfl) channels h

theorem endAll_server (channels : List ChannelId) (h : Hub) :
    (channels.foldl endChannel h).server = h.server :=
  foldl_view Hub.server endChannel (fun _ _ => rfl) channels h

theorem subscribeAll_streams (h : Hub) (key : SourceKey) :
    (h.subscribeAll key).2.server.streams = h.server.streams :=
  Server.subscribeAll_streams ..

theorem openConsumer_streams (h : Hub) (p : Provider) (key : SourceKey) :
    (h.openConsumer p key).2.server.streams = h.server.streams := by
  unfold openConsumer
  cases p.kind with
  | memory b =>
    by_cases up : b.available
    · simp [up, addConsumer]
    · simp [up]
  | nats =>
    have same := subscribeAll_streams h key
    dsimp only
    generalize h.subscribeAll key = r at same
    obtain ⟨_ | _, h₁⟩ := r <;> exact same

theorem produce_streams (h : Hub) (p : Provider) (topic : String) (payload : List UInt8) :
    (h.produce p topic payload).2.server.streams = h.server.streams := by
  unfold produce
  cases p.kind with
  | memory b =>
    by_cases up : b.available
    · simp [up, send, onReceivers]
    · simp [up]
  | nats =>
    have granted := Server.grant_streams h.server .publish
    dsimp only
    generalize h.server.grant .publish = g at granted
    obtain ⟨_ | _, s⟩ := g
    · exact granted
    · have sent := congrArg Server.streams (sendAll_server ⟨topic, payload⟩ (s.audience topic)
        { h with server := s })
      have flushed := Server.grant_streams
        ((s.audience topic).foldl (fun (h : Hub) c => h.send none c ⟨topic, payload⟩)
          { h with server := s }).server .flush
      dsimp only
      split
      · next heq => rw [heq] at flushed; exact flushed.trans (sent.trans granted)
      · next heq => rw [heq] at flushed; exact flushed.trans (sent.trans granted)

theorem poll_streams (h : Hub) (now : Nat) (c : ConsumerId) (a : Awaiting) :
    (h.poll now c a).2.server.streams = h.server.streams :=
  poll_view (fun h => h.server.streams) (fun _ _ => rfl) subscribeAll_streams h now a

theorem dropConsumer_streams (h : Hub) (c : ConsumerId) :
    (h.dropConsumer c).server.streams = h.server.streams := by
  unfold dropConsumer
  split <;> rfl

theorem closeConsumer_streams (h : Hub) (c : ConsumerId) :
    (h.closeConsumer c).server.streams = h.server.streams := by
  unfold closeConsumer
  split
  · rfl
  · split
    · rfl
    · simp [release, setConsumer, Server.unsubscribe]

/-! ## What becomes of a stream -/

def stream? (h : Hub) (name : String) : Option Stream := h.server.stream? name

def Creates (h : Hub) (op : Operation) (topic : String) : Prop :=
  ∃ id replication p, op = .createTopic id topic replication ∧ h.provider? id = some p ∧
    p.kind = .nats ∧ (h.createTopic p topic replication).1 = .ok ()

def Deletes (h : Hub) (op : Operation) (topic : String) : Prop :=
  ∃ id p, op = .deleteTopic id topic ∧ h.provider? id = some p ∧
    p.kind = .nats ∧ (h.deleteTopic p topic).1 = .ok ()

variable {op : Operation}

theorem Creates.stream? (creates : h.Creates op topic) : ∃ replicas, ∀ name,
    (h.perform op).1.stream? name = (h.stream? name).or
      (if name = streamName topic then some ⟨[topic], replicas⟩ else none) := by
  obtain ⟨id, replication, p, rfl, known, kind, done⟩ := creates
  refine ⟨(max replication 1).toNat, fun name => ?_⟩
  simp only [perform, known, createTopic, kind] at done ⊢
  exact Server.stream?_create (Prod.ext done rfl) name

theorem Deletes.stream? (deletes : h.Deletes op topic) (name : String) :
    (h.perform op).1.stream? name = if name = streamName topic then none else h.stream? name := by
  obtain ⟨id, p, rfl, known, kind, done⟩ := deletes
  simp only [perform, known, deleteTopic, kind] at done ⊢
  exact Server.stream?_delete (Prod.ext done rfl) name

theorem perform_streams (untouched : ∀ topic, ¬ h.Creates op topic ∧ ¬ h.Deletes op topic) :
    (h.perform op).1.server.streams = h.server.streams := by
  cases op with
  | produce id topic payload =>
    simp only [perform]
    split
    · exact produce_streams ..
    · rfl
  | createTopic id topic replication =>
    simp only [perform]
    split
    · next p known =>
      cases kind : p.kind with
      | memory b =>
        simp only [createTopic, kind]
        split
        · rfl
        · exact congrArg Server.streams (topicChannel_server ..)
      | nats =>
        have failed : (h.createTopic p topic replication).1 ≠ .ok () := fun done =>
          (untouched topic).1 ⟨id, replication, p, rfl, known, kind, done⟩
        simp only [createTopic, kind] at failed ⊢
        cases result : h.server.createStream topic replication with
        | mk r s =>
          cases r with
          | ok _ => simp [result] at failed
          | error e => exact Server.createStream_failed result
    · rfl
  | deleteTopic id topic =>
    simp only [perform]
    split
    · next p known =>
      cases kind : p.kind with
      | memory b =>
        simp only [deleteTopic, kind]
        split
        · rfl
        · split <;> rfl
      | nats =>
        have failed : (h.deleteTopic p topic).1 ≠ .ok () := fun done =>
          (untouched topic).2 ⟨id, p, rfl, known, kind, done⟩
        simp only [deleteTopic, kind] at failed ⊢
        cases result : h.server.deleteStream topic with
        | mk r s =>
          cases r with
          | ok _ => simp [result] at failed
          | error e => exact Server.deleteStream_failed result
    · rfl
  | setAvailable id up => exact congrArg Server.streams (updateMemory_server ..)
  | openConsumer id key proper =>
    simp only [perform]
    split
    · exact openConsumer_streams ..
    · rfl
  | closeConsumer c => exact closeConsumer_streams ..
  | dropConsumer c => exact dropConsumer_streams ..
  | next c now a => exact poll_streams ..
  | publish topic payload => exact congrArg Server.streams (sendAll_server ..)
  | endSubscription x =>
    simp only [perform, endSubscription]
    split <;> rfl
  | cut =>
    have ended := endAll_server (h.server.subscriptions.map (·.channel))
      { h with server := { h.server with subscriptions := [] } }
    exact (congrArg Server.streams ended).trans rfl
  | limit call n => rfl

/-- All that a step can do to a stream. -/
inductive StreamStep (h : Hub) (op : Operation) (name : String) : Option Stream → Prop
  | created {topic : String} {replicas : Nat} (creates : h.Creates op topic)
      (named : streamName topic = name) (free : h.stream? name = none) :
      StreamStep h op name (some ⟨[topic], replicas⟩)
  | deleted {topic : String} (deletes : h.Deletes op topic) (named : streamName topic = name) :
      StreamStep h op name none
  | kept : StreamStep h op name (h.stream? name)

theorem streamStep (h : Hub) (op : Operation) (name : String) :
    StreamStep h op name ((h.perform op).1.stream? name) := by
  by_cases creates : ∃ topic, h.Creates op topic
  · obtain ⟨topic, creates⟩ := creates
    obtain ⟨replicas, becomes⟩ := creates.stream?
    rw [becomes]
    have stays : StreamStep h op name (h.stream? name) := .kept
    by_cases mine : name = streamName topic
    · rw [if_pos mine]
      cases old : h.stream? name with
      | none => exact .created creates mine.symm old
      | some stream =>
        rw [old] at stays
        exact stays
    · rw [if_neg mine, Option.or_none]
      exact stays
  · by_cases deletes : ∃ topic, h.Deletes op topic
    · obtain ⟨topic, deletes⟩ := deletes
      rw [deletes.stream?]
      split
      · next mine => exact .deleted deletes mine.symm
      · exact .kept
    · have same := perform_streams fun topic =>
        ⟨fun c => creates ⟨topic, c⟩, fun d => deletes ⟨topic, d⟩⟩
      have : (h.perform op).1.stream? name = h.stream? name := by
        simp only [Hub.stream?, Server.stream?, same]
      exact this ▸ .kept

/-! ## Streams along a play -/

def CreatedIn (h : Hub) (ops : List Operation) (topic : String) : Prop :=
  ∃ before op since, ops = before ++ op :: since ∧ (h.after before).Creates op topic

def DeletedIn (h : Hub) (ops : List Operation) (topic : String) : Prop :=
  ∃ before op since, ops = before ++ op :: since ∧ (h.after before).Deletes op topic

variable {ops before since : List Operation}

theorem CreatedIn.append (created : h.CreatedIn ops topic) (more : List Operation) :
    h.CreatedIn (ops ++ more) topic := by
  obtain ⟨before, op, since, rfl, creates⟩ := created
  exact ⟨before, op, since ++ more, by simp, creates⟩

theorem DeletedIn.cons (deleted : (h.perform op).1.DeletedIn ops topic) :
    h.DeletedIn (op :: ops) topic := by
  obtain ⟨before, op', since, rfl, deletes⟩ := deleted
  exact ⟨op :: before, op', since, rfl, deletes⟩

theorem stream_lasts {stream : Stream} (there : h.stream? name = some stream)
    (spared : ∀ topic, h.DeletedIn ops topic → streamName topic ≠ name) :
    (h.after ops).stream? name = some stream := by
  induction ops generalizing h with
  | nil => exact there
  | cons op ops ih =>
    refine ih ?_ fun topic deleted => spared topic deleted.cons
    have step := streamStep h op name
    generalize (h.perform op).1.stream? name = after at step
    cases step with
    | created creates named free => simp [there] at free
    | deleted deletes named => exact absurd named (spared _ ⟨[], op, ops, rfl, deletes⟩)
    | kept => exact there

/-- A stream is there from the beginning, or it is for a topic of its name that was created. -/
theorem stream_origin {stream : Stream} (there : (h.after ops).stream? name = some stream) :
    h.stream? name = some stream ∨
      ∃ topic, stream.subjects = [topic] ∧ streamName topic = name ∧ h.CreatedIn ops topic := by
  induction ops using List.reverseRecOn with
  | nil => exact .inl there
  | append_singleton ops op ih =>
    rw [after_append, after_cons, after_nil] at there
    have step := streamStep (h.after ops) op name
    generalize ((h.after ops).perform op).1.stream? name = after at there step
    cases step with
    | @created topic replicas creates named free =>
      cases there
      exact .inr ⟨topic, rfl, named, ops, op, [], rfl, creates⟩
    | deleted => cases there
    | kept =>
      refine (ih there).imp_right ?_
      rintro ⟨topic, subjects, named, created⟩
      exact ⟨topic, subjects, named, created.append [op]⟩

/-- After a topic has been created there is a stream of its name, as long as no topic of that name
is deleted. It is for the topic itself, unless it was there at the beginning or another topic of its
name was created before. The deletion of a topic removes the stream of its name and no other one. -/
theorem stream_of_topic (creates : (h.after before).Creates op topic)
    (spared : ∀ other, (h.after (before ++ [op])).DeletedIn since other →
      streamName other ≠ streamName topic) :
    (∃ stream, (h.after (before ++ op :: since)).stream? (streamName topic) = some stream ∧
      (h.stream? (streamName topic) = some stream ∨
        ∃ first, stream.subjects = [first] ∧ streamName first = streamName topic ∧
          (first = topic ∨ h.CreatedIn before first))) ∧
    ∀ last other, (h.after (before ++ op :: since)).Deletes last other → ∀ name,
      (h.after (before ++ op :: since ++ [last])).stream? name =
        if name = streamName other then none
        else (h.after (before ++ op :: since)).stream? name := by
  constructor
  · have once : h.after (before ++ [op]) = ((h.after before).perform op).1 := by
      rw [after_append, after_cons, after_nil]
    obtain ⟨replicas, becomes⟩ := creates.stream?
    have ⟨stream, made, origin⟩ : ∃ stream,
        (h.after (before ++ [op])).stream? (streamName topic) = some stream ∧
        (h.stream? (streamName topic) = some stream ∨
          ∃ first, stream.subjects = [first] ∧ streamName first = streamName topic ∧
            (first = topic ∨ h.CreatedIn before first)) := by
      rw [once, becomes, if_pos rfl]
      cases old : (h.after before).stream? (streamName topic) with
      | none => exact ⟨_, rfl, .inr ⟨topic, rfl, rfl, .inl rfl⟩⟩
      | some stream =>
        refine ⟨stream, rfl, (stream_origin old).imp_right ?_⟩
        rintro ⟨first, subjects, named, created⟩
        exact ⟨first, subjects, named, .inr created⟩
    refine ⟨stream, ?_, origin⟩
    rw [List.append_cons, after_append]
    exact stream_lasts made spared
  · intro last other deletes name
    rw [after_append, after_cons, after_nil]
    exact deletes.stream? name

def unstreamed : Hub := { providers := [⟨"n", {}, .nats⟩] }

/-- The second topic has no stream of its own, and its deletion takes the first one's away. -/
theorem stream_of_two_topics :
    let create : Operation := .createTopic "n" "orders.created" 1
    let other : Operation := .createTopic "n" "orders_created" 1
    let delete : Operation := .deleteTopic "n" "orders_created"
    (unstreamed.Creates create "orders.created" ∧
      ∀ topic, ¬ (unstreamed.after [create]).DeletedIn [other] topic) ∧
    (∃ stream, (unstreamed.after [create, other]).stream? "ORDERS_CREATED" = some stream ∧
      stream.subjects = ["orders.created"]) ∧
    (unstreamed.after [create, other, delete]).stream? "ORDERS_CREATED" = none := by
  intro create other delete
  have named : streamName "orders.created" = "ORDERS_CREATED" := by decide
  have named' : streamName "orders_created" = "ORDERS_CREATED" := by decide
  have creates : unstreamed.Creates create "orders.created" :=
    ⟨"n", 1, ⟨"n", {}, .nats⟩, rfl, rfl, rfl, rfl⟩
  have spared : ∀ topic, ¬ (unstreamed.after [create]).DeletedIn [other] topic := by
    rintro topic ⟨before, op, since, split, id, p, rfl, -⟩
    have : Operation.deleteTopic id topic ∈ [other] := split ▸ by simp
    simp [other] at this
  have deletes : (unstreamed.after [create, other]).Deletes delete "orders_created" :=
    ⟨"n", ⟨"n", {}, .nats⟩, rfl, rfl, rfl, rfl⟩
  obtain ⟨⟨stream, there, origin⟩, gone⟩ := @stream_of_topic unstreamed "orders.created" create []
    [other] creates fun topic deleted => absurd deleted (spared topic)
  rw [named] at there origin
  refine ⟨⟨creates, spared⟩, ⟨stream, there, ?_⟩, ?_⟩
  · rcases origin with old | ⟨first, subjects, -, rfl | ⟨before, op, since, split, -⟩⟩
    · cases old
    · exact subjects
    · simp at split
  · exact (gone delete "orders_created" deletes "ORDERS_CREATED").trans (if_pos named'.symm)

end Hub

end SubscriptionGateway.Broker
