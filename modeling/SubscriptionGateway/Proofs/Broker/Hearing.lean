import SubscriptionGateway.Proofs.Broker.Coverage

/-!
What a consumer may come to hear. A message enters a queue only on a channel with an outlet for a
topic that the message fits, and such a channel serves a topic of the consumer's own key. So every
event of a consumer fits a topic of its key, on whatever broker, and whoever sent it.
-/
namespace SubscriptionGateway.Broker

theorem Line.take_message_queue {l l' : Line} {m : Message} (fit : l.Fit)
    (taken : l.take = .message m l') : (∃ r ∈ l.receivers, m ∈ r.queue) ∧
      ∀ r' ∈ l'.receivers, ∀ x ∈ r'.queue, ∃ r ∈ l.receivers, x ∈ r.queue := by
  obtain ⟨r, q, others, leaves, head, perm, -⟩ := Line.take_message fit taken
  have came : ∀ s ∈ r :: others, ∃ s' ∈ l.receivers, s'.queue = s.queue := fun s member => by
    obtain ⟨s', there, same⟩ := leaves.mem_before member
    exact ⟨s', there, Receiver.queue_of_bare same⟩
  obtain ⟨first, there, same⟩ := came r (List.mem_cons_self ..)
  refine ⟨⟨first, there, by simp [same, head]⟩, fun r' member x queued => ?_⟩
  rcases List.mem_cons.mp (perm.mem_iff.mp member) with rfl | member
  · exact ⟨first, there, by simp [same, head, queued]⟩
  · obtain ⟨s, known, same⟩ := came r' (List.mem_cons_of_mem _ member)
    exact ⟨s, known, same ▸ queued⟩

namespace Hub

variable {h h' h₁ : Hub} {c : ConsumerId} {k : Consumer} {m : Message} {provider : String}
  {key : SourceKey}

def Queued (h : Hub) (c : ConsumerId) (m : Message) : Prop := ∃ r, h.Holds c r ∧ m ∈ r.queue

/-- A consumer has a receiver on a channel that is there for a message. -/
def Reaches (h : Hub) (c : ConsumerId) (m : Message) : Prop :=
  ∃ r o t, h.Holds c r ∧ h.Outlet o t r.channel ∧ TopicMatches o t m.topic

/-- What is new to a consumer is what reached it. -/
def News (c : ConsumerId) (h h' : Hub) : Prop :=
  ∀ m, h'.Queued c m → h.Queued c m ∨ h.Reaches c m

theorem queued_same (same : h'.consumers[c]? = h.consumers[c]?) : h'.Queued c m ↔ h.Queued c m := by
  simp only [Queued, Holds, same]

theorem News.of_same (same : h'.consumers[c]? = h.consumers[c]?) : News c h h' :=
  fun _ queued => .inl ((queued_same same).mp queued)

theorem News.of_map {f : Receiver → Receiver}
    (consumers : h'.consumers = h.consumers.map (Consumer.map f))
    (new : ∀ r, h.Holds c r → ∀ m ∈ (f r).queue, m ∈ r.queue ∨
      ∃ o t, h.Outlet o t r.channel ∧ TopicMatches o t m.topic) : News c h h' := by
  rintro m ⟨_, after, queued⟩
  obtain ⟨r, holds, rfl⟩ := (holds_map consumers).mp after
  refine (new r holds m queued).imp (fun old => ⟨r, holds, old⟩) ?_
  rintro ⟨o, t, there, fits⟩
  exact ⟨r, o, t, holds, there, fits⟩

theorem Sends.queue {reach : ChannelId → Prop} {f : Receiver → Receiver} (sends : Sends m reach f)
    {r : Receiver} {x : Message} (queued : x ∈ (f r).queue) :
    x ∈ r.queue ∨ x = m ∧ reach r.channel := by
  by_cases reached : reach r.channel
  · exact (sends.only r x queued).imp_right fun new => ⟨new, reached⟩
  · exact .inl (sends.confined r reached ▸ queued)

theorem Sends.news {topic : String} {payload : List UInt8} {f : Receiver → Receiver}
    (sends : Sends ⟨topic, payload⟩ (h.Published topic) f)
    (consumers : h'.consumers = h.consumers.map (Consumer.map f)) : News c h h' := by
  refine .of_map consumers fun r _ m queued => (sends.queue queued).imp_right ?_
  rintro ⟨rfl, t, there, fits⟩
  exact ⟨none, t, there, fits⟩

theorem endAll_queued (channels : List ChannelId) (h : Hub) :
    (channels.foldl endChannel h).Queued c m ↔ h.Queued c m := by
  induction channels generalizing h with
  | nil => exact .rfl
  | cons channel channels ih =>
    refine (ih _).trans ?_
    have touched : (h.endChannel channel).consumers = h.consumers.map
        (Consumer.map (Receiver.onChannel channel (Receiver.finish h.stamp))) := rfl
    have same : ∀ r, (Receiver.onChannel channel (Receiver.finish h.stamp) r).queue = r.queue := by
      intro r
      unfold Receiver.onChannel
      split <;> rfl
    constructor
    · rintro ⟨_, after, queued⟩
      obtain ⟨r, holds, rfl⟩ := (holds_map touched).mp after
      exact ⟨r, holds, same r ▸ queued⟩
    · rintro ⟨r, holds, queued⟩
      exact ⟨_, (holds_map touched).mpr ⟨r, holds, rfl⟩, (same r).symm ▸ queued⟩

theorem Deed.no_news {gone : ChannelId → Prop} {f : Receiver → Receiver} (deed : Deed gone f h h')
    (same : ∀ r, (f r).queue = r.queue) : News c h h' :=
  .of_map deed.consumers fun r _ _ queued => .inl (same r ▸ queued)

theorem produce_nats_consumers {p : Provider} (kind : p.kind = .nats) (topic : String)
    (payload : List UInt8) : ∃ s : Server, s.subscriptions = h.server.subscriptions ∧
      ((h.produce p topic payload).2.consumers = h.consumers ∨
        (h.produce p topic payload).2.consumers =
          (({ h with server := s } : Hub).publish topic payload).consumers) := by
  refine ⟨(h.server.grant .publish).2, grant_subscriptions _ _, ?_⟩
  unfold produce
  simp only [kind]
  generalize h.server.grant .publish = granted
  obtain ⟨_ | _, s⟩ := granted
  · exact .inl rfl
  · refine .inr ?_
    dsimp only
    split <;> rfl

theorem produce_news (sound : h.Sound) {p : Provider} (known : h.provider? p.id = some p)
    (topic : String) (payload : List UInt8) : News c h (h.produce p topic payload).2 := by
  cases kind : p.kind with
  | memory b =>
    by_cases up : b.available = true
    · obtain ⟨ch, stamp, -, deed, outlet, -⟩ :=
        produce_memory_deed sound.toOrderly known kind up topic payload
      have room : ∀ n, some topicWindow = some n → 0 < n := fun n same => by cases same; decide
      have sends := push_sends room stamp ⟨topic, payload⟩ ch
      refine .of_map deed.consumers fun r holds m queued => (sends.queue queued).imp_right ?_
      rintro ⟨rfl, mine⟩
      obtain ⟨k, l, there, line, member⟩ := holds
      have made := (sound.lines there line).made r member
      exact ⟨some p.id, topic, ((deed.rewired.old made).mp (mine.symm ▸ outlet)).1, rfl⟩
    · have refused : (h.produce p topic payload).2 = h := by simp [produce, kind, up]
      rw [refused]
      exact .of_same rfl
  | nats =>
    obtain ⟨s, subscribed, quiet | published⟩ := produce_nats_consumers (h := h) kind topic payload
    · exact .of_same (by rw [quiet])
    · obtain ⟨f, deed, sends⟩ := publish_deed { h with server := s } topic payload
      have reach : Hub.Published { h with server := s } topic = h.Published topic := by
        funext ch
        simp only [Published, Outlet, subscribed]
      rw [reach] at sends
      exact sends.news (published.trans deed.consumers)

theorem next_news {c' : ConsumerId} (sound : h.Sound) (other : c ≠ c') (now : Nat) (a : Awaiting) :
    News c h (h.poll now c' a).2 :=
  .of_same ((poll_sound sound now c' a).2.others c other)

theorem Closing.news {c' : ConsumerId} (closing : Closing c' h h') : News c h h' := by
  by_cases mine : c = c'
  · subst mine
    rintro m ⟨r, holds, -⟩
    exact absurd holds (closing.nobody r)
  · exact .of_same (closing.aside.others c mine)

/-- What any operation brings a consumer reached it, if the consumer is there. -/
theorem perform_news (sound : h.Sound) (keyed : h.Keyed c provider key) {op : Operation}
    (other : ∀ now a, op ≠ .next c now a) : News c h (h.perform op).1 := by
  cases op with
  | produce id topic payload =>
    simp only [perform]
    split
    · next p known =>
      cases provider?_id known
      exact produce_news sound known topic payload
    · exact .of_same rfl
  | createTopic id topic replication =>
    simp only [perform]
    split
    · next p known =>
      cases provider?_id known
      exact (createTopic_deed sound.toOrderly known topic replication).no_news fun _ => rfl
    · exact .of_same rfl
  | deleteTopic id topic =>
    simp only [perform]
    split
    · next p known =>
      cases provider?_id known
      rcases deleteTopic_deed sound.toOrderly known topic with ⟨-, same⟩ | ⟨ch, -, deed⟩
      · exact .of_same (by rw [same])
      · refine deed.no_news fun r => ?_
        unfold Receiver.onChannel
        split <;> rfl
    · exact .of_same rfl
  | setAvailable id up => exact (setAvailable_deed h id up).no_news fun _ => rfl
  | openConsumer id key proper =>
    simp only [perform]
    split
    · next p known =>
      cases provider?_id known
      have apart : c ≠ h.consumers.length := by
        rintro rfl
        obtain ⟨k, there, -⟩ := keyed
        simp at there
      exact .of_same ((openConsumer_opening sound known proper).only.others c apart)
    · exact .of_same rfl
  | closeConsumer c' => exact (closeConsumer_closing sound c').news
  | dropConsumer c' => exact (dropConsumer_closing sound c').news
  | next c' now a =>
    refine next_news sound ?_ now a
    rintro rfl
    exact other now a rfl
  | publish topic payload =>
    obtain ⟨f, deed, sends⟩ := publish_deed h topic payload
    exact sends.news deed.consumers
  | endSubscription s =>
    by_cases there : s ∈ h.server.subscriptions
    · refine (endSubscription_deed sound.toOrderly there).no_news fun r => ?_
      unfold Receiver.onChannel
      split <;> rfl
    · have same : (h.perform (.endSubscription s)).1 = h := by
        simp only [perform, endSubscription, there, if_false]
      exact .of_same (by rw [same])
  | cut =>
    refine fun m queued => .inl ?_
    exact (endAll_queued _ { h with server := { h.server with subscriptions := [] } }).mp queued
  | limit call n => exact .of_same rfl

/-! ## A call for the next event -/

theorem Listened.queued (sound : h.Sound) (known : h.consumers[c]? = some k) {r : Heard × Hub}
    (heard : Listened h c k r) :
    (∀ m, r.2.Queued c m → h.Queued c m) ∧
      ∀ e, r.1 = .settled (.event e) → e.key = k.key ∧ ∃ m, h.Queued c m ∧ m.topic = e.topic := by
  have own : ∀ {l : Line} {m : Message}, k.line = some l → (∃ r ∈ l.receivers, m ∈ r.queue) →
      h.Queued c m := by
    rintro l m line ⟨r, member, queued⟩
    exact ⟨r, ⟨k, l, known, line, member⟩, queued⟩
  have left : ∀ {k' : Consumer} {m : Message}, (h.setConsumer c k').Queued c m →
      ∃ l', k'.line = some l' ∧ ∃ r ∈ l'.receivers, m ∈ r.queue := by
    rintro k' m ⟨r, ⟨k₁, l', known', line, member⟩, queued⟩
    cases (setConsumer_self known k').symm.trans known'
    exact ⟨l', line, r, member, queued⟩
  cases heard with
  | message line taken =>
    obtain ⟨given, kept⟩ := Line.take_message_queue (sound.lines known line).fit taken
    refine ⟨fun m queued => ?_, fun e same => ?_⟩
    · obtain ⟨l', same, r, member, queued⟩ := left queued
      cases same
      exact own line (kept r member m queued)
    · cases same
      exact ⟨rfl, _, own line given, rfl⟩
  | waiting line taken =>
    obtain ⟨-, idle, -⟩ := Line.take_waiting (sound.lines known line).fit taken
    refine ⟨fun m queued => ?_, by simp⟩
    obtain ⟨l', same, r, member, queued⟩ := left queued
    cases same
    simp [(idle r member).1] at queued
  | ended line taken =>
    refine ⟨fun m queued => ?_, by simp⟩
    obtain ⟨l', same, r, member, -⟩ := left queued
    cases same
    simp [Line.receivers] at member
  | none => exact ⟨fun _ => id, by simp⟩
  | down => exact ⟨fun _ => id, by simp⟩
  | lost line taken =>
    refine ⟨fun m queued => ?_, by simp⟩
    obtain ⟨l', same, -⟩ := left queued
    cases same
  | unsubscribed => exact ⟨fun _ => id, by simp⟩

/-- A consumer whose queues hold nothing but what fits its key. -/
structure Apt (c : ConsumerId) (provider : String) (key : SourceKey) (o : Option String)
    (h : Hub) : Prop where
  sound : h.Sound
  keyed : h.Keyed c provider key
  home : h.home provider = o
  fits : ∀ m, h.Queued c m → ∃ t ∈ key.topics, TopicMatches o t m.topic

variable {o : Option String}

theorem Apt.reached (apt : Apt c provider key o h) (reaches : h.Reaches c m) :
    ∃ t ∈ key.topics, TopicMatches o t m.topic := by
  obtain ⟨r, o', t, ⟨k, l, known, line, member⟩, there, fits⟩ := reaches
  obtain ⟨k', known', named, same⟩ := apt.keyed
  cases known.symm.trans known'
  have held := apt.sound.lines known line
  obtain ⟨t', mine, there'⟩ := held.live r member (held.not_ended member there)
  obtain ⟨rfl, rfl⟩ := apt.sound.owner there there'
  rw [named, apt.home] at fits
  exact ⟨t, same ▸ mine, fits⟩

theorem Apt.onward (apt : Apt c provider key o h) (sound : h'.Sound)
    (keyed : h'.Keyed c provider key) (homes : h'.home provider = h.home provider)
    (news : News c h h') : Apt c provider key o h' where
  sound := sound
  keyed := keyed
  home := homes.trans apt.home
  fits m queued := (news m queued).elim (apt.fits m) apt.reached

theorem renew_queued (sound : h.Sound) (queued : (h.renew c).Queued c m) : h.Queued c m := by
  obtain ⟨-, -, renewed⟩ := renew_spec sound c
  cases renewed with
  | same consumers => exact (queued_same (by rw [consumers])).mp queued
  | attuned known server opened known' line attuned =>
    obtain ⟨r, ⟨k', l, known₁, line', member⟩, queued⟩ := queued
    cases known'.symm.trans known₁
    obtain ⟨chs, made, -⟩ := attuned
    cases made.symm.trans line'
    rw [(mem_fresh member).2] at queued
    simp [fresh] at queued

theorem poll_apt (apt : Apt c provider key o h) (now : Nat) (a : Awaiting) :
    PollSettles (Apt c provider key o) c (h.poll now c a) := by
  refine poll_settled ?_ ?_ ?_ apt
  · rintro h₁ k apt known - h₂ heard
    have heard : Listened h₁ c k (.lost, h₂) := heard ▸ listened h₁ c k
    obtain ⟨sound, only⟩ := listen_sound apt.sound known heard
    exact apt.onward sound (apt.keyed.listened known heard) (only.rewired.home provider)
      fun m queued => .inl ((heard.queued apt.sound known).1 m queued)
  · rintro h₁ k b apt known
    obtain ⟨k', known', same⟩ := apt.keyed
    cases known.symm.trans known'
    refine apt.onward (count_sound apt.sound known b) ⟨_, setConsumer_self known _, same⟩
      ((setConsumer_only c _ h₁).rewired.home provider) fun m queued => .inl ?_
    obtain ⟨r, ⟨k', l, known', line, member⟩, queued⟩ := queued
    cases (setConsumer_self known _).symm.trans known'
    exact ⟨r, ⟨k, l, known, line, member⟩, queued⟩
  · rintro h₁ apt
    obtain ⟨sound, only, -⟩ := renew_spec apt.sound c
    exact apt.onward sound (renew_unmoved apt.sound apt.keyed).1 (only.rewired.home provider)
      fun m queued => .inl (renew_queued apt.sound queued)

theorem Apt.poll (apt : Apt c provider key o h) (now : Nat) (a : Awaiting) :
    Apt c provider key o (h.poll now c a).2 ∧
      ∀ e, (h.poll now c a).1 = .event e →
        e.key = key ∧ ∃ t ∈ key.topics, TopicMatches o t e.topic := by
  rcases poll_apt apt now a with ⟨after, unheard⟩ | ⟨h₁, k, before, known, -, heard⟩
  · refine ⟨after, fun e given => ?_⟩
    rw [given] at unheard
    cases unheard
  · have heard : Listened h₁ c k (.settled _, _) := heard ▸ listened h₁ c k
    obtain ⟨sound, only⟩ := listen_sound before.sound known heard
    obtain ⟨kept, given⟩ := heard.queued before.sound known
    refine ⟨before.onward sound (before.keyed.listened known heard)
      (only.rewired.home provider) fun m queued => .inl (kept m queued), fun e event => ?_⟩
    obtain ⟨same, m, queued, topic⟩ := given e (by rw [event])
    obtain ⟨k', known', -, own⟩ := before.keyed
    cases known.symm.trans known'
    exact ⟨same.trans own, topic ▸ before.fits m queued⟩

/-! ## Along a play -/

theorem perform_home (sound : h.Sound) (op : Operation) (provider : String) :
    (h.perform op).1.home provider = h.home provider := by
  have step := performed sound op
  generalize h.perform op = r at step
  cases step with
  | produced memory deed => exact deed.rewired.home provider
  | quiet deed => exact deed.rewired.home provider
  | ended one there deletes deed => exact deed.rewired.home provider
  | cut deed => exact deed.rewired.home provider
  | opened opening => exact opening.only.rewired.home provider
  | closed closes closing => exact closing.aside.rewired.home provider
  | next => exact (poll_sound sound _ _ _).2.rewired.home provider

theorem polled_next {op : Operation} {p : Polled} (told : .polled c p ∈ (h.perform op).2) :
    ∃ now a, op = .next c now a ∧ (h.poll now c a).1 = p := by
  unfold perform at told
  cases op with
  | next c' now a =>
    obtain ⟨rfl, rfl⟩ : c = c' ∧ p = (h.poll now c' a).1 := by simpa using told
    exact ⟨now, a, rfl, rfl⟩
  | produce | openConsumer =>
    dsimp only at told
    split at told <;> simp at told
  | createTopic | deleteTopic =>
    dsimp only at told
    split at told <;> simp at told
  | _ => simp at told

theorem Apt.perform (apt : Apt c provider key o h) (op : Operation) :
    Apt c provider key o (h.perform op).1 ∧
      ∀ e, .polled c (.event e) ∈ (h.perform op).2 →
        e.key = key ∧ ∃ t ∈ key.topics, TopicMatches o t e.topic := by
  constructor
  · by_cases mine : ∃ now a, op = .next c now a
    · obtain ⟨now, a, rfl⟩ := mine
      exact (apt.poll now a).1
    · exact apt.onward (perform_sound apt.sound op) (perform_covers apt.sound apt.keyed op).1
        (perform_home apt.sound op provider)
        (perform_news apt.sound apt.keyed fun now a same => mine ⟨now, a, same⟩)
  · intro e told
    obtain ⟨now, a, -, event⟩ := polled_next told
    exact (apt.poll now a).2 e event

theorem Apt.log (apt : Apt c provider key o h) {ops : List Operation} {e : BrokerEvent}
    (told : .polled c (.event e) ∈ h.log ops) :
    e.key = key ∧ ∃ t ∈ key.topics, TopicMatches o t e.topic := by
  induction ops generalizing h with
  | nil => cases told
  | cons op ops ih =>
    obtain ⟨after, now⟩ := apt.perform op
    exact (List.mem_append.mp told).elim (now e) (ih after)

theorem Opened.apt (opened : h.Opened c provider key) :
    Apt c provider key (h.home provider) h := by
  obtain ⟨sound, k, known, named, same, -, chs, line, -⟩ := opened.consumer
  refine ⟨sound, ⟨k, known, named, same⟩, rfl, ?_⟩
  rintro m ⟨r, ⟨k', l, known', line', member⟩, queued⟩
  cases known.symm.trans known'
  cases line.symm.trans line'
  rw [(mem_fresh member).2] at queued
  simp [fresh] at queued

theorem events_fit (opened : h.Opened c provider key) {ops : List Operation} {e : BrokerEvent}
    (told : .polled c (.event e) ∈ h.log ops) :
    e.key = key ∧ ∃ t ∈ key.topics, TopicMatches (h.home provider) t e.topic :=
  opened.apt.log told

end Hub

end SubscriptionGateway.Broker
