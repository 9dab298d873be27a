import SubscriptionGateway.Proofs.Broker.Holdings

/-!
What each operation does to outlets and receivers: which channels lose their outlet, which receivers
are touched, and what they get.
-/
namespace SubscriptionGateway.Broker

namespace Hub

variable {h h' h₁ : Hub} {gone : ChannelId → Prop} {f f' : Receiver → Receiver}

/-- Only receivers on some channels are touched. -/
def Confined (reach : ChannelId → Prop) (f : Receiver → Receiver) : Prop :=
  ∀ r, ¬ reach r.channel → f r = r

/-- The receivers on some channels get a message, and nobody gets another one. -/
structure Sends (m : Message) (reach : ChannelId → Prop) (f : Receiver → Receiver) : Prop where
  confined : Confined reach f
  only : ∀ r, ∀ x ∈ (f r).queue, x ∈ r.queue ∨ x = m
  heard : ∀ r, reach r.channel → (f r).queue ≠ []

theorem Deed.iff (deed : Deed gone f h h') {gone' : ChannelId → Prop}
    (same : ∀ ch, gone ch ↔ gone' ch) : Deed gone' f h h' where
  rewired := ⟨deed.rewired.homes, deed.rewired.grows, fun known => by
    rw [deed.rewired.old known, same]⟩
  orderly := deed.orderly
  touch := deed.touch.iff same
  consumers := deed.consumers

theorem Deed.then_send (deed : Deed (fun _ => False) f h h₁)
    (next : Deed (fun _ => False) f' h₁ h') : Deed (fun _ => False) (f' ∘ f) h h' :=
  (deed.trans next).iff fun _ => or_self_iff

/-! ## Sending -/

theorem send_deed (w : Option Nat) (ch : ChannelId) (m : Message) (h : Hub) :
    Deed (fun _ => False) (Receiver.onChannel ch (Receiver.push w h.stamp m)) h
      (h.send w ch m) where
  rewired := (sameOutlets_send w ch m h).steady
  orderly := (sameOutlets_send w ch m h).orderly
  touch := .push w h.stamp m ch
  consumers := rfl

theorem push_sends {w : Option Nat} (room : ∀ n, w = some n → 0 < n) (stamp : Nat) (m : Message)
    (ch : ChannelId) : Sends m (· = ch) (Receiver.onChannel ch (Receiver.push w stamp m)) where
  confined r other := Receiver.onChannel_ne other _
  only r x member := by
    by_cases mine : r.channel = ch
    · rw [Receiver.onChannel_eq mine] at member
      simpa using List.mem_of_mem_drop member
    · exact .inl (Receiver.onChannel_ne mine _ ▸ member)
  heard r mine := by
    rw [Receiver.onChannel_eq mine]
    cases w with
    | none => simp [Receiver.push]
    | some n =>
      have := room n rfl
      simp [Receiver.push, List.drop_eq_nil_iff]
      omega

theorem sendAll_deed (m : Message) (chs : List ChannelId) (h : Hub) :
    ∃ f, Deed (fun _ => False) f h (chs.foldl (fun h c => h.send none c m) h) ∧
      Sends m (· ∈ chs) f := by
  induction chs generalizing h with
  | nil =>
    exact ⟨id, .of_same (.refl h) rfl, fun _ _ => rfl, fun _ _ => .inl, fun _ member => by
      cases member⟩
  | cons ch chs ih =>
    obtain ⟨f, deed, sends⟩ := ih (h.send none ch m)
    have first := push_sends (w := none) (by simp) h.stamp m ch
    have push := send_deed none ch m h
    refine ⟨_, push.then_send deed, fun r other => ?_, fun r x member => ?_, fun r member => ?_⟩
    · rw [List.mem_cons, not_or] at other
      rw [Function.comp_apply, first.confined r other.1]
      exact sends.confined r other.2
    · exact (sends.only _ x member).elim (first.only r x) .inr
    · by_cases again : r.channel ∈ chs
      · exact sends.heard _ ((push.touch.channel r).symm ▸ again)
      · rw [Function.comp_apply, sends.confined _ (by rwa [push.touch.channel])]
        exact first.heard r ((List.mem_cons.mp member).resolve_right again)

theorem mem_audience {s : Server} {topic : String} {ch : ChannelId} :
    ch ∈ s.audience topic ↔ ∃ t, ⟨ch, t⟩ ∈ s.subscriptions ∧ subjectMatches t topic = true := by
  simp only [Server.audience, List.mem_map, List.mem_filter]
  constructor
  · rintro ⟨⟨ch', t⟩, ⟨member, fits⟩, rfl⟩
    exact ⟨t, member, fits⟩
  · rintro ⟨t, member, fits⟩
    exact ⟨⟨ch, t⟩, ⟨member, fits⟩, rfl⟩

def Published (h : Hub) (topic : String) (ch : ChannelId) : Prop :=
  ∃ t, h.Outlet none t ch ∧ subjectMatches t topic = true

theorem publish_deed (h : Hub) (topic : String) (payload : List UInt8) :
    ∃ f, Deed (fun _ => False) f h (h.publish topic payload) ∧
      Sends ⟨topic, payload⟩ (h.Published topic) f := by
  obtain ⟨f, deed, sends⟩ := sendAll_deed ⟨topic, payload⟩ (h.server.audience topic) h
  exact ⟨f, deed, fun r other => sends.confined r (mem_audience.not.mpr other), sends.only,
    fun r mine => sends.heard r (mem_audience.mpr mine)⟩

theorem sameOutlets_server {s : Server} (same : s.subscriptions = h.server.subscriptions) :
    SameOutlets h { h with server := s } := .of_eq rfl same rfl

theorem produce_nats_deed {p : Provider} (kind : p.kind = .nats) (topic : String)
    (payload : List UInt8) :
    ∃ f, Deed (fun _ => False) f h (h.produce p topic payload).2 ∧
      Confined (h.Published topic) f ∧
      ((h.produce p topic payload).1 = .ok () → Sends ⟨topic, payload⟩ (h.Published topic) f) := by
  have publish := grant_subscriptions h.server .publish
  cases first : h.server.grant .publish with
  | mk granted s =>
    rw [first] at publish
    have quiet : Deed (fun _ => False) id h { h with server := s } :=
      .of_same (sameOutlets_server publish) rfl
    cases granted with
    | false =>
      simp only [produce, kind, first]
      exact ⟨id, quiet, fun _ _ => rfl, nofun⟩
    | true =>
      simp only [produce, kind, first]
      obtain ⟨f, deed, sends⟩ := sendAll_deed ⟨topic, payload⟩ (s.audience topic)
        { h with server := s }
      have heard : ∀ ch, ch ∈ s.audience topic ↔ h.Published topic ch := fun ch => by
        rw [mem_audience, publish]
        rfl
      have sends : Sends ⟨topic, payload⟩ (h.Published topic) f :=
        ⟨fun r other => sends.confined r ((heard _).not.mpr other), sends.only,
          fun r mine => sends.heard r ((heard _).mpr mine)⟩
      generalize (s.audience topic).foldl _ _ = h₁ at deed ⊢
      have flush := grant_subscriptions h₁.server .flush
      cases second : h₁.server.grant .flush with
      | mk granted s' =>
        rw [second] at flush
        have quiet' : Deed (fun _ => False) id h₁ { h₁ with server := s' } :=
          .of_same (sameOutlets_server flush) rfl
        have all := (quiet.then_send deed).then_send quiet'
        cases granted with
        | true => exact ⟨f, by simpa only [second, Function.id_comp, Function.comp_id] using all,
            sends.confined, fun _ => sends⟩
        | false =>
          refine ⟨f, by simpa only [second, Function.id_comp, Function.comp_id] using all,
            sends.confined, fun done => ?_⟩
          simp at done

theorem produce_memory_deed (orderly : h.Orderly) {p : Provider} {b : MemoryBroker}
    (known : h.provider? p.id = some p) (kind : p.kind = .memory b) (up : b.available = true)
    (topic : String) (payload : List UInt8) :
    ∃ ch stamp, (h.produce p topic payload).1 = .ok () ∧
      Deed (fun _ => False)
        (Receiver.onChannel ch (Receiver.push (some topicWindow) stamp ⟨topic, payload⟩))
        h (h.produce p topic payload).2 ∧
      (h.produce p topic payload).2.Outlet (some p.id) topic ch ∧
      ∀ id, ((h.produce p topic payload).2.memory? id).map (·.available) =
        (h.memory? id).map (·.available) := by
  have isMemory : h.memory? p.id = some b := by simp [memory?, known, kind]
  have found := topicChannel_found orderly isMemory topic
  simp only [produce, kind, up, Bool.not_true, Bool.false_eq_true, if_false]
  generalize h.topicChannel p.id b topic = r at found
  obtain ⟨ch, h₁⟩ := r
  have counted :=
    sameOutlets_updateMemory p.id (f := fun b => { b with produced := b.produced + 1 })
    (fun _ => rfl) h₁
  have consumers := updateMemory_consumers h₁ p.id fun b => { b with produced := b.produced + 1 }
  have available := available_updateMemory p.id
    (f := fun b => { b with produced := b.produced + 1 }) (fun _ => rfl) h₁
  generalize h₁.updateMemory p.id _ = h₂ at counted consumers available
  have ready : Deed (fun _ => False) id h h₂ := .of_steady (found.steady.trans counted.steady)
    (fun _ => counted.orderly found.orderly) (consumers.trans found.consumers)
  refine ⟨ch, h₂.stamp, trivial, ready.then_send (send_deed _ ch _ h₂), ?_, fun id => ?_⟩
  · exact (sameOutlets_send _ _ _ h₂).outlet.mpr (counted.outlet.mpr found.outlet)
  · exact (available id).trans (found.available id)

/-! ## Endings -/

theorem Orderly.without (orderly : h.Orderly) {o : Option String} {t : String} {ch : ChannelId}
    (there : h.Outlet o t ch) {o' : Option String} {t' : String} {ch' : ChannelId} :
    h.Outlet o' t' ch' ∧ ch' ≠ ch ↔ h.Outlet o' t' ch' ∧ ¬ (o' = o ∧ t' = t ∧ ch' = ch) := by
  refine and_congr_right fun known => not_congr ⟨fun same => ?_, fun same => same.2.2⟩
  obtain ⟨owner, topic⟩ := orderly.owner (same ▸ known) there
  exact ⟨owner, topic, same⟩

theorem endSubscription_deed (orderly : h.Orderly) {s : Subscribed}
    (there : s ∈ h.server.subscriptions) :
    Deed (· = s.channel) (Receiver.onChannel s.channel (Receiver.finish h.stamp)) h
      (h.endSubscription s) := by
  have outlet : ∀ {o t ch}, (h.endSubscription s).Outlet o t ch ↔
      h.Outlet o t ch ∧ ch ≠ s.channel := by
    intro o t ch
    rw [Hub.endSubscription, if_pos there]
    cases o with
    | none => simp [Outlet, endChannel, onReceivers, Server.unsubscribe]
    | some id =>
      refine Iff.trans (b := h.Outlet (some id) t ch) Iff.rfl ⟨fun known => ⟨known, ?_⟩, And.left⟩
      rintro rfl
      have here : h.Outlet none s.subject s.channel := there
      exact absurd (orderly.owner here known).1 (by simp)
  have grows : h.channels ≤ (h.endSubscription s).channels := by
    rw [Hub.endSubscription, if_pos there]
    exact Nat.le_refl _
  refine ⟨⟨fun id => ?_, grows, fun _ => outlet⟩,
    fun orderly => orderly.mono grows fun known => (outlet.mp known).1, .finish _ _, ?_⟩
  · rw [Hub.endSubscription, if_pos there]
    rfl
  · rw [Hub.endSubscription, if_pos there]
    rfl

theorem forgets_deed (orderly : h.Orderly) {id topic : String} {b : MemoryBroker} {ch : ChannelId}
    (memory : h.memory? id = some b) (there : h.Outlet (some id) topic ch) :
    Deed (· = ch) (Receiver.onChannel ch (Receiver.finish h.stamp)) h
      ((h.setMemory id { b with topics := b.topics.filter (·.1 != topic) }).endChannel ch) := by
  have isSome : (h.memory? id).isSome := by simp [memory]
  have outlet : ∀ {o t ch'}, ((h.setMemory id
      { b with topics := b.topics.filter (·.1 != topic) }).endChannel ch).Outlet o t ch' ↔
      h.Outlet o t ch' ∧ ch' ≠ ch := by
    intro o t ch'
    rw [(sameOutlets_endChannel ch _).outlet, outlet_setMemory isSome, orderly.without there]
    by_cases mine : o = some id
    · subst mine
      simp only [if_true, List.mem_filter, bne_iff_ne, ne_eq, Outlet, memory, Option.some.injEq,
        exists_eq_left', true_and]
      refine and_congr_right fun member => not_congr ⟨fun same => ⟨same, ?_⟩, And.left⟩
      exact orderly.single (t := t) ⟨b, memory, member⟩ (same ▸ there)
    · simp [mine]
  exact ⟨⟨homes_setMemory isSome _, Nat.le_refl _, fun _ => outlet⟩,
    fun orderly => orderly.mono (Nat.le_refl _) fun known => (outlet.mp known).1, .finish _ _, rfl⟩

theorem deleteTopic_deed (orderly : h.Orderly) {p : Provider} (known : h.provider? p.id = some p)
    (topic : String) :
    SameOutlets h (h.deleteTopic p topic).2 ∧ (h.deleteTopic p topic).2.consumers = h.consumers ∨
    ∃ ch, h.Outlet (some p.id) topic ch ∧
      Deed (· = ch) (Receiver.onChannel ch (Receiver.finish h.stamp)) h
        (h.deleteTopic p topic).2 := by
  unfold Hub.deleteTopic
  split
  · rename_i b kind
    split
    · exact .inl ⟨.refl h, rfl⟩
    · split
      · exact .inl ⟨.refl h, rfl⟩
      · rename_i up name ch found
        have named : name = topic := by simpa using List.find?_some found
        subst named
        have memory : h.memory? p.id = some b := by simp [memory?, known, kind]
        have there : h.Outlet (some p.id) name ch := ⟨b, memory, List.mem_of_find?_eq_some found⟩
        exact .inr ⟨ch, there, forgets_deed orderly memory there⟩
  · have subscriptions :
      (h.server.deleteStream topic).2.subscriptions = h.server.subscriptions := by
      unfold Server.deleteStream
      have granted := grant_subscriptions h.server .deleteStream
      generalize h.server.grant .deleteStream = r at granted
      obtain ⟨done, s⟩ := r
      by_cases there : h.server.streams.any (·.1 == streamName topic)
      · cases done <;> simpa [there] using granted
      · simp [there]
    exact .inl ⟨sameOutlets_server subscriptions, rfl⟩

theorem endAll_deed (chs : List ChannelId) (h : Hub) :
    ∃ f, Touch (· ∈ chs) f ∧ Confined (· ∈ chs) f ∧
      (chs.foldl endChannel h).consumers = h.consumers.map (Consumer.map f) := by
  induction chs generalizing h with
  | nil => exact ⟨id, Touch.id.iff (by simp), fun _ _ => rfl, (consumers_map_id _).symm⟩
  | cons ch chs ih =>
    obtain ⟨f, touch, confined, consumers⟩ := ih (h.endChannel ch)
    have first : Touch (· = ch) (Receiver.onChannel ch (Receiver.finish h.stamp)) := .finish _ _
    refine ⟨_, (touch.comp first).iff (by simp), fun r other => ?_, ?_⟩
    · simp only [List.mem_cons, not_or] at other
      rw [Function.comp_apply, Receiver.onChannel_ne other.1]
      exact confined r other.2
    · have once : (h.endChannel ch).consumers = h.consumers.map
          (Consumer.map (Receiver.onChannel ch (Receiver.finish h.stamp))) := rfl
      rw [List.foldl_cons, consumers, once, List.map_map]
      congr 1
      funext k
      simp [Consumer.map, Line.map_map, Function.comp_def]

theorem cut_deed (orderly : h.Orderly) :
    ∃ f, Deed (fun ch => ∃ t, h.Outlet none t ch) f h h.cut ∧
      Confined (fun ch => ∃ t, h.Outlet none t ch) f := by
  have subscribed : ∀ ch, ch ∈ h.server.subscriptions.map (·.channel) ↔
      ∃ t, h.Outlet none t ch := by
    intro ch
    rw [List.mem_map]
    exact ⟨fun ⟨s, member, same⟩ => ⟨s.subject, same ▸ member⟩, fun ⟨t, there⟩ =>
      ⟨⟨ch, t⟩, there, rfl⟩⟩
  obtain ⟨f, touch, confined, consumers⟩ := endAll_deed (h.server.subscriptions.map (·.channel))
    { h with server := { h.server with subscriptions := [] } }
  have same := sameOutlets_foldl (fun h ch => sameOutlets_endChannel ch h)
    (h.server.subscriptions.map (·.channel))
    { h with server := { h.server with subscriptions := [] } }
  have outlet : ∀ {o t ch}, h.cut.Outlet o t ch ↔
      h.Outlet o t ch ∧ ¬ ∃ t, h.Outlet none t ch := by
    intro o t ch
    refine same.outlet.trans ?_
    cases o with
    | none =>
      refine iff_of_false (by simp [Outlet]) fun known => ?_
      exact known.2 ⟨t, known.1⟩
    | some id =>
      refine Iff.trans (b := h.Outlet (some id) t ch) Iff.rfl ⟨fun known => ⟨known, ?_⟩, And.left⟩
      rintro ⟨t', there⟩
      exact absurd (orderly.owner there known).1 (by simp)
  exact ⟨f, ⟨⟨same.steady.homes, same.channels, fun _ => outlet⟩,
    fun orderly => orderly.mono same.channels fun known => (outlet.mp known).1,
    touch.iff subscribed, consumers⟩, fun r other => confined r ((subscribed _).not.mpr other)⟩

/-! ## What leaves receivers alone -/

theorem setAvailable_deed (h : Hub) (provider : String) (up : Bool) :
    Deed (fun _ => False) id h (h.setAvailable provider up) :=
  .of_same (sameOutlets_updateMemory provider (f := fun b => { b with available := up })
    (fun _ => rfl) h) (updateMemory_consumers _ _ _)

theorem limit_deed (h : Hub) (call : Call) (n : Option Nat) :
    Deed (fun _ => False) id h { h with server := h.server.limit call n } :=
  .of_same (sameOutlets_server rfl) rfl

theorem createTopic_deed (orderly : h.Orderly) {p : Provider} (known : h.provider? p.id = some p)
    (topic : String) (replication : Int) :
    Deed (fun _ => False) id h (h.createTopic p topic replication).2 := by
  unfold createTopic
  split
  · rename_i b kind
    split
    · exact .of_same (.refl h) rfl
    · have isMemory : h.memory? p.id = some b := by simp [memory?, known, kind]
      have found := topicChannel_found orderly isMemory topic
      exact .of_steady found.steady (fun _ => found.orderly) found.consumers
  · have subscriptions : (h.server.createStream topic replication).2.subscriptions =
        h.server.subscriptions := by
      unfold Server.createStream
      have granted := grant_subscriptions h.server .createStream
      generalize h.server.grant .createStream = r at granted
      obtain ⟨done, s⟩ := r
      by_cases there : s.streams.any (·.1 == streamName topic)
      · cases done <;> simpa [there] using granted
      · cases done <;> simpa [there] using granted
    exact .of_same (sameOutlets_server subscriptions) rfl

end Hub

end SubscriptionGateway.Broker
