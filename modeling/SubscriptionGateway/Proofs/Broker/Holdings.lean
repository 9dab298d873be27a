import SubscriptionGateway.Proofs.Broker.Outlets
import SubscriptionGateway.Proofs.Broker.Turns

/-!
What consumers hold: receivers on channels that have an outlet for a topic of their key, or that
have ended. An end comes to a receiver when its channel loses the outlet and at no other time, and
no two consumers hold the same subscription on the message server. All this is kept by everything
that may happen to the brokers.
-/
namespace SubscriptionGateway.Broker

def Consumer.map (f : Receiver → Receiver) (k : Consumer) : Consumer :=
  { k with line := k.line.map (Line.map f) }

theorem Line.map_receivers (f : Receiver → Receiver) (l : Line) :
    (l.map f).receivers = l.receivers.map f :=
  List.map_append.symm

theorem Line.map_id (l : Line) : l.map id = l := by simp [Line.map]

theorem Line.map_map (f f' : Receiver → Receiver) (l : Line) :
    (l.map f).map f' = l.map (f' ∘ f) := by
  simp [Line.map]

@[simp] theorem Consumer.map_id (k : Consumer) : k.map id = k := by
  have : Line.map id = id := funext Line.map_id
  simp [Consumer.map, this]

theorem consumers_map_id (ks : List Consumer) : ks.map (Consumer.map id) = ks :=
  (congrArg (ks.map ·) (funext Consumer.map_id)).trans (List.map_id ks)

/-- What happens to receivers: some channels end, and who is touched has news. -/
structure Touch (gone : ChannelId → Prop) (f : Receiver → Receiver) : Prop where
  channel : ∀ r, (f r).channel = r.channel
  news : ∀ r, f r = r ∨ (f r).newsAt ≠ none
  ended : ∀ r, (f r).ended = true ↔ r.ended = true ∨ gone r.channel

namespace Touch

variable {gone gone' : ChannelId → Prop} {f f' : Receiver → Receiver}

theorem id : Touch (fun _ => False) id := ⟨fun _ => rfl, fun _ => .inl rfl, fun _ => by simp⟩

theorem push (w : Option Nat) (stamp : Nat) (m : Message) (ch : ChannelId) :
    Touch (fun _ => False) (Receiver.onChannel ch (Receiver.push w stamp m)) where
  channel r := by unfold Receiver.onChannel; split <;> rfl
  news r := by
    unfold Receiver.onChannel
    split
    · exact .inr (Receiver.push_noted _ _ _ _)
    · exact .inl rfl
  ended r := by unfold Receiver.onChannel; split <;> simp

theorem finish (stamp : Nat) (ch : ChannelId) :
    Touch (· = ch) (Receiver.onChannel ch (Receiver.finish stamp)) where
  channel r := by unfold Receiver.onChannel; split <;> rfl
  news r := by
    unfold Receiver.onChannel
    split
    · exact .inr (Receiver.finish_noted _ _)
    · exact .inl rfl
  ended r := by unfold Receiver.onChannel; split <;> simp [*]

theorem comp (second : Touch gone' f') (first : Touch gone f) :
    Touch (fun ch => gone ch ∨ gone' ch) (f' ∘ f) where
  channel r := (second.channel (f r)).trans (first.channel r)
  news r := by
    rcases second.news (f r) with same | noted
    · rw [Function.comp_apply, same]
      exact first.news r
    · exact .inr noted
  ended r := by rw [Function.comp_apply, second.ended, first.ended, first.channel, or_assoc]

theorem iff (touch : Touch gone f) (same : ∀ ch, gone ch ↔ gone' ch) : Touch gone' f :=
  ⟨touch.channel, touch.news, fun r => by rw [touch.ended, same]⟩

end Touch

namespace Hub

variable {h h' h₁ : Hub} {gone gone' : ChannelId → Prop} {f f' : Receiver → Receiver}

def Holds (h : Hub) (c : ConsumerId) (r : Receiver) : Prop :=
  ∃ k l, h.consumers[c]? = some k ∧ k.line = some l ∧ r ∈ l.receivers

structure Held (h : Hub) (k : Consumer) (l : Line) : Prop where
  opened : k.closed = false
  fit : l.Fit
  made : ∀ r ∈ l.receivers, r.channel < h.channels
  ended : ∀ r ∈ l.receivers, r.ended = true → ∀ o t, ¬ h.Outlet o t r.channel
  live : ∀ r ∈ l.receivers, r.ended = false →
    ∃ t ∈ k.key.topics, h.Outlet (h.home k.provider) t r.channel

structure Sound (h : Hub) : Prop extends Orderly h where
  lines : ∀ {c : ConsumerId} {k l}, h.consumers[c]? = some k → k.line = some l → Held h k l
  /-- A subscription on the server is held by one consumer at most. -/
  apart : ∀ {c c' : ConsumerId} {r r' t}, h.Holds c r → h.Holds c' r' → r.channel = r'.channel →
    h.Outlet none t r.channel → c = c'

theorem Fresh.sound (fresh : h.Fresh) : h.Sound where
  made {o t ch} there := by
    cases o with
    | none => simp [Outlet, fresh.subscriptions] at there
    | some id =>
      obtain ⟨b, known, member⟩ := there
      simp [fresh.topics id b known] at member
  owner {o t o' t' ch} there := by
    cases o with
    | none => simp [Outlet, fresh.subscriptions] at there
    | some id =>
      obtain ⟨b, known, member⟩ := there
      simp [fresh.topics id b known] at member
  single := by
    rintro id t ch ch' ⟨b, known, member⟩
    simp [fresh.topics id b known] at member
  lines known := by simp [fresh.consumers] at known
  apart := by
    rintro c c' r r' t ⟨k, l, known, -⟩
    simp [fresh.consumers] at known

/-! ## What happens to all receivers alike -/

/-- Some outlets go, and the receivers on their channels come to know of it. -/
structure Deed (gone : ChannelId → Prop) (f : Receiver → Receiver) (h h' : Hub) : Prop where
  rewired : Rewired gone h h'
  orderly : h.Orderly → h'.Orderly
  touch : Touch gone f
  consumers : h'.consumers = h.consumers.map (Consumer.map f)

theorem Deed.trans (first : Deed gone f h h₁) (second : Deed gone' f' h₁ h') :
    Deed (fun ch => gone ch ∨ gone' ch) (f' ∘ f) h h' where
  rewired := first.rewired.trans second.rewired
  orderly := second.orderly ∘ first.orderly
  touch := second.touch.comp first.touch
  consumers := by
    rw [second.consumers, first.consumers, List.map_map]
    congr 1
    funext k
    simp [Consumer.map, Line.map_map, Function.comp_def]

theorem Deed.of_steady (steady : OutletsSteady h h') (orderly : h.Orderly → h'.Orderly)
    (consumers : h'.consumers = h.consumers) : Deed (fun _ => False) id h h' where
  rewired := steady
  orderly := orderly
  touch := .id
  consumers := by rw [consumers, consumers_map_id]

theorem Deed.of_same (same : SameOutlets h h') (consumers : h'.consumers = h.consumers) :
    Deed (fun _ => False) id h h' :=
  .of_steady same.steady same.orderly consumers

theorem Deed.consumer (deed : Deed gone f h h') (c : ConsumerId) :
    h'.consumers[c]? = h.consumers[c]?.map (Consumer.map f) := by
  rw [deed.consumers, List.getElem?_map]

theorem holds_map (consumers : h'.consumers = h.consumers.map (Consumer.map f)) {c : ConsumerId}
    {r' : Receiver} : h'.Holds c r' ↔ ∃ r, h.Holds c r ∧ f r = r' := by
  have consumer : h'.consumers[c]? = h.consumers[c]?.map (Consumer.map f) := by
    rw [consumers, List.getElem?_map]
  constructor
  · rintro ⟨k', l', known, line, member⟩
    rw [consumer, Option.map_eq_some_iff] at known
    obtain ⟨k, known, rfl⟩ := known
    obtain ⟨l, old, rfl⟩ := Option.map_eq_some_iff.mp line
    rw [Line.map_receivers] at member
    obtain ⟨r, member, same⟩ := List.mem_map.mp member
    exact ⟨r, ⟨k, l, known, old, member⟩, same⟩
  · rintro ⟨r, ⟨k, l, known, line, member⟩, rfl⟩
    refine ⟨k.map f, l.map f, by simp [consumer, known], by simp [Consumer.map, line], ?_⟩
    rw [Line.map_receivers]
    exact List.mem_map_of_mem member

theorem Deed.holds (deed : Deed gone f h h') {c : ConsumerId} {r' : Receiver} :
    h'.Holds c r' ↔ ∃ r, h.Holds c r ∧ f r = r' :=
  holds_map deed.consumers

theorem Held.touch {k : Consumer} {l : Line} (held : Held h k l) (rewired : Rewired gone h h')
    (touch : Touch gone f) : Held h' (k.map f) (l.map f) := by
  have from_old : ∀ r' ∈ (l.map f).receivers, ∃ r ∈ l.receivers, f r = r' := fun r' member => by
    rw [Line.map_receivers] at member
    exact List.mem_map.mp member
  refine ⟨held.opened, held.fit.map touch.channel touch.news, ?_, ?_, ?_⟩
  · intro r' member
    obtain ⟨r, known, rfl⟩ := from_old r' member
    rw [touch.channel]
    exact Nat.lt_of_lt_of_le (held.made r known) rewired.grows
  · intro r' member ended o t there
    obtain ⟨r, known, rfl⟩ := from_old r' member
    rw [touch.channel, rewired.old (held.made r known)] at there
    rcases (touch.ended r).mp ended with ended | gone
    · exact held.ended r known ended o t there.1
    · exact there.2 gone
  · intro r' member live
    obtain ⟨r, known, rfl⟩ := from_old r' member
    have stays : ¬ (r.ended = true ∨ gone r.channel) := by
      rw [← touch.ended, live]
      exact Bool.false_ne_true
    rw [not_or, Bool.not_eq_true] at stays
    obtain ⟨t, mine, there⟩ := held.live r known stays.1
    refine ⟨t, mine, ?_⟩
    rw [touch.channel, rewired.old (held.made r known), rewired.home]
    exact ⟨there, stays.2⟩

theorem Deed.sound (deed : Deed gone f h h') (sound : h.Sound) : h'.Sound where
  toOrderly := deed.orderly sound.toOrderly
  lines {c k' l'} known line := by
    rw [deed.consumer, Option.map_eq_some_iff] at known
    obtain ⟨k, known, rfl⟩ := known
    obtain ⟨l, old, rfl⟩ := Option.map_eq_some_iff.mp line
    exact (sound.lines known old).touch deed.rewired deed.touch
  apart {c c' r r' t} holds holds' same there := by
    obtain ⟨s, ⟨k, l, known, line, member⟩, rfl⟩ := deed.holds.mp holds
    obtain ⟨s', held', rfl⟩ := deed.holds.mp holds'
    rw [deed.touch.channel, deed.touch.channel] at same
    rw [deed.touch.channel, deed.rewired.old ((sound.lines known line).made s member)] at there
    exact sound.apart ⟨k, l, known, line, member⟩ held' same there.1

/-! ## What happens to one consumer -/

/-- The other consumers stay as they are, and what they can hear stays theirs. -/
structure Aside (c : ConsumerId) (gone : ChannelId → Prop) (h h' : Hub) : Prop where
  rewired : Rewired gone h h'
  orderly : h.Orderly → h'.Orderly
  others : ∀ c', c' ≠ c → h'.consumers[c']? = h.consumers[c']?
  spared : ∀ c' r, c' ≠ c → h.Holds c' r → r.ended = false → ¬ gone r.channel

theorem Aside.holds {c c' : ConsumerId} (aside : Aside c gone h h') (other : c' ≠ c)
    {r : Receiver} : h'.Holds c' r ↔ h.Holds c' r := by
  simp only [Holds, aside.others c' other]

theorem Aside.held {c c' : ConsumerId} (aside : Aside c gone h h') (other : c' ≠ c)
    {k : Consumer} {l : Line} (known : h.consumers[c']? = some k) (line : k.line = some l)
    (held : Held h k l) : Held h' k l where
  opened := held.opened
  fit := held.fit
  made r member := Nat.lt_of_lt_of_le (held.made r member) aside.rewired.grows
  ended r member ended o t there :=
    held.ended r member ended o t ((aside.rewired.old (held.made r member)).mp there).1
  live r member live := by
    obtain ⟨t, mine, there⟩ := held.live r member live
    refine ⟨t, mine, ?_⟩
    rw [aside.rewired.old (held.made r member), aside.rewired.home]
    exact ⟨there, aside.spared c' r other ⟨k, l, known, line, member⟩ live⟩

theorem Aside.sound {c : ConsumerId} (aside : Aside c gone h h') (sound : h.Sound)
    (mine : ∀ k l, h'.consumers[c]? = some k → k.line = some l → Held h' k l)
    (own : ∀ r t, h'.Holds c r → h'.Outlet none t r.channel →
      ∀ c' r', c' ≠ c → h.Holds c' r' → r'.channel ≠ r.channel) : h'.Sound where
  toOrderly := aside.orderly sound.toOrderly
  lines {c' k l} known line := by
    by_cases other : c' = c
    · subst other
      exact mine k l known line
    · rw [aside.others c' other] at known
      exact aside.held other known line (sound.lines known line)
  apart {c₁ c₂ r r' t} holds holds' same there := by
    by_cases first : c₁ = c <;> by_cases second : c₂ = c
    · rw [first, second]
    · subst first
      exact absurd same.symm (own r t holds there c₂ r' second ((aside.holds second).mp holds'))
    · subst second
      rw [same] at there
      exact absurd same (own r' t holds' there c₁ r first ((aside.holds first).mp holds))
    · have held := (aside.holds first).mp holds
      obtain ⟨k, l, known, line, member⟩ := held
      rw [aside.rewired.old ((sound.lines known line).made r member)] at there
      exact sound.apart ⟨k, l, known, line, member⟩ ((aside.holds second).mp holds') same there.1

end Hub

end SubscriptionGateway.Broker
