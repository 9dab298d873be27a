import SubscriptionGateway.Proofs.Broker.Play
import Mathlib.Data.List.Nodup

/-!
Outlets: the channels on which what is sent under a topic goes out, one for each topic of a memory
broker and one for each subscription on the message server. A channel is made for one outlet and
never used for another, so whoever holds a channel without an outlet will hear nothing more.
-/
namespace SubscriptionGateway.Broker

namespace Hub

variable {h h' h₁ h₂ : Hub}

/-- The outlets of a memory broker, by its id, and those of the message server. -/
def Outlet (h : Hub) : Option String → String → ChannelId → Prop
  | some id, topic, channel => ∃ b, h.memory? id = some b ∧ (topic, channel) ∈ b.topics
  | none, topic, channel => ⟨channel, topic⟩ ∈ h.server.subscriptions

def home (h : Hub) (provider : String) : Option String :=
  (h.memory? provider).map fun _ => provider

/-- Every channel belongs to one outlet, and a topic of a memory broker has one channel. -/
structure Orderly (h : Hub) : Prop where
  made : ∀ {o t ch}, h.Outlet o t ch → ch < h.channels
  owner : ∀ {o t o' t' ch}, h.Outlet o t ch → h.Outlet o' t' ch → o = o' ∧ t = t'
  single : ∀ {id t ch ch'}, h.Outlet (some id) t ch → h.Outlet (some id) t ch' → ch = ch'

/-- Some channels lose their outlets, the others that were in use keep theirs. -/
structure Rewired (gone : ChannelId → Prop) (h h' : Hub) : Prop where
  homes : ∀ id, (h'.memory? id).isSome = (h.memory? id).isSome
  grows : h.channels ≤ h'.channels
  old : ∀ {o t ch}, ch < h.channels → (h'.Outlet o t ch ↔ h.Outlet o t ch ∧ ¬ gone ch)

abbrev OutletsSteady (h h' : Hub) : Prop := Rewired (fun _ => False) h h'

theorem Rewired.trans {g g' : ChannelId → Prop} (first : Rewired g h h₁)
    (second : Rewired g' h₁ h₂) : Rewired (fun ch => g ch ∨ g' ch) h h₂ where
  homes id := (second.homes id).trans (first.homes id)
  grows := Nat.le_trans first.grows second.grows
  old {o t ch} known := by
    rw [second.old (Nat.lt_of_lt_of_le known first.grows), first.old known, not_or, and_assoc]

theorem OutletsSteady.trans (first : OutletsSteady h h₁) (second : OutletsSteady h₁ h₂) :
    OutletsSteady h h₂ where
  homes id := (second.homes id).trans (first.homes id)
  grows := Nat.le_trans first.grows second.grows
  old {o t ch} known := by
    rw [second.old (Nat.lt_of_lt_of_le known first.grows), first.old known, and_assoc, and_self]

theorem OutletsSteady.outlet (steady : OutletsSteady h h') (orderly : h.Orderly)
    {o : Option String} {t : String}
    {ch : ChannelId} (there : h.Outlet o t ch) : h'.Outlet o t ch :=
  (steady.old (orderly.made there)).mpr ⟨there, id⟩

def partition? (h : Hub) (provider : String) : Option Nat := (h.memory? provider).map fun _ => 0

theorem Rewired.memory? {gone : ChannelId → Prop} (rewired : Rewired gone h h') (provider : String)
    (x : α) : (h'.memory? provider).map (fun _ => x) = (h.memory? provider).map fun _ => x := by
  have same := rewired.homes provider
  cases old : h.memory? provider <;> cases new : h'.memory? provider <;> simp_all

theorem Rewired.home {gone : ChannelId → Prop} (rewired : Rewired gone h h') (provider : String) :
    h'.home provider = h.home provider :=
  rewired.memory? provider provider

theorem Rewired.partition? {gone : ChannelId → Prop} (rewired : Rewired gone h h')
    (provider : String) : h'.partition? provider = h.partition? provider :=
  rewired.memory? provider 0

theorem home_of_memory {provider : String} (memory : (h.memory? provider).isSome) :
    h.home provider = some provider := by
  obtain ⟨b, known⟩ := Option.isSome_iff_exists.mp memory
  simp [home, known]

theorem home_of_server {provider : String} (server : h.memory? provider = none) :
    h.home provider = none := by
  simp [home, server]

theorem partition_of_memory {provider : String} (memory : (h.memory? provider).isSome) :
    h.partition? provider = some 0 := by
  obtain ⟨b, known⟩ := Option.isSome_iff_exists.mp memory
  simp [partition?, known]

/-! ## New outlets -/

/-- Outlets are added on channels that were not in use. -/
structure Extended (New : Option String → String → ChannelId → Prop) (h h' : Hub) : Prop where
  homes : ∀ id, (h'.memory? id).isSome = (h.memory? id).isSome
  grows : h.channels ≤ h'.channels
  outlet : ∀ {o t ch}, h'.Outlet o t ch ↔ h.Outlet o t ch ∨ New o t ch
  made : ∀ {o t ch}, New o t ch → h.channels ≤ ch ∧ ch < h'.channels
  owner : ∀ {o t o' t' ch}, New o t ch → New o' t' ch → o = o' ∧ t = t'
  single : ∀ {id t ch ch'}, New (some id) t ch → h'.Outlet (some id) t ch' → ch = ch'

namespace Extended

variable {New : Option String → String → ChannelId → Prop}

theorem steady (extended : Extended New h h') : OutletsSteady h h' where
  homes := extended.homes
  grows := extended.grows
  old {o t ch} known := by
    have old : ¬ New o t ch := fun new => Nat.not_lt.mpr (extended.made new).1 known
    simp [extended.outlet, old]

theorem orderly (extended : Extended New h h') (orderly : h.Orderly) : h'.Orderly where
  made there := by
    rcases extended.outlet.mp there with old | new
    · exact Nat.lt_of_lt_of_le (orderly.made old) extended.grows
    · exact (extended.made new).2
  owner there there' := by
    rcases extended.outlet.mp there with old | new <;>
      rcases extended.outlet.mp there' with old' | new'
    · exact orderly.owner old old'
    · exact absurd (orderly.made old) (Nat.not_lt.mpr (extended.made new').1)
    · exact absurd (orderly.made old') (Nat.not_lt.mpr (extended.made new).1)
    · exact extended.owner new new'
  single there there' := by
    rcases extended.outlet.mp there with old | new
    · rcases extended.outlet.mp there' with old' | new'
      · exact orderly.single old old'
      · exact (extended.single new' there).symm
    · exact extended.single new there'

end Extended

/-! ## What leaves all outlets as they are -/

structure SameOutlets (h h' : Hub) : Prop where
  topics : ∀ id, (h'.memory? id).map (·.topics) = (h.memory? id).map (·.topics)
  subscriptions : h'.server.subscriptions = h.server.subscriptions
  channels : h.channels ≤ h'.channels

theorem SameOutlets.refl (h : Hub) : SameOutlets h h := ⟨fun _ => rfl, rfl, Nat.le_refl _⟩

theorem SameOutlets.trans (first : SameOutlets h h₁) (second : SameOutlets h₁ h₂) :
    SameOutlets h h₂ where
  topics id := (second.topics id).trans (first.topics id)
  subscriptions := second.subscriptions.trans first.subscriptions
  channels := Nat.le_trans first.channels second.channels

theorem SameOutlets.outlet (same : SameOutlets h h') {o : Option String} {t : String}
    {ch : ChannelId} : h'.Outlet o t ch ↔ h.Outlet o t ch := by
  cases o with
  | none => simp only [Outlet, same.subscriptions]
  | some id =>
    have topics := same.topics id
    simp only [Outlet]
    cases old : h.memory? id <;> cases new : h'.memory? id <;> simp_all

theorem SameOutlets.steady (same : SameOutlets h h') : OutletsSteady h h' where
  homes id := by simpa using congrArg Option.isSome (same.topics id)
  grows := same.channels
  old _ := by simp [same.outlet]

theorem Orderly.mono (orderly : h.Orderly) (grows : h.channels ≤ h'.channels)
    (fewer : ∀ {o t ch}, h'.Outlet o t ch → h.Outlet o t ch) : h'.Orderly where
  made there := Nat.lt_of_lt_of_le (orderly.made (fewer there)) grows
  owner there there' := orderly.owner (fewer there) (fewer there')
  single there there' := orderly.single (fewer there) (fewer there')

theorem SameOutlets.orderly (same : SameOutlets h h') (orderly : h.Orderly) : h'.Orderly :=
  orderly.mono same.channels same.outlet.mp

theorem SameOutlets.of_eq (providers : h'.providers = h.providers)
    (subscriptions : h'.server.subscriptions = h.server.subscriptions)
    (channels : h'.channels = h.channels) : SameOutlets h h' where
  topics id := by rw [memory?, provider?, providers, ← provider?, ← memory?]
  subscriptions := subscriptions
  channels := Nat.le_of_eq channels.symm

theorem sameOutlets_send (w : Option Nat) (ch : ChannelId) (m : Message) (h : Hub) :
    SameOutlets h (h.send w ch m) := .of_eq rfl rfl rfl

theorem sameOutlets_endChannel (ch : ChannelId) (h : Hub) : SameOutlets h (h.endChannel ch) :=
  .of_eq rfl rfl rfl

theorem sameOutlets_setConsumer (c : ConsumerId) (k : Consumer) (h : Hub) :
    SameOutlets h (h.setConsumer c k) := .of_eq rfl rfl rfl

theorem sameOutlets_foldl {f : Hub → α → Hub} (each : ∀ h a, SameOutlets h (f h a)) (as : List α)
    (h : Hub) : SameOutlets h (as.foldl f h) := by
  induction as generalizing h with
  | nil => exact .refl h
  | cons a as ih => exact (each h a).trans (ih (f h a))

theorem foldl_view {β : Type} (view : Hub → β) (f : Hub → α → Hub)
    (each : ∀ h a, view (f h a) = view h) (as : List α) (h : Hub) :
    view (as.foldl f h) = view h := by
  induction as generalizing h with
  | nil => rfl
  | cons a as ih => exact (ih (f h a)).trans (each h a)

/-! ## Memory brokers -/

theorem provider?_setMemory (h : Hub) (id : String) (b : MemoryBroker) (id' : String) :
    (h.setMemory id b).provider? id' = (h.provider? id').map fun p =>
      if p.id == id then { p with kind := .memory b } else p := by
  unfold provider? setMemory
  rw [List.find?_map]
  congr 2
  funext p
  by_cases mine : p.id = id <;> simp [mine]

theorem provider?_id {id : String} {p : Provider} (known : h.provider? id = some p) :
    p.id = id := by
  simpa using List.find?_some known

theorem memory?_setMemory {id : String} (known : (h.memory? id).isSome) (b : MemoryBroker)
    (id' : String) :
    (h.setMemory id b).memory? id' = if id' = id then some b else h.memory? id' := by
  unfold memory? at known ⊢
  rw [provider?_setMemory]
  cases found : h.provider? id' with
  | none =>
    by_cases mine : id' = id
    · subst mine
      simp [found] at known
    · simp [mine]
  | some p =>
    have named := provider?_id found
    by_cases mine : id' = id
    · simp [named, mine]
    · simp [named, mine]

theorem memory?_updateMemory (h : Hub) (id : String) (f : MemoryBroker → MemoryBroker)
    (id' : String) :
    (h.updateMemory id f).memory? id' = if id' = id then (h.memory? id).map
      f else h.memory? id' := by
  unfold updateMemory
  cases known : h.memory? id with
  | none =>
    by_cases mine : id' = id
    · simp [mine, known]
    · simp [mine]
  | some b => simpa using memory?_setMemory (by simp [known]) (f b) id'

theorem sameOutlets_updateMemory (id : String) {f : MemoryBroker → MemoryBroker}
    (keeps : ∀ b, (f b).topics = b.topics) (h : Hub) : SameOutlets h (h.updateMemory id f) where
  topics id' := by
    rw [memory?_updateMemory]
    by_cases mine : id' = id
    · subst mine
      cases h.memory? id' <;> simp [keeps]
    · simp [mine]
  subscriptions := by
    unfold updateMemory
    split <;> rfl
  channels := by
    unfold updateMemory
    split <;> exact Nat.le_refl _

theorem updateMemory_consumers (h : Hub) (id : String) (f : MemoryBroker → MemoryBroker) :
    (h.updateMemory id f).consumers = h.consumers := by
  unfold updateMemory
  split <;> rfl

theorem available_updateMemory (id : String) {f : MemoryBroker → MemoryBroker}
    (keeps : ∀ b, (f b).available = b.available) (h : Hub) (id' : String) :
    ((h.updateMemory id f).memory? id').map (·.available) = (h.memory? id').map (·.available) := by
  rw [memory?_updateMemory]
  by_cases mine : id' = id
  · subst mine
    cases h.memory? id' <;> simp [keeps]
  · simp [mine]

theorem outlet_setMemory {id : String} (known : (h.memory? id).isSome) (b : MemoryBroker)
    {o : Option String} {t : String} {ch : ChannelId} :
    (h.setMemory id b).Outlet o t ch ↔
      if o = some id then (t, ch) ∈ b.topics else h.Outlet o t ch := by
  cases o with
  | none => simp [Outlet, setMemory]
  | some id' =>
    simp only [Outlet, memory?_setMemory known]
    by_cases mine : id' = id <;> simp [mine]

theorem homes_setMemory {id : String} (known : (h.memory? id).isSome) (b : MemoryBroker)
    (id' : String) : ((h.setMemory id b).memory? id').isSome = (h.memory? id').isSome := by
  rw [memory?_setMemory known]
  by_cases mine : id' = id
  · simp [mine, known]
  · simp [mine]

structure TopicFound (h : Hub) (id topic : String) (r : ChannelId × Hub) : Prop where
  orderly : r.2.Orderly
  steady : OutletsSteady h r.2
  outlet : r.2.Outlet (some id) topic r.1
  consumers : r.2.consumers = h.consumers
  server : r.2.server = h.server
  available : ∀ id', (r.2.memory? id').map (·.available) = (h.memory? id').map (·.available)

theorem extended_topic {id topic : String} {b : MemoryBroker} (known : h.memory? id = some b)
    (unused : ∀ ch, ¬ h.Outlet (some id) topic ch) :
    Extended (fun o t ch => o = some id ∧ t = topic ∧ ch = h.channels) h
      { h.setMemory id { b with topics := b.topics ++ [(topic, h.channels)] } with
        channels := h.channels + 1 } := by
  have isMemory : (h.memory? id).isSome := by simp [known]
  have outlet : ∀ {o t ch}, Outlet { h.setMemory id { b with
      topics := b.topics ++ [(topic, h.channels)] } with channels := h.channels + 1 } o t ch ↔
      h.Outlet o t ch ∨ (o = some id ∧ t = topic ∧ ch = h.channels) := by
    intro o t ch
    refine Iff.trans (b := (h.setMemory id { b with
      topics := b.topics ++ [(topic, h.channels)] }).Outlet o t ch) ?_ ?_
    · cases o <;> exact Iff.rfl
    · rw [outlet_setMemory isMemory]
      by_cases mine : o = some id
      · subst mine
        simp [Outlet, known]
      · simp [mine]
  refine ⟨homes_setMemory isMemory _, Nat.le_succ _, outlet, ?_, ?_, ?_⟩
  · rintro o t ch ⟨-, -, rfl⟩
    exact ⟨Nat.le_refl _, Nat.lt_succ_self _⟩
  · rintro o t o' t' ch ⟨rfl, rfl, -⟩ ⟨rfl, rfl, -⟩
    exact ⟨rfl, rfl⟩
  · rintro id' t ch ch' ⟨same, named, rfl⟩ there
    rcases outlet.mp there with there | ⟨-, -, same'⟩
    · rw [same, named] at there
      exact absurd there (unused ch')
    · exact same'.symm

theorem topicChannel_found {id : String} {b : MemoryBroker} (orderly : h.Orderly)
    (known : h.memory? id = some b) (topic : String) :
    TopicFound h id topic (h.topicChannel id b topic) := by
  unfold topicChannel
  split
  · rename_i name channel found
    have named : name = topic := by simpa using List.find?_some found
    subst named
    exact ⟨orderly, (SameOutlets.refl h).steady, ⟨b, known, List.mem_of_find?_eq_some found⟩, rfl,
      rfl, fun _ => rfl⟩
  · rename_i missing
    have unused : ∀ ch, ¬ h.Outlet (some id) topic ch := by
      rintro ch ⟨b', known', there⟩
      cases known.symm.trans known'
      have := List.find?_eq_none.mp missing _ there
      simp at this
    have isMemory : (h.memory? id).isSome := by simp [known]
    have extended := extended_topic known unused
    refine ⟨extended.orderly orderly, extended.steady, extended.outlet.mpr (.inr ⟨rfl, rfl, rfl⟩),
      rfl, rfl, fun id' => ?_⟩
    change ((h.setMemory id _).memory? id').map _ = _
    rw [memory?_setMemory isMemory]
    by_cases mine : id' = id
    · simp [mine, known]
    · simp [mine]

structure TopicsFound (h : Hub) (id : String) (topics : List String) (r : List ChannelId × Hub) :
    Prop where
  orderly : r.2.Orderly
  steady : OutletsSteady h r.2
  outlets : List.Forall₂ (fun t ch => r.2.Outlet (some id) t ch) topics r.1
  consumers : r.2.consumers = h.consumers
  server : r.2.server = h.server
  available : ∀ id', (r.2.memory? id').map (·.available) = (h.memory? id').map (·.available)

theorem topicChannels_found {id : String} (topics : List String) (orderly : h.Orderly)
    (isMemory : (h.memory? id).isSome) :
    TopicsFound h id topics (topicChannels id topics h) := by
  induction topics generalizing h with
  | nil => exact ⟨orderly, (SameOutlets.refl h).steady, .nil, rfl, rfl, fun _ => rfl⟩
  | cons t ts ih =>
    obtain ⟨b, known⟩ := Option.isSome_iff_exists.mp isMemory
    have first := topicChannel_found orderly known t
    simp only [topicChannels, known]
    generalize h.topicChannel id b t = r at first
    have rest := ih first.orderly ((first.steady.homes id).trans isMemory)
    exact ⟨rest.orderly, first.steady.trans rest.steady,
      .cons (rest.steady.outlet first.orderly first.outlet) rest.outlets,
      rest.consumers.trans first.consumers, rest.server.trans first.server,
      fun id' => (rest.available id').trans (first.available id')⟩

theorem TopicsFound.nodup {id : String} {topics : List String} {r : List ChannelId × Hub}
    (found : TopicsFound h id topics r) (proper : topics.Nodup) : r.1.Nodup := by
  have unique : Relator.BiUnique fun t ch => r.2.Outlet (some id) t ch :=
    ⟨fun _ _ _ there there' => (found.orderly.owner there there').2,
     fun _ _ _ there there' => found.orderly.single there there'⟩
  exact (List.rel_nodup unique found.outlets).mp proper

/-! ## The message server -/

@[simp] theorem grant_subscriptions (s : Server) (call : Call) :
    (s.grant call).2.subscriptions = s.subscriptions := by
  unfold Server.grant
  split <;> rfl

theorem unsubscribe_new {s : Server} {old new : List Subscribed} {low : ChannelId}
    (all : s.subscriptions = old ++ new) (lower : ∀ x ∈ old, x.channel < low)
    (higher : ∀ x ∈ new, low ≤ x.channel) :
    (s.unsubscribe (new.map (·.channel))).subscriptions = old := by
  have kept : old.filter (fun x => !(new.map (·.channel)).contains x.channel) = old := by
    refine List.filter_eq_self.mpr fun x member => ?_
    have : x.channel ∉ new.map (·.channel) := fun made => by
      obtain ⟨y, known, same⟩ := List.mem_map.mp made
      exact absurd (lower x member) (Nat.not_lt.mpr (same ▸ higher y known))
    simpa using this
  have dropped : new.filter (fun x => !(new.map (·.channel)).contains x.channel) = [] := by
    refine List.filter_eq_nil_iff.mpr fun x member => ?_
    have : x.channel ∈ new.map (·.channel) := List.mem_map_of_mem member
    simpa using this
  rw [Server.unsubscribe, all, List.filter_append, kept, dropped, List.append_nil]

/-- All subscriptions are made on the next channels, or none of them remains. -/
theorem server_subscribeAll {s : Server} {old new : List Subscribed} {low ch : ChannelId}
    (topics : List String) (all : s.subscriptions = old ++ new) (lower : ∀ x ∈ old, x.channel < low)
    (higher : ∀ x ∈ new, low ≤ x.channel) (next : low ≤ ch) :
    match s.subscribeAll ch (new.map (·.channel)) topics with
    | (.ok chs, s') => chs = new.map (·.channel) ++ List.range' ch topics.length ∧
        s'.subscriptions =
          old ++ new ++ List.zipWith Subscribed.mk (List.range' ch topics.length) topics
    | (.error _, s') => s'.subscriptions = old := by
  induction topics generalizing s new ch with
  | nil =>
    have same := (grant_subscriptions s .flush).trans all
    unfold Server.subscribeAll
    cases grant : s.grant .flush with
    | mk granted s' =>
      rw [grant] at same
      cases granted with
      | true => simpa using same
      | false => exact unsubscribe_new same lower higher
  | cons t ts ih =>
    have same := (grant_subscriptions s .subscribe).trans all
    unfold Server.subscribeAll
    cases grant : s.grant .subscribe with
    | mk granted s' =>
      rw [grant] at same
      cases granted with
      | false => exact unsubscribe_new same lower higher
      | true =>
        have higher' : ∀ x ∈ new ++ [⟨ch, t⟩], low ≤ x.channel := fun x member =>
          (List.mem_append.mp member).elim (higher x) fun made => by
            simpa [List.mem_singleton.mp made] using next
        have rest := ih (s := { s' with subscriptions := s'.subscriptions ++ [⟨ch, t⟩] })
          (by rw [← List.append_assoc, ← same]) higher' (Nat.le_succ_of_le next)
        simpa [List.range'_succ] using rest

structure Subscription (h : Hub) (topics : List String) (chs : List ChannelId)
    (h' : Hub) : Prop where
  outlets : List.Forall₂ (fun t ch => h'.Outlet none t ch) topics chs
  nodup : chs.Nodup
  new : ∀ ch ∈ chs, h.channels ≤ ch

theorem channels_zipWith {chs : List ChannelId} {topics : List String}
    (same : chs.length = topics.length) :
    (List.zipWith Subscribed.mk chs topics).map (·.channel) = chs := by
  induction chs generalizing topics with
  | nil => rfl
  | cons ch chs ih =>
    cases topics with
    | nil => cases same
    | cons t ts => simpa using ih (by simpa using same)

theorem outlets_range {topics : List String} {ch : ChannelId}
    (there : ∀ x ∈ List.zipWith Subscribed.mk (List.range' ch topics.length) topics,
      x ∈ h.server.subscriptions) :
    List.Forall₂ (fun t ch => h.Outlet none t ch) topics (List.range' ch topics.length) := by
  induction topics generalizing ch with
  | nil => exact .nil
  | cons t ts ih =>
    simp only [List.length_cons, List.range'_succ, List.zipWith_cons_cons, List.mem_cons,
      forall_eq_or_imp] at there ⊢
    exact .cons there.1 (ih there.2)

theorem extended_subscriptions {s : Server} {topics : List String}
    (subs : s.subscriptions = h.server.subscriptions ++
      List.zipWith Subscribed.mk (List.range' h.channels topics.length) topics) :
    Extended (fun o t ch => o = none ∧ (⟨ch, t⟩ : Subscribed) ∈
      List.zipWith Subscribed.mk (List.range' h.channels topics.length) topics) h
      { h with server := s, channels := h.channels + topics.length } := by
  have channels : (List.zipWith Subscribed.mk (List.range' h.channels topics.length)
      topics).map (·.channel) = List.range' h.channels topics.length :=
    channels_zipWith (by simp)
  refine ⟨fun _ => rfl, Nat.le_add_right _ _, ?_, ?_, ?_, ?_⟩
  · intro o t ch
    cases o with
    | none => simp [Outlet, subs]
    | some id => simp [Outlet, memory?, provider?]
  · rintro o t ch ⟨-, member⟩
    have made := List.mem_map_of_mem (f := (·.channel)) member
    exact List.mem_range'_1.mp (channels ▸ made)
  · rintro o t o' t' ch ⟨rfl, member⟩ ⟨rfl, member'⟩
    have apart : (List.map (·.channel) (List.zipWith Subscribed.mk
        (List.range' h.channels topics.length) topics)).Nodup := by
      rw [channels]
      exact List.nodup_range'
    have same := List.inj_on_of_nodup_map apart member member' rfl
    exact ⟨rfl, congrArg Subscribed.subject same⟩
  · rintro id t ch ch' ⟨⟨⟩, -⟩

theorem subscribeAll_spec (orderly : h.Orderly) (key : SourceKey) :
    (h.subscribeAll key).2.Orderly ∧ OutletsSteady h (h.subscribeAll key).2 ∧
    (h.subscribeAll key).2.consumers = h.consumers ∧
    (h.subscribeAll key).2.providers = h.providers ∧
    ∀ chs, (h.subscribeAll key).1 = .ok chs →
      Subscription h key.topics chs (h.subscribeAll key).2 := by
  have spec := @server_subscribeAll h.server _ [] _ h.channels key.topics
    (List.append_nil _).symm (fun x member => orderly.made (o := none) (t := x.subject) member)
    (by simp) (Nat.le_refl _)
  unfold subscribeAll
  simp only [List.map_nil, List.nil_append, List.append_nil] at spec
  generalize h.server.subscribeAll h.channels [] key.topics = r at spec
  obtain ⟨result, s'⟩ := r
  cases result with
  | error e =>
    have same : SameOutlets h { h with server := s', channels := h.channels + key.topics.length } :=
      ⟨fun _ => rfl, spec, Nat.le_add_right _ _⟩
    exact ⟨same.orderly orderly, same.steady, rfl, rfl, nofun⟩
  | ok chs =>
    obtain ⟨rfl, subs⟩ := spec
    have extended := extended_subscriptions subs
    refine ⟨extended.orderly orderly, extended.steady, rfl, rfl, fun chs same => ?_⟩
    cases same
    refine ⟨outlets_range fun x member => ?_, List.nodup_range', fun ch member => ?_⟩
    · simp [subs, member]
    · exact (List.mem_range'_1.mp member).1

end Hub

end SubscriptionGateway.Broker
