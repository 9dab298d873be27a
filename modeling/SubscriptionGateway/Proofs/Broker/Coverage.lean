import SubscriptionGateway.Proofs.Broker.Steps

/-!
Which topics of its key a consumer covers: those for which it holds a receiver on a channel that
still has an outlet. A consumer that waits for news covers at least one of them, and nothing that is
sent under a covered topic passes it by. But the end of one stream out of several shows nowhere: the
line goes on with the others, and neither waiting nor the next event brings the topic back. Only
when the last stream has ended does a call for the next event tell, or subscribe again.
-/
namespace SubscriptionGateway.Broker

namespace Hub

variable {h h' h₁ : Hub} {c : ConsumerId} {k : Consumer} {t provider : String} {key : SourceKey}

def Covers (h : Hub) (c : ConsumerId) (t : String) : Prop :=
  ∃ k l r, h.consumers[c]? = some k ∧ k.line = some l ∧ r ∈ l.receivers ∧
    h.Outlet (h.home k.provider) t r.channel

theorem covers_iff (known : h.consumers[c]? = some k) : h.Covers c t ↔
    ∃ l, k.line = some l ∧ ∃ r ∈ l.receivers, h.Outlet (h.home k.provider) t r.channel := by
  constructor
  · rintro ⟨k', l, r, known', line, member, there⟩
    cases known.symm.trans known'
    exact ⟨l, line, r, member, there⟩
  · rintro ⟨l, line, r, member, there⟩
    exact ⟨k, l, r, known, line, member, there⟩

theorem Covers.holds (covers : h.Covers c t) : ∃ r, h.Holds c r := by
  obtain ⟨k, l, r, known, line, member, -⟩ := covers
  exact ⟨r, k, l, known, line, member⟩

theorem Held.not_ended {l : Line} (held : Held h k l) {r : Receiver} (member : r ∈ l.receivers)
    {o : Option String} (there : h.Outlet o t r.channel) : r.ended = false := by
  cases ended : r.ended with
  | false => rfl
  | true => exact absurd there (held.ended r member ended o t)

/-! ## What keeps the covered topics as they are -/

theorem covers_deed {gone : ChannelId → Prop} {f : Receiver → Receiver} (sound : h.Sound)
    (deed : Deed gone f h h') : h'.Covers c t ↔ ∃ k l r, h.consumers[c]? = some k ∧
      k.line = some l ∧ r ∈ l.receivers ∧ h.Outlet (h.home k.provider) t r.channel ∧
      ¬ gone r.channel := by
  constructor
  · rintro ⟨k', l', r', known', line', member, there⟩
    rw [deed.consumer, Option.map_eq_some_iff] at known'
    obtain ⟨k, known, rfl⟩ := known'
    obtain ⟨l, line, rfl⟩ := Option.map_eq_some_iff.mp line'
    rw [Line.map_receivers] at member
    obtain ⟨r, mine, rfl⟩ := List.mem_map.mp member
    rw [deed.touch.channel, deed.rewired.home,
      deed.rewired.old ((sound.lines known line).made r mine)] at there
    exact ⟨k, l, r, known, line, mine, there⟩
  · rintro ⟨k, l, r, known, line, member, there⟩
    refine ⟨k.map f, l.map f, f r, by simp [deed.consumer, known], by simp [Consumer.map, line], ?_,
      ?_⟩
    · rw [Line.map_receivers]
      exact List.mem_map_of_mem member
    · rw [deed.touch.channel, deed.rewired.home,
        deed.rewired.old ((sound.lines known line).made r member)]
      exact there

theorem covers_quiet {f : Receiver → Receiver} (sound : h.Sound)
    (deed : Deed (fun _ => False) f h h') : h'.Covers c t ↔ h.Covers c t := by
  rw [covers_deed sound deed]
  simp [Covers]

theorem Covers.of_deed {gone : ChannelId → Prop} {f : Receiver → Receiver} (sound : h.Sound)
    (deed : Deed gone f h h') (covers : h'.Covers c t) : h.Covers c t := by
  obtain ⟨k, l, r, known, line, member, there, -⟩ := (covers_deed sound deed).mp covers
  exact ⟨k, l, r, known, line, member, there⟩

theorem covers_rewired {gone : ChannelId → Prop} (sound : h.Sound) (rewired : Rewired gone h h')
    (same : h'.consumers[c]? = h.consumers[c]?)
    (spared : ∀ r, h.Holds c r → r.ended = false → ¬ gone r.channel) :
    h'.Covers c t ↔ h.Covers c t := by
  simp only [Covers, same]
  refine exists_congr fun k => exists_congr fun l => exists_congr fun r =>
    and_congr_right fun known => and_congr_right fun line => and_congr_right fun member => ?_
  have held := sound.lines known line
  rw [rewired.home, rewired.old (held.made r member)]
  exact ⟨And.left, fun there => ⟨there, spared r ⟨k, l, known, line, member⟩
    (held.not_ended member there)⟩⟩

theorem covers_aside {gone : ChannelId → Prop} {c' : ConsumerId} (sound : h.Sound)
    (other : c ≠ c') (aside : Aside c' gone h h') : h'.Covers c t ↔ h.Covers c t :=
  covers_rewired sound aside.rewired (aside.others c other) fun r holds live =>
    aside.spared c r other holds live

/-! ## A call for the next event -/

theorem covers_setConsumer {k' : Consumer} (known : h.consumers[c]? = some k)
    (provider : k'.provider = k.provider)
    (same : (∃ l, k'.line = some l ∧ ∃ r ∈ l.receivers, h.Outlet (h.home k.provider) t r.channel) ↔
      ∃ l, k.line = some l ∧ ∃ r ∈ l.receivers, h.Outlet (h.home k.provider) t r.channel) :
    (h.setConsumer c k').Covers c t ↔ h.Covers c t := by
  have outlets := sameOutlets_setConsumer c k' h
  rw [covers_iff (setConsumer_self known k'), covers_iff known, ← same, provider,
    outlets.steady.home]
  simp only [outlets.outlet]

theorem covers_remains (sound : h.Sound) {l l' : Line} (known : h.consumers[c]? = some k)
    (line : k.line = some l) (remains : Line.Remains l l') (b : Backoff) :
    (h.setConsumer c { k with line := some l', backoff := b }).Covers c t ↔ h.Covers c t := by
  have held := sound.lines known line
  refine covers_setConsumer known rfl ?_
  simp only [line, Option.some.injEq, exists_eq_left']
  constructor
  · rintro ⟨r', member, there⟩
    obtain ⟨r, known, channel, -⟩ := remains.came r' member
    exact ⟨r, known, channel ▸ there⟩
  · rintro ⟨r, member, there⟩
    obtain ⟨r', known, channel⟩ := remains.stays r member (held.not_ended member there)
    exact ⟨r', known, channel ▸ there⟩

theorem covers_listened (sound : h.Sound) (known : h.consumers[c]? = some k) {r : Heard × Hub}
    (heard : Listened h c k r) : r.2.Covers c t ↔ h.Covers c t := by
  have spent : ∀ {l : Line}, k.line = some l → l.take = .ended → ¬ h.Covers c t := by
    intro l line taken covers
    have held := sound.lines known line
    obtain ⟨l', line', r, member, there⟩ := (covers_iff known).mp covers
    cases line.symm.trans line'
    have ended := (Line.take_ended held.fit taken r member).1
    rw [held.not_ended member there] at ended
    cases ended
  cases heard with
  | message line taken =>
    have remains := Line.take_message_remains (sound.lines known line).fit taken
    exact covers_remains sound known line remains _
  | waiting line taken =>
    have remains := Line.take_waiting_remains (sound.lines known line).fit taken
    exact covers_remains sound known line remains k.backoff
  | ended line taken =>
    refine iff_of_false (fun covers => ?_) (spent line taken)
    obtain ⟨l, same, r, member, -⟩ := (covers_iff (setConsumer_self known _)).mp covers
    cases same
    cases member
  | none => exact .rfl
  | down => exact .rfl
  | lost line taken =>
    refine iff_of_false (fun covers => ?_) (spent line taken)
    obtain ⟨l, same, -⟩ := (covers_iff (setConsumer_self known _)).mp covers
    cases same
  | unsubscribed => exact .rfl

theorem Attuned.covers (attuned : Attuned h k) (known : h.consumers[c]? = some k)
    (mine : t ∈ k.key.topics) : h.Covers c t := by
  obtain ⟨chs, line, -, outlets⟩ := attuned
  obtain ⟨ch, member, there⟩ := (forall₂_partners outlets).1 t mine
  refine ⟨k, _, fresh ch, known, line, ?_, there⟩
  simpa [Line.receivers] using List.mem_map_of_mem member

/-- The topics a consumer covers are as they were, or they are all topics of its key. -/
def Unmoved (c : ConsumerId) (key : SourceKey) (h h' : Hub) : Prop :=
  (∀ t, h'.Covers c t ↔ h.Covers c t) ∨ ∀ t ∈ key.topics, h'.Covers c t

theorem Unmoved.trans (first : Unmoved c key h h₁)
    (second : ∀ t, h'.Covers c t ↔ h₁.Covers c t) : Unmoved c key h h' :=
  first.imp (fun same t => (second t).trans (same t)) fun all t mine => (second t).mpr (all t mine)

theorem Keyed.listened (keyed : h.Keyed c provider key) (known : h.consumers[c]? = some k)
    {r : Heard × Hub} (heard : Listened h c k r) : r.2.Keyed c provider key := by
  obtain ⟨k', known', same⟩ := keyed
  cases known.symm.trans known'
  cases heard with
  | message => exact ⟨_, setConsumer_self known _, same⟩
  | waiting => exact ⟨_, setConsumer_self known _, same⟩
  | ended => exact ⟨_, setConsumer_self known _, same⟩
  | none => exact ⟨k, known, same⟩
  | down => exact ⟨k, known, same⟩
  | lost => exact ⟨_, setConsumer_self known _, same⟩
  | unsubscribed => exact ⟨k, known, same⟩

theorem renew_unmoved (sound : h.Sound) (keyed : h.Keyed c provider key) :
    (h.renew c).Keyed c provider key ∧ Unmoved c key h (h.renew c) := by
  obtain ⟨-, only, renewed⟩ := renew_spec sound c
  obtain ⟨k, known, named, same⟩ := keyed
  cases renewed with
  | same consumers =>
    refine ⟨⟨k, consumers ▸ known, named, same⟩, .inl fun t => ?_⟩
    exact covers_rewired sound only.rewired (by rw [consumers]) fun _ _ _ => id
  | attuned known₁ server opened known' line attuned =>
    cases known.symm.trans known₁
    have key' := congrArg Consumer.key line
    have provider' := congrArg Consumer.provider line
    refine ⟨⟨_, known', provider'.trans named, key'.trans same⟩, .inr fun t mine => ?_⟩
    exact attuned.covers known' (by rwa [key', same])

structure Polling (c : ConsumerId) (provider : String) (key : SourceKey) (h h' : Hub) : Prop where
  sound : h'.Sound
  keyed : h'.Keyed c provider key
  unmoved : Unmoved c key h h'

theorem poll_polling (sound : h.Sound) (keyed : h.Keyed c provider key) (now : Nat) (a : Awaiting) :
    PollSettles (Polling c provider key h) c (h.poll now c a) := by
  refine poll_settled ?_ ?_ ?_ ⟨sound, keyed, .inl fun _ => .rfl⟩
  · rintro h₁ k polling known - h₂ heard
    have heard : Listened h₁ c k (.lost, h₂) := heard ▸ listened h₁ c k
    exact ⟨(listen_sound polling.sound known heard).1, polling.keyed.listened known heard,
      polling.unmoved.trans fun t => covers_listened polling.sound known heard⟩
  · rintro h₁ k b polling known
    refine ⟨count_sound polling.sound known b, ?_, polling.unmoved.trans fun t => ?_⟩
    · obtain ⟨k', known', same⟩ := polling.keyed
      cases known.symm.trans known'
      exact ⟨_, setConsumer_self known _, same⟩
    · exact covers_setConsumer known rfl .rfl
  · rintro h₁ polling
    obtain ⟨sound', -, -⟩ := renew_spec polling.sound c
    obtain ⟨keyed', unmoved⟩ := renew_unmoved polling.sound polling.keyed
    refine ⟨sound', keyed', ?_⟩
    rcases unmoved with same | all
    · exact polling.unmoved.trans same
    · exact .inr all

/-! ## Waiting for news -/

/-- A consumer that waits for news listens to somebody, reaches its broker, and has empty queues. -/
structure Waiting (h : Hub) (c : ConsumerId) (k : Consumer) (l : Line) : Prop where
  known : h.consumers[c]? = some k
  opened : k.closed = false
  line : k.line = some l
  up : h.Reachable k.provider
  listens : l.receivers ≠ []
  idle : ∀ r ∈ l.receivers, r.Idle

def WaitsForNews (h : Hub) (c : ConsumerId) (provider : String) (key : SourceKey) : Prop :=
  ∃ k l, Waiting h c k l ∧ k.provider = provider ∧ k.key = key

theorem poll_waits (sound : h.Sound) (keyed : h.Keyed c provider key) {now : Nat} {a : Awaiting}
    (pending : h.poll now c a = (.pending .news, h')) :
    h'.Sound ∧ h'.WaitsForNews c provider key ∧ Unmoved c key h h' := by
  have settled := poll_polling sound keyed now a
  rw [pending] at settled
  rcases settled with ⟨-, unheard⟩ | ⟨h₁, k, polling, known, opened, heard⟩
  · cases unheard
  -- Of all that listening comes to, only empty queues make a call wait for news.
  · have cases := listened h₁ c k
    have sound' := (listen_sound polling.sound known cases).1
    have moved := fun t => covers_listened (t := t) polling.sound known cases
    rw [heard] at sound' moved
    refine ⟨sound', ?_, polling.unmoved.trans moved⟩
    obtain ⟨k₁, known₁, named, same⟩ := polling.keyed
    cases known.symm.trans known₁
    dsimp only at heard
    generalize h₁.listen c k = r at cases heard
    cases cases with
    | waiting line taken up =>
      cases heard
      obtain ⟨-, idle, listens, -⟩ := Line.take_waiting (polling.sound.lines known line).fit taken
      exact ⟨_, _, ⟨setConsumer_self known _, opened, rfl, up, listens, idle⟩, named, same⟩
    | message => simp [eventOf] at heard
    | ended => simp at heard
    | none => simp at heard
    | down => simp at heard
    | lost => simp at heard
    | unsubscribed => simp at heard

theorem WaitsForNews.covers (waits : h.WaitsForNews c provider key) (sound : h.Sound) :
    ∃ t ∈ key.topics, h.Covers c t := by
  obtain ⟨k, l, waiting, -, rfl⟩ := waits
  obtain ⟨r, member⟩ := List.exists_mem_of_ne_nil _ waiting.listens
  have held := sound.lines waiting.known waiting.line
  obtain ⟨t, mine, there⟩ := held.live r member (waiting.idle r member).2
  exact ⟨t, mine, k, l, r, waiting.known, waiting.line, member, there⟩

/-! ## What is sent while a consumer waits -/

theorem WaitsForNews.hears (waits : h.WaitsForNews c provider key) (sound : h.Sound) {m : Message}
    {reach : ChannelId → Prop} {f : Receiver → Receiver} (deed : Deed (fun _ => False) f h h₁)
    (sends : Sends m reach f) (up : h₁.Reachable provider) {r : Receiver} (holds : h.Holds c r)
    (reached : reach r.channel) (now : Nat) :
    (h₁.poll now c .news).1 = .event ⟨key, m.topic, m.payload, h.partition? provider⟩ := by
  obtain ⟨k, l, waiting, rfl, rfl⟩ := waits
  obtain ⟨k', l', known', line', member⟩ := holds
  cases waiting.known.symm.trans known'
  cases waiting.line.symm.trans line'
  have known : h₁.consumers[c]? = some (k.map f) := by simp [deed.consumer, waiting.known]
  have line : (k.map f).line = some (l.map f) := by simp [Consumer.map, waiting.line]
  have fit := ((deed.sound sound).lines known line).fit
  have news : ∀ s ∈ (l.map f).receivers, ∀ x ∈ s.queue, x = m := by
    intro s there x queued
    rw [Line.map_receivers] at there
    obtain ⟨r, mine, rfl⟩ := List.mem_map.mp there
    rcases sends.only r x queued with old | new
    · simp [(waiting.idle r mine).1] at old
    · exact new
  have reached : f r ∈ (l.map f).receivers := by
    rw [Line.map_receivers]
    exact List.mem_map_of_mem member
  -- The line gives the head of some queue, and this message is all there is in any of them.
  obtain ⟨m', l₁, taken⟩ := Line.take_of_queue fit reached (sends.heard r ‹_›)
  have only : m' = m := by
    obtain ⟨s, q, others, leaves, head, -⟩ := Line.take_message fit taken
    obtain ⟨s', there, same⟩ := leaves.mem_before (List.mem_cons_self ..)
    exact news s' there m' (by simp [Receiver.queue_of_bare same, head])
  rw [poll_message known waiting.opened line up taken now, only, ← deed.rewired.partition?]
  rfl

/-- A message goes out under a topic: a memory broker takes it, or the message server does, from one
of its providers or from somebody else. -/
inductive Sent (h : Hub) : Option String → Message → Hub → Prop
  | memory {id topic : String} {payload : List UInt8} {h₁ : Hub} (memory : (h.memory? id).isSome)
      (done : h.perform (.produce id topic payload) = (h₁, [.produced id topic payload (.ok ())])) :
      Sent h (some id) ⟨topic, payload⟩ h₁
  | server {id topic : String} {payload : List UInt8} {h₁ : Hub} (server : h.memory? id = none)
      (done : h.perform (.produce id topic payload) = (h₁, [.produced id topic payload (.ok ())])) :
      Sent h none ⟨topic, payload⟩ h₁
  | published {topic : String} {payload : List UInt8} :
      Sent h none ⟨topic, payload⟩ (h.perform (.publish topic payload)).1

/-- On a memory broker a topic is its name, on the message server it is a pattern. -/
def TopicMatches : Option String → String → String → Prop
  | some _, t, topic => topic = t
  | none, t, topic => subjectMatches t topic = true

theorem memory?_of_home {id : String} (home : h.home provider = some id) :
    provider = id ∧ (h.memory? provider).isSome := by
  unfold Hub.home at home
  cases known : h.memory? provider with
  | none => simp [known] at home
  | some b => exact ⟨by simpa [known] using home, rfl⟩

theorem reachable_of_server (home : h.home provider = none) : h.Reachable provider := by
  intro b known
  simp [Hub.home, known] at home

theorem WaitsForNews.next (waits : h.WaitsForNews c provider key) (sound : h.Sound)
    (covers : h.Covers c t)
    {m : Message} (sent : h.Sent (h.home provider) m h₁)
    (fits : TopicMatches (h.home provider) t m.topic)
    (now : Nat) :
    (h₁.poll now c .news).1 = .event ⟨key, m.topic, m.payload, h.partition? provider⟩ := by
  obtain ⟨k, l, r, known, line, member, there⟩ := covers
  have holds : h.Holds c r := ⟨k, l, known, line, member⟩
  have named : k.provider = provider := by
    obtain ⟨k', l', waiting, same, -⟩ := waits
    cases known.symm.trans waiting.known
    exact same
  rw [named] at there
  have on_server : ∀ {f : Receiver → Receiver}, Deed (fun _ => False) f h h₁ →
      h.home provider = none → h₁.Reachable provider := fun deed home =>
    reachable_of_server (deed.rewired.home provider ▸ home)
  generalize home : h.home provider = o at sent fits there
  cases sent with
  | memory memory done =>
    obtain ⟨rfl, -⟩ := memory?_of_home home
    obtain ⟨ch, stamp, deed, outlet, available⟩ := produced_memory sound memory done
    have room : ∀ n, some topicWindow = some n → 0 < n := fun n same => by cases same; decide
    have held := sound.lines known line
    have mine : r.channel = ch := by
      have there' := (deed.rewired.old (held.made r member)).mpr ⟨there, id⟩
      dsimp only [TopicMatches] at fits
      exact (deed.orderly sound.toOrderly).single (fits ▸ there') outlet
    refine waits.hears sound deed (push_sends room stamp _ ch) (fun b known' => ?_) holds mine now
    obtain ⟨k', l', waiting, same, -⟩ := waits
    have up := available provider
    rw [known', Option.map_some] at up
    obtain ⟨b', known₁, same'⟩ := Option.map_eq_some_iff.mp up.symm
    exact same' ▸ waiting.up b' (same ▸ known₁)
  | server server done =>
    obtain ⟨f, deed, sends⟩ := produced_server server done
    exact waits.hears sound deed sends (on_server deed home) holds ⟨t, there, fits⟩ now
  | published =>
    obtain ⟨f, deed, sends⟩ := publish_deed h _ _
    exact waits.hears sound deed sends (on_server deed home) holds ⟨t, there, fits⟩ now

/-! ## Along a play -/

/-- An operation ends the stream of one topic while the consumer goes on with another. -/
def Parts (c : ConsumerId) (h : Hub) (op : Operation) : Prop :=
  op.endsOne = true ∧ (∃ t, h.Covers c t ∧ ¬ (h.perform op).1.Covers c t) ∧
    ∃ t, (h.perform op).1.Covers c t

/-- The streams of a consumer end together if at all. -/
def Unparted (c : ConsumerId) : Hub → List Operation → Prop
  | _, [] => True
  | h, op :: ops => ¬ Parts c h op ∧ Unparted c (h.perform op).1 ops

def AllOrNone (h : Hub) (c : ConsumerId) (key : SourceKey) : Prop :=
  (∀ t ∈ key.topics, h.Covers c t) ∨ ∀ t, ¬ h.Covers c t

theorem poll_keeps (sound : h.Sound) (keyed : h.Keyed c provider key) (now : Nat) (a : Awaiting) :
    (h.poll now c a).2.Keyed c provider key ∧ Unmoved c key h (h.poll now c a).2 := by
  rcases poll_polling sound keyed now a with ⟨polling, -⟩ | ⟨h₁, k, polling, known, -, heard⟩
  · exact ⟨polling.keyed, polling.unmoved⟩
  · have heard : Listened h₁ c k (.settled _, _) := heard ▸ listened h₁ c k
    exact ⟨polling.keyed.listened known heard,
      polling.unmoved.trans fun t => covers_listened polling.sound known heard⟩

/-- When the server ends all subscriptions, a consumer on the server covers nothing any more, and
one on a memory broker covers what it did. -/
theorem covers_cut (sound : h.Sound) (keyed : h.Keyed c provider key) {f : Receiver → Receiver}
    (deed : Deed (fun ch => ∃ t, h.Outlet none t ch) f h h') :
    Unmoved c key h h' ∨ ∀ t, ¬ h'.Covers c t := by
  obtain ⟨k, known, rfl, -⟩ := keyed
  cases home : h.home k.provider with
  | none =>
    refine .inr fun t covers => ?_
    obtain ⟨k', l, r, known', -, -, there, other⟩ := (covers_deed sound deed).mp covers
    cases known.symm.trans known'
    exact other ⟨t, home ▸ there⟩
  | some id =>
    refine .inl (.inl fun t => ⟨Covers.of_deed sound deed, fun covers => ?_⟩)
    obtain ⟨k', l, r, known', line, member, there⟩ := covers
    cases known.symm.trans known'
    refine (covers_deed sound deed).mpr ⟨k, l, r, known, line, member, there, ?_⟩
    -- A channel has one owner, and this one is a memory broker's.
    rintro ⟨t', there'⟩
    have owner := (sound.owner there there').1
    simp [home] at owner

/-- Of the topics a consumer covers, an operation leaves all, or it leaves none, or it is the end of
one outlet. -/
theorem perform_covers (sound : h.Sound) (keyed : h.Keyed c provider key) (op : Operation) :
    (h.perform op).1.Keyed c provider key ∧
    (Unmoved c key h (h.perform op).1 ∨ (∀ t, ¬ (h.perform op).1.Covers c t) ∨
      op.endsOne = true ∧ ∀ t, (h.perform op).1.Covers c t → h.Covers c t) := by
  have step := performed sound op
  generalize h.perform op = r at step
  cases step with
  | produced memory deed => exact ⟨keyed.deed deed, .inl (.inl fun t => covers_quiet sound deed)⟩
  | quiet deed => exact ⟨keyed.deed deed, .inl (.inl fun t => covers_quiet sound deed)⟩
  | ended one there deletes deed =>
    exact ⟨keyed.deed deed, .inr (.inr ⟨one, fun t => Covers.of_deed sound deed⟩)⟩
  | cut deed => exact ⟨keyed.deed deed, (covers_cut sound keyed deed).imp_right .inl⟩
  | opened opening =>
    have other : c ≠ h.consumers.length := by
      rintro rfl
      obtain ⟨k, known, -⟩ := keyed
      simp at known
    exact ⟨keyed.aside other opening.only,
      .inl (.inl fun t => covers_aside sound other opening.only)⟩
  | closed closes closing =>
    rename_i c' h'
    by_cases mine : c = c'
    · subst mine
      refine ⟨closing.keyed keyed, .inr (.inl fun t covers => ?_)⟩
      obtain ⟨r, holds⟩ := covers.holds
      exact closing.nobody r holds
    · exact ⟨keyed.aside mine closing.aside,
        .inl (.inl fun t => covers_aside sound mine closing.aside)⟩
  | next =>
    rename_i c' now a
    by_cases mine : c = c'
    · subst mine
      obtain ⟨keyed', unmoved⟩ := poll_keeps sound keyed now a
      exact ⟨keyed', .inl unmoved⟩
    · have only := (poll_sound sound now c' a).2
      exact ⟨keyed.aside mine only, .inl (.inl fun t => covers_aside sound mine only)⟩

theorem perform_allOrNone (sound : h.Sound) (keyed : h.Keyed c provider key) {op : Operation}
    (unparted : ¬ Parts c h op) (before : h.AllOrNone c key) :
    (h.perform op).1.AllOrNone c key := by
  obtain ⟨-, (same | all) | none | ⟨one, fewer⟩⟩ := perform_covers sound keyed op
  · exact before.imp (fun all t mine => (same t).mpr (all t mine)) fun none t =>
      (same t).not.mpr (none t)
  · exact .inl all
  · exact .inr none
  · rcases before with all | none
    -- A topic lost while another is left is what the play does not do.
    · by_cases some_left : ∃ t, (h.perform op).1.Covers c t
      · refine .inl fun t mine => Classical.byContradiction fun lost => ?_
        exact unparted ⟨one, ⟨t, all t mine, lost⟩, some_left⟩
      · exact .inr fun t covers => some_left ⟨t, covers⟩
    · exact .inr fun t covers => none t (fewer t covers)

theorem after_keyed (sound : h.Sound) (keyed : h.Keyed c provider key) (ops : List Operation) :
    (h.after ops).Sound ∧ (h.after ops).Keyed c provider key :=
  after_induction (P := fun h => h.Sound ∧ h.Keyed c provider key) ⟨sound, keyed⟩
    fun _ op _ before => ⟨perform_sound before.1 op, (perform_covers before.1 before.2 op).1⟩

theorem after_allOrNone {ops : List Operation} (sound : h.Sound) (keyed : h.Keyed c provider key)
    (unparted : Unparted c h ops) (start : h.AllOrNone c key) : (h.after ops).AllOrNone c key := by
  induction ops generalizing h with
  | nil => exact start
  | cons op ops ih =>
    exact ih (perform_sound sound op) (perform_covers sound keyed op).1 unparted.2
      (perform_allOrNone sound keyed unparted.1 start)

/-- A consumer that waits for news covers a topic of its key, and it covers all of them if the
streams of its topics have ended together only. What it covers the call has left as it was, or all
is covered again. And what is sent under a topic that it covers is its next event. -/
theorem waiting_consumer_covers (opened : h.Opened c provider key) {ops : List Operation}
    {now : Nat} {a : Awaiting}
    (waits : (h.after ops).perform (.next c now a) = (h', [.polled c (.pending .news)])) :
    (∃ t ∈ key.topics, h'.Covers c t) ∧
    (Unparted c h ops → ∀ t ∈ key.topics, h'.Covers c t) ∧
    ((∀ t, h'.Covers c t ↔ (h.after ops).Covers c t) ∨ ∀ t ∈ key.topics, h'.Covers c t) ∧
    ∀ t m h₁, h'.Covers c t → h'.Sent (h'.home provider) m h₁ →
      TopicMatches (h'.home provider) t m.topic → ∀ now, (h₁.perform (.next c now .news)).2 =
        [.polled c (.event ⟨key, m.topic, m.payload, h'.partition? provider⟩)] := by
  obtain ⟨sound, k, known, named, same, -, attuned⟩ := opened.consumer
  have keyed : h.Keyed c provider key := ⟨k, known, named, same⟩
  have start : h.AllOrNone c key := .inl fun t mine => attuned.covers known (same ▸ mine)
  obtain ⟨sound₁, keyed₁⟩ := after_keyed sound keyed ops
  simp only [perform, Prod.mk.injEq, List.cons.injEq, Happening.polled.injEq, true_and,
    and_true] at waits
  obtain ⟨sound', waiting, unmoved⟩ := poll_waits sound₁ keyed₁ (Prod.ext waits.2 waits.1)
  obtain ⟨t, mine, covered⟩ := waiting.covers sound'
  refine ⟨⟨t, mine, covered⟩, fun unparted => ?_, unmoved, fun t m h₁ covers sent fits now => ?_⟩
  · rcases unmoved with same | all
    · rcases after_allOrNone sound keyed unparted start with all | none
      · exact fun t mine => (same t).mpr (all t mine)
      · exact absurd ((same t).mp covered) (none t)
    · exact all
  · simp only [perform, waiting.next sound' covers sent fits now]

/-- A consumer of two topics has had its record and waits again. -/
theorem waiting_consumer_covers_two : ∃ h h' : Hub, h.Opened 0 "p" ⟨"p", ["a", "b"]⟩ ∧
    (h.after [.produce "p" "b" [49], .next 0 0 .news]).perform (.next 0 0 .news) =
      (h', [.polled 0 (.pending .news)]) ∧ ∀ t ∈ ["a", "b"], h'.Covers 0 t := by
  have opened : Hub.Opened _ 0 "p" ⟨"p", ["a", "b"]⟩ :=
    ⟨{}, [{ id := "p", backend := .memory }], _, [], by decide, rfl, rfl, rfl⟩
  refine ⟨_, _, opened, rfl, (waiting_consumer_covers opened rfl).2.1 ?_⟩
  exact ⟨fun parts => absurd parts.1 (by decide), fun parts => absurd parts.1 (by decide), trivial⟩

end Hub

end SubscriptionGateway.Broker
