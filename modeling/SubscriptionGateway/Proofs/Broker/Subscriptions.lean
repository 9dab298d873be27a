import SubscriptionGateway.Proofs.Broker.Retries

/-!
The subscriptions a consumer makes on the message server. Subscribing to the topics of a key makes
one subscription for each of them or leaves none. A consumer does it when it is opened and when all
it had have ended, so it never holds more than those of its last success, and closing it gives up
exactly what was ever made for it and is still there.
-/
namespace SubscriptionGateway.Broker

namespace Hub

variable {h h' h₁ : Hub} {c : ConsumerId} {k : Consumer} {key : SourceKey}
  {mine new : List Subscribed}

/-! ## All or none -/

/-- One subscription more for each topic, in the order of the topics, each on a channel of its
own. -/
structure Adds (topics : List String) (new before after : List Subscribed) : Prop where
  added : after = before ++ new
  subjects : new.map (·.subject) = topics
  apart : (new.map (·.channel)).Nodup
  unused : ∀ x ∈ new, ∀ y ∈ before, x.channel ≠ y.channel

theorem subjects_zipWith {chs : List ChannelId} {topics : List String}
    (same : chs.length = topics.length) :
    (List.zipWith Subscribed.mk chs topics).map (·.subject) = topics := by
  induction chs generalizing topics with
  | nil => exact (List.length_eq_zero_iff.mp same.symm).symm
  | cons ch chs ih =>
    cases topics with
    | nil => cases same
    | cons t ts => simpa using ih (by simpa using same)

/-- What subscribing comes to on a server, whatever it holds and whatever it grants. -/
theorem subscribeAll_adds (made : ∀ x ∈ h.server.subscriptions, x.channel < h.channels)
    (key : SourceKey) :
    (∀ e h', h.subscribeAll key = (.error e, h') →
      h'.server.subscriptions = h.server.subscriptions) ∧
    ∀ chs h', h.subscribeAll key = (.ok chs, h') → ∃ new, new.map (·.channel) = chs ∧
      Adds key.topics new h.server.subscriptions h'.server.subscriptions := by
  have spec := @server_subscribeAll h.server _ [] _ h.channels key.topics
    (List.append_nil _).symm made (by simp) (Nat.le_refl _)
  unfold subscribeAll
  simp only [List.map_nil, List.nil_append, List.append_nil] at spec
  generalize h.server.subscribeAll h.channels [] key.topics = r at spec
  obtain ⟨result, s'⟩ := r
  cases result with
  | error e =>
    constructor
    · rintro e' h' same
      cases same
      exact spec
    · rintro chs h' same
      cases same
  | ok chs =>
    obtain ⟨rfl, subs⟩ := spec
    constructor
    · rintro e h' same
      cases same
    · rintro chs h' same
      cases same
      have length : (List.range' h.channels key.topics.length).length = key.topics.length := by simp
      have channels := channels_zipWith length
      refine ⟨_, channels, subs, subjects_zipWith length, ?_, ?_⟩
      · rw [channels]
        exact List.nodup_range'
      · intro x member y old clash
        have later := List.mem_map_of_mem (f := (·.channel)) member
        rw [channels] at later
        have range := (List.mem_range'_1.mp later).1
        rw [clash] at range
        exact absurd (made y old) (Nat.not_lt.mpr range)

/-! ## What is whose -/

/-- Of the subscriptions on the server, those in the list are those that the line listens to. -/
def Owns (mine : List Subscribed) (h : Hub) (line : Option Line) : Prop :=
  ∀ x ∈ h.server.subscriptions, x ∈ mine ↔ x.channel ∈ (line.map Line.channels).getD []

/-- A consumer on the message server, with all subscriptions that were ever made for it. -/
structure SubscriptionsKept (key : SourceKey) (c : ConsumerId) (mine : List Subscribed)
    (h : Hub) : Prop where
  sound : h.Sound
  made : ∀ x ∈ mine, x.channel < h.channels
  consumer : ∃ k, h.consumers[c]? = some k ∧ k.key = key ∧ h.memory? k.provider = none ∧
    Owns mine h k.line

def Lineless (c : ConsumerId) (h : Hub) : Prop := ∀ k, h.consumers[c]? = some k → k.line = none

theorem line_made (sound : h.Sound) (known : h.consumers[c]? = some k) {ch : ChannelId}
    (member : ch ∈ (k.line.map Line.channels).getD []) : ch < h.channels := by
  cases line : k.line with
  | none => simp [line] at member
  | some l =>
    rw [line] at member
    obtain ⟨r, there, rfl⟩ := List.mem_map.mp member
    exact (sound.lines known line).made r there

theorem Owns.rewired {gone : ChannelId → Prop} {line : Option Line} (owns : Owns mine h line)
    (rewired : Rewired gone h h') (made : ∀ x ∈ mine, x.channel < h.channels)
    (held : ∀ ch ∈ (line.map Line.channels).getD [], ch < h.channels) : Owns mine h' line := by
  intro x there
  by_cases old : x.channel < h.channels
  · have before := (rewired.old (o := none) (t := x.subject) old).mp there
    exact owns x before.1
  · constructor
    · intro member
      exact absurd (made x member) old
    · intro member
      exact absurd (held _ member) old

theorem Owns.line {line line' : Option Line} (owns : Owns mine h line)
    (same : ∀ x ∈ h.server.subscriptions, x.channel ∈ (line.map Line.channels).getD [] ↔
      x.channel ∈ (line'.map Line.channels).getD []) : Owns mine h line' := by
  intro x there
  rw [owns x there, same x there]

theorem remains_channel {l l' : Line} (held : Held h k l) (remains : Line.Remains l l')
    {x : Subscribed} (there : x ∈ h.server.subscriptions) :
    x.channel ∈ l.channels ↔ x.channel ∈ l'.channels := by
  constructor
  · intro member
    obtain ⟨r, mine, channel⟩ := List.mem_map.mp member
    have outlet : h.Outlet none x.subject r.channel := by rw [channel]; exact there
    obtain ⟨r', stays, same⟩ := remains.stays r mine (held.not_ended mine outlet)
    exact List.mem_map.mpr ⟨r', stays, same.trans channel⟩
  · intro member
    obtain ⟨r', mine, channel⟩ := List.mem_map.mp member
    obtain ⟨r, came, same, -⟩ := remains.came r' mine
    exact List.mem_map.mpr ⟨r, came, same.trans channel⟩

theorem ended_channel {l : Line} (held : Held h k l) (taken : l.take = .ended) {x : Subscribed}
    (there : x ∈ h.server.subscriptions) : x.channel ∉ l.channels := by
  intro member
  obtain ⟨r, mine, channel⟩ := List.mem_map.mp member
  have outlet : h.Outlet none x.subject r.channel := by rw [channel]; exact there
  have ended := (Line.take_ended held.fit taken r mine).1
  rw [held.not_ended mine outlet] at ended
  cases ended

/-! ## Through the laps of a call -/

theorem SubscriptionsKept.setConsumer (kept : SubscriptionsKept key c mine h)
    (known : h.consumers[c]? = some k)
    {k' : Consumer} (sound : (h.setConsumer c k').Sound) (named : k'.key = k.key)
    (provider : k'.provider = k.provider) (owns : Owns mine h k'.line) :
    SubscriptionsKept key c mine (h.setConsumer c k') := by
  obtain ⟨k₁, known₁, rfl, server, -⟩ := kept.consumer
  cases known.symm.trans known₁
  exact ⟨sound, kept.made, k', setConsumer_self known k', named, provider ▸ server, owns⟩

theorem SubscriptionsKept.owns (kept : SubscriptionsKept key c mine h)
    (known : h.consumers[c]? = some k) :
    k.key = key ∧ h.memory? k.provider = none ∧ Owns mine h k.line := by
  obtain ⟨k₁, known₁, rest⟩ := kept.consumer
  cases known.symm.trans known₁
  exact rest

theorem listen_kept (kept : SubscriptionsKept key c mine h) (known : h.consumers[c]? = some k)
    {r : Heard × Hub}
    (heard : Listened h c k r) :
    SubscriptionsKept key c mine r.2 ∧ r.2.server.subscriptions = h.server.subscriptions ∧
      (r.1 = .lost → Lineless c r.2) := by
  obtain ⟨-, server, owns⟩ := kept.owns known
  have sound := (listen_sound kept.sound known heard).1
  cases heard with
  | @message l l' m line taken up =>
    have held := kept.sound.lines known line
    have remains := Line.take_message_remains held.fit taken
    refine ⟨kept.setConsumer known sound rfl rfl (owns.line fun x there => ?_), rfl, by simp⟩
    simpa [line] using remains_channel held remains there
  | @waiting l l' line taken up =>
    have held := kept.sound.lines known line
    have remains := Line.take_waiting_remains held.fit taken
    refine ⟨kept.setConsumer known sound rfl rfl (owns.line fun x there => ?_), rfl, by simp⟩
    simpa [line] using remains_channel held remains there
  | ended line taken memory => simp [server] at memory
  | none line memory => simp [server] at memory
  | down memory => simp [server] at memory
  | @lost l line taken _ =>
    have held := kept.sound.lines known line
    refine ⟨kept.setConsumer known sound rfl rfl (owns.line fun x there => ?_), rfl,
      fun _ k' same => ?_⟩
    · simpa [line] using ended_channel held taken there
    · cases (setConsumer_self known _).symm.trans same
      rfl
  | unsubscribed line _ =>
    refine ⟨kept, rfl, fun _ k' same => ?_⟩
    cases known.symm.trans same
    exact line

theorem lap_kept (kept : SubscriptionsKept key c mine h) :
    SubscriptionsKept key c mine (h.lap c).2 ∧
      (h.lap c).2.server.subscriptions = h.server.subscriptions ∧
      ((h.lap c).1.isRest = true → Lineless c (h.lap c).2) := by
  obtain ⟨k, known, -⟩ := kept.consumer
  have lap := lapped known
  generalize h.lap c = r at lap
  cases lap with
  | closed closed => exact ⟨kept, rfl, fun rests => by cases rests⟩
  | heard opened heard =>
    obtain ⟨kept', same, -⟩ := listen_kept kept known (heard ▸ listened h c k)
    exact ⟨kept', same, fun rests => by cases rests⟩
  | failed opened lost =>
    obtain ⟨kept', same, -⟩ := listen_kept kept known (lost ▸ listened h c k)
    exact ⟨kept', same, fun rests => by cases rests⟩
  | @rests h₁ line delay opened lost known₁ some_left =>
    obtain ⟨kept', same, lineless⟩ := listen_kept kept known (lost ▸ listened h c k)
    have sound := count_sound kept'.sound known₁
      { k.backoff with attempts := k.backoff.attempts + 1 }
    refine ⟨kept'.setConsumer known₁ sound rfl rfl (kept'.owns known₁).2.2, same,
      fun _ k' there => ?_⟩
    cases (setConsumer_self known₁ _).symm.trans there
    exact (lineless rfl _ known₁ :)

def Gains (topics : List String) (new before after : List Subscribed) : Prop :=
  new = [] ∧ after = before ∨ Adds topics new before after

theorem Gains.append {topics : List String} {before after : List Subscribed}
    (gains : Gains topics new before after) : after = before ++ new := by
  rcases gains with ⟨rfl, same⟩ | adds
  · rw [same, List.append_nil]
  · exact adds.added

theorem fresh_channels (chs : List ChannelId) : (⟨chs.map fresh, []⟩ : Line).channels = chs := by
  simp [Line.channels, Line.receivers, Function.comp_def, fresh]

theorem not_wants_fresh {chs : List ChannelId} (known : h.consumers[c]? = some k)
    (server : h.memory? k.provider = none) (line : k.line = some ⟨chs.map fresh, []⟩)
    (some_topic : chs ≠ []) : ¬ h.Wants c := by
  rintro ⟨k', known', -, cut⟩
  cases known.symm.trans known'
  obtain ⟨ch, member⟩ := List.exists_mem_of_ne_nil _ some_topic
  simp only [CutOff, server] at cut
  have spent := cut _ line (fresh ch) (by simpa [Line.receivers] using List.mem_map_of_mem member)
  exact absurd spent.1 (by simp [fresh])

theorem Adds.owns {topics : List String} {before : List Subscribed} {chs : List ChannelId}
    (adds : Adds topics new before h.server.subscriptions) (channels : new.map (·.channel) = chs)
    (others : ∀ x ∈ before, x ∉ mine) : Owns (mine ++ new) h (some ⟨chs.map fresh, []⟩) := by
  intro x there
  simp only [Option.map_some, Option.getD_some, fresh_channels, List.mem_append]
  rw [← channels]
  rw [adds.added] at there
  rcases List.mem_append.mp there with old | made
  · constructor
    · rintro (member | member)
      · exact absurd member (others x old)
      · exact List.mem_map_of_mem member
    · intro member
      obtain ⟨y, member, same⟩ := List.mem_map.mp member
      exact absurd same (adds.unused y member x old)
  · exact ⟨fun _ => List.mem_map_of_mem made, fun _ => .inr made⟩

theorem SubscriptionsKept.attach (kept : SubscriptionsKept key c mine h)
    (known : h.consumers[c]? = some k)
    (line : k.line = none) {chs : List ChannelId} (channels : new.map (·.channel) = chs)
    (adds : Adds key.topics new h.server.subscriptions h₁.server.subscriptions)
    (consumers : h₁.consumers = h.consumers) (providers : h₁.providers = h.providers)
    (grows : h.channels ≤ h₁.channels)
    (sound : (h₁.setConsumer c { k with line := some ⟨chs.map fresh, []⟩ }).Sound) :
    SubscriptionsKept key c (mine ++ new)
      (h₁.setConsumer c { k with line := some ⟨chs.map fresh, []⟩ }) ∧
      (new ≠ [] → ¬ (h₁.setConsumer c { k with line := some ⟨chs.map fresh, []⟩ }).Wants c) := by
  obtain ⟨named, server, owns⟩ := kept.owns known
  have known₁ : h₁.consumers[c]? = some k := consumers ▸ known
  have self := setConsumer_self known₁ { k with line := some ⟨chs.map fresh, []⟩ }
  have server' : (h₁.setConsumer c { k with line := some ⟨chs.map fresh, []⟩ }).memory?
      k.provider = none := by
    change h₁.memory? k.provider = none
    unfold memory? provider?
    rw [providers]
    exact server
  refine ⟨⟨sound, fun x member => ?_, _, self, named, server', ?_⟩, fun some_new => ?_⟩
  · rcases List.mem_append.mp member with old | made
    · exact Nat.lt_of_lt_of_le (kept.made x old) grows
    · refine sound.made (o := none) (t := x.subject) (?_ : x ∈ h₁.server.subscriptions)
      rw [adds.added]
      exact List.mem_append_right _ made
  · refine adds.owns (h := h₁.setConsumer c _) channels fun x old => ?_
    have others := owns x old
    simpa [line] using others
  · refine not_wants_fresh self server' rfl ?_
    rintro rfl
    exact some_new (List.map_eq_nil_iff.mp channels)

theorem renew_kept (kept : SubscriptionsKept key c mine h) (lineless : Lineless c h) :
    ∃ new, SubscriptionsKept key c (mine ++ new) (h.renew c) ∧
      Gains key.topics new h.server.subscriptions (h.renew c).server.subscriptions ∧
      (new ≠ [] → ¬ (h.renew c).Wants c) := by
  obtain ⟨k, known, named, server, owns⟩ := kept.consumer
  have nothing : ∀ {h' : Hub}, SubscriptionsKept key c mine h' →
      h'.server.subscriptions = h.server.subscriptions →
        ∃ new, SubscriptionsKept key c (mine ++ new) h' ∧
        Gains key.topics new h.server.subscriptions h'.server.subscriptions ∧
        (new ≠ [] → ¬ h'.Wants c) := fun kept' same =>
    ⟨[], by rwa [List.append_nil], .inl ⟨rfl, same⟩, fun some => absurd rfl some⟩
  have made : ∀ x ∈ h.server.subscriptions, x.channel < h.channels := fun x member =>
    kept.sound.made (o := none) (t := x.subject) member
  have sound := (renew_spec kept.sound c).1
  obtain ⟨refused, granted⟩ := subscribeAll_adds made k.key
  obtain ⟨-, steady, consumers, providers, -⟩ := subscribeAll_spec kept.sound.toOrderly k.key
  unfold renew at sound ⊢
  simp only [known, server, Option.isSome_none, Bool.false_or] at sound ⊢
  by_cases closed : k.closed = true
  · rw [if_pos closed]
    exact nothing kept rfl
  · rw [if_neg closed] at sound ⊢
    cases subscribed : h.subscribeAll k.key with
    | mk result h₁ =>
      rw [subscribed] at sound steady consumers providers
      dsimp only at sound steady consumers providers ⊢
      cases result with
      | error e =>
        refine nothing ⟨sound, ?_, k, consumers ▸ known, named, ?_, ?_⟩ (refused e h₁ subscribed)
        · intro x member
          exact Nat.lt_of_lt_of_le (kept.made x member) steady.grows
        · unfold memory? provider?
          rw [providers]
          exact server
        · exact owns.rewired steady kept.made fun ch => line_made kept.sound known
      | ok chs =>
        obtain ⟨new, channels, adds⟩ := granted chs h₁ subscribed
        rw [named] at adds
        have line := lineless k known
        obtain ⟨kept', awake⟩ := kept.attach known line channels adds consumers providers
          steady.grows sound
        exact ⟨new, kept', .inr adds, awake⟩

structure Subscribing (key : SourceKey) (c : ConsumerId) (mine new : List Subscribed) (h : Hub)
    (r : Polled × Hub) : Prop where
  kept : SubscriptionsKept key c (mine ++ new) r.2
  gains : Gains key.topics new h.server.subscriptions r.2.server.subscriptions
  lineless : ∀ t, r.1 = .pending (.retry t) → Lineless c r.2

/-- Of several attempts only the last can have succeeded. -/
theorem Subscribing.after {first second : List Subscribed} {r : Polled × Hub}
    (gains : Gains key.topics first h.server.subscriptions h₁.server.subscriptions)
    (rest : Subscribing key c (mine ++ first) second h₁ r) (last : first ≠ [] → second = []) :
    Subscribing key c mine (first ++ second) h r := by
  refine ⟨?_, ?_, rest.lineless⟩
  · rw [← List.append_assoc]
    exact rest.kept
  · have before := gains.append
    have after := rest.gains
    by_cases none : first = []
    · subst none
      rwa [before, List.append_nil] at after
    · have nothing := last none
      subst nothing
      have same := after.append
      rw [List.append_nil] at same
      rwa [List.append_nil, same]

theorem pollFuel_subscribing (fuel now : Nat) (kept : SubscriptionsKept key c mine h) :
    ∃ new, Subscribing key c mine new h (pollFuel fuel now c h) ∧ (¬ h.Wants c → new = []) := by
  induction fuel generalizing h mine with
  | zero =>
    refine ⟨[], ⟨?_, .inl ⟨rfl, rfl⟩, fun t pending => by cases pending⟩, fun _ => rfl⟩
    rwa [List.append_nil]
  | succ fuel ih =>
    obtain ⟨k, known, -⟩ := kept.consumer
    obtain ⟨kept₁, same, lineless⟩ := lap_kept kept
    have settles := lap_not_retry known
    have wants (delay : Nat) (rests : (h.lap c).1 = .rests delay) : h.Wants c :=
      wants_of_rest kept.sound known rests
    rw [pollFuel_succ]
    cases turn : h.lap c with
    | mk t h₁ =>
      rw [turn] at kept₁ same lineless settles wants
      dsimp only at kept₁ same lineless settles wants
      cases t with
      | settled p =>
        refine ⟨[], ⟨?_, .inl ⟨rfl, same⟩, fun t pending => ?_⟩, fun _ => rfl⟩
        · rwa [List.append_nil]
        · exact absurd (congrArg Lap.settled pending) (settles t)
      | rests delay =>
        have needed := wants delay rfl
        by_cases soon : delay = 0
        · simp only [soon, if_true]
          obtain ⟨first, kept₂, gains, awake⟩ := renew_kept kept₁ (lineless rfl)
          obtain ⟨second, rest, calm⟩ := ih kept₂
          rw [same] at gains
          exact ⟨first ++ second, .after gains rest fun some => calm (awake some),
            fun other => absurd needed other⟩
        · simp only [soon, if_false]
          refine ⟨[], ⟨?_, .inl ⟨rfl, same⟩, fun t _ => lineless rfl⟩, fun _ => rfl⟩
          rwa [List.append_nil]

theorem poll_subscribing (kept : SubscriptionsKept key c mine h) (now : Nat) {a : Awaiting}
    (lineless : ∀ t, a = .retry t → Lineless c h) :
    ∃ new, Subscribing key c mine new h (h.poll now c a) := by
  by_cases due : Due a now
  · rw [(poll_due due).1]
    cases a with
    | news =>
      obtain ⟨new, subscribing, -⟩ := pollFuel_subscribing (h.pollBudget c) now kept
      exact ⟨new, subscribing⟩
    | retry t =>
      obtain ⟨first, kept₁, gains, awake⟩ := renew_kept kept (lineless t rfl)
      obtain ⟨second, rest, calm⟩ := pollFuel_subscribing ((h.renew c).pollBudget c) now kept₁
      exact ⟨first ++ second, .after gains rest fun some => calm (awake some)⟩
  · rw [(poll_early due).1]
    refine ⟨[], by rwa [List.append_nil], .inl ⟨rfl, rfl⟩, fun t pending => ?_⟩
    cases pending
    exact lineless t rfl

/-! ## Along a play -/

def underWay (h : Hub) (c : ConsumerId) (w : Option Awaiting) : Operation → Option Awaiting
  | .next c' now a =>
    if c' = c then
      match (h.poll now c a).1 with
      | .pending a' => some a'
      | _ => none
    else w
  | .closeConsumer c' | .dropConsumer c' => if c' = c then none else w
  | _ => w

/-- Calls for the consumer's next event are made one after the other: each is new, which gives up
one that was under way, or goes on from what the one under way waits for. -/
def Called (c : ConsumerId) : Hub → Option Awaiting → List Operation → Prop
  | _, _, [] => True
  | h, w, op :: ops => (∀ now a, op = .next c now a → a = .news ∨ some a = w) ∧
    Called c (h.perform op).1 (h.underWay c w op) ops

def awaits (c : ConsumerId) : Hub → Option Awaiting → List Operation → Option Awaiting
  | _, w, [] => w
  | h, w, op :: ops => awaits c (h.perform op).1 (h.underWay c w op) ops

def gained (h : Hub) (c : ConsumerId) : Operation → List Subscribed
  | .next c' now a =>
    if c' = c then (h.poll now c a).2.server.subscriptions.drop
      h.server.subscriptions.length else []
  | _ => []

/-- All subscriptions made for the consumer in a play. -/
def madeFor (c : ConsumerId) : Hub → List Operation → List Subscribed
  | _, [] => []
  | h, op :: ops => h.gained c op ++ madeFor c (h.perform op).1 ops

structure Tidy (key : SourceKey) (c : ConsumerId) (mine : List Subscribed) (w : Option Awaiting)
    (h : Hub) : Prop extends SubscriptionsKept key c mine h where
  lineless : ∀ t, w = some (.retry t) → Lineless c h

theorem perform_rewired (sound : h.Sound) (op : Operation) :
    ∃ gone, Rewired gone h (h.perform op).1 := by
  have step := performed sound op
  generalize h.perform op = r at step
  cases step with
  | produced memory deed => exact ⟨_, deed.rewired⟩
  | quiet deed => exact ⟨_, deed.rewired⟩
  | ended one there deletes deed => exact ⟨_, deed.rewired⟩
  | cut deed => exact ⟨_, deed.rewired⟩
  | opened opening => exact ⟨_, opening.only.rewired⟩
  | closed closes closing => exact ⟨_, closing.aside.rewired⟩
  | next => exact ⟨_, (poll_sound sound _ _ _).2.rewired⟩

theorem perform_server (sound : h.Sound) {provider : String} (server : h.memory? provider = none)
    (op : Operation) : (h.perform op).1.memory? provider = none := by
  have home := (perform_home sound op provider).trans (home_of_server server)
  simpa [Hub.home] using home

theorem apart_kept (kept : SubscriptionsKept key c mine h) {op : Operation}
    (apart : op.concerns c = false) :
    SubscriptionsKept key c mine (h.perform op).1 ∧
      (Lineless c h → Lineless c (h.perform op).1) := by
  obtain ⟨k, known, named, server, owns⟩ := kept.consumer
  obtain ⟨gone, f, touch, known'⟩ := perform_apart kept.sound known apart
  obtain ⟨gone', rewired⟩ := perform_rewired kept.sound op
  have channels : (k.map f).line.map Line.channels = k.line.map Line.channels := by
    cases line : k.line with
    | none => simp [Consumer.map, line]
    | some l =>
      have same : (l.map f).channels = l.channels := by
        simp [Line.channels, Line.map_receivers, Function.comp_def, touch.channel]
      simp [Consumer.map, line, same]
  constructor
  · refine ⟨perform_sound kept.sound op, fun x member => ?_, _, known', named,
      perform_server kept.sound server op, ?_⟩
    · exact Nat.lt_of_lt_of_le (kept.made x member) rewired.grows
    · have still := owns.rewired rewired kept.made fun ch => line_made kept.sound known
      intro x there
      rw [channels]
      exact still x there
  · intro lineless k' same
    cases known'.symm.trans same
    have none := lineless k known
    simp [Consumer.map, none]

theorem closes_kept (kept : SubscriptionsKept key c mine h) {op : Operation}
    (closes : op.closes = some c) :
    SubscriptionsKept key c mine (h.perform op).1 := by
  obtain ⟨k, known, named, server, owns⟩ := kept.consumer
  obtain ⟨line, known'⟩ := perform_closes known _ closes
  have sound := perform_sound kept.sound op
  have closing : Closing c h (h.perform op).1 := by
    cases op with
    | closeConsumer c' =>
      cases closes
      exact closeConsumer_closing kept.sound c
    | dropConsumer c' =>
      cases closes
      exact dropConsumer_closing kept.sound c
    | _ => cases closes
  have rewired := closing.aside.rewired
  refine ⟨sound, fun x member => ?_, _, known', named, perform_server kept.sound server op, ?_⟩
  · exact Nat.lt_of_lt_of_le (kept.made x member) rewired.grows
  · -- What the line listened to is gone, and a closed consumer has no line.
    intro x there
    have none : line = none := by
      cases line with
      | none => rfl
      | some l =>
        have opened := (sound.lines known' rfl).opened
        cases opened
    subst none
    simp only [Option.map_none, Option.getD_none, List.not_mem_nil, iff_false]
    intro member
    have old := kept.made x member
    have before := (rewired.old (o := none) (t := x.subject) old).mp there
    have listened := (owns x before.1).mp member
    refine before.2 ⟨?_, x.subject, before.1⟩
    cases line : k.line with
    | none => simp [line] at listened
    | some l =>
      rw [line] at listened
      obtain ⟨r, mine, channel⟩ := List.mem_map.mp listened
      exact ⟨r, ⟨k, l, known, line, mine⟩, channel⟩

theorem perform_tidy {w : Option Awaiting} (tidy : Tidy key c mine w h) {op : Operation}
    (called : ∀ now a, op = .next c now a → a = .news ∨ some a = w) :
    Tidy key c (mine ++ h.gained c op) (h.underWay c w op) (h.perform op).1 := by
  rcases op.about c with apart | closes | ⟨now, a, rfl⟩
  · have kept := apart_kept tidy.toSubscriptionsKept apart
    have nothing : h.gained c op = [] ∧ h.underWay c w op = w := by
      cases op <;> simp_all [gained, underWay, Operation.concerns]
    rw [nothing.1, nothing.2, List.append_nil]
    exact ⟨kept.1, fun t same => kept.2 (tidy.lineless t same)⟩
  · have nothing : h.gained c op = [] ∧ h.underWay c w op = none := by
      cases op <;> simp_all [gained, underWay, Operation.closes]
    rw [nothing.1, nothing.2, List.append_nil]
    exact ⟨closes_kept tidy.toSubscriptionsKept closes, fun t same => by cases same⟩
  · have lineless : ∀ t, a = .retry t → Lineless c h := by
      intro t waits
      rcases called now a rfl with new | goes
      · rw [new] at waits
        cases waits
      · exact tidy.lineless t (by rw [← goes, waits])
    obtain ⟨new, kept, gains, lineless'⟩ := poll_subscribing tidy.toSubscriptionsKept now lineless
    have own : h.gained c (.next c now a) = new := by
      simp [gained, gains.append]
    rw [own]
    refine ⟨kept, fun t same => lineless' t ?_⟩
    simp only [underWay, if_true] at same
    cases settles : (h.poll now c a).1 with
    | pending a' =>
      rw [settles] at same
      exact congrArg Polled.pending (Option.some.inj same)
    | event e => simp [settles] at same
    | ended => simp [settles] at same
    | failed e => simp [settles] at same

theorem after_tidy {w : Option Awaiting} (tidy : Tidy key c mine w h) {ops : List Operation}
    (called : Called c h w ops) :
    Tidy key c (mine ++ madeFor c h ops) (awaits c h w ops) (h.after ops) := by
  induction ops generalizing h mine w with
  | nil =>
    rw [madeFor, List.append_nil]
    exact tidy
  | cons op ops ih =>
    have rest := ih (perform_tidy tidy called.1) called.2
    rwa [List.append_assoc] at rest

/-! ## Opening and closing -/

/-- Brokers that nobody of this gateway has used. The message server may hold any subscriptions of
others, and it may grant as much or as little as it likes. -/
structure Unused (h : Hub) : Prop where
  consumers : h.consumers = []
  topics : ∀ id b, h.memory? id = some b → b.topics = []
  made : ∀ x ∈ h.server.subscriptions, x.channel < h.channels
  apart : (h.server.subscriptions.map (·.channel)).Nodup

theorem Unused.sound (unused : h.Unused) : h.Sound := by
  have memory : ∀ {id t ch}, ¬ h.Outlet (some id) t ch := by
    rintro id t ch ⟨b, known, member⟩
    simp [unused.topics id b known] at member
  refine ⟨⟨?_, ?_, ?_⟩, ?_, ?_⟩
  · intro o t ch there
    cases o with
    | none => exact unused.made _ there
    | some id => exact absurd there memory
  · intro o t o' t' ch there there'
    cases o with
    | some id => exact absurd there memory
    | none =>
      cases o' with
      | some id => exact absurd there' memory
      | none =>
        have same := List.inj_on_of_nodup_map unused.apart there there' rfl
        exact ⟨rfl, congrArg Subscribed.subject same⟩
  · intro id t ch ch' there
    exact absurd there memory
  · intro c k l known
    simp [unused.consumers] at known
  · rintro c c' r r' t ⟨k, l, known, -⟩
    simp [unused.consumers] at known

theorem openConsumer_adds (sound : h.Sound) {p : Provider} (known : h.provider? p.id = some p)
    (kind : p.kind = .nats) (key : SourceKey) :
    (∀ e h', h.openConsumer p key = (.error e, h') →
      h'.server.subscriptions = h.server.subscriptions) ∧
    ∀ c h', h.openConsumer p key = (.ok c, h') → ∃ new,
      Adds key.topics new h.server.subscriptions h'.server.subscriptions ∧
      Tidy key c new none h' := by
  have made : ∀ x ∈ h.server.subscriptions, x.channel < h.channels := fun x member =>
    sound.made (o := none) (t := x.subject) member
  have server : h.memory? p.id = none := by simp [memory?, known, kind]
  obtain ⟨refused, granted⟩ := subscribeAll_adds made key
  have opening := opening_server sound known kind key
  have homes := opening.only.rewired.homes p.id
  have sound' := opening.sound
  simp only [openConsumer, kind] at homes sound' ⊢
  cases subscribed : h.subscribeAll key with
  | mk result h₁ =>
    rw [subscribed] at homes sound'
    cases result with
    | error e =>
      constructor
      · rintro e' h' done
        cases done
        exact refused e h₁ subscribed
      · rintro c h' done
        cases done
    | ok chs =>
      constructor
      · rintro e' h' done
        cases done
      · rintro c h' done
        cases done
        obtain ⟨new, channels, adds⟩ := granted chs h₁ subscribed
        have away : (h₁.addConsumer p key chs).2.memory? p.id = none := by
          simpa [server] using homes
        have there : (h₁.addConsumer p key chs).2.consumers[(h₁.addConsumer p key chs).1]? = some
            { provider := p.id, key := key, backoff := ⟨p.retry, 0⟩
              line := some ⟨chs.map fresh, []⟩ } := by
          simp [addConsumer]
        refine ⟨new, adds, ⟨⟨sound', fun x member => ?_, _, there, rfl, away, ?_⟩,
          fun t same => by cases same⟩⟩
        · refine sound'.made (o := none) (t := x.subject) (?_ : x ∈ h₁.server.subscriptions)
          rw [adds.added]
          exact List.mem_append_right _ member
        · have owns : Owns ([] ++ new) (h₁.addConsumer p key chs).2 (some ⟨chs.map fresh, []⟩) :=
            adds.owns channels fun x _ => List.not_mem_nil
          rwa [List.nil_append] at owns

theorem closeConsumer_removes (kept : SubscriptionsKept key c mine h) :
    (h.closeConsumer c).server.subscriptions = h.server.subscriptions.filter (· ∉ mine) := by
  obtain ⟨k, known, -, -, owns⟩ := kept.consumer
  unfold closeConsumer
  simp only [known]
  by_cases closed : k.closed = true
  · have none : k.line = none := by
      cases line : k.line with
      | none => rfl
      | some l =>
        have opened := (kept.sound.lines known line).opened
        rw [closed] at opened
        cases opened
    rw [if_pos closed]
    refine (List.filter_eq_self.mpr fun x there => ?_).symm
    have others := owns x there
    simpa [none] using others
  · rw [if_neg closed]
    have released : ((h.release k).setConsumer c { k with line := none, closed := true }).server =
        h.server.unsubscribe ((k.line.map Line.channels).getD []) := rfl
    have counted : ∀ h₁ : Hub, ∀ f, (h₁.updateMemory k.provider f).server = h₁.server := by
      intro h₁ f
      unfold updateMemory
      split <;> rfl
    rw [counted, released, Server.unsubscribe]
    refine List.filter_congr fun x there => ?_
    simp [owns x there]

theorem closeConsumer_again (sound : h.Sound) (known : h.consumers[c]? = some k)
    (more : List Operation) :
    ((h.closeConsumer c).after more).closeConsumer c = (h.closeConsumer c).after more := by
  obtain ⟨line, closed⟩ := perform_closes known (.closeConsumer c) rfl
  have sound' := perform_sound sound (.closeConsumer c)
  obtain ⟨k', known', closed'⟩ := after_closed sound' ⟨_, closed, rfl⟩ more
  change ((h.closeConsumer c).after more).consumers[c]? = some k' at known'
  generalize (h.closeConsumer c).after more = h' at known' ⊢
  simp [closeConsumer, known', closed']

structure Upright (key : SourceKey) (c : ConsumerId) (new : List Subscribed) (h : Hub)
    (ops : List Operation) : Prop where
  /-- A call subscribes to all topics of the key, or it leaves the subscriptions as they are. -/
  calls : ∀ now a, a = .news ∨ some a = awaits c h none ops →
    Gains key.topics ((h.after ops).gained c (.next c now a)) (h.after ops).server.subscriptions
      ((h.after ops).poll now c a).2.server.subscriptions
  closes : ((h.after ops).closeConsumer c).server.subscriptions =
    (h.after ops).server.subscriptions.filter (· ∉ new ++ madeFor c h ops)
  again : ∀ more, (((h.after ops).closeConsumer c).after more).closeConsumer c =
    ((h.after ops).closeConsumer c).after more

/-- On the message server all topics of a key are subscribed to or none, whatever the server holds
and whichever of its calls fail. So it is when a consumer is opened and whenever it subscribes
again; and closing the consumer removes exactly what was made for it. -/
theorem consumer_subscribes_all_or_none {h₀ : Hub} (unused : h₀.Unused) (before : List Operation)
    {p : Provider} (known : (h₀.after before).provider? p.id = some p) (kind : p.kind = .nats)
    (key : SourceKey) :
    (∀ h : Hub, (∀ x ∈ h.server.subscriptions, x.channel < h.channels) →
      (∀ e h', h.subscribeAll key = (.error e, h') →
        h'.server.subscriptions = h.server.subscriptions) ∧
      ∀ chs h', h.subscribeAll key = (.ok chs, h') → ∃ new, new.map (·.channel) = chs ∧
        Adds key.topics new h.server.subscriptions h'.server.subscriptions) ∧
    (∀ e h, (h₀.after before).openConsumer p key = (.error e, h) →
      h.server.subscriptions = (h₀.after before).server.subscriptions) ∧
    ∀ c h, (h₀.after before).openConsumer p key = (.ok c, h) → ∃ new,
      Adds key.topics new (h₀.after before).server.subscriptions h.server.subscriptions ∧
      ∀ ops, Called c h none ops → Upright key c new h ops := by
  have sound := after_sound unused.sound before
  obtain ⟨refused, opened⟩ := openConsumer_adds sound known kind key
  refine ⟨fun h made => subscribeAll_adds made key, refused, fun c h done => ?_⟩
  obtain ⟨new, adds, tidy⟩ := opened c h done
  refine ⟨new, adds, fun ops called => ?_⟩
  have later := after_tidy tidy called
  obtain ⟨k, there, -⟩ := later.consumer
  refine ⟨fun now a goes => ?_, closeConsumer_removes later.toSubscriptionsKept,
    closeConsumer_again later.sound there⟩
  have lineless : ∀ t, a = .retry t → Lineless c (h.after ops) := by
    intro t waits
    rcases goes with first | goes
    · rw [first] at waits
      cases waits
    · exact later.lineless t (by rw [← goes, waits])
  obtain ⟨made, -, gains, -⟩ := poll_subscribing later.toSubscriptionsKept now lineless
  have own : (h.after ops).gained c (.next c now a) = made := by
    simp [gained, gains.append]
  rwa [own]

/-- Somebody else is subscribed. With one call left to grant, two topics are not subscribed to at
all; else they both are, and the consumer loses them and asks again. -/
theorem consumer_subscribes_all_or_none_two : ∃ (h₀ : Hub) (p : Provider), h₀.Unused ∧
    (h₀.after []).provider? p.id = some p ∧ p.kind = .nats ∧
    ((h₀.after [.limit .subscribe (some 1)]).openConsumer p ⟨"n", ["a", "b"]⟩).1 =
      .error (.subscribe "b") ∧
    ((h₀.after [.limit .subscribe (some 1)]).openConsumer p
      ⟨"n", ["a", "b"]⟩).2.server.subscriptions =
      [⟨0, "x"⟩] ∧
    ∃ h new, (h₀.after []).openConsumer p ⟨"n", ["a", "b"]⟩ = (.ok 0, h) ∧
      Adds ["a", "b"] new [⟨0, "x"⟩] h.server.subscriptions ∧
      Upright ⟨"n", ["a", "b"]⟩ 0 new h [.cut, .next 0 0 .news] := by
  have unused : Hub.Unused ⟨[⟨"n", {}, .nats⟩], { subscriptions := [⟨0, "x"⟩] }, [], 1, 0⟩ := by
    refine ⟨rfl, fun id b known => ?_, by decide, by decide⟩
    by_cases mine : "n" = id <;> simp [memory?, provider?, mine] at known
  have two := consumer_subscribes_all_or_none (p := ⟨"n", {}, .nats⟩) unused [] rfl rfl
    ⟨"n", ["a", "b"]⟩
  have one := consumer_subscribes_all_or_none (p := ⟨"n", {}, .nats⟩) unused
    [.limit .subscribe (some 1)] rfl rfl ⟨"n", ["a", "b"]⟩
  obtain ⟨new, adds, upright⟩ := two.2.2 0 _ rfl
  refine ⟨_, ⟨"n", {}, .nats⟩, unused, rfl, rfl, rfl, one.2.1 _ _ rfl, _, new, rfl,
    adds, upright _ ?_⟩
  refine ⟨fun now a same => ?_, fun now a same => ?_, trivial⟩
  · cases same
  · cases same
    exact .inl rfl

end Hub

end SubscriptionGateway.Broker
