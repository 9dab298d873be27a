import SubscriptionGateway.Proofs.Broker.Deeds

/-!
What is done for one consumer: it is opened, it is closed, it is asked for the next event. The
others notice nothing of it. All operations together keep the brokers sound.
-/
namespace SubscriptionGateway.Broker

namespace Hub

variable {h h' h₁ : Hub} {c : ConsumerId} {k : Consumer}

/-- Nothing is taken from anybody else. -/
abbrev Only (c : ConsumerId) (h h' : Hub) : Prop := Aside c (fun _ => False) h h'

theorem Only.refl (c : ConsumerId) (h : Hub) : Only c h h where
  rewired := (SameOutlets.refl h).steady
  orderly := id
  others _ _ := rfl
  spared _ _ _ _ _ := id

theorem Only.trans (first : Only c h h₁) (second : Only c h₁ h') : Only c h h' where
  rewired := OutletsSteady.trans first.rewired second.rewired
  orderly := second.orderly ∘ first.orderly
  others c' other := (second.others c' other).trans (first.others c' other)
  spared _ _ _ _ _ := id

theorem Only.of_same (same : SameOutlets h h')
    (others : ∀ c', c' ≠ c → h'.consumers[c']? = h.consumers[c']?) : Only c h h' where
  rewired := same.steady
  orderly := same.orderly
  others := others
  spared _ _ _ _ _ := id

theorem Deed.only (deed : Deed (fun _ => False) id h h') (c : ConsumerId) : Only c h h' where
  rewired := deed.rewired
  orderly := deed.orderly
  others c' _ := by rw [deed.consumers, consumers_map_id]
  spared _ _ _ _ _ := id

theorem Aside.then_same {gone : ChannelId → Prop} (aside : Aside c gone h h₁)
    (same : SameOutlets h₁ h') (consumers : h'.consumers = h₁.consumers) : Aside c gone h h' where
  rewired := ⟨fun id => (same.steady.homes id).trans (aside.rewired.homes id),
    Nat.le_trans aside.rewired.grows same.channels, fun known =>
      same.outlet.trans (aside.rewired.old known)⟩
  orderly := same.orderly ∘ aside.orderly
  others c' other := by rw [consumers, aside.others c' other]
  spared := aside.spared

theorem setConsumer_only (c : ConsumerId) (k : Consumer) (h : Hub) : Only c h (h.setConsumer c k) :=
  .of_same (sameOutlets_setConsumer c k h) fun c' other => by
    simp [setConsumer, List.getElem?_set_ne (Ne.symm other)]

theorem setConsumer_self (known : h.consumers[c]? = some k) (k' : Consumer) :
    (h.setConsumer c k').consumers[c]? = some k' := by
  obtain ⟨there, -⟩ := List.getElem?_eq_some_iff.mp known
  simp [setConsumer, there]

theorem Held.same {l : Line} (held : Held h k l) (same : SameOutlets h h') : Held h' k l where
  opened := held.opened
  fit := held.fit
  made r member := Nat.lt_of_lt_of_le (held.made r member) same.channels
  ended r member ended o t there := held.ended r member ended o t (same.outlet.mp there)
  live r member live := by
    obtain ⟨t, mine, there⟩ := held.live r member live
    exact ⟨t, mine, by rwa [same.outlet, same.steady.home]⟩

theorem Held.remains {l l' : Line} {k' : Consumer} (held : Held h k l) (fit : l'.Fit)
    (provider : k'.provider = k.provider) (key : k'.key = k.key) (closed : k'.closed = k.closed)
    (known : ∀ r' ∈ l'.receivers, ∃ r ∈ l.receivers, r.channel = r'.channel ∧ r.ended = r'.ended) :
    Held h k' l' where
  opened := closed ▸ held.opened
  fit := fit
  made r' member := by
    obtain ⟨r, there, channel, -⟩ := known r' member
    exact channel ▸ held.made r there
  ended r' member ended o t := by
    obtain ⟨r, there, channel, same⟩ := known r' member
    exact channel ▸ held.ended r there (same ▸ ended) o t
  live r' member live := by
    obtain ⟨r, there, channel, same⟩ := known r' member
    exact key ▸ provider ▸ channel ▸ held.live r there (same ▸ live)

theorem Sound.setConsumer (sound : h.Sound) {k' : Consumer} (known : h.consumers[c]? = some k)
    (mine : ∀ l', k'.line = some l' → Held h k' l' ∧
      ∀ r' ∈ l'.receivers, ∃ r, h.Holds c r ∧ r.channel = r'.channel) :
    (h.setConsumer c k').Sound := by
  have same := sameOutlets_setConsumer c k' h
  refine (setConsumer_only c k' h).sound sound (fun k₁ l known₁ line => ?_) fun r t holds there =>
    ?_
  · rw [setConsumer_self known, Option.some.injEq] at known₁
    subst known₁
    exact (mine l line).1.same same
  · obtain ⟨k₁, l, known₁, line, member⟩ := holds
    rw [setConsumer_self known, Option.some.injEq] at known₁
    subst known₁
    obtain ⟨s, held, channel⟩ := (mine l line).2 r member
    intro c' r' other held' clash
    refine other (sound.apart held' held (clash.trans channel.symm) (t := t) ?_)
    rw [clash]
    exact same.outlet.mp there

def Keyed (h : Hub) (c : ConsumerId) (provider : String) (key : SourceKey) : Prop :=
  ∃ k, h.consumers[c]? = some k ∧ k.provider = provider ∧ k.key = key

theorem Keyed.deed {provider : String} {key : SourceKey} {gone : ChannelId → Prop}
    {f : Receiver → Receiver} (keyed : h.Keyed c provider key) (deed : Deed gone f h h') :
    h'.Keyed c provider key := by
  obtain ⟨k, known, rfl, rfl⟩ := keyed
  exact ⟨k.map f, by simp [deed.consumer, known], rfl, rfl⟩

theorem Keyed.aside {provider : String} {key : SourceKey} {c' : ConsumerId}
    {gone : ChannelId → Prop} (keyed : h.Keyed c provider key) (other : c ≠ c')
    (aside : Aside c' gone h h') : h'.Keyed c provider key := by
  obtain ⟨k, known, rest⟩ := keyed
  exact ⟨k, (aside.others c other).trans known, rest⟩

/-! ## A new line -/

/-- A line with a receiver for each topic of the key, each on its outlet. -/
def Attuned (h : Hub) (k : Consumer) : Prop :=
  ∃ chs : List ChannelId, k.line = some ⟨chs.map fresh, []⟩ ∧ chs.Nodup ∧
    List.Forall₂ (fun t ch => h.Outlet (h.home k.provider) t ch) k.key.topics chs

theorem forall₂_partners {α β : Type} {R : α → β → Prop} {as : List α} {bs : List β}
    (all : List.Forall₂ R as bs) : (∀ a ∈ as, ∃ b ∈ bs, R a b) ∧ ∀ b ∈ bs, ∃ a ∈ as, R a b := by
  induction all with
  | nil => simp
  | cons related _ ih =>
    refine ⟨fun a member => ?_, fun b member => ?_⟩
    · rcases List.mem_cons.mp member with rfl | member
      · exact ⟨_, by simp, related⟩
      · obtain ⟨b, there, related⟩ := ih.1 a member
        exact ⟨b, List.mem_cons_of_mem _ there, related⟩
    · rcases List.mem_cons.mp member with rfl | member
      · exact ⟨_, by simp, related⟩
      · obtain ⟨a, there, related⟩ := ih.2 b member
        exact ⟨a, List.mem_cons_of_mem _ there, related⟩

theorem mem_fresh {chs : List ChannelId} {r : Receiver}
    (member : r ∈ (⟨chs.map fresh, []⟩ : Line).receivers) :
    r.channel ∈ chs ∧ r = fresh r.channel := by
  obtain ⟨ch, made, rfl⟩ := List.mem_map.mp (by simpa [Line.receivers] using member)
  exact ⟨made, rfl⟩

theorem fresh_fit {chs : List ChannelId} (nodup : chs.Nodup) :
    (⟨chs.map fresh, []⟩ : Line).Fit where
  apart := by simpa [Line.channels, Line.receivers, Function.comp_def, fresh] using nodup
  alert r member := by cases member

theorem Attuned.held (attuned : Attuned h k) (orderly : h.Orderly) (opened : k.closed = false)
    {l : Line} (line : k.line = some l) : Held h k l := by
  obtain ⟨chs, made, nodup, outlets⟩ := attuned
  cases made.symm.trans line
  have tuned := (forall₂_partners outlets).2
  refine ⟨opened, fresh_fit nodup, fun r member => ?_, fun r member ended => ?_,
    fun r member _ => ?_⟩
  · obtain ⟨t, -, there⟩ := tuned r.channel (mem_fresh member).1
    exact orderly.made there
  · rw [(mem_fresh member).2] at ended
    cases ended
  · exact tuned r.channel (mem_fresh member).1

structure Opening (p : Provider) (key : SourceKey) (h : Hub)
    (r : Except BrokerError ConsumerId × Hub) :
    Prop where
  sound : r.2.Sound
  only : Only h.consumers.length h r.2
  opened : ∀ c, r.1 = .ok c → c = h.consumers.length ∧ ∃ k, r.2.consumers[c]? = some k ∧
    k.provider = p.id ∧ k.key = key ∧ k.closed = false ∧ Attuned r.2 k

theorem addConsumer_only (h : Hub) (p : Provider) (key : SourceKey) (chs : List ChannelId) :
    Only h.consumers.length h (h.addConsumer p key chs).2 :=
  .of_same (.of_eq rfl rfl rfl) fun c' other => by
    by_cases known : c' < h.consumers.length
    · simp [addConsumer, List.getElem?_append_left known]
    · have past : h.consumers.length < c' :=
        Nat.lt_of_le_of_ne (Nat.not_lt.mp known) (Ne.symm other)
      have beyond : (h.addConsumer p key chs).2.consumers.length ≤ c' := by
        simpa [addConsumer] using Nat.succ_le_of_lt past
      rw [List.getElem?_eq_none beyond, List.getElem?_eq_none (Nat.le_of_lt past)]

theorem addConsumer_opening {p : Provider} {key : SourceKey} {chs : List ChannelId}
    (sound : h.Sound) (only : Only h.consumers.length h h₁) (orderly : h₁.Orderly)
    (consumers : h₁.consumers = h.consumers) (nodup : chs.Nodup)
    (outlets : List.Forall₂ (fun t ch => h₁.Outlet (h₁.home p.id) t ch) key.topics chs)
    (own : h₁.home p.id = none → ∀ ch ∈ chs, h.channels ≤ ch) :
    Opening p key h (.ok (h₁.addConsumer p key chs).1, (h₁.addConsumer p key chs).2) := by
  have added := addConsumer_only h₁ p key chs
  have same : SameOutlets h₁ (h₁.addConsumer p key chs).2 := .of_eq rfl rfl rfl
  rw [consumers] at added
  have known : (h₁.addConsumer p key chs).2.consumers[h.consumers.length]? = some
      { provider := p.id, key := key, backoff := ⟨p.retry, 0⟩,
        line := some ⟨chs.map fresh, []⟩ } := by
    simp [addConsumer, ← consumers]
  have attuned : Attuned (h₁.addConsumer p key chs).2
      { provider := p.id, key := key, backoff := ⟨p.retry, 0⟩, line := some ⟨chs.map fresh, []⟩ } :=
    ⟨chs, rfl, nodup, outlets.imp fun t ch there => by
      rwa [same.outlet, same.steady.home]⟩
  refine ⟨(only.trans added).sound sound (fun k l there line => ?_) (fun r t holds there => ?_),
    only.trans added, fun c made => ?_⟩
  · cases known.symm.trans there
    exact attuned.held (same.orderly orderly) rfl line
  · obtain ⟨k, l, mine, line, member⟩ := holds
    cases known.symm.trans mine
    cases line
    have ch := (mem_fresh member).1
    obtain ⟨t', -, tuned⟩ := (forall₂_partners outlets).2 _ ch
    have server : h₁.home p.id = none :=
      (orderly.owner tuned (same.outlet.mp there)).1
    intro c' r' other held clash
    obtain ⟨k', l', known', line', member'⟩ := held
    have old := (sound.lines known' line').made r' member'
    exact absurd old (Nat.not_lt.mpr (clash ▸ own server _ ch))
  · cases made
    exact ⟨by simp [addConsumer, consumers], _, by simp [addConsumer], rfl, rfl, rfl, attuned⟩

theorem opening_memory (sound : h.Sound) {p : Provider} {b : MemoryBroker}
    (known : h.provider? p.id = some p) (kind : p.kind = .memory b) {key : SourceKey}
    (proper : key.topics.Nodup) : Opening p key h (h.openConsumer p key) := by
  by_cases up : b.available = true
  · have isMemory : (h.memory? p.id).isSome := by simp [memory?, known, kind]
    have found := topicChannels_found key.topics sound.toOrderly isMemory
    have nodup := found.nodup proper
    simp only [openConsumer, kind, up, Bool.not_true, Bool.false_eq_true, if_false]
    generalize topicChannels p.id key.topics h = r at found nodup
    obtain ⟨chs, h₁⟩ := r
    have counted := sameOutlets_updateMemory p.id
      (f := fun b => { b with opened := b.opened + 1 }) (fun _ => rfl) h₁
    have consumers :=
      (updateMemory_consumers h₁ p.id fun b => { b with opened := b.opened + 1 }).trans
      found.consumers
    have steady := found.steady.trans counted.steady
    have orderly := counted.orderly found.orderly
    dsimp only
    generalize h₁.updateMemory p.id _ = h₂ at counted consumers steady orderly ⊢
    have quiet : Deed (fun _ => False) id h h₂ := .of_steady steady (fun _ => orderly) consumers
    have home := (steady.home p.id).trans (home_of_memory isMemory)
    have outlets : List.Forall₂ (fun t ch => h₂.Outlet (h₂.home p.id) t ch) key.topics chs := by
      rw [home]
      exact found.outlets.imp fun t ch => counted.outlet.mpr
    refine addConsumer_opening sound (quiet.only _) orderly consumers nodup outlets ?_
    rw [home]
    intro server
    cases server
  · have refused : h.openConsumer p key = (.error (.memoryDown p.id), h) := by
      simp [openConsumer, kind, up]
    rw [refused]
    exact ⟨sound, .refl _ h, fun _ ok => by cases ok⟩

theorem opening_server (sound : h.Sound) {p : Provider} (known : h.provider? p.id = some p)
    (kind : p.kind = .nats) (key : SourceKey) : Opening p key h (h.openConsumer p key) := by
  have home : h.home p.id = none := home_of_server (by simp [memory?, known, kind])
  obtain ⟨orderly, steady, consumers, -, subscribed⟩ := subscribeAll_spec sound.toOrderly key
  simp only [openConsumer, kind]
  generalize h.subscribeAll key = r at orderly steady consumers subscribed
  obtain ⟨result, h₁⟩ := r
  have quiet : Deed (fun _ => False) id h h₁ := .of_steady steady (fun _ => orderly) consumers
  cases result with
  | error e => exact ⟨quiet.sound sound, quiet.only _, fun _ ok => by cases ok⟩
  | ok chs =>
    obtain ⟨outlets, nodup, new⟩ := subscribed chs rfl
    refine addConsumer_opening sound (quiet.only _) orderly consumers nodup ?_ fun _ => new
    rw [steady.home, home]
    exact outlets

theorem openConsumer_opening (sound : h.Sound) {p : Provider} (known : h.provider? p.id = some p)
    {key : SourceKey} (proper : key.topics.Nodup) : Opening p key h (h.openConsumer p key) := by
  cases kind : p.kind with
  | memory b => exact opening_memory sound known kind proper
  | nats => exact opening_server sound known kind key

/-! ## Closing -/

def Subscribes (h : Hub) (c : ConsumerId) (ch : ChannelId) : Prop :=
  (∃ r, h.Holds c r ∧ r.channel = ch) ∧ ∃ t, h.Outlet none t ch

theorem release_aside (sound : h.Sound) (known : h.consumers[c]? = some k) {k' : Consumer} :
    Aside c (h.Subscribes c) h ((h.release k).setConsumer c k') := by
  have channels : ∀ ch, ch ∈ (k.line.map Line.channels).getD [] ↔
    ∃ r, h.Holds c r ∧ r.channel = ch := by
    intro ch
    constructor
    · intro member
      cases line : k.line with
      | none => simp [line] at member
      | some l =>
        rw [line] at member
        obtain ⟨r, there, same⟩ := List.mem_map.mp member
        exact ⟨r, ⟨k, l, known, line, there⟩, same⟩
    · rintro ⟨r, ⟨k₁, l, known₁, line, member⟩, rfl⟩
      cases known.symm.trans known₁
      rw [line]
      exact List.mem_map_of_mem member
  have outlet : ∀ {o t ch}, ((h.release k).setConsumer c k').Outlet o t ch ↔
      h.Outlet o t ch ∧ ¬ h.Subscribes c ch := by
    intro o t ch
    cases o with
    | none =>
      have kept : ((h.release k).setConsumer c k').Outlet none t ch ↔ h.Outlet none t ch ∧
          ch ∉ (k.line.map Line.channels).getD [] := by
        simp [Outlet, setConsumer, release, Server.unsubscribe]
      rw [kept, channels]
      refine and_congr_right fun there => not_congr ⟨fun mine => ⟨mine, t, there⟩, And.left⟩
    | some id =>
      refine Iff.trans (b := h.Outlet (some id) t ch) Iff.rfl ⟨fun known => ⟨known, ?_⟩, And.left⟩
      rintro ⟨-, t', there⟩
      exact absurd (sound.owner there known).1 (by simp)
  refine ⟨⟨fun _ => rfl, Nat.le_refl _, fun _ => outlet⟩,
    fun orderly => orderly.mono (Nat.le_refl _) fun known => (outlet.mp known).1,
    fun c' other => (setConsumer_only c k' (h.release k)).others c' other, ?_⟩
  rintro c' r other holds live ⟨⟨r', holds', same⟩, t, there⟩
  exact other (sound.apart holds holds' same.symm there)

theorem closed_self (known : h.consumers[c]? = some k) (r : Receiver) :
    ¬ ((h.release k).setConsumer c { k with line := none, closed := true }).Holds c r := by
  rintro ⟨k', l, known', line, -⟩
  rw [setConsumer_self (h := h.release k) known, Option.some.injEq] at known'
  subst known'
  cases line

structure Closing (c : ConsumerId) (h h' : Hub) : Prop where
  sound : h'.Sound
  aside : Aside c (h.Subscribes c) h h'
  nobody : ∀ r, ¬ h'.Holds c r
  keyed : ∀ {provider key}, h.Keyed c provider key → h'.Keyed c provider key

theorem Closing.of_nobody (sound : h.Sound) (nobody : ∀ r, ¬ h.Holds c r) : Closing c h h where
  sound := sound
  aside :=
    { rewired := ⟨fun _ => rfl, Nat.le_refl _, fun _ =>
        ⟨fun there => ⟨there, fun mine => mine.1.elim fun r held => nobody r held.1⟩, And.left⟩⟩
      orderly := id
      others := fun _ _ => rfl
      spared := fun _ _ _ _ _ mine => mine.1.elim fun r held => nobody r held.1 }
  nobody := nobody
  keyed := id

theorem dropConsumer_closing (sound : h.Sound) (c : ConsumerId) :
    Closing c h (h.dropConsumer c) := by
  unfold dropConsumer
  cases known : h.consumers[c]? with
  | none => exact .of_nobody sound fun r ⟨k, l, there, _⟩ => by simp [known] at there
  | some k =>
    have aside : Aside c (h.Subscribes c) h
        ((h.release k).setConsumer c { k with line := none, closed := true }) :=
      release_aside sound known
    have nobody := closed_self known
    have closed := setConsumer_self (h := h.release k) known { k with line := none, closed := true }
    refine ⟨aside.sound sound (fun k' l there line => ?_) (fun r t holds => (nobody r holds).elim),
      aside, nobody, fun keyed => ?_⟩
    · rw [closed, Option.some.injEq] at there
      subst there
      cases line
    · obtain ⟨k₁, known₁, provider, key⟩ := keyed
      cases known.symm.trans known₁
      exact ⟨_, closed, provider, key⟩

theorem closeConsumer_eq (h : Hub) (c : ConsumerId) :
    h.closeConsumer c = h ∧ (∀ k, h.consumers[c]? = some k → k.closed = true) ∨
    ∃ provider f, (∀ b : MemoryBroker, (f b).topics = b.topics) ∧
      h.closeConsumer c = (h.dropConsumer c).updateMemory provider f := by
  unfold closeConsumer dropConsumer
  cases h.consumers[c]? with
  | none => exact .inl ⟨rfl, by simp⟩
  | some k =>
    by_cases closed : k.closed
    · exact .inl ⟨if_pos closed, fun k' same => Option.some.inj same ▸ closed⟩
    · exact .inr ⟨k.provider, fun b => { b with closed := b.closed + 1 }, fun _ => rfl,
        if_neg closed⟩

theorem closeConsumer_closing (sound : h.Sound) (c : ConsumerId) :
    Closing c h (h.closeConsumer c) := by
  rcases closeConsumer_eq h c with ⟨same, closed⟩ | ⟨provider, f, keeps, same⟩
  · have nobody : ∀ r, ¬ h.Holds c r := by
      rintro r ⟨k, l, known, line, -⟩
      have opened := (sound.lines known line).opened
      rw [closed k known] at opened
      cases opened
    rw [same]
    exact .of_nobody sound nobody
  · have closing := dropConsumer_closing sound c
    have counted := sameOutlets_updateMemory provider keeps (h.dropConsumer c)
    have consumers := updateMemory_consumers (h.dropConsumer c) provider f
    rw [same]
    refine ⟨(Deed.of_same counted consumers).sound closing.sound,
      closing.aside.then_same counted consumers, fun r holds => closing.nobody r ?_,
        fun keyed => ?_⟩
    · simpa only [Holds, consumers] using holds
    · simpa only [Keyed, consumers] using closing.keyed keyed

end Hub

end SubscriptionGateway.Broker
