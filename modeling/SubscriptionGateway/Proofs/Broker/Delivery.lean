import SubscriptionGateway.Proofs.Broker.Ledger
import SubscriptionGateway.Proofs.Broker.Steps

/-!
What a consumer of a memory broker is given. As long as no topic of its key is deleted, its queues
hold what the books say to be unread, whatever else happens: other consumers and topics, outages of
the broker, retries, calls that are given up, and everything on the message server. So the events it
is given for a topic are the records that were taken under it, in order, but for those that a full
window gave up.
-/
namespace SubscriptionGateway.Broker

namespace Hub

variable {h h' : Hub} {c : ConsumerId} {k k' : Consumer} {l l' : Line} {provider t : String}
  {key : SourceKey} {log : List Happening}

/-! ## What the books make of a happening -/

theorem note_mute {x : Happening} (mute : x.Mute h) (memory : (h.memory? provider).isSome)
    (b : Ledger) : b.note provider c t x = b := by
  cases x with
  | produced id topic payload r =>
    cases r with
    | ok u =>
      have other : id ≠ provider := by
        rintro rfl
        simp [show h.memory? id = none from mute] at memory
      simp [Ledger.note, Ledger.taken?, Ledger.given?, other]
    | error e => simp [Ledger.note, Ledger.taken?, Ledger.given?]
  | opened => simp [Ledger.note, Ledger.taken?, Ledger.given?]
  | polled => exact mute.elim

theorem of_mute {out : List Happening} (mute : ∀ x ∈ out, x.Mute h)
    (memory : (h.memory? provider).isSome) (log : List Happening) :
    Ledger.of provider c t (log ++ out) = Ledger.of provider c t log := by
  rw [Ledger.of_append]
  generalize Ledger.of provider c t log = b
  induction out generalizing b with
  | nil => rfl
  | cons x out ih =>
    rw [List.foldl_cons, note_mute (mute x (List.mem_cons_self ..)) memory]
    exact ih (fun y member => mute y (List.mem_cons_of_mem _ member)) b

theorem of_taken (id topic : String) (payload : List UInt8) (log : List Happening) :
    Ledger.of provider c t (log ++ [.produced id topic payload (.ok ())]) =
      if id = provider ∧ topic = t then (Ledger.of provider c t log).take payload
      else Ledger.of provider c t log := by
  rw [Ledger.of_append]
  by_cases mine : id = provider ∧ topic = t <;>
    simp [Ledger.note, Ledger.taken?, Ledger.given?, mine]

theorem of_other_polled {c' : ConsumerId} (other : c' ≠ c) (p : Polled) (log : List Happening) :
    Ledger.of provider c t (log ++ [.polled c' p]) = Ledger.of provider c t log := by
  rw [Ledger.of_append]
  cases p <;> simp [Ledger.note, Ledger.taken?, Ledger.given?, other]

theorem of_given (e : BrokerEvent) (log : List Happening) :
    Ledger.of provider c t (log ++ [.polled c (.event e)]) =
      if e.topic = t then (Ledger.of provider c t log).give else Ledger.of provider c t log := by
  rw [Ledger.of_append]
  by_cases mine : e.topic = t <;> simp [Ledger.note, Ledger.taken?, Ledger.given?, mine]

theorem of_unheard {p : Polled} (quiet : ∀ e, p ≠ .event e) (log : List Happening) :
    Ledger.of provider c t (log ++ [.polled c p]) = Ledger.of provider c t log := by
  rw [Ledger.of_append]
  cases p with
  | event e => exact absurd rfl (quiet e)
  | ended => simp [Ledger.note, Ledger.taken?, Ledger.given?]
  | failed => simp [Ledger.note, Ledger.taken?, Ledger.given?]
  | pending => simp [Ledger.note, Ledger.taken?, Ledger.given?]

/-! ## Queues that agree with the books -/

def Entry.message (t : String) (x : Entry) : Message := ⟨t, x.1⟩

/-- A consumer of a memory broker listens for every topic of its key, and nothing is in its queues
but what the books say to be unread. -/
structure Serves (h : Hub) (c : ConsumerId) (provider : String) (key : SourceKey)
    (log : List Happening) (k : Consumer) (l : Line) : Prop where
  sound : h.Sound
  memory : (h.memory? provider).isSome
  known : h.consumers[c]? = some k
  named : k.provider = provider
  keyed : k.key = key
  opened : k.closed = false
  line : k.line = some l
  live : ∀ r ∈ l.receivers, r.ended = false
  listens : ∀ t ∈ key.topics, ∃ r ∈ l.receivers, h.Outlet (some provider) t r.channel
  queue : ∀ t, ∀ r ∈ l.receivers, h.Outlet (some provider) t r.channel →
    r.queue = (Ledger.of provider c t log).unread.map (Entry.message t)

def Served (h : Hub) (c : ConsumerId) (provider : String) (key : SourceKey) (log : List Happening) :
    Prop :=
  ∃ k l, Serves h c provider key log k l

def handed (key : SourceKey) (t : String) (x : Entry) : BrokerEvent := ⟨key, t, x.1, some 0⟩

/-- Where a call leaves the consumer, and that an event hands out the oldest unread record of a
topic of the key. -/
structure Answer (h' : Hub) (c : ConsumerId) (provider : String) (key : SourceKey)
    (log : List Happening) (p : Polled) : Prop where
  served : Served h' c provider key (log ++ [.polled c p])
  event : ∀ e, p = .event e → e.topic ∈ key.topics ∧
    ∃ x rest, (Ledger.of provider c e.topic log).unread = x :: rest ∧ e = handed key e.topic x

namespace Serves

variable (serves : Serves h c provider key log k l)

include serves

theorem home : h.home k.provider = some provider := by
  rw [serves.named]
  exact home_of_memory serves.memory

theorem held : Held h k l := serves.sound.lines serves.known serves.line

theorem outlet {r : Receiver} (member : r ∈ l.receivers) :
    ∃ t ∈ key.topics, h.Outlet (some provider) t r.channel := by
  have live := serves.held.live r member (serves.live r member)
  rwa [serves.home, serves.keyed] at live

theorem not_server {r : Receiver} (member : r ∈ l.receivers) :
    ¬ ∃ t, h.Outlet none t r.channel := by
  rintro ⟨t, there⟩
  obtain ⟨t', -, mine⟩ := serves.outlet member
  exact absurd (serves.sound.owner there mine).1 (by simp)

theorem goes_on {gone : ChannelId → Prop} {log' : List Happening} (sound : h'.Sound)
    (rewired : Rewired gone h h') (spared : ∀ r ∈ l.receivers, ¬ gone r.channel)
    (known : h'.consumers[c]? = some k') (provider' : k'.provider = k.provider)
    (key' : k'.key = k.key) (closed : k'.closed = k.closed) (line : k'.line = some l')
    (came : ∀ r' ∈ l'.receivers, ∃ r ∈ l.receivers, r.channel = r'.channel ∧ r.ended = r'.ended)
    (stays : ∀ r ∈ l.receivers, ∃ r' ∈ l'.receivers, r'.channel = r.channel)
    (queue : ∀ t, ∀ r' ∈ l'.receivers, h.Outlet (some provider) t r'.channel →
      r'.queue = (Ledger.of provider c t log').unread.map (Entry.message t)) :
    Serves h' c provider key log' k' l' := by
  have old : ∀ r ∈ l.receivers, ∀ {t}, h'.Outlet (some provider) t r.channel ↔
      h.Outlet (some provider) t r.channel := fun r member {t} => by
    rw [rewired.old (serves.held.made r member)]
    exact ⟨And.left, fun there => ⟨there, spared r member⟩⟩
  refine ⟨sound, (rewired.homes provider).trans serves.memory, known,
    provider'.trans serves.named, key'.trans serves.keyed, closed.trans serves.opened,
      line, ?_, ?_, ?_⟩
  · intro r' member
    obtain ⟨r, there, -, ended⟩ := came r' member
    exact ended ▸ serves.live r there
  · intro t mine
    obtain ⟨r, member, there⟩ := serves.listens t mine
    obtain ⟨r', member', channel⟩ := stays r member
    exact ⟨r', member', channel ▸ (old r member).mpr there⟩
  · intro t r' member there
    obtain ⟨r, member', channel, -⟩ := came r' member
    exact queue t r' member (channel ▸ (old r member').mp (channel ▸ there))

theorem untouched {gone : ChannelId → Prop} {f : Receiver → Receiver} {log' : List Happening}
    (deed : Deed gone f h h') (spared : ∀ r ∈ l.receivers, f r = r ∧ ¬ gone r.channel)
    (same : ∀ t, Ledger.of provider c t log' = Ledger.of provider c t log) :
    Served h' c provider key log' := by
  have receivers : (l.map f).receivers = l.receivers := by
    rw [Line.map_receivers]
    exact List.map_congr_left (fun r member => (spared r member).1) |>.trans (List.map_id _)
  refine ⟨k.map f, l.map f, serves.goes_on (deed.sound serves.sound) deed.rewired
    (fun r member => (spared r member).2) (by simp [deed.consumer, serves.known]) rfl rfl rfl
    (by simp [Consumer.map, serves.line]) (fun r member => ⟨r, receivers ▸ member, rfl, rfl⟩)
    (fun r member => ⟨r, receivers.symm ▸ member, rfl⟩) fun t r member there => ?_⟩
  rw [same]
  exact serves.queue t r (receivers ▸ member) there

theorem aside {c' : ConsumerId} {gone : ChannelId → Prop} {log' : List Happening} (other : c ≠ c')
    (aside : Aside c' gone h h') (sound : h'.Sound)
    (same : ∀ t, Ledger.of provider c t log' = Ledger.of provider c t log) :
    Served h' c provider key log' :=
  ⟨k, l, serves.goes_on sound aside.rewired
    (fun r member => aside.spared c r other ⟨k, l, serves.known, serves.line, member⟩
      (serves.live r member))
    ((aside.others c other).trans serves.known) rfl rfl rfl serves.line
    (fun r member => ⟨r, member, rfl, rfl⟩) (fun r member => ⟨r, member, rfl⟩)
    fun t r member there => by
      rw [same]
      exact serves.queue t r member there⟩

theorem remains {log' : List Happening} (remains : Line.Remains l l') (b : Backoff)
    (queue : ∀ t, ∀ r' ∈ l'.receivers, h.Outlet (some provider) t r'.channel →
      r'.queue = (Ledger.of provider c t log').unread.map (Entry.message t)) :
    Served (h.setConsumer c { k with line := some l', backoff := b }) c provider key log' :=
  ⟨_, l', serves.goes_on (remains_sound serves.sound serves.known serves.line remains b)
    (sameOutlets_setConsumer c _ h).steady (fun _ _ => id) (setConsumer_self serves.known _) rfl rfl
    rfl rfl remains.came (fun r member => remains.stays r member (serves.live r member)) queue⟩

/-! ## A record more -/

omit serves in
theorem push_queue {b : Ledger} (balanced : b.Balanced) {r : Receiver}
    (queue : r.queue = b.unread.map (Entry.message t)) (stamp : Nat) (payload : List UInt8) :
    (r.push (some topicWindow) stamp ⟨t, payload⟩).queue =
      (b.take payload).unread.map (Entry.message t) := by
  have window := balanced.window
  have dropped : (r.push (some topicWindow) stamp ⟨t, payload⟩).queue =
      (r.queue ++ [(⟨t, payload⟩ : Message)]).drop (r.queue.length + 1 - topicWindow) := by
    simp [Receiver.push]
  rw [dropped, queue]
  unfold Ledger.take
  split
  · rename_i oldest rest unread
    rw [unread] at window
    split
    · rename_i room
      have keeps : (b.unread.map (Entry.message t)).length + 1 - topicWindow = 0 := by
        rw [List.length_map]
        omega
      rw [keeps]
      simp [Entry.message]
    · rename_i full
      have one : (b.unread.map (Entry.message t)).length + 1 - topicWindow = 1 := by
        rw [List.length_map, unread]
        rw [unread] at full
        omega
      rw [one, unread]
      simp [Entry.message]
  · rename_i unread
    simp [unread, Entry.message, topicWindow]

theorem produced {owner topic : String} {payload : List UInt8} {ch : ChannelId} {stamp : Nat}
    (deed : Deed (fun _ => False)
      (Receiver.onChannel ch (Receiver.push (some topicWindow) stamp ⟨topic, payload⟩)) h h')
    (outlet : h'.Outlet (some owner) topic ch) :
    Served h' c provider key (log ++ [.produced owner topic payload (.ok ())]) := by
  have orderly := deed.orderly serves.sound.toOrderly
  obtain ⟨f, pushes⟩ : ∃ f, f = Receiver.onChannel ch
    (Receiver.push (some topicWindow) stamp ⟨topic, payload⟩) := ⟨_, rfl⟩
  rw [← pushes] at deed
  have came : ∀ r' ∈ (l.map f).receivers, ∃ r ∈ l.receivers, f r = r' := fun r' member => by
    rw [Line.map_receivers] at member
    exact List.mem_map.mp member
  refine ⟨k.map f, l.map f, serves.goes_on (deed.sound serves.sound) deed.rewired (fun _ _ => id)
    (by simp [deed.consumer, serves.known]) rfl rfl rfl (by simp [Consumer.map, serves.line])
    (fun r' member => ?_) (fun r member => ?_) fun t r' member there => ?_⟩
  · obtain ⟨r, there, rfl⟩ := came r' member
    have ended := deed.touch.ended r
    rw [or_false, Bool.coe_iff_coe] at ended
    exact ⟨r, there, (deed.touch.channel r).symm, ended.symm⟩
  · exact ⟨f r, Line.map_receivers f l ▸ List.mem_map_of_mem member, deed.touch.channel r⟩
  · obtain ⟨r, known, rfl⟩ := came r' member
    rw [deed.touch.channel] at there
    have queue := serves.queue t r known there
    have there' := (deed.rewired.old (serves.held.made r known)).mpr ⟨there, id⟩
    rw [of_taken, pushes]
    -- A receiver is on the channel if and only if it is there for the topic of this broker.
    by_cases mine : r.channel = ch
    · obtain ⟨named, rfl⟩ := orderly.owner outlet (mine ▸ there')
      rw [if_pos ⟨Option.some.inj named, rfl⟩, Receiver.onChannel_eq mine]
      exact push_queue (Ledger.of_balanced ..) queue stamp payload
    · have other : ¬ (owner = provider ∧ topic = t) := by
        rintro ⟨rfl, rfl⟩
        exact mine (orderly.single there' outlet)
      rw [if_neg other, Receiver.onChannel_ne mine]
      exact queue

/-! ## A call for the next event -/

theorem message {m : Message} {l' : Line} (taken : l.take = .message m l') (b : Backoff) :
    Answer (h.setConsumer c { k with line := some l', backoff := b }) c provider key log
      (eventOf key m (some 0)) := by
  obtain ⟨r, q, others, leaves, head, perm, -⟩ := Line.take_message serves.held.fit taken
  obtain ⟨s, asked, same⟩ := leaves.mem_before (List.mem_cons_self ..)
  obtain ⟨t, mine, there⟩ := serves.outlet asked
  have queue := serves.queue t s asked there
  rw [Receiver.queue_of_bare same, head] at queue
  obtain ⟨x, rest, unread, rfl, rfl⟩ := List.map_eq_cons_iff.mp queue.symm
  have remains := Line.take_message_remains serves.held.fit taken
  refine ⟨serves.remains remains b fun t' r' member there' => ?_, fun e same => ?_⟩
  · have books : Ledger.of provider c t'
        (log ++ [.polled c (eventOf key (Entry.message t x) (some 0))]) =
        if t = t' then (Ledger.of provider c t' log).give else Ledger.of provider c t' log :=
      of_given _ log
    rw [books]
    rcases List.mem_cons.mp (perm.mem_iff.mp member) with rfl | member
    · have channel : s.channel = r.channel := Receiver.channel_of_bare same
      obtain rfl := (serves.sound.owner there (channel ▸ there')).2
      simp [Ledger.give, unread]
    · obtain ⟨s', asked', same'⟩ := leaves.mem_before (List.mem_cons_of_mem _ member)
      have apart : s.channel ≠ s'.channel := by
        rw [Receiver.channel_of_bare same, Receiver.channel_of_bare same']
        have nodup := leaves.nodup serves.held.fit.apart
        rw [List.map_cons, List.nodup_cons] at nodup
        exact fun clash => nodup.1 (clash ▸ List.mem_map_of_mem member)
      rw [← Receiver.channel_of_bare same'] at there'
      have other : t ≠ t' := fun clash =>
        apart (serves.sound.single there (clash ▸ there'))
      rw [if_neg other, ← Receiver.queue_of_bare same']
      exact serves.queue t' s' asked' there'
  · cases same
    exact ⟨mine, x, rest, unread, rfl⟩

theorem waiting (taken : l.take = .waiting l') (b : Backoff) :
    Served (h.setConsumer c { k with line := some l', backoff := b }) c provider key
      (log ++ [.polled c (.pending .news)]) := by
  have remains := Line.take_waiting_remains serves.held.fit taken
  obtain ⟨leaves, -⟩ := Line.take_waiting serves.held.fit taken
  refine serves.remains remains b fun t r' member there => ?_
  obtain ⟨r, asked, same⟩ := leaves.mem_before member
  rw [of_unheard (by simp), ← Receiver.queue_of_bare same]
  exact serves.queue t r asked (Receiver.channel_of_bare same ▸ there)

theorem ended (taken : l.take = .ended) (b : Backoff) :
    Served (h.setConsumer c { k with line := some ⟨[], []⟩, backoff := b }) c provider key
      (log ++ [.polled c .ended]) := by
  have nobody : ∀ r, r ∉ l.receivers := fun r member => by
    have spent := (Line.take_ended serves.held.fit taken r member).1
    simp [serves.live r member] at spent
  have empty : (⟨[], []⟩ : Line).receivers = [] := rfl
  have remains : Line.Remains l ⟨[], []⟩ :=
    ⟨⟨by simp [Line.channels, empty], by simp⟩, by simp [empty], fun r member =>
      absurd member (nobody r)⟩
  exact serves.remains remains b (by simp [empty])

theorem listened {r : Heard × Hub} (heard : Listened h c k r) :
    r = (.lost, h) ∨ ∃ p, r.1 = .settled p ∧ Answer r.2 c provider key log p := by
  have memory : (h.memory? k.provider).isSome := serves.named ▸ serves.memory
  have partition := partition_of_memory memory
  obtain rfl := serves.keyed
  cases heard with
  | message line taken =>
    cases serves.line.symm.trans line
    rw [partition]
    exact .inr ⟨_, rfl, serves.message taken _⟩
  | waiting line taken =>
    cases serves.line.symm.trans line
    exact .inr ⟨_, rfl, serves.waiting taken k.backoff, nofun⟩
  | ended line taken =>
    cases serves.line.symm.trans line
    exact .inr ⟨_, rfl, serves.ended taken k.backoff, nofun⟩
  | none line => cases serves.line.symm.trans line
  | down => exact .inl rfl
  | lost line taken server => simp [server] at memory
  | unsubscribed line server => simp [server] at memory

theorem count (b : Backoff) :
    Served (h.setConsumer c { k with backoff := b }) c provider key log := by
  have remains : Line.Remains l l := ⟨serves.held.fit, fun r member => ⟨r, member, rfl, rfl⟩,
    fun r member _ => ⟨r, member, rfl⟩⟩
  have same : k = { k with line := some l } := by rw [← serves.line]
  rw [same]
  exact serves.remains remains b serves.queue

end Serves

theorem Served.note (served : Served h c provider key log) {log' : List Happening}
    (same : ∀ t, Ledger.of provider c t log' = Ledger.of provider c t log) :
    Served h c provider key log' := by
  obtain ⟨k, l, serves⟩ := served
  refine ⟨k, l, { serves with queue := fun t r member there => ?_ }⟩
  rw [same]
  exact serves.queue t r member there

theorem Served.poll (served : Served h c provider key log) (now : Nat) (a : Awaiting) :
    Answer (h.poll now c a).2 c provider key log (h.poll now c a).1 := by
  have settled : PollSettles (fun h' => Served h' c provider key log) c (h.poll now c a) := by
    refine poll_settled ?_ ?_ ?_ served
    · rintro h₁ k ⟨k', l, serves⟩ known - h₂ heard
      cases known.symm.trans serves.known
      rcases serves.listened (listened h₁ c k) with lost | ⟨p, settled, -⟩
      · cases heard.symm.trans lost
        exact ⟨k, l, serves⟩
      · rw [heard] at settled
        cases settled
    · rintro h₁ k b ⟨k', l, serves⟩ known
      cases known.symm.trans serves.known
      exact serves.count b
    · rintro h₁ ⟨k, l, serves⟩
      rw [renew_memory serves.known (serves.named ▸ serves.memory)]
      exact ⟨k, l, serves⟩
  generalize h.poll now c a = r at settled
  obtain ⟨p, h'⟩ := r
  rcases settled with ⟨served', unheard⟩ | ⟨h₁, k, ⟨k', l, serves⟩, known, -, heard⟩
  · have quiet : ∀ e, p ≠ .event e := by
      rintro e rfl
      cases unheard
    exact ⟨served'.note fun t => of_unheard quiet log, fun e same => absurd same (quiet e)⟩
  · cases known.symm.trans serves.known
    rcases serves.listened (listened h₁ c k) with lost | ⟨p', settled, answer⟩
    · cases heard.symm.trans lost
    · rw [heard] at settled answer
      cases settled
      exact answer

/-! ## Along a play -/

/-- No topic of the key is deleted on the broker, and the consumer is not closed. -/
def Operation.Spares (op : Operation) (c : ConsumerId) (provider : String)
    (key : SourceKey) : Prop :=
  (∀ t ∈ key.topics, ¬ op.deletes provider t) ∧ op.closes ≠ some c

/-- What comes of a step is no event of the consumer, or it is the one that hands out the oldest
unread record of a topic of its key. -/
def Hands (c : ConsumerId) (provider : String) (key : SourceKey)
    (log out : List Happening) : Prop :=
  (∀ e, .polled c (.event e) ∉ out) ∨
  ∃ e, out = [.polled c (.event e)] ∧ e.topic ∈ key.topics ∧
    ∃ x rest, (Ledger.of provider c e.topic log).unread = x :: rest ∧ e = handed key e.topic x

theorem Served.perform (served : Served h c provider key log) {op : Operation}
    (spares : op.Spares c provider key) :
    Served (h.perform op).1 c provider key (log ++ (h.perform op).2) ∧
      Hands c provider key log (h.perform op).2 := by
  obtain ⟨k, l, serves⟩ := served
  have step := performed serves.sound op
  generalize h.perform op = r at step
  cases step with
  | produced memory deed outlet => exact ⟨serves.produced deed outlet, .inl (by simp)⟩
  | quiet deed server mute =>
    refine ⟨serves.untouched deed (fun r member => ⟨server r (serves.not_server member), id⟩)
      fun t => of_mute mute serves.memory log, .inl fun e member => mute _ member⟩
  | ended one there deletes deed =>
    rename_i ch stamp
    have apart : ∀ r ∈ l.receivers, r.channel ≠ ch := by
      rintro r member rfl
      obtain ⟨t, mine, there'⟩ := serves.outlet member
      obtain ⟨rfl, rfl⟩ := serves.sound.owner there there'
      exact spares.1 _ mine (deletes provider rfl)
    rw [List.append_nil]
    exact ⟨serves.untouched deed (fun r member => ⟨Receiver.onChannel_ne (apart r member) _,
      apart r member⟩) fun _ => rfl, .inl (by simp)⟩
  | cut deed server =>
    rw [List.append_nil]
    exact ⟨serves.untouched deed (fun r member => ⟨server r (serves.not_server member),
      serves.not_server member⟩) fun _ => rfl, .inl (by simp)⟩
  | opened opening =>
    have other : c ≠ h.consumers.length := by
      rintro rfl
      simpa using serves.known
    exact ⟨serves.aside other opening.only opening.sound fun t =>
      of_mute (h := h) (by simp [Happening.Mute]) serves.memory log, .inl (by simp)⟩
  | closed closes closing =>
    rename_i c' h'
    have other : c ≠ c' := fun same => spares.2 (same ▸ closes)
    rw [List.append_nil]
    exact ⟨serves.aside other closing.aside closing.sound fun _ => rfl, .inl (by simp)⟩
  | next =>
    rename_i c' now a
    by_cases mine : c' = c
    · subst mine
      have answer := Served.poll ⟨k, l, serves⟩ now a
      refine ⟨answer.served, ?_⟩
      by_cases given : ∃ e, (h.poll now c' a).1 = .event e
      · obtain ⟨e, same⟩ := given
        exact .inr ⟨e, by rw [same], answer.event e same⟩
      · exact .inl fun e member => given ⟨e, by simpa using (List.mem_singleton.mp member).symm⟩
    · obtain ⟨sound, only⟩ := poll_sound serves.sound now c' a
      exact ⟨serves.aside (Ne.symm mine) only sound fun t => of_other_polled mine _ log,
        .inl (by simp [Ne.symm mine])⟩

theorem returned_note {x : Happening} (quiet : Ledger.given? c t x = none) (b : Ledger) :
    (b.note provider c t x).returned = b.returned := by
  unfold Ledger.note
  split
  · unfold Ledger.take
    split
    · split <;> rfl
    · rfl
  · simp [quiet]

theorem returned_quiet {out : List Happening} (quiet : ∀ e, .polled c (.event e) ∉ out) :
    (Ledger.of provider c t (log ++ out)).returned = (Ledger.of provider c t log).returned ∧
      out.filterMap (Ledger.given? c t) = [] := by
  have none : ∀ x ∈ out, Ledger.given? c t x = none := by
    intro x member
    unfold Ledger.given?
    split
    · rename_i c' e
      rw [if_neg]
      rintro ⟨rfl, -⟩
      exact quiet e member
    · rfl
  refine ⟨?_, List.filterMap_eq_nil_iff.mpr none⟩
  rw [Ledger.of_append]
  generalize Ledger.of provider c t log = b
  induction out generalizing b with
  | nil => rfl
  | cons x out ih =>
    rw [List.foldl_cons, ih (fun e member => quiet e (List.mem_cons_of_mem _ member))
      (fun y member => none y (List.mem_cons_of_mem _ member)),
      returned_note (none x (List.mem_cons_self ..))]

theorem Hands.given {out : List Happening} (hands : Hands c provider key log out) (t : String) :
    (Ledger.of provider c t (log ++ out)).returned.map (handed key t) =
      (Ledger.of provider c t log).returned.map (handed key t) ++
        out.filterMap (Ledger.given? c t) := by
  rcases hands with quiet | ⟨e, rfl, -, x, rest, unread, same⟩
  · obtain ⟨returned, none⟩ : (Ledger.of provider c t (log ++ out)).returned =
        (Ledger.of provider c t log).returned ∧ out.filterMap (Ledger.given? c t) = [] :=
      returned_quiet quiet
    rw [returned, none, List.append_nil]
  · rw [of_given]
    by_cases mine : e.topic = t
    · subst mine
      rw [if_pos rfl]
      simp [Ledger.give, unread, Ledger.given?, ← same]
    · simp [mine, Ledger.given?]

structure Accounted (h : Hub) (c : ConsumerId) (provider : String) (key : SourceKey)
    (log : List Happening) : Prop where
  served : Served h c provider key log
  given : ∀ t, log.filterMap (Ledger.given? c t) =
    (Ledger.of provider c t log).returned.map (handed key t)
  topics : ∀ e, .polled c (.event e) ∈ log → e.topic ∈ key.topics

theorem after_accounted (served : Served h c provider key []) {ops : List Operation}
    (spared : ∀ op ∈ ops, op.Spares c provider key) :
    Accounted (h.after ops) c provider key (h.log ops) := by
  induction ops using List.reverseRecOn with
  | nil => exact ⟨served, fun _ => rfl, fun e member => by cases member⟩
  | append_singleton ops op ih =>
    have before := ih fun op' member => spared op' (List.mem_append_left _ member)
    obtain ⟨served', hands⟩ := before.served.perform (spared op (by simp))
    simp only [after_append, log_append, after_cons, after_nil, log, List.append_nil]
    refine ⟨served', fun t => ?_, fun e member => ?_⟩
    · rw [List.filterMap_append, hands.given, before.given]
    · rcases List.mem_append.mp member with old | new
      · exact before.topics e old
      · rcases hands with quiet | ⟨e', only, mine, -⟩
        · exact absurd new (quiet e)
        · rw [only] at new
          cases List.mem_singleton.mp new
          exact mine

theorem Served.next (served : Served h c provider key log) (up : h.Reachable provider) {now : Nat}
    {a : Awaiting} (ripe : ∀ t, a = .retry t → t ≤ now) :
    (∃ e, (h.poll now c a).1 = .event e) ∨
      ∀ t ∈ key.topics, (Ledger.of provider c t log).unread = [] := by
  obtain ⟨k, l, serves⟩ := served
  by_cases some_left : ∃ r ∈ l.receivers, r.queue ≠ []
  · obtain ⟨r, member, queue⟩ := some_left
    obtain ⟨m, l', taken⟩ := Line.take_of_queue serves.held.fit member queue
    have memory : (h.memory? k.provider).isSome := serves.named ▸ serves.memory
    have settled :=
      poll_message serves.known serves.opened serves.line (serves.named ▸ up) taken now
    rw [poll_ripe serves.known memory ripe, settled]
    exact .inl ⟨_, rfl⟩
  · refine .inr fun t mine => ?_
    obtain ⟨r, member, there⟩ := serves.listens t mine
    have queue := serves.queue t r member there
    have empty : r.queue = [] := Classical.byContradiction fun left => some_left ⟨r, member, left⟩
    rw [empty] at queue
    exact List.map_eq_nil_iff.mp queue.symm

theorem Opened.served (opened : h.Opened c provider key) (memory : (h.memory? provider).isSome) :
    Served h c provider key [] := by
  obtain ⟨sound, k, known, rfl, rfl, closed, chs, line, nodup, outlets⟩ := opened.consumer
  rw [home_of_memory memory] at outlets
  refine ⟨k, _, sound, memory, known, rfl, rfl, closed, line, fun r member => ?_, fun t mine => ?_,
    fun t r member _ => ?_⟩
  · rw [(mem_fresh member).2]
    rfl
  · obtain ⟨ch, made, there⟩ := (forall₂_partners outlets).1 t mine
    exact ⟨fresh ch, by simpa [Line.receivers] using List.mem_map_of_mem made, there⟩
  · rw [(mem_fresh member).2]
    rfl

/-- After any play in which no topic of its key is deleted and it is not closed, a consumer of a
memory broker has been given events for topics of its key only, and for each of these, in the order
in which they were taken and each once, the records that the broker took since the consumer was
opened; a record it was not given is unread, or it was the oldest of a full window when one more was
taken. And whenever the broker can be reached, a call that does not wait for a retry gives an event
unless all are read. -/
theorem memory_broker_delivers (opened : h.Opened c provider key)
    (memory : (h.memory? provider).isSome) {ops : List Operation}
    (spared : ∀ op ∈ ops, op.Spares c provider key) :
    (∀ e, .polled c (.event e) ∈ h.log ops → e.topic ∈ key.topics) ∧
    (∀ t ∈ key.topics, let books := Ledger.of provider c t (h.log ops)
      books.sent = (h.log ops).filterMap (Ledger.taken? provider t) ∧
      (h.log ops).filterMap (Ledger.given? c t) =
        books.returned.map (fun x => ⟨key, t, x.1, some 0⟩) ∧
      (books.returned ++ books.lost ++ books.unread).Perm books.sent.zipIdx ∧
      (books.returned.map (·.2)).Pairwise (· < ·) ∧
      ∀ x ∈ books.lost, ∃ before payload rest,
        h.log ops = before ++ .produced provider t payload (.ok ()) :: rest ∧
        (Ledger.of provider c t before).unread.length = topicWindow ∧
        (Ledger.of provider c t before).unread.head? = some x) ∧
    ∀ now a, (∀ t, a = .retry t → t ≤ now) → (h.after ops).Reachable provider →
      (∃ e, ((h.after ops).perform (.next c now a)).2 = [.polled c (.event e)]) ∨
      ∀ t ∈ key.topics, (Ledger.of provider c t (h.log ops)).unread = [] := by
  have accounted := after_accounted (opened.served memory) spared
  refine ⟨accounted.topics, fun t mine => ⟨Ledger.of_sent .., accounted.given t, ?_⟩,
    fun now a ripe up => ?_⟩
  · have balanced := Ledger.of_balanced provider c t (h.log ops)
    have ordered := balanced.ordered
    rw [List.map_append, List.pairwise_append] at ordered
    exact ⟨balanced.all, ordered.1, fun x lost => Ledger.of_lost lost⟩
  · refine (accounted.served.next up ripe).imp_left fun ⟨e, same⟩ => ⟨e, ?_⟩
    simp only [perform, same]

/-- A consumer of two topics lives through an outage. -/
theorem memory_broker_delivers_after_outage : ∃ h : Hub, h.Opened 0 "p" ⟨"p", ["a", "b"]⟩ ∧
    (h.log [.produce "p" "a" [49], .produce "p" "b" [50], .setAvailable "p" false,
      .produce "p" "a" [51], .next 0 0 .news, .setAvailable "p" true,
      .next 0 100 (.retry 100), .next 0 100 .news]).filterMap (Ledger.given? 0 "a") =
      [⟨⟨"p", ["a", "b"]⟩, "a", [49], some 0⟩] := by
  have opened : Hub.Opened _ 0 "p" ⟨"p", ["a", "b"]⟩ :=
    ⟨{}, [{ id := "p", backend := .memory }], _, [], by decide, rfl, rfl, rfl⟩
  refine ⟨_, opened, ?_⟩
  refine ((memory_broker_delivers opened rfl ?_).2.1 "a" (by decide)).2.1.trans (by rfl)
  simp [Operation.Spares, Operation.deletes, Operation.closes]

end Hub

end SubscriptionGateway.Broker
