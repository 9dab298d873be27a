import SubscriptionGateway.Proofs.Engine.Reckoning
import SubscriptionGateway.Proofs.Server.Requests

/-!
What a stream leaves behind. Its connection is to be released as soon as the stream is cut, however
that has come about, or before the request is refused. When the release is done nothing counts any
more that was on the connection.
-/
namespace SubscriptionGateway

open Broker

namespace Engine

variable {e : Engine} {c : ConnectionId} {i : SubscriptionId} {pool : List Action}

/-- A subscription on a connection that is not managed is registered no longer than its end is to
come, and a member no longer than its leaving is. -/
theorem unmanaged_gone (sound : e.books.Sound (duties pool)) (gone : c ∉ e.managed)
    (uses : e.Uses c i)
    (ended : .unsubscribe i ∉ pool) : e.isRegistered i = false ∧
      ((∀ b, .leave b i ∉ pool) → ∀ b, e.isMember b i = false) := by
  obtain ⟨x, found, connection⟩ := uses
  have idle : e.books.phase i ≠ some .active := by
    intro active
    have owner : e.books.connection i = some c := by simp [books, found, connection]
    have owned := (sound.owned_iff c i).mpr ⟨active, owner⟩
    obtain ⟨a, member, ends⟩ := List.mem_filterMap.mp ((sound.released c gone).2 i owned)
    obtain rfl : a = .unsubscribe i := by cases a <;> simp_all [Action.unsubscribes?]
    exact ended member
  constructor
  · refine Bool.eq_false_iff.mpr fun counted => ?_
    exact idle ((sound.active_iff i).mp ((isRegistered_iff e i).mp counted))
  · intro left b
    refine Bool.eq_false_iff.mpr fun inside => ?_
    obtain ⟨-, -, active | ⟨-, leaving⟩⟩ := sound.member b i ((isMember_iff e b i).mp inside)
    · exact idle active
    · obtain ⟨a, member, leaves⟩ := List.mem_filterMap.mp leaving
      obtain rfl : a = .leave b i := by cases a <;> simp_all [Action.leaves?]
      exact left b member

end Engine

namespace Server

variable {s s' : Server} {k : StreamId} {c : ConnectionId} {a : Action} {x y : Streaming}
  {todo as : List Action} {ts us others : List (List Action)} {log more : Steps} {setup : Setup}
  {hub : Hub} {first : Server}

theorem mem_inner {b : Engine.Action} : b ∈ inner as ↔ .engine b ∈ as := by
  constructor
  · intro member
    obtain ⟨a, there, own⟩ := List.mem_filterMap.mp member
    exact eq_engine own ▸ there
  · intro member
    exact List.mem_filterMap.mpr ⟨_, member, rfl⟩

/-! ## What is managed -/

theorem session_managed (session : a.engine? = none) :
    (s.perform a).server.engine.managed = s.engine.managed := by
  cases a with
  | engine b => simp [Action.engine?] at session
  | answerStream k call =>
    simp only [perform, answerStream]
    split
    · split <;> rfl
    · rfl
  | refuseStream k payload => rfl
  | stream k due =>
    cases here : s.streams[k]? with
    | none => simp [perform, streamNext, here]
    | some x =>
      have beat : Beat s k x (s.perform (.stream k due)) := streamNext_beat here
      cases beat with
      | ends _ _ _ _ managed => exact managed
      | speaks _ _ _ _ _ _ engine => rw [engine]
      | passes _ _ _ _ _ _ _ _ _ _ engine =>
        rw [engine]
        rfl
      | rests _ _ _ _ _ _ _ _ engine => rw [engine]
  | _ => exact (perform_aloof rfl rfl).beside.managed

theorem perform_managed
    (grounded : Engine.Grounded s.engine (inner ((a :: todo) :: others).flatten)) :
    c ∈ (s.perform a).server.engine.managed ↔ c ∈ s.engine.managed ∧ a ≠ .engine (.release c) := by
  cases session : a.engine? with
  | none =>
    have other : a ≠ .engine (.release c) := by
      rintro rfl
      simp [Action.engine?] at session
    rw [session_managed session]
    exact (and_iff_left other).symm
  | some b =>
    obtain rfl := eq_engine session
    rw [inner_pending] at grounded
    obtain ⟨l, counts⟩ := Engine.perform_counts grounded.sound
    have same : (s.perform (.engine b)).server.engine.managed = b.managing s.engine.managed :=
      counts.managed
    rw [same]
    cases b with
    | release c' =>
      have either : c' = c ↔ c = c' := eq_comm
      simp [Engine.Action.managing, either]
    | _ => simp [Engine.Action.managing]

theorem audience_keeps (audience : Audience s w) (managed : c ∈ s.engine.managed) :
    c ∈ w.state.engine.managed := by
  have opened (t : Transport) : c ∈ (s.engine.openConnection t).2.managed :=
    List.mem_append_left _ managed
  cases audience with
  | none _ _ same => exact same ▸ managed
  | changes _ _ _ _ engine | refused _ engine => exact engine ▸ managed
  | joins _ engine => exact engine ▸ opened .webSocket
  | asks _ _ engine =>
    rw [engine]
    exact opened .eventStream

theorem audience_managed {w : World} (audience : Audience s w)
    (managed : c ∈ w.state.engine.managed) :
    c ∈ s.engine.managed ∨
      c = s.engine.connections.length ∧ c < w.state.engine.connections.length := by
  have opened (t : Transport) (there : c ∈ (s.engine.openConnection t).2.managed) :
      c ∈ s.engine.managed ∨
        c = s.engine.connections.length ∧ c < (s.engine.openConnection t).2.connections.length := by
    refine (List.mem_append.mp there).imp_right fun last => ?_
    obtain rfl := List.mem_singleton.mp last
    exact ⟨rfl, by simp [Engine.openConnection, Engine.count]⟩
  cases audience with
  | none _ _ same => exact .inl (same ▸ managed)
  | changes _ _ _ _ engine => exact .inl (engine ▸ managed)
  | joins _ engine =>
    rw [engine] at managed ⊢
    exact opened _ managed
  | refused _ engine => exact .inl (engine ▸ managed)
  | asks _ _ engine =>
    rw [engine] at managed ⊢
    exact opened .eventStream managed

/-! ## Who releases -/

theorem served_release (served : a.serves? = some k)
    (member : .engine (.release c) ∈ (s.perform a).next ++ (s.perform a).started.flatten) :
    s.Feeds k c := by
  cases here : s.streams[k]? with
  | none => cases a <;> simp_all [Action.serves?, perform, answerStream, refuseStream, streamNext]
  | some x =>
    cases a with
    | answerStream k' call =>
      obtain rfl : k' = k := Option.some.inj served
      cases connection : x.connection? with
      | none =>
        cases replied : s.engine.reply? call with
        | none => simp [perform, answerStream, replied] at member
        | some r => cases r <;> simp [perform, answerStream, replied, here, connection] at member
      | some c' =>
        have reception : Reception s k' x c' call (s.perform (.answerStream k' call)) :=
          answerStream_reception here connection call
        cases reception with
        | refuses _ _ _ _ next started =>
          obtain rfl : c = c' := by simpa [next, started, Engine.World.release] using member
          exact ⟨x, here, connection⟩
        | accepts _ _ _ next started => simp [next, started] at member
    | refuseStream k' payload => simp [perform, refuseStream] at member
    | stream k' due =>
      obtain rfl : k' = k := Option.some.inj served
      have beat : Beat s k' x (s.perform (.stream k' due)) := streamNext_beat here
      cases beat with
      | ends _ _ _ _ _ next started =>
        obtain ⟨c', connection, rfl⟩ : ∃ c', x.connection? = some c' ∧ c' = c := by
          simpa [next, started, Engine.World.release, eq_comm] using member
        exact ⟨x, here, connection⟩
      | speaks _ _ _ _ _ _ _ _ next started => simp [next, started] at member
      | passes _ _ _ _ _ _ _ _ _ _ _ _ next started => simp [next, started] at member
      | rests _ _ _ _ _ _ _ _ _ _ next started => simp [next, started] at member
    | _ => cases served

/-- Connections are released by a shutdown, by the socket that has them or by the stream that has
them. -/
theorem performed_release
    (member : .engine (.release c) ∈ (s.perform a).next ++ (s.perform a).started.flatten) :
    (a = .engine .releaseAll ∧ c ∈ s.engine.managed) ∨ (∃ k, s.Sits k c) ∨
      ∃ k, a.serves? = some k ∧ s.Feeds k c := by
  cases session : a.engine? with
  | some b =>
    obtain rfl := eq_engine session
    have inside : .release c ∈ (s.engine.perform b).sequel := by
      rw [← inner_sequel]
      exact mem_inner.mpr member
    have brings := Engine.perform_brings s.engine b _ inside
    cases b with
    | releaseAll =>
      refine .inl ⟨rfl, ?_⟩
      simpa [Engine.perform, Engine.Effect.sequel] using inside
    | _ => simp [Engine.Action.Brings] at brings
  | none =>
    right
    cases served : a.serves? with
    | none =>
      have aloof : Aloof s (s.perform a) := perform_aloof session served
      rw [aloof.started, List.flatten_nil, List.append_nil] at member
      exact .inl (aloof.releases c member)
    | some k => exact .inr ⟨k, rfl, served_release served member⟩

theorem input_unreleased (s : Server) (i : Input) (c : ConnectionId) :
    .engine (.release c) ∉ (i.act ⟨s, []⟩).tasks.flatten := by
  cases i with
  | join header capacity stalled =>
    simp only [Input.act, World.openSocket]
    split
    · simp [Running.spawn, World.map]
    · simp only [readOn]
      split <;> simp [Running.spawn]
  | say k i =>
    simp only [Input.act, World.send]
    split <;> simp [World.map]
  | request accept body =>
    simp only [Input.act, World.requestStream]
    split
    · simp
    split
    · simp
    split <;> simp [Running.spawn, World.map, ask, Engine.World.subscribe]
  | shutdown drainMs =>
    simp [Input.act, World.beginShutdown, Running.spawn, ask, Engine.World.shutdownAll]
  | receive k =>
    simp only [Input.act, World.received]
    split <;> simp [World.map]
  | receiveChunks k =>
    simp only [Input.act, World.receivedChunks]
    split <;> simp [World.map]
  | drop | resume | abandon | brokers | pass => exact List.not_mem_nil

/-! ## Who has a connection -/

def Freed (c : ConnectionId) (s : Server) (ts : List (List Action)) : Prop :=
  c ∉ s.engine.managed ∨ .engine (.release c) ∈ ts.flatten

theorem Freed.inside (freed : Freed c s ((a :: todo) :: others))
    (grounded : Engine.Grounded s.engine (inner ((a :: todo) :: others).flatten)) :
    Freed c (s.perform a).server
      (((s.perform a).next ++ todo) :: ((s.perform a).started ++ others)) := by
  by_cases managed : c ∈ (s.perform a).server.engine.managed
  · obtain ⟨before, other⟩ := (perform_managed grounded).mp managed
    have pending := freed.resolve_left fun gone => gone before
    right
    simp only [List.flatten_cons, List.cons_append, List.mem_cons, List.mem_append,
      List.flatten_append] at pending ⊢
    rcases pending with now | own | elsewhere
    · exact absurd now.symm other
    · exact .inl (.inr own)
    · exact .inr (.inr elsewhere)
  · exact .inl managed

theorem Freed.outside {w : World} (freed : Freed c s ts) (audience : Audience s w)
    (made : c < s.engine.connections.length) : Freed c w.state (w.tasks ++ ts) := by
  rcases freed with gone | pending
  · left
    intro managed
    rcases audience_managed audience managed with old | ⟨rfl, -⟩
    · exact gone old
    · exact Nat.lt_irrefl _ made
  · right
    rw [List.flatten_append]
    exact List.mem_append_right _ pending

theorem unfreed_inside (unfreed : ¬ Freed c s ((a :: todo) :: others)) (lined : Lined s)
    (feeds : s.Feeds k c) (other : a.serves? ≠ some k) (calm : a ≠ .engine .releaseAll)
    (grounded : Engine.Grounded s.engine (inner ((a :: todo) :: others).flatten)) :
    ¬ Freed c (s.perform a).server
      (((s.perform a).next ++ todo) :: ((s.perform a).started ++ others)) := by
  obtain ⟨managed, unreleased⟩ := not_or.mp unfreed
  rw [not_not] at managed
  refine not_or.mpr ⟨not_not.mpr ((perform_managed grounded).mpr ⟨managed, ?_⟩), fun pending => ?_⟩
  · rintro rfl
    exact unreleased List.mem_cons_self
  rcases mem_performed pending with new | old
  · rcases performed_release new with ⟨ends, -⟩ | ⟨j, sits⟩ | ⟨j, serves, mine⟩
    · exact calm ends
    · exact lined.unsat feeds j sits
    · exact other (lined.single j k c mine feeds ▸ serves)
  · exact unreleased (List.mem_cons_of_mem a old)

theorem unfreed_outside (unfreed : ¬ Freed c s ts) (i : Input) :
    ¬ Freed c (i.act ⟨s, []⟩).state ((i.act ⟨s, []⟩).tasks ++ ts) := by
  obtain ⟨managed, unreleased⟩ := not_or.mp unfreed
  rw [not_not] at managed
  refine not_or.mpr ⟨not_not.mpr (audience_keeps (input_audience s i) managed), ?_⟩
  rw [List.flatten_append, List.mem_append, not_or]
  exact ⟨input_unreleased s i c, unreleased⟩

/-- A connection made for a stream is given back or the stream still has it, and it is given back
before the stream is refused. -/
structure Guarded (s : Server) (ts : List (List Action)) : Prop where
  owned : ∀ (c : ConnectionId) (z : Connection), s.engine.connections[c]? = some z →
    z.transport = .eventStream → Freed c s ts ∨
      ∃ (k : StreamId) (x : Streaming), s.streams[k]? = some x ∧ x.connection? = some c ∧
        x.wire.isCut = false
  refusing : ∀ (k : StreamId) (payload : Json)
    (c : ConnectionId), .refuseStream k payload ∈ ts.flatten → s.Feeds k c → Freed c s ts

theorem Guarded.inside (guarded : Guarded s ((a :: todo) :: others)) (lined : Lined s)
    (grounded : Engine.Grounded s.engine (inner ((a :: todo) :: others).flatten))
    (known : ∀ k x, s.streams[k]? = some x → Streamed k s x ((a :: todo) :: others) log) :
    Guarded (s.perform a).server
      (((s.perform a).next ++ todo) :: ((s.perform a).started ++ others)) where
  owned c z' found' kind := by
    have kinds := congrArg (·[c]?) (perform_kinds s a)
    simp only [List.getElem?_map, found', Option.map_some] at kinds
    obtain ⟨z, found, same⟩ := Option.map_eq_some_iff.mp kinds.symm
    rcases guarded.owned c z found (same.trans kind) with freed | ⟨k, x, here, connection, uncut⟩
    · exact .inl (freed.inside grounded)
    obtain ⟨y, there, -⟩ := (known k x here).inside here lined
    cases cut : y.wire.isCut with
    | true =>
      obtain ⟨-, -, -, -, started⟩ := (known k x here).cuts here there uncut cut
      left; right
      simp [started, connection, Engine.World.release]
    | false =>
      rcases perform_connection here there with same | ⟨-, payload, rfl⟩
      · exact .inr ⟨k, y, there, same.trans connection, cut⟩
      · left
        exact (guarded.refusing k payload c (List.mem_cons_self ..) ⟨x, here, connection⟩).inside
          grounded
  refusing k payload c pending feeds := by
    rcases mem_assigned rfl pending with new | old
    · cases new with
      | refuses _ _ _ _ _ releases =>
        right
        simp [releases c (perform_feeds feeds)]
    · exact (guarded.refusing k payload c (List.mem_cons_of_mem _ old) (perform_feeds feeds)).inside
        grounded

theorem Guarded.outside {w : World} (guarded : Guarded s ts) (lined : Lined s)
    (audience : Audience s w)
    (unborn : ∀ b ∈ ts.flatten, b.serves? ≠ some s.streams.length) :
    Guarded w.state (w.tasks ++ ts) where
  owned c z' found' kind := by
    cases found : s.engine.connections[c]? with
    | some z =>
      have bound := (List.getElem?_eq_some_iff.mp found).1
      obtain rfl := Option.some.inj ((audience_line audience found).symm.trans found')
      rcases guarded.owned c z found kind with freed | ⟨k, x, here, connection, uncut⟩
      · exact .inl (freed.outside audience bound)
      · right
        rcases audience_stream audience here with same | gone | read
        · exact ⟨k, x, same, connection, uncut⟩
        · exact ⟨k, _, gone, connection, uncut⟩
        · exact ⟨k, _, read, connection, uncut⟩
    | none =>
      cases audience with
      | none _ lines => simp [lines, found] at found'
      | changes _ _ _ _ engine => simp [engine, found] at found'
      | joins _ engine =>
        rw [engine, openConnection_line, found] at found'
        split at found'
        · obtain rfl := Option.some.inj found'
          cases kind
        · cases found'
      | refused _ engine => simp [engine, found] at found'
      | asks r streams engine =>
        have line : (s.engine.openConnection .eventStream).2.connections[c]? = some z' := by
          rw [engine] at found'
          exact found'
        rw [openConnection_line, found] at line
        split at line
        · rename_i last
          have there : w.state.streams[s.streams.length]? =
              some { connection? := some s.engine.connections.length } := by simp [streams]
          exact .inr ⟨_, _, there, congrArg some last.symm, rfl⟩
        · cases line
  refusing k payload c pending feeds := by
    rw [List.flatten_append] at pending
    have old : .refuseStream k payload ∈ ts.flatten := by
      refine (List.mem_append.mp pending).resolve_left fun new => ?_
      cases audience with
      | none _ _ _ unserved | joins _ _ unserved => simpa [Action.serves?] using unserved _ new
      | changes _ _ _ _ _ tasks | refused _ _ _ tasks | asks _ _ _ tasks => simp [tasks] at new
    rcases audience_feeds audience feeds with before | ⟨rfl, -⟩
    · obtain ⟨z, found, -⟩ := lined.line k c before
      exact (guarded.refusing k payload c old before).outside audience
        (List.getElem?_eq_some_iff.mp found).1
    · exact absurd rfl (unborn _ old)

theorem reached_guarded (begun : first.engine = Engine.start setup hub) (nobody : first.peers = [])
    (silent : first.streams = []) (reached : Reached (World.start first) s ts log) :
    Guarded s ts := by
  induction reached with
  | start =>
    constructor
    · simp [World.start, begun, Engine.start]
    · simp [World.start]
  | shuffle perm _ ih =>
    constructor
    · intro c z found kind
      exact (ih.owned c z found kind).imp_left (·.imp_right perm.flatten.mem_iff.mp)
    · intro k payload c pending feeds
      exact (ih.refusing k payload c (perm.flatten.mem_iff.mpr pending) feeds).imp_right
        perm.flatten.mem_iff.mp
  | idle _ ih => exact ⟨ih.owned, ih.refusing⟩
  | @outside s _ _ i before ih =>
    exact ih.outside (reached_lined nobody silent before) (input_audience s i)
      (reached_unborn before)
  | inside _ before ih =>
    exact ih.inside (reached_lined nobody silent before) (reached_grounded begun before)
      (fun k => reached_streamed nobody silent before)

/-! ## When a stream is over -/

/-- A connection that a stream has had is given back when nothing is to be done for the stream. -/
theorem reached_freed {w : World} (begun : first.engine = Engine.start setup hub)
    (nobody : first.peers = []) (silent : first.streams = [])
    (before : Reached (World.start first) w.state w.tasks log) (feeds : w.state.Feeds k c)
    (reached : Reached w s ts more) (ceased : ∀ b ∈ ts.flatten, b.serves? ≠ some k) :
    Freed c s ts := by
  have whole := before.trans reached
  have lined := reached_lined nobody silent before
  obtain ⟨z, found, kind, -⟩ := lined.line k c feeds
  obtain ⟨⟨z', found', same⟩, fed⟩ := reached_fed found reached
  rcases (reached_guarded begun nobody silent whole).owned c z' found' (same.trans kind) with
    freed | ⟨j, x, here, connection, uncut⟩
  · exact freed
  · obtain rfl := lined.single j k c (fed j ⟨x, here, connection⟩) feeds
    have cut := (reached_streamed nobody silent whole x here).cut_iff.mpr ceased
    simp [uncut] at cut

theorem reached_returned {w : World} (begun : first.engine = Engine.start setup hub)
    (nobody : first.peers = []) (silent : first.streams = [])
    (before : Reached (World.start first) w.state w.tasks log) (feeds : w.state.Feeds k c)
    (reached : Reached w s ts more) (ceased : ∀ b ∈ ts.flatten, b.serves? ≠ some k)
    (released : .engine (.release c) ∉ ts.flatten) :
    c ∉ s.engine.managed ∧ ∀ i, s.engine.Uses c i → .engine (.unsubscribe i) ∉ ts.flatten →
      s.engine.isRegistered i = false ∧
        ((∀ b, .engine (.leave b i) ∉ ts.flatten) → ∀ b, s.engine.isMember b i = false) := by
  have sound := (reached_grounded begun (before.trans reached)).sound
  have gone :=
    (reached_freed begun nobody silent before feeds reached ceased).resolve_right released
  refine ⟨gone, fun i uses ended => ?_⟩
  obtain ⟨unregistered, apart⟩ := Engine.unmanaged_gone sound gone uses (mt mem_inner.mp ended)
  exact ⟨unregistered, fun left => apart fun b => mt mem_inner.mp (left b)⟩

end Server

end SubscriptionGateway
