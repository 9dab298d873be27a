import SubscriptionGateway.Proofs.Engine.Agreement
import SubscriptionGateway.Proofs.Event.Templates
import SubscriptionGateway.Proofs.Subscription.Arguments
import SubscriptionGateway.Proofs.Subscription.Topics
import SubscriptionGateway.Proofs.Text.Order
import Mathlib.Data.List.Sort

/-!
Which subscriptions share a consumer. The source key of a request has its topics once each and in
the order of their bytes, so the key is a name for the set of them. Two requests have one key if
their fields have one provider and they listen to the same topics, and for no other reason.
-/
namespace SubscriptionGateway

open GraphQL Broker

/-- The topic is rendered from one of the field's templates, with the arguments of the root field of
the request. -/
def Request.ListensTo (r : Request) (field : EventField) (topic : String) : Prop :=
  ∃ o f arguments, r.Root o f ∧ Means (r.Binds o) (.object f.arguments) (.object arguments) ∧
    ∃ template ∈ field.topics, ∃ ps texts, Topic.Segments template.toList ps ∧
      List.Forall₂ (Topic.Fills arguments) ps texts ∧ topic.toList = texts.flatten

/-- The root fields have one name and each argument has the same value in both. How the values are
written, in which order the arguments stand and what else is in the requests is left open. -/
def Request.AsksLike (r r' : Request) : Prop :=
  ∃ o f o' f', ∃ arguments arguments' : Json.Members, r.Root o f ∧ r'.Root o' f' ∧
    Means (r.Binds o) (.object f.arguments) (.object arguments) ∧
    Means (r'.Binds o') (.object f'.arguments) (.object arguments') ∧
    f.selection.field = f'.selection.field ∧ ∀ name, arguments.get? name = arguments'.get? name

theorem Request.Root.means_iff {r : Request} {o : GraphQL.Operation} {f : FlatField} {v : Json}
    (root : r.Root o f) : Means (r.Binds o) (.object f.arguments) v ↔
      v = .object (argumentValues (bindVariables o.declared r.variables?) f.arguments) := by
  obtain ⟨fine, readable⟩ := root.fine
  rw [← object_value]
  constructor
  · exact Means.eq_value fun _ _ => (binds_iff fine).mp
  · rintro rfl
    exact value_means (fun _ => (binds_iff fine).mpr rfl) (by rwa [Literal.readable])

theorem Request.AsksLike.symm {r r' : Request} (alike : r.AsksLike r') : r'.AsksLike r := by
  obtain ⟨o, f, o', f', arguments, arguments', root, root', means, means', name, same⟩ := alike
  exact ⟨o', f', o, f, arguments', arguments, root', root, means', means, name.symm,
    fun name => (same name).symm⟩

theorem Request.AsksLike.listensTo {r r' : Request} {field : EventField} {topic : String}
    (alike : r.AsksLike r') (listens : r.ListensTo field topic) : r'.ListensTo field topic := by
  obtain ⟨o, f, o', f', arguments, arguments', root, root', means, means', -, same⟩ := alike
  obtain ⟨p, g, given, own, value, template, known, ps, texts, segments, fill, joined⟩ := listens
  obtain ⟨rfl, rfl⟩ := root.unique own
  obtain rfl := Json.object.inj ((root.means_iff.mp value).trans (root.means_iff.mp means).symm)
  refine ⟨o', f', arguments', root', means', template, known, ps, texts, segments, ?_, joined⟩
  refine fill.imp fun piece text fills => ?_
  cases fills with
  | literal => exact .literal text
  | argument named found scalar => exact .argument named (same _ ▸ found) scalar

/-! ## Canonical lists of topics -/

theorem insertTopic_increasing {t : String} {topics : List String}
    (increasing : topics.Pairwise (· < ·)) : (insertTopic t topics).Pairwise (· < ·) := by
  induction topics with
  | nil => exact List.pairwise_singleton _ t
  | cons u topics ih =>
    obtain ⟨least, rest⟩ := List.pairwise_cons.mp increasing
    unfold insertTopic
    split
    · next less =>
      refine List.pairwise_cons.mpr ⟨fun v member => ?_, increasing⟩
      rcases List.mem_cons.mp member with rfl | later
      · exact less
      · exact less.trans (least v later)
    · next notLess =>
      split
      · exact increasing
      · next differs =>
        refine List.pairwise_cons.mpr ⟨fun v member => ?_, ih rest⟩
        rcases mem_insertTopic.mp member with rfl | later
        · exact lt_of_le_of_ne (not_lt.mp notLess) (Ne.symm differs)
        · exact least v later

namespace SourceKey

theorem ofTopics_increasing (provider : String) (topics : List String) :
    (ofTopics provider topics).topics.Pairwise (· < ·) := by
  unfold ofTopics
  induction topics with
  | nil => exact List.Pairwise.nil
  | cons t topics ih => exact insertTopic_increasing ih

theorem eq_iff {k l : SourceKey} (increasing : k.topics.Pairwise (· < ·))
    (increasing' : l.topics.Pairwise (· < ·)) :
    k = l ↔ k.provider = l.provider ∧ ∀ t, t ∈ k.topics ↔ t ∈ l.topics := by
  constructor
  · rintro rfl
    exact ⟨rfl, fun _ => Iff.rfl⟩
  · rintro ⟨provider, members⟩
    have topics := increasing.eq_of_mem_iff increasing' members
    cases k
    cases l
    exact congrArg₂ SourceKey.mk provider topics

end SourceKey

namespace Catalog

variable {c : Catalog} {r r' : Request} {k k' : CompiledSubscription}

theorem mem_renderTopics_iff {arguments : Json.Members} {templates topics : List String}
    (done : renderTopics arguments templates = .ok topics) (topic : String) :
    topic ∈ topics ↔ ∃ template ∈ templates, Topic.render template arguments = .ok topic := by
  refine ⟨mem_renderTopics done, ?_⟩
  rintro ⟨template, known, rendered⟩
  induction templates generalizing topics with
  | nil => cases known
  | cons first templates ih =>
    unfold renderTopics at done
    split at done
    · cases done
    · next own told =>
      split at done
      · cases done
      · next more rest =>
        cases done
        rcases List.mem_cons.mp known with rfl | later
        · rw [Except.ok.inj (told.symm.trans rendered)]
          exact List.mem_cons_self
        · exact List.mem_cons_of_mem own (ih rest later)

theorem compile_ok (compiles : c.compile r = .ok k) :
    ∃ topics, SubscriptionOperation.ofRequest r = .ok k.operation ∧
      c.find? k.operation.fieldName = some k.field ∧
      renderTopics k.operation.arguments k.field.topics = .ok topics ∧
      k.sourceKey = SourceKey.ofTopics k.field.provider topics := by
  unfold compile at compiles
  split at compiles
  · cases compiles
  · next o accepted =>
    unfold compileOperation at compiles
    split at compiles
    · cases compiles
    · next f found =>
      split at compiles
      · cases compiles
      · next topics rendered =>
        cases compiles
        exact ⟨topics, accepted, found, rendered, rfl⟩

theorem compiled_increasing (compiles : c.compile r = .ok k) :
    k.sourceKey.topics.Pairwise (· < ·) := by
  obtain ⟨topics, -, -, -, key⟩ := compile_ok compiles
  rw [key]
  exact SourceKey.ofTopics_increasing _ _

theorem compiled_provider (compiles : c.compile r = .ok k) :
    k.sourceKey.provider = k.field.provider := by
  obtain ⟨topics, -, -, -, key⟩ := compile_ok compiles
  rw [key]
  rfl

/-- The root field of a compiled request, the field it is served by and what its arguments mean. -/
theorem compiled_root (compiles : c.compile r = .ok k) : ∃ o f, r.Root o f ∧
    c.find? f.selection.field = some k.field ∧
    ∀ v, Means (r.Binds o) (.object f.arguments) v ↔ v = .object k.operation.arguments := by
  obtain ⟨topics, accepted, found, -, -⟩ := compile_ok compiles
  obtain ⟨d, o, f, parsed, chosen, -, flat, operation⟩ :=
    SubscriptionOperation.ofRequest_ok.mp accepted
  have root : r.Root o f := ⟨d, parsed, chosen, flat⟩
  rw [SubscriptionOperation.fieldName] at found
  rw [operation] at found ⊢
  exact ⟨o, f, root, found, fun v => root.means_iff⟩

theorem mem_compiled_iff (compiles : c.compile r = .ok k) (topic : String) :
    topic ∈ k.sourceKey.topics ↔ r.ListensTo k.field topic := by
  obtain ⟨topics, -, -, rendered, key⟩ := compile_ok compiles
  obtain ⟨o, f, root, -, means⟩ := compiled_root compiles
  rw [key, SourceKey.mem_ofTopics, mem_renderTopics_iff rendered]
  constructor
  · rintro ⟨template, known, done⟩
    obtain ⟨texts, fill, joined⟩ := Topic.joinPieces_ok.mp (Topic.render_ok.mp done)
    exact ⟨o, f, k.operation.arguments, root, (means _).mpr rfl, template, known, _, texts,
      Topic.segments_iff.mpr rfl, fill, joined⟩
  · rintro ⟨o', f', arguments, root', value, template, known, ps, texts, segments, fill, joined⟩
    obtain ⟨rfl, rfl⟩ := root.unique root'
    obtain rfl := Json.object.inj ((means _).mp value)
    obtain rfl := Topic.segments_iff.mp segments
    exact ⟨template, known, Topic.render_ok.mpr (Topic.joinPieces_ok.mpr ⟨texts, fill, joined⟩)⟩

theorem sourceKey_eq_iff (compiles : c.compile r = .ok k) (compiles' : c.compile r' = .ok k') :
    k.sourceKey = k'.sourceKey ↔ k.field.provider = k'.field.provider ∧
      ∀ topic, r.ListensTo k.field topic ↔ r'.ListensTo k'.field topic := by
  rw [SourceKey.eq_iff (compiled_increasing compiles) (compiled_increasing compiles'),
    compiled_provider compiles, compiled_provider compiles']
  simp only [mem_compiled_iff compiles, mem_compiled_iff compiles']

theorem sourceKey_of_asksLike (compiles : c.compile r = .ok k) (compiles' : c.compile r' = .ok k')
    (alike : r.AsksLike r') : k.sourceKey = k'.sourceKey := by
  have field : k.field = k'.field := by
    obtain ⟨o, f, o', f', -, -, root, root', -, -, name, -⟩ := alike
    obtain ⟨p, g, own, found, -⟩ := compiled_root compiles
    obtain ⟨p', g', own', found', -⟩ := compiled_root compiles'
    obtain ⟨rfl, rfl⟩ := root.unique own
    obtain ⟨rfl, rfl⟩ := root'.unique own'
    exact Option.some.inj (found.symm.trans (name ▸ found'))
  rw [sourceKey_eq_iff compiles compiles', field]
  exact ⟨rfl, fun _ => ⟨alike.listensTo, alike.symm.listensTo⟩⟩

end Catalog

namespace Engine

theorem binding_eq_iff (setup : Setup) (hub : Hub) (moves : List Move) {b b' : BindingId}
    {s s' : SubscriptionId} {x x' : Subscriber}
    (here : ((World.start setup hub).play moves).state.subscribers[s]? = some x)
    (here' : ((World.start setup hub).play moves).state.subscribers[s']? = some x')
    (member : ((World.start setup hub).play moves).state.isMember b s = true)
    (member' : ((World.start setup hub).play moves).state.isMember b' s' = true) :
    b = b' ↔ x.compiled.sourceKey = x'.compiled.sourceKey := by
  obtain ⟨sound, -⟩ := World.play_sound (w := World.start setup hub) moves (start_sound setup hub)
  rw [isMember_iff] at member member'
  have key : _ = some x.compiled.sourceKey :=
    (sound.member b s member).2.1.trans (by simp [books, here])
  have key' : _ = some x'.compiled.sourceKey :=
    (sound.member b' s' member').2.1.trans (by simp [books, here'])
  constructor
  · rintro rfl
    exact Option.some.inj (key.symm.trans key')
  · intro same
    have listed := (sound.listed_iff x.compiled.sourceKey b).mpr
      ⟨key, by simp [sound.members_opened b s member]⟩
    have listed' := (sound.listed_iff x.compiled.sourceKey b').mpr
      ⟨same ▸ key', by simp [sound.members_opened b' s' member']⟩
    exact congrArg Prod.snd (List.inj_on_of_nodup_map sound.listed_nodup listed listed' rfl)

end Engine

namespace Catalog

variable {c : Catalog} {r r' : Request} {k k' : CompiledSubscription}

/-- Two requests have one source key if and only if they listen to the same topics of one provider,
and so it is with the bindings that subscriptions with their keys are members of. The key has each
topic once, in the order of the bytes. Nothing but the root field and the values of its arguments
matters. -/
theorem sharing_exact (compiles : c.compile r = .ok k) (compiles' : c.compile r' = .ok k') :
    (k.sourceKey = k'.sourceKey ↔ k.field.provider = k'.field.provider ∧
      ∀ topic, r.ListensTo k.field topic ↔ r'.ListensTo k'.field topic) ∧
    (k.sourceKey.provider = k.field.provider ∧
      (∀ topic, topic ∈ k.sourceKey.topics ↔ r.ListensTo k.field topic) ∧
      k.sourceKey.topics.Pairwise fun s t => Text.bytes s < Text.bytes t) ∧
    (∃ o f, r.Root o f ∧ c.find? f.selection.field = some k.field) ∧
    (r.AsksLike r' → k.sourceKey = k'.sourceKey) ∧
    ∀ (setup : Setup) (hub : Hub) (moves : List Engine.Move),
      let e := ((Engine.World.start setup hub).play moves).state
      ∀ s s' x x' b b', e.subscribers[s]? = some x → e.subscribers[s']? = some x' →
        x.compiled.sourceKey = k.sourceKey → x'.compiled.sourceKey = k'.sourceKey →
        e.isMember b s = true → e.isMember b' s' = true →
        (b = b' ↔ k.field.provider = k'.field.provider ∧
          ∀ topic, r.ListensTo k.field topic ↔ r'.ListensTo k'.field topic) := by
  refine ⟨sourceKey_eq_iff compiles compiles',
    ⟨compiled_provider compiles, mem_compiled_iff compiles,
    (compiled_increasing compiles).imp Text.bytes_lt_iff.mpr⟩, ?_,
      sourceKey_of_asksLike compiles compiles',
    ?_⟩
  · obtain ⟨o, f, root, found, -⟩ := compiled_root compiles
    exact ⟨o, f, root, found⟩
  · intro setup hub moves e s s' x x' b b' here here' key key' member member'
    rw [Engine.binding_eq_iff setup hub moves here here' member member', key, key']
    exact sourceKey_eq_iff compiles compiles'

def twiceField : EventField where
  name := "e"
  provider := "p"
  topics := ["t.\x7b\x7bargs.k\x7d\x7d", "a", "t.\x7b\x7b args.k \x7d\x7d"]
  typeName := "E"

def givenTwice : Request where
  query := "subscription($a:I=\"7\")\x7bx:e(k:$a)\x7d"

def namedTwice : Request where
  query := "subscription Q\x7be(k:\"7\")\x7bn\x7d\x7d"
  operationName? := some "Q"

def otherTwice : Request where
  query := "subscription\x7be(k:\"8\")\x7d"

def givenCompiled : CompiledSubscription where
  operation := ⟨none, ⟨"x", "e", []⟩, [("k", .string "7")]⟩
  field := twiceField
  sourceKey := ⟨"p", ["a", "t.7"]⟩

def namedCompiled : CompiledSubscription where
  operation := ⟨some "Q", .object "e" [.leaf "n"], [("k", .string "7")]⟩
  field := twiceField
  sourceKey := ⟨"p", ["a", "t.7"]⟩

def otherCompiled : CompiledSubscription where
  operation := ⟨none, .leaf "e", [("k", .string "8")]⟩
  field := twiceField
  sourceKey := ⟨"p", ["a", "t.8"]⟩

def twiceSetup : Setup where
  catalog := ⟨[twiceField]⟩
  resolve := Resolver.ofSource none

def twiceMoves : List Engine.Move :=
  [.input (.connect .webSocket), .input (.call (.subscribe 0 "1" givenTwice)), .step 0,
    .step 0, .step 0,
    .input (.call (.subscribe 0 "2" namedTwice)), .step 2, .step 0]

theorem twice_shared :
    (Catalog.mk [twiceField]).compile givenTwice = .ok givenCompiled ∧
    (Catalog.mk [twiceField]).compile namedTwice = .ok namedCompiled ∧
    (Catalog.mk [twiceField]).compile otherTwice = .ok otherCompiled ∧
    (∀ topic, givenTwice.ListensTo twiceField topic ↔ topic ∈ ["a", "t.7"]) ∧
    givenTwice.AsksLike namedTwice ∧ givenCompiled.sourceKey = namedCompiled.sourceKey ∧
    (¬ ∀ topic, givenTwice.ListensTo twiceField topic ↔ otherTwice.ListensTo twiceField topic) ∧
    let e := ((Engine.World.start twiceSetup Engine.staffHub).play twiceMoves).state
    e.isMember 0 0 = true ∧ e.isMember 0 1 = true ∧ ∀ b, e.isMember b 1 = true → b = 0 := by
  have given : (Catalog.mk [twiceField]).compile givenTwice = .ok givenCompiled := by cbv
  have named : (Catalog.mk [twiceField]).compile namedTwice = .ok namedCompiled := by cbv
  have other : (Catalog.mk [twiceField]).compile otherTwice = .ok otherCompiled := by cbv
  have alike : givenTwice.AsksLike namedTwice := by
    obtain ⟨o, f, root, found, means⟩ := compiled_root given
    obtain ⟨o', f', root', found', means'⟩ := compiled_root named
    have root_name {name : String}
      (found : (Catalog.mk [twiceField]).find? name = some twiceField) :
        name = "e" := by
      have same := List.find?_some found
      exact (beq_iff_eq.mp same).symm
    exact ⟨o, f, o', f', _, _, root, root', (means _).mpr rfl, (means' _).mpr rfl,
      (root_name found).trans (root_name found').symm, fun _ => rfl⟩
  obtain ⟨same, ⟨-, topics, -⟩, -, shares, binding⟩ := sharing_exact given named
  obtain ⟨differ, -⟩ := sharing_exact given other
  refine ⟨given, named, other, fun topic => (topics topic).symm, alike, shares alike, ?_, ?_⟩
  · intro listens
    have key : (["a", "t.7"] : List String) = ["a", "t.8"] :=
      congrArg SourceKey.topics (differ.mpr ⟨rfl, listens⟩)
    exact absurd key (by decide)
  · intro e
    have here : e.subscribers[0]?.map (·.compiled.sourceKey) = some givenCompiled.sourceKey := by
      decide +kernel
    have here' : e.subscribers[1]?.map (·.compiled.sourceKey) = some namedCompiled.sourceKey := by
      decide +kernel
    have member : e.isMember 0 0 = true := by decide +kernel
    obtain ⟨x, first, key⟩ := Option.map_eq_some_iff.mp here
    obtain ⟨x', second, key'⟩ := Option.map_eq_some_iff.mp here'
    refine ⟨member, by decide +kernel, fun b member' => ?_⟩
    exact ((binding twiceSetup Engine.staffHub twiceMoves 0 1 x x' 0 b first second key key' member
      member').mpr (same.mp (shares alike))).symm

end Catalog

end SubscriptionGateway
