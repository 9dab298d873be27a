import SubscriptionGateway.Proofs.Broker.Hearing
import SubscriptionGateway.Proofs.Broker.Subjects
import SubscriptionGateway.Subscription.Catalog
import Mathlib

/-!
The topics a request is served from. Each is a template of its field with the texts of arguments in
the places of placeholders. A template without wildcards gives a pattern over other subjects only
where the text of an argument brings the wildcard.
-/
namespace SubscriptionGateway

namespace Topic

variable {template : String} {arguments : Json.Members} {x : Char}

/-- A template that has no wildcard but what its arguments bring. -/
def Plain (template : String) : Prop :=
  ∀ text, .literal text ∈ pieces template → '*' ∉ text ∧ '>' ∉ text

def Uses (template name : String) : Prop :=
  ∃ inner, .placeholder inner ∈ pieces template ∧
    Text.after? "args.".toList (Text.trim inner) = some name.toList

theorem pieceText_placeholder {inner out : List Char}
    (done : pieceText template arguments (.placeholder inner) = .ok out) :
    ∃ name, Text.after? "args.".toList (Text.trim inner) = some name.toList ∧
      argumentText arguments name = .ok out := by
  simp only [pieceText] at done
  split at done
  · next name named => exact ⟨String.ofList name, by simpa using named, done⟩
  · cases done

theorem mem_joinPieces {ps : List Piece} {out : List Char}
    (done : joinPieces template arguments ps = .ok out) (here : x ∈ out) :
    ∃ p ∈ ps, ∃ text, pieceText template arguments p = .ok text ∧ x ∈ text := by
  induction ps generalizing out with
  | nil => cases done; cases here
  | cons p ps ih =>
    unfold joinPieces at done
    split at done
    · cases done
    · next text first =>
      split at done
      · cases done
      · next more rest =>
        cases done
        rcases List.mem_append.mp here with here | later
        · exact ⟨p, by simp, text, first, here⟩
        · obtain ⟨q, member, known⟩ := ih rest later
          exact ⟨q, List.mem_cons_of_mem p member, known⟩

theorem mem_render {topic : String} (rendered : render template arguments = .ok topic)
    (here : x ∈ topic.toList) : (∃ text, .literal text ∈ pieces template ∧ x ∈ text) ∨
      ∃ name text, Uses template name ∧ argumentText arguments name = .ok text ∧ x ∈ text := by
  obtain ⟨out, joined, rfl⟩ : ∃ out, joinPieces template arguments (pieces template) = .ok out ∧
      String.ofList out = topic := by
    unfold render at rendered
    cases joined : joinPieces template arguments (pieces template) with
    | error e => simp [joined, Except.map] at rendered
    | ok out => exact ⟨out, rfl, by simpa [joined, Except.map] using rendered⟩
  rw [String.toList_ofList] at here
  obtain ⟨p, member, text, done, here⟩ := mem_joinPieces joined here
  cases p with
  | literal own => exact .inl ⟨own, member, Except.ok.inj done ▸ here⟩
  | placeholder inner =>
    obtain ⟨name, named, given⟩ := pieceText_placeholder done
    exact .inr ⟨name, text, ⟨inner, member, named⟩, given, here⟩
  | unclosed => cases done

/-- A topic without wildcards in its template is a pattern only by what an argument brings. -/
theorem wildcard_of_argument {topic : String} (plain : Plain template)
    (rendered : render template arguments = .ok topic) (pattern : ¬ Broker.Literal topic) :
    ∃ w, (w = '*' ∨ w = '>') ∧ String.ofList [w] ∈ Broker.tokens topic ∧
      ∃ name text, Uses template name ∧ argumentText arguments name = .ok text ∧ w ∈ text := by
  obtain ⟨w, wild, token⟩ : ∃ w, (w = '*' ∨ w = '>') ∧ String.ofList [w] ∈ Broker.tokens topic := by
    by_cases star : "*" ∈ Broker.tokens topic
    · exact ⟨'*', .inl rfl, star⟩
    · exact ⟨'>', .inr rfl, Classical.byContradiction fun rest => pattern ⟨star, rest⟩⟩
  refine ⟨w, wild, token, ?_⟩
  have here := (Broker.mem_tokens token (by simp : w ∈ (String.ofList [w]).toList)).1
  rcases mem_render rendered here with ⟨text, own, inside⟩ | brought
  · have := plain text own
    rcases wild with rfl | rfl
    · exact absurd inside this.1
    · exact absurd inside this.2
  · exact brought

end Topic

theorem mem_insertTopic {t u : String} {topics : List String} :
    t ∈ insertTopic u topics ↔ t = u ∨ t ∈ topics := by
  induction topics with
  | nil => simp [insertTopic]
  | cons v topics ih =>
    unfold insertTopic
    split
    · simp
    · split
      · next same => simp [same]
      · simp [ih, or_left_comm]

theorem SourceKey.mem_ofTopics {provider t : String} {topics : List String} :
    t ∈ (SourceKey.ofTopics provider topics).topics ↔ t ∈ topics := by
  unfold SourceKey.ofTopics
  induction topics with
  | nil => simp
  | cons u topics ih => simp [mem_insertTopic, ih]

namespace Catalog

variable {catalog : Catalog} {request : Request} {compiled : CompiledSubscription}

theorem mem_renderTopics {arguments : Json.Members} {templates topics : List String}
    {topic : String}
    (done : renderTopics arguments templates = .ok topics) (member : topic ∈ topics) :
    ∃ template ∈ templates, Topic.render template arguments = .ok topic := by
  induction templates generalizing topics with
  | nil => cases done; cases member
  | cons template templates ih =>
    unfold renderTopics at done
    split at done
    · cases done
    · next first rendered =>
      split at done
      · cases done
      · next more rest =>
        cases done
        rcases List.mem_cons.mp member with rfl | later
        · exact ⟨template, by simp, rendered⟩
        · obtain ⟨other, known, same⟩ := ih rest later
          exact ⟨other, List.mem_cons_of_mem _ known, same⟩

theorem mem_compiled (compiles : catalog.compile request = .ok compiled) {topic : String}
    (member : topic ∈ compiled.sourceKey.topics) : ∃ template ∈ compiled.field.topics,
      Topic.render template compiled.operation.arguments = .ok topic := by
  unfold compile at compiles
  split at compiles
  · cases compiles
  · next o accepted =>
    unfold compileOperation at compiles
    split at compiles
    · cases compiles
    · next f found =>
      split at compiles
      · cases compiles
      · next topics rendered =>
        cases compiles
        exact mem_renderTopics rendered (SourceKey.mem_ofTopics.mp member)

/-- A consumer on the message server hears what is sent under the topics of its request. Where it
hears anything else, a topic has a wildcard for a token, and the text of an argument brought it. -/
theorem events_on_rendered_topics (compiles : catalog.compile request = .ok compiled)
    (plain : ∀ template ∈ compiled.field.topics, Topic.Plain template)
    {h : Broker.Hub} {c : Broker.ConsumerId}
    (opened : h.Opened c compiled.sourceKey.provider compiled.sourceKey)
    (server : h.memory? compiled.sourceKey.provider = none) {ops : List Broker.Hub.Operation}
    {e : Broker.BrokerEvent} (told : .polled c (.event e) ∈ h.log ops) :
    ∃ topic ∈ compiled.sourceKey.topics, Broker.subjectMatches topic e.topic = true ∧
      ∃ template ∈ compiled.field.topics,
        Topic.render template compiled.operation.arguments = .ok topic ∧
        (e.topic = topic ∨ ∃ w, (w = '*' ∨ w = '>') ∧ String.ofList [w] ∈ Broker.tokens topic ∧
          ∃ name text, Topic.Uses template name ∧
            Topic.argumentText compiled.operation.arguments name = .ok text ∧ w ∈ text) := by
  obtain ⟨-, topic, mine, fits⟩ := Broker.Hub.events_fit opened told
  rw [Broker.Hub.home_of_server server] at fits
  obtain ⟨template, known, rendered⟩ := mem_compiled compiles mine
  refine ⟨topic, mine, fits, template, known, rendered, ?_⟩
  by_cases literal : Broker.Literal topic
  · exact .inl ((Broker.literal_iff topic).mp literal e.topic fits)
  · exact .inr (Topic.wildcard_of_argument (plain template known) rendered literal)

def idField : EventField :=
  { name := "e", provider := "n", topics := ["e.\x7b\x7b args.id \x7d\x7d"],
    typeName := "Employee" }

def starRequest : Request := { query := "subscription \x7b e(id: \"*\") \x7b id \x7d \x7d" }

def starOperation : SubscriptionOperation where
  name? := none
  root := .object "e" [.leaf "id"]
  arguments := [("id", .string "*")]

/-- Asked for the id `*`, it gives the events of every id. -/
theorem star_request_heard : ∃ (compiled : CompiledSubscription) (h : Broker.Hub),
    (Catalog.mk [idField]).compile starRequest = .ok compiled ∧
    (∀ template ∈ compiled.field.topics, Topic.Plain template) ∧
    h.Opened 0 compiled.sourceKey.provider compiled.sourceKey ∧
    h.memory? compiled.sourceKey.provider = none ∧
    .polled 0 (.event ⟨compiled.sourceKey, "e.2", [], none⟩) ∈
      h.log [.publish "e.2" [], .next 0 0 .news] ∧
    ∃ topic ∈ compiled.sourceKey.topics, Broker.subjectMatches topic "e.2" = true ∧ "e.2" ≠ topic ∧
      ∃ name text, Topic.argumentText compiled.operation.arguments name = .ok text ∧
        ('*' ∈ text ∨ '>' ∈ text) := by
  -- As for other texts, `cbv` needs the whole of Mathlib here.
  have compiles : (Catalog.mk [idField]).compile starRequest =
      .ok ⟨starOperation, idField, ⟨"n", ["e.*"]⟩⟩ := by cbv
  have plain : ∀ template ∈ idField.topics, Topic.Plain template := by
    intro template member text piece
    have pieces : Topic.pieces "e.\x7b\x7b args.id \x7d\x7d" =
        [.literal ['e', '.'], .placeholder " args.id ".toList, .literal []] := by decide
    rw [List.mem_singleton.mp member, pieces] at piece
    simp only [List.mem_cons, Topic.Piece.literal.injEq, List.not_mem_nil, or_false] at piece
    rcases piece with rfl | ⟨⟨⟩⟩ | rfl <;> decide
  obtain ⟨h, opened, server, told⟩ : ∃ h : Broker.Hub, h.Opened 0 "n" ⟨"n", ["e.*"]⟩ ∧
      h.memory? "n" = none ∧ .polled 0 (.event ⟨⟨"n", ["e.*"]⟩, "e.2", [], none⟩) ∈
        h.log [.publish "e.2" [], .next 0 0 .news] :=
    ⟨_, ⟨{}, [{ id := "n", backend := .nats }], _, [], by decide, rfl, rfl, rfl⟩, rfl,
      List.mem_singleton_self _⟩
  obtain ⟨topic, mine, fits, template, known, -, heard⟩ :=
    events_on_rendered_topics compiles plain opened server told
  have other : "e.2" ≠ topic := by
    rw [List.mem_singleton.mp mine]
    decide
  refine ⟨_, h, compiles, plain, opened, server, told, topic, mine, fits, other, ?_⟩
  obtain ⟨w, wild, -, name, text, -, given, inside⟩ := heard.resolve_left other
  refine ⟨name, text, given, ?_⟩
  rcases wild with rfl | rfl
  · exact .inl inside
  · exact .inr inside

end Catalog

end SubscriptionGateway
