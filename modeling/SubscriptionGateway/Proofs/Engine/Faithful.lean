import SubscriptionGateway.Proofs.Engine.Succession

/-!
That resolutions come to what they should. What a subscription's resolution ends with is what the
resolver makes of its event, and nothing ends a delivery with an error but a source that has
failed.
-/
namespace SubscriptionGateway

open Broker

namespace Engine

def answer (setup : Setup) (x : Subscriber) (event : BrokerEvent) : Outcome :=
  (setup.resolve x.compiled event.payload).outcome?.getD (.errors [.concealed])

structure Faithful (e : Engine) (pool : List Action) : Prop where
  honest : ∀ a ∈ pool, Honest e a
  resolved : ∀ (r : ResolutionId) (y : Resolving) (o : Outcome),
    e.resolutions[r]? = some y → y.outcome? = some o →
    ∃ x, e.subscribers[y.subscriber]? = some x ∧ o = answer e.setup x y.event

theorem perform_outlives (e : Engine) (a : Action) {r : ResolutionId} {y : Resolving}
    (found : e.resolutions[r]? = some y) :
    ∃ y', (e.perform a).engine.resolutions[r]? = some y' ∧ y'.subscriber = y.subscriber ∧
      y'.event = y.event := by
  cases resolves : a.resolves with
  | false => exact ⟨y, by rw [perform_resolutions e a resolves, found], rfl, rfl⟩
  | true =>
    cases a with
    | resolve s event =>
      obtain ⟨bound, -⟩ := List.getElem?_eq_some_iff.mp found
      refine ⟨y, ?_, rfl, rfl⟩
      simpa [perform, beginResolution, List.getElem?_append_left bound] using found
    | endResolver r' w due =>
      by_cases here : r' = r
      · subst here
        refine ⟨{ y with outcome? := some (w.outcome?.getD (.errors [.concealed])) }, ?_, rfl, rfl⟩
        simp [perform, endResolver, found]
      · exact ⟨y, by simp [perform, endResolver, here, found], rfl, rfl⟩
    | _ => simp [Action.resolves] at resolves

/-- What nothing that happens takes back. -/
structure Onward (e e' : Engine) : Prop where
  closed : ∀ c, c < e.connections.length → e'.isClosed c = false → e.isClosed c = false
  made : e.connections.length ≤ e'.connections.length
  setup : e'.setup = e.setup
  outlives : ∀ (r : ResolutionId) (y : Resolving), e.resolutions[r]? = some y →
    ∃ y', e'.resolutions[r]? = some y' ∧ y'.subscriber = y.subscriber ∧ y'.event = y.event

theorem perform_onward (e : Engine) (a : Action) : Onward e (e.perform a).engine where
  closed _ _ isOpen := perform_closed e a isOpen
  made := Nat.le_of_eq (perform_setup e a).2.symm
  setup := (perform_setup e a).1
  outlives _ _ found := perform_outlives e a found

theorem onward_same {e e' : Engine} (connections : e'.connections = e.connections)
    (setup : e'.setup = e.setup) (resolutions : e'.resolutions = e.resolutions) : Onward e e' where
  closed c _ isOpen := by simpa only [isClosed, connections] using isOpen
  made := Nat.le_of_eq (by rw [connections])
  setup := setup
  outlives _ y found := ⟨y, by rw [resolutions, found], rfl, rfl⟩

theorem spares_onward {s : SubscriptionId} {e e' : Engine} (spares : Spares s e e') :
    Onward e e' where
  closed c _ isOpen := spares.closed c isOpen
  made := Nat.le_of_eq spares.made.symm
  setup := spares.setup
  outlives _ y found := ⟨y, by rw [spares.resolutions, found], rfl, rfl⟩

theorem honest_lasts {e : Engine} {b : Action} (a : Action) (honest : Honest e b) :
    Honest (e.perform a).engine b := by
  cases b with
  | terminate => exact honest
  | endResolver r w due =>
    obtain ⟨y, x, found, who, work⟩ := honest
    obtain ⟨y', found', same, event⟩ := perform_outlives e a found
    obtain ⟨x', who', is⟩ := perform_same e a who
    refine ⟨y', x', found', same ▸ who', ?_⟩
    rw [(perform_setup e a).1, is.compiled, event, work]
  | _ => trivial

theorem perform_faithful {e : Engine} {a : Action} {rest : List Action}
    (faithful : Faithful e (a :: rest)) :
    Faithful (e.perform a).engine
      ((e.perform a).next ++ (e.perform a).started.flatten ++ rest) where
  honest := by
    intro b member
    refine honest_lasts a ?_
    rcases List.mem_append.mp member with new | old
    · exact (perform_succeeds e a b new).honest
    · exact faithful.honest b (List.mem_cons_of_mem _ old)
  resolved r y o found outcome := by
    have lasts (r : ResolutionId) (y : Resolving) (found : e.resolutions[r]? = some y)
        (outcome : y.outcome? = some o) :
        ∃ x, (e.perform a).engine.subscribers[y.subscriber]? = some x ∧
          o = answer (e.perform a).engine.setup x y.event := by
      obtain ⟨x, who, is⟩ := faithful.resolved r y o found outcome
      obtain ⟨x', who', same⟩ := perform_same e a who
      refine ⟨x', who', ?_⟩
      rw [(perform_setup e a).1, is, answer, answer, same.compiled]
    cases resolves : a.resolves with
    | false => exact lasts r y (by rw [← perform_resolutions e a resolves, found]) outcome
    | true =>
      cases a with
      | resolve s event =>
        simp only [perform, beginResolution, List.getElem?_append] at found
        split at found
        · exact lasts r y found outcome
        · have new := List.mem_singleton.mp (List.mem_of_getElem? found)
          simp [new] at outcome
      | endResolver r' w due =>
        by_cases here : r' = r
        · subst here
          obtain ⟨y', x, found', who, work⟩ := faithful.honest _ (List.mem_cons_self ..)
          simp only [perform, endResolver, List.getElem?_modify_eq, found', Option.map_eq_map,
            Option.map_some, Option.some.injEq] at found
          subst found
          injection outcome with outcome
          exact ⟨x, who, by rw [← outcome, work]; rfl⟩
        · exact lasts r y (by simpa [perform, endResolver, here] using found) outcome
      | _ => simp [Action.resolves] at resolves

theorem input_spares (e : Engine) (i : Input) :
    (i.apply e).subscribers = e.subscribers ∧ (i.apply e).resolutions = e.resolutions ∧
      (i.apply e).setup = e.setup := by
  cases i with
  | take c most =>
    simp only [Input.apply, takeFrames]
    split <;> exact ⟨rfl, rfl, rfl⟩
  | _ => exact ⟨rfl, rfl, rfl⟩

theorem input_onward (e : Engine) (i : Input) : Onward e (i.apply e) := by
  have touched {c : ConnectionId} {f : Connection → Connection}
      (closes : ∀ z, z.closed = true → (f z).closed = true) : Onward e (e.updateConnection c f) :=
    spares_onward (spares_connection (s := 0) closes)
  cases i with
  | call k => exact spares_onward (s := 0) (spares_same rfl rfl rfl rfl)
  | connect t =>
    refine ⟨fun c made isOpen => ?_, ?_, rfl, fun r y found => ⟨y, found, rfl, rfl⟩⟩
    · simpa [Input.apply, openConnection, count, isClosed, List.getElem?_append_left made]
        using isOpen
    · simp [Input.apply, openConnection, count]
  | close c => exact spares_onward (spares_close (s := 0) e c)
  | cancel c => exact touched fun _ closed => closed
  | take c most =>
    simp only [Input.apply, takeFrames]
    split
    · exact touched fun _ closed => closed
    · exact spares_onward (s := 0) (spares_refl e)
  | stopReading c => exact touched fun _ closed => closed
  | brokers hub => exact spares_onward (s := 0) (spares_same rfl rfl rfl rfl)
  | pass ms => exact spares_onward (s := 0) (spares_same rfl rfl rfl rfl)

theorem input_faithful {e : Engine} {pool : List Action} (i : Input) (faithful : Faithful e pool) :
    Faithful (i.apply e) (pool ++ i.task e) := by
  obtain ⟨subscribers, resolutions, setup⟩ := input_spares e i
  have unsettling (a : Action) (member : a ∈ i.task e) : a.settles = false := by
    have all : (i.task e).all (fun a => !a.settles) = true := by
      cases i with
      | call k => cases k <;> rfl
      | _ => rfl
    simpa using List.all_eq_true.mp all a member
  have lasts (a : Action) (honest : Honest e a) : Honest (i.apply e) a := by
    cases a with
    | endResolver r w due => simpa only [Honest, subscribers, resolutions, setup] using honest
    | _ => exact honest
  refine ⟨fun a member => ?_, ?_⟩
  · rcases List.mem_append.mp member with old | new
    · exact lasts a (faithful.honest a old)
    · exact honest_unsettling (unsettling a new)
  · simpa only [subscribers, resolutions, setup] using faithful.resolved

end Engine

end SubscriptionGateway
