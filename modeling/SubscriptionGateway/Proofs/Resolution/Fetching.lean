import SubscriptionGateway.Proofs.GraphQL.Substitution
import SubscriptionGateway.Proofs.Resolution.Interchange

/-!
What an event asks of its entity source. A source that does something when it is asked is asked once
or not at all, and which of the two, and for what, is read off the payload. What it answers stands
behind the payload: members are added, and none is changed.
-/
namespace SubscriptionGateway

open Json

namespace Resolver

variable {m : Type → Type} [Monad m] {s : CompiledSubscription} {payload : List UInt8}

def resolve (fetch? : Option (EntityRequest → m EntityReply)) (s : CompiledSubscription)
    (payload : List UInt8) : m Work :=
  match Resolution.start s fetch?.isSome payload with
  | .error fault => pure (settled (.error fault))
  | .ok started =>
    match fetch?, started.wanted with
    | some fetch, some wanted => do
      let e ← fetch wanted
      return ⟨e.takesMs, completed s started e, if e.sent then some wanted else none⟩
    | _, _ => pure (settled (Resolution.finish s started.object))

/-- A source that only answers makes it the resolver of an engine. -/
theorem ofSource_eq_resolve (source? : Option EntitySource) :
    ofSource source? s payload = Id.run (resolve (m := Id) source? s payload) := by
  unfold ofSource resolve
  cases Resolution.start s source?.isSome payload with
  | error fault => rfl
  | ok started =>
    cases source? with
    | none => rfl
    | some source => cases wants : started.wanted <;> simp only [wants] <;> rfl

end Resolver

namespace Resolution

open Projection

/-- The payload object is one of the field's type, lacks a selected field and has all the keys. -/
structure Incomplete (s : CompiledSubscription) (ms : Members) : Prop where
  typed : ms.get? "__typename" = none ∨ ms.get? "__typename" = some .null ∨
    ms.get? "__typename" = some (.string s.field.typeName)
  lacking : ∃ t ∈ s.operation.root.selections, t.isTypename = false ∧ ms.get? t.field = none
  keyed : ∀ key ∈ s.field.keyFields, ∃ v, v ≠ .null ∧ ms.get? key = some v

structure Represents (f : EventField) (ms known : Members) : Prop where
  keys : known.keys = ("__typename" :: f.keyFields).eraseDups
  typename : known.get? "__typename" = some (.string f.typeName)
  values : ∀ key ∈ f.keyFields, known.get? key = ms.get? key

def Fetches (s : CompiledSubscription) (payload : List UInt8) (q : EntityRequest) : Prop :=
  ∃ ms, Json.readBytes? payload = some (.object ms) ∧ Incomplete s ms ∧
    q.typeName = s.field.typeName ∧ Represents s.field ms q.representation ∧
    q.selections = s.operation.root.selections

variable {s : CompiledSubscription} {payload : List UInt8} {ms known : Members} {f : EventField}
  {q : EntityRequest}

/-! ## The request -/

theorem decode_ok : decode payload = .ok ms ↔ Json.readBytes? payload = some (.object ms) := by
  rw [decode]
  rcases Json.readBytes? payload with _ | j
  · simp
  · cases j <;> simp

theorem checkType_ok_iff : checkType f ms = .ok () ↔ ms.get? "__typename" = none ∨
    ms.get? "__typename" = some .null ∨ ms.get? "__typename" = some (.string f.typeName) := by
  rw [checkType]
  rcases ms.get? "__typename" with _ | j
  · simp
  · cases j with
    | string name => by_cases same : name = f.typeName <;> simp [same]
    | _ => simp

theorem held_ne_null {name : String} : ms.held name ≠ .null ↔
    ∃ v, v ≠ .null ∧ ms.get? name = some v := by
  rw [Members.held]
  cases ms.get? name <;> simp

theorem foldl_known {keys : List String} {acc? : Option Members} :
    keys.foldl (fun acc key => acc.bind fun known => match ms.held key with
      | .null => none
      | j => some (Members.insert known key j)) acc? = some known ↔
      ∃ acc, acc? = some acc ∧ (∀ key ∈ keys, ms.held key ≠ .null) ∧
        known = keys.foldl (fun acc key => acc.insert key (ms.held key)) acc := by
  induction keys generalizing acc? with
  | nil => simp [eq_comm]
  | cons key keys ih =>
    rw [List.foldl_cons, ih]
    cases acc? with
    | none => simp
    | some acc => cases held : ms.held key <;> simp [held]

theorem representation_ok : representation f ms = some known ↔
    (∀ key ∈ f.keyFields, ms.held key ≠ .null) ∧
      known = Members.ofList (("__typename", .string f.typeName) ::
        f.keyFields.map fun key => (key, ms.held key)) := by
  rw [representation_held]
  refine Iff.trans foldl_known ?_
  simp [Members.ofList, Members.insert, List.foldl_map]

theorem get?_foldl_known {keys : List String} {name : String} {acc : Members} :
    (keys.foldl (fun acc key => acc.insert key (ms.held key)) acc).get? name =
      if name ∈ keys then some (ms.held name) else acc.get? name := by
  induction keys generalizing acc with
  | nil => simp
  | cons key keys ih =>
    rw [List.foldl_cons, ih, Members.get?_insert]
    by_cases same : name = key
    · simp [same]
    · simp [same]

theorem represents_iff (typed : checkType s.field ms = .ok ())
    (keyed : ∀ key ∈ s.field.keyFields, ms.held key ≠ .null) :
    Represents s.field ms known ↔ representation s.field ms = some known := by
  have found {name : String} (member : name ∈ s.field.keyFields) :
      some (ms.held name) = ms.get? name := by
    obtain ⟨v, -, present⟩ := held_ne_null.mp (keyed name member)
    rw [Members.held, present, Option.getD_some]
  have whole (known : Members) (represented : representation s.field ms = some known) :
      Represents s.field ms known := by
    refine ⟨?_, representation_typename typed represented, fun key member => ?_⟩
    · rw [(representation_ok.mp represented).2, Members.keys_ofList, List.map_cons, List.map_map]
      exact congrArg (fun keys => ("__typename" :: keys).eraseDups) (List.map_id _)
    · obtain ⟨acc, -, -, rfl⟩ :=
        foldl_known.mp ((representation_held s.field ms).symm.trans represented)
      rw [get?_foldl_known, if_pos member, found member]
  refine ⟨fun represents => ?_, whole known⟩
  obtain ⟨own, represented⟩ := representation_some keyed
  have mine := whole own represented
  have distinct : own.keys.Nodup := by
    rw [(representation_ok.mp represented).2]
    exact Members.nodup_ofList
  rw [represented, Option.some_inj]
  refine Members.ext distinct (mine.keys.trans represents.keys.symm) fun key v w first second => ?_
  have member : key ∈ "__typename" :: s.field.keyFields := by
    rw [← List.mem_eraseDups, ← mine.keys]
    exact Classical.byContradiction fun absent => by simp [Members.get?_eq_none.mpr absent] at first
  rcases List.mem_cons.mp member with rfl | member
  · rw [mine.typename] at first
    rw [represents.typename] at second
    exact Option.some.inj (first.symm.trans second)
  · rw [mine.values key member] at first
    rw [represents.values key member] at second
    exact Option.some.inj (first.symm.trans second)

theorem incomplete_iff : Incomplete s ms ↔ checkType s.field ms = .ok () ∧
    lacks ms s.operation.root.selections = true ∧
      ∀ key ∈ s.field.keyFields, ms.held key ≠ .null := by
  simp only [checkType_ok_iff, lacks_iff, held_ne_null]
  exact ⟨fun wants => ⟨wants.typed, wants.lacking, wants.keyed⟩, fun ⟨typed, lacking, keyed⟩ =>
    ⟨typed, lacking, keyed⟩⟩

theorem fetches_iff : Fetches s payload q ↔ ∃ ms, start s true payload = .ok ⟨ms, some q⟩ := by
  constructor
  · rintro ⟨ms, read, incomplete, name, represents, selections⟩
    obtain ⟨typed, lacking, keyed⟩ := incomplete_iff.mp incomplete
    refine ⟨ms, ?_⟩
    rw [start_asked (decode_ok.mpr read), asked, typed, lacking,
      (represents_iff typed keyed).mp represents, ← name, ← selections]
    rfl
  · rintro ⟨ms, starts⟩
    have decoded := start_object starts
    obtain ⟨typed, name, selections, -, represented⟩ := start_parts starts rfl
    have keyed := (representation_ok.mp represented).1
    have lacking : lacks ms s.operation.root.selections = true := by
      rw [start_asked decoded, asked, typed, Bool.true_and] at starts
      by_contra nothing
      simp [nothing, Except.map] at starts
    exact ⟨ms, decode_ok.mp decoded, incomplete_iff.mpr ⟨typed, lacking, keyed⟩, name,
      (represents_iff typed keyed).mpr represented, selections⟩

/-! ## The call -/

section Calls

variable {m : Type → Type} [Monad m] {fetch : EntityRequest → m EntityReply}

theorem resolve_fetches [LawfulMonad m] (fetches : Fetches s payload q) :
    Resolver.resolve (some fetch) s payload =
    (fun e => Resolver.ofSource (some fun _ => e) s payload) <$> fetch q := by
  obtain ⟨ms, starts⟩ := fetches_iff.mp fetches
  rw [map_eq_pure_bind, Resolver.resolve, Option.isSome_some, starts]
  refine bind_congr fun e => ?_
  rw [Resolver.ofSource, Option.isSome_some, starts]

theorem resolve_alone (alone : ∀ q, ¬ Fetches s payload q) :
    Resolver.resolve (some fetch) s payload = pure (Resolver.ofSource none s payload) := by
  rw [Resolver.resolve, Resolver.ofSource, Option.isSome_some, Option.isSome_none]
  cases decoded : decode payload with
  | error fault => simp [start, decoded]
  | ok ms =>
    have starts : start s true payload = _ := start_asked decoded
    rw [starts, start_asked decoded]
    cases typed : checkType s.field ms with
    | error fault => simp [asked, typed, Except.map]
    | ok _ =>
      cases wanted : asked s true ms with
      | error fault => simp [asked, typed, Except.map] at wanted
      | ok wanted? =>
        cases wanted? with
        | none => simp [asked, typed, Except.map]
        | some q =>
          rw [wanted] at starts
          exact absurd (fetches_iff.mpr ⟨ms, starts⟩) (alone q)

end Calls

/-! ## The answer -/

theorem complete_appends (ms : Members) (entity : Option Members) :
    ∃ added, complete ms entity = ms ++ added ∧ ∀ p ∈ added, ms.get? p.1 = none := by
  suffices ∀ rest added : Members, (∀ p ∈ added, ms.get? p.1 = none) → ∃ added',
      complete (ms ++ added) (some rest) = ms ++ added' ∧ ∀ p ∈ added', ms.get? p.1 = none by
    simpa [complete] using this (entity.getD []) [] (by simp)
  intro rest
  induction rest with
  | nil => exact fun added fresh => ⟨added, rfl, fresh⟩
  | cons p rest ih =>
    intro added fresh
    have one : complete (ms ++ added) (some (p :: rest)) =
        complete ((ms ++ added).insertNew p.1 p.2) (some rest) := rfl
    rw [one, Members.insertNew]
    split
    · exact ih added fresh
    · next absent =>
      rw [List.append_assoc]
      refine ih (added ++ [p])
        (List.forall_mem_append.mpr ⟨fresh, List.forall_mem_singleton.mpr ?_⟩)
      rw [Members.contains, Members.get?_append, Option.isSome_or, Bool.or_eq_true,
        not_or] at absent
      simpa using absent.1

theorem fits_keys {record : Members} (fits : EntityRecords.fits known record = true) {name : String}
    {v : Json} (other : name ≠ "__typename") (value : known.get? name = some v) :
    ∃ w, record.get? name = some w ∧ w.same v = true := by
  have fit := List.all_eq_true.mp fits _ (mem_of_get? value)
  simp only [beq_iff_eq, Bool.or_eq_true, other, false_or] at fit
  cases has : record.get? name with
  | none => simp [has] at fit
  | some w => exact ⟨w, rfl, by simpa [has] using fit⟩

theorem ofSource_fetches (fetches : Fetches s payload q) (decoded : decode payload = .ok ms)
    (source : EntitySource) : Resolver.ofSource (some source) s payload =
      ⟨(source q).takesMs, (source q).answer?.map fun answer =>
        outcome (answer.bind fun entity => finish s (complete ms entity)),
        if (source q).sent then some q else none⟩ := by
  obtain ⟨ms', starts⟩ := fetches_iff.mp fetches
  obtain rfl : ms = ms' := Except.ok.inj (decoded.symm.trans (start_object starts))
  rw [Resolver.ofSource, Option.isSome_some, starts]
  dsimp only
  rw [Resolver.completed]
  congr 1
  refine congrArg (Option.map · _) (funext fun answer => ?_)
  cases answer <;> rfl

theorem ofSource_alone (alone : ∀ q, ¬ Fetches s payload q) (source : EntitySource) :
    Resolver.ofSource (some source) s payload = Resolver.ofSource none s payload :=
  (Resolver.ofSource_eq_resolve _).trans (congrArg Id.run (resolve_alone alone))

theorem ofSource_none_sent : (Resolver.ofSource none s payload).sent? = none := by
  rw [Resolver.ofSource]
  cases start s (none : Option EntitySource).isSome payload <;> rfl

/-- An event asks its entity source once or not at all. It asks when the payload is an object of the
field's type that lacks a selected field and has all the keys, and then for the entity with these
keys and what was selected. Of the answer only the members that the payload lacks are added to it,
behind its own. A stored record that is found has the keys of the payload. -/
theorem fetch_exact (s : CompiledSubscription) (payload : List UInt8) :
    ((∃ q, Fetches s payload q) ↔
      ∃ ms, Json.readBytes? payload = some (.object ms) ∧ Incomplete s ms) ∧
    (∀ q q', Fetches s payload q → Fetches s payload q' → q = q') ∧
    (∀ (m : Type → Type) [Monad m] [LawfulMonad m] (fetch : EntityRequest → m EntityReply),
      (∀ q, Fetches s payload q → Resolver.resolve (some fetch) s payload =
        (fun e => Resolver.ofSource (some fun _ => e) s payload) <$> fetch q) ∧
      ((∀ q, ¬ Fetches s payload q) →
        Resolver.resolve (some fetch) s payload = pure (Resolver.ofSource none s payload))) ∧
    (∀ source : EntitySource, Resolver.ofSource (some source) s payload =
        Id.run (Resolver.resolve (m := Id) (some source) s payload) ∧
      ∀ q, (Resolver.ofSource (some source) s payload).sent? = some q ↔
        Fetches s payload q ∧ (source q).sent = true) ∧
    ∀ q ms, Fetches s payload q → decode payload = .ok ms →
      (∀ source : EntitySource, (Resolver.ofSource (some source) s payload).outcome? =
        (source q).answer?.map fun answer =>
          outcome (answer.bind fun entity => finish s (complete ms entity))) ∧
      (∀ entity, (∃ added, complete ms entity = ms ++ added ∧ ∀ p ∈ added, ms.get? p.1 = none) ∧
        ∀ name, (complete ms entity).get? name =
          (ms.get? name).or ((entity.getD []).get? name)) ∧
      ∀ r : EntityRecords, ∃ entity, (r.source q).answer? = some (.ok entity) ∧
        ∀ key ∈ s.field.keyFields, ∃ v, ms.get? key = some v ∧
          (complete ms entity).get? key = some v ∧
          ∀ record, entity = some record → key ≠ "__typename" →
            ∃ w, record.get? key = some w ∧ w.same v = true := by
  refine ⟨⟨?_, ?_⟩, ?_, fun m _ _ fetch => ⟨fun q => resolve_fetches, resolve_alone⟩,
    fun source => ⟨Resolver.ofSource_eq_resolve _, fun q => ?_⟩, fun q ms fetches decoded =>
      ⟨fun source => ?_,
      fun entity => ⟨complete_appends ms entity, get?_complete ms entity⟩, fun r => ?_⟩⟩
  · rintro ⟨q, ms, read, incomplete, -⟩
    exact ⟨ms, read, incomplete⟩
  · rintro ⟨ms, read, incomplete⟩
    obtain ⟨typed, -, keyed⟩ := incomplete_iff.mp incomplete
    obtain ⟨known, represented⟩ := representation_some keyed
    exact ⟨⟨s.field.typeName, known, s.operation.root.selections⟩, ms, read, incomplete, rfl,
      (represents_iff typed keyed).mpr represented, rfl⟩
  · intro q q' fetches fetches'
    obtain ⟨ms, starts⟩ := fetches_iff.mp fetches
    obtain ⟨ms', starts'⟩ := fetches_iff.mp fetches'
    have same := Except.ok.inj (starts.symm.trans starts')
    exact Option.some.inj (congrArg Started.wanted same)
  · constructor
    · intro sent
      by_cases alone : ∀ q, ¬ Fetches s payload q
      · rw [ofSource_alone alone, ofSource_none_sent] at sent
        cases sent
      · obtain ⟨own, fetches⟩ := not_forall_not.mp alone
        obtain ⟨ms, starts⟩ := fetches_iff.mp fetches
        rw [ofSource_fetches fetches (start_object starts)] at sent
        obtain ⟨left, same⟩ := Option.ite_none_right_eq_some.mp sent
        cases same
        exact ⟨fetches, left⟩
    · rintro ⟨fetches, left⟩
      obtain ⟨ms, starts⟩ := fetches_iff.mp fetches
      rw [ofSource_fetches fetches (start_object starts)]
      exact if_pos left
  · rw [ofSource_fetches fetches decoded]
  · obtain ⟨own, read, incomplete, -, represents, -⟩ := fetches
    obtain rfl : ms = own := Except.ok.inj (decoded.symm.trans (decode_ok.mpr read))
    refine ⟨_, rfl, fun key member => ?_⟩
    obtain ⟨v, -, here⟩ := incomplete.keyed key member
    refine ⟨v, here, by rw [get?_complete, here, Option.some_or], fun record found other => ?_⟩
    obtain ⟨records, -, first⟩ := Option.bind_eq_some_iff.mp found
    exact fits_keys (List.find?_some first) other ((represents.values key member).trans here)

def notedDetails (q : EntityRequest) : StateM (List EntityRequest) EntityReply := do
  modify (· ++ [q])
  return detailsRecords.source q

def detailsRequest : EntityRequest where
  typeName := "Employee"
  representation := [("__typename", .string "Employee"), ("id", .ofNat 1)]
  selections := detailsSubscription.operation.root.selections

theorem details_fetched :
    Fetches detailsSubscription detailsPayload detailsRequest ∧
    (∀ q, Fetches detailsSubscription detailsPayload q → q = detailsRequest) ∧
    ((Resolver.resolve (some notedDetails) detailsSubscription detailsPayload).run []).2 =
      [detailsRequest] ∧
    (detailsRecords.source detailsRequest).answer? = some (.ok (some detailsRecord)) ∧
    (complete detailsObject (some detailsRecord)).get? "id" = some (.ofNat 1) ∧
    ∃ w, detailsRecord.get? "id" = some w ∧ w.same (.ofNat 1) = true := by
  have decoded : decode detailsPayload = .ok detailsObject := by decide +kernel
  have fetches : Fetches detailsSubscription detailsPayload detailsRequest := by
    rw [fetches_iff]
    exact ⟨detailsObject, by rw [start_asked decoded]; rfl⟩
  obtain ⟨-, unique, calls, -, answers⟩ := fetch_exact detailsSubscription detailsPayload
  have found : (detailsRecords.source detailsRequest).answer? = some (.ok (some detailsRecord)) :=
    congrArg (fun entity => some (Except.ok entity)) (by decide +kernel)
  obtain ⟨-, -, stored⟩ := answers _ _ fetches decoded
  obtain ⟨entity, answer, keys⟩ := stored detailsRecords
  obtain rfl := Except.ok.inj (Option.some.inj (answer.symm.trans found))
  obtain ⟨v, here, merged, record⟩ := keys "id" (List.mem_singleton_self _)
  obtain rfl : v = .ofNat 1 := Option.some.inj (here.symm.trans rfl)
  refine ⟨fetches, fun q other => unique _ _ other fetches, ?_, found, merged,
    record _ rfl (by decide)⟩
  rw [(calls _ notedDetails).1 _ fetches]
  rfl

end Resolution

end SubscriptionGateway
