import DerivedQuery.Proofs.Engine.Explain
import DerivedQuery.Proofs.Engine.Names
import DerivedQuery.Proofs.Method.Occurrence
import DerivedQuery.Proofs.Plan.Binding
import DerivedQuery.Proofs.Text.Ascii

/-!
# Names that ask for a limited result

No store can limit a result, so a name that asks for that is not run. It asks with a marker in its
subject, with a number or without one, that ends where the subject does or a new word starts
(`Method.AsksLimit`). A marker is only looked at where it stands first, though: a name has a limit if the
first occurrence of one of the markers is such a place (`Method.AsksLimitFirst`), and then nothing but
planning is ever done for it (`Engine.limited_iff_and_never_runs`). Where the marker stands in a longer
word before, the limit is not noticed (`Engine.limit_missed_behind_topics`).
-/

namespace DerivedQuery

namespace Method

variable {marker : String} {subject : List Char}

/-! ## Limits -/

/-- The markers of a limit. -/
def limitMarkers : List String := ["First", "Top"]

/-- A number comes here, which may be missing, and then the end or a new word. -/
def IsLimit (after : List Char) : Prop :=
  ∃ digits rest, after = digits ++ rest ∧ (∀ c ∈ digits, c.isDigit) ∧ startsWord rest

/-- Somewhere in the subject a marker stands in front of a limit. -/
def AsksLimit (subject : List Char) : Prop :=
  ∃ marker ∈ limitMarkers, ∃ before after, Occurs marker.toList subject before after ∧ IsLimit after

/-- A marker stands in front of a limit where it occurs first. -/
def AsksLimitFirst (subject : List Char) : Prop :=
  ∃ marker ∈ limitMarkers, ∃ before after,
    IsFirst (Occurs marker.toList subject) before after ∧ IsLimit after

theorem isLimit_iff {after : List Char} : IsLimit after ↔ startsWord (after.dropWhile Char.isDigit) := by
  constructor
  · rintro ⟨digits, rest, rfl, hdigits, hrest⟩
    rw [List.dropWhile_append_of_pos hdigits]
    cases rest with
    | nil => rfl
    | cons c rest =>
      have hletter : c.isDigit = false := by
        refine Bool.eq_false_iff.mpr fun hdigit => ?_
        exact absurd hrest (Bool.eq_false_iff.mp (Text.isUppercase_of_isDigit hdigit))
      rw [List.dropWhile_cons_of_neg (Bool.eq_false_iff.mp hletter)]
      exact hrest
  · intro h
    refine ⟨after.takeWhile Char.isDigit, _, List.takeWhile_append_dropWhile.symm, ?_, h⟩
    exact fun c hc => List.mem_takeWhile_imp hc

/-- Whether there is a limit does not depend on its number. -/
theorem isSome_limit? (marker : String) (subject : List Char) :
    (limit? marker subject).isSome =
      (behindMarker? marker.toList subject).any fun after =>
        startsWord (after.dropWhile Char.isDigit) := by
  rw [limit?]
  cases behindMarker? marker.toList subject with
  | none => rfl
  | some after =>
    dsimp only
    rw [Option.any_some]
    cases startsWord (after.dropWhile Char.isDigit) with
    | false => rfl
    | true =>
      rw [Bool.not_true, if_neg Bool.false_ne_true]
      split_ifs <;> rfl

theorem isSome_limit?_iff (hmarker : marker.toList ≠ []) :
    (limit? marker subject).isSome ↔
      ∃ before after, IsFirst (Occurs marker.toList subject) before after ∧ IsLimit after := by
  rw [isSome_limit?, Option.any_eq_true, exists_comm]
  simp only [exists_and_right, ← behindMarker?_eq_some_iff hmarker, isLimit_iff]

/-- **A subject has a limit if a marker stands in front of one where it occurs first.** -/
theorem isSome_limit_iff {parsed : Subject} (h : parseSubject subject = .ok parsed) :
    parsed.limit.isSome ↔ AsksLimitFirst subject := by
  have hmarkers : AsksLimitFirst subject ↔
      (limit? "First" subject).isSome ∨ (limit? "Top" subject).isSome := by
    rw [isSome_limit?_iff (by decide), isSome_limit?_iff (by decide)]
    simp only [AsksLimitFirst, limitMarkers, List.mem_cons, List.not_mem_nil, or_false, or_and_right,
      exists_or, exists_eq_left]
  rw [hmarkers, ← Bool.or_eq_true, ← Option.isSome_or]
  unfold parseSubject at h
  dsimp only at h
  cases hlimit : (limit? "First" subject).or (limit? "Top" subject) with
  | none =>
    rw [hlimit] at h
    cases h
    rfl
  | some limit =>
    rw [hlimit] at h
    obtain ⟨number, -, ⟨⟩⟩ := bind_eq_ok_iff.mp h
    rfl

/-- An operation has a limit if the subject of its name asks for one at the first occurrence of a
marker. -/
theorem isSome_limit_of_parse {m : EntityMetadata} {verb : Word Action} {text : List Char}
    {operation : Operation} (hverb : verb ∈ verbs) (hstarts : startsWord text)
    (hsubject : IsSubject text subject)
    (h : parse m (String.ofList (verb.1 ++ text)) = .ok operation) :
    operation.subject.limit.isSome ↔ AsksLimitFirst subject := by
  obtain ⟨_, _, parsed, connector, criteria, order, hsplit, hparsed, -, -, rfl⟩ := parse_eq_ok_iff.mp h
  rw [String.toList_ofList, splitVerb?_append hverb hstarts] at hsplit
  cases hsplit
  rw [isSubject_iff.mp hsubject] at hparsed
  exact isSome_limit_iff hparsed

end Method

namespace Engine

variable {σ α β : Type} {e : Engine σ} {session : Session σ} {method : String} {error : QueryError}

/-! ## Work that stops in planning -/

/-- The work fails and disturbs nothing. -/
def Stops (e : Engine σ) (session : Session σ) (error : QueryError) (work : EngineM σ α) : Prop :=
  ∃ later, work.runOn session = (.error error, later) ∧ e.Undisturbed session later

theorem Stops.bind {work : EngineM σ α} (h : e.Stops session error work) (next : α → EngineM σ β) :
    e.Stops session error (work >>= next) := by
  obtain ⟨later, hrun, hkept⟩ := h
  refine ⟨later, ?_, hkept⟩
  rw [EngineM.runOn_bind, hrun]

theorem stops_assemble {call : Call} (h : e.planned session method call = .error error) :
    e.Stops session error (e.assemble method call) := by
  obtain ⟨later, hrun, hkept⟩ := e.runOn_assemble method call session
  exact ⟨later, h ▸ hrun, hkept⟩

theorem stops_assembleFor {call : Call} (h : e.planned session method call = .error error)
    (action : Action) : e.Stops session error (e.assembleFor action method call) :=
  (stops_assemble h).bind _

/-- **A request by a name that no call can be planned for stops in planning.** -/
theorem stops_serve {request : Request} (hname : request.method? e = some method)
    (hplanning : request.isPlanning = false)
    (h : ∀ call, e.planned session method call = .error error) :
    e.Stops session error (e.serve request) := by
  cases request with
  | prepare | assemble | render | explain => cases hplanning
  | pointRead | pointDelete | deleteDocument | upsert | countAll => cases hname
  | find _ call =>
    cases hname
    exact (stops_assembleFor (h call) .find).bind _
  | findAll _ call =>
    cases hname
    exact (stops_assembleFor (h call) .find).bind _
  | hasMatch _ call =>
    cases hname
    exact (stops_assembleFor (h call) .exists).bind _
  | count _ call =>
    cases hname
    exact (stops_assembleFor (h call) .count).bind _
  | delete _ call =>
    cases hname
    exact (stops_assembleFor (h call) .delete).bind _
  | invoke _ call =>
    cases hname
    obtain ⟨later, hkept, hrun⟩ := e.runOn_invoke method call session
    rw [h call] at hrun
    exact ⟨later, hrun, hkept⟩
  | findByIds ids =>
    rw [Request.method?] at hname
    rw [serve, findByIds]
    split at hname
    · cases hname
    · next hids =>
      cases hname
      rw [if_neg hids]
      exact ((stops_assembleFor (h _) .find).bind _).bind _
  | deleteAll =>
    cases hname
    exact (stops_assemble (h {})).bind _

/-! ## Limited names -/

theorem plan_of_limit {operation : Operation} {limit : Nat} (h : operation.subject.limit = some limit)
    (call : Call) :
    e.plan operation call = .error (.unsupportedQuery (.limited operation.method limit)) := by
  rw [plan, Capability.validate, Capability.checkLimit, h]
  rfl

/-- A name whose operation has a limit, if it has one at all, has no query. -/
theorem unplanned_of_limit (hfaithful : e.Faithful session)
    (hlimit : ∀ operation, Method.parse e.metadata method = .ok operation → operation.isLimiting) :
    ∃ error,
      (Method.parse e.metadata method = .error error ∨
        ∃ operation limit, Method.parse e.metadata method = .ok operation ∧
          operation.subject.limit = some limit ∧
          error = .unsupportedQuery (.limited method limit)) ∧
      ∀ call, e.planned session method call = .error error := by
  cases hparse : Method.parse e.metadata method with
  | error error =>
    refine ⟨error, .inl rfl, fun call => ?_⟩
    rw [planned, hfaithful method, hparse, error_bind]
  | ok operation =>
    obtain ⟨limit, hsome⟩ := Option.isSome_iff_exists.mp (hlimit operation hparse)
    refine ⟨_, .inr ⟨operation, limit, rfl, hsome, rfl⟩, fun call => ?_⟩
    rw [hfaithful.planned_eq hparse, plan_of_limit hsome, Method.method_of_parse hparse]

/-- **A name has a limit if a marker stands in front of one where it occurs first, and is not run
then.** Either it cannot be parsed, or it is refused for its limit; a request by the name stops with this
error, and has not asked the store. -/
theorem limited_iff_and_never_runs (hfaithful : e.Faithful session) {verb : Method.Word Action}
    (hverb : verb ∈ Method.verbs) {text subject : List Char} (hstarts : Method.startsWord text)
    (hsubject : Method.IsSubject text subject) :
    let method := String.ofList (verb.1 ++ text)
    (∀ operation, Method.parse e.metadata method = .ok operation →
      (operation.isLimiting ↔ Method.AsksLimitFirst subject)) ∧
    (Method.AsksLimitFirst subject → ∃ error,
      (Method.parse e.metadata method = .error error ∨
        ∃ operation limit, Method.parse e.metadata method = .ok operation ∧
          operation.subject.limit = some limit ∧
          error = .unsupportedQuery (.limited method limit)) ∧
      (∀ call, e.Stops session error (e.assemble method call)) ∧
      ∀ request, request.method? e = some method → request.isPlanning = false →
        e.Stops session error (e.serve request)) := by
  intro method
  have hlimit : ∀ operation, Method.parse e.metadata method = .ok operation →
      (operation.isLimiting ↔ Method.AsksLimitFirst subject) :=
    fun operation hparse => Method.isSome_limit_of_parse hverb hstarts hsubject hparse
  refine ⟨hlimit, fun hasks => ?_⟩
  obtain ⟨error, hreason, hplanned⟩ :=
    unplanned_of_limit hfaithful fun operation hparse => (hlimit operation hparse).mpr hasks
  exact ⟨error, hreason, fun call => stops_assemble (hplanned call),
    fun request hname hplanning => stops_serve hname hplanning hplanned⟩

theorem limited_iff_and_never_runs_towns :
    let e := inMemory Town.metadata {}
    let session : Session MemoryStore := { store := Town.store }
    ∃ error, error = .unsupportedQuery (.limited "deleteTop3ByCountry" 3) ∧
      e.Stops session error (e.serve (.delete "deleteTop3ByCountry" { arguments := [.string "NO"] })) := by
  intro e session
  have hparse : Method.parse Town.metadata "deleteTop3ByCountry" = .ok ⟨"deleteTop3ByCountry", .delete,
      { limit := some 3 }, .and, [⟨⟨["country"], .string⟩, .equal, false⟩], []⟩ := by
    with_unfolding_all rfl
  have hasks : Method.AsksLimitFirst "Top3".toList := by
    have hplace : "Top3".toList = [] ++ ("Top".toList ++ "3".toList) := by decide
    refine ⟨"Top", by decide, [], "3".toList, ⟨hplace, fun _ _ _ => Nat.zero_le _⟩, ?_⟩
    exact ⟨"3".toList, [], (List.append_nil _).symm, List.all_eq_true.mp (by decide), rfl⟩
  have hverb : ("delete".toList, Action.delete) ∈ Method.verbs := by decide
  have hsubject : Method.IsSubject "Top3ByCountry".toList "Top3".toList :=
    Method.isSubject_iff.mpr (by decide +kernel)
  obtain ⟨-, hlimited⟩ :=
    limited_iff_and_never_runs (e.faithful_new Town.store) hverb (by decide) hsubject
  obtain ⟨error, hreason, -, hserve⟩ := hlimited hasks
  have hmethod : String.ofList ("delete".toList ++ "Top3ByCountry".toList) = "deleteTop3ByCountry" := rfl
  rw [hmethod] at hreason hserve
  rcases hreason with hfailed | ⟨operation, limit, hparsed, hsome, rfl⟩
  · cases hparse.symm.trans hfailed
  · cases hparse.symm.trans hparsed
    cases hsome
    exact ⟨_, rfl, hserve _ rfl rfl⟩

/-- `Topics` starts with a marker, so the limit behind it is not noticed. -/
theorem limit_missed_behind_topics :
    let e := inMemory Town.metadata {}
    let session : Session MemoryStore := { store := Town.store }
    let method := "findTopicsTop3ByName"
    let text := "TopicsTop3ByName".toList
    ("find".toList, Action.find) ∈ Method.verbs ∧ Method.startsWord text ∧
      method = String.ofList ("find".toList ++ text) ∧
      Method.IsSubject text "TopicsTop3".toList ∧ Method.AsksLimit "TopicsTop3".toList ∧
      (∃ operation, Method.parse e.metadata method = .ok operation ∧
        operation.subject.limit = none) ∧
      ∃ query later, (e.assemble method { arguments := [.string "Oslo"] }).runOn session
        = (.ok query, later) := by
  intro e session method text
  have hparse : Method.parse Town.metadata "findTopicsTop3ByName" = .ok
      ⟨"findTopicsTop3ByName", .find, {}, .and, [⟨⟨["name"], .string⟩, .equal, false⟩], []⟩ := by
    with_unfolding_all rfl
  refine ⟨by decide, by decide, rfl, Method.isSubject_iff.mpr (by decide +kernel), ?_,
    ⟨_, hparse, rfl⟩, ?_⟩
  · have hplace : "TopicsTop3".toList = "Topics".toList ++ ("Top".toList ++ "3".toList) := by decide
    refine ⟨"Top", by decide, "Topics".toList, "3".toList, hplace, ?_⟩
    exact ⟨"3".toList, [], (List.append_nil _).symm, List.all_eq_true.mp (by decide), rfl⟩
  · obtain ⟨later, hassemble, -⟩ := e.runOn_assemble method { arguments := [.string "Oslo"] } session
    rw [(e.faithful_new Town.store).planned_eq hparse] at hassemble
    exact ⟨_, later, hassemble⟩

end Engine

end DerivedQuery
