import DerivedQuery.Proofs.Document.Fields
import DerivedQuery.Proofs.Engine.Paging
import DerivedQuery.Proofs.Engine.Stock
import DerivedQuery.Proofs.Method.Lookup
import DerivedQuery.Proofs.Plan.Binding

/-!
# Finding documents by a list of identifiers

There are two ways to the documents with some identifiers: reading each one by the text of its identifier,
and a lookup that asks for all of them in one query. A lookup is a call by method name like any other; its
name is read back if the identifier is legible (`EntityMetadata.LegibleId`), and then its query selects the
documents whose identifier is stored as one of the texts (`Engine.holds_lookupTree`).

Both ways agree on identifiers that are stored as texts (`Engine.findByIds_agrees_with_stored_ids`). A
number has a text by which its document is read, but no lookup finds it.
-/

namespace DerivedQuery

namespace Engine

variable {m : EntityMetadata} {config : EngineConfig} {description : EntityDescription}
  {session : Session MemoryStore}

/-! ## Lookups -/

/-- A lookup selects by the text of the identifier. -/
def lookupTree (m : EntityMetadata) (ids : List String) : PredicateTree where
  connector := .and
  predicates := [{
    property := m.idProperty, field := idField, operator := .isIn, ignoreCase := false
    values := [.array (ids.map .string)] }]

/-- **A lookup selects the documents whose identifier is one of the texts.** A number is none of them. -/
theorem holds_lookupTree {ids : List String} {document : Document} :
    (lookupTree m ids).holds document ↔ ∃ id ∈ ids, document.get? idField = some (.string id) := by
  change ([_].all _) = true ↔ _
  rw [List.all_cons, List.all_nil, Bool.and_true, Predicate.holds]
  dsimp only
  rw [Document.field?_idField]
  cases document.get? idField with
  | none => simp
  | some value =>
    change ((ids.map Json.string).any (Predicate.equals false value)) = true ↔ _
    simp only [List.any_map, List.any_eq_true, Function.comp_apply, Predicate.equals_false,
      Json.same_string_iff, Option.some.injEq]

/-- A lookup by a legible identifier is accepted. -/
theorem planned_lookup (hm : EntityMetadata.ofDescription description = .ok m) (hid : m.LegibleId)
    (hfaithful : (inMemory m config).Faithful session) (ids : List String) :
    ∃ query, (inMemory m config).planned session (inMemory m config).findByIdsMethod
        { arguments := [.array (ids.map .string)] } = .ok query ∧
      query.action = .find ∧ query.tree = lookupTree m ids := by
  have hparse : Method.parse (inMemory m config).metadata (inMemory m config).findByIdsMethod
      = .ok (Method.lookup m (inMemory m config).findByIdsMethod) := hid.parse_lookup hm
  have hfield : m.documentField m.idProperty = idField := by
    rw [EntityMetadata.documentField, EntityMetadata.isId, beq_self_eq_true, if_pos rfl]
  have hbind : Query.bind m [⟨m.idProperty, .isIn, false⟩] [.array (ids.map .string)]
      = .ok (lookupTree m ids).predicates := by
    rw [lookupTree, ← hfield]
    rfl
  have hvalidate : Capability.validate m
      (Method.lookup m (inMemory m config).findByIdsMethod) [] = .ok none := by
    refine Capability.validate_eq_ok_iff.mpr ⟨rfl, List.forall_mem_singleton.mpr ?_, rfl⟩
    refine Capability.checkCriterion_eq_ok_iff.mpr ⟨?_, ?_⟩
    · rw [EntityMetadata.dotted_idProperty hm, (EntityMetadata.resolve?_idProperty hm).2]
      rfl
    · rintro ⟨⟩
  refine ⟨_, hfaithful.planned_eq hparse ▸ (plan_eq_ok_iff _).mpr
    ⟨none, (lookupTree m ids).predicates, ?_, rfl, hbind, rfl⟩, rfl, rfl⟩
  rw [PageState.sort_choose]
  exact hvalidate

/-- Collecting an accepted find call gives all its results. -/
theorem runOn_findAll_collect {method : String} {arguments : List Json} {query : Query}
    (hfits : session.store.Addressable)
    (hplanned : (inMemory m config).planned session method { arguments } = .ok query)
    (hfind : query.action = .find) :
    ∃ later, ((inMemory m config).findAll method { arguments } >>= fun pages =>
        pages.collect memoryStore .ok).runOn session = (.ok (session.store.results query), later) ∧
      (inMemory m config).Undisturbed session later := by
  obtain ⟨hsize, htoken, -⟩ := page_of_planned session hplanned
  have hpos : 0 < query.page.size := by
    rw [hsize]
    exact pageSize_pos nofun
  have hskip : MemoryStore.skip query.page = .ok 0 := by
    rw [MemoryStore.skip, htoken]
    rfl
  obtain ⟨assembled, hassemble, hkept⟩ := (inMemory m config).runOn_assembleFor_ok hplanned hfind
  have hfits' : assembled.store.Addressable := hkept.store ▸ hfits
  obtain ⟨later, hcollect, hsame⟩ :=
    Pages.runOn_collect assembled hpos (hfits'.length_results query) hskip
  rw [List.drop_zero, hkept.store] at hcollect
  refine ⟨later, ?_, hkept.trans (.of_kept hsame)⟩
  rw [findAll, EngineM.runOn_bind, EngineM.runOn_bind, hassemble]
  exact hcollect

/-- **A lookup gives all documents that it selects, each once.** -/
theorem runOn_findByIds (hm : EntityMetadata.ofDescription description = .ok m) (hid : m.LegibleId)
    (hfaithful : (inMemory m config).Faithful session) (hfits : session.store.Addressable)
    (ids : List String) :
    ∃ found later, ((inMemory m config).findByIds ids).runOn session = (.ok found, later) ∧
      (inMemory m config).Undisturbed session later ∧
      found.Perm (session.store.matching m.collection (lookupTree m ids)) := by
  rw [findByIds]
  by_cases hempty : ids = []
  · have hnone : session.store.matching m.collection (lookupTree m ids) = [] := by
      refine List.filter_eq_nil_iff.mpr fun document _ hholds => ?_
      obtain ⟨_, hmem, -⟩ := holds_lookupTree.mp hholds
      rw [hempty] at hmem
      cases hmem
    rw [hempty] at hnone ⊢
    exact ⟨[], session, rfl, .refl, hnone ▸ .refl _⟩
  · obtain ⟨query, hplanned, hfind, htree⟩ := planned_lookup hm hid hfaithful ids
    obtain ⟨-, -, hcollection⟩ := page_of_planned session hplanned
    obtain ⟨later, hrun, hkept⟩ := runOn_findAll_collect hfits hplanned hfind
    rw [if_neg (List.isEmpty_iff.not.mpr hempty), ← hcollection, ← htree]
    exact ⟨_, later, hrun, hkept, session.store.results_perm query⟩

/-- A lookup whose name is not parsed fails. -/
theorem runOn_findByIds_error (hfaithful : (inMemory m config).Faithful session) {error : QueryError}
    (hparse : Method.parse m (inMemory m config).findByIdsMethod = .error error) {ids : List String}
    (hids : ids ≠ []) :
    ∃ later, ((inMemory m config).findByIds ids).runOn session = (.error error, later) := by
  obtain ⟨later, hassemble, -⟩ := (inMemory m config).runOn_assembleFor .find
    (inMemory m config).findByIdsMethod { arguments := [.array (ids.map .string)] } session
  have hreading : (inMemory m config).reading session (inMemory m config).findByIdsMethod
      = .error error := (hfaithful _).trans hparse
  rw [plannedFor, planned, hreading, error_bind, error_bind] at hassemble
  refine ⟨later, ?_⟩
  rw [findByIds, if_neg (List.isEmpty_iff.not.mpr hids), EngineM.runOn_bind, findAll,
    EngineM.runOn_bind, hassemble]

/-! ## Identifiers as they are stored -/

/-- **A lookup finds the stored documents with these identifiers, each once, unless the identifier is
stored as a number.** The name of the identifier has to be legible. Then whatever has been added, in
whichever partitions and for however many pages, the documents that are found are those that point reads
find and whose identifiers are texts. -/
theorem findByIds_agrees_with_stored_ids (hm : EntityMetadata.ofDescription description = .ok m)
    (hid : m.LegibleId) (hstart : Stocked m config session) (documents : List Document)
    (hfits : ((inMemory m config).upserts documents session).store.Addressable) (ids : List String) :
    let written := (inMemory m config).upserts documents session
    let stored := (written.store.entries m.collection).map (·.2)
    ∃ found later, ((inMemory m config).findByIds ids).runOn written = (.ok found, later) ∧
      (inMemory m config).Undisturbed written later ∧ found.Nodup ∧
      (∀ document, document ∈ found ↔
        document ∈ stored ∧ ∃ id ∈ ids, document.get? idField = some (.string id)) ∧
      ∀ document ∈ stored, ∃ id, Document.id m document = .ok id ∧
        (∃ last, ((inMemory m config).pointRead id (m.partitionValue? document)).runOn written
          = (.ok (some document), last)) ∧
        (document ∈ found ↔
          id ∈ ids ∧ ∀ number, document.get? idField ≠ some (.number number)) := by
  intro written stored
  have hwritten : Stocked m config written := hstart.upserts documents
  obtain ⟨found, later, hrun, hkept, hperm⟩ := runOn_findByIds hm hid hwritten.faithful hfits ids
  have hfound : ∀ document, document ∈ found ↔
      document ∈ stored ∧ ∃ id ∈ ids, document.get? idField = some (.string id) := by
    intro document
    rw [hperm.mem_iff, MemoryStore.matching, List.mem_filter, holds_lookupTree]
  have hnodup : found.Nodup :=
    hperm.nodup_iff.mpr ((hwritten.reachable.sound.nodup_documents m.collection).filter _)
  refine ⟨found, later, hrun, hkept, hnodup, hfound, fun document hstored => ?_⟩
  obtain ⟨id, last, htext, hread⟩ := hwritten.runOn_pointRead hstored
  refine ⟨id, htext, ⟨last, hread⟩, ?_⟩
  obtain ⟨value, hvalue, hvalueText⟩ := Document.id_eq_ok_iff.mp htext
  rw [hfound, and_iff_right hstored, hvalue]
  -- What is stored has a text, so it is a text or a number, and only a text is the same as a text.
  cases value with
  | string text =>
    cases hvalueText
    simp
  | number number => simp
  | null | bool _ | array _ | object _ => cases hvalueText

theorem findByIds_agrees_with_stored_ids_towns :
    let e := inMemory Town.metadata {}
    let written := e.upserts [Town.document "4" "SE" "Lund"] { store := Town.store }
    ∃ found later, (e.findByIds ["4", "1", "4", "9"]).runOn written = (.ok found, later) ∧
      found.Nodup ∧ Town.document "4" "SE" "Lund" ∈ found ∧ Town.document "2" "DK" "Aarhus" ∉ found := by
  intro e written
  let lund : Document := Town.document "4" "SE" "Lund"
  let sweden : PartitionBinding := ⟨"country", "country", .string "SE"⟩
  have hlund : Partition.ofDocument Town.metadata lund = .ok (some sweden) := rfl
  have hstore : ((inMemory Town.metadata {}).upserts [lund] { store := Town.store }).store
      = (Town.store.upsert Town.metadata.collection lund (some sweden)).2 := (store_upsert {} _ hlund).1
  have hstored : ((Town.store.upsert Town.metadata.collection lund (some sweden)).2.entries
        Town.metadata.collection).map (·.2)
      = [Town.document "2" "DK" "Aarhus", Town.document "1" "NO" "Oslo",
          Town.document "3" "NO" "Bergen", lund] := rfl
  have hfits : ((inMemory Town.metadata {}).upserts [lund] { store := Town.store }).store.Addressable := by
    rw [hstore]
    exact MemoryStore.addressable_of_total (by decide)
  have hm : EntityMetadata.ofDescription {
      name := "Town", collection := some "towns", partitionKey := some "country"
      properties := [("country", .string), ("id", .string), ("name", .string)] }
      = .ok Town.metadata := by with_unfolding_all rfl
  have hstart : Stocked Town.metadata {} { store := Town.store } := by
    refine ⟨Town.reachable_store, ?_, faithful_new _ _⟩
    rintro collection ⟨⟩
    rfl
  obtain ⟨found, later, hrun, -, hnodup, hfound, -⟩ := findByIds_agrees_with_stored_ids hm
    (.of_leaf_id rfl) hstart [lund] hfits ["4", "1", "4", "9"]
  rw [hstore, hstored] at hfound
  refine ⟨found, later, hrun, hnodup, (hfound _).mpr ⟨by simp [lund], "4", by decide, rfl⟩, ?_⟩
  intro hmem
  obtain ⟨-, id, hid, htext⟩ := (hfound _).mp hmem
  cases htext
  exact absurd hid (by decide)

end Engine

/-- Orders, whose identifiers are numbers. -/
def Order.metadata : EntityMetadata where
  typeName := "Order"
  collection := "orders"
  idProperty := ⟨["id"], .int⟩
  partitionKey := some ⟨["region"], .string⟩
  properties := PropertyTable.build [("id", .int), ("region", .string)]

def Order.north : Document := .object [("id", .int 7), ("region", .string "north")]

/-- Users, whose identifiers have an underscore in their name. -/
def User.metadata : EntityMetadata where
  typeName := "User"
  collection := "users"
  idProperty := ⟨["user_id"], .string⟩
  partitionKey := none
  properties := PropertyTable.build [("name", .string), ("user_id", .string)]

def User.ann : Document := .object [("id", .string "u1"), ("name", .string "Ann")]

namespace Engine

/-- A lookup misses an order that a point read finds, because the order has a number for its identifier,
and no user can be looked up, because the name of the identifier is not read back. -/
theorem findByIds_misses_stored_ids :
    EntityMetadata.ofDescription {
        name := "Order", collection := some "orders", partitionKey := some "region"
        properties := [("id", .int), ("region", .string)] } = .ok Order.metadata ∧
    (let e := inMemory Order.metadata {}
      let written := e.upserts [Order.north] { store := {} }
      (∃ later, (e.pointRead "7" (some (.string "north"))).runOn written
        = (.ok (some Order.north), later)) ∧
      ∃ later, (e.findByIds ["7"]).runOn written = (.ok [], later)) ∧
    EntityMetadata.ofDescription {
        name := "User", collection := some "users", id := "user_id"
        properties := [("name", .string), ("user_id", .string)] } = .ok User.metadata ∧
    (let e := inMemory User.metadata {}
      let written := e.upserts [User.ann] { store := {} }
      (∃ later, (e.pointRead "u1" none).runOn written = (.ok (some User.ann), later)) ∧
      ∃ later, (e.findByIds ["u1"]).runOn written
        = (.error (.unknownProperty "User" "user_idIn"), later)) := by
  have horder : EntityMetadata.ofDescription {
      name := "Order", collection := some "orders", partitionKey := some "region"
      properties := [("id", .int), ("region", .string)] } = .ok Order.metadata := by
    with_unfolding_all rfl
  have huser : EntityMetadata.ofDescription {
      name := "User", collection := some "users", id := "user_id"
      properties := [("name", .string), ("user_id", .string)] } = .ok User.metadata := by
    with_unfolding_all rfl
  obtain ⟨hfits, hstored, horderRead⟩ := upserts_new {}
    (rfl : Document.id Order.metadata Order.north = .ok "7")
    (rfl : Partition.ofDocument Order.metadata Order.north
      = .ok (some ⟨"region", "region", .string "north"⟩))
  obtain ⟨-, -, huserRead⟩ := upserts_new {} (rfl : Document.id User.metadata User.ann = .ok "u1")
    (rfl : Partition.ofDocument User.metadata User.ann = .ok none)
  refine ⟨horder, ⟨horderRead, ?_⟩, huser, ⟨huserRead, ?_⟩⟩
  · have hwritten := (stocked_new Order.metadata {}).upserts [Order.north]
    obtain ⟨found, later, hrun, -, hperm⟩ :=
      runOn_findByIds horder (.of_leaf_id rfl) hwritten.faithful hfits ["7"]
    rw [MemoryStore.matching, hstored] at hperm
    cases hperm.eq_nil
    exact ⟨later, hrun⟩
  · have hwritten := (stocked_new User.metadata {}).upserts [User.ann]
    have hparse : Method.parse User.metadata (inMemory User.metadata {}).findByIdsMethod
        = .error (.unknownProperty "User" "user_idIn") := by with_unfolding_all rfl
    exact runOn_findByIds_error hwritten.faithful hparse (by decide)

end Engine

end DerivedQuery
