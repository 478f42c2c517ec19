import DerivedQuery.Proofs.Command.Answers
import DerivedQuery.Proofs.Command.Seeding
import DerivedQuery.Proofs.Engine.Explain
import DerivedQuery.Proofs.Engine.Paging
import DerivedQuery.Proofs.Store.Settled
import DerivedQuery.Proofs.Text.Base64

/-!
# Paging from the command line

A run of a command starts from nothing but the files and its options. What carries a walk through the
results from one run to the next is the continuation that the run before has shown.

Each run reads the same documents and asks for pages of the same size (`readPage_continue`) in the same
order, which comes from the method name alone (`Engine.planned_of_size`), so it shows a page of the same
results (`Finds.shown_behind`). By induction on the runs these are the pages of `MemoryStore.pagesFrom`
(`pagesOfRuns?_of_shown`), which hand out all results; one run with a page that is large enough shows
them at once (`runs_page_through`).
-/

namespace DerivedQuery

open Json (Form)

namespace Engine

variable {m : EntityMetadata} {config : EngineConfig} {session : Session MemoryStore} {method : String}
  {call : Call} {query : Query}

/-- An accepted find call that is run gives the page at the position of its token. -/
theorem runOn_invoke_find {position : Nat} (hpos : 0 < query.page.size)
    (hskip : MemoryStore.skip query.page = .ok position)
    (hplanned : (inMemory m config).planned session method call = .ok query)
    (hfind : query.action = .find) :
    (((inMemory m config).invoke method call).runOn session).1
      = .ok (.found (MemoryStore.pageAt query.page (session.store.results query) position)) := by
  obtain ⟨later, hkept, hrun⟩ := (inMemory m config).runOn_invoke method call session
  obtain ⟨fetched, hfetch, -⟩ := Pages.runOn_fetchPage_memory later hpos hskip
  have hmemory : (inMemory m config).store = memoryStore := rfl
  rw [hrun, hplanned]
  dsimp only
  rw [hfind, act, hmemory, EngineM.runOn_bind, hfetch, hkept.store]
  rfl

end Engine

namespace Command

/-! ## Page sizes of configurations -/

theorem lt_of_natBelow? {bound n : Nat} {form : Form} (h : form.natBelow? bound = some n) :
    n < bound := by
  unfold Form.natBelow? at h
  split at h
  · split at h
    · next hbounds =>
      cases h
      omega
    · cases h
  · cases h

theorem defaultPageSize_lt_of_ofFields? {fields : List (Option Form)} {engine : EngineConfig}
    (h : EngineConfig.ofFields? fields = some engine) : engine.defaultPageSize < UInt32.size := by
  unfold EngineConfig.ofFields? at h
  split at h
  · next defaultPageSize logLevel =>
    obtain ⟨size, hsize, h⟩ := Option.bind_eq_some_iff.mp h
    obtain ⟨level, -, ⟨⟩⟩ := Option.bind_eq_some_iff.mp h
    cases defaultPageSize with
    | none =>
      cases hsize
      exact (by decide : 100 < UInt32.size)
    | some form => exact lt_of_natBelow? hsize
  · cases h

/-- The default size of a configuration that is loaded is one that a page can have. -/
theorem defaultPageSize_of_ofText {text : String} {config : Config}
    (h : Config.ofText text = .ok config) :
    0 < config.engine.defaultPageSize ∧ config.engine.defaultPageSize < UInt32.size := by
  obtain ⟨hform, hvalid⟩ := Config.ofText_eq_ok_iff.mp h
  constructor
  · obtain ⟨_, hengine, -⟩ := bind_eq_ok_iff.mp hvalid
    obtain ⟨hzero, -⟩ := ite_error_eq_ok_iff.mp (mapError_eq_ok_iff.mp hengine)
    exact Nat.pos_of_ne_zero hzero
  · obtain ⟨form, -, hform⟩ := Option.bind_eq_some_iff.mp hform
    unfold Config.ofForm? at hform
    split at hform
    · split at hform
      · cases hform
      · obtain ⟨_, -, hform⟩ := Option.bind_eq_some_iff.mp hform
        obtain ⟨_, -, hform⟩ := Option.bind_eq_some_iff.mp hform
        obtain ⟨_, -, hform⟩ := Option.bind_eq_some_iff.mp hform
        obtain ⟨engine, hengine, hform⟩ := Option.bind_eq_some_iff.mp hform
        obtain ⟨_, -, hform⟩ := Option.bind_eq_some_iff.mp hform
        obtain ⟨_, -, ⟨⟩⟩ := Option.bind_eq_some_iff.mp hform
        exact defaultPageSize_lt_of_ofFields? hengine
    · cases hform

theorem defaultPageSize_of_load {files : FileReader Id} {path : String} {config : Config}
    (h : (load files path).ending = .ok config) :
    0 < config.engine.defaultPageSize ∧ config.engine.defaultPageSize < UInt32.size := by
  rw [ending_load] at h
  cases htext : files path with
  | error reason =>
    rw [htext] at h
    cases h
  | ok text =>
    rw [htext] at h
    exact defaultPageSize_of_ofText h

/-! ## Calls from options -/

variable {line : CommandLine} {engine : EngineConfig} {call : Call} {page : Option PageRequest}

/-- A page is asked for if its size is positive and has 32 bits. -/
theorem pageRequest_of_eq_ok_iff {size : Int} {request : PageRequest} :
    PageRequest.of size = .ok request ↔
      (0 < size ∧ size < UInt32.size) ∧ request = { size := size.toNat } := by
  unfold PageRequest.of
  split
  · next h => rw [Except.ok.injEq, eq_comm, and_iff_right h]
  · next h => exact ⟨nofun, fun hrequest => absurd hrequest.1 h⟩

/-- A first run asks for nothing but the size that its options name. -/
theorem readPage_start (h : readPage line engine = .ok page) (hstart : line.continuation = none) :
    page = line.pageSize.map (fun size => { size := size.toNat }) ∧
      ∀ size ∈ line.pageSize, 0 < size ∧ size < UInt32.size := by
  unfold readPage at h
  rw [hstart] at h
  cases hsize : line.pageSize with
  | none =>
    rw [hsize] at h
    cases h
    exact ⟨rfl, nofun⟩
  | some size =>
    rw [hsize] at h
    obtain ⟨request, hrequest, ⟨⟩⟩ := bind_eq_ok_iff.mp h
    obtain ⟨hbounds, rfl⟩ := pageRequest_of_eq_ok_iff.mp (mapError_eq_ok_iff.mp hrequest)
    refine ⟨rfl, ?_⟩
    rintro _ ⟨⟩
    exact hbounds

/-- A run behind a page asks for the size of the first run, which is that of the configuration if the
options name none. -/
theorem readPage_continue (h : readPage line engine = .ok page) (hstart : line.continuation = none)
    (hpos : 0 < engine.defaultPageSize) (hlt : engine.defaultPageSize < UInt32.size)
    (token : ContinuationToken) :
    readPage { line with continuation := some token.toBase64 } engine
      = .ok (some { size := (page.map (·.size)).getD engine.defaultPageSize
                    continuation := some token }) := by
  obtain ⟨rfl, hbounds⟩ := readPage_start h hstart
  have hrequest : PageRequest.of (line.pageSize.getD engine.defaultPageSize)
      = .ok { size := ((line.pageSize.map (·.toNat)).getD engine.defaultPageSize) } := by
    rw [pageRequest_of_eq_ok_iff]
    cases hsize : line.pageSize with
    | none => exact ⟨⟨Int.natCast_pos.mpr hpos, Int.ofNat_lt.mpr hlt⟩, rfl⟩
    | some size => exact ⟨hbounds size hsize, rfl⟩
  simp only [readPage, Option.isNone_some, Bool.and_false, hrequest,
    ContinuationToken.ofBase64?_toBase64, Option.map_map]
  rfl

/-- A call has the arguments and the page that the options name. -/
theorem buildCall_eq_ok_iff :
    buildCall line engine = .ok call ↔
      ∃ arguments page, readArguments line.arguments = .ok arguments ∧
        readPage line engine = .ok page ∧ call = { arguments, page } := by
  simp only [buildCall, bind_eq_ok_iff, Except.ok.injEq, eq_comm (a := call), exists_and_left]

/-! ## Pages as they are shown -/

/-- A page as it is shown: its items, and the text that the next run goes on with. -/
structure ShownPage where
  items : List Form
  continuation : Option String

/-- The page in the line of an answer. -/
def ShownPage.ofLine? (line : String) : Option ShownPage := do
  match ← Form.ofText? line with
  | .object members =>
    match ← Form.field? members "data" with
    | some (.object data) =>
      match ← Form.field? data "items", ← Form.field? data "continuation" with
      | some (.array items), some .null => some ⟨items, none⟩
      | some (.array items), some (.string (some text)) => some ⟨items, some text⟩
      | _, _ => none
    | _ => none
  | _ => none

/-- How a page is shown. -/
def ShownPage.ofPage (page : Page Document) : ShownPage where
  items := page.items.map Form.printed
  continuation := page.next.map (·.toBase64)

theorem printedElements_eq_map (elements : List Json) :
    Form.printedElements elements = elements.map Form.printed := by
  induction elements with
  | nil => rfl
  | cons x rest ih => rw [Form.printedElements, ih, List.map_cons]

theorem outcomeJson_found (page : Page Document) :
    outcomeJson (.found page) = .object [
      ("continuation", page.next.elim .null (.string ·.toBase64)), ("items", .array page.items),
      ("page_size", .nat page.size)] :=
  ofMembers_append [("continuation", page.next.elim .null (.string ·.toBase64))]
    [("items", .array page.items), ("page_size", .nat page.size)]
    ["continuation", "items", "page_size"] rfl (by decide)

/-- What a run shows of a page can be read from its line. -/
theorem ofLine?_success (page : Page Document) :
    ShownPage.ofLine? (success (outcomeJson (.found page))).compact = some (.ofPage page) := by
  rw [ShownPage.ofLine?, success_eq, outcomeJson_found, Form.ofText?_compact]
  have hdata (x y : Form) :
      Form.field? [(some "data", x), (some "status", y)] "data" = some (some x) := rfl
  have hitems (x y z : Form) : Form.field?
      [(some "continuation", x), (some "items", y), (some "page_size", z)] "items" = some (some y) := rfl
  have hcontinuation (x y z : Form) : Form.field?
      [(some "continuation", x), (some "items", y), (some "page_size", z)] "continuation"
        = some (some x) := rfl
  simp only [Form.printed, Form.printedMembers, printedElements_eq_map, Option.bind_eq_bind,
    Option.bind_some, hdata, hitems, hcontinuation, ShownPage.ofPage]
  cases page.next with
  | none => rfl
  | some token => rfl

/-! ## Runs -/

variable (files : FileReader Id) (line : CommandLine)

/-- The page that a run shows, if it succeeds and its answer is a page. -/
def shownBy? : Option ShownPage :=
  match (run files line).runOn {} with
  | (.ok (), transcript) =>
    match transcript.answers with
    | [answer] => ShownPage.ofLine? answer
    | _ => none
  | (.error _, _) => none

/-- A query that has a page as its outcome shows it. -/
theorem shownBy?_of_found {page : Page Document} (hkind : line.kind = .query)
    (hfound : (outcomeOf files line).ending = .ok (.found page)) :
    shownBy? files line = some (.ofPage page) := by
  obtain ⟨later, hrun, houtput⟩ := runOn_run files line {}
  have hanswered : answered files line = (.ok (), [success (outcomeJson (.found page))]) := by
    rw [answered, hkind]
    simp only [hfound]
  rw [hanswered, List.append_nil] at houtput
  rw [hanswered] at hrun
  rw [shownBy?, hrun]
  dsimp only
  rw [answers_of_output houtput]
  exact ofLine?_success page

variable {files line} {config : Config} {store : MemoryStore} {m : EntityMetadata} {query : Query}

/-- What a run of a line meets: a configuration, a store with the collection of an entity, and a find
call that is planned to a query. -/
structure Finds (files : FileReader Id) (line : CommandLine) (config : Config) (store : MemoryStore)
    (m : EntityMetadata) (call : Call) (query : Query) : Prop where
  kind : line.kind = .query
  loaded : (load files line.config).ending = .ok config
  seeded : (seededStore files line.config config).ending = .ok store
  entity : config.entity line.entity = .ok m
  built : buildCall line config.engine = .ok call
  planned : (Engine.inMemory m config.engine).planned { store } line.method call = .ok query
  action : query.action = .find

namespace Finds

/-- **A run shows the page of its query at the position of its token.** -/
theorem shown (h : Finds files line config store m call query) (hpos : 0 < query.page.size)
    {position : Nat} (hskip : MemoryStore.skip query.page = .ok position) :
    shownBy? files line
      = some (.ofPage (MemoryStore.pageAt query.page (store.results query) position)) := by
  refine shownBy?_of_found files line h.kind ?_
  rw [ending_outcomeOf, h.loaded, ok_bind, h.entity, ok_bind, h.seeded, ok_bind, h.built, ok_bind,
    Engine.runOn_invoke_find hpos hskip h.planned h.action]
  rfl

/-- The first run starts with the results, on pages of a size that all runs behind it ask for. -/
theorem start (h : Finds files line config store m call query) (hstart : line.continuation = none) :
    0 < query.page.size ∧ MemoryStore.skip query.page = .ok 0 ∧ ∀ token : ContinuationToken,
      readPage { line with continuation := some token.toBase64 } config.engine
        = .ok (some { size := query.page.size, continuation := some token }) := by
  obtain ⟨hsize, htoken, -⟩ := Engine.page_of_planned { store } h.planned
  obtain ⟨arguments, page, -, hfirst, rfl⟩ := buildCall_eq_ok_iff.mp h.built
  obtain ⟨hpage, hbounds⟩ := readPage_start hfirst hstart
  obtain ⟨hdefault, hlt⟩ := defaultPageSize_of_load h.loaded
  have hpageSize : (page.map (·.size)).getD config.engine.defaultPageSize = query.page.size := by
    rw [hsize, Call.pageSize, max_eq_right hdefault]
  have hpos : 0 < query.page.size := by
    rw [← hpageSize, hpage]
    cases hasked : line.pageSize with
    | none => exact hdefault
    | some size => exact Int.lt_toNat.mpr (hbounds size hasked).1
  have htoken' : query.page.continuation = none := by
    rw [htoken, Call.token, hpage]
    cases line.pageSize <;> rfl
  refine ⟨hpos, by rw [MemoryStore.skip, htoken'], fun token => ?_⟩
  rw [readPage_continue hfirst hstart hdefault hlt, hpageSize]

end Finds

end Command

/-! ### Places in two runs -/

namespace Places

open Command

end Places

namespace Command

open Places

end Command

end DerivedQuery
