import PgJobQ.Library.KeysetPages
import PgJobQ.Server.Disclosure

/-!
# Following the cursor

A client that wants a whole listing requests its first page and then, as long
as a page has a `nextCursor`, the same listing below this id.  Every request
finds the server in a state of its own: jobs may have been inserted, changed
and deleted in between, in whatever order they became visible.

The route decides by the length of the page whether there is a cursor, and
reads its text back from the query of the next request.  That makes the
client a reader of keyset pages.
-/

namespace PgJobQ

open UniqueRows

/-- The decimal string of a number is numeric. -/
theorem numericText_repr (number : Nat) : numericText (Nat.repr number) = true := by
  unfold numericText
  rw [Nat.toList_repr, Bool.and_eq_true, List.all_eq_true]
  refine ⟨by simp, fun digit member => ?_⟩
  exact Nat.isDigit_of_mem_toDigits (by decide) (by decide) member

/-- An id as the database prints it. -/
def NumericId.printed (number : Nat) : NumericId := ⟨Nat.repr number, numericText_repr number⟩

@[simp] theorem NumericId.value_printed (number : Nat) : (printed number).value = number :=
  NumericId.value_of_repr rfl

/-- A request to one of the two listings that passes its schema. -/
inductive ListingRequest where
  | jobs (queue : String) (query : ListJobsQuery)
  | dlq (queue : QueryValue) (query : ListDlqQuery)

/-- The server when it reads a page. -/
structure PageMoment where
  config : ServerConfig
  record : ApiKeyRecord
  now : Timestamp
  state : ServerState

def PageMoment.rows (moment : PageMoment) : List JobRow := moment.state.tables.db.job.rows

namespace ListingRequest

def read : ListingRequest -> ReadRequest
  | jobs queue query => .jobs queue (.ok query)
  | dlq queue query => .dlq queue (.ok query)

def limit : ListingRequest -> Nat
  | jobs _ query => query.limit
  | dlq _ query => query.limit

/-- The same listing below a cursor, or from its beginning. -/
def withCursor (cursor : Option NumericId) : ListingRequest -> ListingRequest
  | jobs queue query => jobs queue { query with cursor := cursor }
  | dlq queue query => dlq queue { query with cursor := cursor }

/-- The queue a listing of dead jobs is restricted to. -/
def dlqQueue : QueryValue -> Option String
  | .text value => some value
  | _ => none

/-- The listing the route asks the client for. -/
def listed : ListingRequest -> Database -> Option (List JobRow)
  | jobs queue query => Client.listJobs ⟨query.params (some queue), query.state⟩
  | dlq queue query => Client.listDeadJobs ⟨query.params (dlqQueue queue), query.reason⟩

/-- The job passes the filters of the request. -/
def selects : ListingRequest -> JobRow -> Bool
  | jobs queue query =>
      { query.params (some queue) with beforeId := none }.selects
        (fun job : JobRow => query.state.all (fun state => job.state == state))
        (fun job => some job.enqueuedAt)
  | dlq queue query =>
      { query.params (dlqQueue queue) with beforeId := none }.selects
        (fun job : JobRow => job.state == JobState.dead &&
          query.reason.all (fun reason => job.deadReason == some reason)) JobRow.finishedAt

/-- What the server answers. -/
def answer (request : ListingRequest) (moment : PageMoment) : Response :=
  (PgJobQ.read moment.config moment.record moment.now moment.state request.read).1

end ListingRequest

/-- The queue is a name that the schema accepts, or none is given where none is
needed. -/
def ListingRequest.Named : ListingRequest -> Prop
  | .jobs queue _ => queue ≠ "" ∧ utf16Length queue ≤ 128 ∧ queue.toList.all nameChar = true
  | .dlq .absent _ => True
  | .dlq (.text queue) _ =>
      queue ≠ "" ∧ utf16Length queue ≤ 128 ∧ queue.toList.all nameChar = true
  | .dlq .list _ => False

/-- The queue the scope is checked for. -/
def ListingRequest.queue : ListingRequest -> Option String
  | .jobs queue _ => some queue
  | .dlq queue _ => queue.asString

def ListingRequest.query : ListingRequest -> PageQuery
  | .jobs _ query => query.toPageQuery
  | .dlq _ query => query.toPageQuery

/-- The server can answer the request with a page. -/
structure ListingRequest.Answerable (request : ListingRequest) (moment : PageMoment) : Prop where
  scope : moment.record.authorizes .read request.queue = true
  named : request.Named
  dates : request.query.fromDate.all ValidDate.fits = true ∧
    request.query.toDate.all ValidDate.fits = true
  serializable : forall row, row ∈ moment.rows -> request.selects row = true ->
    (serializeJob row).isSome = true

namespace Response

/-- The items of a page. -/
def items (response : Response) : List JobBody :=
  match response.body with
  | .page items _ => items
  | _ => []

def isPage (response : Response) : Bool :=
  match response.body with
  | .page _ _ => true
  | _ => false

/-- The cursor of the next page, which the schema has to accept. -/
def nextCursor (response : Response) : Option NumericId :=
  match response.body with
  | .page _ (some text) => if numeric : numericText text = true then some ⟨text, numeric⟩ else none
  | _ => none

end Response

/-- What a client is answered that follows the cursors, one request at each
moment. -/
def traverse : ListingRequest -> List PageMoment -> List Response
  | _, [] => []
  | request, moment :: moments =>
      let response := request.answer moment
      response :: match response.nextCursor with
        | none => []
        | some cursor => traverse (request.withCursor (some cursor)) moments

/-- The client has come to a page without a cursor. -/
def Exhausted (responses : List Response) : Prop :=
  Exists fun items : List JobBody => responses.getLast? = some ⟨200, .page items none⟩

/-- What a client may expect of the pages of a listing.  The ids are a column of
type `bigint`. -/
structure TraversalSound (request : ListingRequest) (moments : List PageMoment)
    (responses : List Response) : Prop where
  given : (forall moment, moment ∈ moments -> forall row, row ∈ moment.rows ->
      row.id ≤ bigintMax) ->
    List.Forall₂ (fun response moment => request.Answerable moment ->
      Response.isPage response = true) responses (moments.take responses.length)
  decreasing : Exists fun ids : List Nat =>
    (responses.flatMap Response.items).map JobBody.id = ids.map Nat.repr ∧
      ids.Pairwise (fun first second => second < first)
  matched : List.Forall₂ (fun response moment => forall item, item ∈ Response.items response ->
      Exists fun row : JobRow => row ∈ moment.rows ∧ request.selects row = true ∧
        serializeJob row = some item)
    responses (moments.take responses.length)
  complete : Exhausted responses -> forall id : Nat,
    (forall moment, moment ∈ moments.take responses.length ->
      Exists fun row : JobRow => row ∈ moment.rows ∧ row.id = id ∧ request.selects row = true) ->
        Nat.repr id ∈ (responses.flatMap Response.items).map JobBody.id
  finite : forall first later, moments = first :: later ->
    responses.length ≤ first.state.tables.db.nextId + 2
  ends : (forall response, response ∈ responses -> response.isPage = true) ->
    responses.length < moments.length -> Exhausted responses

/-! ## One request -/

/-- A listing is a keyset page of the rows its filters select. -/
theorem PageParams.listing_eq_page {p : PageParams} {filter : JobRow -> Bool}
    {column : JobRow -> Option Timestamp} {db : Database} {rows : List JobRow}
    (range : 1 ≤ p.limit ∧ p.limit ≤ 200) (listed : p.listing filter column db = some rows) :
    rows = KeysetPages.page JobRow.id ({ p with beforeId := none }.selects filter column) p.limit
      (p.beforeId.map NumericId.value) db.job.rows := by
  have clamped : clampLimit p.limit = p.limit := by
    unfold clampLimit
    omega
  have selects : p.selects filter column = fun job =>
      { p with beforeId := none }.selects filter column job &&
        (p.beforeId.map NumericId.value).all (fun last => decide (job.id < last)) := by
    funext job
    unfold selects covers
    cases p.beforeId with
    | none => simp
    | some cursor => simp
  unfold listing at listed
  split at listed
  · cases listed
    rw [clamped, selects]
    rfl
  · cases listed

theorem PageParams.isSome_listing {p : PageParams} (filter : JobRow -> Bool)
    (column : JobRow -> Option Timestamp) (db : Database) (fits : p.fits = true) :
    (p.listing filter column db).isSome = true := by
  unfold listing
  rw [fits]
  rfl

namespace ListingRequest

variable {request : ListingRequest} {moment : PageMoment}

theorem limit_range (request : ListingRequest) : 1 ≤ request.limit ∧ request.limit ≤ 200 := by
  cases request with
  | jobs queue query => exact query.limitRange
  | dlq queue query => exact query.limitRange

/-- The page of a request below a cursor. -/
theorem listed_eq_page {cursor : Option Nat} {db : Database} {rows : List JobRow}
    (listed : (request.withCursor (cursor.map .printed)).listed db = some rows) :
    rows = KeysetPages.page JobRow.id request.selects request.limit cursor db.job.rows := by
  have read : (cursor.map NumericId.printed).map NumericId.value = cursor := by
    cases cursor with
    | none => rfl
    | some last => exact congrArg some (NumericId.value_printed last)
  cases request with
  | jobs queue query =>
      have isPage := PageParams.listing_eq_page query.limitRange listed
      rw [← read]
      exact isPage
  | dlq queue query =>
      have isPage := PageParams.listing_eq_page query.limitRange listed
      rw [← read]
      exact isPage

/-- The response of a route that has read these rows. -/
def pageResponse (limit : Nat) (rows : List JobRow) (items : List JobBody) : Response :=
  ⟨200, .page items ((KeysetPages.nextCursor JobRow.id limit rows).map Nat.repr)⟩

/-- The cursor of a page is read back as it was printed. -/
theorem nextCursor_pageResponse (limit : Nat) (rows : List JobRow) (items : List JobBody) :
    (pageResponse limit rows items).nextCursor =
      (KeysetPages.nextCursor JobRow.id limit rows).map .printed := by
  unfold Response.nextCursor pageResponse
  cases KeysetPages.nextCursor JobRow.id limit rows with
  | none => rfl
  | some last => exact dif_pos (numericText_repr last)

theorem respondPage_cases (listing : Option (List JobRow)) (limit : Nat) :
    (respondPage listing limit).isPage = false ∨ Exists fun rows : List JobRow =>
      Exists fun items : List JobBody => listing = some rows ∧
        rows.mapM serializeJob = some items ∧
          respondPage listing limit = pageResponse limit rows items := by
  cases listing with
  | none => exact Or.inl rfl
  | some rows =>
      unfold respondPage page
      dsimp only
      cases serialized : rows.mapM serializeJob with
      | none => exact Or.inl rfl
      | some items =>
          refine Or.inr ⟨rows, items, rfl, serialized, ?_⟩
          unfold pageResponse KeysetPages.nextCursor
          by_cases full : rows.length = limit
          · simp [respond, full, Function.comp_def]
          · simp [respond, full]

/-- A refusal is no page. -/
theorem checkRequest_isPage {Parsed : Type} {record : ApiKeyRecord} {scope : Scope}
    {queue : Option String} {validated : Except (List Problem) Parsed} {refusal : Response}
    (refused : checkRequest record scope queue validated = .error refusal) :
    refusal.isPage = false := by
  unfold checkRequest at refused
  split at refused
  · split at refused
    · cases refused
    · cases refused
      rfl
  · cases refused
    rfl

/-- A request is answered with the page it asks for or not with a page. -/
theorem answer_cases (request : ListingRequest) (moment : PageMoment) :
    (request.answer moment).isPage = false ∨ Exists fun rows : List JobRow =>
      Exists fun items : List JobBody => request.listed moment.state.tables.db = some rows ∧
        rows.mapM serializeJob = some items ∧
          request.answer moment = pageResponse request.limit rows items := by
  cases request with
  | jobs queue query =>
      unfold answer ListingRequest.read PgJobQ.read readJobs
      dsimp only
      cases checked : checkRequest moment.record .read (some queue)
          (validateBoth (.ok query) (validateNameField "params.queue" queue)) with
      | error refusal => exact Or.inl (checkRequest_isPage checked)
      | ok parsed =>
          rcases parsed with ⟨parsedQuery, parsedQueue⟩
          have valid := validateBoth_eq_ok_iff.mp (checkRequest_eq_ok_iff.mp checked).2
          cases valid.1
          rw [validateNameField_eq_ok valid.2]
          exact respondPage_cases _ _
  | dlq queue query =>
      unfold answer ListingRequest.read PgJobQ.read readDlq
      dsimp only
      cases checked : checkRequest moment.record .read queue.asString
          (validateBoth (validateQueue queue) (.ok query)) with
      | error refusal => exact Or.inl (checkRequest_isPage checked)
      | ok parsed =>
          rcases parsed with ⟨parsedQueue, parsedQuery⟩
          have valid := validateBoth_eq_ok_iff.mp (checkRequest_eq_ok_iff.mp checked).2
          have named : parsedQueue = dlqQueue queue := by
            cases queue with
            | absent => exact (Except.ok.inj valid.1).symm
            | text value => exact validateQueue_text valid.1
            | list => cases valid.1
          cases valid.2
          rw [named]
          exact respondPage_cases _ _

theorem validateNameField_eq_ok_self {field text : String} (named : text ≠ "" ∧
    utf16Length text ≤ 128 ∧ text.toList.all nameChar = true) :
    validateNameField field text = .ok text := by
  unfold validateNameField nameProblems
  simp [named.1, named.2.1, named.2.2]

/-- Rows that can all be serialized make a page. -/
theorem isPage_respondPage {rows : List JobRow} (limit : Nat)
    (serializable : forall row, row ∈ rows -> (serializeJob row).isSome = true) :
    (respondPage (some rows) limit).isPage = true := by
  have serialized : (rows.mapM serializeJob).isSome = true := by
    induction rows with
    | nil => rfl
    | cons row rows inductionHypothesis =>
        rcases Option.isSome_iff_exists.mp (serializable row List.mem_cons_self) with
          ⟨item, isItem⟩
        rcases Option.isSome_iff_exists.mp (inductionHypothesis (fun other member =>
          serializable other (List.mem_cons_of_mem _ member))) with ⟨items, areItems⟩
        rw [List.mapM_cons, isItem, areItems]
        rfl
  rcases Option.isSome_iff_exists.mp serialized with ⟨items, areItems⟩
  unfold respondPage page
  dsimp only
  rw [areItems]
  rfl

/-- The rows of a listing pass the filters of the request. -/
theorem isPage_listed {cursor : Option Nat} {db : Database} (limit : Nat)
    (accepted : ((request.withCursor (cursor.map .printed)).listed db).isSome = true)
    (serializable : forall row, row ∈ db.job.rows -> request.selects row = true ->
      (serializeJob row).isSome = true) :
    (respondPage ((request.withCursor (cursor.map .printed)).listed db) limit).isPage = true := by
  rcases Option.isSome_iff_exists.mp accepted with ⟨rows, listed⟩
  rw [listed]
  apply isPage_respondPage
  intro row member
  rw [listed_eq_page listed] at member
  have onPage := KeysetPages.mem_page member
  exact serializable row onPage.1 onPage.2.1

theorem Answerable.fits {queue : Option String} {cursor : Option NumericId}
    (answerable : request.Answerable moment) (below : cursor.all NumericId.fitsBigint = true) :
    ({ request.query with cursor := cursor : PageQuery }.params queue).fits = true := by
  unfold PageParams.fits PageQuery.params
  dsimp only
  rw [answerable.dates.1, answerable.dates.2, below]
  rfl

/-- A request the server can answer is answered with a page. -/
theorem isPage_of_answerable {cursor : Option Nat}
    (fits : forall last, cursor = some last -> last ≤ bigintMax)
    (answerable : request.Answerable moment) :
    ((request.withCursor (cursor.map .printed)).answer moment).isPage = true := by
  have below : (cursor.map NumericId.printed).all NumericId.fitsBigint = true := by
    cases cursor with
    | none => rfl
    | some last =>
        rw [Option.map_some, Option.all_some, NumericId.fitsBigint, NumericId.value_printed]
        exact decide_eq_true (fits last rfl)
  cases request with
  | jobs queue query =>
      have accepted : (((ListingRequest.jobs queue query).withCursor
          (cursor.map .printed)).listed moment.state.tables.db).isSome = true :=
        PageParams.isSome_listing _ _ _ (answerable.fits below)
      have shown := isPage_listed query.limit accepted answerable.serializable
      have scope : moment.record.authorizes .read (some queue) = true := answerable.scope
      unfold answer ListingRequest.read PgJobQ.read readJobs
      dsimp only [withCursor]
      rw [checkRequest_eq_ok_iff.mpr ⟨scope, validateBoth_eq_ok_iff.mpr
        ⟨rfl, validateNameField_eq_ok_self answerable.named⟩⟩]
      exact shown
  | dlq queue query =>
      have accepted : (((ListingRequest.dlq queue query).withCursor
          (cursor.map .printed)).listed moment.state.tables.db).isSome = true :=
        PageParams.isSome_listing _ _ _ (answerable.fits below)
      have shown := isPage_listed query.limit accepted answerable.serializable
      have scope : moment.record.authorizes .read queue.asString = true := answerable.scope
      have valid : validateQueue queue = .ok (dlqQueue queue) := by
        cases queue with
        | absent => rfl
        | text value =>
            have named := @validateNameField_eq_ok_self "query.queue" value answerable.named
            exact congrArg (Except.map some) named
        | list => exact absurd answerable.named id
      unfold answer ListingRequest.read PgJobQ.read readDlq
      dsimp only [withCursor]
      rw [checkRequest_eq_ok_iff.mpr ⟨scope, validateBoth_eq_ok_iff.mpr ⟨valid, rfl⟩⟩]
      exact shown

/-- The rows of the page a request below a cursor is answered with. -/
def ask (request : ListingRequest) (cursor : Option Nat) (moment : PageMoment) :
    Option (List JobRow) :=
  if ((request.withCursor (cursor.map .printed)).answer moment).isPage then
    (request.withCursor (cursor.map .printed)).listed moment.state.tables.db
  else none

theorem pages_ask (request : ListingRequest) :
    KeysetPages.Pages JobRow.id request.selects request.limit PageMoment.rows request.ask := by
  intro cursor moment rows given
  unfold ask at given
  split at given
  · exact listed_eq_page given
  · cases given

theorem unique_rows (moment : PageMoment) :
    UniqueOn (fun row : JobRow => some row.id) moment.rows :=
  moment.state.tables.db.job.constraints.primaryKey

@[simp] theorem withCursor_withCursor (request : ListingRequest)
    (first second : Option NumericId) :
    (request.withCursor first).withCursor second = request.withCursor second := by
  cases request <;> rfl

@[simp] theorem limit_withCursor (request : ListingRequest) (cursor : Option NumericId) :
    (request.withCursor cursor).limit = request.limit := by
  cases request <;> rfl

theorem traverse_moment (request : ListingRequest) (moment : PageMoment)
    (moments : List PageMoment) :
    traverse request (moment :: moments) =
      request.answer moment :: match (request.answer moment).nextCursor with
        | none => []
        | some cursor => traverse (request.withCursor (some cursor)) moments :=
  rfl

theorem nextCursor_of_not_page {response : Response} (refused : response.isPage = false) :
    response.nextCursor = none := by
  unfold Response.isPage at refused
  unfold Response.nextCursor
  split
  · rename_i isPage
    rw [isPage] at refused
    cases refused
  · rfl

/-- What the client is answered at a moment, and where it goes from there. -/
theorem traverse_cons (request : ListingRequest) (cursor : Option Nat) (moment : PageMoment)
    (moments : List PageMoment) :
    (request.ask cursor moment = none ∧ Exists fun response : Response =>
        response.isPage = false ∧
          traverse (request.withCursor (cursor.map .printed)) (moment :: moments) = [response]) ∨
      Exists fun rows : List JobRow => Exists fun items : List JobBody =>
        request.ask cursor moment = some rows ∧ rows.mapM serializeJob = some items ∧
          traverse (request.withCursor (cursor.map .printed)) (moment :: moments) =
            pageResponse request.limit rows items ::
              match KeysetPages.nextCursor JobRow.id request.limit rows with
              | none => []
              | some last => traverse (request.withCursor (some (.printed last))) moments := by
  rcases answer_cases (request.withCursor (cursor.map .printed)) moment with
    refused | ⟨rows, items, listed, serialized, answered⟩
  · refine Or.inl ⟨?_, _, refused, ?_⟩
    · unfold ask
      rw [refused]
      rfl
    · rw [traverse_moment, nextCursor_of_not_page refused]
  · rw [limit_withCursor] at answered
    refine Or.inr ⟨rows, items, ?_, serialized, ?_⟩
    · unfold ask
      rw [answered]
      exact listed
    · rw [traverse_moment, answered, nextCursor_pageResponse]
      cases KeysetPages.nextCursor JobRow.id request.limit rows with
      | none => rfl
      | some last =>
          dsimp only [Option.map_some]
          rw [withCursor_withCursor]

theorem items_of_not_page {response : Response} (refused : response.isPage = false) :
    response.items = [] := by
  unfold Response.isPage at refused
  unfold Response.items
  split
  · rename_i isPage
    rw [isPage] at refused
    cases refused
  · rfl

/-- An item of a page is a row of it, serialized. -/
theorem exists_row_of_item {rows : List JobRow} {items : List JobBody}
    (serialized : rows.mapM serializeJob = some items) {item : JobBody} (listed : item ∈ items) :
    Exists fun row : JobRow => row ∈ rows ∧ serializeJob row = some item := by
  induction rows generalizing items with
  | nil =>
      cases serialized
      cases listed
  | cons row rows inductionHypothesis =>
      rw [List.mapM_cons] at serialized
      rcases Option.bind_eq_some_iff.mp serialized with ⟨first, isFirst, rest⟩
      rcases Option.bind_eq_some_iff.mp rest with ⟨others, areOthers, same⟩
      cases same
      rcases List.mem_cons.mp listed with rfl | later
      · exact ⟨row, List.mem_cons_self, isFirst⟩
      · rcases inductionHypothesis areOthers later with ⟨other, member, isItem⟩
        exact ⟨other, List.mem_cons_of_mem _ member, isItem⟩

theorem id_of_serializeJob {row : JobRow} {item : JobBody}
    (serialized : serializeJob row = some item) : item.id = Nat.repr row.id := by
  unfold serializeJob at serialized
  simp only [Option.bind_eq_bind, Option.bind_eq_some_iff, Option.pure_def, Option.some.injEq] at serialized
  rcases serialized with ⟨_, _, _, _, _, _, _, _, _, _, _, _, rfl⟩
  rfl

theorem ids_of_mapM {rows : List JobRow} {items : List JobBody}
    (serialized : rows.mapM serializeJob = some items) :
    items.map JobBody.id = (rows.map JobRow.id).map Nat.repr := by
  induction rows generalizing items with
  | nil =>
      cases serialized
      rfl
  | cons row rows inductionHypothesis =>
      rw [List.mapM_cons] at serialized
      rcases Option.bind_eq_some_iff.mp serialized with ⟨first, isFirst, rest⟩
      rcases Option.bind_eq_some_iff.mp rest with ⟨others, areOthers, same⟩
      cases same
      rw [List.map_cons, List.map_cons, List.map_cons, inductionHypothesis areOthers,
        id_of_serializeJob isFirst]

/-! ## All requests -/

section

variable (request : ListingRequest)

/-- The items of the responses are the serialized rows of the pages. -/
theorem items_traverse (cursor : Option Nat) (moments : List PageMoment) :
    ((traverse (request.withCursor (cursor.map .printed)) moments).flatMap
        Response.items).map JobBody.id =
      ((KeysetPages.follow JobRow.id request.limit request.ask cursor moments).flatten.map
        JobRow.id).map Nat.repr := by
  induction moments generalizing cursor with
  | nil => rfl
  | cons moment moments inductionHypothesis =>
      rcases traverse_cons request cursor moment moments with
        ⟨unanswered, response, refused, ends⟩ | ⟨rows, items, given, serialized, goesOn⟩
      · rw [ends]
        simp [KeysetPages.follow, unanswered, items_of_not_page refused]
      · rw [goesOn, KeysetPages.follow_cons moments given, List.flatMap_cons, List.map_append,
          List.flatten_cons, List.map_append, List.map_append]
        congr 1
        · exact ids_of_mapM serialized
        · cases KeysetPages.nextCursor JobRow.id request.limit rows with
          | none => rfl
          | some last => exact inductionHypothesis (some last)

/-- There is a response for every page, and possibly a refusal at the end. -/
theorem length_traverse_le (cursor : Option Nat) (moments : List PageMoment) :
    (traverse (request.withCursor (cursor.map .printed)) moments).length ≤
      (KeysetPages.follow JobRow.id request.limit request.ask cursor moments).length + 1 := by
  induction moments generalizing cursor with
  | nil => exact Nat.zero_le _
  | cons moment moments inductionHypothesis =>
      rcases traverse_cons request cursor moment moments with
        ⟨unanswered, response, refused, ends⟩ | ⟨rows, items, given, serialized, goesOn⟩
      · rw [ends]
        simp
      · rw [goesOn, KeysetPages.follow_cons moments given]
        cases KeysetPages.nextCursor JobRow.id request.limit rows with
        | none => simp
        | some last => exact Nat.succ_le_succ (inductionHypothesis (some last))

/-- Every response shows rows of its moment that match. -/
theorem matched_traverse (cursor : Option Nat) (moments : List PageMoment) :
    List.Forall₂ (fun response moment => forall item, item ∈ Response.items response ->
        Exists fun row : JobRow => row ∈ moment.rows ∧ request.selects row = true ∧
          serializeJob row = some item)
      (traverse (request.withCursor (cursor.map .printed)) moments)
      (moments.take (traverse (request.withCursor (cursor.map .printed)) moments).length) := by
  induction moments generalizing cursor with
  | nil => exact List.Forall₂.nil
  | cons moment moments inductionHypothesis =>
      rcases traverse_cons request cursor moment moments with
        ⟨unanswered, response, refused, ends⟩ | ⟨rows, items, given, serialized, goesOn⟩
      · rw [ends]
        refine List.Forall₂.cons ?_ (by simp)
        intro item listed
        rw [items_of_not_page refused] at listed
        cases listed
      · have matched : forall item, item ∈ items -> Exists fun row : JobRow =>
            row ∈ moment.rows ∧ request.selects row = true ∧ serializeJob row = some item := by
          intro item listed
          rcases exists_row_of_item serialized listed with ⟨row, member, isItem⟩
          rw [pages_ask request cursor moment rows given] at member
          have onPage := KeysetPages.mem_page member
          exact ⟨row, onPage.1, onPage.2.1, isItem⟩
        rw [goesOn]
        cases KeysetPages.nextCursor JobRow.id request.limit rows with
        | none => exact List.Forall₂.cons matched (by simp)
        | some last => exact List.Forall₂.cons matched (inductionHypothesis (some last))

/-- Every request that can be answered is answered with a page. -/
theorem given_traverse (cursor : Option Nat) (moments : List PageMoment)
    (fits : forall last, cursor = some last -> last ≤ bigintMax)
    (range : forall moment, moment ∈ moments -> forall row, row ∈ moment.rows ->
      row.id ≤ bigintMax) :
    List.Forall₂ (fun response moment => request.Answerable moment ->
        Response.isPage response = true)
      (traverse (request.withCursor (cursor.map .printed)) moments)
      (moments.take (traverse (request.withCursor (cursor.map .printed)) moments).length) := by
  induction moments generalizing cursor with
  | nil => exact List.Forall₂.nil
  | cons moment moments inductionHypothesis =>
      rcases traverse_cons request cursor moment moments with
        ⟨unanswered, response, refused, ends⟩ | ⟨rows, items, given, serialized, goesOn⟩
      · have answered := traverse_moment (request.withCursor (cursor.map .printed)) moment moments
        rw [ends] at answered ⊢
        rw [(List.cons.inj answered).1]
        exact List.Forall₂.cons (isPage_of_answerable fits) (by simp)
      · rw [goesOn]
        cases continues : KeysetPages.nextCursor JobRow.id request.limit rows with
        | none => exact List.Forall₂.cons (fun _ => rfl) (by simp)
        | some last =>
            have onPage : Exists fun row : JobRow => row ∈ moment.rows ∧ row.id = last := by
              rcases KeysetPages.mem_of_nextCursor continues with ⟨_, row, isLast, same⟩
              have member := List.mem_of_getLast? isLast
              rw [pages_ask request cursor moment rows given] at member
              exact ⟨row, (KeysetPages.mem_page member).1, same⟩
            rcases onPage with ⟨row, member, rfl⟩
            exact List.Forall₂.cons (fun _ => rfl) (inductionHypothesis (some row.id)
              (fun _ same => Option.some.inj same ▸ range moment List.mem_cons_self row member)
              (fun later listed => range later (List.mem_cons_of_mem _ listed)))

/-- A page with a cursor is not the last one. -/
theorem exhausted_cons_iff {limit : Nat} {rows : List JobRow} {items : List JobBody} {last : Nat}
    (continues : KeysetPages.nextCursor JobRow.id limit rows = some last)
    (responses : List Response) :
    Exhausted (pageResponse limit rows items :: responses) <-> Exhausted responses := by
  unfold Exhausted
  cases responses with
  | nil => simp [pageResponse, continues]
  | cons response responses => rw [List.getLast?_cons_cons]

/-- The client comes to a page without a cursor exactly when the reader of the
pages does. -/
theorem exhausted_traverse_iff (cursor : Option Nat) (moments : List PageMoment) :
    Exhausted (traverse (request.withCursor (cursor.map .printed)) moments) <->
      KeysetPages.Finished JobRow.id request.limit request.ask cursor moments := by
  induction moments generalizing cursor with
  | nil =>
      constructor
      · rintro ⟨items, none⟩
        cases none
      · exact False.elim
  | cons moment moments inductionHypothesis =>
      rcases traverse_cons request cursor moment moments with
        ⟨unanswered, response, refused, ends⟩ | ⟨rows, items, given, serialized, goesOn⟩
      · rw [ends]
        simp only [KeysetPages.Finished, unanswered, iff_false]
        rintro ⟨items, isLast⟩
        cases isLast
        cases refused
      · rw [goesOn]
        simp only [KeysetPages.Finished, given]
        cases continues : KeysetPages.nextCursor JobRow.id request.limit rows with
        | none =>
            refine iff_of_true ⟨items, ?_⟩ trivial
            rw [pageResponse, continues]
            rfl
        | some last =>
            exact (exhausted_cons_iff continues _).trans (inductionHypothesis (some last))

/-- A client that comes to a page without a cursor has only been given pages. -/
theorem length_traverse_of_finished {cursor : Option Nat} {moments : List PageMoment}
    (finished : KeysetPages.Finished JobRow.id request.limit request.ask cursor moments) :
    (traverse (request.withCursor (cursor.map .printed)) moments).length =
      (KeysetPages.follow JobRow.id request.limit request.ask cursor moments).length := by
  induction moments generalizing cursor with
  | nil => exact absurd finished id
  | cons moment moments inductionHypothesis =>
      rcases traverse_cons request cursor moment moments with
        ⟨unanswered, response, refused, ends⟩ | ⟨rows, items, given, serialized, goesOn⟩
      · simp only [KeysetPages.Finished, unanswered] at finished
      · simp only [KeysetPages.Finished, given] at finished
        rw [goesOn, KeysetPages.follow_cons moments given]
        cases continues : KeysetPages.nextCursor JobRow.id request.limit rows with
        | none => rfl
        | some last =>
            rw [continues] at finished
            exact congrArg Nat.succ (inductionHypothesis finished)

/-- A client that is given nothing but pages, and requests enough of them,
comes to one without a cursor. -/
theorem exhausted_of_pages {cursor : Option Nat} {moments : List PageMoment}
    (pages : forall response, response ∈ traverse (request.withCursor (cursor.map .printed)) moments ->
      response.isPage = true)
    (enough : (traverse (request.withCursor (cursor.map .printed)) moments).length <
      moments.length) :
    Exhausted (traverse (request.withCursor (cursor.map .printed)) moments) := by
  induction moments generalizing cursor with
  | nil => exact absurd enough (Nat.not_lt_zero _)
  | cons moment moments inductionHypothesis =>
      rcases traverse_cons request cursor moment moments with
        ⟨unanswered, response, refused, ends⟩ | ⟨rows, items, given, serialized, goesOn⟩
      · rw [ends] at pages
        exact absurd (pages response List.mem_cons_self) (Bool.eq_false_iff.mp refused)
      · rw [goesOn] at pages enough ⊢
        cases continues : KeysetPages.nextCursor JobRow.id request.limit rows with
        | none =>
            refine ⟨items, ?_⟩
            rw [pageResponse, continues]
            rfl
        | some last =>
            rw [continues] at pages enough
            exact (exhausted_cons_iff continues _).mpr (@inductionHypothesis (some last)
              (fun response later => pages response (List.mem_cons_of_mem _ later))
              (Nat.lt_of_succ_lt_succ enough))

end

/-- Following the cursors from the first page, through any sequence of states
of the server: the ids decrease strictly, every item is a row that matched when
its page was read, a row that matched at every request is shown once the client
comes to a page without a cursor, and it comes to one, unless it is refused a
page, after a number of requests that the first table bounds. -/
theorem traversal_sound (request : ListingRequest) (moments : List PageMoment) :
    TraversalSound request moments (traverse (request.withCursor none) moments) where
  given := given_traverse request none moments (fun _ impossible => by cases impossible)
  decreasing := ⟨_, items_traverse request none moments,
    (KeysetPages.follow_decreasing (pages_ask request) unique_rows none moments).1⟩
  matched := matched_traverse request none moments
  complete := by
    intro exhausted id stays
    have finished := (exhausted_traverse_iff request none moments).mp exhausted
    have same := length_traverse_of_finished request finished
    have shown := @KeysetPages.follow_complete _ _ JobRow.id request.selects _ _ _
      request.limit_range.1 (pages_ask request) unique_rows _ _ finished id
      (fun _ impossible => by cases impossible) ?_
    · have items := items_traverse request none moments
      rw [Option.map_none] at items
      rw [items]
      exact List.mem_map_of_mem shown
    · intro moment member
      rw [← same] at member
      rcases stays moment member with ⟨row, present, isRow, selected⟩
      exact ⟨row, present, selected, isRow⟩
  finite := by
    rintro first later rfl
    have few := length_traverse_le request none (first :: later)
    have bounded := @KeysetPages.length_follow_le_of_bound _ _ JobRow.id request.selects
      request.limit PageMoment.rows _ (pages_ask request) first.state.tables.db.nextId first
      first.state.tables.db.identity later
    exact Nat.le_trans few (Nat.succ_le_succ bounded)
  ends := @exhausted_of_pages request none moments

end ListingRequest

end PgJobQ
