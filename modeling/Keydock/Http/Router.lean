import Keydock.Foundation.Joining
import Keydock.Http.Server

/-!
# The router

The routes of the server as the source lists them: a pattern of the path and
the handler of each method.  A parameter of a pattern stands for one segment,
which may be empty unless the pattern ends there.  Patterns do not overlap, so
a path has at most one row of the table, and the row decides between a handler
and a refused method.

A handler below a bucket authenticates the bucket that it finds in the path for
itself, the first segment below the prefix that is not empty.  Where the router
has matched a bucket, it is that one.  Where the router has matched an empty
segment, it is the one that follows: the key of a key route, the word `tokens`,
or none at all, and then the request is refused.  The handlers of the keys use
the bucket that was authenticated, so a request for the key `B` of no bucket
is one for the key `B` of the bucket `B`.
-/

namespace Keydock

inductive Method
  | get
  | head
  | post
  | put
  | patch
  | delete
  | options
  | extension (token : String)
  deriving DecidableEq

/-- The handlers the router knows. -/
inductive HandlerName
  | createBucket
  | createToken
  | getKey
  | headKey
  | putKey
  | deleteKey
  | patchKey
  | listBucket
  | deleteBucket
  | getBucketPolicy
  | headBucket
  | executeTxn
  | updatePolicy
  | healthCheck
  | readinessCheck
  | metrics
  | swaggerUiRedirect
  | swaggerUi
  | openapi
  deriving DecidableEq

namespace HandlerName

/-- The handler takes the bucket from the path and authenticates it. -/
def ofBucket : HandlerName -> Bool
  | .createBucket | .healthCheck | .readinessCheck | .metrics | .swaggerUiRedirect | .swaggerUi | .openapi => false
  | .createToken | .getKey | .headKey | .putKey | .deleteKey | .patchKey | .listBucket | .deleteBucket
  | .getBucketPolicy | .headBucket | .executeTxn | .updatePolicy => true

end HandlerName

/-! ## Patterns -/

/-- A segment of a pattern. -/
inductive Piece
  | literal (text : List Char)
  | param
  | rest
  deriving DecidableEq

namespace Piece

def ofText (text : List Char) : Piece :=
  if ['\x7b', '*'].isPrefixOf text then .rest
  else if ['\x7b'].isPrefixOf text then .param
  else .literal text

end Piece

/-- The pieces of a pattern as it is written. -/
def piecesOf (path : String) : List Piece := (Text.split '/' path.toList).map Piece.ofText

/-- The parameters of a path, segment by segment, when the pattern matches.
Only a parameter at the end has to stand for something. -/
def captures : List Piece -> List (List Char) -> Option (List (List Char))
  | [], [] => some []
  | .literal text :: pieces, segment :: rest => if segment = text then captures pieces rest else none
  | .param :: pieces, segment :: rest =>
      if segment = [] ∧ pieces = [] then none else (captures pieces rest).map (segment :: ·)
  | [.rest], segments => if Text.join '/' segments = [] then none else some [Text.join '/' segments]
  | _, _ => none

/-! ## The table -/

def apiPrefix : String := "/api/v1"

/-- The path of a route of a nested router. -/
def nested (start path : String) : String := if path = "/" then start else start ++ path

/-- Handlers of the methods of one path. -/
abbrev MethodTable := List (Method × HandlerName)

/-- What the documentation page merges into the router. -/
def swaggerRoutes : List (String × MethodTable) :=
  [("/api-docs/openapi.json", [(.get, .openapi)]),
    ("/swagger-ui", [(.get, .swaggerUiRedirect)]),
    ("/swagger-ui/", [(.get, .swaggerUi)]),
    ("/swagger-ui/\x7b*rest\x7d", [(.get, .swaggerUi)])]

def opsRoutes (exposeMetrics : Bool) : List (String × MethodTable) :=
  swaggerRoutes ++ [("/health", [(.get, .healthCheck)]), ("/ready", [(.get, .readinessCheck)])] ++
    if exposeMetrics then [("/metrics", [(.get, .metrics)])] else []

def keyMethods : MethodTable :=
  [(.get, .getKey), (.head, .headKey), (.post, .putKey), (.put, .putKey), (.delete, .deleteKey), (.patch, .patchKey)]

def slashMethods : MethodTable := [(.get, .listBucket), (.delete, .deleteBucket)]

def bucketMethods : MethodTable :=
  [(.get, .getBucketPolicy), (.head, .headBucket), (.post, .executeTxn), (.patch, .updatePolicy),
    (.delete, .deleteBucket)]

def apiRoutes : List (String × MethodTable) :=
  [("/", [(.post, .createBucket)]),
    ("/\x7bbucket\x7d/tokens/", [(.post, .createToken)]),
    ("/\x7bbucket\x7d/\x7bkey\x7d", keyMethods),
    ("/\x7bbucket\x7d/", slashMethods),
    ("/\x7bbucket\x7d", bucketMethods)]

def apiAliasRoutes : List (String × MethodTable) := [(apiPrefix ++ "/", [(.post, .createBucket)])]

def routes (exposeMetrics : Bool) : List (String × MethodTable) :=
  opsRoutes exposeMetrics ++ apiAliasRoutes ++ apiRoutes.map (fun row => (nested apiPrefix row.1, row.2))

/-! ## Dispatch -/

/-- What the router does with a request. -/
inductive Dispatch
  | preflight
  | notFound
  | methodNotAllowed
  | handler (name : HandlerName) (params : List (List Char))
  deriving DecidableEq

/-- The handler of a method.  A path that answers `GET` answers `HEAD`. -/
def MethodTable.handlerOf (table : MethodTable) (method : Method) : Option HandlerName :=
  match table.lookup method with
  | some name => some name
  | none => if method = .head then table.lookup .get else none

/-- The row of a path, with its parameters. -/
def findRow (table : List (String × MethodTable)) (segments : List (List Char)) :
    Option (List (List Char) × MethodTable) :=
  table.findSome? (fun row => (captures (piecesOf row.1) segments).map (fun params => (params, row.2)))

def dispatchSegments (exposeMetrics : Bool) (method : Method) (segments : List (List Char)) : Dispatch :=
  if method = .options then .preflight
  else
    match findRow (routes exposeMetrics) segments with
    | none => .notFound
    | some (params, table) =>
        match table.handlerOf method with
        | none => .methodNotAllowed
        | some name => .handler name params

def dispatch (exposeMetrics : Bool) (method : Method) (path : String) : Dispatch :=
  dispatchSegments exposeMetrics method (Text.split '/' path.toList)

/-! ## The shapes of paths -/

/-- A path below the prefix, segment by segment. -/
def apiSegments (rest : List (List Char)) : List (List Char) := [] :: "api".toList :: "v1".toList :: rest

def opsPieces : List (List Piece × MethodTable) :=
  [([.literal [], .literal "api-docs".toList, .literal "openapi.json".toList], [(.get, .openapi)]),
    ([.literal [], .literal "swagger-ui".toList], [(.get, .swaggerUiRedirect)]),
    ([.literal [], .literal "swagger-ui".toList, .literal []], [(.get, .swaggerUi)]),
    ([.literal [], .literal "swagger-ui".toList, .rest], [(.get, .swaggerUi)]),
    ([.literal [], .literal "health".toList], [(.get, .healthCheck)]),
    ([.literal [], .literal "ready".toList], [(.get, .readinessCheck)])]

def apiPieces : List (List Piece × MethodTable) :=
  [([.literal [], .literal "api".toList, .literal "v1".toList, .literal []], [(.post, .createBucket)]),
    ([.literal [], .literal "api".toList, .literal "v1".toList], [(.post, .createBucket)]),
    ([.literal [], .literal "api".toList, .literal "v1".toList, .param, .literal "tokens".toList, .literal []],
      [(.post, .createToken)]),
    ([.literal [], .literal "api".toList, .literal "v1".toList, .param, .param], keyMethods),
    ([.literal [], .literal "api".toList, .literal "v1".toList, .param, .literal []], slashMethods),
    ([.literal [], .literal "api".toList, .literal "v1".toList, .param], bucketMethods)]

/-- The table with its patterns taken apart. -/
theorem pieces_routes (exposeMetrics : Bool) :
    (routes exposeMetrics).map (fun row => (piecesOf row.1, row.2)) =
      opsPieces ++ (if exposeMetrics then [([.literal [], .literal "metrics".toList], [(.get, .metrics)])] else []) ++
        apiPieces := by
  cases exposeMetrics <;> decide

theorem findRow_routes (exposeMetrics : Bool) (segments : List (List Char)) :
    findRow (routes exposeMetrics) segments =
      ((routes exposeMetrics).map (fun row => (piecesOf row.1, row.2))).findSome?
        (fun row => (captures row.1 segments).map (fun params => (params, row.2))) := by
  rw [List.findSome?_map]
  rfl

/-- What a match says about the path. -/
inductive Matched : List (List Char) -> List (List Char) -> MethodTable -> Prop
  | ops {segments params : List (List Char)} {table : MethodTable}
      (other : forall entry, entry ∈ table -> entry.2.ofBucket = false) : Matched segments params table
  | tokens {bucket : List Char} :
      Matched (apiSegments [bucket, "tokens".toList, []]) [bucket] [(.post, .createToken)]
  | key {bucket key : List Char} (nonemptyKey : key ≠ []) :
      Matched (apiSegments [bucket, key]) [bucket, key] keyMethods
  | slash {bucket : List Char} : Matched (apiSegments [bucket, []]) [bucket] slashMethods
  | bucket {bucket : List Char} (nonempty : bucket ≠ []) : Matched (apiSegments [bucket]) [bucket] bucketMethods

theorem captures_literal {text : List Char} {pieces : List Piece} {segments params : List (List Char)}
    (found : captures (.literal text :: pieces) segments = some params) :
    Exists fun rest => segments = text :: rest ∧ captures pieces rest = some params := by
  cases segments with
  | nil => cases found
  | cons segment rest =>
      simp only [captures] at found
      split at found
      next same => exact ⟨rest, by rw [same], found⟩
      next => cases found

theorem captures_param {pieces : List Piece} {segments params : List (List Char)}
    (found : captures (.param :: pieces) segments = some params) :
    Exists fun segment => Exists fun rest => Exists fun later => segments = segment :: rest ∧
      (pieces = [] -> segment ≠ []) ∧ params = segment :: later ∧ captures pieces rest = some later := by
  cases segments with
  | nil => cases found
  | cons segment rest =>
      simp only [captures] at found
      split at found
      next => cases found
      next nonempty =>
        rcases Option.map_eq_some_iff.mp found with ⟨later, inner, rfl⟩
        exact ⟨segment, rest, later, rfl, fun last empty => nonempty ⟨empty, last⟩, rfl, inner⟩

theorem captures_nil {segments params : List (List Char)} (found : captures [] segments = some params) :
    segments = [] ∧ params = [] := by
  cases segments with
  | nil =>
      cases found
      exact ⟨rfl, rfl⟩
  | cons segment rest => cases found

/-- A path below the prefix matches what the pattern says below it. -/
theorem captures_api {pieces : List Piece} {segments params : List (List Char)}
    (found : captures (.literal [] :: .literal "api".toList :: .literal "v1".toList :: pieces) segments = some params) :
    Exists fun rest => segments = apiSegments rest ∧ captures pieces rest = some params := by
  rcases captures_literal found with ⟨_, rfl, afterRoot⟩
  rcases captures_literal afterRoot with ⟨_, rfl, afterApi⟩
  rcases captures_literal afterApi with ⟨rest, rfl, below⟩
  exact ⟨rest, rfl, below⟩

theorem matched_of_row {exposeMetrics : Bool} {segments params : List (List Char)} {table : MethodTable}
    (found : findRow (routes exposeMetrics) segments = some (params, table)) : Matched segments params table := by
  rw [findRow_routes] at found
  rcases List.exists_of_findSome?_eq_some found with ⟨row, member, matched⟩
  rcases Option.map_eq_some_iff.mp matched with ⟨taken, captured, same⟩
  cases same
  rw [pieces_routes] at member
  simp only [opsPieces, apiPieces, List.mem_append, List.mem_cons, List.not_mem_nil, or_false,
    List.mem_ite_nil_right] at member
  rcases member with ((rfl | rfl | rfl | rfl | rfl | rfl) | ⟨_, rfl⟩) | rfl | rfl | rfl | rfl | rfl | rfl
  · exact .ops (by decide)
  · exact .ops (by decide)
  · exact .ops (by decide)
  · exact .ops (by decide)
  · exact .ops (by decide)
  · exact .ops (by decide)
  · exact .ops (by decide)
  · exact .ops (by decide)
  · exact .ops (by decide)
  · rcases captures_api captured with ⟨_, rfl, below⟩
    rcases captures_param below with ⟨bucket, _, _, rfl, _, rfl, afterBucket⟩
    rcases captures_literal afterBucket with ⟨_, rfl, afterTokens⟩
    rcases captures_literal afterTokens with ⟨_, rfl, ends⟩
    rcases captures_nil ends with ⟨rfl, rfl⟩
    exact .tokens
  · rcases captures_api captured with ⟨_, rfl, below⟩
    rcases captures_param below with ⟨bucket, _, _, rfl, _, rfl, afterBucket⟩
    rcases captures_param afterBucket with ⟨key, _, _, rfl, nonemptyKey, rfl, ends⟩
    rcases captures_nil ends with ⟨rfl, rfl⟩
    exact .key (nonemptyKey rfl)
  · rcases captures_api captured with ⟨_, rfl, below⟩
    rcases captures_param below with ⟨bucket, _, _, rfl, _, rfl, afterBucket⟩
    rcases captures_literal afterBucket with ⟨_, rfl, ends⟩
    rcases captures_nil ends with ⟨rfl, rfl⟩
    exact .slash
  · rcases captures_api captured with ⟨_, rfl, below⟩
    rcases captures_param below with ⟨bucket, _, _, rfl, nonempty, rfl, ends⟩
    rcases captures_nil ends with ⟨rfl, rfl⟩
    exact .bucket (nonempty rfl)

/-- Every path of one of the shapes has its row. -/
theorem findRow_of_segments (exposeMetrics : Bool) (bucket key : List Char) (nonemptyKey : key ≠ []) :
    findRow (routes exposeMetrics) (apiSegments [bucket, "tokens".toList, []]) = some ([bucket], [(.post, .createToken)]) ∧
    findRow (routes exposeMetrics) (apiSegments [bucket, key]) = some ([bucket, key], keyMethods) ∧
    findRow (routes exposeMetrics) (apiSegments [bucket, []]) = some ([bucket], slashMethods) ∧
    (bucket ≠ [] -> findRow (routes exposeMetrics) (apiSegments [bucket]) = some ([bucket], bucketMethods)) := by
  simp only [findRow_routes, pieces_routes, opsPieces, apiPieces]
  cases exposeMetrics <;> simp +contextual [apiSegments, captures, nonemptyKey]

/-! ## Requests and their paths -/

namespace Route

def name : Route -> HandlerName
  | .getKey _ => .getKey
  | .headKey _ => .headKey
  | .putKey _ _ _ _ => .putKey
  | .deleteKey _ => .deleteKey
  | .patchKey _ _ _ => .patchKey
  | .executeTxn _ => .executeTxn
  | .listBucket _ _ => .listBucket
  | .createToken _ => .createToken
  | .updatePolicy _ => .updatePolicy
  | .deleteBucket _ => .deleteBucket
  | .getBucketPolicy => .getBucketPolicy
  | .headBucket => .headBucket

/-- The methods that lead to the handler.  A listing answers `HEAD` as well. -/
def methods : Route -> List Method
  | .getKey _ | .getBucketPolicy => [.get]
  | .headKey _ | .headBucket => [.head]
  | .putKey _ _ _ _ => [.post, .put]
  | .deleteKey _ | .deleteBucket _ => [.delete]
  | .patchKey _ _ _ | .updatePolicy _ => [.patch]
  | .executeTxn _ | .createToken _ => [.post]
  | .listBucket _ _ => [.get, .head]

/-- The parameters of the path, as they stand in it. -/
def params (bucket : String) : Route -> List (List Char)
  | .getKey key | .headKey key | .putKey key _ _ _ | .deleteKey key | .patchKey key _ _ =>
      [bucket.toList, key.text.toList]
  | .executeTxn _ | .listBucket _ _ | .createToken _ | .updatePolicy _ | .deleteBucket _ | .getBucketPolicy
  | .headBucket => [bucket.toList]

end Route

/-- The path of a request to a route, prefix included. -/
def Route.path (bucket : String) (route : Route) : String := apiPrefix ++ ("/" ++ bucket ++ route.rest)

/-- The segments of the path below the prefix. -/
def Route.segments (bucket : String) : Route -> List (List Char)
  | .getKey key | .headKey key | .putKey key _ _ _ | .deleteKey key | .patchKey key _ _ =>
      [bucket.toList, key.text.toList]
  | .listBucket _ _ => [bucket.toList, []]
  | .createToken _ => [bucket.toList, "tokens".toList, []]
  | .deleteBucket slash => if slash then [bucket.toList, []] else [bucket.toList]
  | .executeTxn _ | .updatePolicy _ | .getBucketPolicy | .headBucket => [bucket.toList]

/-- A segment may be matched for the bucket: it is whole, and something when
the path ends there. -/
structure Route.Takes (route : Route) (bucket : String) : Prop where
  whole : '/' ∉ bucket.toList
  named : route.rest = "" -> bucket ≠ ""

theorem Route.takes_segment (route : Route) (bucket : Segment) : route.Takes bucket.text where
  whole := bucket.whole
  named := fun _ empty => bucket.nonempty (by rw [empty]; rfl)

theorem Route.takes_of_below {route : Route} {bucket : String} (whole : '/' ∉ bucket.toList) {tail : List Char}
    (below : route.rest.toList = '/' :: tail) : route.Takes bucket where
  whole := whole
  named := by
    intro last
    rw [last] at below
    cases below

theorem split_path {bucket : String} (whole : '/' ∉ bucket.toList) (route : Route) :
    Text.split '/' (route.path bucket).toList = apiSegments (route.segments bucket) := by
  have chars : (route.path bucket).toList =
      [] ++ '/' :: ("api".toList ++ '/' :: ("v1".toList ++ '/' :: (bucket.toList ++ route.rest.toList))) := by
    simp [Route.path, apiPrefix]
  rw [chars, Text.split_append List.not_mem_nil, Text.split_append (by decide), Text.split_append (by decide)]
  refine congrArg apiSegments ?_
  have alone : Text.split '/' (bucket.toList ++ []) = [bucket.toList] := by
    rw [List.append_nil, Text.split_of_absent whole]
  have below : forall tail : List Char, Text.split '/' (bucket.toList ++ '/' :: tail) =
      bucket.toList :: Text.split '/' tail := Text.split_append whole
  have onSlash : Text.split '/' (bucket.toList ++ "/".toList) = [bucket.toList, []] := by
    rw [show "/".toList = ['/'] by decide, below]
    rfl
  cases route with
  | getKey key | headKey key | putKey key _ _ _ | deleteKey key | patchKey key _ _ =>
      rw [Route.rest, String.toList_append]
      exact (below key.text.toList).trans (congrArg _ (Text.split_of_absent key.whole))
  | listBucket params accept => exact onSlash
  | createToken form =>
      have ends : Text.split '/' "tokens/".toList = ["tokens".toList, []] := by decide
      have chars : "/tokens/".toList = '/' :: "tokens/".toList := by decide
      rw [Route.rest, chars, below, ends, Route.segments]
  | deleteBucket slash =>
      cases slash with
      | true => exact onSlash
      | false => exact alone
  | executeTxn _ | updatePolicy _ | getBucketPolicy | headBucket => exact alone

/-- Every route has the row of its path, and the row has its methods. -/
theorem findRow_path (exposeMetrics : Bool) {bucket : String} {route : Route} (takes : route.Takes bucket) :
    Exists fun table =>
      findRow (routes exposeMetrics) (apiSegments (route.segments bucket)) = some (route.params bucket, table) ∧
        forall method, method ∈ route.methods -> table.handlerOf method = some route.name := by
  have rows := findRow_of_segments exposeMetrics bucket.toList
  have alone : route.rest = "" ->
      findRow (routes exposeMetrics) (apiSegments [bucket.toList]) = some ([bucket.toList], bucketMethods) :=
    fun last => (rows ['k'] (by decide)).2.2.2 (fun empty => takes.named last (String.toList_eq_nil_iff.mp empty))
  cases route with
  | getKey key | headKey key | putKey key _ _ _ | deleteKey key | patchKey key _ _ =>
      exact ⟨keyMethods, (rows _ key.nonempty).2.1, by simp only [Route.methods, Route.name]; decide⟩
  | listBucket params accept =>
      exact ⟨slashMethods, (rows ['k'] (by decide)).2.2.1, by simp only [Route.methods, Route.name]; decide⟩
  | createToken form =>
      exact ⟨[(.post, .createToken)], (rows ['k'] (by decide)).1, by simp only [Route.methods, Route.name]; decide⟩
  | deleteBucket slash =>
      cases slash with
      | true => exact ⟨slashMethods, (rows ['k'] (by decide)).2.2.1, by simp only [Route.methods, Route.name]; decide⟩
      | false => exact ⟨bucketMethods, alone rfl, by simp only [Route.methods, Route.name]; decide⟩
  | executeTxn _ | updatePolicy _ | getBucketPolicy | headBucket =>
      exact ⟨bucketMethods, alone rfl, by simp only [Route.methods, Route.name]; decide⟩

theorem dispatchSegments_route (exposeMetrics : Bool) {bucket : String} {route : Route} (takes : route.Takes bucket)
    {method : Method} (listed : method ∈ route.methods) :
    dispatchSegments exposeMetrics method (apiSegments (route.segments bucket)) =
      .handler route.name (route.params bucket) := by
  have ordinary : method ≠ .options := by
    rintro rfl
    cases route <;> simp only [Route.methods] at listed <;> revert listed <;> decide
  rcases findRow_path exposeMetrics takes with ⟨table, row, named⟩
  simp only [dispatchSegments, if_neg ordinary, row, named method listed]

theorem Route.segments_of_params {bucket : String} {route : Route} {piece : List Char}
    (member : piece ∈ route.params bucket) : piece ∈ route.segments bucket := by
  cases route with
  | deleteBucket slash =>
      rw [List.mem_singleton.mp member]
      cases slash <;> exact List.mem_cons_self
  | getKey _ | headKey _ | putKey _ _ _ _ | deleteKey _ | patchKey _ _ _ => exact member
  | executeTxn _ | listBucket _ _ | createToken _ | updatePolicy _ | getBucketPolicy | headBucket =>
      rw [List.mem_singleton.mp member]
      exact List.mem_cons_self

theorem MethodTable.handlerOf_cases {table : MethodTable} {method : Method} {name : HandlerName}
    (found : table.handlerOf method = some name) :
    (method, name) ∈ table ∨ (method = .head ∧ table.lookup .head = none ∧ (.get, name) ∈ table) := by
  have member : forall {wanted : Method}, table.lookup wanted = some name -> (wanted, name) ∈ table := by
    intro wanted listed
    rcases List.lookup_eq_some_iff.mp listed with ⟨before, after, split, _⟩
    rw [split]
    exact List.mem_append_right before List.mem_cons_self
  unfold handlerOf at found
  split at found
  next other listed =>
    cases found
    exact .inl (member listed)
  next missing =>
    split at found
    next isHead =>
      rw [isHead] at missing
      exact .inr ⟨isHead, missing, member found⟩
    next => cases found

theorem matched_of_dispatch {exposeMetrics : Bool} {method : Method} {segments : List (List Char)} {name : HandlerName}
    {params : List (List Char)} (dispatched : dispatchSegments exposeMetrics method segments = .handler name params) :
    Exists fun table => Matched segments params table ∧ table.handlerOf method = some name := by
  unfold dispatchSegments at dispatched
  split at dispatched
  next => cases dispatched
  next =>
    split at dispatched
    next => cases dispatched
    next taken table found =>
      split at dispatched
      next => cases dispatched
      next other listed =>
        cases dispatched
        exact ⟨table, matched_of_row found, listed⟩

/-- The routes that share a path and its table. -/
theorem route_of_matched {segments params : List (List Char)} {table : MethodTable} {method : Method} {name : HandlerName}
    (matched : Matched segments params table) (whole : forall piece, piece ∈ segments -> '/' ∉ piece)
    (found : table.handlerOf method = some name) (ofBucket : name.ofBucket = true) :
    Exists fun bucket : String => Exists fun route : Route => route.name = name ∧ method ∈ route.methods ∧
      route.Takes bucket ∧ segments = apiSegments (route.segments bucket) ∧ params = route.params bucket := by
  -- What was matched for the bucket, as text, and what was matched for the key.
  have piece : forall text : List Char, text ∈ segments -> Exists fun made : String =>
      made.toList = text ∧ '/' ∉ made.toList := by
    intro text member
    exact ⟨String.ofList text, String.toList_ofList, by rw [String.toList_ofList]; exact whole text member⟩
  have cases := MethodTable.handlerOf_cases found
  cases matched with
  | ops other =>
      rcases cases with member | ⟨_, _, member⟩
      · exact absurd ((other _ member).symm.trans ofBucket) (by decide)
      · exact absurd ((other _ member).symm.trans ofBucket) (by decide)
  | @tokens first =>
      rcases piece first (by simp [apiSegments]) with ⟨bucket, rfl, wholeBucket⟩
      rcases cases with member | ⟨_, _, member⟩
      · cases List.mem_singleton.mp member
        have below : "/tokens/".toList = '/' :: "tokens/".toList := by decide
        exact ⟨bucket, .createToken (.error badRequest), rfl, by simp [Route.methods],
          Route.takes_of_below wholeBucket below, rfl, rfl⟩
      · cases List.mem_singleton.mp member
  | @key first second nonemptyKey =>
      rcases piece first (by simp [apiSegments]) with ⟨bucket, rfl, wholeBucket⟩
      rcases piece second (by simp [apiSegments]) with ⟨text, rfl, wholeKey⟩
      let key : Segment := ⟨text, nonemptyKey, wholeKey⟩
      have below : forall route : Route, route.rest = "/" ++ key.text -> route.Takes bucket := fun route rest =>
        Route.takes_of_below wholeBucket (show route.rest.toList = '/' :: key.text.toList by simp [rest])
      rcases cases with member | ⟨_, missing, _⟩
      · simp only [keyMethods, List.mem_cons, Prod.mk.injEq, List.not_mem_nil, or_false] at member
        rcases member with ⟨rfl, rfl⟩ | ⟨rfl, rfl⟩ | ⟨rfl, rfl⟩ | ⟨rfl, rfl⟩ | ⟨rfl, rfl⟩ | ⟨rfl, rfl⟩
        · exact ⟨bucket, .getKey key, rfl, by simp [Route.methods], below _ rfl, rfl, rfl⟩
        · exact ⟨bucket, .headKey key, rfl, by simp [Route.methods], below _ rfl, rfl, rfl⟩
        · exact ⟨bucket, .putKey key (.ok none) none (.ok []), rfl, by simp [Route.methods], below _ rfl, rfl, rfl⟩
        · exact ⟨bucket, .putKey key (.ok none) none (.ok []), rfl, by simp [Route.methods], below _ rfl, rfl, rfl⟩
        · exact ⟨bucket, .deleteKey key, rfl, by simp [Route.methods], below _ rfl, rfl, rfl⟩
        · exact ⟨bucket, .patchKey key (.ok none) (.ok []), rfl, by simp [Route.methods], below _ rfl, rfl, rfl⟩
      · cases missing
  | @slash first =>
      rcases piece first (by simp [apiSegments]) with ⟨bucket, rfl, wholeBucket⟩
      have below : forall route : Route, route.rest = "/" -> route.Takes bucket := fun route rest =>
        Route.takes_of_below wholeBucket (show route.rest.toList = '/' :: [] by simp [rest])
      rcases cases with member | ⟨rfl, _, member⟩
      · simp only [slashMethods, List.mem_cons, Prod.mk.injEq, List.not_mem_nil, or_false] at member
        rcases member with ⟨rfl, rfl⟩ | ⟨rfl, rfl⟩
        · exact ⟨bucket, .listBucket (.error badRequest) none, rfl, by simp [Route.methods], below _ rfl, rfl, rfl⟩
        · exact ⟨bucket, .deleteBucket true, rfl, by simp [Route.methods], below _ rfl, rfl, rfl⟩
      · simp [slashMethods] at member
        rw [member]
        exact ⟨bucket, .listBucket (.error badRequest) none, rfl, by simp [Route.methods], below _ rfl, rfl, rfl⟩
  | @bucket first nonempty =>
      rcases piece first (by simp [apiSegments]) with ⟨bucket, rfl, wholeBucket⟩
      have alone : forall route : Route, route.Takes bucket := fun route =>
        ⟨wholeBucket, fun _ empty => nonempty (by rw [empty]; rfl)⟩
      rcases cases with member | ⟨_, missing, _⟩
      · simp only [bucketMethods, List.mem_cons, Prod.mk.injEq, List.not_mem_nil, or_false] at member
        rcases member with ⟨rfl, rfl⟩ | ⟨rfl, rfl⟩ | ⟨rfl, rfl⟩ | ⟨rfl, rfl⟩ | ⟨rfl, rfl⟩
        · exact ⟨bucket, .getBucketPolicy, rfl, by simp [Route.methods], alone _, rfl, rfl⟩
        · exact ⟨bucket, .headBucket, rfl, by simp [Route.methods], alone _, rfl, rfl⟩
        · exact ⟨bucket, .executeTxn (.ok []), rfl, by simp [Route.methods], alone _, rfl, rfl⟩
        · exact ⟨bucket, .updatePolicy (.ok []), rfl, by simp [Route.methods], alone _, rfl, rfl⟩
        · exact ⟨bucket, .deleteBucket false, rfl, by simp [Route.methods], alone _, rfl, rfl⟩
      · cases missing

theorem route_of_dispatch {exposeMetrics : Bool} {method : Method} {path : String} {name : HandlerName}
    {params : List (List Char)} (dispatched : dispatch exposeMetrics method path = .handler name params)
    (ofBucket : name.ofBucket = true) :
    Exists fun bucket : String => Exists fun route : Route => route.name = name ∧ method ∈ route.methods ∧
      route.Takes bucket ∧ path = route.path bucket ∧ params = route.params bucket := by
  rcases matched_of_dispatch dispatched with ⟨table, matched, found⟩
  rcases route_of_matched matched (fun piece member => Text.absent_of_mem_split member) found ofBucket with
    ⟨bucket, route, named, listed, takes, segments, captured⟩
  refine ⟨bucket, route, named, listed, takes, ?_, captured⟩
  rw [← split_path takes.whole] at segments
  have joined := congrArg (Text.join '/') segments
  rw [Text.join_split, Text.join_split] at joined
  exact String.toList_inj.mp joined

/-- The bucket that the handler authenticates: the one matched, and where
nothing was matched for it the segment that follows. -/
def Route.authenticated (bucket : String) (route : Route) : Option BucketId :=
  if bucket ≠ "" then some ⟨bucket⟩
  else
    match route with
    | .getKey key | .headKey key | .putKey key _ _ _ | .deleteKey key | .patchKey key _ _ => some ⟨key.text⟩
    | .createToken _ => some ⟨"tokens"⟩
    | .executeTxn _ | .listBucket _ _ | .updatePolicy _ | .deleteBucket _ | .getBucketPolicy | .headBucket => none

/-- The handler reads the path below the prefix.  How many slashes stand in front
makes no difference to it. -/
theorem bucketIdFromPath_rest {bucket : String} {route : Route} (takes : route.Takes bucket) :
    bucketIdFromPath ("/" ++ bucket ++ route.rest) = route.authenticated bucket := by
  unfold Route.authenticated
  by_cases named : bucket ≠ ""
  · rw [if_pos named]
    have nonempty : bucket.toList ≠ [] := fun empty => named (String.toList_eq_nil_iff.mp empty)
    exact bucketIdFromPath_bucketPath ⟨bucket, nonempty, takes.whole⟩ route.rest route.rest_boundary
  · rw [if_neg named, Classical.not_not.mp named, String.append_empty]
    have tokens : bucketIdFromPath ("/" ++ "/tokens/") = some ⟨"tokens"⟩ := by decide
    have slashes : bucketIdFromPath ("/" ++ "/") = none := by decide
    have slash : bucketIdFromPath ("/" ++ "") = none := by decide
    cases route with
    | getKey key | headKey key | putKey key _ _ _ | deleteKey key | patchKey key _ _ =>
        have alone := bucketIdFromPath_bucketPath key "" (.inl rfl)
        rw [bucketPath, String.append_empty] at alone
        exact (bucketIdFromPath_slash _).trans alone
    | createToken form => exact tokens
    | listBucket params accept => exact slashes
    | deleteBucket withSlash =>
        cases withSlash with
        | true => exact slashes
        | false => exact slash
    | executeTxn _ | updatePolicy _ | getBucketPolicy | headBucket => exact slash

/-- What the router sends to a handler below a bucket is a request to a route:
for every method and path it chooses the handler exactly when the path is that
of a route with this handler, the method is one of its methods, and a segment
was matched for the bucket.  The segment may be empty where the path goes on.
The handler then authenticates the bucket that was matched, or where nothing
was matched the segment that follows, if any. -/
theorem routed_bucket_authenticated (exposeMetrics : Bool) (method : Method) (path : String) (name : HandlerName)
    (params : List (List Char)) :
    (dispatch exposeMetrics method path = .handler name params ∧ name.ofBucket = true) ↔
      Exists fun bucket : String => Exists fun route : Route =>
        route.name = name ∧ method ∈ route.methods ∧ route.Takes bucket ∧
          path = apiPrefix ++ ("/" ++ bucket ++ route.rest) ∧ params = route.params bucket ∧
          bucketIdFromPath ("/" ++ bucket ++ route.rest) = route.authenticated bucket := by
  constructor
  · rintro ⟨dispatched, ofBucket⟩
    rcases route_of_dispatch dispatched ofBucket with ⟨bucket, route, named, listed, takes, path, captured⟩
    exact ⟨bucket, route, named, listed, takes, path, captured, bucketIdFromPath_rest takes⟩
  · rintro ⟨bucket, route, rfl, listed, takes, rfl, rfl, _⟩
    have dispatched := dispatchSegments_route exposeMetrics takes listed
    rw [← split_path takes.whole] at dispatched
    refine ⟨dispatched, ?_⟩
    cases route <;> rfl

/-- A request for a key of no bucket is authenticated like one for the key in
the bucket of its own name. -/
theorem fromRequestParts_unnamed (state : AppState) (now : OffsetDateTime) (query : Option String)
    (authorization : Option Bytes) (key : Segment) :
    BucketAuth.fromRequestParts state now ⟨"/" ++ "" ++ ("/" ++ key.text), query, authorization⟩ =
      BucketAuth.fromRequestParts state now ⟨bucketPath key ("/" ++ key.text), query, authorization⟩ := by
  have below : (Route.getKey key).rest.toList = '/' :: key.text.toList := by simp [Route.rest]
  have unnamed := bucketIdFromPath_rest (@Route.takes_of_below _ "" List.not_mem_nil _ below)
  have named := bucketIdFromPath_bucketPath key ("/" ++ key.text) (.inr ⟨key.text.toList, by simp⟩)
  have same : bucketIdFromPath ("/" ++ "" ++ ("/" ++ key.text)) = bucketIdFromPath (bucketPath key ("/" ++ key.text)) :=
    unnamed.trans named.symm
  simp only [BucketAuth.fromRequestParts, same]
  rfl

/-! A key route with nothing before the key. -/

example : dispatch false .put "/api/v1//B" = .handler .putKey [[], ['B']] ∧ bucketIdFromPath "//B" = some ⟨"B"⟩ := by
  decide

end Keydock
