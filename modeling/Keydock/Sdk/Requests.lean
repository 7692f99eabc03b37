import Keydock.Foundation.UrlPath
import Keydock.Http.Router
import Keydock.Sdk.Encoding

/-!
# Requests of the client

The client puts bucket and key into the path as encoded segments.  Before the
request is sent, the path is resolved like that of any web address, and the
encoder leaves dots as they are.  So a bucket or a key that is a dot segment
changes which route the request arrives at, and every other name arrives where
it was meant to.
-/

namespace Keydock
namespace Sdk

open PercentCoding

/-- The path the client puts its own paths behind. -/
def basePath (pathname : List Char) : List Char :=
  let trimmed := (pathname.reverse.dropWhile (fun c => c = '/')).reverse
  if trimmed = [] then (apiPrefix ++ "/").toList
  else if trimmed = apiPrefix.toList then (apiPrefix ++ "/").toList
  else trimmed ++ (apiPrefix ++ "/").toList

/-- The operations of the client, with the names they put into the path. -/
inductive Operation
  | readKey (bucket key : Name)
  | keyExists (bucket key : Name)
  | writeValue (bucket key : Name)
  | deleteKey (bucket key : Name)
  | increment (bucket key : Name)
  | list (bucket : Name)
  | executeTransaction (bucket : Name)
  | getPolicy (bucket : Name)
  | updatePolicy (bucket : Name)
  | deleteBucket (bucket : Name)
  | bucketExists (bucket : Name)
  | createToken (bucket : Name)

namespace Operation

def method : Operation -> Method
  | .readKey _ _ | .list _ | .getPolicy _ => .get
  | .keyExists _ _ | .bucketExists _ => .head
  | .writeValue _ _ => .put
  | .deleteKey _ _ | .deleteBucket _ => .delete
  | .increment _ _ | .updatePolicy _ => .patch
  | .executeTransaction _ | .createToken _ => .post

def bucket : Operation -> Name
  | .readKey bucket _ | .keyExists bucket _ | .writeValue bucket _ | .deleteKey bucket _ | .increment bucket _
  | .list bucket | .executeTransaction bucket | .getPolicy bucket | .updatePolicy bucket | .deleteBucket bucket
  | .bucketExists bucket | .createToken bucket => bucket

def key? : Operation -> Option Name
  | .readKey _ key | .keyExists _ key | .writeValue _ key | .deleteKey _ key | .increment _ key => some key
  | .list _ | .executeTransaction _ | .getPolicy _ | .updatePolicy _ | .deleteBucket _ | .bucketExists _
  | .createToken _ => none

/-- The path of the operation, below the prefix. -/
def path : Operation -> Except KeydockValidationError String
  | .readKey bucket key | .keyExists bucket key | .writeValue bucket key | .deleteKey bucket key
  | .increment bucket key => keyPath bucket.text key.text
  | .list bucket | .deleteBucket bucket => do return (<- encodeBucketId bucket.text) ++ "/"
  | .executeTransaction bucket | .getPolicy bucket | .updatePolicy bucket | .bucketExists bucket =>
      encodeBucketId bucket.text
  | .createToken bucket => do return (<- encodeBucketId bucket.text) ++ "/tokens/"

/-- The names in the path. -/
def names (operation : Operation) : List Name := operation.bucket :: operation.key?.toList

/-- The route the operation is meant for, whatever else the request holds. -/
def route : Operation -> Route
  | .readKey _ key => .getKey key.segment
  | .keyExists _ key => .headKey key.segment
  | .writeValue _ key => .putKey key.segment (.ok none) none (.ok [])
  | .deleteKey _ key => .deleteKey key.segment
  | .increment _ key => .patchKey key.segment (.ok none) (.ok [])
  | .list _ => .listBucket (.error badRequest) none
  | .executeTransaction _ => .executeTxn (.ok [])
  | .getPolicy _ => .getBucketPolicy
  | .updatePolicy _ => .updatePolicy (.ok [])
  | .deleteBucket _ => .deleteBucket true
  | .bucketExists _ => .headBucket
  | .createToken _ => .createToken (.error badRequest)

/-- The segments of the path below the prefix. -/
def segments (operation : Operation) : List (List Char) := operation.route.segments operation.bucket.segment.text

/-- The path at which the request arrives. -/
def sentTo (pathname : List Char) (path : String) : String :=
  String.ofList (Url.resolve (basePath pathname ++ path.toList))

end Operation

/-- A name that is a dot segment. -/
def Name.isDots (name : Name) : Prop := name.text = "." ∨ name.text = ".."

theorem Name.isPlain_segment (name : Name) : Url.isPlain name.segment.text.toList = true ↔ ¬ name.isDots := by
  have single := isSingleDot_encodeURIComponent name.text
  have double := isDoubleDot_encodeURIComponent name.text
  simp only [Url.isPlain, Name.segment, Name.isDots, Bool.and_eq_true, Bool.not_eq_true', ← Bool.not_eq_true, single,
    double, not_or]

namespace Operation

theorem path_eq (operation : Operation) : Exists fun path => operation.path = .ok path ∧
    path.toList = Text.join '/' operation.segments := by
  have bucketOk : forall name : Name, encodeBucketId name.text = .ok name.segment.text := fun name => if_neg name.nonempty
  have keyOk : forall name : Name, encodeKey name.text = .ok name.segment.text := fun name => if_neg name.nonempty
  cases operation with
  | readKey bucket key | keyExists bucket key | writeValue bucket key | deleteKey bucket key | increment bucket key =>
      refine ⟨bucket.segment.text ++ "/" ++ key.segment.text, ?_, ?_⟩
      · simp only [path, keyPath, bucketOk, keyOk, bind, Except.bind]
        rfl
      · rw [String.toList_append, String.toList_append, List.append_assoc]
        rfl
  | list bucket | deleteBucket bucket =>
      refine ⟨bucket.segment.text ++ "/", ?_, String.toList_append⟩
      simp only [path, bucketOk, bind, Except.bind]
      rfl
  | executeTransaction bucket | getPolicy bucket | updatePolicy bucket | bucketExists bucket =>
      exact ⟨bucket.segment.text, bucketOk bucket, rfl⟩
  | createToken bucket =>
      refine ⟨bucket.segment.text ++ "/tokens/", ?_, String.toList_append⟩
      simp only [path, bucketOk, bind, Except.bind]
      rfl

theorem params_eq (operation : Operation) : operation.route.params operation.bucket.segment.text =
    operation.names.map (fun name => name.segment.text.toList) := by
  cases operation <;> rfl

theorem method_mem (operation : Operation) : operation.method ∈ operation.route.methods := by
  cases operation <;> simp [method, route, Route.methods]

/-- What is not a name in the path is plain and whole. -/
theorem segment_cases {operation : Operation} {piece : List Char} (member : piece ∈ operation.segments) :
    (Exists fun name => name ∈ operation.names ∧ piece = name.segment.text.toList) ∨
      (Url.isPlain piece = true ∧ '/' ∉ piece) := by
  have empty : Url.isPlain [] = true ∧ '/' ∉ ([] : List Char) := by decide
  have tokens : Url.isPlain "tokens".toList = true ∧ '/' ∉ "tokens".toList := by decide
  cases operation with
  | readKey bucket key | keyExists bucket key | writeValue bucket key | deleteKey bucket key | increment bucket key =>
      rcases List.mem_cons.mp member with rfl | second
      · exact .inl ⟨bucket, List.mem_cons_self, rfl⟩
      · rw [List.mem_singleton.mp second]
        exact .inl ⟨key, List.mem_cons_of_mem _ List.mem_cons_self, rfl⟩
  | list bucket | deleteBucket bucket =>
      rcases List.mem_cons.mp member with rfl | second
      · exact .inl ⟨bucket, List.mem_cons_self, rfl⟩
      · rw [List.mem_singleton.mp second]
        exact .inr empty
  | executeTransaction bucket | getPolicy bucket | updatePolicy bucket | bucketExists bucket =>
      rw [List.mem_singleton.mp member]
      exact .inl ⟨bucket, List.mem_cons_self, rfl⟩
  | createToken bucket =>
      rcases List.mem_cons.mp member with rfl | later
      · exact .inl ⟨bucket, List.mem_cons_self, rfl⟩
      · rcases List.mem_cons.mp later with rfl | last
        · exact .inr tokens
        · rw [List.mem_singleton.mp last]
          exact .inr empty

theorem segments_ne_nil (operation : Operation) : operation.segments ≠ [] := by
  cases operation <;> exact List.cons_ne_nil _ _

/-- The segments at which the request arrives. -/
theorem split_sentTo {pathname : List Char} (served : basePath pathname = (apiPrefix ++ "/").toList)
    {operation : Operation} {path : String} (chars : path.toList = Text.join '/' operation.segments) :
    Text.split '/' (sentTo pathname path).toList =
      [] :: Url.resolveFrom ["v1".toList, "api".toList] operation.segments := by
  have whole : forall piece, piece ∈ operation.segments -> '/' ∉ piece := by
    intro piece member
    rcases segment_cases member with ⟨name, _, rfl⟩ | ⟨_, absent⟩
    · exact name.segment.whole
    · exact absent
  have parts : Text.split '/' (basePath pathname ++ path.toList) =
      [] :: "api".toList :: "v1".toList :: operation.segments := by
    have start : (apiPrefix ++ "/").toList = [] ++ '/' :: ("api".toList ++ '/' :: ("v1".toList ++ ['/'])) := by decide
    rw [served, chars, start]
    simp only [List.nil_append, List.cons_append, List.append_assoc]
    rw [← List.nil_append ('/' :: _), Text.split_append List.not_mem_nil, Text.split_append (by decide),
      Text.split_append (by decide), Text.split_join whole operation.segments_ne_nil]
  rw [sentTo, String.toList_ofList, Url.split_resolve parts, Url.resolveFrom_of_plain (by decide),
    Url.resolveFrom_of_plain (by decide)]

/-- Names that are no dot segments leave the path as it is. -/
theorem resolveFrom_segments {operation : Operation} (plain : forall name, name ∈ operation.names -> ¬ name.isDots) :
    [] :: Url.resolveFrom ["v1".toList, "api".toList] operation.segments = apiSegments operation.segments := by
  rw [Url.resolveFrom_of_all_plain]
  · rfl
  · intro piece member
    rcases segment_cases member with ⟨name, listed, rfl⟩ | ⟨stays, _⟩
    · exact name.isPlain_segment.mpr (plain name listed)
    · exact stays

theorem dispatch_of_plain (exposeMetrics : Bool) {pathname : List Char}
    (served : basePath pathname = (apiPrefix ++ "/").toList) {operation : Operation} {path : String}
    (chars : path.toList = Text.join '/' operation.segments)
    (plain : forall name, name ∈ operation.names -> ¬ name.isDots) :
    dispatch exposeMetrics operation.method (sentTo pathname path) =
      .handler operation.route.name (operation.route.params operation.bucket.segment.text) := by
  rw [dispatch, split_sentTo served chars, resolveFrom_segments plain]
  exact dispatchSegments_route exposeMetrics (operation.route.takes_segment operation.bucket.segment) operation.method_mem

/-- A parameter of a path that has been resolved is no dot segment. -/
theorem isPlain_of_dispatched {exposeMetrics : Bool} {method : Method} {segments : List (List Char)}
    {name : HandlerName} {params : List (List Char)} (ofBucket : name.ofBucket = true)
    (whole : forall piece, piece ∈ [] :: Url.resolveFrom ["v1".toList, "api".toList] segments -> '/' ∉ piece)
    (dispatched : dispatchSegments exposeMetrics method
      ([] :: Url.resolveFrom ["v1".toList, "api".toList] segments) = .handler name params)
    {piece : List Char} (member : piece ∈ params) : Url.isPlain piece = true := by
  rcases matched_of_dispatch dispatched with ⟨table, matched, found⟩
  rcases route_of_matched matched whole found ofBucket with ⟨bucket, route, _, _, _, same, rfl⟩
  have inside : piece ∈ Url.resolveFrom ["v1".toList, "api".toList] segments := by
    rw [(List.cons_eq_cons.mp same).2]
    exact List.mem_cons_of_mem _ (List.mem_cons_of_mem _ (Route.segments_of_params member))
  exact @Url.keep_of_mem_resolveFrom (fun piece => Url.isPlain piece = true) _ _ _ (by decide) (by decide)
    (fun _ _ stays => stays) inside

end Operation

/-- A client of a server at the root of its address sends a request to the
handler that it is meant for, with its names as the parameters, exactly when no
name is a dot segment.  Where the key is a single dot, the request to delete it
is one to delete the bucket. -/
theorem requests_arrive_iff (exposeMetrics : Bool) {pathname : List Char}
    (served : basePath pathname = (apiPrefix ++ "/").toList) (operation : Operation) :
    Exists fun path => operation.path = .ok path ∧
      (dispatch exposeMetrics operation.method (Operation.sentTo pathname path) =
          .handler operation.route.name (operation.names.map (fun name => name.segment.text.toList)) ↔
        forall name, name ∈ operation.names -> ¬ name.isDots) ∧
      forall bucket key, operation = .deleteKey bucket key -> key.text = "." -> ¬ bucket.isDots ->
        dispatch exposeMetrics operation.method (Operation.sentTo pathname path) =
          .handler .deleteBucket [bucket.segment.text.toList] := by
  rcases operation.path_eq with ⟨path, sent, chars⟩
  have arrives := Operation.split_sentTo served chars
  refine ⟨path, sent, ⟨?_, ?_⟩, ?_⟩
  · intro dispatched name listed
    have whole : forall piece, piece ∈ [] :: Url.resolveFrom ["v1".toList, "api".toList] operation.segments ->
        '/' ∉ piece := by
      rw [← arrives]
      exact fun piece member => Text.absent_of_mem_split member
    rw [dispatch, arrives] at dispatched
    have ofBucket : operation.route.name.ofBucket = true := by cases operation <;> rfl
    exact name.isPlain_segment.mp (Operation.isPlain_of_dispatched ofBucket whole dispatched
      (List.mem_map_of_mem listed))
  · intro plain
    rw [← operation.params_eq]
    exact Operation.dispatch_of_plain exposeMetrics served chars plain
  · rintro bucket key rfl dot plain
    have single : Url.isSingleDot key.segment.text.toList = true :=
      (isSingleDot_encodeURIComponent key.text).mpr dot
    have notDouble : ¬ Url.isDoubleDot key.segment.text.toList = true := by
      intro double
      have both : key.text = ".." := (isDoubleDot_encodeURIComponent key.text).mp double
      rw [dot] at both
      exact absurd both (by decide)
    have resolved : [] :: Url.resolveFrom ["v1".toList, "api".toList]
        [bucket.segment.text.toList, key.segment.text.toList] =
        apiSegments ((Route.deleteBucket true).segments bucket.segment.text) := by
      rw [Url.resolveFrom_of_plain (bucket.isPlain_segment.mpr plain), Url.resolveFrom, if_neg notDouble, if_pos single,
        if_pos rfl]
      rfl
    rw [dispatch, arrives, Operation.segments]
    exact (congrArg _ resolved).trans
      (dispatchSegments_route exposeMetrics ((Route.deleteBucket true).takes_segment bucket.segment)
        (List.mem_singleton.mpr rfl))

theorem requests_arrive_at_root : basePath ['/'] = (apiPrefix ++ "/").toList ∧
    Exists fun path => (Operation.deleteKey ⟨"b", by decide⟩ ⟨".", by decide⟩).path = .ok path ∧
      dispatch false .delete (Operation.sentTo ['/'] path) = .handler .deleteBucket [['b']] := by
  have served : basePath ['/'] = (apiPrefix ++ "/").toList := by decide
  rcases requests_arrive_iff false served (.deleteKey ⟨"b", by decide⟩ ⟨".", by decide⟩) with ⟨path, sent, _, removes⟩
  refine ⟨served, path, sent, ?_⟩
  have removed := removes ⟨"b", by decide⟩ ⟨".", by decide⟩ rfl rfl (by rintro (same | same) <;> exact absurd same (by decide))
  have name : (Name.segment ⟨"b", by decide⟩).text.toList = ['b'] := by decide +kernel
  rw [name] at removed
  exact removed

end Sdk
end Keydock
