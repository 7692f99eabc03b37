import Keydock.Http.Effects

/-!
# What reads answer

The reading routes leave the store alone; their answers as functions of it.
-/

namespace Keydock

open Effect Handler

/-- The answer of a key read, given what is made of the entry found. -/
def keyAnswer (now : OffsetDateTime) (auth : BucketAuth) (bucket key : Segment) (render : StoredValue -> Response)
    (store : Store) : Except Response Response := do
  let raw <- pathParams bucket key
  let key <- parsePercentEncodedKey raw
  auth.requireReadOn key
  let entry <- (store.liveEntry now auth.bucketId key).mapError mapUseCaseRepoErr
  return render entry.value

/-- The rows a listing asks for, as the storage call gives them. -/
def Store.listAnswer (platform : Platform) (store : Store) (now : OffsetDateTime) (bucket : BucketId)
    (input : ListOptsInput) : Except TaskError (List ListEntry) :=
  FjallStore.listRows platform bucket (KeyService.listOpts now input)
    ((store.data.scan (dataKeyPrefix bucket input.keyPrefix)).map .ok)

def ListBucketParams.input (params : ListBucketParams) (keyPrefix : Option Bytes) : ListOptsInput where
  keyPrefix := keyPrefix
  limit := params.limit
  skip := params.skip
  reverse := params.reverse
  includeValues := some (params.values.getD false)

/-- The answer of a listing. -/
def listAnswer (state : AppState) (now : OffsetDateTime) (auth : BucketAuth)
    (params : Except Response ListBucketParams) (accept : Option Bytes) (store : Store) :
    Except Response Response := do
  let params <- params
  auth.requireEnumerate
  let format <- resolveListFormat params accept
  match prefixForRepo auth.identity params.keyPrefix with
  | none => listResponse state.platform format [] (params.values.getD false)
  | some keyPrefix =>
      let entries <- (store.listAnswer state.platform now auth.bucketId (params.input keyPrefix)).mapError
        TaskError.response
      listResponse state.platform format entries (params.values.getD false)

/-- Only the values a computation can return matter to what follows it. -/
theorem bind_congr_of_ok {ε α β : Type} {outcome : Except ε α} {left right : α -> Except ε β}
    (same : forall value, outcome = .ok value -> left value = right value) :
    (outcome >>= left) = (outcome >>= right) := by
  cases outcome with
  | error error => rfl
  | ok value => exact same value rfl

/-- Reads in sequence: the answers follow one another on the same store. -/
theorem Handler.eval_bind_reads {α β : Type} {platform : Platform} {store : Store} {handler : Handler α}
    {next : α -> Handler β} {outcome : Except Response α} {rest : α -> Except Response β}
    (first : eval platform handler store = (outcome, store))
    (later : forall value, eval platform (next value) store = (rest value, store)) :
    eval platform (handler >>= next) store = (outcome >>= rest, store) := by
  rw [eval_bind, first]
  cases outcome with
  | error response => rfl
  | ok value => exact later value

theorem eval_spawnGet (platform : Platform) (now : OffsetDateTime) (bucket : BucketId) (key : Key) (store : Store) :
    eval platform (spawnUsecase (KeyService.get now bucket key)) store =
      ((store.liveEntry now bucket key).mapError mapUseCaseRepoErr, store) := by
  rw [eval_spawnUsecase, Task.eval_get, mapError_response]

theorem eval_spawnList (platform : Platform) (now : OffsetDateTime) (bucket : BucketId) (input : ListOptsInput)
    (store : Store) :
    eval platform (spawnUsecase (KeyService.list now bucket input)) store =
      ((store.listAnswer platform now bucket input).mapError TaskError.response, store) := by
  rw [eval_spawnUsecase, Task.eval_list]
  rfl

section Answers

variable (clock : Clock) (auth : BucketAuth) (bucket : Segment) (store : Store)

theorem eval_getKey (platform : Platform) (key : Segment) :
    eval platform (getKey clock auth bucket key) store =
      (keyAnswer (clock 1) auth bucket key storedValueResponse store, store) := by
  refine eval_bind_reads (eval_known ..) (fun raw => ?_)
  refine eval_bind_reads (eval_known ..) (fun key => ?_)
  refine eval_bind_reads (eval_known ..) (fun _ => ?_)
  refine eval_bind_reads (eval_spawnGet ..) (fun entry => ?_)
  rfl

theorem eval_headKey (platform : Platform) (key : Segment) :
    eval platform (headKey clock auth bucket key) store =
      (keyAnswer (clock 1) auth bucket key (fun value => Response.ofBytes (contentTypeForKind value.kind) []) store,
        store) := by
  refine eval_bind_reads (eval_known ..) (fun raw => ?_)
  refine eval_bind_reads (eval_known ..) (fun key => ?_)
  refine eval_bind_reads (eval_known ..) (fun _ => ?_)
  refine eval_bind_reads (eval_spawnGet ..) (fun entry => ?_)
  rfl

theorem eval_listBucket (state : AppState) (params : Except Response ListBucketParams) (accept : Option Bytes) :
    eval state.platform (listBucket state clock auth params accept) store =
      (listAnswer state (clock 1) auth params accept store, store) := by
  refine eval_bind_reads (eval_known ..) (fun params => ?_)
  refine eval_bind_reads (eval_known ..) (fun _ => ?_)
  refine eval_bind_reads (eval_known ..) (fun format => ?_)
  cases prefixForRepo auth.identity params.keyPrefix with
  | none => rfl
  | some keyPrefix =>
      refine eval_bind_reads (eval_spawnList ..) (fun entries => ?_)
      rfl

end Answers

end Keydock
