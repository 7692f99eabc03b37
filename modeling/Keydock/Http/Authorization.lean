import Keydock.Http.Runs

/-!
# Who may change what

In every reachable state a request that does not succeed changes nothing, and
one that changes a stored entry or a policy was made by a caller the policy of
that bucket entitles to the change.
-/

namespace Keydock

open Effect Handler

/-- The credential of a request, resolved against a policy. -/
def BucketRequest.identity (state : AppState) (request : BucketRequest) (policy : BucketPolicy) :
    Except AuthError ResolvedIdentity :=
  resolve state.platform request.credential policy request.bucketId state.rootKey (request.clock 0)

/-- The caller is an administrator, or holds a permission for a prefix of the
key, or presents nothing where nothing is needed. -/
def Entitled (state : AppState) (request : BucketRequest) (policy : BucketPolicy) (key : Key)
    (granted : Permission -> Bool) (unlocked : Prop) : Prop :=
  request.identity state policy = .ok .admin ∨
  (Exists fun permissions => Exists fun keyPrefix =>
    request.identity state policy = .ok (.scoped permissions keyPrefix) ∧
      keyPrefix <+: key.asBytes ∧ granted permissions = true) ∨
  (extract request.authorization request.query = none ∧ unlocked)

/-- The caller may store under the key. -/
def MayWrite (state : AppState) (request : BucketRequest) (policy : BucketPolicy) (key : Key) : Prop :=
  Entitled state request policy key Permission.write (policy.writeKeyHash = none)

/-- The caller may remove the key. -/
def MayDelete (state : AppState) (request : BucketRequest) (policy : BucketPolicy) (key : Key) : Prop :=
  Entitled state request policy key Permission.delete
    (policy.secretKeyHash = none ∧ policy.readKeyHash = none ∧ policy.writeKeyHash = none)

/-- The caller may bring about what is found under the key afterwards. -/
def MayLeave (state : AppState) (request : BucketRequest) (policy : BucketPolicy) (key : Key) :
    Option Bytes -> Prop
  | some _ => MayWrite state request policy key
  | none => MayDelete state request policy key

/-- The caller may perform the operation an item of a transaction names. -/
def MayPerform (state : AppState) (request : BucketRequest) (policy : BucketPolicy) : TxnItem -> Prop
  | .set raw _ _ => Exists fun key => parsePercentEncodedKey raw = .ok key ∧ MayWrite state request policy key
  | .delete raw => Exists fun key => parsePercentEncodedKey raw = .ok key ∧ MayDelete state request policy key

section Checks

variable {state : AppState} {request : BucketRequest} {policy : BucketPolicy} {identity : ResolvedIdentity}
  {key : Key}

theorem prefix_of_requireScoped {granted : Bool} {keyPrefix : Bytes}
    (passed : BucketAuth.requireScoped granted keyPrefix key = .ok ()) :
    keyPrefix <+: key.asBytes ∧ granted = true := by
  unfold BucketAuth.requireScoped at passed
  split at passed
  next => cases passed
  next holds =>
    split at passed
    next => cases passed
    next inside =>
      have inScope : BucketAuth.isPrefixOk keyPrefix key = true := by simpa using inside
      unfold BucketAuth.isPrefixOk at inScope
      refine ⟨?_, by simpa using holds⟩
      rcases Bool.or_eq_true_iff.mp inScope with empty | starts
      · rw [List.isEmpty_iff.mp empty]
        exact List.nil_prefix
      · exact List.isPrefixOf_iff_prefix.mp starts

theorem extract_of_anonymous (resolved : request.identity state policy = .ok .anonymous) :
    extract request.authorization request.query = none :=
  Option.map_eq_none_iff.mp (resolve_eq_anonymous resolved)

theorem mayWrite_of_requireWriteOn (resolved : request.identity state policy = .ok identity)
    (allowed : (BucketAuth.ofPolicy request.bucketId policy identity).requireWriteOn key = .ok ()) :
    MayWrite state request policy key := by
  rcases identity with _ | _ | ⟨permissions, keyPrefix⟩
  · refine .inr (.inr ⟨extract_of_anonymous resolved, ?_⟩)
    cases configured : policy.writeKeyHash with
    | none => rfl
    | some hash =>
        simp [BucketAuth.requireWriteOn, BucketAuth.ofPolicy, PolicyKeysPresence.of, configured] at allowed
  · exact .inl resolved
  · exact .inr (.inl ⟨permissions, keyPrefix, resolved, prefix_of_requireScoped allowed⟩)

theorem mayDelete_of_requireDeleteOn (resolved : request.identity state policy = .ok identity)
    (allowed : (BucketAuth.ofPolicy request.bucketId policy identity).requireDeleteOn key = .ok ()) :
    MayDelete state request policy key := by
  rcases identity with _ | _ | ⟨permissions, keyPrefix⟩
  · refine .inr (.inr ⟨extract_of_anonymous resolved, ?_⟩)
    have unlocked : (BucketAuth.ofPolicy request.bucketId policy .anonymous).anyPolicyKeyPresent = false := by
      cases present : (BucketAuth.ofPolicy request.bucketId policy .anonymous).anyPolicyKeyPresent with
      | false => rfl
      | true =>
          have refused : (BucketAuth.ofPolicy request.bucketId policy .anonymous).requireDeleteOn key =
              .error unauthorized := if_pos present
          rw [refused] at allowed
          cases allowed
    simp only [BucketAuth.anyPolicyKeyPresent, BucketAuth.ofPolicy, PolicyKeysPresence.of, Bool.or_eq_false_iff,
      Option.isSome_eq_false_iff, Option.isNone_iff_eq_none] at unlocked
    exact ⟨unlocked.1.1, unlocked.2, unlocked.1.2⟩
  · exact .inl resolved
  · exact .inr (.inl ⟨permissions, keyPrefix, resolved, prefix_of_requireScoped allowed⟩)

end Checks

/-! ## Transactions -/

/-- What a transaction does, given what its body parses as. -/
theorem eval_executeTxn (state : AppState) (clock : Clock) (auth : BucketAuth) (body : Bytes) (store : Store) :
    eval state.platform (executeTxn state clock auth (.ok body)) store =
      match (state.platform.json.fromSlice body).bind txnRequestFromJson with
      | none => (.error badRequest, store)
      | some items =>
          if items.isEmpty then (.error badRequest, store)
          else
            match prepareItems state clock auth 1 items with
            | .error response => (.error response, store)
            | .ok ops => (.ok (Response.ofStatus 204), ops.foldl (Store.applyTxnOp auth.bucketId) store) := by
  simp only [executeTxn, eval_bind, eval_known, eval_orReject]
  cases (state.platform.json.fromSlice body).bind txnRequestFromJson with
  | none => rfl
  | some items =>
      by_cases nothing : items.isEmpty = true
      · simp only [if_pos nothing, eval_reject]
      · simp only [if_neg nothing, eval_bind, eval_known]
        cases prepareItems state clock auth 1 items with
        | error response => rfl
        | ok ops =>
            simp only [eval_spawnUsecase, Task.eval_applyBatch]
            rfl

theorem requireAdmin_error {auth : BucketAuth} {response : Response} (refused : auth.requireAdmin = .error response) :
    response.isSuccess = false := by
  unfold BucketAuth.requireAdmin at refused
  split at refused
  · cases refused
  · cases refused
    rfl

theorem requireWriteOn_error {auth : BucketAuth} {key : Key} {response : Response}
    (refused : auth.requireWriteOn key = .error response) : response.isSuccess = false := by
  unfold BucketAuth.requireWriteOn BucketAuth.requireScoped at refused
  repeat' split at refused
  all_goals cases refused
  all_goals rfl

theorem requireDeleteOn_error {auth : BucketAuth} {key : Key} {response : Response}
    (refused : auth.requireDeleteOn key = .error response) : response.isSuccess = false := by
  unfold BucketAuth.requireDeleteOn BucketAuth.requireScoped at refused
  repeat' split at refused
  all_goals cases refused
  all_goals rfl

theorem parsePercentEncodedKey_error {raw : String} {response : Response}
    (refused : parsePercentEncodedKey raw = .error response) : response.isSuccess = false := by
  unfold parsePercentEncodedKey at refused
  split at refused
  next => cases refused
  next => cases refused; rfl

theorem jsonValueToBody_error {platform : Platform} {value : Json} {response : Response}
    (refused : jsonValueToBody platform value = .error response) : response.isSuccess = false := by
  unfold jsonValueToBody at refused
  repeat' split at refused
  all_goals cases refused
  all_goals rfl

theorem mapError_repoErr_error {α : Type} {outcome : Except UseCaseError α} {response : Response}
    (refused : outcome.mapError mapUseCaseRepoErr = .error response) : response.isSuccess = false := by
  cases outcome with
  | ok value => cases refused
  | error error =>
      cases refused
      cases error <;> rfl

theorem prepareItem_error {state : AppState} {now : OffsetDateTime} {auth : BucketAuth} {item : TxnItem}
    {response : Response} (refused : prepareItem state now auth item = .error response) :
    response.isSuccess = false := by
  cases item with
  | set set value ttl =>
      simp only [prepareItem, bind, Except.bind] at refused
      split at refused
      next parsed => cases refused; exact parsePercentEncodedKey_error parsed
      next key _ =>
        split at refused
        next checked => cases refused; exact requireWriteOn_error checked
        next =>
          split at refused
          next body => cases refused; exact jsonValueToBody_error body
          next =>
            split at refused
            next inferred => cases refused; exact mapError_repoErr_error inferred
            next =>
              split at refused
              next resolved => cases refused; exact mapError_repoErr_error resolved
              next => cases refused
  | delete delete =>
      simp only [prepareItem, bind, Except.bind] at refused
      split at refused
      next parsed => cases refused; exact parsePercentEncodedKey_error parsed
      next key _ =>
        split at refused
        next checked => cases refused; exact requireDeleteOn_error checked
        next => cases refused

/-- A refused transaction is not answered with success. -/
theorem prepareItems_error {state : AppState} {clock : Clock} {auth : BucketAuth} {reading : Nat}
    {items : List TxnItem} {response : Response}
    (refused : prepareItems state clock auth reading items = .error response) : response.isSuccess = false := by
  induction items generalizing reading with
  | nil => cases refused
  | cons item rest ih =>
      simp only [prepareItems, bind, Except.bind] at refused
      split at refused
      next failed => cases refused; exact prepareItem_error failed
      next op _ =>
        split at refused
        next failed => cases refused; exact ih failed
        next => cases refused

/-- In a transaction that is answered with success the caller may perform
every item. -/
theorem txn_items_entitled {state : AppState} {request : BucketRequest} {policy : BucketPolicy}
    {identity : ResolvedIdentity} (resolved : request.identity state policy = .ok identity)
    {reading : Nat} {items : List TxnItem} {ops : List TxnOp}
    (prepared : prepareItems state request.clock (BucketAuth.ofPolicy request.bucketId policy identity) reading
      items = .ok ops) :
    forall item, item ∈ items -> MayPerform state request policy item := by
  have paired := prepareItems_mem prepared
  clear prepared
  induction paired with
  | nil =>
      intro item member
      cases member
  | @cons item op rest later made _ ih =>
      intro other member
      rcases List.mem_cons.mp member with rfl | inside
      · rcases made with ⟨now, made⟩
        have checked := prepareItem_checked made
        cases other with
        | set raw value ttl =>
            rcases checked with ⟨key, _, _, parsed, allowed, _⟩
            exact ⟨key, parsed, mayWrite_of_requireWriteOn resolved allowed⟩
        | delete raw =>
            rcases checked with ⟨key, parsed, allowed, _⟩
            exact ⟨key, parsed, mayDelete_of_requireDeleteOn resolved allowed⟩
      · exact ih other inside

/-! ## The frame condition of requests -/

section Frame

variable (state : AppState) {store : Store} (request : BucketRequest)

/-- A stored entry changes only under a caller entitled to that change. -/
theorem entry_change_entitled (sound : Sound state.platform store) (bucket : Uuid) (key : Key)
    (changed : ((Request.bucket request).perform state store).2.data[dataStorageKey bucket.bucketId key]? ≠
      store.data[dataStorageKey bucket.bucketId key]?) :
    request.bucketId = bucket.bucketId ∧ Exists fun policy =>
      store.lookupPolicy state.platform bucket.bucketId = .ok (some policy) ∧
      MayLeave state request policy key
        ((Request.bucket request).perform state store).2.data[dataStorageKey bucket.bucketId key]? := by
  rcases request.perform_cases state store with same | ⟨auth, accepted, _, change⟩
  · rw [same] at changed
    exact False.elim (changed rfl)
  · generalize ((Request.bucket request).perform state store).2 = after at changed change ⊢
    rcases request.authenticated_eq_ok accepted with ⟨policy, identity, found, resolved, rfl⟩
    cases change with
    | writePolicy admin _ _ _ => exact False.elim (changed rfl)
    | dropPolicy admin => exact False.elim (changed rfl)
    | batch ops allowed =>
        rcases applyTxnOps_changed ops store changed with ⟨op, member, named, result⟩
        rcases sound.bucket_of_lookupPolicy found with ⟨id, addressed⟩
        have parts : request.bucketId = bucket.bucketId ∧ op.key = key := by
          change dataStorageKey request.bucketId op.key = _ at named
          rw [addressed] at named ⊢
          exact dataStorageKey_injective named
        refine ⟨parts.1, policy, parts.1 ▸ found, ?_⟩
        have permitted := allowed op member
        rw [result, ← parts.2]
        cases op with
        | set other value expiresAt => exact mayWrite_of_requireWriteOn resolved permitted
        | delete other => exact mayDelete_of_requireDeleteOn resolved permitted

/-- A bucket record changes only under its administrator. -/
theorem policy_change_admin (bucket : BucketId)
    (changed : ((Request.bucket request).perform state store).2.metadata[Bytes.utf8 bucket.asStr]? ≠
      store.metadata[Bytes.utf8 bucket.asStr]?) :
    request.bucketId = bucket ∧ Exists fun policy =>
      store.lookupPolicy state.platform bucket = .ok (some policy) ∧
      request.identity state policy = .ok .admin := by
  rcases request.perform_cases state store with same | ⟨auth, accepted, _, change⟩
  · rw [same] at changed
    exact False.elim (changed rfl)
  · generalize ((Request.bucket request).perform state store).2 = after at changed change
    rcases request.authenticated_eq_ok accepted with ⟨policy, identity, found, resolved, rfl⟩
    have elsewhere : forall {name : Bytes} {keyspace changedSpace : Keyspace},
        (Bytes.utf8 request.bucketId.asStr ≠ name -> changedSpace[name]? = keyspace[name]?) ->
        changedSpace[name]? ≠ keyspace[name]? -> Bytes.utf8 request.bucketId.asStr = name :=
      fun kept differs => by_contra (fun other => differs (kept other))
    cases change with
    | batch ops allowed =>
        rw [applyTxnOps_metadata] at changed
        exact False.elim (changed rfl)
    | writePolicy admin _ _ _ =>
        have named := elsewhere (fun other => by
          simp only [Store.writePolicy, Keyspace.get_insert, BucketAuth.ofPolicy, if_neg other]) changed
        have same : request.bucketId = bucket := BucketId.ext_str (Bytes.utf8_injective named)
        exact ⟨same, policy, same ▸ found, resolved.trans (congrArg Except.ok admin)⟩
    | dropPolicy admin =>
        have named := elsewhere (fun other => by
          simp only [Store.dropPolicy, Keyspace.get_remove, BucketAuth.ofPolicy, if_neg other]) changed
        have same : request.bucketId = bucket := BucketId.ext_str (Bytes.utf8_injective named)
        exact ⟨same, policy, same ▸ found, resolved.trans (congrArg Except.ok admin)⟩

theorem authenticated_error {response : Response} (refused : request.authenticated state store = .error response) :
    response.isSuccess = false := by
  unfold BucketRequest.authenticated BucketAuth.authenticate at refused
  split at refused
  next error _ =>
    cases refused
    cases error <;> rfl
  next =>
    cases refused
    rfl
  next =>
    split at refused
    next =>
      cases refused
      rfl
    next => cases refused

/-- A transaction that is answered with success was checked item by item. -/
theorem txn_success_entitled {body : Bytes} {items : List TxnItem}
    (asked : request.route = .executeTxn (.ok body))
    (parsed : (state.platform.json.fromSlice body).bind txnRequestFromJson = some items)
    (success : ((Request.bucket request).perform state store).1.isSuccess = true) :
    Exists fun policy => store.lookupPolicy state.platform request.bucketId = .ok (some policy) ∧
      forall item, item ∈ items -> MayPerform state request policy item := by
  rw [Request.perform_eq, Request.handler, BucketRequest.eval_handler] at success
  cases accepted : request.authenticated state store with
  | error response =>
      simp only [accepted, outcome, authenticated_error state request accepted] at success
      cases success
  | ok auth =>
      simp only [accepted, asked, Route.serve, eval_executeTxn, parsed] at success
      rcases request.authenticated_eq_ok accepted with ⟨policy, identity, found, resolved, rfl⟩
      by_cases nothing : items.isEmpty = true
      · rw [if_pos nothing] at success
        cases success
      · rw [if_neg nothing] at success
        cases prepared : prepareItems state request.clock
            (BucketAuth.ofPolicy request.bucketId policy identity) 1 items with
        | error response =>
            simp only [prepared, outcome, prepareItems_error prepared] at success
            cases success
        | ok ops => exact ⟨policy, found, txn_items_entitled resolved prepared⟩

end Frame

/-- In every reachable state, a request that does not succeed changes nothing;
an entry changes only under a caller its bucket's policy entitles to write or
to remove that key, which a transaction needs for each of its items; and a
policy changes only under the administrator. -/
theorem mutations_authorized (state : AppState) (events : List Event) (request : BucketRequest) :
    let store := storeAfter state events
    let response := ((Request.bucket request).perform state store).1
    let after := ((Request.bucket request).perform state store).2
    (response.isSuccess = false -> after = store) ∧
    (forall (bucket : Uuid) (key : Key),
      after.data[dataStorageKey bucket.bucketId key]? ≠ store.data[dataStorageKey bucket.bucketId key]? ->
      request.bucketId = bucket.bucketId ∧ Exists fun policy =>
        store.lookupPolicy state.platform bucket.bucketId = .ok (some policy) ∧
        MayLeave state request policy key after.data[dataStorageKey bucket.bucketId key]?) ∧
    (forall (body : Bytes) (items : List TxnItem), request.route = .executeTxn (.ok body) ->
      (state.platform.json.fromSlice body).bind txnRequestFromJson = some items -> response.isSuccess = true ->
      Exists fun policy => store.lookupPolicy state.platform request.bucketId = .ok (some policy) ∧
        forall item, item ∈ items -> MayPerform state request policy item) ∧
    (forall bucket : BucketId,
      after.metadata[Bytes.utf8 bucket.asStr]? ≠ store.metadata[Bytes.utf8 bucket.asStr]? ->
      request.bucketId = bucket ∧ Exists fun policy =>
        store.lookupPolicy state.platform bucket = .ok (some policy) ∧
        request.identity state policy = .ok .admin) := by
  intro store response after
  have sound : Sound state.platform store := storeAfter_sound state events
  refine ⟨?_, ?_, ?_, ?_⟩
  · intro failed
    rcases request.perform_cases state store with same | ⟨auth, _, success, _⟩
    · exact same
    · rw [success] at failed
      cases failed
  · intro bucket key changed
    exact entry_change_entitled state request sound bucket key changed
  · intro body items asked parsed success
    exact txn_success_entitled state request asked parsed success
  · intro bucket changed
    exact policy_change_admin state request bucket changed

end Keydock
