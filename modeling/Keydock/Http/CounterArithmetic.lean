import Keydock.Foundation.Rounding
import Keydock.Http.RecordedKinds

/-!
# Counter arithmetic

Three readers parse the text of an integer: the guess of its kind when it is
stored, the operand of an increment, and a JSON listing.  They read the same
number, and increments by integers are exact or refused.

A delta is tried as an integer first and as a floating point number second.
Digits beyond the range of the integers therefore still parse, and turn an
integer counter into a rounded one, unless the value is beyond the range of
the floating point numbers as well.
-/

namespace Keydock

open Effect Handler

/-! ## Integers -/

theorem checkedAdd_eq_some {left right sum : Int64} (exact : sum.toInt = left.toInt + right.toInt) :
    checkedAdd left right = some sum := by
  have lower := sum.le_toInt
  have upper := sum.toInt_lt
  unfold checkedAdd
  rw [if_pos ⟨by omega, by omega⟩]
  congr 1
  apply Int64.toInt_inj.mp
  rw [Int64.toInt_add, exact]
  exact Int.bmod_eq_of_le (by omega) (by omega)

/-- A delta that is taken for an integer reads as that integer. -/
theorem read_of_parse_int {body : Bytes} {delta : Int64} (parsed : CounterOp.parse body = .ok (.int delta)) :
    Exists fun text => Bytes.fromUtf8 body = some text ∧ Text.parseI64 (Text.trim text.toList) = some delta := by
  unfold CounterOp.parse at parsed
  split at parsed
  next => cases parsed
  next text decoded =>
    refine ⟨text, decoded, ?_⟩
    simp only at parsed
    split at parsed
    next => cases parsed
    next first rest trimmed =>
      split at parsed
      next => cases parsed
      next =>
        split at parsed
        next number whole =>
          cases parsed
          exact whole
        next =>
          split at parsed
          next => split at parsed <;> cases parsed
          next => cases parsed

/-- The text of such a delta, stored without a declared type, is an integer
counter with that number. -/
theorem fromStored_of_parse_int {platform : Platform} {body : Bytes} {delta : Int64} {value : StoredValue}
    (parsed : CounterOp.parse body = .ok (.int delta))
    (inferred : KeyService.inferStoredValue platform body none = .ok value) :
    CounterValue.fromStored value = .ok (.int delta) := by
  rcases read_of_parse_int parsed with ⟨text, decoded, whole⟩
  have kind : inferValueKind platform body none = .int64 := by
    simp only [inferValueKind, decoded, whole, Option.isSome_some, if_true]
  have made := eq_ok_of_mapError inferred
  unfold StoredValue.new at made
  split at made
  next =>
    cases made
    simp only [CounterValue.fromStored, kind, decoded, whole]
  next => cases made

theorem mergedValue_int {now : OffsetDateTime} {found : Option Bytes} {number : Int64}
    (read : FjallStore.currentValue now found = .ok (.int number)) (delta : Int64) :
    mergedValue now found (.int delta) =
      match checkedAdd number delta with
      | some sum => .ok (CounterValue.storedInt sum)
      | none => .error (.domain (.invalidCounterOp "integer overflow")) := by
  simp only [mergedValue, read, CounterOp.apply]
  cases checkedAdd number delta with
  | none => rfl
  | some sum =>
      simp only [CounterValue.intoStored_int]
      rfl

/-- Increments of the key by integers count from `number`: the exact sum is
stored and returned as decimal text, or, out of range, nothing changes. -/
structure Counts (now : OffsetDateTime) (store : Store) (bucket : BucketId) (key : Key) (number : Int64) : Prop where
  added : forall (body : Bytes) (delta sum : Int64) (expiresAt : Option OffsetDateTime),
    CounterOp.parse body = .ok (.int delta) -> sum.toInt = number.toInt + delta.toInt ->
    Exists fun value => value.payload = Bytes.utf8 (String.ofList (Text.displayI64 sum)) ∧ value.kind = .int64 ∧
      CounterValue.fromStored value = .ok (.int sum) ∧
      Adapter.eval (FjallStore.increment now bucket key (.int delta) expiresAt) store =
        (.ok value, store.put (dataStorageKey bucket key) value expiresAt)
  refused : forall (body : Bytes) (delta : Int64) (expiresAt : Option OffsetDateTime),
    CounterOp.parse body = .ok (.int delta) ->
    ¬ (-2 ^ 63 ≤ number.toInt + delta.toInt ∧ number.toInt + delta.toInt < 2 ^ 63) ->
    Exists fun error =>
      Adapter.eval (FjallStore.increment now bucket key (.int delta) expiresAt) store = (.error error, store)

theorem counts_of_currentValue {now : OffsetDateTime} {store : Store} {bucket : BucketId} {key : Key}
    {number : Int64}
    (read : FjallStore.currentValue now store.data[dataStorageKey bucket key]? = .ok (.int number)) :
    Counts now store bucket key number where
  added := by
    intro body delta sum expiresAt _ exact
    refine ⟨CounterValue.storedInt sum, rfl, rfl, CounterValue.fromStored_storedInt sum, ?_⟩
    rw [FjallStore.eval_increment, mergedValue_int read, checkedAdd_eq_some exact]
  refused := by
    intro body delta expiresAt _ outside
    have none : checkedAdd number delta = none := if_neg outside
    rw [FjallStore.eval_increment, mergedValue_int read, none]
    exact ⟨_, rfl⟩

section Reads

variable {platform : Platform} {now : OffsetDateTime} {store : Store} {bucket : BucketId} {key : Key}

/-- An increment reads what a read at the same instant finds. -/
theorem currentValue_of_get {entry : StoredEntry}
    (found : (Task.eval platform (KeyService.get now bucket key) store).1 = .ok entry) :
    FjallStore.currentValue now store.data[dataStorageKey bucket key]? =
      (CounterValue.fromStored entry.value).mapError UseCaseError.domain := by
  rw [Task.eval_get] at found
  have live := eq_ok_of_mapError found
  unfold Store.liveEntry at live
  split at live
  next => cases live
  next bytes present =>
    split at live
    next => cases live
    next read decoded =>
      split at live
      next => cases live
      next alive =>
        cases live
        simp only [present, FjallStore.currentValue, decoded, if_neg alive]

/-- An increment counts from zero where a read at the same instant finds
nothing. -/
theorem currentValue_of_notFound
    (missing : (Task.eval platform (KeyService.get now bucket key) store).1 = .error (.useCase .notFound)) :
    FjallStore.currentValue now store.data[dataStorageKey bucket key]? = .ok (.int 0) := by
  rw [Task.eval_get, Store.liveEntry] at missing
  cases present : store.data[dataStorageKey bucket key]? with
  | none => rfl
  | some bytes =>
      rw [present] at missing
      cases decoded : decodeEntry bytes with
      | error error =>
          simp only [decoded] at missing
          cases error <;> cases missing
      | ok entry =>
          simp only [decoded] at missing
          split at missing
          next expired => simp only [FjallStore.currentValue, decoded, if_pos expired]
          next => cases missing

end Reads

/-- The readers of a stored integer agree, and increments by integers are
exact.  A key that a read does not find counts from zero, and a delta is the
number that its text, stored, counts from. -/
theorem integer_readers_agree (platform : Platform) :
    (forall (body : Bytes) (contentType : Option String) (value : StoredValue),
      KeyService.inferStoredValue platform body contentType = .ok value -> value.kind = .int64 ->
      Exists fun number : Int64 =>
        CounterValue.fromStored value = .ok (.int number) ∧
        storedValueToJson platform value = .ok (Json.ofInt64 number) ∧
        forall (store : Store) (now : OffsetDateTime) (bucket : BucketId) (key : Key) (entry : StoredEntry),
          (Task.eval platform (KeyService.get now bucket key) store).1 = .ok entry -> entry.value = value ->
            Counts now store bucket key number) ∧
    (forall (store : Store) (now : OffsetDateTime) (bucket : BucketId) (key : Key),
      (Task.eval platform (KeyService.get now bucket key) store).1 = .error (.useCase .notFound) ->
        Counts now store bucket key 0) ∧
    (forall (body : Bytes) (delta : Int64) (value : StoredValue), CounterOp.parse body = .ok (.int delta) ->
      KeyService.inferStoredValue platform body none = .ok value ->
        CounterValue.fromStored value = .ok (.int delta)) := by
  refine ⟨?_, ?_, ?_⟩
  · intro body contentType value inferred kind
    have made := eq_ok_of_mapError inferred
    unfold StoredValue.new at made
    split at made
    next bounded =>
      cases made
      simp only at kind
      have suits : Suits platform body (inferValueKind platform body contentType) :=
        suits_inferValueKind (fun json => by rw [json] at kind; cases kind)
      rw [kind] at suits
      rcases suits with ⟨text, number, decoded, parsed⟩
      have read : CounterValue.fromStored ⟨body, inferValueKind platform body contentType, bounded⟩ =
          .ok (.int number) := by
        simp only [CounterValue.fromStored, kind, decoded, parsed]
      refine ⟨number, read, ?_, ?_⟩
      · simp only [storedValueToJson, kind, decoded, Option.bind_some, parsed]
      · intro store now bucket key entry found same
        apply counts_of_currentValue
        rw [currentValue_of_get found, same, read]
        rfl
    next => cases made
  · intro store now bucket key missing
    exact counts_of_currentValue (currentValue_of_notFound missing)
  · intro body delta value parsed inferred
    exact fromStored_of_parse_int parsed inferred

/-! A counter that was stored with white space, a sign and a leading zero. -/

namespace PaddedCounter

theorem no_trees : forall left, left ∈ ([] : List (Json × Bytes)) ->
    forall right, right ∈ ([] : List (Json × Bytes)) -> left.2 = right.2 -> left.1 = right.1 := by
  intro left member
  cases member

def platform : Platform := Platform.ofJson [] no_trees []

def bucket : BucketId := ⟨"b"⟩

theorem key_short : (Bytes.utf8 "k").length ≤ maxKeyBytes := by decide

def key : Key := ⟨Bytes.utf8 "k", key_short⟩

theorem body_short : (Bytes.utf8 " +041 ").length ≤ maxValueBytes := by decide

def value : StoredValue := ⟨Bytes.utf8 " +041 ", .int64, body_short⟩

def store : Store := Store.empty.put (dataStorageKey bucket key) value none

end PaddedCounter

open PaddedCounter in
/-- It is read as 41, counts on to 42, and refuses to leave the range; a key
that is missing counts from zero. -/
theorem padded_counter_increments :
    CounterValue.fromStored value = .ok (.int 41) ∧ storedValueToJson platform value = .ok (Json.ofInt64 41) ∧
    (Exists fun stored : StoredValue => stored.payload = Bytes.utf8 "42" ∧ stored.kind = .int64 ∧
      Adapter.eval (FjallStore.increment OffsetDateTime.unixEpoch bucket key (.int 1) none) store =
        (.ok stored, store.put (dataStorageKey bucket key) stored none)) ∧
    (Exists fun error =>
      Adapter.eval (FjallStore.increment OffsetDateTime.unixEpoch bucket key (.int 9223372036854775807) none) store =
        (.error error, store)) ∧
    (Exists fun stored : StoredValue => stored.payload = Bytes.utf8 "1" ∧ stored.kind = .int64 ∧
      Adapter.eval (FjallStore.increment OffsetDateTime.unixEpoch bucket key (.int 1) none) Store.empty =
        (.ok stored, Store.empty.put (dataStorageKey bucket key) stored none)) := by
  have one : CounterOp.parse (Bytes.utf8 "+1") = .ok (.int 1) := by decide +kernel
  have most : CounterOp.parse (Bytes.utf8 "+9223372036854775807") = .ok (.int 9223372036854775807) := by decide +kernel
  rcases integer_readers_agree platform with ⟨reads, starts, _⟩
  rcases reads (Bytes.utf8 " +041 ") none value (by decide +kernel) rfl with ⟨number, read, shown, counts⟩
  have same : CounterValue.fromStored value = .ok (.int 41) := by decide +kernel
  rw [same] at read
  cases read
  have counted := counts store OffsetDateTime.unixEpoch bucket key ⟨value, none⟩ (by decide +kernel) rfl
  have fresh := starts Store.empty OffsetDateTime.unixEpoch bucket key (by decide +kernel)
  refine ⟨same, shown, ?_, counted.refused _ _ none most (by decide), ?_⟩
  · rcases counted.added _ 1 42 none one (by decide) with ⟨stored, text, kind, _, ran⟩
    exact ⟨stored, text.trans (by decide +kernel), kind, ran⟩
  · rcases fresh.added _ 1 1 none one (by decide) with ⟨stored, text, kind, _, ran⟩
    exact ⟨stored, text.trans (by decide +kernel), kind, ran⟩

/-! ## Deltas of any length -/

/-- The number that a sign and digits denote. -/
def signedNumber (sign : Char) (digits : List Char) : Int :=
  if sign = '-' then -(Nat.ofDigitChars 10 digits 0 : Int) else Nat.ofDigitChars 10 digits 0

/-- The body is, without the white space around it, a sign and digits, and
denotes this number. -/
def SignedDigits (body : Bytes) (number : Int) : Prop :=
  Exists fun text => Exists fun sign => Exists fun digits =>
    Bytes.fromUtf8 body = some text ∧ Text.trim text.toList = sign :: digits ∧ (sign = '+' ∨ sign = '-') ∧
      digits ≠ [] ∧ Binary64.Digits digits ∧ number = signedNumber sign digits

def InI64 (number : Int) : Prop := -2 ^ 63 ≤ number ∧ number < 2 ^ 63

theorem parseI64_signed {sign : Char} (signed : sign = '+' ∨ sign = '-') {digits : List Char}
    (nonempty : digits ≠ []) (decimal : Binary64.Digits digits) :
    Text.parseI64 (sign :: digits) =
      if -2 ^ 63 ≤ signedNumber sign digits ∧ signedNumber sign digits < 2 ^ 63 then
        some (Int64.ofInt (signedNumber sign digits))
      else none := by
  have value := Text.parseDigits_of_digits nonempty decimal
  rcases signed with rfl | rfl
  · have number : signedNumber '+' digits = Nat.ofDigitChars 10 digits 0 := if_neg (by decide)
    simp only [Text.parseI64, value, Bool.false_eq_true, if_false, number]
  · have number : signedNumber '-' digits = -(Nat.ofDigitChars 10 digits 0 : Int) := if_pos rfl
    simp only [Text.parseI64, value, if_true, number]

/-- The floating point number nearest to what a sign and digits denote. -/
theorem parse_signed {sign : Char} (signed : sign = '+' ∨ sign = '-') {digits : List Char}
    (nonempty : digits ≠ []) (decimal : Binary64.Digits digits) (nonzero : signedNumber sign digits ≠ 0) :
    Exists fun negative => Binary64.parse (sign :: digits) =
      some (Binary64.ofFraction negative (signedNumber sign digits).natAbs 1) := by
  have whole : forall negative, Binary64.parseUnsigned negative digits =
      some (Binary64.ofFraction negative (signedNumber sign digits).natAbs 1) := by
    intro negative
    have magnitude : (signedNumber sign digits).natAbs = Nat.ofDigitChars 10 digits 0 := by
      unfold signedNumber
      split
      · exact Int.natAbs_neg _
      · rfl
    have positive : Nat.ofDigitChars 10 digits 0 ≠ 0 := by
      rw [← magnitude]
      exact Int.natAbs_ne_zero.mpr nonzero
    have long := Int.natCast_nonneg (Nat.log 10 (Nat.ofDigitChars 10 digits 0))
    rw [Binary64.parseUnsigned_whole nonempty decimal, Binary64.ofDecimal, if_neg positive, if_neg (by decide),
      if_neg (by omega), if_pos (Int.le_refl 0), magnitude, Int.toNat_zero, Nat.pow_zero, Nat.mul_one]
  rcases signed with rfl | rfl
  · exact ⟨false, whole false⟩
  · exact ⟨true, whole true⟩

/-- The three outcomes of parsing a sign and digits. -/
inductive ParsedDigits (number : Int) : Except DomainError CounterOp -> Prop
  | whole (delta : Int64) (exact : delta.toInt = number) : ParsedDigits number (.ok (.int delta))
  | rounded (delta : Binary64) (outside : ¬ InI64 number) (below : number.natAbs < Binary64.overflow)
      (finite : delta.isFinite = true) : ParsedDigits number (.ok (.float delta))
  | refused (outside : ¬ InI64 number) (beyond : Binary64.overflow ≤ number.natAbs) (error : DomainError) :
      ParsedDigits number (.error error)

theorem parsedDigits {body : Bytes} {number : Int} (shape : SignedDigits body number) :
    ParsedDigits number (CounterOp.parse body) := by
  rcases shape with ⟨text, sign, digits, decoded, trimmed, signed, nonempty, decimal, rfl⟩
  have marked : ¬ (sign ≠ '+' ∧ sign ≠ '-') := fun neither => signed.elim neither.1 neither.2
  simp only [CounterOp.parse, decoded, trimmed, if_neg marked, parseI64_signed signed nonempty decimal]
  by_cases inside : -2 ^ 63 ≤ signedNumber sign digits ∧ signedNumber sign digits < 2 ^ 63
  · rw [if_pos inside]
    exact .whole _ (Int64.toInt_ofInt_of_le inside.1 inside.2)
  · have nonzero : signedNumber sign digits ≠ 0 := by omega
    rcases parse_signed signed nonempty decimal nonzero with ⟨negative, parsed⟩
    have finite := Binary64.ofFraction_whole_finite negative (signedNumber sign digits).natAbs
    rw [if_neg inside, parsed]
    simp only [Binary64.not_number_eq]
    by_cases below : (signedNumber sign digits).natAbs < Binary64.overflow
    · rw [finite.mpr below]
      exact .rounded _ inside below (finite.mpr below)
    · rw [Bool.eq_false_iff.mpr (fun proper => below (finite.mp proper))]
      exact .refused inside (Nat.not_lt.mp below) _

theorem intoStored_float {number : Binary64} (finite : number.isFinite = true) :
    Exists fun value => CounterValue.intoStored (.float number) = .ok value ∧ value.kind = .float64 := by
  have wide : forall chars : List Char, (chars.flatMap String.utf8EncodeChar).length ≤ 4 * chars.length := by
    intro chars
    induction chars with
    | nil => exact Nat.le_refl 0
    | cons c rest ih =>
        have one : (String.utf8EncodeChar c).length ≤ 4 := by
          rw [String.length_utf8EncodeChar]
          exact c.utf8Size_le_four
        rw [List.flatMap_cons, List.length_append, List.length_cons]
        omega
  have short : (Bytes.utf8 (String.ofList (Binary64.display number))).length ≤ maxValueBytes := by
    have text := Binary64.length_display finite
    rw [Bytes.utf8_ofList]
    refine Nat.le_trans (wide _) ?_
    unfold maxValueBytes
    omega
  exact ⟨⟨_, .float64, short⟩, dif_pos short, rfl⟩

theorem floatResult_of_finite {number : Binary64} (finite : number.isFinite = true) :
    CounterOp.floatResult number = .ok (.float number) := by
  rw [CounterOp.floatResult, Binary64.not_number_eq, finite]
  rfl

theorem apply_float_int (number : Int64) (delta : Binary64) :
    CounterOp.apply (.float delta) (.int number) =
      CounterOp.floatResult ((Binary64.ofInt number.toInt).add delta) := by
  rw [CounterOp.apply]

-- Stated for any operation: with the operands in place the checker would run the floating point addition.
theorem mergedValue_of_parts {now : OffsetDateTime} {found : Option Bytes} {op : CounterOp}
    {current merged : CounterValue} {value : StoredValue} (read : FjallStore.currentValue now found = .ok current)
    (applied : op.apply current = .ok merged) (stored : merged.intoStored = .ok value) :
    mergedValue now found op = .ok value := by
  simp only [mergedValue, read, applied, stored, Except.mapError]

/-- A rounded delta makes a floating point counter of an integer one. -/
theorem mergedValue_float {now : OffsetDateTime} {found : Option Bytes} {number : Int64}
    (read : FjallStore.currentValue now found = .ok (.int number)) {delta : Binary64} (finite : delta.isFinite = true) :
    Exists fun value => mergedValue now found (.float delta) = .ok value ∧ value.kind = .float64 := by
  have bound : number.toInt.natAbs ≤ 2 ^ 63 := by
    have lower := number.le_toInt
    have upper := number.toInt_lt
    omega
  have operand := Binary64.ofInt_small bound
  have sum := Binary64.add_finite operand.1 finite operand.2
  have applied : CounterOp.apply (.float delta) (.int number) = .ok (.float _) :=
    (apply_float_int number delta).trans (floatResult_of_finite sum)
  rcases intoStored_float sum with ⟨value, stored, kind⟩
  exact ⟨value, mergedValue_of_parts read applied stored, kind⟩

/-! ## The counter route -/

/-- A request that reaches the counter: the path names the key, the identity
may write it, the time to live resolves, and the key is missing or holds an
integer. -/
structure Increments (clock : Clock) (auth : BucketAuth) (bucket segment : Segment) (ttl : Option UInt64)
    (store : Store) (key : Key) (number : Int64) (expiresAt : Option OffsetDateTime) : Prop where
  named : pathKey bucket segment = .ok key
  allowed : auth.requireWriteOn key = .ok ()
  lasting : KeyService.resolveTtl (clock 1) ttl auth.defaultTtlSecs = .ok expiresAt
  counts : FjallStore.currentValue (clock 2) store.data[dataStorageKey auth.bucketId key]? = .ok (.int number)

/-- What the route does with a delta. -/
def patched (now : OffsetDateTime) (bucket : BucketId) (key : Key) (expiresAt : Option OffsetDateTime) (store : Store)
    (op : CounterOp) : Except Response Response × Store :=
  match mergedValue now store.data[dataStorageKey bucket key]? op with
  | .error error => (.error (mapUseCaseRepoErr error), store)
  | .ok value => (.ok (storedValueResponse value), store.put (dataStorageKey bucket key) value expiresAt)

section Patches

variable {clock : Clock} {auth : BucketAuth} {bucket segment : Segment} {ttl : Option UInt64} {store : Store}
  {key : Key} {number : Int64} {expiresAt : Option OffsetDateTime}

theorem Increments.eval_patchKey (reaches : Increments clock auth bucket segment ttl store key number expiresAt)
    (platform : Platform) (body : Bytes) :
    eval platform (patchKey clock auth bucket segment (.ok ttl) (.ok body)) store =
      match CounterOp.parse body with
      | .error _ => (.error badRequest, store)
      | .ok op => patched (clock 2) auth.bucketId key expiresAt store op := by
  rcases bind_eq_ok.mp reaches.named with ⟨raw, path, parsed⟩
  simp only [patchKey, eval_bind, eval_known, path, parsed, reaches.allowed]
  cases CounterOp.parse body with
  | error error => rfl
  | ok op =>
      simp only [Except.mapError, eval_spawnUsecase, Task.eval_increment, reaches.lasting, patched]
      cases mergedValue (clock 2) store.data[dataStorageKey auth.bucketId key]? op <;> rfl

/-- The request stores the total as an integer, or answers 400 and changes
nothing. -/
def AddsOrRefuses (ran : Except Response Response × Store) (store : Store) (storageKey : Bytes) (total : Int) : Prop :=
  (Exists fun value => Exists fun expiresAt => Exists fun sum : Int64 =>
    outcome ran.1 = storedValueResponse value ∧ ran.2 = store.put storageKey value expiresAt ∧
      value.kind = .int64 ∧ CounterValue.fromStored value = .ok (.int sum) ∧ sum.toInt = total) ∨
  ((outcome ran.1).status = 400 ∧ ran.2 = store)

/-- An entry is stored with its kind. -/
theorem kind_of_put {storageKey : Bytes} {left right : StoredValue} {leftExpiry rightExpiry : Option OffsetDateTime}
    (same : store.put storageKey left leftExpiry = store.put storageKey right rightExpiry) : left.kind = right.kind := by
  have found := congrArg (fun after : Store => (after.data[storageKey]?).map decodeEntry) same
  simp only [Store.put, Keyspace.get_insert, if_true, Option.map_some, decodeEntry_entryBytes, Option.some.injEq,
    Except.ok.injEq, StoredEntry.mk.injEq] at found
  rw [found.1]

/-- An integer counter stays one exactly when the digits denote an integer of
64 bits, or a number so large that even a floating point number overflows. -/
theorem Increments.addsOrRefuses_iff
    (reaches : Increments clock auth bucket segment ttl store key number expiresAt) (platform : Platform)
    {body : Bytes} {delta : Int} (shape : SignedDigits body delta) :
    AddsOrRefuses (eval platform (patchKey clock auth bucket segment (.ok ttl) (.ok body)) store) store
        (dataStorageKey auth.bucketId key) (number.toInt + delta) ↔
      InI64 delta ∨ Binary64.overflow ≤ delta.natAbs := by
  rw [reaches.eval_patchKey]
  have parsed := parsedDigits shape
  generalize CounterOp.parse body = result at parsed ⊢
  cases parsed with
  | whole found exact =>
      have inside : InI64 delta := exact ▸ ⟨found.le_toInt, found.toInt_lt⟩
      refine iff_of_true ?_ (.inl inside)
      simp only [patched, mergedValue_int reaches.counts]
      cases added : checkedAdd number found with
      | none => exact .inr ⟨rfl, rfl⟩
      | some sum =>
          refine .inl ⟨CounterValue.storedInt sum, expiresAt, sum, rfl, rfl, rfl,
            CounterValue.fromStored_storedInt sum, ?_⟩
          rw [toInt_of_checkedAdd added, exact]
  | refused outside beyond error => exact iff_of_true (.inr ⟨rfl, rfl⟩) (.inr beyond)
  | rounded found outside below finite =>
      refine iff_of_false ?_ (fun either => either.elim outside (Nat.not_le_of_gt below))
      rcases mergedValue_float reaches.counts finite with ⟨value, merged, kind⟩
      simp only [patched, merged]
      rintro (⟨other, _, _, _, stored, whole, _⟩ | ⟨status, _⟩)
      · have same := kind_of_put stored
        rw [kind, whole] at same
        cases same
      · cases status

end Patches

end Keydock
