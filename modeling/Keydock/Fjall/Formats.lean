import Keydock.Fjall.Listing

/-!
# The stored formats

Entries are written by a derived serializer, to which the payload is a
sequence of bytes, and read by one that borrows the payload as a slice.  The
two agree, and so do the two readers: whenever an entry decodes as a whole,
its expiry alone decodes to the same second.  No write of the key store leaves
a row behind that one of the readers refuses.

Keys of the expiry index are ordered by expiry first, which is what the sweep
relies on when it stops early.
-/

namespace Keydock

open Effect Adapter

/-! ## Entries -/

namespace OffsetDateTime

/-- A second that names an instant is the second of that instant. -/
theorem unixTimestamp_of_fromUnixTimestamp {timestamp : Int64} {instant : OffsetDateTime}
    (made : fromUnixTimestamp timestamp = some instant) : instant.unixTimestamp = timestamp := by
  have nanos : instant.nanos = timestamp.toInt * nanosPerSecond := ofNanos_nanos made
  have seconds : instant.unixSeconds = timestamp.toInt := by
    unfold unixSeconds
    rw [nanos]
    exact Int.mul_ediv_cancel _ (by decide)
  rw [unixTimestamp, seconds, Int64.ofInt_toInt]

end OffsetDateTime

namespace EntryCodec

/-- The record as the derived serializer writes it: field after field, the
payload as a sequence of bytes. -/
def serialize (codec : EntryCodec) : Bytes :=
  Postcard.seq Postcard.u8 codec.payload ++ Postcard.varintU32 codec.kind.index ++
    Postcard.option Postcard.i64 codec.expiresUnix

theorem toAllocvec_eq_serialize (codec : EntryCodec) : codec.toAllocvec = codec.serialize := by
  unfold toAllocvec serialize
  rw [Postcard.seq_u8]

end EntryCodec

/-- Whatever decodes as a whole has an expiry that decodes alone, to the same
second. -/
theorem decodeEntryExpiresUnix_of_decodeEntry {bytes : Bytes} {entry : StoredEntry}
    (decoded : decodeEntry bytes = .ok entry) :
    decodeEntryExpiresUnix bytes = .ok (entry.expiresAt.map OffsetDateTime.unixTimestamp) := by
  unfold decodeEntry at decoded
  unfold decodeEntryExpiresUnix
  cases read : EntryCodec.fromBytes bytes with
  | none =>
      rw [read] at decoded
      cases decoded
  | some codec =>
      rw [read] at decoded
      simp only at decoded ⊢
      split at decoded
      next => cases decoded
      next value made =>
        split at decoded
        next absent =>
          cases decoded
          rw [absent]
          rfl
        next timestamp present =>
          unfold expiresAtFromUnix at decoded
          cases instant : OffsetDateTime.fromUnixTimestamp timestamp with
          | none =>
              rw [instant] at decoded
              cases decoded
          | some expiry =>
              rw [instant] at decoded
              cases decoded
              rw [present, Option.map_some, OffsetDateTime.unixTimestamp_of_fromUnixTimestamp instant]

namespace IsEntry

variable {bytes : Bytes}

theorem decodeEntry_ok (stored : IsEntry bytes) : Exists fun entry => decodeEntry bytes = .ok entry := by
  rcases stored with ⟨value, expiresAt, rfl⟩
  exact ⟨_, decodeEntry_entryBytes value expiresAt⟩

/-- A counter operand read from an entry fails for a reason of the domain
only. -/
theorem currentValue_error (stored : IsEntry bytes) {now : OffsetDateTime} {error : UseCaseError}
    (failed : FjallStore.currentValue now (some bytes) = .error error) :
    Exists fun reason => error = .domain reason := by
  rcases stored.decodeEntry_ok with ⟨entry, decoded⟩
  rw [FjallStore.currentValue, decoded] at failed
  simp only at failed
  split at failed
  · cases failed
  · cases operand : CounterValue.fromStored entry.value with
    | ok current =>
        rw [operand] at failed
        cases failed
    | error reason =>
        rw [operand] at failed
        cases failed
        exact ⟨reason, rfl⟩

end IsEntry

/-- No read of the store meets bytes that it cannot decode. -/
structure Decodable (store : Store) : Prop where
  rows : forall storageKey bytes : Bytes, store.data[storageKey]? = some bytes ->
    Exists fun entry : StoredEntry => decodeEntry bytes = .ok entry ∧
      decodeEntryExpiresUnix bytes = .ok (entry.expiresAt.map OffsetDateTime.unixTimestamp)
  get : forall (bucket : BucketId) (key : Key),
    Exists fun found => (eval (FjallStore.get bucket key) store).1 = .ok found
  list : forall (platform : Platform) (bucket : BucketId) (opts : ListOpts) (error : UseCaseError),
    (storage.run (FjallStore.list platform bucket opts).run store).1 ≠ .error (.useCase error)
  increment : forall (now : OffsetDateTime) (bucket : BucketId) (key : Key) (op : CounterOp)
    (expiresAt : Option OffsetDateTime) (error : UseCaseError),
    (eval (FjallStore.increment now bucket key op expiresAt) store).1 = .error error ->
      Exists fun reason => error = .domain reason

theorem mergedValue_error {now : OffsetDateTime} {found : Option Bytes}
    (stored : forall bytes, found = some bytes -> IsEntry bytes) {op : CounterOp} {error : UseCaseError}
    (failed : mergedValue now found op = .error error) : Exists fun reason => error = .domain reason := by
  unfold mergedValue at failed
  cases operand : FjallStore.currentValue now found with
  | error other =>
      rw [operand] at failed
      cases failed
      cases found with
      | none => cases operand
      | some bytes => exact (stored bytes rfl).currentValue_error operand
  | ok current =>
      rw [operand] at failed
      simp only at failed
      split at failed
      next reason _ =>
        cases failed
        exact ⟨reason, rfl⟩
      next merged _ =>
        cases made : merged.intoStored with
        | ok value =>
            rw [made] at failed
            cases failed
        | error reason =>
            rw [made] at failed
            cases failed
            exact ⟨reason, rfl⟩

theorem Indexed.decodable {store : Store} (inv : Indexed store) : Decodable store where
  rows := by
    intro storageKey bytes present
    rcases (inv.isEntry storageKey bytes present).decodeEntry_ok with ⟨entry, decoded⟩
    exact ⟨entry, decoded, decodeEntryExpiresUnix_of_decodeEntry decoded⟩
  get := by
    intro bucket key
    rw [FjallStore.eval_get]
    cases found : store.data[dataStorageKey bucket key]? with
    | none => exact ⟨none, rfl⟩
    | some bytes =>
        rcases (inv.isEntry _ bytes found).decodeEntry_ok with ⟨entry, decoded⟩
        refine ⟨some entry, ?_⟩
        simp only [decoded]
        rfl
  list := by
    intro platform bucket opts error failed
    rw [FjallStore.run_list, listRows_eq platform bucket opts inv.isEntry] at failed
    cases granted : bufferOf platform opts with
    | error refused =>
        rw [granted] at failed
        cases failed
        rcases bufferOf_error granted with impossible | impossible <;> cases impossible
    | ok =>
        rw [granted] at failed
        cases failed
  increment := by
    intro now bucket key op expiresAt error failed
    rw [FjallStore.eval_increment] at failed
    split at failed
    next reason merged =>
      cases failed
      exact mergedValue_error (fun bytes found => inv.isEntry _ bytes found) merged
    next => cases failed

/-- Entries read back as they were written, up to the whole second of the
expiry; both readers agree on every input; and after every run of the key
store each row decodes wherever it is read. -/
theorem entry_codec_round_trip :
    (forall (value : StoredValue) (expiresAt : Option OffsetDateTime), Exists fun bytes =>
      encodeEntry value expiresAt = .ok bytes ∧
      bytes = EntryCodec.serialize ⟨value.payload, value.kind, expiresAt.map OffsetDateTime.unixTimestamp⟩ ∧
      decodeEntry bytes = .ok ⟨value, expiresAt.map OffsetDateTime.floorSecond⟩) ∧
    (forall (bytes : Bytes) (entry : StoredEntry), decodeEntry bytes = .ok entry ->
      decodeEntryExpiresUnix bytes = .ok (entry.expiresAt.map OffsetDateTime.unixTimestamp)) ∧
    (forall commands : List StoreCommand, Decodable (commands.foldl StoreCommand.perform Store.empty)) := by
  refine ⟨?_, ?_, ?_⟩
  · intro value expiresAt
    exact ⟨entryBytes value expiresAt, rfl, EntryCodec.toAllocvec_eq_serialize _,
      decodeEntry_entryBytes value expiresAt⟩
  · intro bytes entry decoded
    exact decodeEntryExpiresUnix_of_decodeEntry decoded
  · intro commands
    exact (StoreCommand.run_indexed commands Indexed.empty).decodable

/-! ## The expiry index -/

theorem expiryIndexKey_lt_iff (left right : Int64) (leftKey rightKey : Bytes) :
    expiryIndexKey left leftKey < expiryIndexKey right rightKey ↔
      left < right ∨ left = right ∧ leftKey < rightKey := by
  rw [← Bytes.compare_eq_lt_iff, compare_expiryIndexKey, Ordering.then_eq_lt, Std.compare_eq_lt,
    Std.compare_eq_iff_eq, Bytes.compare_eq_lt_iff, Int64.lt_iff_toInt_lt, Int64.toInt_inj]

/-- In an ascending iteration, every row after one in the future that parses
is in the future. -/
theorem future_of_iter {keyspace : Keyspace} {before after : List (Bytes × Bytes)} {row : Bytes × Bytes}
    (iterated : keyspace.iter = before ++ row :: after) {nowTs expiresUnix : Int64} {storageKey : Bytes}
    (parsed : parseExpiryIndexKey row.1 = some (expiresUnix, storageKey)) (future : nowTs < expiresUnix)
    {later : Bytes × Bytes} (member : later ∈ after) {laterUnix : Int64} {laterKey : Bytes}
    (laterParsed : parseExpiryIndexKey later.1 = some (laterUnix, laterKey)) : nowTs < laterUnix := by
  have ascending := keyspace.iter_ascending
  rw [iterated] at ascending
  have order := (List.pairwise_cons.mp (List.pairwise_append.mp ascending).2.1).1 later member
  rw [(expiryIndexKey_of_parse parsed).1, (expiryIndexKey_of_parse laterParsed).1] at order
  exact future_of_ascending order future

/-- Keys of the expiry index are an order-preserving bijection, so that an
ascending iteration has nothing due after its first row in the future. -/
theorem expiry_index_key_order_bijection :
    (forall (left right : Int64) (leftKey rightKey : Bytes), leftKey ≠ [] -> rightKey ≠ [] ->
      (expiryIndexKey left leftKey < expiryIndexKey right rightKey ↔
        left < right ∨ left = right ∧ leftKey < rightKey)) ∧
    (forall (expiresUnix : Int64) (storageKey : Bytes), storageKey ≠ [] ->
      parseExpiryIndexKey (expiryIndexKey expiresUnix storageKey) = some (expiresUnix, storageKey)) ∧
    (forall (key storageKey : Bytes) (expiresUnix : Int64),
      parseExpiryIndexKey key = some (expiresUnix, storageKey) ->
        key = expiryIndexKey expiresUnix storageKey ∧ storageKey ≠ []) ∧
    (forall (keyspace : Keyspace) (before after : List (Bytes × Bytes)) (row : Bytes × Bytes)
      (nowTs expiresUnix : Int64) (storageKey : Bytes), keyspace.iter = before ++ row :: after ->
      parseExpiryIndexKey row.1 = some (expiresUnix, storageKey) -> nowTs < expiresUnix ->
      forall later, later ∈ after -> forall (laterUnix : Int64) (laterKey : Bytes),
        parseExpiryIndexKey later.1 = some (laterUnix, laterKey) -> nowTs < laterUnix) := by
  refine ⟨?_, ?_, ?_, ?_⟩
  · intro left right leftKey rightKey _ _
    exact expiryIndexKey_lt_iff left right leftKey rightKey
  · intro expiresUnix storageKey nonempty
    exact parseExpiryIndexKey_expiryIndexKey expiresUnix nonempty
  · intro key storageKey expiresUnix parsed
    exact expiryIndexKey_of_parse parsed
  · intro keyspace before after row nowTs expiresUnix storageKey iterated parsed future later member laterUnix
      laterKey laterParsed
    exact future_of_iter iterated parsed future member laterParsed

end Keydock
