import Keydock.Foundation.Postcard
import Keydock.Usecase.Ports

/-!
# Storage layout

The names under which entries and expiry-index rows are stored, and the codec
of entries.

An entry of bucket `b` and key `k` is stored under `b:k`.  Its index row is
the expiry second, shifted so that the byte order is the numerical order,
followed by a colon and the storage key.
-/

namespace Keydock

/-! ## Storage keys -/

def separator : UInt8 := 0x3A

def dataStorageKey (bucket : BucketId) (key : Key) : Bytes :=
  Bytes.utf8 bucket.asStr ++ separator :: key.asBytes

/-- The prefix of a scan over a bucket, optionally narrowed by a key prefix. -/
def dataKeyPrefix (bucket : BucketId) (userPrefix : Option Bytes) : Bytes :=
  Bytes.utf8 bucket.asStr ++ separator :: userPrefix.getD []

/-- What follows a prefix, when the bytes start with it. -/
def stripPrefix (start bytes : Bytes) : Option Bytes :=
  if start.isPrefixOf bytes then some (bytes.drop start.length) else none

/-- The key of a bucket that is stored under a storage key. -/
def userKeyFromStorageKey (storageKey : Bytes) (bucket : BucketId) : Option Key :=
  match stripPrefix (Bytes.utf8 bucket.asStr) storageKey with
  | none => none
  | some rest =>
      match stripPrefix [separator] rest with
      | none => none
      | some rest => (Key.fromBytes rest).toOption

theorem stripPrefix_append (start rest : Bytes) : stripPrefix start (start ++ rest) = some rest := by
  have starts : start.isPrefixOf (start ++ rest) = true :=
    List.isPrefixOf_iff_prefix.mpr (List.prefix_append start rest)
  simp only [stripPrefix, starts, if_true, List.drop_left]

theorem append_of_stripPrefix {start bytes rest : Bytes} (stripped : stripPrefix start bytes = some rest) :
    bytes = start ++ rest := by
  unfold stripPrefix at stripped
  split at stripped
  next starts =>
    cases stripped
    rcases List.isPrefixOf_iff_prefix.mp starts with ⟨tail, rfl⟩
    rw [List.drop_left]
  next => cases stripped

@[simp] theorem userKeyFromStorageKey_dataStorageKey (bucket : BucketId) (key : Key) :
    userKeyFromStorageKey (dataStorageKey bucket key) bucket = some key := by
  have second : stripPrefix [separator] (separator :: key.asBytes) = some key.asBytes :=
    stripPrefix_append [separator] key.asBytes
  simp only [userKeyFromStorageKey, dataStorageKey, stripPrefix_append, second, Key.fromBytes_asBytes]
  rfl

/-- A storage key belongs to at most one key of a bucket. -/
theorem userKeyFromStorageKey_eq_some {storageKey : Bytes} {bucket : BucketId} {key : Key} :
    userKeyFromStorageKey storageKey bucket = some key ↔ storageKey = dataStorageKey bucket key := by
  constructor
  · intro parsed
    unfold userKeyFromStorageKey at parsed
    split at parsed
    next => cases parsed
    next rest first =>
      split at parsed
      next => cases parsed
      next user second =>
        cases made : Key.fromBytes user with
        | error _ => rw [made] at parsed; cases parsed
        | ok found =>
            rw [made] at parsed
            cases parsed
            rw [append_of_stripPrefix first, append_of_stripPrefix second, dataStorageKey,
              Key.asBytes_of_fromBytes made]
            rfl
  · rintro rfl
    exact userKeyFromStorageKey_dataStorageKey bucket key

/-- A scan of a bucket visits the keys of the bucket that start with the prefix. -/
theorem prefix_dataStorageKey {bucket : BucketId} {start : Option Bytes} {key : Key} :
    dataKeyPrefix bucket start <+: dataStorageKey bucket key ↔ start.getD [] <+: key.asBytes := by
  unfold dataKeyPrefix dataStorageKey
  rw [List.prefix_append_right_inj, List.cons_prefix_cons, and_iff_right rfl]

theorem dataStorageKey_ne_nil (bucket : BucketId) (key : Key) : dataStorageKey bucket key ≠ [] := by
  simp [dataStorageKey]

theorem dataStorageKey_key_injective {bucket : BucketId} {left right : Key}
    (same : dataStorageKey bucket left = dataStorageKey bucket right) : left = right := by
  have parsed := congrArg (fun storageKey => userKeyFromStorageKey storageKey bucket) same
  simpa using parsed

/-- Storage keys of buckets with colon-free ids determine bucket and key. -/
theorem dataStorageKey_injective {first second : Uuid} {left right : Key}
    (same : dataStorageKey first.bucketId left = dataStorageKey second.bucketId right) :
    first.bucketId = second.bucketId ∧ left = right := by
  have parts := Bytes.append_separator_inj first.colon_not_mem_utf8 second.colon_not_mem_utf8 same
  exact ⟨BucketId.ext_str (Bytes.utf8_injective parts.1), Key.ext_bytes parts.2⟩

/-! ## Errors of the adapter -/

inductive FjallError
  | fjall (message : String)
  | adapter (message : String)
  | codec (message : String)
  deriving DecidableEq, Repr

namespace FjallError

def toUseCaseError : FjallError -> UseCaseError
  | .fjall message => .storage message
  | .adapter message => .storage ("storage adapter error: " ++ message)
  | .codec message => .storage ("storage codec error: " ++ message)

end FjallError

/-! ## Entries -/

namespace ValueKind

/-- The index of the variant. -/
def index : ValueKind -> Nat
  | .raw => 0
  | .utf8 => 1
  | .int64 => 2
  | .float64 => 3
  | .json => 4

def ofIndex : Nat -> Option ValueKind
  | 0 => some .raw
  | 1 => some .utf8
  | 2 => some .int64
  | 3 => some .float64
  | 4 => some .json
  | _ => none

@[simp] theorem ofIndex_index (kind : ValueKind) : ofIndex kind.index = some kind := by
  cases kind <;> rfl

end ValueKind

/-- The record in which an entry is stored. -/
structure EntryCodec where
  payload : Bytes
  kind : ValueKind
  expiresUnix : Option Int64
  deriving DecidableEq

namespace EntryCodec

def toAllocvec (codec : EntryCodec) : Bytes :=
  Postcard.bytes codec.payload ++ Postcard.varintU32 codec.kind.index ++
    Postcard.option Postcard.i64 codec.expiresUnix

/-- Bytes after the record are ignored. -/
def fromBytes (bytes : Bytes) : Option EntryCodec :=
  match Postcard.takeBytes bytes with
  | none => none
  | some (payload, rest) =>
      match Postcard.takeVarintU32 rest with
      | none => none
      | some (variant, rest) =>
          match ValueKind.ofIndex variant with
          | none => none
          | some kind =>
              match Postcard.takeOption Postcard.takeI64 rest with
              | none => none
              | some (expiresUnix, _) => some ⟨payload, kind, expiresUnix⟩

theorem fromBytes_toAllocvec (codec : EntryCodec) (bounded : codec.payload.length < 2 ^ 64) :
    fromBytes codec.toAllocvec = some codec := by
  have index : codec.kind.index < 2 ^ 32 := by cases codec.kind <;> decide
  have expiry : Postcard.takeOption Postcard.takeI64 (Postcard.option Postcard.i64 codec.expiresUnix) =
      some (codec.expiresUnix, []) := by
    have whole := Postcard.takeOption_option Postcard.takeI64_i64 codec.expiresUnix []
    rwa [List.append_nil] at whole
  simp only [fromBytes, toAllocvec, List.append_assoc, Postcard.takeBytes_bytes bounded,
    Postcard.takeVarintU32_varintU32 index, ValueKind.ofIndex_index, expiry]

end EntryCodec

def encodeEntry (value : StoredValue) (expiresAt : Option OffsetDateTime) : Except FjallError Bytes :=
  .ok (EntryCodec.toAllocvec ⟨value.payload, value.kind, expiresAt.map OffsetDateTime.unixTimestamp⟩)

def expiresAtFromUnix (timestamp : Int64) : Except FjallError OffsetDateTime :=
  match OffsetDateTime.fromUnixTimestamp timestamp with
  | some instant => .ok instant
  | none => .error (.codec "timestamp must be in the range")

def decodeEntryExpiresUnix (bytes : Bytes) : Except FjallError (Option Int64) :=
  match EntryCodec.fromBytes bytes with
  | some codec => .ok codec.expiresUnix
  | none => .error (.codec "postcard decode")

def decodeEntry (bytes : Bytes) : Except FjallError StoredEntry :=
  match EntryCodec.fromBytes bytes with
  | none => .error (.codec "postcard decode")
  | some codec =>
      match StoredValue.new codec.payload codec.kind with
      | .error _ => .error (.codec "value exceeds maximum length")
      | .ok value =>
          match codec.expiresUnix with
          | none => .ok ⟨value, none⟩
          | some timestamp =>
              match expiresAtFromUnix timestamp with
              | .error error => .error error
              | .ok instant => .ok ⟨value, some instant⟩

/-- The bytes stored for a value with an expiry. -/
def entryBytes (value : StoredValue) (expiresAt : Option OffsetDateTime) : Bytes :=
  EntryCodec.toAllocvec ⟨value.payload, value.kind, expiresAt.map OffsetDateTime.unixTimestamp⟩

@[simp] theorem encodeEntry_eq (value : StoredValue) (expiresAt : Option OffsetDateTime) :
    encodeEntry value expiresAt = .ok (entryBytes value expiresAt) := rfl

private theorem fromBytes_entryBytes (value : StoredValue) (expiresAt : Option OffsetDateTime) :
    EntryCodec.fromBytes (entryBytes value expiresAt) =
      some ⟨value.payload, value.kind, expiresAt.map OffsetDateTime.unixTimestamp⟩ :=
  EntryCodec.fromBytes_toAllocvec _ (Nat.lt_of_le_of_lt value.bounded (by decide))

@[simp] theorem decodeEntryExpiresUnix_entryBytes (value : StoredValue)
    (expiresAt : Option OffsetDateTime) :
    decodeEntryExpiresUnix (entryBytes value expiresAt) =
      .ok (expiresAt.map OffsetDateTime.unixTimestamp) := by
  simp only [decodeEntryExpiresUnix, fromBytes_entryBytes]

/-- An entry reads back with its expiry rounded to the whole second. -/
@[simp] theorem decodeEntry_entryBytes (value : StoredValue) (expiresAt : Option OffsetDateTime) :
    decodeEntry (entryBytes value expiresAt) =
      .ok ⟨value, expiresAt.map OffsetDateTime.floorSecond⟩ := by
  simp only [decodeEntry, fromBytes_entryBytes, StoredValue.new_payload_kind]
  cases expiresAt with
  | none => rfl
  | some expiry =>
      simp only [Option.map_some, expiresAtFromUnix, OffsetDateTime.fromUnixTimestamp_unixTimestamp]

/-! ## The expiry index -/

def encodeOrderedI64 (timestamp : Int64) : Bytes :=
  Bytes.toBigEndian 8 (timestamp.toUInt64 ^^^ 0x8000000000000000).toNat

def decodeOrderedI64 (bytes : Bytes) : Int64 :=
  (UInt64.ofNat (Bytes.ofBigEndian bytes) ^^^ 0x8000000000000000).toInt64

def expiryKeyHeaderLen : Nat := 8 + 1

def expiryIndexKey (expiresUnix : Int64) (storageKey : Bytes) : Bytes :=
  encodeOrderedI64 expiresUnix ++ separator :: storageKey

def parseExpiryIndexKey (key : Bytes) : Option (Int64 × Bytes) :=
  if key.length ≤ expiryKeyHeaderLen then none
  else if key[8]? ≠ some separator then none
  else some (decodeOrderedI64 (key.take 8), key.drop expiryKeyHeaderLen)

@[simp] theorem length_encodeOrderedI64 (timestamp : Int64) : (encodeOrderedI64 timestamp).length = 8 :=
  Bytes.length_toBigEndian 8 _

@[simp] theorem decodeOrderedI64_encodeOrderedI64 (timestamp : Int64) :
    decodeOrderedI64 (encodeOrderedI64 timestamp) = timestamp := by
  have bound : (timestamp.toUInt64 ^^^ 0x8000000000000000).toNat < 256 ^ 8 :=
    (timestamp.toUInt64 ^^^ 0x8000000000000000).toNat_lt
  rw [decodeOrderedI64, encodeOrderedI64, Bytes.ofBigEndian_toBigEndian bound, UInt64.ofNat_toNat,
    UInt64.xor_assoc, UInt64.xor_self, UInt64.xor_zero, Int64.toInt64_toUInt64]

theorem parseExpiryIndexKey_expiryIndexKey (expiresUnix : Int64) {storageKey : Bytes}
    (nonempty : storageKey ≠ []) :
    parseExpiryIndexKey (expiryIndexKey expiresUnix storageKey) = some (expiresUnix, storageKey) := by
  have header : (encodeOrderedI64 expiresUnix).length = 8 := length_encodeOrderedI64 expiresUnix
  have positive : 0 < storageKey.length := List.length_pos_iff.mpr nonempty
  have long : ¬ (expiryIndexKey expiresUnix storageKey).length ≤ expiryKeyHeaderLen := by
    simp only [expiryIndexKey, List.length_append, List.length_cons, header, expiryKeyHeaderLen]
    omega
  have mark : (expiryIndexKey expiresUnix storageKey)[8]? = some separator := by
    rw [expiryIndexKey, List.getElem?_append_right (by omega), header]
    rfl
  have head : (expiryIndexKey expiresUnix storageKey).take 8 = encodeOrderedI64 expiresUnix := by
    rw [expiryIndexKey, ← header, List.take_left]
  have tail : (expiryIndexKey expiresUnix storageKey).drop expiryKeyHeaderLen = storageKey := by
    rw [expiryIndexKey, show expiryKeyHeaderLen = (encodeOrderedI64 expiresUnix).length + 1 by
      rw [header]; rfl, List.drop_append]
    rfl
  simp only [parseExpiryIndexKey, if_neg long, mark, ne_eq, not_true, if_false, head, tail,
    decodeOrderedI64_encodeOrderedI64]

theorem encodeOrderedI64_decodeOrderedI64 {bytes : Bytes} (eight : bytes.length = 8) :
    encodeOrderedI64 (decodeOrderedI64 bytes) = bytes := by
  have bound : Bytes.ofBigEndian bytes < 2 ^ 64 := by
    have small := Bytes.ofBigEndian_lt bytes
    rwa [eight] at small
  have word : (UInt64.ofNat (Bytes.ofBigEndian bytes)).toNat = Bytes.ofBigEndian bytes := by
    rw [UInt64.toNat_ofNat', Nat.mod_eq_of_lt bound]
  rw [encodeOrderedI64, decodeOrderedI64, UInt64.toUInt64_toInt64, UInt64.xor_assoc, UInt64.xor_self,
    UInt64.xor_zero, word, ← eight, Bytes.toBigEndian_ofBigEndian]

/-- Whatever parses as an index key is the index key of what it parses to. -/
theorem expiryIndexKey_of_parse {key storageKey : Bytes} {expiresUnix : Int64}
    (parsed : parseExpiryIndexKey key = some (expiresUnix, storageKey)) :
    key = expiryIndexKey expiresUnix storageKey ∧ storageKey ≠ [] := by
  unfold parseExpiryIndexKey at parsed
  split at parsed
  next => cases parsed
  next long =>
    split at parsed
    next => cases parsed
    next mark =>
      cases parsed
      have length : 9 < key.length := Nat.not_le.mp long
      have eight : (key.take 8).length = 8 := List.length_take_of_le (by omega)
      have ninth : key.drop 8 = separator :: key.drop expiryKeyHeaderLen := by
        have here : key[8]? = some separator := by simpa using mark
        rw [List.getElem?_eq_getElem (by omega)] at here
        rw [List.drop_eq_getElem_cons (by omega), Option.some.inj here]
        rfl
      refine ⟨?_, ?_⟩
      · rw [expiryIndexKey, encodeOrderedI64_decodeOrderedI64 eight, ← ninth, List.take_append_drop]
      · intro empty
        have short := congrArg List.length empty
        rw [List.length_drop, List.length_nil] at short
        unfold expiryKeyHeaderLen at short
        omega

/-- Flipping the top bit of an unsigned word moves it by half the range. -/
private theorem xor_topBit {word : Nat} (bound : word < 2 ^ 64) :
    word ^^^ 2 ^ 63 = if word < 2 ^ 63 then word + 2 ^ 63 else word - 2 ^ 63 := by
  have high : (word ^^^ 2 ^ 63) / 2 ^ 63 = word / 2 ^ 63 ^^^ 1 := Nat.xor_div_two_pow
  have low : (word ^^^ 2 ^ 63) % 2 ^ 63 = word % 2 ^ 63 ^^^ 0 := Nat.xor_mod_two_pow
  rw [Nat.xor_zero] at low
  split
  · have top : word / 2 ^ 63 = 0 := by omega
    rw [top, Nat.zero_xor] at high
    omega
  · have top : word / 2 ^ 63 = 1 := by omega
    rw [top, Nat.xor_self] at high
    omega

theorem toNat_ordered (timestamp : Int64) :
    ((timestamp.toUInt64 ^^^ 0x8000000000000000).toNat : Int) = timestamp.toInt + 2 ^ 63 := by
  have bound := timestamp.toUInt64.toNat_lt
  have flipped : (timestamp.toUInt64 ^^^ 0x8000000000000000).toNat = timestamp.toUInt64.toNat ^^^ 2 ^ 63 :=
    UInt64.toNat_xor _ _
  have signed : timestamp.toInt = (timestamp.toUInt64.toNat : Int).bmod (2 ^ 64) :=
    BitVec.toInt_eq_toNat_bmod timestamp.toBitVec
  rw [flipped, xor_topBit bound, signed, Int.bmod_def]
  split <;> split <;> omega

/-- Index keys are ordered by expiry first and by storage key second. -/
theorem compare_expiryIndexKey (left right : Int64) (leftKey rightKey : Bytes) :
    compare (expiryIndexKey left leftKey) (expiryIndexKey right rightKey) =
      (compare left.toInt right.toInt).then (compare leftKey rightKey) := by
  have bound : forall timestamp : Int64, (timestamp.toUInt64 ^^^ 0x8000000000000000).toNat < 256 ^ 8 :=
    fun timestamp => (timestamp.toUInt64 ^^^ 0x8000000000000000).toNat_lt
  have shifted : compare (left.toUInt64 ^^^ 0x8000000000000000).toNat
      (right.toUInt64 ^^^ 0x8000000000000000).toNat = compare left.toInt right.toInt := by
    have leftShift := toNat_ordered left
    have rightShift := toNat_ordered right
    rcases Int.lt_trichotomy left.toInt right.toInt with less | same | more
    · rw [Nat.compare_eq_lt.mpr (by omega), Std.compare_eq_lt.mpr less]
    · rw [Nat.compare_eq_eq.mpr (by omega), same, Std.compare_self]
    · rw [Nat.compare_eq_gt.mpr (by omega), Std.compare_eq_gt.mpr more]
  rw [expiryIndexKey, expiryIndexKey, encodeOrderedI64, encodeOrderedI64,
    Bytes.compare_toBigEndian_append (bound left) (bound right), shifted, List.compare_cons_cons,
    Std.compare_self]
  rfl

end Keydock
