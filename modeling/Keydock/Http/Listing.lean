import Keydock.Http.Keys

/-!
# The listing route

A listing is rendered as lines of text, as one JSON array or as one JSON value
a line.  For a scoped identity the requested prefix is narrowed to the scope.
-/

namespace Keydock

open Handler

structure ListBucketParams where
  keyPrefix : Option String
  limit : Option UInt64
  skip : Option UInt64
  reverse : Option Bool
  values : Option Bool
  format : Option String

inductive ListFormat
  | text
  | json
  | jsonl
  deriving DecidableEq

/-- The intersection of a scope with a requested prefix. -/
def combineScopedPrefix (scope : Bytes) : Option Bytes -> Option Bytes
  | none => some scope
  | some requested =>
      if scope.isPrefixOf requested then some requested
      else if requested.isPrefixOf scope then some scope
      else none

/-- The keys under the intersection are those under the scope and under the
requested prefix. -/
theorem prefix_iff_of_combineScopedPrefix {scope combined : Bytes} {requested : Option Bytes}
    (made : combineScopedPrefix scope requested = some combined) (bytes : Bytes) :
    combined <+: bytes ↔ scope <+: bytes ∧ requested.getD [] <+: bytes := by
  cases requested with
  | none =>
      cases made
      exact (and_iff_left List.nil_prefix).symm
  | some requested =>
      simp only [combineScopedPrefix] at made
      split at made
      next inside =>
        cases made
        exact ⟨fun starts => ⟨(List.isPrefixOf_iff_prefix.mp inside).trans starts, starts⟩, And.right⟩
      next =>
        split at made
        next outside =>
          cases made
          exact ⟨fun starts => ⟨starts, (List.isPrefixOf_iff_prefix.mp outside).trans starts⟩, And.left⟩
        next => cases made

/-- Scope and request are incompatible exactly when nothing starts with both. -/
theorem combineScopedPrefix_eq_none_iff (scope : Bytes) (requested : Option Bytes) :
    combineScopedPrefix scope requested = none ↔
      ¬Exists fun bytes : Bytes => scope <+: bytes ∧ requested.getD [] <+: bytes := by
  constructor
  · rintro incompatible ⟨bytes, inScope, asked⟩
    cases requested with
    | none => cases incompatible
    | some requested =>
        simp only [combineScopedPrefix] at incompatible
        rw [Option.getD_some] at asked
        -- Two prefixes of one byte string are prefixes of one another.
        rcases List.prefix_or_prefix_of_prefix inScope asked with inside | outside
        · rw [if_pos (List.isPrefixOf_iff_prefix.mpr inside)] at incompatible
          cases incompatible
        · rw [if_pos (List.isPrefixOf_iff_prefix.mpr outside)] at incompatible
          split at incompatible <;> cases incompatible
  · intro separate
    cases made : combineScopedPrefix scope requested with
    | none => rfl
    | some combined =>
        exact False.elim (separate ⟨combined, (prefix_iff_of_combineScopedPrefix made combined).mp List.prefix_rfl⟩)

def resolveListFormat (params : ListBucketParams) (accept : Option Bytes) : Except Response ListFormat :=
  match params.format with
  | some format =>
      let lower := Text.toAsciiLowercase format.toList
      if lower = "text".toList then .ok .text
      else if lower = "json".toList then .ok .json
      else if lower = "jsonl".toList then .ok .jsonl
      else .error notAcceptable
  | none =>
      match accept.bind headerToStr with
      | none => .ok .text
      | some accept =>
          if Text.contains "application/json" accept then .ok .json
          else if Text.contains "application/x-ndjson" accept || Text.contains "application/ndjson" accept then
            .ok .jsonl
          else if Text.contains "text/plain" accept then .ok .text
          else .ok .text

/-! ## Rendering -/

def keyToJsonString (key : Key) : List Char :=
  Text.fromUtf8Lossy key.asBytes

/-- Newlines and carriage returns are escaped; a backslash is not. -/
def escapeTextSegment (text : List Char) : List Char :=
  Text.replaceChar '\r' "\\r" (Text.replaceChar '\n' "\\n" text)

def storedValueToJson (platform : Platform) (value : StoredValue) : Except Response Json :=
  match value.kind with
  | .json =>
      match platform.json.fromSlice value.payload with
      | some tree => if tree.readable then .ok tree.toValue else .error internalError
      | none => .error internalError
  | .int64 =>
      match (Bytes.fromUtf8 value.payload).bind (fun text => Text.parseI64 (Text.trim text.toList)) with
      | some number => .ok (Json.ofInt64 number)
      | none => .error internalError
  | .float64 =>
      match (Bytes.fromUtf8 value.payload).bind (fun text => Binary64.parse (Text.trim text.toList)) with
      | some number => if number.isFinite then .ok (.float number) else .error internalError
      | none => .error internalError
  | .utf8 =>
      match Bytes.fromUtf8 value.payload with
      | some text => .ok (.str text)
      | none => .error internalError
  | .raw => .ok (Json.ofBytes value.payload)

def listContentType : ListFormat -> String
  | .text => "text/plain; charset=utf-8"
  | .json => "application/json"
  | .jsonl => "application/x-ndjson"

/-- One line of the text format. -/
def renderTextRow (includeValues : Bool) (row : ListEntry) : Except Response (List Char) :=
  let key := escapeTextSegment (keyToJsonString row.key)
  if includeValues then
    match row.value with
    | none => .error internalError
    | some value => .ok (key ++ '=' :: escapeTextSegment (Text.fromUtf8Lossy value.payload))
  else .ok key

def renderListText (includeValues : Bool) (entries : List ListEntry) : Except Response Bytes := do
  let lines <- entries.mapM (renderTextRow includeValues)
  return Bytes.utf8 (String.ofList (List.intercalate ['\n'] lines))

/-- One element of a JSON listing. -/
def renderJsonRow (platform : Platform) (includeValues : Bool) (row : ListEntry) : Except Response Json :=
  let key := Json.str (String.ofList (keyToJsonString row.key))
  if includeValues then
    match row.value with
    | none => .error internalError
    | some value => (storedValueToJson platform value).map (fun content => .arr [key, content])
  else .ok key

def writeJson (platform : Platform) (tree : Json) : Except Response Bytes :=
  match platform.json.toVec tree with
  | none => .error internalError
  | some bytes => .ok bytes

def renderListJson (platform : Platform) (includeValues : Bool) (entries : List ListEntry) :
    Except Response Bytes := do
  let rows <- entries.mapM (renderJsonRow platform includeValues)
  writeJson platform (.arr rows)

/-- One line of the line-wise JSON format. -/
def renderJsonLine (platform : Platform) (includeValues : Bool) (row : ListEntry) : Except Response Bytes := do
  let line <- renderJsonRow platform includeValues row
  let chunk <- writeJson platform line
  return chunk ++ [0x0A]

def renderListJsonl (platform : Platform) (includeValues : Bool) (entries : List ListEntry) :
    Except Response Bytes := do
  let chunks <- entries.mapM (renderJsonLine platform includeValues)
  return chunks.flatten

def renderListBody (platform : Platform) (format : ListFormat) (entries : List ListEntry)
    (includeValues : Bool) : Except Response Bytes :=
  match format with
  | .text => renderListText includeValues entries
  | .json => renderListJson platform includeValues entries
  | .jsonl => renderListJsonl platform includeValues entries

/-! ## The handler -/

/-- The prefix the repository is asked for; `none` when scope and request are
incompatible. -/
def prefixForRepo (identity : ResolvedIdentity) (requested : Option String) : Option (Option Bytes) :=
  match identity with
  | .scoped _ keyPrefix =>
      if keyPrefix.isEmpty then some (requested.map Bytes.utf8)
      else (combineScopedPrefix keyPrefix (requested.map Bytes.utf8)).map some
  | _ => some (requested.map Bytes.utf8)

theorem prefix_iff_of_prefixForRepo {permissions : Permission} {scope : Bytes} {requested : Option String}
    {keyPrefix : Option Bytes} (narrowed : prefixForRepo (.scoped permissions scope) requested = some keyPrefix)
    (bytes : Bytes) :
    keyPrefix.getD [] <+: bytes ↔ scope <+: bytes ∧ (requested.map Bytes.utf8).getD [] <+: bytes := by
  simp only [prefixForRepo] at narrowed
  split at narrowed
  next empty =>
    cases narrowed
    rw [List.isEmpty_iff.mp empty]
    exact (and_iff_right List.nil_prefix).symm
  next =>
    rcases Option.map_eq_some_iff.mp narrowed with ⟨combined, made, rfl⟩
    exact prefix_iff_of_combineScopedPrefix made bytes

theorem prefixForRepo_eq_none_iff (permissions : Permission) (scope : Bytes) (requested : Option String) :
    prefixForRepo (.scoped permissions scope) requested = none ↔
      combineScopedPrefix scope (requested.map Bytes.utf8) = none := by
  simp only [prefixForRepo]
  split
  next empty =>
    rw [List.isEmpty_iff.mp empty]
    cases requested <;> simp [combineScopedPrefix]
  next => exact Option.map_eq_none_iff

def listResponse (platform : Platform) (format : ListFormat) (entries : List ListEntry) (includeValues : Bool) :
    Except Response Response := do
  let body <- renderListBody platform format entries includeValues
  return Response.ofBytes (listContentType format) body

def listBucket (state : AppState) (clock : Clock) (auth : BucketAuth) (params : Except Response ListBucketParams)
    (accept : Option Bytes) : Handler Response := do
  let params <- known params
  known auth.requireEnumerate
  let format <- known (resolveListFormat params accept)
  let includeValues := params.values.getD false
  match prefixForRepo auth.identity params.keyPrefix with
  | none => known (listResponse state.platform format [] includeValues)
  | some keyPrefix =>
      let entries <- spawnUsecase (KeyService.list (clock 1) auth.bucketId
        { keyPrefix := keyPrefix
          limit := params.limit
          skip := params.skip
          reverse := params.reverse
          includeValues := some includeValues })
      known (listResponse state.platform format entries includeValues)

end Keydock
