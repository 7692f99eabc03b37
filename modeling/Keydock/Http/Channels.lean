import Keydock.Foundation.Joining
import Keydock.Http.Runs

/-!
# The channels of a credential

A client may present a credential as a Bearer token, as a Basic user name or in
the query.  Each channel carries some texts and changes or drops others: a
Bearer token loses the white space around it and every character a header
cannot hold, a Basic user name ends at the first colon, and the query carries
any text but the empty one.

The names of query parameters are compared as they stand, without decoding,
and the first value that decodes counts.
-/

namespace Keydock

open PercentCoding

/-! ## Queries -/

/-- The values of a parameter, in order; a value that is not text is passed
over. -/
def queryValues (name : String) (pairs : List (List Char)) : List String :=
  pairs.filterMap (fun pair =>
    let (key, value) := (Text.splitOnce '=' pair).getD (pair, [])
    if Text.trim key = name.toList then decodeQueryValue value else none)

theorem queryValues_cons (name : String) (pair : List Char) (rest : List (List Char)) :
    queryValues name (pair :: rest) =
      (if Text.trim ((Text.splitOnce '=' pair).getD (pair, [])).1 = name.toList then
        decodeQueryValue ((Text.splitOnce '=' pair).getD (pair, [])).2 else none).toList ++ queryValues name rest := by
  simp only [queryValues, List.filterMap_cons]
  cases (if Text.trim ((Text.splitOnce '=' pair).getD (pair, [])).1 = name.toList then
        decodeQueryValue ((Text.splitOnce '=' pair).getD (pair, [])).2 else none) <;> rfl

/-- The loop over the pairs keeps, for each parameter, the first value that
decodes. -/
theorem queryCredentials_eq (pairs : List (List Char)) (accessToken keyParam : Option String) :
    queryCredentials pairs (accessToken, keyParam) =
      (accessToken.or (queryValues "access_token" pairs).head?, keyParam.or (queryValues "key" pairs).head?) := by
  induction pairs generalizing accessToken keyParam with
  | nil =>
      simp only [queryCredentials, queryValues, List.filterMap_nil, List.head?_nil, Option.or_none]
  | cons pair rest ih =>
      have apart : "access_token".toList ≠ "key".toList := by decide
      simp only [queryCredentials, queryValues_cons]
      by_cases nothing : pair.isEmpty = true
      · have unnamed : forall name : String, name.toList ≠ [] ->
            Text.trim ((Text.splitOnce '=' pair).getD (pair, [])).1 ≠ name.toList := by
          rw [List.isEmpty_iff.mp nothing]
          exact fun name nonempty same => nonempty same.symm
        rw [if_pos nothing, ih, if_neg (unnamed _ (by decide)), if_neg (unnamed _ (by decide))]
        rfl
      · rw [if_neg nothing]
        generalize (Text.splitOnce '=' pair).getD (pair, []) = parts
        rcases parts with ⟨key, value⟩
        simp only
        by_cases token : Text.trim key = "access_token".toList
        · have other : Text.trim key ≠ "key".toList := fun same => apart (token.symm.trans same)
          cases accessToken with
          | none =>
              rw [if_pos ⟨token, rfl⟩, ih, if_pos token, if_neg other]
              cases decodeQueryValue value <;> rfl
          | some found =>
              rw [if_neg (fun both => by cases both.2), if_neg (fun both => other both.1), ih, if_neg other]
              simp only [Option.some_or, Option.toList_none, List.nil_append]
        · rw [if_neg (fun both => token both.1), if_neg token]
          by_cases param : Text.trim key = "key".toList
          · cases keyParam with
            | none =>
                rw [if_pos ⟨param, rfl⟩, ih, if_pos param]
                cases decodeQueryValue value <;> rfl
            | some found =>
                rw [if_neg (fun both => by cases both.2), ih]
                simp only [Option.some_or, Option.toList_none, List.nil_append]
          · rw [if_neg (fun both => param both.1), ih, if_neg param]
            rfl

/-- A client's query: encoded names and values. -/
def queryPair (param : String × String) : List Char :=
  (encodeURIComponent param.1).toList ++ '=' :: (encodeURIComponent param.2).toList

def queryString (params : List (String × String)) : String :=
  String.ofList (Text.join '&' (params.map queryPair))

theorem queryPair_whole (param : String × String) : '&' ∉ queryPair param := by
  intro member
  have separator : isSeparator '&' = true := by decide
  rcases List.mem_append.mp member with name | value
  · rw [not_separator_of_encoded name] at separator
    cases separator
  · rcases List.mem_cons.mp value with impossible | value
    · cases impossible
    · rw [not_separator_of_encoded value] at separator
      cases separator

theorem splitOnce_queryPair (param : String × String) :
    (Text.splitOnce '=' (queryPair param)).getD (queryPair param, []) =
      ((encodeURIComponent param.1).toList, (encodeURIComponent param.2).toList) := by
  have absent : '=' ∉ (encodeURIComponent param.1).toList := by
    intro member
    have separator : isSeparator '=' = true := by decide
    rw [not_separator_of_encoded member] at separator
    cases separator
  rw [queryPair, Text.splitOnce_append absent]
  rfl

theorem decodeQueryValue_encodeURIComponent (text : String) :
    decodeQueryValue (encodeURIComponent text).toList = some text := by
  rw [decodeQueryValue, String.ofList_toList, percentDecode_encodeURIComponent, Bytes.fromUtf8_utf8]

/-- Of an encoded query, a parameter that needs no escape is found by name. -/
theorem queryValues_queryPair {name : String} (plain : encodeURIComponent name = name)
    (params : List (String × String)) :
    queryValues name (params.map queryPair) = (params.filter (fun param => param.1 = name)).map Prod.snd := by
  induction params with
  | nil => rfl
  | cons param rest ih =>
      have named : Text.trim (encodeURIComponent param.1).toList = name.toList ↔ param.1 = name := by
        rw [trim_encodeURIComponent, String.toList_inj]
        constructor
        · intro same
          exact encodeURIComponent_injective (same.trans plain.symm)
        · rintro rfl
          exact plain
      rw [List.map_cons, queryValues_cons, splitOnce_queryPair, ih, List.filter_cons]
      simp only [named, decodeQueryValue_encodeURIComponent]
      by_cases same : param.1 = name <;> simp [same]

/-- The first value of a parameter. -/
def firstParam (name : String) (params : List (String × String)) : Option String :=
  (params.find? (fun param => param.1 = name)).map Prod.snd

theorem queryValues_queryString {name : String} (plain : encodeURIComponent name = name) (named : name.toList ≠ [])
    (params : List (String × String)) :
    (queryValues name (Text.split '&' (queryString params).toList)).head? = firstParam name params := by
  rw [queryString, String.toList_ofList]
  cases params with
  | nil =>
      change (queryValues name [[]]).head? = none
      rw [queryValues_cons, if_neg (fun same => named same.symm)]
      rfl
  | cons param rest =>
      rw [Text.split_join, queryValues_queryPair plain, List.head?_map, List.head?_filter]
      · rfl
      · intro piece member
        rcases List.mem_map.mp member with ⟨other, _, rfl⟩
        exact queryPair_whole other
      · exact List.cons_ne_nil _ _

theorem extractFromQuery_queryString (params : List (String × String)) :
    (extractFromQuery (queryString params)).map RawCredential.asStr =
      ((firstParam "access_token" params).or (firstParam "key" params)).filter (fun value => value ≠ "") := by
  simp only [extractFromQuery, queryCredentials_eq, Option.none_or]
  rw [queryValues_queryString (by decide +kernel) (by decide), queryValues_queryString (by decide +kernel) (by decide)]
  cases (firstParam "access_token" params).or (firstParam "key" params) with
  | none => rfl
  | some value =>
      simp only
      by_cases empty : value = ""
      · rw [if_pos empty, empty]
        rfl
      · rw [if_neg empty, Option.filter_some, if_pos (by simpa using empty)]
        rfl

/-! ## Basic credentials -/

/-- The encoder of the standard alphabet writes only what a header carries. -/
theorem standard_encode_plain (bytes : Bytes) (c : Char) (member : c ∈ Base64.standard.encode bytes) :
    isHeaderChar c = true ∧ Text.isWhitespace c = false := by
  have checked : Base64.standard.digits.all (fun c => isHeaderChar c && !Text.isWhitespace c) = true := by decide +kernel
  have digits : forall c, c ∈ Base64.standard.digits -> isHeaderChar c = true ∧ Text.isWhitespace c = false := by
    intro c digit
    have both := List.all_eq_true.mp checked c digit
    rw [Bool.and_eq_true, Bool.not_eq_true'] at both
    exact both
  rcases Base64.standard.mem_encode member with digit | rfl
  · exact digits c digit
  · decide

/-- Basic credentials present the text before the first colon; when nothing
stands there, the query is read instead. -/
theorem extract_basic (text : String) (query : Option String) :
    extract (some (Bytes.utf8 ("Basic " ++ String.ofList (Base64.standard.encode (Bytes.utf8 text))))) query =
      ((basicUsernameCredential text.toList).map RawCredential.basic).or (query.bind extractFromQuery) := by
  generalize encoded : Base64.standard.encode (Bytes.utf8 text) = digits
  have plain : forall c, c ∈ digits -> isHeaderChar c = true ∧ Text.isWhitespace c = false := by
    rw [← encoded]
    exact standard_encode_plain (Bytes.utf8 text)
  have carried : ("Basic " ++ String.ofList digits).toList.all isHeaderChar = true := by
    rw [String.toList_append, String.toList_ofList (l := digits), List.all_append, Bool.and_eq_true]
    exact ⟨by decide, List.all_eq_true.mpr (fun c member => (plain c member).1)⟩
  have bearer : bearerCredential ("Basic " ++ String.ofList digits).toList = none := by
    simp [bearerCredential, Text.stripPrefix]
  have stripped : Text.stripPrefix "Basic " ("Basic " ++ String.ofList digits).toList = some digits := by
    simp [Text.stripPrefix]
  have decoded : Base64.standard.decode (Text.trim digits) = some (Bytes.utf8 text) := by
    rw [Text.trim_of_not_whitespace (fun c member => (plain c member).2), ← encoded, Base64.decode_encode]
  have basic : basicCredential ("Basic " ++ String.ofList digits).toList =
      (basicUsernameCredential text.toList).map RawCredential.basic := by
    simp only [basicCredential, stripped, decoded, Option.bind_eq_bind, Option.bind_some, Bytes.fromUtf8_utf8]
    cases basicUsernameCredential text.toList <;> rfl
  simp only [extract, Option.bind_eq_bind, Option.bind_some, headerToStr_utf8, if_pos carried, bearer, basic,
    Option.none_or]

/-- A user name comes through exactly when it holds no colon. -/
theorem basicUsernameCredential_eq_iff (user password : String) :
    basicUsernameCredential (user.toList ++ ':' :: password.toList) = some user ↔
      user ≠ "" ∧ ':' ∉ user.toList := by
  constructor
  · intro same
    unfold basicUsernameCredential at same
    cases parts : Text.splitOnce ':' (user.toList ++ ':' :: password.toList) with
    | none =>
        have colon : ':' ∈ user.toList ++ ':' :: password.toList := List.mem_append_right _ List.mem_cons_self
        have found := Text.splitOnce_isSome colon
        rw [parts] at found
        cases found
    | some found =>
        rcases found with ⟨head, tail⟩
        simp only [parts] at same
        split at same
        next => cases same
        next nonempty =>
          have named : head = user.toList := by rw [← Option.some.inj same, String.toList_ofList]
          have absent := Text.absent_of_splitOnce parts
          rw [named] at absent nonempty
          refine ⟨?_, absent⟩
          rintro rfl
          exact nonempty rfl
  · rintro ⟨nonempty, absent⟩
    have something : user.toList.isEmpty ≠ true := by
      intro empty
      exact nonempty (String.toList_inj.mp (List.isEmpty_iff.mp empty))
    simp only [basicUsernameCredential, Text.splitOnce_append absent, if_neg something, String.ofList_toList]

/-- Which texts each channel carries.  As a Bearer token a credential arrives
as it is exactly when it is not empty, has only characters a header carries and
no white space around it; as a Basic user name, with whatever password, exactly
when it is not empty and has no colon.  Of a query the first `access_token`
arrives or, without one, the first `key`, whatever text it is and whatever
other parameters surround it, unless it is empty. -/
theorem credential_channels (credential password : String) (params : List (String × String)) :
    ((extract (some (Bytes.utf8 ("Bearer " ++ credential))) none).map RawCredential.asStr = some credential ↔
      credential ≠ "" ∧ credential.toList.all isHeaderChar = true ∧
        Text.trim credential.toList = credential.toList) ∧
    ((extract (some (Bytes.utf8 ("Basic " ++ String.ofList (Base64.standard.encode
        (Bytes.utf8 (credential ++ ":" ++ password)))))) none).map RawCredential.asStr = some credential ↔
      credential ≠ "" ∧ ':' ∉ credential.toList) ∧
    (extract none (some (queryString params))).map RawCredential.asStr =
      ((firstParam "access_token" params).or (firstParam "key" params)).filter (fun value => value ≠ "") := by
  refine ⟨?_, ?_, ?_⟩
  · rw [extract_bearer]
    constructor
    · intro same
      split at same
      next carried =>
        have trimmed : String.ofList (Text.trim credential.toList) = credential := Option.some.inj same
        have plain : Text.trim credential.toList = credential.toList := by
          rw [← String.toList_ofList (l := Text.trim credential.toList), trimmed]
        refine ⟨?_, carried.1, plain⟩
        rintro rfl
        exact carried.2 rfl
      next => cases same
    · rintro ⟨nonempty, carried, plain⟩
      have something : Text.trim credential.toList ≠ [] := by
        rw [plain]
        exact fun empty => nonempty (String.toList_inj.mp empty)
      rw [if_pos ⟨carried, something⟩, plain, String.ofList_toList]
      rfl
  · have joined : (credential ++ ":" ++ password).toList = credential.toList ++ ':' :: password.toList := by
      simp
    rw [extract_basic, joined, ← basicUsernameCredential_eq_iff credential password]
    cases basicUsernameCredential (credential.toList ++ ':' :: password.toList) <;> simp [RawCredential.asStr]
  · rw [← extractFromQuery_queryString]
    rfl

end Keydock
