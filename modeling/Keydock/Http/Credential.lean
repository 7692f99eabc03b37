import Keydock.Foundation.Base64
import Keydock.Foundation.PercentCoding
import Keydock.Foundation.Text

/-!
# Credentials on the wire

Extraction of a credential from the `Authorization` header or the query
string.  The header wins over the query; inside the header a Bearer token wins
over Basic user names, and in the query `access_token` wins over `key`.
-/

namespace Keydock

/-- A credential as presented. -/
inductive RawCredential
  | bearer (credential : String)
  | basic (credential : String)
  | queryParam (credential : String)
  deriving DecidableEq

namespace RawCredential

def asStr : RawCredential -> String
  | .bearer credential => credential
  | .basic credential => credential
  | .queryParam credential => credential

end RawCredential

/-- A header value as text; only visible ASCII, spaces and tabs qualify. -/
def headerToStr (value : Bytes) : Option (List Char) :=
  if value.all (fun byte => (0x20 ≤ byte.toNat && byte.toNat < 0x7F) || byte.toNat == 0x09) then
    some (value.map (fun byte => Char.ofNat byte.toNat))
  else none

/-- The user name of decoded Basic credentials; the password is ignored. -/
def basicUsernameCredential (decoded : List Char) : Option String :=
  let user :=
    match Text.splitOnce ':' decoded with
    | some (user, _) => user
    | none => decoded
  if user.isEmpty then none else some (String.ofList user)

def decodeQueryValue (value : List Char) : Option String :=
  Bytes.fromUtf8 (PercentCoding.percentDecode (Bytes.utf8 (String.ofList value)))

/-- The two query parameters after the pairs read so far. -/
def queryCredentials : List (List Char) -> Option String × Option String -> Option String × Option String
  | [], found => found
  | pair :: rest, (accessToken, keyParam) =>
      if pair.isEmpty then queryCredentials rest (accessToken, keyParam)
      else
        let (name, value) := (Text.splitOnce '=' pair).getD (pair, [])
        let name := Text.trim name
        if name = "access_token".toList ∧ accessToken = none then
          queryCredentials rest (decodeQueryValue value, keyParam)
        else if name = "key".toList ∧ keyParam = none then
          queryCredentials rest (accessToken, decodeQueryValue value)
        else queryCredentials rest (accessToken, keyParam)

def extractFromQuery (query : String) : Option RawCredential :=
  let (accessToken, keyParam) := queryCredentials (Text.split '&' query.toList) (none, none)
  match accessToken.or keyParam with
  | none => none
  | some value => if value = "" then none else some (.queryParam value)

def bearerCredential (auth : List Char) : Option RawCredential :=
  match Text.stripPrefix "Bearer " auth with
  | none => none
  | some rest =>
      let token := Text.trim rest
      if token.isEmpty then none else some (.bearer (String.ofList token))

def basicCredential (auth : List Char) : Option RawCredential := do
  let rest <- Text.stripPrefix "Basic " auth
  let bytes <- Base64.standard.decode (Text.trim rest)
  let decoded <- Bytes.fromUtf8 bytes
  let credential <- basicUsernameCredential decoded.toList
  return .basic credential

def extract (authorization : Option Bytes) (query : Option String) : Option RawCredential :=
  let fromHeader : Option RawCredential := do
    let auth <- authorization.bind headerToStr
    (bearerCredential auth).or (basicCredential auth)
  fromHeader.or (query.bind extractFromQuery)

/-! ## Texts in a header -/

/-- A character that a header may carry as text. -/
def isHeaderChar (c : Char) : Bool :=
  (0x20 ≤ c.toNat && c.toNat < 0x7F) || c.toNat == 0x09

theorem isHeaderChar_ascii {c : Char} (shown : isHeaderChar c = true) : c.toNat < 128 := by
  simp only [isHeaderChar, Bool.or_eq_true, Bool.and_eq_true, decide_eq_true_eq, beq_iff_eq] at shown
  omega

/-- A text sent as its UTF-8 bytes arrives exactly when a header may carry each
of its characters. -/
theorem headerToStr_utf8 (text : String) :
    headerToStr (Bytes.utf8 text) = if text.toList.all isHeaderChar then some text.toList else none := by
  rw [Bytes.utf8_toList]
  generalize text.toList = chars
  by_cases shown : chars.all isHeaderChar = true
  · have plain : chars.flatMap String.utf8EncodeChar = chars.map (fun c => UInt8.ofNat c.toNat) := by
      rw [List.map_eq_flatMap]
      apply List.flatMap_congr
      intro c member
      exact Bytes.utf8EncodeChar_ascii (isHeaderChar_ascii (List.all_eq_true.mp shown c member))
    have code : forall c, c ∈ chars -> (UInt8.ofNat c.toNat).toNat = c.toNat := by
      intro c member
      have ascii := isHeaderChar_ascii (List.all_eq_true.mp shown c member)
      rw [UInt8.toNat_ofNat', Nat.mod_eq_of_lt (by omega)]
    have visible : (chars.map (fun c => UInt8.ofNat c.toNat)).all (fun byte =>
        (0x20 ≤ byte.toNat && byte.toNat < 0x7F) || byte.toNat == 0x09) = true := by
      rw [List.all_map, List.all_eq_true]
      intro c member
      simp only [Function.comp, code c member]
      exact List.all_eq_true.mp shown c member
    have same : (chars.map (fun c => UInt8.ofNat c.toNat)).map (fun byte => Char.ofNat byte.toNat) = chars := by
      rw [List.map_map]
      refine (List.map_congr_left (fun c member => ?_)).trans (List.map_id _)
      simp only [Function.comp, code c member, Char.ofNat_toNat, id]
    rw [headerToStr, plain, if_pos visible, same, if_pos shown]
  · have lost : (chars.flatMap String.utf8EncodeChar).all (fun byte =>
        (0x20 ≤ byte.toNat && byte.toNat < 0x7F) || byte.toNat == 0x09) ≠ true := by
      intro visible
      rw [List.all_eq_true] at visible
      refine shown (List.all_eq_true.mpr (fun c member => ?_))
      by_cases ascii : c.toNat < 128
      · have here := visible (UInt8.ofNat c.toNat) (List.mem_flatMap.mpr ⟨c, member, by
          rw [Bytes.utf8EncodeChar_ascii ascii]
          exact List.mem_cons_self⟩)
        rwa [UInt8.toNat_ofNat', Nat.mod_eq_of_lt (by omega)] at here
      · rcases Bytes.utf8EncodeChar_wide (Nat.le_of_not_lt ascii) with ⟨byte, inside, high⟩
        have here := visible byte (List.mem_flatMap.mpr ⟨c, member, inside⟩)
        simp only [Bool.or_eq_true, Bool.and_eq_true, decide_eq_true_eq, beq_iff_eq] at here
        omega
    rw [headerToStr, if_neg lost, if_neg shown]

/-- A text sent as a Bearer credential is presented without the white space
around it.  When the header cannot carry it, or nothing is left of it, the
query is read instead. -/
theorem extract_bearer (text : String) (query : Option String) :
    extract (some (Bytes.utf8 ("Bearer " ++ text))) query =
      if text.toList.all isHeaderChar = true ∧ Text.trim text.toList ≠ [] then
        some (.bearer (String.ofList (Text.trim text.toList)))
      else query.bind extractFromQuery := by
  have scheme : ("Bearer " ++ text).toList.all isHeaderChar = text.toList.all isHeaderChar := by
    rw [String.toList_append, List.all_append]
    rfl
  have bearer : Text.stripPrefix "Bearer " ("Bearer " ++ text).toList = some text.toList := by
    simp [Text.stripPrefix]
  have basic : basicCredential ("Bearer " ++ text).toList = none := by
    simp [basicCredential, Text.stripPrefix]
  simp only [extract, Option.bind_eq_bind, Option.bind_some, headerToStr_utf8, scheme]
  by_cases shown : text.toList.all isHeaderChar = true
  · rw [if_pos shown]
    simp only [Option.bind_some, bearerCredential, bearer, basic, List.isEmpty_iff]
    by_cases empty : Text.trim text.toList = []
    · rw [if_pos empty, if_neg (fun both => both.2 empty)]
      rfl
    · rw [if_neg empty, if_pos ⟨shown, empty⟩]
      rfl
  · rw [if_neg shown, if_neg (fun both => shown both.1)]
    rfl

end Keydock
