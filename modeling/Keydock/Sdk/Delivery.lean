import Keydock.Foundation.Delivery
import Keydock.Sdk.Client

/-!
# Calls over the network

A request or its answer may be lost, or come late.  The client sends a request
that reads again; how often depends on its options.  A request that may write
is sent once, whatever the options say: when its answer is lost, the caller
does not learn whether it was performed, but it was not performed twice.

So the state of the server is that of a history in which every write stands at
most once, and once when it was acknowledged, beside what others do.

The server is taken to serve one request at a time: a request that arrives is
performed as a whole.  A running server performs the storage calls of a request
one by one, and requests that overlap can undo each other's writes between
them.  That is not what the network does, and nothing is said about it here.
-/

namespace Keydock
namespace Sdk

open Delivery

/-- How often a request may be sent again, and with which methods.  Methods
that are not given are those of the HTTP library. -/
structure Retry where
  limit : Nat
  methods : Option (List Method)

def safeRetry : Retry := ⟨2, some [.get, .head]⟩

def noRetry : Retry := ⟨0, none⟩

/-- The options of the client for all its requests. -/
def buildKy (requestDefaults : Option Retry) : Retry := requestDefaults.getD safeRetry

def readRequestOptions (options : Option Retry) : Option Retry := options

def writeRequestOptions (_ : Option Retry) : Option Retry := some noRetry

/-- The methods with which a request may come to its handler. -/
def requestMethods : Request -> List Method
  | .createBucket _ _ => [.post]
  | .bucket request => request.route.methods

/-- A call as it is sent, with the options of its caller. -/
structure Call where
  method : Method
  request : Request
  arrives : method ∈ requestMethods request
  options : Option Retry

namespace Call

def isRead (call : Call) : Bool := call.method = .get || call.method = .head

def requestOptions (call : Call) : Option Retry :=
  if call.isRead then readRequestOptions call.options else writeRequestOptions call.options

def retry (requestDefaults : Option Retry) (call : Call) : Retry :=
  call.requestOptions.getD (buildKy requestDefaults)

/-- How often the request may be sent. -/
def attempts (libraryMethods : List Method) (requestDefaults : Option Retry) (call : Call) : Nat :=
  if call.method ∈ (call.retry requestDefaults).methods.getD libraryMethods then (call.retry requestDefaults).limit + 1
  else 1

theorem attempts_of_write {call : Call} (write : call.isRead = false) (libraryMethods : List Method)
    (requestDefaults : Option Retry) : call.attempts libraryMethods requestDefaults = 1 := by
  have single : call.retry requestDefaults = noRetry := by simp [retry, requestOptions, write, writeRequestOptions]
  unfold attempts
  rw [single]
  split <;> rfl

/-- A request that reads changes nothing, whatever its answer. -/
theorem perform_of_read {call : Call} (read : call.isRead = true) (state : AppState) (store : Store) :
    (call.request.perform state store).2 = store := by
  rcases call with ⟨method, request, arrives, options⟩
  have safe : method = .get ∨ method = .head := by simpa [isRead] using read
  cases request with
  | createBucket fresh form =>
      rcases List.mem_singleton.mp arrives with rfl
      rcases safe with impossible | impossible <;> cases impossible
  | bucket request =>
      rcases BucketRequest.perform_guarded (fun _ => serve_effect request.route) with same | ⟨auth, resolved, _, effect⟩
      · exact same
      · have arrived : method ∈ request.route.methods := arrives
        generalize request.route = route at effect arrived
        generalize ((Request.bucket request).perform state store).2 = after at effect
        cases effect with
        | read => rfl
        | put _ _ | increment _ _ | delete _ | txn _ _ | patchPolicy _ _ _ _ | dropPolicy _ =>
            rcases safe with rfl | rfl <;> simp [Route.methods] at arrived

end Call

/-- The server as a service, with everything that may happen to its store.  It
serves one request at a time: each is one step. -/
def server (state : AppState) : Service Request Event Store Response where
  perform := fun request store => request.perform state store
  disturb := fun event store => event.perform state store

section Runs

variable {ι : Type} (state : AppState) (calls : ι -> Call)

/-- The event of an entry of the record. -/
def eventOf : ι ⊕ Event -> Event := Sum.elim (fun i => .request (calls i).request) id

theorem replay_eq_storeAfter (earlier : List Event) (record : List (ι ⊕ Event)) :
    replay (server state) (fun i => (calls i).request) record (storeAfter state earlier) =
      storeAfter state (earlier ++ record.map (eventOf calls)) := by
  induction record using List.reverseRecOn with
  | nil => rw [List.map_nil, List.append_nil]; rfl
  | append_singleton before entry ih =>
      rw [replay_snoc, ih, List.map_append, ← List.append_assoc, List.map_singleton, storeAfter_snoc]
      cases entry <;> rfl

end Runs

/-- Whatever the network does before a server that serves one request at a time,
the store is that of a history in which others act as they do and every write
of the client stands at most once.  A call that returns has the answer of its
place in this history. -/
theorem writes_performed_once {ι : Type} [DecidableEq ι] (state : AppState) (earlier : List Event)
    (libraryMethods : List Method) (requestDefaults : Option Retry) (calls : ι -> Call) (moves : List (Move ι Event))
    (config : Config ι Event Store Response)
    (run : execute (server state) (fun i => (calls i).request)
      (fun i => (calls i).attempts libraryMethods requestDefaults) (Config.initial (storeAfter state earlier)) moves =
      some config) :
    Exists fun record : List (ι ⊕ Event) =>
      config.shared = storeAfter state (earlier ++ record.map (eventOf calls)) ∧
      record.filterMap Sum.getRight? = moves.filterMap Move.event? ∧
      (forall i, .inl i ∈ record -> (calls i).isRead = false ∧ performances i record = 1) ∧
      forall i response, config.result i = some response ->
        Exists fun before =>
          (if (calls i).isRead then before else before ++ [.inl i]) <+: record ∧
          response = ((calls i).request.perform state (storeAfter state (earlier ++ before.map (eventOf calls)))).1 := by
  have accounted := Accounted.execute moves Accounted.initial run
  have unchanged : forall i store, (calls i).isRead = true ->
      ((server state).perform (calls i).request store).2 = store :=
    fun i store read => (calls i).perform_of_read read state store
  refine ⟨essential (fun i => (calls i).isRead) config.history, ?_, ?_, ?_, ?_⟩
  · rw [accounted.replayed, ← replay_essential unchanged, replay_eq_storeAfter]
  · rw [events_essential, Accounted.events_execute moves run]
    rfl
  · intro i member
    have write : (calls i).isRead = false := by simpa [essential] using (List.mem_filter.mp member).2
    have few := accounted.performances_le i
    have present : 0 < performances i (essential (fun i => (calls i).isRead) config.history) :=
      List.countP_pos_iff.mpr ⟨.inl i, member, by simp [isCall]⟩
    have same : performances i (essential (fun i => (calls i).isRead) config.history) =
        performances i config.history := performances_essential (i := i) write config.history
    rw [(calls i).attempts_of_write write, ← same] at few
    exact ⟨write, Nat.le_antisymm few present⟩
  · intro i response known
    rcases (accounted.accepted i response known).essential unchanged with ⟨before, initial, same⟩
    refine ⟨before, initial, same.trans ?_⟩
    rw [replay_eq_storeAfter]
    rfl

namespace LostAnswer

open Rotation (state)

def deposit : BucketRequest where
  bucket := ShelfRun.bucket.segment
  query := none
  authorization := none
  clock := ShelfRun.atSecond 0
  route := .patchKey ShelfRun.name.segment (.ok none) (.ok (Bytes.utf8 "+1"))

def look : BucketRequest := { deposit with route := .getKey ShelfRun.name.segment }

theorem increment_arrives : Method.patch ∈ requestMethods (.bucket deposit) := by decide

theorem read_arrives : Method.get ∈ requestMethods (.bucket look) := by decide

/-- The caller asks for five repetitions. -/
def increment : Call := ⟨.patch, .bucket deposit, increment_arrives, some ⟨5, some [.patch]⟩⟩

def read : Call := ⟨.get, .bucket look, read_arrives, none⟩

/-- The first caller adds one, the second reads. -/
def calls : Bool -> Call
  | false => increment
  | true => read

/-- The answer to the increment is lost, and so is the first attempt to read. -/
def moves : List (Move Bool Event) :=
  [.send false, .arrive false, .send true, .lose true, .other (.sweep (ShelfRun.moment 1)), .send true, .arrive true,
    .accept true 0]

def final : Option (Config Bool Event Store Response) :=
  execute (server state) (fun i => (calls i).request) (fun i => (calls i).attempts [.get, .put, .head] none)
    (Config.initial (storeAfter state ShelfRun.history)) moves

end LostAnswer

open LostAnswer in
/-- The number is one although the answer to the increment was lost and its
caller asked for repetitions. -/
theorem lost_answer_counted_once :
    Exists fun config => final = some config ∧ (config.result true).map Response.body = some (.bytes (Bytes.utf8 "1")) ∧
      Exists fun record : List (Bool ⊕ Event) =>
        config.shared = storeAfter Rotation.state (ShelfRun.history ++ record.map (eventOf calls)) ∧
        record.filterMap Sum.getRight? = moves.filterMap Move.event? ∧
        (forall i, .inl i ∈ record -> (calls i).isRead = false ∧ performances i record = 1) ∧
        forall i response, config.result i = some response ->
          Exists fun before =>
            (if (calls i).isRead then before else before ++ [.inl i]) <+: record ∧
            response = ((calls i).request.perform Rotation.state
              (storeAfter Rotation.state (ShelfRun.history ++ before.map (eventOf calls)))).1 := by
  have ended : final.map (fun config => (config.result true).map Response.body) =
      some (some (.bytes (Bytes.utf8 "1"))) := by
    decide +kernel
  rcases Option.map_eq_some_iff.mp ended with ⟨config, run, answered⟩
  exact ⟨config, run, answered,
    writes_performed_once Rotation.state ShelfRun.history [.get, .put, .head] none calls moves config run⟩

end Sdk
end Keydock
