import Keydock.Foundation.Keyspace
import Keydock.Foundation.Interleaving
import Keydock.Fjall.Policy

/-!
# The store

The adapter over three keyspaces: bucket metadata, key data and the expiry
index.  Each operation is a program over single keyspace operations, in the
order in which the source performs them; a batch commit is one operation.
Every keyspace operation may report a backend failure, which the programs
propagate.

The semantics `storage` is the one in which no backend call fails.  For it,
each program has a closed form: what it answers and what it leaves behind.
-/

namespace Keydock

open Effect

inductive Space
  | metadata
  | data
  | expiry
  deriving DecidableEq, Repr

/-- The three keyspaces of the database. -/
@[ext] structure Store where
  metadata : Keyspace
  data : Keyspace
  expiry : Keyspace

namespace Store

def empty : Store := ⟨∅, ∅, ∅⟩

def space (store : Store) : Space -> Keyspace
  | .metadata => store.metadata
  | .data => store.data
  | .expiry => store.expiry

def update (store : Store) (space : Space) (change : Keyspace -> Keyspace) : Store :=
  match space with
  | .metadata => { store with metadata := change store.metadata }
  | .data => { store with data := change store.data }
  | .expiry => { store with expiry := change store.expiry }

theorem space_update (store : Store) (changed : Space) (change : Keyspace -> Keyspace) (space : Space) :
    (store.update changed change).space space =
      if changed = space then change (store.space space) else store.space space := by
  cases changed <;> cases space <;> rfl

end Store

/-- One write of a batch. -/
inductive BatchWrite
  | insert (space : Space) (key value : Bytes)
  | remove (space : Space) (key : Bytes)

namespace BatchWrite

def space : BatchWrite -> Space
  | .insert space _ _ => space
  | .remove space _ => space

def key : BatchWrite -> Bytes
  | .insert _ key _ => key
  | .remove _ key => key

def apply (store : Store) : BatchWrite -> Store
  | .insert space key value => store.update space (fun keyspace => keyspace.insert key value)
  | .remove space key => store.update space (fun keyspace => keyspace.erase key)

end BatchWrite

/-- The operations of the storage engine that the adapter uses. -/
inductive KeyspaceOp
  | get (space : Space) (key : Bytes)
  | containsKey (space : Space) (key : Bytes)
  | write (write : BatchWrite)
  | commit (batch : List BatchWrite)
  | iter (space : Space)
  | scan (space : Space) (start : Bytes)

/-- A row of an iteration; reading it may fail. -/
abbrev Row := Except FjallError (Bytes × Bytes)

def KeyspaceOp.Result : KeyspaceOp -> Type
  | .get _ _ => Except FjallError (Option Bytes)
  | .containsKey _ _ => Except FjallError Bool
  | .write _ => Except FjallError Unit
  | .commit _ => Except FjallError Unit
  | .iter _ => List Row
  | .scan _ _ => List Row

def keyspaceOps : Signature := ⟨KeyspaceOp, KeyspaceOp.Result⟩

/-- The keyspaces when no backend call fails.  An iteration sees the state at
its start. -/
def storage : Semantics keyspaceOps Store where
  exec
    | .get space key, store => (.ok (store.space space)[key]?, store)
    | .containsKey space key, store => (.ok ((store.space space).contains key), store)
    | .write write, store => (.ok (), write.apply store)
    | .commit batch, store => (.ok (), batch.foldl BatchWrite.apply store)
    | .iter space, store => ((store.space space).iter.map .ok, store)
    | .scan space start, store => (((store.space space).scan start).map .ok, store)

/-! Each operation as a program of one step, with its meaning. -/

namespace Engine

def get (space : Space) (key : Bytes) : Program keyspaceOps (Except FjallError (Option Bytes)) :=
  Program.perform (S := keyspaceOps) (.get space key)

def containsKey (space : Space) (key : Bytes) : Program keyspaceOps (Except FjallError Bool) :=
  Program.perform (S := keyspaceOps) (.containsKey space key)

def write (write : BatchWrite) : Program keyspaceOps (Except FjallError Unit) :=
  Program.perform (S := keyspaceOps) (.write write)

def commit (batch : List BatchWrite) : Program keyspaceOps (Except FjallError Unit) :=
  Program.perform (S := keyspaceOps) (.commit batch)

def iter (space : Space) : Program keyspaceOps (List Row) :=
  Program.perform (S := keyspaceOps) (.iter space)

def scan (space : Space) (start : Bytes) : Program keyspaceOps (List Row) :=
  Program.perform (S := keyspaceOps) (.scan space start)

variable (store : Store)

@[simp] theorem run_get (space : Space) (key : Bytes) :
    storage.run (get space key) store = (.ok (store.space space)[key]?, store) := rfl

@[simp] theorem run_write (batchWrite : BatchWrite) :
    storage.run (write batchWrite) store = (.ok (), batchWrite.apply store) := rfl

@[simp] theorem run_iter (space : Space) :
    storage.run (iter space) store = ((store.space space).iter.map .ok, store) := rfl

end Engine

/-- A fallible program of the adapter. -/
abbrev Adapter (α : Type) := ExceptT UseCaseError (Program keyspaceOps) α

namespace Adapter

variable {α β : Type}

/-- Perform an operation and turn its failure into a use-case error. -/
def backend (program : Program keyspaceOps (Except FjallError α)) : Adapter α :=
  ExceptT.mk (program >>= fun outcome => .done (outcome.mapError FjallError.toUseCaseError))

def get (space : Space) (key : Bytes) : Adapter (Option Bytes) :=
  backend (Engine.get space key)

def containsKey (space : Space) (key : Bytes) : Adapter Bool :=
  backend (Engine.containsKey space key)

def insert (space : Space) (key value : Bytes) : Adapter Unit :=
  backend (Engine.write (.insert space key value))

def remove (space : Space) (key : Bytes) : Adapter Unit :=
  backend (Engine.write (.remove space key))

def commit (batch : List BatchWrite) : Adapter Unit :=
  backend (Engine.commit batch)

def scan (space : Space) (start : Bytes) : Adapter (List Row) :=
  ExceptT.lift (Engine.scan space start)

/-- An outcome that needs no operation. -/
def known (outcome : Except UseCaseError α) : Adapter α :=
  ExceptT.mk (.done outcome)

/-- An outcome of the codec. -/
def codec (outcome : Except FjallError α) : Adapter α :=
  known (outcome.mapError FjallError.toUseCaseError)

/-- An outcome of the domain. -/
def domain (outcome : Except DomainError α) : Adapter α :=
  known (outcome.mapError UseCaseError.domain)

/-- Run a program when no backend call fails. -/
def eval (program : Adapter α) (store : Store) : Except UseCaseError α × Store :=
  storage.run program.run store

@[simp] theorem eval_pure (value : α) (store : Store) : eval (pure value) store = (.ok value, store) := rfl

theorem eval_bind (program : Adapter α) (next : α -> Adapter β) (store : Store) :
    eval (program >>= next) store =
      match eval program store with
      | (.ok value, after) => eval (next value) after
      | (.error error, after) => (.error error, after) := by
  unfold eval
  rw [storage.run_exceptBind]
  rcases storage.run program.run store with ⟨outcome, after⟩
  cases outcome <;> rfl

@[simp] theorem eval_get (space : Space) (key : Bytes) (store : Store) :
    eval (get space key) store = (.ok (store.space space)[key]?, store) := rfl

@[simp] theorem eval_containsKey (space : Space) (key : Bytes) (store : Store) :
    eval (containsKey space key) store = (.ok ((store.space space).contains key), store) := rfl

@[simp] theorem eval_insert (space : Space) (key value : Bytes) (store : Store) :
    eval (insert space key value) store = (.ok (), (BatchWrite.insert space key value).apply store) := rfl

@[simp] theorem eval_remove (space : Space) (key : Bytes) (store : Store) :
    eval (remove space key) store = (.ok (), (BatchWrite.remove space key).apply store) := rfl

@[simp] theorem eval_commit (batch : List BatchWrite) (store : Store) :
    eval (commit batch) store = (.ok (), batch.foldl BatchWrite.apply store) := rfl

@[simp] theorem eval_scan (space : Space) (start : Bytes) (store : Store) :
    eval (scan space start) store = (.ok (((store.space space).scan start).map .ok), store) := rfl

@[simp] theorem eval_known (outcome : Except UseCaseError α) (store : Store) :
    eval (known outcome) store = (outcome, store) := rfl

@[simp] theorem eval_codec (outcome : Except FjallError α) (store : Store) :
    eval (codec outcome) store = (outcome.mapError FjallError.toUseCaseError, store) := rfl

@[simp] theorem eval_domain (outcome : Except DomainError α) (store : Store) :
    eval (domain outcome) store = (outcome.mapError UseCaseError.domain, store) := rfl

end Adapter
end Keydock
