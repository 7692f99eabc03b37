import Keydock.Domain.Platform
import Keydock.Domain.Model

/-!
# The JSON form of permissions

Permissions are embedded in stored policies and in token claims under the same
field names.
-/

namespace Keydock

open Json

def permissionToJson (permission : Permission) : Json :=
  .obj [("read", .bool permission.read), ("write", .bool permission.write),
    ("enumerate", .bool permission.enumerate), ("delete", .bool permission.delete)]

def permissionFromJson (tree : Json) : Option Permission :=
  match fields false 4 ["read", "write", "enumerate", "delete"] tree with
  | some [read, write, enumerate, delete] => do
      return ⟨← required asBool read, ← required asBool write, ← required asBool enumerate,
        ← required asBool delete⟩
  | _ => none

@[simp] theorem permissionFromJson_toJson (permission : Permission) :
    permissionFromJson (permissionToJson permission) = some permission := by
  rfl

end Keydock
