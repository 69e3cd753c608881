import EnvAudit.Proofs.FileSystem.Write

/-!
# Links left

A path that leads to a directory has some links left for what lies below it.  Two paths that lead to the
same directory may differ in nothing but that, and it matters only where links below the directory use
up all that one of the paths has left.
-/

namespace EnvAudit.FileSystem

variable {fs : FileSystem} {root : Node} {here names place : List String}
variable {entries : List (String × Node)}

end EnvAudit.FileSystem
