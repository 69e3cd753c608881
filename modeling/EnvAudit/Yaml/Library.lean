import EnvAudit.Yaml.Value

/-!
# Reading and writing documents

Configurations and rules are kept as YAML documents, which a library reads and writes.  Nothing in the
program depends on how it does so but on the outcome.
-/

namespace EnvAudit.Yaml

/-- A document to be written. -/
inductive Document
  | text (s : String)
  | list (items : List String)
  | map (fields : List (String × Document))
deriving Repr, Inhabited

/-- What reads and writes documents. -/
class Library where
  /-- The value of the document in the bytes of a file. -/
  read : (bytes : ByteArray) → Except Fault Value
  /-- The text of a map with the given fields. -/
  write : (fields : List (String × Document)) → String

end EnvAudit.Yaml
