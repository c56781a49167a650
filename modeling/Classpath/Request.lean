import Classpath.Schema

/-! # Requests

What a resolution is asked for: the root classes, the exclusions and whether directories are to be
packed. Without roots all classes are meant.
-/

namespace Classpath

/-- What a resolution is asked for. -/
structure Request where
  roots : List String
  exclusions : List String
  packDirectories : Bool
deriving DecidableEq, Repr

namespace Request

open Checked in
/-- Read a request. Fields that are missing are empty or false, and other fields are passed over. -/
def ofValue : Value → Checked Request
  | .table entries =>
    let roots := Schema.field entries "roots" [] (Schema.list Schema.text)
    let exclusions := Schema.field entries "exclusions" [] (Schema.list Schema.text)
    let pack := Schema.field entries "archive_directories" false Schema.truth
    (both roots (both exclusions pack)).map fun (roots, exclusions, pack) =>
      ⟨roots, exclusions, pack⟩
  | _ => refuse .notRecord

end Request

end Classpath
