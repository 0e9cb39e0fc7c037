import Rollout.Text.Utf8

/-!
What files hold.
-/

namespace Rollout

/-- Text, or bytes that are not the UTF-8 form of any text. -/
inductive Content where
  | text (value : String)
  | binary (bytes : List UInt8)
deriving DecidableEq, Repr

namespace Content

def ofBytes (bytes : List UInt8) : Content :=
  match Text.Utf8.decode bytes with
  | some value => .text value
  | none => .binary bytes

def shown : Content → String
  | text value => value
  | binary bytes => Text.Utf8.decodeLossy bytes

end Content

/-- A file on the local file system. A temporary one has been copied out of a revision. -/
structure LocalFile where
  path : String
  content : Content
  temporary : Bool := false
deriving DecidableEq, Repr

end Rollout
