/-!
The files that the version control knows.
-/

namespace CodeAtlas.Git

/-- The name of an object: the twenty bytes of its digest. -/
abbrev ObjectId := List UInt8

structure Tracked where
  path : String
  isLink : Bool
  id : ObjectId
deriving DecidableEq

end CodeAtlas.Git
