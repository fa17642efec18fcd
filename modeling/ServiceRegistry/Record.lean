/-!
# Catalogued records

A catalog holds services, each with any number of tagged versions.  A service counts its versions
and both kinds of record carry the instants, in milliseconds since the epoch, at which they were
created and last changed.
-/

namespace ServiceRegistry

structure Service where
  id : Nat
  name : String
  description : String
  versionCount : Nat
  createdAt : Int
  updatedAt : Int
deriving DecidableEq, Repr, Inhabited

/-- A version of a service, known by its tag. -/
structure Version where
  serviceId : Nat
  tag : String
  info : String
  createdAt : Int
  updatedAt : Int
deriving DecidableEq, Repr, Inhabited

/-- One page of a listing, with the size of the whole listing. -/
structure Page (α : Type) where
  data : List α
  totalItems : Nat
  pageSize : Nat
  currentPage : Nat
deriving DecidableEq, Repr, Inhabited

end ServiceRegistry
