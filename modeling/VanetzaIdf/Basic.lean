/-
# Types shared by the components

`Result` of `vanetza_idf/access.hpp`, octet strings, the eight-octet digest
of a certificate and the MAC address.
-/
import Mathlib.Algebra.BigOperators.Group.List.Basic
import Mathlib.Data.Rat.Floor

namespace VanetzaIdf

/-- `vanetza_idf::Result`. -/
inductive Result
  | accepted | invalidArgument | unsupported | wrongEntryPoint | securityUnavailable | resourceLimit
  | rejected | timeRegression | identityChangePending
deriving DecidableEq, Repr

abbrev ByteBuffer := List UInt8

/-- `security::HashedId8`: the last eight octets of a certificate's hash. -/
abbrev HashedId8 := Vector UInt8 8

/-- `security::Identifier`: the digest of the ticket in use. -/
abbrev Identifier := HashedId8

/-- `Identifier {}`, what an empty pool reports. -/
def Identifier.none : Identifier := Vector.replicate 8 0

abbrev MacAddress := Vector UInt8 6

/-- `SubscriptionHandle`; the source counts up a 64-bit integer. -/
abbrev SubscriptionHandle := ℕ

/-- `LockHandle`; the source counts up a 64-bit integer. -/
abbrev LockHandle := ℕ

end VanetzaIdf
