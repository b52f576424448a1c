import Mathlib.Data.Finmap

/-!
# The call context

`RequestMeta`, `User` and `CallContext` of `server/middleware.rs`: what a
transport knows of a request, who makes it, and what the interceptors of a call
share.
-/

namespace Ra2a

/-- Headers and the like.  The keys are in lower case. -/
structure RequestMeta where
  kv : Finmap fun _ : String => List String

/-- What a `dyn User` answers. -/
structure User where
  name : String
  authenticated : Bool
  deriving DecidableEq

/-- `AuthenticatedUser`. -/
def User.authenticatedUser (username : String) : User := ⟨username, true⟩

/-- `UnauthenticatedUser`. -/
def User.unauthenticatedUser : User := ⟨"", false⟩

structure CallContext where
  method : String
  requestMeta : RequestMeta
  activatedExtensions : List String
  user : User

/-- `CallContext::new`. -/
def CallContext.new (method : String) (requestMeta : RequestMeta) : CallContext where
  method := method
  requestMeta := requestMeta
  activatedExtensions := []
  user := .unauthenticatedUser

end Ra2a
