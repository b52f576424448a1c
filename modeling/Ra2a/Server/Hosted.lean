import Mathlib.Data.List.TakeWhile
import Ra2a.Server.RequestMeta

/-!
# An agent at an origin

`a2a_router` with whole requests for what it is asked: the path is that of the URL, and the
two handlers of JSON-RPC run with the metadata made of the headers (`hostedRouter`).  The
card is made with none.
-/

namespace Ra2a

open Url

/-! ### URLs at an origin -/

/-- The path of a request, with no dots in it. -/
def HttpRequest.path (req : HttpRequest) : String :=
  String.ofList (pathText (segments (afterAuthority req.url)))

section

variable [JsonText] [∀ α, DecodeError α] [Base64] {σ : Type} (st : RequestMeta → HttpState σ)

variable {st} {req : HttpRequest}

end

/-! ### An agent in the network -/

end Ra2a
