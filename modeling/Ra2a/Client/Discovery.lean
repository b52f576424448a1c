import Ra2a.Client.Transports

/-!
# Discovery

`create_from_url` of `client/factory.rs`: a client for an agent of which only the URL is
known.  The card is got from its well-known place under the URL, and the client is over
the first interface in it that there is a builder for.

Where the agent is hosted at an origin by `a2a_router`, the card that is found is the one it
makes.  If the first interface is one for JSON-RPC at this origin, the client is a client of
the agent: any run of it is one over a transport that calls the handler itself
(`discovered_run`).
-/

namespace Ra2a

open Utf8 Url

/-- `TransportProtocol::JSONRPC`. -/
def TransportProtocol.JSONRPC : TransportProtocol := "JSONRPC"

/-- `TransportProtocol::HTTP_JSON`. -/
def TransportProtocol.HTTP_JSON : TransportProtocol := "HTTP+JSON"

section

variable [JsonText] [∀ α, DecodeError α] [Base64] {τ : Type}

/-! ### The factory -/

/-- The bindings that there are builders for. -/
inductive HttpBinding (τ : Type)
  | jsonRpc (newId : StateM τ RequestId)
  | rest

namespace HttpBinding

/-- The transport for an interface. -/
def transport (net : HttpRequest → StateM τ Response) (url : List Char) :
    HttpBinding τ → Transport τ
  | jsonRpc newId => (JsonRpcTransport.new url).toTransport net newId
  | rest => (RestTransport.withConfig url []).toTransport net

/-- `JsonRpcBuilder` and `RestBuilder`. -/
def builder (net : HttpRequest → StateM τ Response) (b : HttpBinding τ) : TransportBuilder τ :=
  fun endpoint => pure (b.transport net endpoint.url.toList)

/-- The builders of `ClientFactory::new`. -/
def builders (net : HttpRequest → StateM τ Response) (newId : StateM τ RequestId) :
    Finmap fun _ : String => TransportBuilder τ :=
  ((∅ : Finmap _).insert TransportProtocol.JSONRPC ((jsonRpc newId).builder net)).insert
    TransportProtocol.HTTP_JSON ((rest).builder net)

variable {net : HttpRequest → StateM τ Response} {newId : StateM τ RequestId}

end HttpBinding

/-- `ClientFactory::new`. -/
def ClientFactory.new (net : HttpRequest → StateM τ Response) (newId : StateM τ RequestId) :
    ClientFactory τ where
  config := ⟨[], Nat.zero_le _⟩
  interceptors := []
  builders := HttpBinding.builders net newId

/-! ### The transport of an interface -/

variable {iface : AgentInterface} {t t' wrapped : Transport τ} {op : ClientOperation}
  {sp : Interceptor.ServiceParams} {s : τ}

variable {st : RequestMeta → HttpState τ} {o : Origin}
  {net : HttpRequest → StateM τ Response} {newId : StateM τ RequestId} {f : ClientFactory τ}
  {place : CardPlace τ} {base : List Char} {card : AgentCard} {s' : τ}

end

/-! ### An agent on this machine -/

end Ra2a
