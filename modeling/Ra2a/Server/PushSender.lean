import Ra2a.Server.Push
import Ra2a.Server.RequestMeta
import Ra2a.Types.Text
import Ra2a.Types.Wire

/-!
# The sender of push notifications

`HttpPushSender` of `server/push.rs`, and the loop of `notify_push` over it.  The HTTP
client is another crate's and may be any: it is given a request and comes back with a
status, or with the text of an error.

The loop goes on whatever the client answers.  So what the client is asked for is one
request for each configuration, made of this configuration and the task and of nothing
else (`asked_notifyAll`).
-/

namespace Ra2a

/-- A POST, as the client is asked for it. -/
structure PushRequest where
  url : String
  headers : List (String × String)
  body : String
  deriving DecidableEq

/-- A status, and the text it is shown as. -/
structure HttpStatus where
  code : ℕ
  display : String
  deriving DecidableEq

/-- `StatusCode::is_success`. -/
def HttpStatus.isSuccess (status : HttpStatus) : Bool := 200 ≤ status.code && status.code < 300

/-- The HTTP client. -/
abbrev HttpClient (σ : Type) := PushRequest → StateM σ (Except String HttpStatus)

/-- The same client, with a note of what it is asked for. -/
def HttpClient.noting {σ : Type} (client : HttpClient σ) : HttpClient (σ × List PushRequest) :=
  fun req s => (((client req).run s.1).1, ((client req).run s.1).2, s.2 ++ [req])

/-- The text of the error for a value that cannot be written. -/
class EncodeError where
  message : Json → String

structure HttpPushSender where
  failOnError : Bool

namespace HttpPushSender

/-- `HttpPushSender::new`. -/
def new : HttpPushSender := ⟨false⟩

/-- The header of the token. -/
def tokenHeader (token : Option String) : List (String × String) :=
  match token with
  | some token => if token.isEmpty then [] else [("X-A2A-Notification-Token", token)]
  | none => []

/-- `apply_auth`. -/
def applyAuth (scheme credentials : String) : List (String × String) :=
  if lowerCase scheme = "bearer" then [("Authorization", s!"Bearer {credentials}")]
  else if lowerCase scheme = "basic" then [("Authorization", s!"Basic {credentials}")]
  else []

/-- The header of the credentials. -/
def authHeader (auth : Option AuthenticationInfo) : List (String × String) :=
  match auth with
  | some auth =>
    match auth.credentials with
    | some credentials => if credentials.isEmpty then [] else applyAuth auth.scheme credentials
    | none => []
  | none => []

/-- The request `send_push` builds. -/
def request (config : PushNotificationConfig) (body : String) : PushRequest where
  url := config.url
  headers := ("Content-Type", "application/json") :: tokenHeader config.token ++
    authHeader config.authentication
  body := body

variable (sender : HttpPushSender)

/-- `maybe_fail`, whose message is logged otherwise. -/
def maybeFail (msg : String) : Except A2AError Unit :=
  if sender.failOnError then .error (.serverError msg) else .ok ()

/-- `handle_push_result`. -/
def handlePushResult (result : Except String HttpStatus) : Except A2AError Unit :=
  match result with
  | .ok status =>
    if status.isSuccess then .ok ()
    else
      sender.maybeFail s!"push notification endpoint returned non-success status: {status.display}"
  | .error e => sender.maybeFail s!"failed to send push notification: {e}"

section

variable [JsonText] [Base64] [EncodeError] {σ : Type} (client : HttpClient σ)

/-- `send_push`. -/
def sendPush (config : PushNotificationConfig) (task : Task) : StateM σ (Except A2AError Unit) :=
  match toText task with
  | none =>
    let e := EncodeError.message (serialize task)
    pure (.error (.serverError s!"failed to serialize task: {e}"))
  | some body => do
    let result ← client (request config body)
    pure (sender.handlePushResult result)

/-- The loop of `notify_push`, in which an error is logged. -/
def notifyAll (task : Task) : List PushNotificationConfig → StateM σ Unit
  | [] => pure ()
  | config :: configs => do
    let _ ← sender.sendPush client config task
    notifyAll task configs

variable {sender client} {config : PushNotificationConfig} {configs : List PushNotificationConfig}
  {task : Task} {asked : List PushRequest} {body : String} {s : σ}

/-- What the client is asked for to send one notification. -/
theorem asked_sendPush (hbody : toText task = some body) :
    ((sender.sendPush client.noting config task).run (s, asked)).2.2 =
      asked ++ [request config body] := by
  rw [sendPush, hbody]
  rfl

/-- **What the client is asked for**: one request for each configuration, whatever it
answers. -/
theorem asked_notifyAll (hbody : toText task = some body) :
    ((sender.notifyAll client.noting task configs).run (s, asked)).2.2 =
      asked ++ configs.map (request · body) := by
  induction configs generalizing s asked with
  | nil => rw [List.map_nil, List.append_nil]; rfl
  | cons config configs ih =>
    have hone : ((sender.sendPush client.noting config task).run (s, asked)).2.2 =
        asked ++ [request config body] := asked_sendPush hbody
    obtain ⟨s', hs'⟩ : ∃ s', ((sender.sendPush client.noting config task).run (s, asked)).2 =
        (s', asked ++ [request config body]) := ⟨_, Prod.ext rfl hone⟩
    change ((sender.notifyAll client.noting task configs).run
      ((sender.sendPush client.noting config task).run (s, asked)).2).2.2 = _
    rw [hs', ih, List.map_cons, List.append_assoc]
    rfl

end

end HttpPushSender

end Ra2a
