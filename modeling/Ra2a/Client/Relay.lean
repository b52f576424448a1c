import Ra2a.Client.RestErrors
import Ra2a.Grpc.Requests

/-!
# Errors handed on

An agent that calls another returns to its own caller the error it has got.  Each
hop writes the error and reads it again.  Over REST the message written is the
`Display` text, which begins with the name of the variant, and the client takes it
for what the variant holds.  Over gRPC every error is `Status::internal` of that
text, and the client makes a generic error of any status.

So with each hop an error becomes a generic one, or its text grows (`carry_cases`),
and none of the protocol comes through but the one that holds no text, as long as
it goes over REST (`relay_eq_iff`).
-/

namespace Ra2a

namespace A2AError

/-- The variants of the group `A2A Protocol Errors`. -/
def isProtocol : A2AError → Bool
  | jsonRpc _ | http _ | json _ | database _ | other _ => false
  | _ => true

/-- What a method of `GrpcTransport` makes of a status. -/
def ofGrpcStatus (text : GrpcStatus → String) (status : GrpcStatus) : A2AError :=
  .other (text status)

end A2AError

/-- The transport of one hop.  An error of a REST handler is written at some time,
for a task or for none. -/
inductive Hop
  | rest (now : String) (taskId : Option String)
  | grpc
  deriving DecidableEq

namespace Hop

def isRest : Hop → Bool
  | rest _ _ => true
  | grpc => false

variable [JsonText] (text : GrpcStatus → String)

/-- The error the client has for one the server's handler returned. -/
def carry (e : A2AError) : Hop → A2AError
  | rest now taskId => parseErrorResponse (restErrorResponse now e taskId)
  | grpc => .ofGrpcStatus text e.toGrpcStatus

/-- The text the hop is written as can be read. -/
def Lossless (e : A2AError) : Hop → Prop
  | rest now taskId => JsonText.Lossless (e.toRestError now taskId).serialize
  | grpc => True

/-- The error at the end of a chain of hops. -/
def relay (hops : List Hop) (e : A2AError) : A2AError := hops.foldl (carry text) e

/-- Each hop of a chain can be read. -/
def LosslessAlong : List Hop → A2AError → Prop
  | [], _ => True
  | hop :: hops, e => hop.Lossless e ∧ LosslessAlong hops (hop.carry text e)

/-! ### One hop -/

variable {text} {hop : Hop} {e : A2AError}

theorem relay_singleton : relay text [hop] e = hop.carry text e := rfl

theorem carry_rest {now : String} {taskId : Option String} (h : (rest now taskId).Lossless e) :
    (rest now taskId).carry text e = e.recovered :=
  A2AError.parseErrorResponse_restErrorResponse h

variable (text) in
/-- A generic error stays one. -/
theorem carry_other (s : String) (h : hop.Lossless (.other s)) :
    ∃ t, hop.carry text (.other s) = .other t := by
  cases hop with
  | rest now taskId =>
    have hreason : (A2AError.other s).reason ∉ knownReasons :=
      (by decide : "INTERNAL_ERROR" ∉ knownReasons)
    rw [carry_rest h, A2AError.recovered, errorOfReason_of_not_mem hreason]
    exact ⟨_, rfl⟩
  | grpc => exact ⟨_, rfl⟩

omit [JsonText] in
theorem length_lt_append (s : String) {p : String} (hp : p ≠ "") : s.length < (p ++ s).length := by
  have hpos : 0 < p.length := Nat.pos_of_ne_zero fun h => hp (String.length_eq_zero_iff.mp h)
  rw [String.length_append]
  omega

variable (text) in
/-- **What one hop makes of an error**: a generic one, or one with more to say,
unless it is the one that holds no text. -/
theorem carry_cases (h : hop.Lossless e) :
    (∃ s, hop.carry text e = .other s) ∨
      (hop.carry text e ≠ .pushNotificationNotSupported ∧
        e.display.length < (hop.carry text e).display.length) ∨
      (e = .pushNotificationNotSupported ∧ hop.isRest = true ∧ hop.carry text e = e) := by
  cases hop with
  | grpc => exact Or.inl ⟨_, rfl⟩
  | rest now taskId =>
    rw [carry_rest h, A2AError.recovered]
    by_cases hknown : e.reason ∈ knownReasons
    · right
      cases e with
      | pushNotificationNotSupported => exact Or.inr ⟨rfl, rfl, rfl⟩
      | taskNotFound s | taskNotCancelable s | unsupportedOperation s | contentTypeNotSupported s
      | invalidAgentResponse s | extensionSupportRequired s | versionNotSupported s =>
        simp only [A2AError.reason, A2AError.restErrorDetails, errorOfReason]
        exact Or.inl ⟨by simp, length_lt_append _ (by decide)⟩
      | _ => simp [A2AError.reason, A2AError.restErrorDetails, knownReasons] at hknown
    · exact Or.inl ⟨_, errorOfReason_of_not_mem hknown⟩

/-! ### A chain of hops -/

variable {hops : List Hop}

theorem relay_other (s : String) (h : LosslessAlong text hops (.other s)) :
    ∃ t, relay text hops (.other s) = .other t := by
  induction hops generalizing s with
  | nil => exact ⟨s, rfl⟩
  | cons hop hops ih =>
    obtain ⟨hhop, hhops⟩ := h
    obtain ⟨t, ht⟩ := carry_other text s hhop
    rw [ht] at hhops
    rw [relay, List.foldl_cons, ht]
    exact ih t hhops

/-- The error without a text goes through any number of REST hops. -/
theorem relay_pushNotificationNotSupported
    (h : LosslessAlong text hops .pushNotificationNotSupported)
    (hrest : ∀ hop ∈ hops, hop.isRest = true) :
    relay text hops .pushNotificationNotSupported = .pushNotificationNotSupported := by
  induction hops with
  | nil => rfl
  | cons hop hops ih =>
    obtain ⟨hhop, hhops⟩ := h
    rw [List.forall_mem_cons] at hrest
    have hcarry : hop.carry text .pushNotificationNotSupported = .pushNotificationNotSupported := by
      cases hop with
      | rest now taskId => exact carry_rest hhop
      | grpc => cases hrest.1
    rw [hcarry] at hhops
    rw [relay, List.foldl_cons, hcarry]
    exact ih hhops hrest.2

/-- **What a chain makes of an error.** -/
theorem relay_cases (h : LosslessAlong text hops e) :
    (∃ s, relay text hops e = .other s) ∨
      (relay text hops e ≠ .pushNotificationNotSupported ∧
        (hops = [] ∨ e.display.length < (relay text hops e).display.length)) ∨
      (e = .pushNotificationNotSupported ∧ ∀ hop ∈ hops, hop.isRest = true) := by
  induction hops generalizing e with
  | nil =>
    by_cases he : e = .pushNotificationNotSupported
    · exact Or.inr (Or.inr ⟨he, by simp⟩)
    · exact Or.inr (Or.inl ⟨he, Or.inl rfl⟩)
  | cons hop hops ih =>
    obtain ⟨hhop, hhops⟩ := h
    rw [relay, List.foldl_cons]
    rcases carry_cases text hhop with ⟨s, hs⟩ | ⟨hne, hlt⟩ | ⟨he, hrest, hsame⟩
    · rw [hs] at hhops ⊢
      exact Or.inl (relay_other s hhops)
    · rcases ih hhops with hother | ⟨hne', rfl | hlt'⟩ | ⟨he, -⟩
      · exact Or.inl hother
      · exact Or.inr (Or.inl ⟨hne, Or.inr hlt⟩)
      · exact Or.inr (Or.inl ⟨hne', Or.inr (hlt.trans hlt')⟩)
      · exact absurd he hne
    · rw [hsame] at hhops ⊢
      rcases ih hhops with hother | ⟨hne', rfl | hlt'⟩ | ⟨-, hall⟩
      · exact Or.inl hother
      · exact absurd he hne'
      · exact Or.inr (Or.inl ⟨hne', Or.inr hlt'⟩)
      · exact Or.inr (Or.inr ⟨he, List.forall_mem_cons.mpr ⟨hrest, hall⟩⟩)

/-- **A protocol error comes through a chain as it was exactly when** the chain has
no hop, or it is the one without a text and every hop is REST. -/
theorem relay_eq_iff (he : e.isProtocol = true) (h : LosslessAlong text hops e) :
    relay text hops e = e ↔
      hops = [] ∨ (e = .pushNotificationNotSupported ∧ ∀ hop ∈ hops, hop.isRest = true) := by
  constructor
  · intro hsame
    rcases relay_cases h with ⟨s, hs⟩ | ⟨-, hnil | hlt⟩ | hpush
    · rw [hsame] at hs
      rw [hs] at he
      cases he
    · exact Or.inl hnil
    · rw [hsame] at hlt
      omega
    · exact Or.inr hpush
  · rintro (rfl | ⟨rfl, hrest⟩)
    · rfl
    · exact relay_pushNotificationNotSupported h hrest

end Hop

/-! ### A task that is not found, two agents away -/

/-- The `Display` text of a `tonic::Status`, of a message that needs no escapes. -/
def statusText : GrpcStatus → String
  | .invalidArgument message =>
    "code: 'Client specified an invalid argument', message: \"" ++ message ++ "\""
  | .internal message => "code: 'Internal error', message: \"" ++ message ++ "\""

theorem lossless_gone [Base64] [LawfulBase64] :
    letI := tableText goneTexts
    Hop.LosslessAlong statusText [.rest "12:00" none] (.taskNotFound "t1") := by
  let := tableText goneTexts
  have hread : JsonText.Lossless
      ((A2AError.taskNotFound "t1").toRestError "12:00" none).serialize :=
    (legible_goneTexts (List.mem_cons_of_mem _ List.mem_cons_self)).readable.lossless
      (A2AError.depth_toRestError _ _ _)
  exact ⟨hread, trivial⟩

theorem relay_gone [Base64] [LawfulBase64] :
    letI := tableText goneTexts
    Hop.relay statusText [.rest "12:00" none] (.taskNotFound "t1") =
      (A2AError.taskNotFound "t1").recovered := by
  let := tableText goneTexts
  have hgone : (Hop.rest "12:00" none).Lossless (.taskNotFound "t1") := lossless_gone.1
  rw [Hop.relay_singleton, Hop.carry_rest hgone]

/-- After one REST hop the text has the name of the variant in it, and after one of
gRPC the variant is gone. -/
theorem relay_taskNotFound :
    letI := byteChars
    letI := tableText goneTexts
    Hop.LosslessAlong statusText [.rest "12:00" none] (.taskNotFound "t1") ∧
      Hop.relay statusText [.rest "12:00" none] (.taskNotFound "t1") ≠ .taskNotFound "t1" ∧
      Hop.relay statusText [.grpc] (.taskNotFound "t1") ≠ .taskNotFound "t1" := by
  let := byteChars
  let := tableText goneTexts
  have := lawful_byteChars
  refine ⟨lossless_gone, fun h => ?_, A2AError.noConfusion⟩
  have htext : "task not found: " ++ "t1" = "t1" :=
    A2AError.taskNotFound.inj (relay_gone.symm.trans h)
  have hlt : "t1".length < ("task not found: " ++ "t1").length :=
    Hop.length_lt_append "t1" (by decide)
  exact hlt.ne (congrArg String.length htext.symm)

theorem relay_eq_iff_taskNotFound :
    letI := byteChars
    letI := tableText goneTexts
    Hop.relay statusText [.rest "12:00" none] (.taskNotFound "t1") = .taskNotFound "t1" ↔
      [Hop.rest "12:00" none] = [] ∨ (A2AError.taskNotFound "t1" = .pushNotificationNotSupported ∧
        ∀ hop ∈ [Hop.rest "12:00" none], hop.isRest = true) := by
  let := byteChars
  let := tableText goneTexts
  have := lawful_byteChars
  exact Hop.relay_eq_iff rfl lossless_gone

end Ra2a
