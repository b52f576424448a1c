import Ra2a.Server.Handler.Frames

/-!
# Rounds of notifications

`notify_push` lists what is registered for a task and then calls the sender for one
configuration after the other.  Between two of the calls anything may happen: other
requests send rounds of their own, configurations come and go, and the client may
give the request up.

Each call a round asks for is made, or is still to be made by its request, or was
given up with it, and it is one of these only (`sends_account`).
-/

namespace Ra2a

open Interleave

/-! ### Calls asked for, to be made and given up -/

/-- The calls of `send_push` a request has still to make. -/
def Request.unsent (r : Request) : List Push :=
  match r.pc with
  | .collecting _ _ (.pushing _ t configs n) => ⟨configs, n, t⟩ :: sends configs t (n + 1)
  | _ => []

def Thread.unsent : Thread → List Push
  | .request r => r.unsent
  | _ => []

/-- The calls the requests have still to make. -/
def unsent (c : ServerConfig) : List Push := c.threads.flatMap Thread.unsent

/-- The calls a request asks for at its next step: those of the round it begins. -/
def Request.asksFor (h : DefaultRequestHandler) (r : Request) : List Push :=
  match r.pc with
  | .collecting _ _ (.notifying _ t) => sends (h.pushConfigs t.id) t 0
  | _ => []

def asksFor (c : ServerConfig) : Label Thread Move → List Push
  | .run i (.tick _) =>
    match c.threads[i]? with
    | some (.request r) => r.asksFor c.shared
    | _ => []
  | _ => []

/-- The calls that are given up with a request. -/
def givesUp (c : ServerConfig) : Label Thread Move → List Push
  | .run i .drop =>
    match c.threads[i]? with
    | some (.request r) => r.unsent
    | _ => []
  | _ => []

/-- The calls a schedule asks for. -/
def askedFor (c : ServerConfig) (ls : List (Label Thread Move)) : List Push :=
  server.yields asksFor c ls

/-- The calls given up along a schedule. -/
def givenUp (c : ServerConfig) (ls : List (Label Thread Move)) : List Push :=
  server.yields givesUp c ls

/-! ### One step -/

section

variable {c c' : ServerConfig} {h' : DefaultRequestHandler} {new : List Thread} {i : ℕ} {m : Move}
  {t t' : Thread} {r r' : Request}

theorem Request.unsent_of_not_pushing
    (hno : ∀ removes col event t configs n,
      r.pc ≠ .collecting removes col (.pushing event t configs n)) : r.unsent = [] := by
  rw [unsent]
  split
  · exact absurd ‹_› (hno _ _ _ _ _ _)
  · rfl

theorem Request.asksFor_of_not_notifying {h : DefaultRequestHandler}
    (hno : ∀ removes col event t, r.pc ≠ .collecting removes col (.notifying event t)) :
    r.asksFor h = [] := by
  rw [asksFor]
  split
  · exact absurd ‹_› (hno _ _ _ _)
  · rfl

/-- **A request makes the calls it asks for one after the other.** -/
theorem Request.Step.sends (hs : r.Step c.shared c.threads i h' r' new)
    (hlive : r'.pc ≠ .dropped) :
    h'.pushed ++ r'.unsent = c.shared.pushed ++ (r.unsent ++ r.asksFor c.shared) := by
  have hquiet : r.unsent = [] → r.asksFor c.shared = [] → r'.unsent = [] →
      h'.pushed = c.shared.pushed →
      h'.pushed ++ r'.unsent = c.shared.pushed ++ (r.unsent ++ r.asksFor c.shared) := by
    intro hr ha hr' hpushed
    rw [hr, ha, hr', hpushed]
    rfl
  cases hs with
  | drop => exact absurd rfl hlive
  | list removes col event t hpc hsome =>
    simp only [Request.unsent, Request.asksFor, hpc, Request.goto_pc, List.nil_append]
    rw [sends_of_lt hsome]
  | nobody removes col event t hpc hnone =>
    simp only [Request.unsent, Request.asksFor, hpc, Request.goto_pc, hnone, List.nil_append]
    rw [sends_of_card_le (Nat.le_refl 0)]
  | push removes col event t configs n hpc hmore =>
    simp only [Request.unsent, Request.asksFor, hpc, Request.goto_pc, List.append_nil]
    rw [DefaultRequestHandler.sendPush, sends_of_lt hmore, List.append_assoc]
    rfl
  | pushLast removes col event t configs n hpc hlast =>
    simp only [Request.unsent, Request.asksFor, hpc, Request.goto_pc, List.append_nil]
    rw [DefaultRequestHandler.sendPush, sends_of_card_le hlast]
  | configure params ctx tick hpc =>
    obtain ⟨_, he⟩ := c.shared.saveInlinePushConfig_eq params ctx.taskId tick
    exact hquiet (unsent_of_not_pushing (by simp [hpc])) (asksFor_of_not_notifying (by simp [hpc]))
      (unsent_of_not_pushing (by simp)) (by rw [he])
  | abort params task hpc =>
    obtain ⟨_, _, he⟩ := c.shared.abortRunning_eq params.id
    exact hquiet (unsent_of_not_pushing (by simp [hpc])) (asksFor_of_not_notifying (by simp [hpc]))
      (unsent_of_not_pushing (by simp)) (by rw [he])
  | refuse e hpc =>
    refine hquiet (unsent_of_not_pushing ?_) (asksFor_of_not_notifying ?_)
      (unsent_of_not_pushing (by simp)) rfl
    all_goals rcases hpc with hpc | ⟨_, _, _, hpc⟩ | hpc <;> simp [hpc]
  | resolve _ _ _ hpc | intercept _ _ _ _ _ hpc | intercepted _ _ _ hpc
  | accept _ _ hpc | queue _ _ _ _ hpc | panic _ _ hpc | spawnSend _ _ _ _ _ hpc
  | spawnStream _ _ _ _ hpc | spawnCancel _ _ _ _ _ hpc | receive _ _ _ _ hpc | lag _ _ _ _ hpc
  | close _ _ _ hpc | persist _ _ _ hpc | read _ _ _ _ _ hpc | skip _ _ _ hpc
  | update _ _ _ _ hpc | goOn _ _ _ hpc | answer _ _ _ _ hpc | finalize _ _ _ _ hpc
  | failClosed _ _ _ _ hpc | finish _ _ _ hpc | locate _ _ hpc | find _ _ hpc
  | subscribe _ hpc | deliver _ _ _ _ hpc | deliverLag _ _ _ _ hpc | endStream _ _ _ hpc =>
    exact hquiet (unsent_of_not_pushing (by simp [hpc])) (asksFor_of_not_notifying (by simp [hpc]))
      (unsent_of_not_pushing (by simp)) rfl

theorem unsent_of_spawned (ha : server.advance c.shared c.threads i m t = some (h', t', new)) :
    new.flatMap Thread.unsent = [] := by
  rw [List.flatMap_eq_nil_iff]
  intro u hu
  rcases spawned_step ha hu with ⟨r, x, -, rfl, -⟩ | ⟨g, rfl⟩
  · rfl
  · rfl

/-- What the thread that moves makes, has still to make and gives up. -/
theorem sends_advance (ht : c.threads[i]? = some t)
    (ha : server.advance c.shared c.threads i m t = some (h', t', new)) :
    h'.pushed ++ t'.unsent ++ givesUp c (.run i m) =
      c.shared.pushed ++ t.unsent ++ asksFor c (.run i m) := by
  rcases cases_of_step ha with ⟨r, r', rfl, rfl, hs, hm⟩ | ⟨x, x', rfl, rfl, rfl, hs⟩ |
    ⟨g, rfl, -, rfl, rfl, rfl⟩
  · rcases hm with ⟨tick, rfl⟩ | ⟨rfl, rfl⟩
    · have hsends := hs.sends (not_dropped_of_tick ha)
      simpa [givesUp, asksFor, ht, Thread.unsent] using hsends
    · obtain rfl : m = .drop := (dropped_iff ha).mp rfl
      simp [givesUp, asksFor, ht, Thread.unsent, Request.unsent]
  · have hpushed : h'.pushed = c.shared.pushed := by cases hs <;> rfl
    have hnil : givesUp c (.run i m) = [] ∧ asksFor c (.run i m) = [] := by
      cases m <;> simp [givesUp, asksFor, ht]
    rw [hpushed, hnil.1, hnil.2]
    rfl
  · have hnil : givesUp c (.run i m) = [] ∧ asksFor c (.run i m) = [] := by
      cases m <;> simp [givesUp, asksFor, ht]
    rw [hnil.1, hnil.2]
    rfl

/-- **One step of the server.** -/
theorem sends_step {l : Label Thread Move} (hs : server.step c l = some c') :
    (c'.shared.pushed ++ unsent c' ++ givesUp c l).Perm
      (c.shared.pushed ++ unsent c ++ asksFor c l) := by
  rcases Machine.step_cases hs with ⟨t, rfl, hf, rfl⟩ | ⟨i, m, t, h', t', new, rfl, ht, ha, rfl⟩
  · obtain ⟨r, rfl, hpc, -⟩ := Thread.of_isFresh hf
    have hnil : (Thread.request r).unsent = [] :=
      Request.unsent_of_not_pushing (by simp [hpc])
    rw [unsent, List.flatMap_append, List.flatMap_singleton, hnil, List.append_nil]
    exact List.Perm.refl _
  · have hmoved := sends_advance ht ha
    have hrest : ((c.threads.set i t').flatMap Thread.unsent ++ t.unsent).Perm
        (c.threads.flatMap Thread.unsent ++ t'.unsent) := Places.flatMap_set ht
    rw [unsent, unsent, List.flatMap_append, unsent_of_spawned ha, List.append_nil]
    rw [← Multiset.coe_eq_coe] at hrest ⊢
    have hmoved' := congrArg (fun l : List Push => (l : Multiset Push)) hmoved
    simp only [← Multiset.coe_add] at hrest hmoved' ⊢
    -- the thread's own lines, and those of the others
    refine add_right_cancel (b := (t.unsent : Multiset Push)) ?_
    calc _ = (h'.pushed : Multiset Push) + givesUp c (.run i m) +
          (((c.threads.set i t').flatMap Thread.unsent : Multiset Push) + t.unsent) := by abel
      _ = ((h'.pushed : Multiset Push) + t'.unsent + givesUp c (.run i m)) +
          (c.threads.flatMap Thread.unsent : Multiset Push) := by rw [hrest]; abel
      _ = _ := by rw [hmoved']; abel

end

/-! ### A whole run -/

/-- **The calls of a run.**  Each call that is asked for is made, or still to be made, or
was given up, and it is one of these only. -/
theorem sends_account {c₀ c : ServerConfig} {ls : List (Label Thread Move)}
    (hrun : server.exec c₀ ls = some c) :
    (c.shared.pushed ++ unsent c ++ givenUp c₀ ls).Perm
      (c₀.shared.pushed ++ unsent c₀ ++ askedFor c₀ ls) := by
  refine Machine.Reach.of_schedule (P := fun ls c =>
    (c.shared.pushed ++ unsent c ++ givenUp c₀ ls).Perm
      (c₀.shared.pushed ++ unsent c₀ ++ askedFor c₀ ls)) (List.Perm.refl _) ?_
    (Machine.Reach.along_always ls) hrun
  intro ls l c c' _ hrun hP _ hs
  have hstep := sends_step hs
  have hgiven : givenUp c₀ (ls ++ [l]) = givenUp c₀ ls ++ givesUp c l :=
    Machine.Reach.yields_concat hrun
  have hasked : askedFor c₀ (ls ++ [l]) = askedFor c₀ ls ++ asksFor c l :=
    Machine.Reach.yields_concat hrun
  rw [hgiven, hasked]
  rw [← Multiset.coe_eq_coe] at hP hstep ⊢
  simp only [← Multiset.coe_add] at hP hstep ⊢
  calc _ = ((c'.shared.pushed : Multiset Push) + unsent c' + givesUp c l) + givenUp c₀ ls := by abel
    _ = ((c.shared.pushed : Multiset Push) + unsent c + givenUp c₀ ls) + asksFor c l := by
        rw [hstep]; abel
    _ = _ := by rw [hP]; abel

end Ra2a
