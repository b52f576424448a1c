import Mathlib.Data.List.Infix

/-!
# A task that forwards

A task reads a source and sends what it makes of it into a bounded channel that
somebody else reads.  It holds one value at a time, and waits with it while the
channel is full.  Its loop is over when the source is, or when the one who reads
has gone, which it learns only as it sends; whoever goes leaves the channel
behind, with what waits in it.

Nothing is lost on the way: what was taken, what waits and what is held is, in this
order, all that was fed (`exec_new`), and the task is never further ahead of the
one who reads than the channel is long, and one more.
-/

namespace Forward

universe u

/-- The task and the channel, and what was taken out of it. -/
structure Pipe (β : Type u) where
  capacity : ℕ
  held : Option β
  channel : List β
  taken : List β
  running : Bool
  connected : Bool

/-- What the loop makes of one turn: a value to send, nothing, or its end. -/
inductive Turn (β : Type u)
  | value (b : β)
  | pass
  | finish

inductive Act (β : Type u)
  | turn (t : Turn β)
  | send
  | take
  | leave

variable {β : Type u}

/-- What the task is to send. -/
def Turn.value? : Turn β → Option β
  | value b => some b
  | pass => none
  | finish => none

def Turn.goesOn : Turn β → Bool
  | finish => false
  | _ => true

/-- The values of all turns. -/
def fed (acts : List (Act β)) : List β :=
  acts.flatMap fun
    | .turn t => t.value?.toList
    | _ => []

namespace Pipe

/-- Before the first turn. -/
def new (capacity : ℕ) : Pipe β := ⟨capacity, none, [], [], true, true⟩

variable (p : Pipe β)

/-- A turn of the loop, once the task has sent what it held. -/
def turn (t : Turn β) : Option (Pipe β) :=
  if p.running = true ∧ p.held = none then
    some { p with held := t.value?, running := t.goesOn }
  else none

/-- The task sends what it holds, or learns that nobody is there. -/
def send : Option (Pipe β) :=
  match p.held with
  | none => none
  | some b =>
    if p.connected = false then some { p with held := none, running := false }
    else if p.channel.length < p.capacity then
      some { p with held := none, channel := p.channel ++ [b] }
    else none

def take : Option (Pipe β) :=
  match p.channel with
  | [] => none
  | b :: rest => some { p with channel := rest, taken := p.taken ++ [b] }

def leave : Option (Pipe β) :=
  if p.connected then some { p with channel := [], connected := false } else none

def step : Act β → Option (Pipe β)
  | .turn t => p.turn t
  | .send => p.send
  | .take => p.take
  | .leave => p.leave

/-- A schedule of the task and the one who reads. -/
def exec : Pipe β → List (Act β) → Option (Pipe β)
  | p, [] => some p
  | p, a :: acts => (p.step a).bind fun p' => p'.exec acts

/-- The one who reads is there, and has come to the end. -/
def ended : Bool := p.connected && !p.running && p.held.isNone && p.channel.isEmpty

variable {p} {p' : Pipe β} {b : β} {t : Turn β} {a : Act β} {acts : List (Act β)}

/-! ### One step -/

/-- A turn needs a loop that is not over and a task with nothing to send. -/
theorem of_turn (h : p.turn t = some p') : p.running = true ∧ p.held = none ∧
    p' = { p with held := t.value?, running := t.goesOn } := by
  rw [turn] at h
  split at h
  · rename_i hready
    exact ⟨hready.1, hready.2, (Option.some.inj h).symm⟩
  · cases h

/-- A value is sent if somebody is there and there is room for it. -/
theorem of_send (h : p.send = some p') : ∃ b, p.held = some b ∧
    (p.connected = false ∧ p' = { p with held := none, running := false } ∨
      p.connected = true ∧ p.channel.length < p.capacity ∧
        p' = { p with held := none, channel := p.channel ++ [b] }) := by
  rw [send] at h
  split at h
  · cases h
  · rename_i b hheld
    refine ⟨b, hheld, ?_⟩
    split at h
    · exact Or.inl ⟨‹_›, (Option.some.inj h).symm⟩
    · rename_i hconnected
      split at h
      · exact Or.inr ⟨by simpa using hconnected, ‹_›, (Option.some.inj h).symm⟩
      · cases h

theorem of_take (h : p.take = some p') : ∃ b rest, p.channel = b :: rest ∧
    p' = { p with channel := rest, taken := p.taken ++ [b] } := by
  rw [take] at h
  split at h
  · cases h
  · rename_i b rest hchannel
    exact ⟨b, rest, hchannel, (Option.some.inj h).symm⟩

theorem of_leave (h : p.leave = some p') :
    p.connected = true ∧ p' = { p with channel := [], connected := false } := by
  rw [leave] at h
  split at h
  · exact ⟨‹_›, (Option.some.inj h).symm⟩
  · cases h

/-! ### What is on the way -/

/-- What the pipe has been fed is what was taken and, while somebody reads, what is
on the way. -/
structure Carries (p : Pipe β) (fed : List β) : Prop where
  room : p.channel.length ≤ p.capacity
  whole : p.connected = true → p.taken ++ p.channel ++ p.held.toList = fed
  taken : p.taken <+: fed
  gone : p.connected = false → p.channel = []

theorem Carries.new (capacity : ℕ) : (Pipe.new capacity : Pipe β).Carries [] where
  room := Nat.zero_le _
  whole _ := rfl
  taken := List.prefix_refl _
  gone h := by cases h

theorem Carries.turn {sofar : List β} (h : p.Carries sofar) (ht : p.turn t = some p') :
    p'.Carries (sofar ++ t.value?.toList) := by
  obtain ⟨-, hheld, rfl⟩ := of_turn ht
  refine ⟨h.room, fun hthere => ?_, h.taken.trans (List.prefix_append _ _), h.gone⟩
  have hwhole := h.whole hthere
  rw [hheld, Option.toList_none, List.append_nil] at hwhole
  rw [← hwhole]

theorem Carries.send {sofar : List β} (h : p.Carries sofar) (hs : p.send = some p') :
    p'.Carries sofar := by
  obtain ⟨b, hheld, ⟨hgone, rfl⟩ | ⟨hthere, hroom, rfl⟩⟩ := of_send hs
  · refine ⟨h.room, fun hthere => ?_, h.taken, h.gone⟩
    rw [hgone] at hthere
    cases hthere
  · refine ⟨?_, fun _ => ?_, h.taken, fun hgone => ?_⟩
    · change (p.channel ++ [b]).length ≤ p.capacity
      rw [List.length_append]
      exact hroom
    · have hwhole := h.whole hthere
      rw [hheld, Option.toList_some] at hwhole
      change p.taken ++ (p.channel ++ [b]) ++ [] = sofar
      rw [List.append_nil, ← List.append_assoc, hwhole]
    · rw [hthere] at hgone
      cases hgone

theorem Carries.take {sofar : List β} (h : p.Carries sofar) (ht : p.take = some p') :
    p'.Carries sofar := by
  obtain ⟨b, rest, hchannel, rfl⟩ := of_take ht
  -- whoever has gone has left nothing to take
  have hthere : p.connected = true := by
    by_contra hgone
    rw [h.gone (by simpa using hgone)] at hchannel
    cases hchannel
  have hwhole : p.taken ++ [b] ++ rest ++ p.held.toList = sofar := by
    rw [← h.whole hthere, hchannel, List.append_assoc p.taken]
    rfl
  refine ⟨?_, fun _ => hwhole, ?_, fun hgone => ?_⟩
  · have hroom := h.room
    rw [hchannel, List.length_cons] at hroom
    exact Nat.le_of_succ_le hroom
  · rw [← hwhole, List.append_assoc]
    exact List.prefix_append _ _
  · rw [hthere] at hgone
    cases hgone

theorem Carries.leave {sofar : List β} (h : p.Carries sofar) (hl : p.leave = some p') :
    p'.Carries sofar := by
  obtain ⟨-, rfl⟩ := of_leave hl
  refine ⟨Nat.zero_le _, fun hthere => ?_, h.taken, fun _ => rfl⟩
  cases hthere

theorem Carries.step {sofar : List β} (h : p.Carries sofar) (hs : p.step a = some p') :
    p'.Carries (sofar ++ fed [a]) := by
  cases a with
  | turn t =>
    have hfed : fed [Act.turn t] = t.value?.toList := List.append_nil _
    rw [hfed]
    exact h.turn hs
  | send => simpa [fed] using h.send hs
  | take => simpa [fed] using h.take hs
  | leave => simpa [fed] using h.leave hs

/-! ### Every schedule -/

theorem exec_concat (acts : List (Act β)) (a : Act β) :
    p.exec (acts ++ [a]) = (p.exec acts).bind fun p' => p'.step a := by
  induction acts generalizing p with
  | nil =>
    change (p.step a).bind some = p.step a
    exact Option.bind_fun_some _
  | cons a' acts ih =>
    rw [List.cons_append, exec, exec, Option.bind_assoc]
    congr 1
    funext p'
    exact ih

theorem capacity_step (hs : p.step a = some p') : p'.capacity = p.capacity := by
  cases a with
  | turn t => obtain ⟨-, -, rfl⟩ := of_turn hs; rfl
  | send => obtain ⟨b, -, ⟨-, rfl⟩ | ⟨-, -, rfl⟩⟩ := of_send hs <;> rfl
  | take => obtain ⟨b, rest, -, rfl⟩ := of_take hs; rfl
  | leave => obtain ⟨-, rfl⟩ := of_leave hs; rfl

/-- **Nothing is lost on the way**, in any schedule. -/
theorem exec_new {capacity : ℕ} (h : (new capacity).exec acts = some p) :
    p.Carries (fed acts) ∧ p.capacity = capacity := by
  induction acts using List.reverseRecOn generalizing p with
  | nil =>
    rw [← Option.some.inj h]
    exact ⟨.new capacity, rfl⟩
  | append_singleton acts a ih =>
    rw [exec_concat] at h
    obtain ⟨p₁, h₁, hs⟩ := Option.bind_eq_some_iff.mp h
    obtain ⟨hcarries, hcap⟩ := ih h₁
    have hfed : fed (acts ++ [a]) = fed acts ++ fed [a] := List.flatMap_append
    rw [hfed]
    exact ⟨hcarries.step hs, (capacity_step hs).trans hcap⟩

variable {sofar : List β}

/-- The task is ahead by the channel and one. -/
theorem Carries.length_le (h : p.Carries sofar) (hthere : p.connected = true) :
    sofar.length ≤ p.taken.length + (p.capacity + 1) := by
  have hheld : p.held.toList.length ≤ 1 := by cases p.held <;> simp
  have hroom := h.room
  rw [← h.whole hthere, List.length_append, List.length_append]
  omega

/-- With room for a value, what can go no further has got through. -/
theorem Carries.eq_of_stuck (h : p.Carries sofar) (hpos : 0 < p.capacity)
    (hthere : p.connected = true) (hsend : p.send = none) (htake : p.take = none) :
    p.taken = sofar := by
  have hchannel : p.channel = [] := by
    cases hc : p.channel with
    | nil => rfl
    | cons b rest =>
      rw [Pipe.take, hc] at htake
      cases htake
  have hheld : p.held = none := by
    cases hh : p.held with
    | none => rfl
    | some b =>
      rw [Pipe.send, hh] at hsend
      simp [hthere, hchannel, hpos] at hsend
  have hwhole := h.whole hthere
  rwa [hchannel, hheld, List.append_nil, Option.toList_none, List.append_nil] at hwhole

theorem ended_iff : p.ended = true ↔
    p.connected = true ∧ p.running = false ∧ p.held = none ∧ p.channel = [] := by
  simp [ended, and_assoc]

/-- Who has come to the end has taken everything. -/
theorem Carries.eq_of_ended (h : p.Carries sofar) (he : p.ended = true) : p.taken = sofar := by
  obtain ⟨hthere, -, hheld, hchannel⟩ := ended_iff.mp he
  have hwhole := h.whole hthere
  rwa [hchannel, hheld, List.append_nil, Option.toList_none, List.append_nil] at hwhole

end Pipe

end Forward
