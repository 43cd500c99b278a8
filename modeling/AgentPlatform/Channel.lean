/-
A bounded channel: threads put what they have into a queue that holds so many
and drop it when the queue is full; one worker takes from the other end.

A thread offers an element, and puts it later, so that what is offered and what
is queued may stand in different orders. `Moves` is what a move can do, and its
laws say what that leaves: nothing is lost or made (`contents`), the queue is
first in, first out (`line`), each thread puts what it offered, in its order
(`pendingOf`), and the queue holds no more than it can (`length_queue`).
-/
import Mathlib.Data.List.Perm.Basic

namespace AgentPlatform

structure Channel (θ α : Type) where
  /-- What each thread has offered, and has still to put. -/
  pending : List (θ × α) := []
  queue : List α := []
  /-- What the worker has taken, and has not finished with. -/
  held : Option α := none

namespace Channel

inductive Move (θ α : Type) where
  | offer (thread : θ) (a : α)
  | put (thread : θ)
  | take
  | finish

inductive Effect (θ α : Type) where
  | none
  | offered (thread : θ) (a : α)
  | queued (thread : θ) (a : α)
  | dropped (thread : θ) (a : α)
  | taken
  | finished (a : α)

variable {θ α : Type} [DecidableEq θ]

/-- A move that is not possible has no effect: a thread offers nothing more before
it has put what it offered, and the worker takes nothing more before it finished. -/
def step (bound : Nat) : Move θ α → Channel θ α → Effect θ α × Channel θ α
  | .offer thread a, c =>
    if c.pending.any fun p => p.1 = thread then (.none, c)
    else (.offered thread a, { c with pending := c.pending ++ [(thread, a)] })
  | .put thread, c =>
    match c.pending.find? fun p => p.1 = thread with
    | none => (.none, c)
    | some (_, a) =>
      let c := { c with pending := c.pending.eraseP fun p => p.1 = thread }
      if c.queue.length < bound then (.queued thread a, { c with queue := c.queue ++ [a] })
      else (.dropped thread a, c)
  | .take, c =>
    match c.held, c.queue with
    | none, a :: queue => (.taken, { c with queue, held := some a })
    | _, _ => (.none, c)
  | .finish, c =>
    match c.held with
    | none => (.none, c)
    | some a => (.finished a, { c with held := none })

namespace Effect

/-- What came in. -/
def offer : Effect θ α → Option (θ × α)
  | offered thread a => some (thread, a)
  | _ => Option.none

/-- What a thread put, whether there was room or not. -/
def put : Effect θ α → Option (θ × α)
  | queued thread a => some (thread, a)
  | dropped thread a => some (thread, a)
  | _ => Option.none

/-- What found room. -/
def enqueue : Effect θ α → Option α
  | queued _ a => some a
  | _ => Option.none

/-- What found none. -/
def drop : Effect θ α → Option α
  | dropped _ a => some a
  | _ => Option.none

/-- What the worker is done with. -/
def finish : Effect θ α → Option α
  | finished a => some a
  | _ => Option.none

end Effect

/-- What the worker has, and what waits for it, in order. -/
def line (c : Channel θ α) : List α := c.held.toList ++ c.queue

/-- All that is in the channel. -/
def contents (c : Channel θ α) : List α := c.line ++ c.pending.map Prod.snd

/-- What a thread has still to put. -/
def pendingOf (thread : θ) (c : Channel θ α) : List (θ × α) := c.pending.filter fun p => p.1 = thread

/-- What a move can do. -/
inductive Moves (bound : Nat) : Channel θ α → Effect θ α → Channel θ α → Prop where
  | none (c : Channel θ α) : Moves bound c .none c
  | offered (c : Channel θ α) (thread : θ) (a : α) :
    Moves bound c (.offered thread a) { c with pending := c.pending ++ [(thread, a)] }
  | queued (before after : List (θ × α)) (queue : List α) (held : Option α) (thread : θ) (a : α)
    (hbefore : ∀ p ∈ before, p.1 ≠ thread) (hroom : queue.length < bound) :
    Moves bound ⟨before ++ (thread, a) :: after, queue, held⟩ (.queued thread a) ⟨before ++ after, queue ++ [a], held⟩
  | dropped (before after : List (θ × α)) (queue : List α) (held : Option α) (thread : θ) (a : α)
    (hbefore : ∀ p ∈ before, p.1 ≠ thread) :
    Moves bound ⟨before ++ (thread, a) :: after, queue, held⟩ (.dropped thread a) ⟨before ++ after, queue, held⟩
  | taken (pending : List (θ × α)) (queue : List α) (a : α) :
    Moves bound ⟨pending, a :: queue, Option.none⟩ .taken ⟨pending, queue, some a⟩
  | finished (pending : List (θ × α)) (queue : List α) (a : α) :
    Moves bound ⟨pending, queue, some a⟩ (.finished a) ⟨pending, queue, Option.none⟩

theorem step_moves (bound : Nat) (m : Move θ α) (c : Channel θ α) :
    Moves bound c (step bound m c).1 (step bound m c).2 := by
  obtain ⟨pending, queue, held⟩ := c
  cases m with
  | offer thread a =>
    simp only [step]
    split
    · exact .none _
    · exact .offered ..
  | put thread =>
    simp only [step]
    split
    · exact .none _
    · rename_i other a hfind
      -- the element found is the first of the thread, and the one erased
      obtain ⟨hthread, before, after, rfl, hothers⟩ := List.find?_eq_some_iff_append.1 hfind
      obtain rfl : other = thread := of_decide_eq_true hthread
      have hbefore : ∀ p ∈ before, p.1 ≠ other := fun p hp => by simpa using hothers p hp
      rw [List.eraseP_append_right _ (fun p hp => by simpa using hbefore p hp), List.eraseP_cons_of_pos (by simp)]
      split
      · exact .queued _ _ _ _ _ _ hbefore ‹_›
      · exact .dropped _ _ _ _ _ _ hbefore
  | take =>
    rcases held with _ | b <;> rcases queue with _ | ⟨a, queue⟩
    case none.cons => exact .taken ..
    all_goals exact .none _
  | finish =>
    cases held with
    | none => exact .none _
    | some a => exact .finished ..

/-- Only an offer brings something in. -/
theorem offer_step (bound : Nat) {m : Move θ α} (hm : ∀ thread a, m ≠ .offer thread a) (c : Channel θ α) :
    (step bound m c).1.offer = none := by
  cases m with
  | offer thread a => exact absurd rfl (hm thread a)
  | put thread =>
    simp only [step]
    split
    · rfl
    · split <;> rfl
  | take =>
    simp only [step]
    split <;> rfl
  | finish =>
    simp only [step]
    split <;> rfl

section Laws

variable {bound : Nat} {c c' : Channel θ α} {e : Effect θ α}

omit [DecidableEq θ] in
/-- What was there or came in is there or went out. -/
theorem Moves.contents (h : Moves bound c e c') :
    (c.contents ++ e.offer.toList.map Prod.snd).Perm (e.finish.toList ++ e.drop.toList ++ c'.contents) := by
  cases h with
  | queued before after queue held thread a =>
    simp only [Effect.offer, Effect.finish, Effect.drop, Channel.contents, line, Option.toList_none, List.map_nil,
      List.append_nil, List.nil_append, List.map_append, List.map_cons, List.append_assoc]
    exact .append_left _ (.append_left _ List.perm_middle)
  | dropped before after queue held thread a =>
    have hout : (held.toList ++ queue ++ before.map Prod.snd ++ a :: after.map Prod.snd).Perm _ := List.perm_middle
    simpa [Effect.offer, Effect.finish, Effect.drop, Channel.contents, line] using hout
  | _ => simp [Effect.offer, Effect.finish, Effect.drop, Channel.contents, line]

omit [DecidableEq θ] in
/-- First in, first out. -/
theorem Moves.line (h : Moves bound c e c') : c.line ++ e.enqueue.toList = e.finish.toList ++ c'.line := by
  cases h <;> simp [Effect.enqueue, Effect.finish, Channel.line]

/-- A thread puts what it offered, in its order. -/
theorem Moves.pendingOf (h : Moves bound c e c') (thread : θ) :
    c.pendingOf thread ++ e.offer.toList.filter (fun p => p.1 = thread) =
      e.put.toList.filter (fun p => p.1 = thread) ++ c'.pendingOf thread := by
  have hput (before after : List (θ × α)) (other : θ) (a : α) (hbefore : ∀ p ∈ before, p.1 ≠ other) :
      (before ++ (other, a) :: after).filter (fun p => p.1 = thread) =
        [(other, a)].filter (fun p => p.1 = thread) ++ (before ++ after).filter fun p => p.1 = thread := by
    by_cases hother : other = thread
    · have hnone : before.filter (fun p => p.1 = thread) = [] := by simpa [← hother] using hbefore
      simp [hnone, hother]
    · simp [hother]
  cases h with
  | queued before after queue held other a hbefore =>
    simpa [Effect.offer, Effect.put, Channel.pendingOf] using hput before after other a hbefore
  | dropped before after queue held other a hbefore =>
    simpa [Effect.offer, Effect.put, Channel.pendingOf] using hput before after other a hbefore
  | _ => simp [Effect.offer, Effect.put, Channel.pendingOf]

omit [DecidableEq θ] in
/-- There is never more in the queue than it holds. -/
theorem Moves.length_queue (h : Moves bound c e c') (hc : c.queue.length ≤ bound) : c'.queue.length ≤ bound := by
  cases h with
  | queued before after queue held thread a hbefore hroom => simpa using Nat.succ_le_of_lt hroom
  | taken pending queue a => exact Nat.le_of_succ_le hc
  | _ => exact hc

end Laws

end Channel

end AgentPlatform
