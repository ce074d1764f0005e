import Mathlib
import Hnmos.BoundedFifo
import Hnmos.Events
import Hnmos.RingBuffer
import Hnmos.Transition

/-!
# The event queue

The queue of the interface is an array of 128 events with two 32-bit indices
that wrap at its size. It is a circular buffer, and a circular buffer is a
bounded queue: every push and poll is answered as the queue of 127 events
answers it.
-/

set_option autoImplicit false

namespace Hnmos.QueuedEvents
open Hnmos.BoundedFifo Hnmos.Events Hnmos.RingBuffer Hnmos.Transition

structure EventQueue where
  queue : Fin 128 → UiEvent
  head : UInt32
  tail : UInt32
  sequence : UInt32
  dropped : UInt32
  last : UiEvent
  hasRecent : Bool
  head_lt : head.toNat < 128
  tail_lt : tail.toNat < 128

def nextIndex (index : UInt32) : UInt32 := (index + 1) % 128

theorem nextIndex_toNat (index : UInt32) (h : index.toNat < 128) :
    (nextIndex index).toNat = if index.toNat + 1 = 128 then 0 else index.toNat + 1 := by
  rw [nextIndex, UInt32.toNat_mod, UInt32.toNat_add]
  show (index.toNat + 1) % 2 ^ 32 % 128 = _
  split_ifs <;> omega

theorem nextIndex_lt (index : UInt32) : (nextIndex index).toNat < 128 := by
  rw [nextIndex, UInt32.toNat_mod]
  exact Nat.mod_lt _ (by decide)

theorem zero_index_lt : (0 : UInt32).toNat < 128 := by decide

/-- Initialisation over whatever the array holds. -/
def EventQueue.init (q : EventQueue) : EventQueue where
  queue := q.queue
  head := 0
  tail := 0
  sequence := 0
  dropped := 0
  last := UiEvent.init .none
  hasRecent := false
  head_lt := zero_index_lt
  tail_lt := zero_index_lt

def EventQueue.push (q : EventQueue) (event : UiEvent) : Bool × EventQueue :=
  if nextIndex q.head = q.tail then (false, { q with dropped := q.dropped + 1 })
  else
    let queued := { event with sequence := q.sequence }
    (true, { q with
      sequence := q.sequence + 1
      queue := Function.update q.queue ⟨q.head.toNat, q.head_lt⟩ queued
      head := nextIndex q.head
      head_lt := nextIndex_lt q.head
      last := queued
      hasRecent := true })

def EventQueue.poll (q : EventQueue) : Option UiEvent × EventQueue :=
  if q.tail = q.head then (none, q)
  else
    (some (q.queue ⟨q.tail.toNat, q.tail_lt⟩),
      { q with tail := nextIndex q.tail, tail_lt := nextIndex_lt q.tail })

def EventQueue.recent (q : EventQueue) : Option UiEvent := if q.hasRecent then some q.last else none

def EventQueue.pendingCount (q : EventQueue) : UInt32 :=
  if q.head ≥ q.tail then q.head - q.tail else (128 - q.tail) + q.head

inductive Call where
  | push (event : UiEvent)
  | poll

/-- The queue with the events that were accepted, as the callers passed them,
and those that were polled. -/
structure Session where
  queue : EventQueue
  accepted : List UiEvent
  polled : List UiEvent

def Session.start (q : EventQueue) : Session := ⟨q.init, [], []⟩

def step (s : Session) : Call → Session
  | .push event =>
    let pushed := s.queue.push event
    ⟨pushed.2, if pushed.1 then s.accepted ++ [event] else s.accepted, s.polled⟩
  | .poll =>
    let polled := s.queue.poll
    ⟨polled.2, s.accepted, s.polled ++ polled.1.toList⟩

def stamp (number : ℕ) (event : UiEvent) : UiEvent :=
  { event with sequence := UInt32.ofNat number }

def EventQueue.ring (q : EventQueue) : Ring UiEvent 128 where
  cells := q.queue
  head := ⟨q.head.toNat, q.head_lt⟩
  tail := ⟨q.tail.toNat, q.tail_lt⟩
  dropped := q.dropped

theorem nextIndex_fin (index : UInt32) (h : index.toNat < 128) :
    (⟨(nextIndex index).toNat, nextIndex_lt index⟩ : Fin 128) = ⟨index.toNat, h⟩ + 1 := by
  apply Fin.ext
  rw [succ_val]
  exact nextIndex_toNat index h

theorem full_iff_next (q : EventQueue) : q.ring.full = true ↔ nextIndex q.head = q.tail := by
  show (⟨q.head.toNat, q.head_lt⟩ + 1 == (⟨q.tail.toNat, q.tail_lt⟩ : Fin 128)) = true ↔ _
  rw [beq_iff_eq, ← nextIndex_fin q.head q.head_lt, Fin.mk.injEq, UInt32.toNat_inj]

theorem push_ring (q : EventQueue) (event : UiEvent) :
    (q.push event).2.ring = q.ring.push { event with sequence := q.sequence } := by
  by_cases h : nextIndex q.head = q.tail
  · rw [push_full _ _ ((full_iff_next q).mpr h), EventQueue.push, if_pos h]
    rfl
  · have hfull : q.ring.full = false := by
      rw [Bool.eq_false_iff, Ne, full_iff_next]
      exact h
    rw [EventQueue.push, if_neg h, Ring.push, hfull, if_neg Bool.false_ne_true]
    rw [EventQueue.ring, EventQueue.ring, ← nextIndex_fin q.head q.head_lt]

theorem poll_ring (q : EventQueue) (h : q.tail ≠ q.head) :
    ∃ event, q.poll = (some event, q.poll.2) ∧ q.ring.pop = some (event, q.poll.2.ring) := by
  have hne : q.ring.tail ≠ q.ring.head := by
    intro he
    have hval : q.tail.toNat = q.head.toNat := congrArg (fun i : Fin 128 => i.val) he
    exact h (UInt32.toNat_inj.mp hval)
  rw [EventQueue.poll, if_neg h, Ring.pop, if_neg hne]
  refine ⟨_, rfl, ?_⟩
  rw [EventQueue.ring, EventQueue.ring, ← nextIndex_fin q.tail q.tail_lt]

theorem pendingCount_eq (q : EventQueue) : q.pendingCount.toNat = q.ring.pending := by
  have hh := q.head_lt
  have ht := q.tail_lt
  rw [Ring.pending, sub_val, EventQueue.pendingCount]
  show _ = if q.tail.toNat ≤ q.head.toNat then _ else _
  simp only [ge_iff_le, UInt32.le_iff_toNat_le]
  split_ifs with h
  · rw [UInt32.toNat_sub_of_le _ _ (UInt32.le_iff_toNat_le.mpr h)]
    rfl
  · have hsize : (128 - q.tail).toNat = 128 - q.tail.toNat := by
      rw [UInt32.toNat_sub_of_le]
      · rfl
      · rw [UInt32.le_iff_toNat_le]
        exact ht.le
    rw [UInt32.toNat_add, hsize]
    show (128 - q.tail.toNat + q.head.toNat) % 2 ^ 32 = 128 - q.tail.toNat + q.head.toNat
    omega

structure Refines (s : Session) (f : Fifo UiEvent 127) : Prop where
  contents : s.queue.ring.contents = f.pending stamp
  sequence : s.queue.sequence = UInt32.ofNat f.accepted.length
  recent : s.queue.recent = (numbered stamp f.accepted).getLast?
  accepted : s.accepted = f.accepted
  polled : s.polled = f.polled stamp

def fifoStep (f : Fifo UiEvent 127) : Call → Fifo UiEvent 127
  | .push event => (f.push event).2
  | .poll => (f.poll stamp).2

theorem refines_pending (s : Session) (f : Fifo UiEvent 127) (h : Refines s f) :
    s.queue.ring.pending = f.count := by
  rw [← contents_length, h.contents, pending_length]

theorem start_refines (q : EventQueue) : Refines (Session.start q) (Fifo.empty UiEvent 127) where
  contents := cleared_contents q.queue
  sequence := rfl
  recent := rfl
  accepted := rfl
  polled := rfl

/-- A push is accepted exactly when fewer than 127 events are pending; a
refused one changes the count of dropped events only. -/
theorem push_refines (s : Session) (f : Fifo UiEvent 127) (event : UiEvent) (h : Refines s f) :
    (s.queue.push event).1 = (f.push event).1 ∧
      Refines (step s (.push event)) (f.push event).2 ∧
      ((s.queue.push event).1 = false →
        (s.queue.push event).2 = { s.queue with dropped := s.queue.dropped + 1 }) := by
  have hpending := refines_pending s f h
  by_cases hnext : nextIndex s.queue.head = s.queue.tail
  · have hfull := (full_iff s.queue.ring).mp ((full_iff_next s.queue).mpr hnext)
    have hpush : s.queue.push event = (false, { s.queue with dropped := s.queue.dropped + 1 }) :=
      if_pos hnext
    rw [BoundedFifo.push_full f event (by omega), step, hpush]
    exact ⟨rfl, ⟨h.contents, h.sequence, h.recent, h.accepted, h.polled⟩, fun _ => rfl⟩
  · have hroom : s.queue.ring.full = false := by
      rw [Bool.eq_false_iff, Ne, full_iff_next]
      exact hnext
    have hcount : f.count < 127 := by
      have hle := count_le f
      have hnot : ¬ s.queue.ring.pending + 1 = 128 := by
        rw [← full_iff, hroom]
        exact Bool.false_ne_true
      omega
    have hstamp : { event with sequence := s.queue.sequence } = stamp f.accepted.length event := by
      rw [h.sequence]
      rfl
    obtain ⟨hanswer, hitems, haccepted, htaken⟩ := push_room stamp f event hcount
    have hpush : (s.queue.push event).1 = true := by
      rw [EventQueue.push, if_neg hnext]
    refine ⟨hpush.trans hanswer.symm, ⟨?_, ?_, ?_, ?_, ?_⟩, ?_⟩
    · show (s.queue.push event).2.ring.contents = _
      rw [push_ring, push_contents _ _ hroom, h.contents, hitems, hstamp]
    · show (s.queue.push event).2.sequence = _
      rw [EventQueue.push, if_neg hnext, haccepted, List.length_append, List.length_singleton,
        UInt32.ofNat_add, ← h.sequence]
      rfl
    · show (s.queue.push event).2.recent = _
      rw [EventQueue.push, if_neg hnext, haccepted, numbered_snoc, List.getLast?_concat, ← hstamp]
      rfl
    · show (if (s.queue.push event).1 then _ else _) = _
      rw [hpush, if_pos rfl, haccepted, h.accepted]
    · show s.polled = _
      rw [h.polled, Fifo.polled, Fifo.polled, haccepted, htaken, numbered_snoc,
        List.take_append_of_le_length]
      rw [numbered_length]
      exact f.taken_le
    · intro hrefused
      rw [hpush] at hrefused
      exact absurd hrefused.symm Bool.false_ne_true

theorem poll_refines (s : Session) (f : Fifo UiEvent 127) (h : Refines s f) :
    s.queue.poll.1 = (f.poll stamp).1 ∧ Refines (step s .poll) (f.poll stamp).2 := by
  have hpending := refines_pending s f h
  by_cases hempty : s.queue.tail = s.queue.head
  · have hnone : s.queue.poll = (none, s.queue) := if_pos hempty
    have hcount : f.count = 0 := by
      rw [← hpending, ← pendingCount_eq, EventQueue.pendingCount, hempty,
        if_pos (UInt32.le_refl _), UInt32.sub_self]
      rfl
    rw [poll_none stamp f hcount, step, hnone]
    exact ⟨rfl, ⟨h.contents, h.sequence, h.recent, h.accepted, by
      rw [Option.toList_none, List.append_nil]
      exact h.polled⟩⟩
  · obtain ⟨event, hpoll, hpop⟩ := poll_ring s.queue hempty
    have hring := pop_contents _ _ _ hpop
    have hcount : 0 < f.count := by
      rw [← pending_length stamp f, ← h.contents, hring, List.length_cons]
      exact Nat.succ_pos _
    obtain ⟨oldest, hfifo, hitems, haccepted, htaken⟩ := poll_some stamp f hcount
    rw [h.contents, hitems, List.cons.injEq] at hring
    obtain ⟨rfl, hrest⟩ := hring
    refine ⟨by rw [hpoll, hfifo], ⟨hrest.symm, ?_, ?_, ?_, ?_⟩⟩
    · show s.queue.poll.2.sequence = _
      rw [EventQueue.poll, if_neg hempty, haccepted]
      exact h.sequence
    · show s.queue.poll.2.recent = _
      rw [EventQueue.poll, if_neg hempty, haccepted]
      exact h.recent
    · rw [haccepted]
      exact h.accepted
    · show s.polled ++ s.queue.poll.1.toList = _
      rw [hpoll, h.polled, Fifo.polled, Fifo.polled, haccepted, htaken, List.take_add_one,
        ← List.head?_drop]
      have hhead : (f.pending stamp).head? = some oldest := by
        rw [hitems, List.head?_cons]
      rw [Fifo.pending] at hhead
      rw [hhead]

theorem step_refines (s : Session) (f : Fifo UiEvent 127) (call : Call) (h : Refines s f) :
    Refines (step s call) (fifoStep f call) := by
  cases call with
  | push event => exact (push_refines s f event h).2.1
  | poll => exact (poll_refines s f h).2

theorem run_refines (s : Session) (f : Fifo UiEvent 127) (calls : List Call) (h : Refines s f) :
    Refines (run step s calls) (run fifoStep f calls) := by
  induction calls generalizing s f with
  | nil => exact h
  | cons call calls ih => exact ih _ _ (step_refines s f call h)

theorem polled_length (f : Fifo UiEvent 127) : (f.polled stamp).length = f.taken := by
  rw [Fifo.polled, List.length_take, numbered_length, Nat.min_eq_left f.taken_le]

/-- After any pushes and polls since the initialisation, the queue is the
bounded queue of 127 events with the same history: the polled events are the
first accepted ones, numbered from 0 on, and a push is accepted exactly when
fewer than 127 events are pending. -/
theorem queue_refines (q : EventQueue) (calls : List Call) :
    let s := run step (Session.start q) calls
    Refines s (run fifoStep (Fifo.empty UiEvent 127) calls) ∧
    s.polled = (numbered stamp s.accepted).take s.polled.length ∧
    s.polled.length ≤ s.accepted.length ∧
    s.queue.pendingCount.toNat = s.accepted.length - s.polled.length ∧
    s.queue.recent = (numbered stamp s.accepted).getLast? ∧
    s.queue.poll.1 = (numbered stamp s.accepted)[s.polled.length]? ∧
    (∀ event, (s.queue.push event).1 = true ↔ s.queue.pendingCount.toNat < 127) ∧
    ∀ event, (s.queue.push event).1 = false →
      (s.queue.push event).2 = { s.queue with dropped := s.queue.dropped + 1 } := by
  intro s
  have h : Refines s (run fifoStep (Fifo.empty UiEvent 127) calls) :=
    run_refines _ _ calls (start_refines q)
  refine ⟨h, ?_⟩
  generalize run fifoStep (Fifo.empty UiEvent 127) calls = f at h
  have htaken : s.polled.length = f.taken := by rw [h.polled, polled_length]
  have hpending : s.queue.pendingCount.toNat = f.count :=
    (pendingCount_eq s.queue).trans (refines_pending s f h)
  rw [htaken, hpending, h.accepted]
  refine ⟨h.polled, f.taken_le, rfl, h.recent, ?_, ?_, ?_⟩
  · rw [(poll_refines s f h).1]
    by_cases hcount : f.count = 0
    · have hnone : f.accepted.length ≤ f.taken := by
        rw [Fifo.count] at hcount
        omega
      rw [poll_none stamp f hcount, List.getElem?_eq_none]
      rwa [numbered_length]
    · obtain ⟨oldest, hfifo, hitems, _⟩ := poll_some stamp f (Nat.pos_of_ne_zero hcount)
      rw [hfifo, ← List.head?_drop]
      have hhead := congrArg List.head? hitems
      rw [Fifo.pending, List.head?_cons] at hhead
      exact hhead.symm
  · intro event
    rw [(push_refines s f event h).1]
    by_cases hcount : f.count < 127
    · exact ⟨fun _ => hcount, fun _ => (push_room stamp f event hcount).1⟩
    · rw [BoundedFifo.push_full f event hcount]
      exact ⟨fun hfalse => absurd hfalse Bool.false_ne_true, fun hlt => absurd hlt hcount⟩
  · exact fun event => (push_refines s f event h).2.2

end Hnmos.QueuedEvents
