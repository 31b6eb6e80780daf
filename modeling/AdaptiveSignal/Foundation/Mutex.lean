import AdaptiveSignal.Foundation.Run
import Mathlib.Logic.Function.Basic
import Mathlib.Logic.Relation

/-! # Mutex traces and their interleavings

A thread is the list of the mutex operations it performs, together with its
accesses to what the mutexes protect. Traces of consecutive program sections
compose into a discipline for the whole program; traces of several threads
interleave over the owners of the mutexes.
-/

namespace AdaptiveSignal.Foundation

inductive LockEvent (Mutex : Type*)
  | lock (m : Mutex)
  | unlock (m : Mutex)
  | access (m : Mutex)
  deriving DecidableEq, Repr

section Trace

variable {Mutex : Type*} [DecidableEq Mutex]

namespace LockEvent

/-- The mutexes held after an event. Unlocking what is not held changes nothing. -/
def after (held : Mutex → Bool) : LockEvent Mutex → Mutex → Bool
  | .lock m => Function.update held m true
  | .unlock m => Function.update held m false
  | .access _ => held

/-- An access is made under its mutex. -/
def AccessHeld (held : Mutex → Bool) : LockEvent Mutex → Prop
  | .access m => held m = true
  | _ => True

/-- A mutex is not locked twice. -/
def LockFree (held : Mutex → Bool) : LockEvent Mutex → Prop
  | .lock m => held m = false
  | _ => True

instance (held : Mutex → Bool) : (event : LockEvent Mutex) → Decidable (AccessHeld held event)
  | .lock _ => isTrue trivial
  | .unlock _ => isTrue trivial
  | .access m => inferInstanceAs (Decidable (held m = true))

instance (held : Mutex → Bool) : (event : LockEvent Mutex) → Decidable (LockFree held event)
  | .lock m => inferInstanceAs (Decidable (held m = false))
  | .unlock _ => isTrue trivial
  | .access _ => isTrue trivial

end LockEvent

abbrev LockTrace (Mutex : Type*) := List (LockEvent Mutex)

/-- The mutexes held at the end of a trace. -/
abbrev heldAfter (held : Mutex → Bool) (trace : LockTrace Mutex) : Mutex → Bool :=
  run LockEvent.after held trace

abbrev AccessesHeld : (Mutex → Bool) → LockTrace Mutex → Prop :=
  Guarded LockEvent.after LockEvent.AccessHeld

abbrev LocksFree : (Mutex → Bool) → LockTrace Mutex → Prop :=
  Guarded LockEvent.after LockEvent.LockFree

/-- A section that finds the mutexes in one state and leaves them in another:
every access is made under its mutex, no mutex is locked twice, and acquisitions
and releases of `m` differ by what the section changes. -/
structure Disciplined (m : Mutex) (before after : Mutex → Bool) (trace : LockTrace Mutex) :
    Prop where
  accesses : AccessesHeld before trace
  locks : LocksFree before trace
  ends : heldAfter before trace = after
  balance : trace.count (.lock m) + (before m).toNat = trace.count (.unlock m) + (after m).toNat

variable {m : Mutex} {held held' held'' : Mutex → Bool} {first second : LockTrace Mutex}

theorem Disciplined.nil : Disciplined m held held [] := ⟨trivial, trivial, rfl, rfl⟩

theorem Disciplined.append (hfirst : Disciplined m held held' first)
    (hsecond : Disciplined m held' held'' second) :
    Disciplined m held held'' (first ++ second) where
  accesses := by
    refine Guarded.append.mpr ⟨hfirst.accesses, ?_⟩
    rw [show run LockEvent.after held first = held' from hfirst.ends]
    exact hsecond.accesses
  locks := by
    refine Guarded.append.mpr ⟨hfirst.locks, ?_⟩
    rw [show run LockEvent.after held first = held' from hfirst.ends]
    exact hsecond.locks
  ends := by rw [heldAfter, run_append, ← hsecond.ends, ← hfirst.ends]
  balance := by
    have hbefore := hfirst.balance
    have hafter := hsecond.balance
    rw [List.count_append, List.count_append]
    omega

/-- Sections that leave the mutexes as they find them, one after the other. -/
theorem Disciplined.flatMap {Item : Type*} {section' : Item → LockTrace Mutex} {items : List Item}
    (hsections : ∀ item, Disciplined m held held (section' item)) :
    Disciplined m held held (items.flatMap section') := by
  induction items with
  | nil => exact Disciplined.nil
  | cons item rest ih => exact (hsections item).append ih

end Trace

/-! ## Interleavings -/

section Interleaving

variable {Mutex Thread : Type*} [DecidableEq Mutex] [DecidableEq Thread]

/-- What every thread still has to do, and who owns the mutexes. -/
structure Threads (Mutex Thread : Type*) where
  remaining : Thread → LockTrace Mutex
  owner : Mutex → Option Thread

namespace Threads

def start (programs : Thread → LockTrace Mutex) : Threads Mutex Thread :=
  ⟨programs, fun _ => none⟩

/-- One thread performs its next operation; only a lock can be refused. -/
inductive Step : Threads Mutex Thread → Threads Mutex Thread → Prop
  | lock {s : Threads Mutex Thread} {t : Thread} {m : Mutex} {rest : LockTrace Mutex}
      (hnext : s.remaining t = .lock m :: rest) (hfree : s.owner m = none) :
      Step s ⟨Function.update s.remaining t rest, Function.update s.owner m (some t)⟩
  | unlock {s : Threads Mutex Thread} {t : Thread} {m : Mutex} {rest : LockTrace Mutex}
      (hnext : s.remaining t = .unlock m :: rest) :
      Step s ⟨Function.update s.remaining t rest, Function.update s.owner m none⟩
  | access {s : Threads Mutex Thread} {t : Thread} {m : Mutex} {rest : LockTrace Mutex}
      (hnext : s.remaining t = .access m :: rest) :
      Step s ⟨Function.update s.remaining t rest, s.owner⟩

abbrev Reaches : Threads Mutex Thread → Threads Mutex Thread → Prop :=
  Relation.ReflTransGen Step

/-- The thread owns one mutex and its next operation is to lock another. -/
def HoldsAndWants (s : Threads Mutex Thread) (t : Thread) (holds wants : Mutex) : Prop :=
  s.owner holds = some t ∧ ∃ rest, s.remaining t = .lock wants :: rest

/-- The owners while a single thread has run. -/
def ownedBy (t : Thread) (held : Mutex → Bool) : Mutex → Option Thread :=
  fun m => if held m then some t else none

omit [DecidableEq Thread] in
theorem update_ownedBy_true (t : Thread) (held : Mutex → Bool) (m : Mutex) :
    Function.update (ownedBy t held) m (some t) = ownedBy t (Function.update held m true) := by
  funext m'
  rcases eq_or_ne m' m with rfl | hne
  · simp [ownedBy]
  · simp [ownedBy, hne]

omit [DecidableEq Thread] in
theorem update_ownedBy_false (t : Thread) (held : Mutex → Bool) (m : Mutex) :
    Function.update (ownedBy t held) m none = ownedBy t (Function.update held m false) := by
  funext m'
  rcases eq_or_ne m' m with rfl | hne
  · simp [ownedBy]
  · simp [ownedBy, hne]

/-- A thread that locks no mutex twice runs on by itself. -/
theorem reaches_solo {t : Thread} {done rest : LockTrace Mutex} {held : Mutex → Bool}
    (hfree : LocksFree held done) {remaining : Thread → LockTrace Mutex}
    (hprogram : remaining t = done ++ rest) :
    Reaches ⟨remaining, ownedBy t held⟩
      ⟨Function.update remaining t rest, ownedBy t (heldAfter held done)⟩ := by
  induction done generalizing held remaining with
  | nil =>
      rw [List.nil_append] at hprogram
      rw [← hprogram, Function.update_eq_self]
      exact Relation.ReflTransGen.refl
  | cons event done ih =>
      obtain ⟨hevent, hrest⟩ := hfree
      have hself : Function.update remaining t (done ++ rest) t = done ++ rest :=
        Function.update_self ..
      have hnext := ih hrest hself
      rw [Function.update_idem] at hnext
      refine Relation.ReflTransGen.head ?_ hnext
      -- only a lock can be refused, and the mutex is not held
      cases event with
      | lock m =>
          rw [LockEvent.after, ← update_ownedBy_true]
          exact Step.lock hprogram (by simp only [ownedBy, show held m = false from hevent]; rfl)
      | unlock m =>
          rw [LockEvent.after, ← update_ownedBy_false]
          exact Step.unlock hprogram
      | access m => exact Step.access hprogram

/-- Two threads that nest two mutexes in opposite orders can wait for each other. -/
theorem circularWait_of_opposite_nesting {programs : Thread → LockTrace Mutex} {t u : Thread}
    (hthreads : t ≠ u) {c s : Mutex} (hmutexes : c ≠ s) {done after rest : LockTrace Mutex}
    (hfirst : programs t = done ++ .lock s :: after)
    (hsecond : programs u = .lock s :: .lock c :: rest)
    (hfree : LocksFree (fun _ => false) done)
    (hholds : heldAfter (fun _ => false) done c = true)
    (hnot : heldAfter (fun _ => false) done s = false) :
    ∃ reached, Reaches (start programs) reached ∧
      reached.HoldsAndWants t c s ∧ reached.HoldsAndWants u s c := by
  -- the first thread runs up to its second lock, then the other takes that mutex
  have hrun := reaches_solo hfree hfirst
  have hnext : Function.update programs t (.lock s :: after) u = .lock s :: .lock c :: rest := by
    rw [Function.update_of_ne hthreads.symm, hsecond]
  have hunowned : ownedBy t (heldAfter (fun _ => false) done) s = none := by
    simp only [ownedBy, hnot]
    rfl
  have hlock := Step.lock (s := ⟨Function.update programs t (.lock s :: after),
    ownedBy t (heldAfter (fun _ => false) done)⟩) hnext hunowned
  refine ⟨_, hrun.tail hlock, ⟨?_, after, ?_⟩, ?_, rest, ?_⟩
  · simp only [Function.update_of_ne hmutexes, ownedBy, hholds, if_true]
  · simp only [Function.update_of_ne hthreads, Function.update_self]
  · simp only [Function.update_self]
  · simp only [Function.update_self]

end Threads

end Interleaving

end AdaptiveSignal.Foundation
