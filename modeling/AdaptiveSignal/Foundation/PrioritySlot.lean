import AdaptiveSignal.Foundation.Run
import Mathlib.Data.List.MinMax

/-! # A resource that the most urgent request holds

A slot keeps one request. A later one takes its place only with a smaller rank,
and the slot is freed by whoever holds it or by a condition on the request it
holds. Against it stands a list of all requests made since the slot was last
free: the slot holds the first of the most urgent of them.
-/

namespace AdaptiveSignal.Foundation

inductive SlotEvent (Request Id : Type*)
  | start (request : Request)
  | finish (id : Id)
  | expire (stale : Request → Bool)

namespace PrioritySlot

variable {Request Id Rank : Type*} [LinearOrder Rank] (rank : Request → Rank)

/-- The first of the most urgent requests. -/
def holder (requests : List Request) : Option Request :=
  requests.argmin rank

/-- The requests before the holder are less urgent, and those after it not more so. -/
theorem holder_spec {requests : List Request} {request : Request}
    (h : holder rank requests = some request) :
    ∃ before after, requests = before ++ request :: after ∧
      (∀ earlier ∈ before, rank request < rank earlier) ∧
      ∀ later ∈ after, rank request ≤ rank later := by
  induction requests using List.reverseRecOn with
  | nil => cases h
  | append_singleton requests last ih =>
      rw [holder, List.argmin_concat] at h
      cases hslot : requests.argmin rank with
      | none =>
          rw [hslot] at h
          obtain rfl := Option.some.inj h
          rw [List.argmin_eq_none.mp hslot]
          exact ⟨[], [], rfl, by simp, by simp⟩
      | some first =>
          simp only [hslot] at h
          split_ifs at h with hlt
          · obtain rfl := Option.some.inj h
            refine ⟨requests, [], rfl, fun earlier hearlier => ?_, by simp⟩
            exact hlt.trans_le (List.le_of_mem_argmin hearlier hslot)
          · obtain rfl := Option.some.inj h
            obtain ⟨before, after, rfl, hbefore, hafter⟩ := ih hslot
            refine ⟨before, after ++ [last], by simp, hbefore, fun later hlater => ?_⟩
            rcases List.mem_append.mp hlater with hold | hnew
            · exact hafter later hold
            · rw [List.mem_singleton.mp hnew]
              exact not_lt.mp hlt

theorem holder_cases (requests : List Request) :
    (requests = [] ∧ holder rank requests = none) ∨
      ∃ before request after, requests = before ++ request :: after ∧
        holder rank requests = some request ∧
        (∀ earlier ∈ before, rank request < rank earlier) ∧
        ∀ later ∈ after, rank request ≤ rank later := by
  cases hslot : holder rank requests with
  | none => exact Or.inl ⟨List.argmin_eq_none.mp hslot, rfl⟩
  | some request =>
      obtain ⟨before, after, heq, hbefore, hafter⟩ := holder_spec rank hslot
      exact Or.inr ⟨before, request, after, heq, rfl, hbefore, hafter⟩

variable [DecidableEq Id] (idOf : Request → Id)

/-- The slot itself: it remembers the request it holds and no other. -/
def step (slot : Option Request) : SlotEvent Request Id → Option Request
  | .start request =>
      match slot with
      | none => some request
      | some holder => if rank request < rank holder then some request else some holder
  | .finish id => slot.filter fun holder => idOf holder ≠ id
  | .expire stale => slot.filter fun holder => !stale holder

/-- All requests since the slot was free, which it is once its holder leaves. -/
def track (requests : List Request) : SlotEvent Request Id → List Request
  | .start request => requests ++ [request]
  | .finish id =>
      if (holder rank requests).any fun holder => idOf holder = id then [] else requests
  | .expire stale => if (holder rank requests).any stale then [] else requests

theorem step_holder (requests : List Request) (event : SlotEvent Request Id) :
    step rank idOf (holder rank requests) event =
      holder rank (track rank idOf requests event) := by
  have hfree : ∀ leaves : Request → Bool,
      (holder rank requests).filter (fun holder => !leaves holder) =
        holder rank (if (holder rank requests).any leaves then [] else requests) := by
    intro leaves
    cases hslot : holder rank requests with
    | none => simp [hslot]
    | some request =>
        rw [Option.any_some, Option.filter_some]
        cases leaves request with
        | false => exact hslot.symm
        | true => rfl
  cases event with
  | start request =>
      simp only [step, track, holder, List.argmin_concat]
      cases requests.argmin rank <;> rfl
  | finish id => simpa [step, track] using hfree fun holder => idOf holder = id
  | expire stale => exact hfree stale

/-- The requests in the list satisfy what the requests of a run do. -/
theorem track_forall {holds : Request → Prop} {requests : List Request}
    (hrequests : ∀ request ∈ requests, holds request) {event : SlotEvent Request Id}
    (hevent : ∀ request, event = .start request → holds request) :
    ∀ request ∈ track rank idOf requests event, holds request := by
  cases event with
  | start request =>
      intro other hother
      rcases List.mem_append.mp hother with hold | hnew
      · exact hrequests other hold
      · exact List.mem_singleton.mp hnew ▸ hevent request rfl
  | finish id =>
      simp only [track]
      split_ifs
      · simp
      · exact hrequests
  | expire stale =>
      simp only [track]
      split_ifs
      · simp
      · exact hrequests

theorem run_track_forall {holds : Request → Prop} {events : List (SlotEvent Request Id)}
    (hevents : ∀ request, .start request ∈ events → holds request) :
    ∀ request ∈ run (track rank idOf) [] events, holds request := by
  refine run_invariant_of_mem (track rank idOf)
    (fun requests => ∀ request ∈ requests, holds request) events (by simp)
    fun requests event hevent hrequests => ?_
  exact track_forall rank idOf hrequests fun request hstart => hevents request (hstart ▸ hevent)

theorem holder_mem {requests : List Request} {request : Request}
    (h : request ∈ holder rank requests) : request ∈ requests :=
  List.argmin_mem h

/-- A machine whose steps keep it related to the slot is related, after any run, to
the first of the most urgent requests since the slot was free. -/
theorem run_simulates {State Event : Type*} {move : State → Event → State}
    (related : State → Option Request → Prop) {toEvent : Event → SlotEvent Request Id}
    {holds : Request → Prop}
    (hmove : ∀ s slot event, related s slot → (∀ request ∈ slot, holds request) →
      related (move s event) (step rank idOf slot (toEvent event)))
    {s : State} {requests : List Request} (hs : related s (holder rank requests))
    (hrequests : ∀ request ∈ requests, holds request) {events : List Event}
    (hevents : ∀ event ∈ events, ∀ request, toEvent event = .start request → holds request) :
    related (run move s events)
      (holder rank (run (track rank idOf) requests (events.map toEvent))) := by
  induction events generalizing s requests with
  | nil => exact hs
  | cons event rest ih =>
      have hnow := hmove s (holder rank requests) event hs fun request hrequest =>
        hrequests request (holder_mem rank hrequest)
      rw [step_holder] at hnow
      rw [run_cons, List.map_cons, run_cons]
      apply ih hnow
      · exact track_forall rank idOf hrequests (hevents event List.mem_cons_self)
      · exact fun later hlater => hevents later (List.mem_cons_of_mem event hlater)

end PrioritySlot

end AdaptiveSignal.Foundation
