import Mathlib.Data.List.Nodup
import Mathlib.Logic.Function.Basic

/-! # Singly linked lists

Every node holds the address of the next one, or none. A segment is the sequence of nodes from
one address on until another is reached; a list is a segment that ends where there is none.
-/

namespace AdaptiveSignal.Foundation

variable {Node : Type*}

/-- From `start` one comes along these nodes, in this order, to `stop`. -/
def Segment (next : Node → Option Node) : Option Node → List Node → Option Node → Prop
  | start, [], stop => start = stop
  | start, node :: rest, stop => start = some node ∧ Segment next (next node) rest stop

namespace Segment

variable {next next' : Node → Option Node} {start stop : Option Node} {nodes : List Node}

theorem append_iff {first second : List Node} :
    Segment next start (first ++ second) stop ↔
      ∃ middle, Segment next start first middle ∧ Segment next middle second stop := by
  induction first generalizing start with
  | nil => exact ⟨fun h => ⟨start, rfl, h⟩, fun ⟨_, hstart, h⟩ => hstart ▸ h⟩
  | cons node first ih =>
      simp only [List.cons_append, Segment, ih]
      constructor
      · rintro ⟨hstart, middle, hfirst, hsecond⟩
        exact ⟨middle, ⟨hstart, hfirst⟩, hsecond⟩
      · rintro ⟨middle, ⟨hstart, hfirst⟩, hsecond⟩
        exact ⟨hstart, middle, hfirst, hsecond⟩

/-- Only the links of the nodes passed matter. -/
theorem congr (h : Segment next start nodes stop) (hnext : ∀ q ∈ nodes, next' q = next q) :
    Segment next' start nodes stop := by
  induction nodes generalizing start with
  | nil => exact h
  | cons node rest ih =>
      refine ⟨h.1, ?_⟩
      rw [hnext node List.mem_cons_self]
      exact ih h.2 fun q hq => hnext q (List.mem_cons_of_mem node hq)

variable [DecidableEq Node]

/-- The link of the last node can be turned elsewhere. -/
theorem redirect {before : List Node} {last : Node}
    (h : Segment next start (before ++ [last]) stop) (hlast : last ∉ before)
    (target : Option Node) :
    Segment (Function.update next last target) start (before ++ [last]) target := by
  obtain ⟨middle, hbefore, hend⟩ := append_iff.mp h
  refine append_iff.mpr ⟨middle, hbefore.congr fun q hq => ?_, hend.1, ?_⟩
  · exact Function.update_of_ne (ne_of_mem_of_not_mem hq hlast) _ _
  · exact Function.update_self last target next

/-- A node that is linked nowhere goes to the end of the list. -/
theorem append_node {before : List Node} {last new : Node}
    (h : Segment next start (before ++ [last]) none) (hlast : last ∉ before)
    (hnew : new ∉ before ++ [last]) (hend : next new = none) :
    Segment (Function.update next last (some new)) start (before ++ [last] ++ [new]) none := by
  refine append_iff.mpr ⟨some new, h.redirect hlast (some new), rfl, ?_⟩
  have hne : new ≠ last := fun heq => hnew (heq ▸ List.mem_append_right before List.mem_cons_self)
  rw [Function.update_of_ne hne]
  exact hend

/-- The node after another comes out of the list. -/
theorem bypass {before after : List Node} {previous q : Node}
    (h : Segment next start (before ++ previous :: q :: after) stop)
    (hnodup : (before ++ previous :: q :: after).Nodup) :
    Segment (Function.update next previous (next q)) start (before ++ previous :: after) stop := by
  rw [List.append_cons, append_iff] at h
  obtain ⟨middle, hbefore, hrest⟩ := h
  have hout := (List.nodup_cons.mp (List.nodup_middle.mp hnodup)).1
  rw [List.append_cons, append_iff]
  refine ⟨next q, hbefore.redirect (fun hmem => hout (List.mem_append_left _ hmem)) _,
    hrest.2.congr fun p hp => Function.update_of_ne ?_ _ _⟩
  exact ne_of_mem_of_not_mem (List.mem_append_right _ (List.mem_cons_of_mem q hp)) hout

end Segment

end AdaptiveSignal.Foundation
