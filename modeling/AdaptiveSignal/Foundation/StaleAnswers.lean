import Mathlib.Data.List.Basic

/-! # Answers about a key that changes

Requests are answered in their order, and the key that is wanted may change while
some are on the way. As long as no key comes back that is still on the way, an
answer about the wanted key has nothing but answers about it behind it.
-/

namespace AdaptiveSignal.Foundation

variable {Key : Type*} {key : Key} {line line' : List Key}

/-- Behind the wanted key there is nothing but the wanted key. -/
def Settling (key : Key) (line : List Key) : Prop :=
  line.Pairwise fun first later => first = key → later = key

namespace Settling

theorem request (h : Settling key line) : Settling key (line ++ [key]) := by
  refine List.pairwise_append.mpr ⟨h, List.pairwise_singleton _ _, fun _ _ later hlater _ => ?_⟩
  exact List.mem_singleton.mp hlater

theorem sublist (h : Settling key line) (hsub : line'.Sublist line) : Settling key line' :=
  List.Pairwise.sublist hsub h

theorem answered (h : Settling key (key :: line)) : ∀ later ∈ line, later = key :=
  fun _ hlater => List.rel_of_pairwise_cons h hlater rfl

theorem of_fresh (h : key ∉ line) : Settling key line :=
  List.pairwise_of_forall_mem_list fun _ hfirst _ _ heq => absurd (heq ▸ hfirst) h

end Settling

end AdaptiveSignal.Foundation
