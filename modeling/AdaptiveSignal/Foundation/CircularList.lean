import Mathlib.Data.List.Chain
import Mathlib.Data.List.Nodup
import Mathlib.Logic.Function.Basic

/-! # Intrusive circular lists

A circular list is threaded through its nodes: every node holds the address of
the next and of the previous one, and a head node closes the circle. The four
assignments of an insertion at either end and the two of a removal are performed
in order on the two maps from nodes to addresses. The list they represent is the
sequence of nodes between the head and itself.
-/

namespace AdaptiveSignal.Foundation

/-- The two addresses stored in every node. -/
structure Links (Node : Type*) where
  next : Node → Node
  prev : Node → Node

namespace Links

section Represented

variable {Node : Type*}

/-- The node after the head; the head itself when the list is empty. -/
def head (l : Links Node) (h : Node) : Node :=
  l.next h

/-- Two nodes that follow each other point at each other. -/
def Linked (l : Links Node) (first second : Node) : Prop :=
  l.next first = second ∧ l.prev second = first

/-- The links thread exactly these nodes, in this order, from the head around to the head. -/
structure Threads (l : Links Node) (h : Node) (nodes : List Node) : Prop where
  chain : (h :: nodes ++ [h]).IsChain l.Linked
  nodup : (h :: nodes).Nodup

variable {l : Links Node} {h : Node} {nodes : List Node}

theorem Threads.head_cons {first : Node} (hl : l.Threads h (first :: nodes)) :
    l.head h = first := by
  have hchain := hl.chain
  simp only [List.cons_append, List.isChain_cons_cons] at hchain
  exact hchain.1.1

/-- The last node, the head when there is none, is the one before the head. -/
theorem Threads.last_linked (hl : l.Threads h nodes) {last : Node}
    (hlast : last ∈ (h :: nodes).getLast?) : l.next last = h ∧ l.prev h = last :=
  (List.isChain_append.mp hl.chain).2.2 last hlast h (by simp)

theorem Threads.next_head (hl : l.Threads h nodes) : l.next h = nodes.headD h := by
  have hchain := hl.chain
  cases nodes with
  | nil => exact (List.isChain_cons_cons.mp hchain).1.1
  | cons first rest => exact (List.isChain_cons_cons.mp hchain).1.1

/-- Around a node of the list stand the last of those before it and the first of those
after it. -/
theorem Threads.linked_around {before after : List Node} {q : Node}
    (hl : l.Threads h (before ++ q :: after)) :
    l.Linked ((h :: before).getLast (List.cons_ne_nil h before)) q ∧
      l.Linked q (after.headD h) := by
  have hchain := hl.chain
  rw [← List.cons_append, List.append_assoc] at hchain
  obtain ⟨-, hafter, hbetween⟩ := List.isChain_append.mp hchain
  refine ⟨?_, ?_⟩
  · exact hbetween _ (List.getLast_mem_getLast? _) q rfl
  · cases after with
    | nil => exact (List.isChain_cons_cons.mp hafter).1
    | cons first rest => exact (List.isChain_cons_cons.mp hafter).1

theorem Threads.next_ne {before after : List Node} {q : Node}
    (hl : l.Threads h (before ++ q :: after)) : l.next q ≠ q := by
  rw [hl.linked_around.2.1]
  have hnodup := hl.nodup
  cases after with
  | nil =>
      rintro rfl
      exact (List.nodup_cons.mp hnodup).1 (by simp)
  | cons first rest =>
      rintro rfl
      have hafter := (List.nodup_append.mp (List.nodup_cons.mp hnodup).2).2.1
      exact (List.nodup_cons.mp hafter).1 List.mem_cons_self

theorem Threads.prev_ne {before after : List Node} {q : Node}
    (hl : l.Threads h (before ++ q :: after)) : l.prev q ≠ q := by
  rw [hl.linked_around.1.2]
  have hnodup := hl.nodup
  rw [← List.cons_append, List.nodup_append] at hnodup
  exact hnodup.2.2 _ (List.getLast_mem _) q List.mem_cons_self

/-- Links that agree on the head and the nodes thread the same list. -/
theorem Threads.congr {l' : Links Node} (hl : l.Threads h nodes)
    (hnext : ∀ q ∈ h :: nodes, l'.next q = l.next q)
    (hprev : ∀ q ∈ h :: nodes, l'.prev q = l.prev q) : l'.Threads h nodes where
  chain := by
    have hmem {q : Node} (hq : q ∈ h :: nodes ++ [h]) : q ∈ h :: nodes := by
      rcases List.mem_append.mp hq with hq | hq
      · exact hq
      · exact List.mem_singleton.mp hq ▸ List.mem_cons_self
    refine hl.chain.imp_of_mem_imp fun x y hx hy hxy => ⟨?_, ?_⟩
    · rw [hnext x (hmem hx)]
      exact hxy.1
    · rw [hprev y (hmem hy)]
      exact hxy.2
  nodup := hl.nodup

/-- A list can be read from any of its nodes around to it. -/
theorem Threads.rotate {before after : List Node} {q : Node}
    (hl : l.Threads h (before ++ q :: after)) : l.Threads q (after ++ h :: before) where
  chain := by
    have hcircle (p q : Node) (first second : List Node) :
        p :: (first ++ q :: second) ++ [p] = (p :: first) ++ q :: (second ++ [p]) := by simp
    have hchain := hl.chain
    rw [hcircle, List.isChain_split] at hchain
    rw [hcircle, List.isChain_split]
    exact hchain.symm
  nodup := by
    rw [← List.cons_append]
    exact (@List.perm_append_comm _ (h :: before) _).nodup_iff.mp hl.nodup

/-- One comes from the first node to the second along the links. -/
def Reaches (l : Links Node) (first second : Node) : Prop :=
  Relation.ReflTransGen (fun p q => l.next p = q) first second

theorem reaches_of_chain {first : Node} {rest : List Node}
    (hchain : (first :: rest).IsChain l.Linked) : ∀ q ∈ rest, l.Reaches first q := by
  induction rest generalizing first with
  | nil => exact fun q hq => absurd hq List.not_mem_nil
  | cons second rest ih =>
      obtain ⟨hlinked, hrest⟩ := List.isChain_cons_cons.mp hchain
      intro q hq
      rcases List.mem_cons.mp hq with rfl | hq
      · exact .single hlinked.1
      · exact .head hlinked.1 (ih hrest q hq)

theorem Threads.next_mem (hl : l.Threads h nodes) {q : Node} (hq : q ∈ h :: nodes) :
    l.next q ∈ h :: nodes := by
  rcases List.mem_cons.mp hq with rfl | hq
  · rw [hl.next_head]
    cases nodes with
    | nil => exact List.mem_cons_self
    | cons first rest => exact List.mem_cons_of_mem _ List.mem_cons_self
  · obtain ⟨before, after, rfl⟩ := List.append_of_mem hq
    rw [hl.linked_around.2.1]
    cases after with
    | nil => exact List.mem_cons_self
    | cons first rest => simp

/-- From the head one comes to the nodes of the list and to no others. -/
theorem Threads.reaches_iff (hl : l.Threads h nodes) {q : Node} :
    l.Reaches h q ↔ q ∈ h :: nodes := by
  constructor
  · intro hreach
    induction hreach with
    | refl => exact List.mem_cons_self
    | tail _ hnext ih => exact hnext ▸ hl.next_mem ih
  · intro hq
    rcases List.mem_cons.mp hq with rfl | hq
    · exact .refl
    · exact reaches_of_chain (List.isChain_append.mp hl.chain).1 q hq

/-- The links of every node that is not listed are the same. -/
def SameOutside (changed : List Node) (l l' : Links Node) : Prop :=
  ∀ q ∉ changed, l'.next q = l.next q ∧ l'.prev q = l.prev q

theorem SameOutside.refl (changed : List Node) (l : Links Node) : l.SameOutside changed l :=
  fun _ _ => ⟨rfl, rfl⟩

theorem SameOutside.trans {changed : List Node} {l l' l'' : Links Node}
    (hfirst : SameOutside changed l l') (hsecond : SameOutside changed l' l'') :
    SameOutside changed l l'' :=
  fun q hq => ⟨(hsecond q hq).1.trans (hfirst q hq).1, (hsecond q hq).2.trans (hfirst q hq).2⟩

theorem SameOutside.mono {changed more : List Node} {l l' : Links Node}
    (hsame : SameOutside changed l l') (hsub : changed ⊆ more) : SameOutside more l l' :=
  fun q hq => hsame q fun hmem => hq (hsub hmem)

/-- A list none of whose nodes is touched stays threaded. -/
theorem Threads.sameOutside {changed : List Node} {l' : Links Node} (hl : l.Threads h nodes)
    (hsame : SameOutside changed l l') (hdisjoint : ∀ q ∈ h :: nodes, q ∉ changed) :
    l'.Threads h nodes :=
  hl.congr (fun q hq => (hsame q (hdisjoint q hq)).1) fun q hq => (hsame q (hdisjoint q hq)).2

end Represented

variable {Node : Type*} [DecidableEq Node]

def setNext (l : Links Node) (q target : Node) : Links Node :=
  { l with next := Function.update l.next q target }

def setPrev (l : Links Node) (q target : Node) : Links Node :=
  { l with prev := Function.update l.prev q target }

/-- The head alone, linked to itself. -/
def init (l : Links Node) (h : Node) : Links Node :=
  (l.setNext h h).setPrev h h

def insertTail (l : Links Node) (h q : Node) : Links Node :=
  let l := l.setNext q h
  let l := l.setPrev q (l.prev h)
  let l := l.setNext (l.prev q) q
  l.setPrev h q

def insertHead (l : Links Node) (h q : Node) : Links Node :=
  let l := l.setNext q (l.next h)
  let l := l.setPrev q h
  let l := l.setPrev (l.next h) q
  l.setNext h q

def remove (l : Links Node) (q : Node) : Links Node :=
  let l := l.setNext (l.prev q) (l.next q)
  l.setPrev (l.next q) (l.prev q)

/-- The removal with its assignments the other way around. -/
def unlink (l : Links Node) (q : Node) : Links Node :=
  let l := l.setPrev (l.next q) (l.prev q)
  l.setNext (l.prev q) (l.next q)

/-- `list_add_tail(q, h)`, which reads the last node before it links anything. -/
def addTail (l : Links Node) (q h : Node) : Links Node :=
  let prev := l.prev h
  let l := l.setNext prev q
  let l := l.setNext q h
  let l := l.setPrev q prev
  l.setPrev h q

variable {l : Links Node} {h q : Node} {nodes : List Node}

theorem insertTail_next :
    (l.insertTail h q).next =
      Function.update (Function.update l.next q h) (l.prev h) q := by
  simp [insertTail, setNext, setPrev]

theorem insertTail_prev :
    (l.insertTail h q).prev = Function.update (Function.update l.prev q (l.prev h)) h q := rfl

theorem threads_init : (l.init h).Threads h [] where
  chain := by simp [init, setNext, setPrev, Linked]
  nodup := by simp

/-- A node that is not threaded yet goes to the end of the list. -/
theorem Threads.insertTail (hl : l.Threads h nodes) (hq : q ∉ h :: nodes) :
    (l.insertTail h q).Threads h (nodes ++ [q]) := by
  obtain ⟨last, hlast⟩ : ∃ last, last ∈ (h :: nodes).getLast? :=
    ⟨_, List.getLast?_eq_getLast_of_ne_nil (List.cons_ne_nil h nodes)⟩
  obtain ⟨hnext, hprev⟩ := hl.last_linked hlast
  have hmem : last ∈ h :: nodes := List.mem_of_getLast? hlast
  have hlq : last ≠ q := ne_of_mem_of_not_mem hmem hq
  have hhq : h ≠ q := ne_of_mem_of_not_mem List.mem_cons_self hq
  refine ⟨?_, ?_⟩
  · rw [List.cons_append, List.append_assoc, ← List.cons_append, List.singleton_append]
    refine List.isChain_append.mpr ⟨?_, ?_, ?_⟩
    · -- The links inside the old list stay: none of them leaves the last node.
      refine (List.isChain_append.mp hl.chain).1.imp_of_mem_tail_imp ?_
      intro x y hx hy hxy
      have hyh : y ≠ h := ne_of_mem_of_not_mem hy (List.nodup_cons.mp hl.nodup).1
      have hyq : y ≠ q := ne_of_mem_of_not_mem (List.mem_cons_of_mem h hy) hq
      have hxq : x ≠ q := ne_of_mem_of_not_mem hx hq
      have hxlast : x ≠ last := by
        rintro rfl
        exact hyh (hxy.1.symm.trans hnext)
      constructor
      · rw [insertTail_next, hprev, Function.update_of_ne hxlast, Function.update_of_ne hxq]
        exact hxy.1
      · rw [insertTail_prev, Function.update_of_ne hyh, Function.update_of_ne hyq]
        exact hxy.2
    · simp [Linked, insertTail_next, insertTail_prev, hprev, Function.update_of_ne hlq.symm]
    · intro x hx y hy
      obtain rfl : x = last := Option.mem_unique hx hlast
      obtain rfl : q = y := by simpa using hy
      simp [Linked, insertTail_next, insertTail_prev, hprev, Function.update_of_ne hhq.symm]
  · rw [← List.cons_append, ← List.concat_eq_append]
    exact hl.nodup.concat hq

theorem addTail_eq (hq : l.prev h ≠ q) : l.addTail q h = l.insertTail h q := by
  simp [addTail, Links.insertTail, setNext, setPrev, Function.update_comm hq]

theorem Threads.addTail (hl : l.Threads h nodes) (hq : q ∉ h :: nodes) :
    (l.addTail q h).Threads h (nodes ++ [q]) := by
  have hlast : l.prev h ∈ h :: nodes := by
    obtain ⟨last, hlast⟩ : ∃ last, last ∈ (h :: nodes).getLast? :=
      ⟨_, List.getLast?_eq_getLast_of_ne_nil (List.cons_ne_nil h nodes)⟩
    rw [(hl.last_linked hlast).2]
    exact List.mem_of_getLast? hlast
  rw [addTail_eq (ne_of_mem_of_not_mem hlast hq)]
  exact hl.insertTail hq

/-- A node that is not threaded yet goes to the front of the list. -/
theorem Threads.insertHead (hl : l.Threads h nodes) (hq : q ∉ h :: nodes) :
    (l.insertHead h q).Threads h (q :: nodes) := by
  have hqh : q ≠ h := fun heq => hq (heq ▸ List.mem_cons_self)
  obtain ⟨second, tail, htail⟩ := List.exists_cons_of_ne_nil (by simp : nodes ++ [h] ≠ [])
  have hchain := hl.chain
  rw [List.cons_append, htail, List.isChain_cons_cons] at hchain
  obtain ⟨⟨hnext, -⟩, hlinks⟩ := hchain
  have hnewNext : (l.insertHead h q).next =
      Function.update (Function.update l.next q second) h q := by
    simp [Links.insertHead, setNext, setPrev, hnext]
  have hnewPrev : (l.insertHead h q).prev =
      Function.update (Function.update l.prev q h) second q := by
    simp [Links.insertHead, setNext, setPrev, hnext, Function.update_of_ne hqh.symm]
  have hfresh : ∀ x ∈ second :: tail, x ≠ q := by
    rw [← htail]
    intro x hx
    rintro rfl
    rcases List.mem_append.mp hx with hx | hx
    · exact hq (List.mem_cons_of_mem h hx)
    · exact hqh (List.mem_singleton.mp hx)
  have hsecond : second ∉ tail := by
    have hnodup : (second :: tail).Nodup := by
      rw [← htail, ← List.concat_eq_append]
      exact (List.nodup_cons.mp hl.nodup).2.concat (List.nodup_cons.mp hl.nodup).1
    exact (List.nodup_cons.mp hnodup).1
  refine ⟨?_, ?_⟩
  · rw [List.cons_append, List.cons_append, htail, List.isChain_cons_cons, List.isChain_cons_cons]
    refine ⟨?_, ?_, ?_⟩
    · have hqs := (hfresh second List.mem_cons_self).symm
      simp [Linked, hnewNext, hnewPrev, Function.update_of_ne hqs]
    · simp [Linked, hnewNext, hnewPrev, Function.update_of_ne hqh]
    · -- The links of the old list stay: none of them leaves the head.
      refine hlinks.imp_of_mem_tail_imp ?_
      intro x y hx hy hxy
      have hxh : x ≠ h := by
        rintro rfl
        exact ne_of_mem_of_not_mem hy hsecond (hxy.1.symm.trans hnext)
      have hys : y ≠ second := ne_of_mem_of_not_mem hy hsecond
      have hyq : y ≠ q := hfresh y (List.mem_cons_of_mem second hy)
      constructor
      · rw [hnewNext, Function.update_of_ne hxh, Function.update_of_ne (hfresh x hx)]
        exact hxy.1
      · rw [hnewPrev, Function.update_of_ne hys, Function.update_of_ne hyq]
        exact hxy.2
  · exact (List.Perm.swap h q nodes).nodup_iff.mp (List.nodup_cons.mpr ⟨hq, hl.nodup⟩)

theorem Threads.insertHead_sameOutside (hl : l.Threads h nodes) (hq : q ∉ h :: nodes) :
    SameOutside (q :: h :: nodes) l (l.insertHead h q) := by
  intro x hx
  have hhq : h ≠ q := fun heq => hq (heq ▸ List.mem_cons_self)
  have hxq : x ≠ q := fun heq => hx (heq ▸ List.mem_cons_self)
  have hxh : x ≠ h := fun heq => hx (heq ▸ List.mem_cons_of_mem q List.mem_cons_self)
  have hxfirst : x ≠ l.next h := by
    rw [hl.next_head]
    cases nodes with
    | nil => exact hxh
    | cons first rest =>
        exact fun heq =>
          hx (heq ▸ List.mem_cons_of_mem q (List.mem_cons_of_mem h List.mem_cons_self))
  constructor
  · simp [Links.insertHead, setNext, setPrev, hxh, hxq]
  · simp [Links.insertHead, setNext, setPrev, hhq, hxq, hxfirst]

section Removal

variable {before after : List Node}

/-- The order of the two assignments does not matter for a threaded node. -/
theorem Threads.unlink_eq (hl : l.Threads h (before ++ q :: after)) : l.unlink q = l.remove q := by
  simp [unlink, Links.remove, setNext, setPrev, Function.update_of_ne hl.next_ne.symm,
    Function.update_of_ne hl.prev_ne.symm]

/-- Removing a node leaves the others threaded. -/
theorem Threads.remove (hl : l.Threads h (before ++ q :: after)) :
    (l.remove q).Threads h (before ++ after) := by
  obtain ⟨⟨hpq, hprev⟩, hnext, -⟩ := hl.linked_around
  have hnewNext : (l.remove q).next = Function.update l.next (l.prev q) (l.next q) := by
    simp [Links.remove, setNext, setPrev]
  have hnewPrev : (l.remove q).prev = Function.update l.prev (l.next q) (l.prev q) := by
    simp [Links.remove, setNext, setPrev, Function.update_of_ne hl.prev_ne.symm]
  set last := (h :: before).getLast (List.cons_ne_nil h before) with hlast
  set second := after.headD h with hsecond
  rw [hprev, hnext] at hnewNext hnewPrev
  -- The nodes around the circle from the head on, before and after the removed one.
  have hbefore : (q :: after ++ [h]).Disjoint before := by
    have hnodup := List.nodup_append.mp (List.nodup_cons.mp hl.nodup).2
    have hhead := (List.nodup_cons.mp hl.nodup).1
    intro x hx hmem
    rcases List.mem_append.mp hx with hx | hx
    · exact hnodup.2.2 x hmem x hx rfl
    · rw [List.mem_singleton.mp hx] at hmem
      exact hhead (List.mem_append_left _ hmem)
  have hafter : (q :: after ++ [h]).Nodup := by
    have hnodup := (List.nodup_append.mp (List.nodup_cons.mp hl.nodup).2).2.1
    have hhead := (List.nodup_cons.mp hl.nodup).1
    rw [← List.concat_eq_append]
    exact hnodup.concat fun hmem => hhead (List.mem_append_right before hmem)
  obtain ⟨tail, htail⟩ : ∃ tail, after ++ [h] = second :: tail := by
    cases after with
    | nil => exact ⟨[], rfl⟩
    | cons first rest => exact ⟨rest ++ [h], rfl⟩
  rw [List.cons_append, htail] at hbefore hafter
  have hcircle : h :: (before ++ q :: after) ++ [h] = (h :: before) ++ q :: second :: tail := by
    rw [← htail]
    simp
  have hchain := hl.chain
  rw [hcircle] at hchain
  obtain ⟨hchainBefore, hchainAfter, -⟩ := List.isChain_append.mp hchain
  refine ⟨?_, ?_⟩
  · rw [← List.cons_append, List.append_assoc, htail]
    refine List.isChain_append.mpr ⟨?_, ?_, ?_⟩
    · refine hchainBefore.imp_of_mem_tail_imp ?_
      intro x y _ hy hxy
      have hxlast : x ≠ last := by
        rintro rfl
        exact hbefore (hpq.symm.trans hxy.1 ▸ List.mem_cons_self) hy
      have hysecond : y ≠ second := by
        rintro rfl
        exact hbefore (List.mem_cons_of_mem q List.mem_cons_self) hy
      constructor
      · rw [hnewNext, Function.update_of_ne hxlast]
        exact hxy.1
      · rw [hnewPrev, Function.update_of_ne hysecond]
        exact hxy.2
    · refine (List.isChain_cons_cons.mp hchainAfter).2.imp_of_mem_tail_imp ?_
      intro x y hx hy hxy
      have hxlast : x ≠ last := by
        rintro rfl
        have hqy : q = y := hpq.symm.trans hxy.1
        exact (List.nodup_cons.mp hafter).1 (hqy ▸ List.mem_cons_of_mem second hy)
      have hysecond : y ≠ second :=
        ne_of_mem_of_not_mem hy (List.nodup_cons.mp (List.nodup_cons.mp hafter).2).1
      constructor
      · rw [hnewNext, Function.update_of_ne hxlast]
        exact hxy.1
      · rw [hnewPrev, Function.update_of_ne hysecond]
        exact hxy.2
    · intro x hx y hy
      have hxlast : last = x := by
        rw [List.getLast?_eq_getLast_of_ne_nil (List.cons_ne_nil h before)] at hx
        exact Option.some.inj hx
      obtain rfl : second = y := by simpa using hy
      simp [← hxlast, Linked, hnewNext, hnewPrev]
  · refine hl.nodup.sublist ?_
    exact ((List.sublist_cons_self q after).append_left before).cons_cons h

theorem Threads.unlink_sameOutside (hl : l.Threads h (before ++ q :: after)) :
    SameOutside (h :: (before ++ q :: after)) l (l.unlink q) := by
  intro x hx
  obtain ⟨⟨-, hprev⟩, hnext, -⟩ := hl.linked_around
  have hxprev : x ≠ l.prev q := by
    rw [hprev]
    intro heq
    have hmem := List.getLast_mem (List.cons_ne_nil h before)
    rw [← heq] at hmem
    exact hx (List.mem_append_left (q :: after) hmem)
  have hxnext : x ≠ l.next q := by
    rw [hnext]
    rintro rfl
    cases after with
    | nil => exact hx List.mem_cons_self
    | cons first rest => exact hx (by simp)
  rw [hl.unlink_eq]
  constructor
  · simp [Links.remove, setNext, setPrev, hxprev]
  · simp [Links.remove, setNext, setPrev, Function.update_of_ne hl.prev_ne.symm, hxnext]

/-- The removed node itself still points where it did. -/
theorem Threads.unlink_next (hl : l.Threads h (before ++ q :: after)) :
    (l.unlink q).next q = after.headD h := by
  rw [hl.unlink_eq]
  simp [Links.remove, setNext, setPrev, Function.update_of_ne hl.prev_ne.symm,
    hl.linked_around.2.1]

end Removal

/-- Removing the first node leaves the rest threaded. -/
theorem Threads.remove_head {first : Node} (hl : l.Threads h (first :: nodes)) :
    (l.remove first).Threads h nodes :=
  (show l.Threads h ([] ++ first :: nodes) from hl).remove

end Links

end AdaptiveSignal.Foundation
