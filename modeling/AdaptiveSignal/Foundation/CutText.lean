import Mathlib.Data.List.Basic
import Mathlib.Data.List.DropRight
import Mathlib.Tactic.Common

/-! # Texts cut behind a separator

A text is cut behind each separator. Two texts that are put together piece by piece, with as
many separators in a piece of the one as in that of the other, have equal pieces.
-/

namespace AdaptiveSignal.Foundation

variable {α β : Type*} {sep : α}

/-- A separator stands at the end and nowhere else. -/
def EndsOnce (sep : α) (piece : List α) : Prop := ∃ body, sep ∉ body ∧ piece = body ++ [sep]

theorem EndsOnce.ne_nil {piece : List α} (h : EndsOnce sep piece) : piece ≠ [] := by
  obtain ⟨body, -, rfl⟩ := h
  simp

/-- Two texts agree up to the first separator. -/
theorem EndsOnce.append_inj {left right restLeft restRight : List α} (hleft : EndsOnce sep left)
    (hright : EndsOnce sep right) (h : left ++ restLeft = right ++ restRight) :
    left = right ∧ restLeft = restRight := by
  obtain ⟨left, hleft, rfl⟩ := hleft
  obtain ⟨right, hright, rfl⟩ := hright
  induction left generalizing right with
  | nil =>
      cases right with
      | nil => exact ⟨rfl, (List.cons.inj h).2⟩
      | cons a right => exact absurd (List.cons.inj h).1 fun ha => hright (ha ▸ List.mem_cons_self)
  | cons a left ih =>
      cases right with
      | nil =>
          exact absurd (List.cons.inj h).1 fun ha => hleft (ha ▸ List.mem_cons_self)
      | cons b right =>
          obtain ⟨hhead, htail⟩ := List.cons.inj h
          obtain ⟨hbody, hrest⟩ := ih (fun hmem => hleft (List.mem_cons_of_mem _ hmem)) right
            (fun hmem => hright (List.mem_cons_of_mem _ hmem)) htail
          exact ⟨by rw [hhead, List.cons_append, List.cons_append, hbody], hrest⟩

/-! ## Cutting -/

section Cut

variable [DecidableEq α]

/-- The pieces, each up to a separator or the end. -/
def cutAfter (sep : α) : List α → List (List α)
  | [] => []
  | a :: text =>
      if a = sep then [a] :: cutAfter sep text
      else
        match cutAfter sep text with
        | [] => [[a]]
        | piece :: pieces => (a :: piece) :: pieces

theorem cutAfter_append {body : List α} (hbody : sep ∉ body) (rest : List α) :
    cutAfter sep (body ++ sep :: rest) = (body ++ [sep]) :: cutAfter sep rest := by
  induction body with
  | nil => simp [cutAfter]
  | cons a body ih =>
      have ha : a ≠ sep := fun ha => hbody (ha ▸ List.mem_cons_self)
      rw [List.cons_append, cutAfter, if_neg ha,
        ih fun hmem => hbody (List.mem_cons_of_mem _ hmem)]
      rfl

theorem cutAfter_last {text : List α} (hne : text ≠ []) (htext : sep ∉ text) :
    cutAfter sep text = [text] := by
  induction text with
  | nil => exact absurd rfl hne
  | cons a text ih =>
      have ha : a ≠ sep := fun ha => htext (ha ▸ List.mem_cons_self)
      rw [cutAfter, if_neg ha]
      cases text with
      | nil => rfl
      | cons b text =>
          rw [ih (List.cons_ne_nil _ _) fun hmem => htext (List.mem_cons_of_mem _ hmem)]

/-- A text is empty, has no separator, or is a piece in front of a text. -/
theorem cutAfter_induction {motive : List α → Prop} (sep : α) (nil : motive [])
    (last : ∀ text, text ≠ [] → sep ∉ text → motive text)
    (piece : ∀ body rest, sep ∉ body → motive rest → motive (body ++ sep :: rest))
    (text : List α) : motive text := by
  induction hlength : text.length using Nat.strong_induction_on generalizing text with
  | h n ih =>
      subst hlength
      by_cases hmem : sep ∈ text
      · obtain ⟨body, rest, rfl, hbody⟩ := List.eq_append_cons_of_mem hmem
        refine piece body rest hbody (ih rest.length ?_ rest rfl)
        simp only [List.length_append, List.length_cons]
        omega
      · by_cases hne : text = []
        · exact hne ▸ nil
        · exact last text hne hmem

theorem endsOnce_or_of_mem {text piece : List α} (hmem : piece ∈ cutAfter sep text) :
    EndsOnce sep piece ∨ piece ≠ [] ∧ sep ∉ piece := by
  induction text using cutAfter_induction sep with
  | nil => exact absurd hmem List.not_mem_nil
  | last text hne htext =>
      rw [cutAfter_last hne htext, List.mem_singleton] at hmem
      exact Or.inr ⟨hmem ▸ hne, hmem ▸ htext⟩
  | piece body rest hbody ih =>
      rw [cutAfter_append hbody] at hmem
      rcases List.mem_cons.mp hmem with rfl | hmem
      · exact Or.inl ⟨body, hbody, rfl⟩
      · exact ih hmem

/-- Only the last piece can be without a separator. -/
theorem endsOnce_of_mem_dropLast {text piece : List α}
    (hmem : piece ∈ (cutAfter sep text).dropLast) : EndsOnce sep piece := by
  induction text using cutAfter_induction sep with
  | nil => exact absurd hmem List.not_mem_nil
  | last text hne htext =>
      rw [cutAfter_last hne htext] at hmem
      exact absurd hmem List.not_mem_nil
  | piece body rest hbody ih =>
      rw [cutAfter_append hbody] at hmem
      by_cases hrest : cutAfter sep rest = []
      · rw [hrest] at hmem
        exact absurd hmem List.not_mem_nil
      · rw [List.dropLast_cons_of_ne_nil hrest] at hmem
        rcases List.mem_cons.mp hmem with rfl | hmem
        · exact ⟨body, hbody, rfl⟩
        · exact ih hmem

/-! ## Tokens -/

/-- What is between the separators and not empty. -/
def tokens (sep : α) (text : List α) : List (List α) :=
  (text.splitOn sep).filter fun token => token ≠ []

theorem tokens_of_notMem {text : List α} (hne : text ≠ []) (htext : sep ∉ text) :
    tokens sep text = [text] := by
  simp [tokens, List.splitOn_eq_singleton htext, hne]

theorem length_tokens_le_one {text : List α} (htext : sep ∉ text) :
    (tokens sep text).length ≤ 1 := by
  by_cases hne : text = []
  · simp [tokens, hne]
  · rw [tokens_of_notMem hne htext]
    exact le_rfl

theorem tokens_append_cons {body : List α} (hne : body ≠ []) (hbody : sep ∉ body)
    (rest : List α) : tokens sep (body ++ sep :: rest) = body :: tokens sep rest := by
  simp [tokens, List.splitOn_append_cons_self, List.splitOn_eq_singleton hbody, hne]

theorem tokens_cons_self (rest : List α) : tokens sep (sep :: rest) = tokens sep rest := by
  simp [tokens, List.splitOn_cons_eq_if_modifyHead]

/-- Separators in front of a text do not count. -/
theorem tokens_append_of_all {front : List α} (hfront : ∀ a ∈ front, a = sep) (rest : List α) :
    tokens sep (front ++ rest) = tokens sep rest := by
  induction front with
  | nil => rfl
  | cons a front ih =>
      rw [hfront a List.mem_cons_self, List.cons_append, tokens_cons_self]
      exact ih fun b hb => hfront b (List.mem_cons_of_mem a hb)

theorem notMem_of_mem_tokens {text token : List α} (hmem : token ∈ tokens sep text) :
    sep ∉ token := by
  induction text using cutAfter_induction sep with
  | nil => simp [tokens] at hmem
  | last text hne htext =>
      rw [tokens_of_notMem hne htext, List.mem_singleton] at hmem
      exact hmem ▸ htext
  | piece body rest hbody ih =>
      by_cases hne : body = []
      · rw [hne, List.nil_append, tokens_cons_self] at hmem
        exact ih hmem
      · rw [tokens_append_cons hne hbody] at hmem
        rcases List.mem_cons.mp hmem with rfl | hmem
        · exact hbody
        · exact ih hmem

end Cut

/-! ## Equal pieces -/

section Pieces

variable {f g : β → List α} {pieces : List β}

theorem eq_of_flatMap_eq (sep : α)
    (hends : ∀ p ∈ pieces.dropLast, f p = g p ∨ EndsOnce sep (f p) ∧ EndsOnce sep (g p))
    (h : pieces.flatMap f = pieces.flatMap g) : ∀ p ∈ pieces, f p = g p := by
  induction pieces with
  | nil => exact fun p hp => absurd hp List.not_mem_nil
  | cons p pieces ih =>
      cases pieces with
      | nil =>
          intro q hq
          rw [List.mem_singleton.mp hq]
          simpa using h
      | cons q pieces =>
          rw [List.flatMap_cons, List.flatMap_cons (f := g)] at h
          have hp : f p = g p ∧ (q :: pieces).flatMap f = (q :: pieces).flatMap g := by
            rcases hends p List.mem_cons_self with heq | ⟨hf, hg⟩
            · exact ⟨heq, List.append_cancel_left (heq ▸ h)⟩
            · exact hf.append_inj hg h
          have hrest := ih (fun r hr => hends r (List.mem_cons_of_mem _ hr)) hp.2
          intro r hr
          rcases List.mem_cons.mp hr with rfl | hr
          · exact hp.1
          · exact hrest r hr

variable [DecidableEq α]

theorem EndsOnce.count_eq {piece : List α} (h : EndsOnce sep piece) : piece.count sep = 1 := by
  obtain ⟨body, hbody, rfl⟩ := h
  simp [List.count_eq_zero.mpr hbody]

theorem count_flatMap_le (hle : ∀ p ∈ pieces, (g p).count sep ≤ (f p).count sep) :
    (pieces.flatMap g).count sep ≤ (pieces.flatMap f).count sep := by
  induction pieces with
  | nil => exact le_rfl
  | cons p pieces ih =>
      simp only [List.flatMap_cons, List.count_append]
      exact Nat.add_le_add (hle p List.mem_cons_self)
        (ih fun q hq => hle q (List.mem_cons_of_mem _ hq))

/-- No piece has more separators, and all pieces together have as many. -/
theorem count_eq_of_flatMap_eq (sep : α)
    (hle : ∀ p ∈ pieces, (g p).count sep ≤ (f p).count sep)
    (h : pieces.flatMap f = pieces.flatMap g) :
    ∀ p ∈ pieces, (f p).count sep = (g p).count sep := by
  have hcount := congrArg (List.count sep) h
  clear h
  induction pieces with
  | nil => exact fun p hp => absurd hp List.not_mem_nil
  | cons p pieces ih =>
      simp only [List.flatMap_cons, List.count_append] at hcount
      have hp := hle p List.mem_cons_self
      have hpieces := fun q hq => hle q (List.mem_cons_of_mem p hq)
      have hrest := count_flatMap_le hpieces
      intro q hq
      rcases List.mem_cons.mp hq with rfl | hq
      · omega
      · exact ih hpieces (by omega) q hq

end Pieces

end AdaptiveSignal.Foundation
