import Mathlib.Data.List.Induction
import Mathlib.Data.Nat.Find
import Mathlib.Tactic.SplitIfs

/-! # Runs of a deterministic transition function

A run folds a transition function over a finite list of inputs. Invariants are
carried along a run from one local preservation premise; a guarded run also
lets that premise assume that every step meets a condition on the state it is
taken from. Tallies and emissions accumulate what the single steps do.
-/

namespace AdaptiveSignal.Foundation

variable {State Input Output : Type*} (step : State → Input → State)

/-- The state in which a run ends. -/
def run (s : State) (inputs : List Input) : State :=
  inputs.foldl step s

@[simp] theorem run_nil (s : State) : run step s [] = s := rfl

@[simp] theorem run_cons (s : State) (input : Input) (rest : List Input) :
    run step s (input :: rest) = run step (step s input) rest := rfl

theorem run_append (s : State) (first second : List Input) :
    run step s (first ++ second) = run step (run step s first) second := by
  simp [run]

@[simp] theorem run_concat (s : State) (inputs : List Input) (last : Input) :
    run step s (inputs ++ [last]) = step (run step s inputs) last := by
  simp [run]

/-- A predicate preserved by every step is preserved by every run. -/
theorem run_invariant {invariant : State → Prop}
    (hstep : ∀ s input, invariant s → invariant (step s input))
    (s : State) (inputs : List Input) (hs : invariant s) :
    invariant (run step s inputs) := by
  induction inputs generalizing s with
  | nil => exact hs
  | cons input rest ih => exact ih (step s input) (hstep s input hs)

/-- A predicate preserved by the steps for the inputs of a run is preserved by the run. -/
theorem run_invariant_of_mem (invariant : State → Prop) {s : State} (inputs : List Input)
    (hs : invariant s)
    (hstep : ∀ s, ∀ input ∈ inputs, invariant s → invariant (step s input)) :
    invariant (run step s inputs) :=
  List.foldlRecOn inputs step hs fun s hs input hinput => hstep s input hinput hs

/-- A preorder that every step stays in relates the ends of every run. -/
theorem run_related {related : State → State → Prop} (hrefl : ∀ s, related s s)
    (htrans : ∀ {s s' s''}, related s s' → related s' s'' → related s s'')
    (hstep : ∀ s input, related s (step s input)) (s : State) (inputs : List Input) :
    related s (run step s inputs) := by
  induction inputs generalizing s with
  | nil => exact hrefl s
  | cons input rest ih => exact htrans (hstep s input) (ih (step s input))

/-- A fact that a step can bring about but not end holds after a run where it held before, or
where some input brought it about. -/
theorem run_iff_or_exists {p : State → Prop} {q : Input → Prop} {inputs : List Input}
    (hstep : ∀ s, ∀ input ∈ inputs, p (step s input) ↔ p s ∨ q input) (s : State) :
    p (run step s inputs) ↔ p s ∨ ∃ input ∈ inputs, q input := by
  induction inputs generalizing s with
  | nil => simp
  | cons input rest ih =>
      rw [run_cons, ih (fun s input' hinput => hstep s input' (.tail _ hinput)),
        hstep s input (.head _)]
      simp only [List.mem_cons, exists_eq_or_imp, or_assoc]

/-- The same for a run of steps that may fail. -/
theorem foldlM_iff_or_exists {tryStep : State → Input → Option State} {p : State → Prop}
    {q : Input → Prop} {inputs : List Input}
    (hstep : ∀ s, ∀ input ∈ inputs, ∀ s', tryStep s input = some s' →
      (p s' ↔ p s ∨ q input)) {s s' : State}
    (hrun : inputs.foldlM tryStep s = some s') :
    p s' ↔ p s ∨ ∃ input ∈ inputs, q input := by
  induction inputs generalizing s with
  | nil =>
      cases hrun
      simp
  | cons input rest ih =>
      obtain ⟨next, hnext, hrest⟩ := Option.bind_eq_some_iff.mp hrun
      rw [ih (fun s input' hinput => hstep s input' (.tail _ hinput)) hrest,
        hstep s input (.head _) next hnext]
      simp only [List.mem_cons, exists_eq_or_imp, or_assoc]

/-! ## Guarded runs -/

/-- Every step of the run meets `ok` in the state it is taken from. -/
def Guarded (ok : State → Input → Prop) : State → List Input → Prop
  | _, [] => True
  | s, input :: rest => ok s input ∧ Guarded ok (step s input) rest

instance Guarded.decidable (ok : State → Input → Prop) [∀ s input, Decidable (ok s input)] :
    (s : State) → (inputs : List Input) → Decidable (Guarded step ok s inputs)
  | _, [] => isTrue trivial
  | s, input :: rest =>
      have := Guarded.decidable ok (step s input) rest
      inferInstanceAs (Decidable (ok s input ∧ Guarded step ok (step s input) rest))

variable {step}

/-- A predicate preserved by every step that meets the guard is preserved by
every guarded run. -/
theorem Guarded.invariant {ok : State → Input → Prop} {s : State} {inputs : List Input}
    (hrun : Guarded step ok s inputs) (invariant : State → Prop) (hs : invariant s)
    (hstep : ∀ s input, invariant s → ok s input → invariant (step s input)) :
    invariant (run step s inputs) := by
  induction inputs generalizing s with
  | nil => exact hs
  | cons input rest ih => exact ih hrun.2 (hstep s input hs hrun.1)

theorem Guarded.append {ok : State → Input → Prop} {s : State} {first second : List Input} :
    Guarded step ok s (first ++ second) ↔
      Guarded step ok s first ∧ Guarded step ok (run step s first) second := by
  induction first generalizing s with
  | nil => simp [Guarded]
  | cons input rest ih => simp [Guarded, ih, and_assoc]

theorem Guarded.concat {ok : State → Input → Prop} {s : State} {inputs : List Input}
    {last : Input} :
    Guarded step ok s (inputs ++ [last]) ↔
      Guarded step ok s inputs ∧ ok (run step s inputs) last := by
  rw [Guarded.append]
  exact and_congr_right fun _ => and_iff_left trivial

theorem Guarded.mono {ok weaker : State → Input → Prop}
    (himp : ∀ s input, ok s input → weaker s input) {s : State} {inputs : List Input}
    (hrun : Guarded step ok s inputs) :
    Guarded step weaker s inputs := by
  induction inputs generalizing s with
  | nil => trivial
  | cons input rest ih => exact ⟨himp s input hrun.1, ih hrun.2⟩

theorem Guarded.and {ok other : State → Input → Prop} {s : State} {inputs : List Input}
    (hok : Guarded step ok s inputs) (hother : Guarded step other s inputs) :
    Guarded step (fun s input => ok s input ∧ other s input) s inputs := by
  induction inputs generalizing s with
  | nil => trivial
  | cons input rest ih => exact ⟨⟨hok.1, hother.1⟩, ih hok.2 hother.2⟩

theorem Guarded.of_prefix {ok : State → Input → Prop} {s : State} {first inputs : List Input}
    (hrun : Guarded step ok s inputs) (hfirst : first <+: inputs) : Guarded step ok s first := by
  obtain ⟨later, rfl⟩ := hfirst
  exact (Guarded.append.mp hrun).1

theorem guarded_congr {ok other : State → Input → Prop}
    (hiff : ∀ s input, ok s input ↔ other s input) {s : State} {inputs : List Input} :
    Guarded step ok s inputs ↔ Guarded step other s inputs :=
  ⟨Guarded.mono fun s input => (hiff s input).mp, Guarded.mono fun s input => (hiff s input).mpr⟩

/-- Two guards that agree where an invariant holds, which the first one keeps. -/
theorem guarded_congr_of_invariant {ok other : State → Input → Prop} {invariant : State → Prop}
    (hkeep : ∀ s input, invariant s → ok s input → invariant (step s input))
    (hiff : ∀ s input, invariant s → (other s input ↔ ok s input)) {s : State}
    {inputs : List Input} (hs : invariant s) :
    Guarded step other s inputs ↔ Guarded step ok s inputs := by
  induction inputs generalizing s with
  | nil => exact Iff.rfl
  | cons input rest ih =>
      rw [Guarded, Guarded, hiff s input hs]
      exact and_congr_right fun hok => ih (hkeep s input hs hok)

/-- A guard of one component of the state, on a run whose component runs by itself. -/
theorem guarded_component {Part : Type*} {part : State → Part} {move : Part → Input → Part}
    (hpart : ∀ s input, part (step s input) = move (part s) input)
    {ok : Part → Input → Prop} {s : State} {inputs : List Input} :
    Guarded step (fun s input => ok (part s) input) s inputs ↔ Guarded move ok (part s) inputs := by
  induction inputs generalizing s with
  | nil => exact Iff.rfl
  | cons input rest ih =>
      rw [Guarded, Guarded, ih, hpart]

/-- Where a property of the inputs so far survives the next input exactly if that
input meets the guard, the guarded runs are those that have the property after
each of their prefixes. -/
theorem guarded_iff_prefixes {ok : State → Input → Prop} {s : State}
    {holds : List Input → Prop} (hnil : holds [])
    (hstep : ∀ first last, holds first → (holds (first ++ [last]) ↔ ok (run step s first) last))
    (inputs : List Input) :
    Guarded step ok s inputs ↔ ∀ first, first <+: inputs → holds first := by
  induction inputs using List.reverseRecOn with
  | nil =>
      refine ⟨fun _ first hfirst => ?_, fun _ => trivial⟩
      rw [List.prefix_nil.mp hfirst]
      exact hnil
  | append_singleton inputs last ih =>
      rw [Guarded.concat, ih]
      constructor
      · rintro ⟨hbefore, hok⟩ first hfirst
        rcases List.prefix_concat_iff.mp hfirst with rfl | hfirst
        · exact (hstep inputs last (hbefore inputs List.prefix_rfl)).mpr hok
        · exact hbefore first hfirst
      · intro hall
        have hbefore := hall inputs (List.prefix_append inputs [last])
        refine ⟨fun first hfirst => hall first ?_, ?_⟩
        · exact hfirst.trans (List.prefix_append inputs [last])
        · exact (hstep inputs last hbefore).mp (hall _ List.prefix_rfl)

/-- A run is guarded when each of its steps is, wherever the run stands then. -/
theorem guarded_iff_steps {ok : State → Input → Prop} {s : State} (inputs : List Input) :
    Guarded step ok s inputs ↔
      ∀ first last, first ++ [last] <+: inputs → ok (run step s first) last := by
  induction inputs using List.reverseRecOn with
  | nil => exact ⟨fun _ first last hfirst => by simp at hfirst, fun _ => trivial⟩
  | append_singleton inputs final ih =>
      rw [Guarded.concat, ih]
      constructor
      · rintro ⟨hbefore, hok⟩ first last hfirst
        rcases List.prefix_concat_iff.mp hfirst with heq | hfirst
        · obtain ⟨rfl, hlast⟩ := List.append_inj' heq rfl
          rw [List.singleton_inj.mp hlast]
          exact hok
        · exact hbefore first last hfirst
      · intro hall
        exact ⟨fun first last hfirst => hall first last (hfirst.trans (List.prefix_append _ _)),
          hall inputs final List.prefix_rfl⟩

/-- Where a step keeps the invariant exactly if it meets the guard, the guarded
runs are those that have the invariant in every state they reach. -/
theorem guarded_iff_invariant {ok : State → Input → Prop} {invariant : State → Prop}
    (hstep : ∀ s input, invariant s → (invariant (step s input) ↔ ok s input))
    {s : State} (inputs : List Input) (hs : invariant s) :
    Guarded step ok s inputs ↔ ∀ first, first <+: inputs → invariant (run step s first) := by
  apply guarded_iff_prefixes hs
  intro first last hfirst
  rw [run_concat]
  exact hstep _ last hfirst

/-- Where an invariant survives a step that meets the guard, and a step whose
outcome has the property meets it, the guarded runs are those that always have
the property. -/
theorem guarded_iff_always {ok : State → Input → Prop} {invariant property : State → Prop}
    (hproperty : ∀ s, invariant s → property s)
    (hkeep : ∀ s input, invariant s → ok s input → invariant (step s input))
    (hneeds : ∀ s input, invariant s → property (step s input) → ok s input)
    {s : State} (inputs : List Input) (hs : invariant s) :
    Guarded step ok s inputs ↔ ∀ first, first <+: inputs → property (run step s first) := by
  induction inputs generalizing s with
  | nil =>
      refine ⟨fun _ first hfirst => ?_, fun _ => trivial⟩
      rw [List.prefix_nil.mp hfirst]
      exact hproperty s hs
  | cons input rest ih =>
      constructor
      · rintro ⟨hok, hrest⟩ first hfirst
        rcases List.prefix_cons_iff.mp hfirst with rfl | ⟨later, rfl, hlater⟩
        · exact hproperty s hs
        · exact (ih (hkeep s input hs hok)).mp hrest later hlater
      · intro hall
        have hok := hneeds s input hs (hall [input] (by simp))
        refine ⟨hok, (ih (hkeep s input hs hok)).mpr fun first hfirst => ?_⟩
        exact hall (input :: first) ((List.prefix_cons_inj input).mpr hfirst)

/-! ## Since an event -/

/-- Some step of the run set a mark, and no later one has reset it. -/
def Since (step : State → Input → State) (sets resets : State → Input → Prop) (s : State)
    (inputs : List Input) : Prop :=
  ∃ before input after, inputs = before ++ input :: after ∧ sets (run step s before) input ∧
    Guarded step (fun s input => ¬ resets s input) (run step s (before ++ [input])) after

/-- The inputs before and after one of them, when another input has come. -/
theorem exists_split_concat {P : List Input → Input → List Input → Prop} {inputs : List Input}
    {last : Input} :
    (∃ before input after, inputs ++ [last] = before ++ input :: after ∧ P before input after) ↔
      P inputs last [] ∨
        ∃ before input after, inputs = before ++ input :: after ∧
          P before input (after ++ [last]) := by
  constructor
  · rintro ⟨before, input, after, heq, hP⟩
    induction after using List.reverseRecOn with
    | nil =>
        obtain ⟨rfl, hlast⟩ := List.append_inj' heq rfl
        exact .inl (List.singleton_inj.mp hlast ▸ hP)
    | append_singleton after last' =>
        rw [← List.cons_append, ← List.append_assoc] at heq
        obtain ⟨rfl, hlast⟩ := List.append_inj' heq rfl
        exact .inr ⟨before, input, after, rfl, List.singleton_inj.mp hlast ▸ hP⟩
  · rintro (hP | ⟨before, input, after, rfl, hP⟩)
    · exact ⟨inputs, last, [], rfl, hP⟩
    · exact ⟨before, input, after ++ [last], by simp, hP⟩

theorem since_concat {sets resets : State → Input → Prop} {s : State} {inputs : List Input}
    {last : Input} :
    Since step sets resets s (inputs ++ [last]) ↔
      sets (run step s inputs) last ∨
        Since step sets resets s inputs ∧ ¬ resets (run step s inputs) last := by
  rw [Since, exists_split_concat]
  refine or_congr (and_iff_left trivial) ⟨?_, ?_⟩
  · rintro ⟨before, input, after, rfl, hset, hkept⟩
    obtain ⟨hkept, hlater⟩ := Guarded.concat.mp hkept
    rw [← run_append, List.append_assoc, List.singleton_append] at hlater
    exact ⟨⟨before, input, after, rfl, hset, hkept⟩, hlater⟩
  · rintro ⟨⟨before, input, after, rfl, hset, hkept⟩, hlater⟩
    refine ⟨before, input, after, rfl, hset, Guarded.concat.mpr ⟨hkept, ?_⟩⟩
    rwa [← run_append, List.append_assoc, List.singleton_append]

/-- A mark that one kind of step sets and another kind resets. -/
theorem run_since_iff {p : State → Prop} {sets resets : State → Input → Prop}
    (hstep : ∀ s input, p (step s input) ↔ sets s input ∨ p s ∧ ¬ resets s input) {s : State}
    (hs : ¬ p s) (inputs : List Input) :
    p (run step s inputs) ↔ Since step sets resets s inputs := by
  induction inputs using List.reverseRecOn with
  | nil => exact iff_of_false hs fun ⟨_, _, _, heq, _⟩ => by simp at heq
  | append_singleton inputs last ih => rw [run_concat, hstep, since_concat, ih]

/-! ## What the steps of a run add up to -/

variable (step)

/-- The number of steps of a run that satisfy a predicate of their state and input. -/
def tally (counts : State → Input → Bool) : State → List Input → ℕ
  | _, [] => 0
  | s, input :: rest => (counts s input).toNat + tally counts (step s input) rest

/-- Everything the steps of a run emit, in order. -/
def emitted (emits : State → Input → List Output) : State → List Input → List Output
  | _, [] => []
  | s, input :: rest => emits s input ++ emitted emits (step s input) rest

@[simp] theorem tally_nil (counts : State → Input → Bool) (s : State) :
    tally step counts s [] = 0 := rfl

@[simp] theorem emitted_nil (emits : State → Input → List Output) (s : State) :
    emitted step emits s [] = [] := rfl

theorem tally_append (counts : State → Input → Bool) (s : State) (first second : List Input) :
    tally step counts s (first ++ second) =
      tally step counts s first + tally step counts (run step s first) second := by
  induction first generalizing s with
  | nil => simp
  | cons input rest ih => simp [tally, ih, Nat.add_assoc]

@[simp] theorem tally_concat (counts : State → Input → Bool) (s : State) (inputs : List Input)
    (last : Input) :
    tally step counts s (inputs ++ [last]) =
      tally step counts s inputs + (counts (run step s inputs) last).toNat := by
  rw [tally_append]
  rfl

theorem emitted_append (emits : State → Input → List Output) (s : State)
    (first second : List Input) :
    emitted step emits s (first ++ second) =
      emitted step emits s first ++ emitted step emits (run step s first) second := by
  induction first generalizing s with
  | nil => simp
  | cons input rest ih => simp [emitted, ih]

@[simp] theorem emitted_concat (emits : State → Input → List Output) (s : State)
    (inputs : List Input) (last : Input) :
    emitted step emits s (inputs ++ [last]) =
      emitted step emits s inputs ++ emits (run step s inputs) last := by
  induction inputs generalizing s with
  | nil => simp [emitted]
  | cons input rest ih => simp [emitted, ih]

/-- What a step for an input of the run emits in states with an invariant, the run
emits that begins with it. -/
theorem emitted_forall_of_mem {emits : State → Input → List Output} (invariant : State → Prop)
    (holds : Output → Prop) {s : State} (inputs : List Input) (hs : invariant s)
    (hstep : ∀ s, ∀ input ∈ inputs, invariant s → invariant (step s input))
    (hemits : ∀ s, ∀ input ∈ inputs, invariant s → ∀ output ∈ emits s input, holds output) :
    ∀ output ∈ emitted step emits s inputs, holds output := by
  induction inputs generalizing s with
  | nil => simp [emitted]
  | cons input rest ih =>
      intro output houtput
      rcases List.mem_append.mp houtput with hnow | hlater
      · exact hemits s input List.mem_cons_self hs output hnow
      · refine ih (hstep s input List.mem_cons_self hs) ?_ ?_ output hlater
        · exact fun s later hlater => hstep s later (List.mem_cons_of_mem input hlater)
        · exact fun s later hlater => hemits s later (List.mem_cons_of_mem input hlater)

/-- What a step emits in states with an invariant, every run emits that begins with it. -/
theorem emitted_forall {emits : State → Input → List Output} (invariant : State → Prop)
    (holds : Output → Prop) (hstep : ∀ s input, invariant s → invariant (step s input))
    (hemits : ∀ s input, invariant s → ∀ output ∈ emits s input, holds output)
    {s : State} (hs : invariant s) (inputs : List Input) :
    ∀ output ∈ emitted step emits s inputs, holds output :=
  emitted_forall_of_mem step invariant holds inputs hs
    (fun s input _ => hstep s input) (fun s input _ => hemits s input)

/-- A run over the first numbers whose steps emit one output each as long as they are
before `length`. -/
theorem emitted_range {emits : State → ℕ → List Output} {s : State} {step : State → ℕ → State}
    (output : ℕ → Output) {count : ℕ} (length : ℕ)
    (hemits : ∀ i < count,
      emits (run step s (List.range i)) i = if i < length then [output i] else []) :
    emitted step emits s (List.range count) = (List.range (min count length)).map output := by
  induction count with
  | zero => simp
  | succ count ih =>
      rw [List.range_succ, emitted_concat, ih fun i hi => hemits i (by omega),
        hemits count (by omega)]
      split_ifs with hlt
      · rw [Nat.min_eq_left (Nat.le_of_lt hlt), Nat.min_eq_left hlt, List.range_succ,
          List.map_append]
        rfl
      · rw [Nat.min_eq_right (by omega), Nat.min_eq_right (by omega), List.append_nil]

/-- What holds of all numbers before one it holds of, but not of all, holds below a bound. -/
theorem exists_bound (holds : ℕ → Prop) (hbefore : ∀ i j, i ≤ j → holds j → holds i)
    (hnot : ∃ i, ¬ holds i) : ∃ bound, ∀ i, holds i ↔ i < bound := by
  classical
  refine ⟨Nat.find hnot, fun i => ⟨fun hi => ?_, fun hi => ?_⟩⟩
  · by_contra hle
    exact Nat.find_spec hnot (hbefore _ _ (not_lt.mp hle) hi)
  · exact not_not.mp (Nat.find_min hnot hi)

/-! ## Trails -/

/-- From `first` to `last` through the states of the list, each related to the next. -/
inductive Trail (related : State → State → Prop) : State → List State → State → Prop
  | stay (s : State) : Trail related s [] s
  | move {s s' last : State} {visited : List State} :
      related s s' → Trail related s' visited last → Trail related s (s' :: visited) last

theorem Trail.append {related : State → State → Prop} {s middle last : State}
    {first second : List State} (hfirst : Trail related s first middle)
    (hsecond : Trail related middle second last) : Trail related s (first ++ second) last := by
  induction hfirst with
  | stay => exact hsecond
  | move hmove _ ih => exact .move hmove (ih hsecond)

variable {step} in
/-- A run whose steps emit a trail each emits a trail to its end. -/
theorem trail_emitted {related : State → State → Prop} {emits : State → Input → List State}
    (invariant : State → Prop) {s : State} (inputs : List Input) (hs : invariant s)
    (hstep : ∀ s, ∀ input ∈ inputs, invariant s → invariant (step s input))
    (hemits : ∀ s, ∀ input ∈ inputs, invariant s →
      Trail related s (emits s input) (step s input)) :
    Trail related s (emitted step emits s inputs) (run step s inputs) := by
  induction inputs generalizing s with
  | nil => exact .stay s
  | cons input rest ih =>
      refine (hemits s input List.mem_cons_self hs).append ?_
      refine ih (hstep s input List.mem_cons_self hs) ?_ ?_
      · exact fun s later hlater => hstep s later (List.mem_cons_of_mem input hlater)
      · exact fun s later hlater => hemits s later (List.mem_cons_of_mem input hlater)

end AdaptiveSignal.Foundation
