import Mathlib.Data.List.Basic
import Mathlib.Tactic.Common

/-! # Programs that read a stream and block

A reader asks for some number of symbols at a time and goes on when they have
arrived; what it puts out on the way is there even if it then waits forever. A
server is a reader repeated without end, every repetition of which reads something.
-/

namespace AdaptiveSignal.Foundation

universe u

/-- A program that reads symbols and puts out what it does. -/
inductive Reader (Symbol Output Result : Type u)
  | done (result : Result)
  | emit (outputs : List Output) (next : Reader Symbol Output Result)
  | read (count : ℕ) (next : List Symbol → Reader Symbol Output Result)

namespace Reader

variable {Symbol Output Result Final : Type u}

def bind : Reader Symbol Output Result → (Result → Reader Symbol Output Final) →
    Reader Symbol Output Final
  | done result, f => f result
  | emit outputs next, f => .emit outputs (next.bind f)
  | read count next, f => .read count fun symbols => (next symbols).bind f

instance : Monad (Reader Symbol Output) where
  pure := done
  bind := bind

/-- Wait for `count` symbols. -/
def receive (count : ℕ) : Reader Symbol Output (List Symbol) := .read count .done

def say (outputs : List Output) : Reader Symbol Output PUnit := .emit outputs (.done ⟨⟩)

/-- What the reader puts out over a stream and, unless it blocks, its result and
the rest of the stream. -/
def run : Reader Symbol Output Result → List Symbol → List Output × Option (Result × List Symbol)
  | done result, stream => ([], some (result, stream))
  | emit outputs next, stream => (outputs ++ (next.run stream).1, (next.run stream).2)
  | read count next, stream =>
      if count ≤ stream.length then (next (stream.take count)).run (stream.drop count)
      else ([], none)

section Run

variable (f : Result → Reader Symbol Output Final) (stream : List Symbol)

@[simp] theorem run_pure (result : Result) :
    (pure result : Reader Symbol Output Result).run stream = ([], some (result, stream)) := rfl

@[simp] theorem run_say_bind (outputs : List Output) (next : PUnit → Reader Symbol Output Result) :
    (say outputs >>= next).run stream =
      (outputs ++ ((next ⟨⟩).run stream).1, ((next ⟨⟩).run stream).2) := rfl

/-- A read takes the symbols that are there. -/
theorem run_receive_bind (next : List Symbol → Reader Symbol Output Result)
    (symbols : List Symbol) {count : ℕ} (hcount : symbols.length = count) :
    (receive count >>= next).run (symbols ++ stream) = (next symbols).run stream := by
  change (if count ≤ (symbols ++ stream).length then _ else _) = _
  rw [if_pos (by simp [hcount]), ← hcount, List.take_left, List.drop_left]
  rfl

/-- A read blocks while symbols are missing. -/
theorem run_receive_bind_of_lt (next : List Symbol → Reader Symbol Output Result)
    {count : ℕ} (hcount : stream.length < count) :
    (receive count >>= next).run stream = ([], none) := by
  change (if count ≤ stream.length then _ else _) = _
  exact if_neg (by omega)

theorem run_bind_some {p : Reader Symbol Output Result} {outputs : List Output} {result : Result}
    {stream rest : List Symbol} (hrun : p.run stream = (outputs, some (result, rest))) :
    (p >>= f).run stream =
      (outputs ++ ((f result).run rest).1, ((f result).run rest).2) := by
  induction p generalizing stream outputs with
  | done first =>
      simp only [run, Prod.mk.injEq, Option.some.injEq] at hrun
      obtain ⟨rfl, rfl, rfl⟩ := hrun
      rfl
  | emit first next ih =>
      simp only [run, Prod.mk.injEq] at hrun
      obtain ⟨rfl, hrest⟩ := hrun
      change (first ++ ((next >>= f).run stream).1, ((next >>= f).run stream).2) = _
      rw [ih (Prod.ext rfl hrest), List.append_assoc]
  | read count next ih =>
      simp only [run] at hrun
      change (if count ≤ stream.length then ((next _) >>= f).run _ else _) = _
      split_ifs at hrun ⊢ with hcount
      · exact ih _ hrun
      · simp at hrun

theorem run_bind_none {p : Reader Symbol Output Result} {outputs : List Output}
    {stream : List Symbol} (hrun : p.run stream = (outputs, none)) :
    (p >>= f).run stream = (outputs, none) := by
  induction p generalizing stream outputs with
  | done first => simp [run] at hrun
  | emit first next ih =>
      simp only [run, Prod.mk.injEq] at hrun
      obtain ⟨rfl, hrest⟩ := hrun
      change (first ++ ((next >>= f).run stream).1, ((next >>= f).run stream).2) = _
      rw [ih (Prod.ext rfl hrest)]
  | read count next ih =>
      simp only [run] at hrun
      change (if count ≤ stream.length then ((next _) >>= f).run _ else _) = _
      split_ifs at hrun ⊢ with hcount
      · exact ih _ hrun
      · rw [Prod.mk.injEq] at hrun ⊢
        exact ⟨hrun.1, rfl⟩

end Run

/-! ## What a reader puts out, by the number of symbols it has read -/

/-- Everything put out satisfies `holds`, and the result `post`, with the number of
symbols read by then; `n` have been read so far. -/
def Meets (holds : ℕ → Output → Prop) (post : ℕ → Result → Prop) :
    ℕ → Reader Symbol Output Result → Prop
  | n, done result => post n result
  | n, emit outputs next => (∀ output ∈ outputs, holds n output) ∧ next.Meets holds post n
  | n, read count next =>
      ∀ symbols, symbols.length = count → (next symbols).Meets holds post (n + count)

section Meets

variable {holds : ℕ → Output → Prop} {post : ℕ → Result → Prop} {n : ℕ}

theorem meets_bind {p : Reader Symbol Output Result} {f : Result → Reader Symbol Output Final}
    {post : ℕ → Final → Prop} :
    Meets holds post n (p >>= f) ↔
      Meets holds (fun m result => Meets holds post m (f result)) n p := by
  induction p generalizing n with
  | done result => exact Iff.rfl
  | emit outputs next ih => exact and_congr_right fun _ => ih
  | read count next ih => exact forall₂_congr fun symbols _ => ih symbols

theorem meets_say_bind {outputs : List Output} {next : PUnit → Reader Symbol Output Result} :
    Meets holds post n (say outputs >>= next) ↔
      (∀ output ∈ outputs, holds n output) ∧ Meets holds post n (next ⟨⟩) := Iff.rfl

theorem meets_receive_bind {count : ℕ} {next : List Symbol → Reader Symbol Output Result} :
    Meets holds post n (receive count >>= next) ↔
      ∀ symbols, symbols.length = count → Meets holds post (n + count) (next symbols) := Iff.rfl

theorem Meets.mono {p : Reader Symbol Output Result} {post' : ℕ → Result → Prop}
    (hpost : ∀ m result, post m result → post' m result) (hp : Meets holds post n p) :
    Meets holds post' n p := by
  induction p generalizing n with
  | done result => exact hpost n result hp
  | emit outputs next ih => exact ⟨hp.1, ih hp.2⟩
  | read count next ih => exact fun symbols hcount => ih symbols (hp symbols hcount)

/-- Nothing is unread. -/
theorem meets_read (p : Reader Symbol Output Result) (n : ℕ) :
    Meets (fun _ _ => True) (fun m _ => n ≤ m) n p := by
  induction p generalizing n with
  | done result => exact Nat.le_refl n
  | emit outputs next ih => exact ⟨fun _ _ => trivial, ih n⟩
  | read count next ih =>
      intro symbols _
      exact (ih symbols (n + count)).mono fun m _ hm => by omega

/-- A run over any stream does as the reader's rules say. -/
theorem Meets.run {p : Reader Symbol Output Result} (hp : Meets holds post n p)
    (stream : List Symbol) :
    (∀ output ∈ (p.run stream).1, ∃ m ≤ stream.length, holds (n + m) output) ∧
      ∀ result rest, (p.run stream).2 = some (result, rest) →
        ∃ m, m + rest.length = stream.length ∧ post (n + m) result := by
  induction p generalizing n stream with
  | done result =>
      simp only [Reader.run, List.not_mem_nil, false_implies, implies_true, true_and,
        Option.some.injEq, Prod.mk.injEq]
      rintro result rest ⟨rfl, rfl⟩
      exact ⟨0, Nat.zero_add _, hp⟩
  | emit outputs next ih =>
      obtain ⟨hnow, hnext⟩ := ih hp.2 stream
      refine ⟨fun output houtput => ?_, hnext⟩
      rcases List.mem_append.mp houtput with hfirst | hlater
      · exact ⟨0, Nat.zero_le _, hp.1 output hfirst⟩
      · exact hnow output hlater
  | read count next ih =>
      simp only [Reader.run]
      split_ifs with hcount
      · obtain ⟨hnow, hnext⟩ :=
          ih _ (hp (stream.take count) (List.length_take_of_le hcount)) (stream.drop count)
        rw [List.length_drop] at hnow hnext
        constructor
        · intro output houtput
          obtain ⟨m, hm, hholds⟩ := hnow output houtput
          exact ⟨count + m, by omega, by rwa [← Nat.add_assoc]⟩
        · intro result rest hrest
          obtain ⟨m, hm, hpost⟩ := hnext result rest hrest
          exact ⟨count + m, by omega, by rwa [← Nat.add_assoc]⟩
      · simp

/-- A reader that begins with a read leaves less of the stream. -/
theorem run_receive_progress {count : ℕ} (hcount : 0 < count)
    {next : List Symbol → Reader Symbol Output Result} {stream rest : List Symbol}
    {result : Result} (hrun : ((receive count >>= next).run stream).2 = some (result, rest)) :
    rest.length < stream.length := by
  have hmeets : Meets (fun _ _ => True) (fun m _ => count ≤ m) 0 (receive count >>= next) := by
    intro symbols _
    exact (meets_read (next symbols) _).mono fun m _ hm => by omega
  obtain ⟨m, hm, hread⟩ := (hmeets.run stream).2 result rest hrun
  omega

end Meets

end Reader

/-! ## Servers -/

/-- A reader repeated without end. Every repetition reads something. -/
structure Server (State Symbol Output : Type u) where
  body : State → Reader Symbol Output State
  progress : ∀ s {stream rest : List Symbol} {s'},
    ((body s).run stream).2 = some (s', rest) → rest.length < stream.length

namespace Server

variable {State Symbol Output : Type u} (server : Server State Symbol Output)

/-- At most `fuel` repetitions: what was put out, the state in which the last one
began, and the stream it began with. -/
def serveFor : ℕ → State → List Symbol → List Output × State × List Symbol
  | 0, s, stream => ([], s, stream)
  | fuel + 1, s, stream =>
      match (server.body s).run stream with
      | (outputs, none) => (outputs, s, stream)
      | (outputs, some (s', rest)) =>
          (outputs ++ (serveFor fuel s' rest).1, (serveFor fuel s' rest).2)

/-- There are no more repetitions than symbols. -/
theorem serveFor_congr {fuel fuel' : ℕ} {s : State} {stream : List Symbol}
    (hfuel : stream.length < fuel) (hfuel' : stream.length < fuel') :
    server.serveFor fuel s stream = server.serveFor fuel' s stream := by
  induction fuel generalizing fuel' s stream with
  | zero => omega
  | succ fuel ih =>
      obtain ⟨more, rfl⟩ : ∃ more, fuel' = more + 1 := ⟨fuel' - 1, by omega⟩
      simp only [serveFor]
      rcases hrun : (server.body s).run stream with ⟨outputs, _ | ⟨s', rest⟩⟩
      · rfl
      · have hrest := server.progress s (congrArg Prod.snd hrun)
        dsimp only
        rw [@ih more s' rest (by omega) (by omega)]

/-- As many repetitions as the stream allows. -/
def serve (s : State) (stream : List Symbol) : List Output × State × List Symbol :=
  server.serveFor (stream.length + 1) s stream

section Serve

variable {server} {s s' : State} {stream rest : List Symbol} {outputs : List Output}

theorem serve_blocked (hrun : (server.body s).run stream = (outputs, none)) :
    server.serve s stream = (outputs, s, stream) := by
  unfold serve serveFor
  rw [hrun]

theorem serve_next (hrun : (server.body s).run stream = (outputs, some (s', rest))) :
    server.serve s stream =
      (outputs ++ (server.serve s' rest).1, (server.serve s' rest).2) := by
  have hrest := server.progress s (congrArg Prod.snd hrun)
  have hfuel : server.serveFor stream.length s' rest = server.serve s' rest :=
    server.serveFor_congr hrest (Nat.lt_succ_self _)
  unfold serve serveFor
  rw [hrun]
  dsimp only
  rw [hfuel]
  rfl

variable (server) in
/-- What holds of a blocked repetition and is passed on by one that ends holds of
everything a server puts out. -/
theorem serve_induction {motive : State → List Symbol → List Output → Prop}
    (hblocked : ∀ s stream outputs, (server.body s).run stream = (outputs, none) →
      motive s stream outputs)
    (hnext : ∀ s stream outputs s' rest later,
      (server.body s).run stream = (outputs, some (s', rest)) → motive s' rest later →
        motive s stream (outputs ++ later))
    (s : State) (stream : List Symbol) : motive s stream (server.serve s stream).1 := by
  induction hlength : stream.length using Nat.strongRecOn generalizing s stream with
  | _ length ih =>
      subst hlength
      rcases hrun : (server.body s).run stream with ⟨outputs, _ | ⟨s', rest⟩⟩
      · rw [serve_blocked hrun]
        exact hblocked s stream outputs hrun
      · rw [serve_next hrun]
        have hrest := server.progress s (congrArg Prod.snd hrun)
        exact hnext s stream outputs s' rest _ hrun (ih rest.length hrest s' rest rfl)

end Serve

/-! ## Symbols a server is done with -/

/-- Whatever follows, the server reads the symbols, puts `outputs` out and is in `s'`. -/
def Absorbs (s : State) (symbols : List Symbol) (outputs : List Output) (s' : State) : Prop :=
  ∀ rest, server.serve s (symbols ++ rest) =
    (outputs ++ (server.serve s' rest).1, (server.serve s' rest).2)

variable {server} {s s' s'' : State} {symbols symbols' : List Symbol}
  {outputs outputs' : List Output}

theorem absorbs_nil : server.Absorbs s [] [] s := fun _ => rfl

theorem absorbs_of_run
    (hrun : ∀ rest, (server.body s).run (symbols ++ rest) = (outputs, some (s', rest))) :
    server.Absorbs s symbols outputs s' :=
  fun rest => serve_next (hrun rest)

theorem Absorbs.append (h : server.Absorbs s symbols outputs s')
    (h' : server.Absorbs s' symbols' outputs' s'') :
    server.Absorbs s (symbols ++ symbols') (outputs ++ outputs') s'' := by
  intro rest
  rw [List.append_assoc, h (symbols' ++ rest), h' rest, List.append_assoc]

end Server

end AdaptiveSignal.Foundation
