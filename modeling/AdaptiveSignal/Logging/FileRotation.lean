import AdaptiveSignal.Foundation.Places
import AdaptiveSignal.Foundation.Run

/-! # The log file

All threads write their lines to the file of the hour. A timer opens the file of the next
hour, swaps it in and closes the one before, while the other threads go on writing.
-/

namespace AdaptiveSignal.Logging

open Foundation

/-- What a thread does when its line is written. -/
inductive AfterLine (Name : Type*)
  | done
  | swap (name : Name) (file : ℕ)
  | rename (name : Name)

/-- A thread in `log_file_write` or `log_file_name_update`. Files are numbered as they are
opened; the places that name a file have it in a local variable. -/
inductive LogPlace (Line Name : Type*)
  | idle
  | lock (line : Line) (next : AfterLine Name)
  | print (line : Line) (next : AfterLine Name)
  | put (file : ℕ) (line : Line) (next : AfterLine Name)
  | flush (next : AfterLine Name)
  | unlock (next : AfterLine Name)
  | openFile (name : Name)
  | lockSwap (name : Name) (file : ℕ)
  | take (name : Name) (file : ℕ)
  | swap (name : Name) (file tmp : ℕ)
  | release (name : Name) (tmp : ℕ)
  | close (name : Name) (tmp : ℕ)
  | rename (name : Name)

/-- The texts that `log_file_name_update` logs itself. -/
structure LogTexts (Line Name : Type*) where
  openedText : Name → Line
  openErrorText : Name → Line
  closedText : Name → Line
  closeErrorText : Name → Line

/-- `opened` files have been opened so far, and `fault` is set where one is used that is closed. -/
structure LogState (Thread Line Name : Type*) where
  logFilePtr : ℕ
  logFileName : Name
  mutex : Option Thread
  place : Thread → LogPlace Line Name
  opened : ℕ
  closed : ℕ → Bool
  content : ℕ → List Line
  exited : Bool
  fault : Bool

/-- A thread that is idle begins one of the functions, or one goes on with its own; `ok` is
whether the call it makes next succeeds. -/
inductive LogAction (Line Name : Type*)
  | write (line : Line)
  | update (buffer : Name)
  | proceed (ok : Bool)

variable {Thread Line Name : Type*}

def AfterLine.place : AfterLine Name → LogPlace Line Name
  | done => .idle
  | swap name file => .lockSwap name file
  | rename name => .rename name

namespace LogState

variable [DecidableEq Thread] (texts : LogTexts Line Name)

def moveTo (s : LogState Thread Line Name) (t : Thread) (p : LogPlace Line Name) :
    LogState Thread Line Name :=
  { s with place := Function.update s.place t p }

/-- `pthread_mutex_lock`, where a thread waits. -/
def acquire (s : LogState Thread Line Name) (t : Thread) (p : LogPlace Line Name) :
    LogState Thread Line Name :=
  if s.mutex = none then { s.moveTo t p with mutex := some t } else s

def proceed (s : LogState Thread Line Name) (t : Thread) (ok : Bool) :
    LogState Thread Line Name :=
  match s.place t with
  | .idle => s
  | .lock line next => s.acquire t (.print line next)
  | .print line next => s.moveTo t (.put s.logFilePtr line next)
  | .put file line next =>
      if ok then
        { s.moveTo t (.flush next) with
          content := Function.update s.content file (s.content file ++ [line])
          fault := s.fault || s.closed file }
      else { s with exited := true }
  | .flush next =>
      if ok then { s.moveTo t (.unlock next) with fault := s.fault || s.closed s.logFilePtr }
      else { s with exited := true }
  | .unlock next => { s.moveTo t next.place with mutex := none }
  | .openFile name =>
      if ok then
        { s.moveTo t (.lock (texts.openedText name) (.swap name s.opened)) with
          opened := s.opened + 1 }
      else s.moveTo t (.lock (texts.openErrorText name) .done)
  | .lockSwap name file => s.acquire t (.take name file)
  | .take name file => s.moveTo t (.swap name file s.logFilePtr)
  | .swap name file tmp => { s.moveTo t (.release name tmp) with logFilePtr := file }
  | .release name tmp => { s.moveTo t (.close name tmp) with mutex := none }
  | .close name tmp =>
      let text := if ok then texts.closedText s.logFileName else texts.closeErrorText s.logFileName
      { s.moveTo t (.lock text (.rename name)) with
        closed := Function.update s.closed tmp true
        fault := s.fault || s.closed tmp }
  | .rename name => { s.moveTo t .idle with logFileName := name }

def step [DecidableEq Name] (s : LogState Thread Line Name)
    (input : Thread × LogAction Line Name) : LogState Thread Line Name :=
  if s.exited then s
  else
    match input.2, s.place input.1 with
    | .write line, .idle => s.moveTo input.1 (.lock line .done)
    | .update buffer, .idle =>
        if buffer = s.logFileName then s else s.moveTo input.1 (.openFile buffer)
    | .proceed ok, _ => s.proceed texts input.1 ok
    | _, _ => s

/-- `log_file_init` has opened the first file. -/
def boot (name : Name) : LogState Thread Line Name where
  logFilePtr := 0
  logFileName := name
  mutex := none
  place := fun _ => .idle
  opened := 1
  closed := fun _ => false
  content := fun _ => []
  exited := false
  fault := false

end LogState

/-! ## What a place holds -/

/-- The file that will be swapped in after the line. -/
def AfterLine.hand : AfterLine Name → Option ℕ
  | swap _ file => some file
  | _ => none

namespace LogPlace

def critical : LogPlace Line Name → Bool
  | print .. | put .. | flush _ | unlock _ | take .. | swap .. | release .. => true
  | _ => false

/-- The file that only this thread has, before it is swapped in or after it was swapped out. -/
def hand : LogPlace Line Name → Option ℕ
  | lock _ next | print _ next | put _ _ next | flush next | unlock next => next.hand
  | lockSwap _ file | take _ file | swap _ file _ => some file
  | release _ tmp | close _ tmp => some tmp
  | _ => none

def swappedOut : LogPlace Line Name → Bool
  | release .. | close .. => true
  | _ => false

/-- The file that was current when the thread looked. -/
def seen : LogPlace Line Name → Option ℕ
  | put file .. => some file
  | swap _ _ tmp => some tmp
  | _ => none

/-- The line that is still to be printed. -/
def pending : LogPlace Line Name → List Line
  | lock line _ | print line _ | put _ line _ => [line]
  | _ => []

end LogPlace

@[simp] theorem AfterLine.place_hand (next : AfterLine Name) :
    (next.place : LogPlace Line Name).hand = next.hand := by
  cases next <;> rfl

@[simp] theorem AfterLine.place_swappedOut (next : AfterLine Name) :
    (next.place : LogPlace Line Name).swappedOut = false := by
  cases next <;> rfl

@[simp] theorem AfterLine.place_critical (next : AfterLine Name) :
    (next.place : LogPlace Line Name).critical = false := by
  cases next <;> rfl

@[simp] theorem AfterLine.place_pending (next : AfterLine Name) :
    (next.place : LogPlace Line Name).pending = [] := by
  cases next <;> rfl

@[simp] theorem AfterLine.place_seen (next : AfterLine Name) :
    (next.place : LogPlace Line Name).seen = none := by
  cases next <;> rfl

/-! ## What a step writes -/

namespace LogState

variable [DecidableEq Thread] (texts : LogTexts Line Name)

/-- The lines that a step hands to `log_file_write`. -/
def begun (s : LogState Thread Line Name) (input : Thread × LogAction Line Name) :
    List (Thread × Line) :=
  if s.exited then [] else
    match input.2, s.place input.1 with
    | .write line, .idle => [(input.1, line)]
    | .proceed ok, .openFile name =>
        [(input.1, if ok then texts.openedText name else texts.openErrorText name)]
    | .proceed ok, .close .. =>
        [(input.1, if ok then texts.closedText s.logFileName
          else texts.closeErrorText s.logFileName)]
    | _, _ => []

/-- The lines that a step prints. -/
def printed (s : LogState Thread Line Name) (input : Thread × LogAction Line Name) :
    List (Thread × Line) :=
  if s.exited then [] else
    match input.2, s.place input.1 with
    | .proceed ok, .put _ line _ => if ok then [(input.1, line)] else []
    | _, _ => []

/-- The file that a step swaps in. -/
def swappedIn (s : LogState Thread Line Name) (input : Thread × LogAction Line Name) : List ℕ :=
  if s.exited then [] else
    match input.2, s.place input.1 with
    | .proceed _, .swap _ file _ => [file]
    | _, _ => []

/-- What holds when the files have been current in this order and these lines are printed. -/
structure Files (s : LogState Thread Line Name) (files : List ℕ) (lines : List Line) : Prop where
  exclusive : Exclusive LogPlace.critical s.place s.mutex
  nodup : files.Nodup
  current : ∃ before, files = before ++ [s.logFilePtr]
  below : ∀ file ∈ files, file < s.opened
  content : files.flatMap s.content = lines
  empty : ∀ file ∉ files, s.content file = []
  seen : ∀ t file, (s.place t).seen = some file → file = s.logFilePtr
  hand : ∀ t file, (s.place t).hand = some file → file < s.opened ∧ file ≠ s.logFilePtr ∧
    s.closed file = false ∧ (file ∈ files ↔ (s.place t).swappedOut = true)
  apart : ∀ t t' file, (s.place t).hand = some file → (s.place t').hand = some file → t = t'
  accounted : ∀ file < s.opened, s.closed file = true ∨ file = s.logFilePtr ∨
    ∃ t, (s.place t).hand = some file
  current_open : s.closed s.logFilePtr = false
  closed_below : ∀ file, s.closed file = true → file < s.opened
  fault : s.fault = false

variable {texts} {s : LogState Thread Line Name} {files : List ℕ} {lines : List Line} {t : Thread}

namespace Files

/-- A thread goes on with what it holds. -/
theorem walk (h : Files s files lines) {p q : LogPlace Line Name} {mutex : Option Thread}
    (hplace : s.place t = q)
    (hexclusive : Exclusive LogPlace.critical (Function.update s.place t p) mutex)
    (hhand : p.hand = q.hand) (hout : p.swappedOut = q.swappedOut)
    (hseen : ∀ file, p.seen = some file → file = s.logFilePtr) :
    Files { s.moveTo t p with mutex := mutex } files lines := by
  subst hplace
  have hhand' := update_congr LogPlace.hand hhand
  have hout' := update_congr LogPlace.swappedOut hout
  exact
    { h with
      exclusive := hexclusive
      seen := fun t' file hfile => by
        change LogPlace.seen (Function.update s.place t p t') = some file at hfile
        rcases eq_or_ne t' t with rfl | hne
        · exact hseen file (by rwa [Function.update_self] at hfile)
        · exact h.seen t' file (by rwa [Function.update_of_ne hne] at hfile)
      hand := fun t' file hfile => by
        change (LogPlace.hand (Function.update s.place t p t')) = some file at hfile
        change _ ∧ _ ∧ _ ∧ (_ ↔ LogPlace.swappedOut (Function.update s.place t p t') = true)
        rw [hhand'] at hfile
        rw [hout']
        exact h.hand t' file hfile
      apart := fun first second file hfirst hsecond => by
        change LogPlace.hand (Function.update s.place t p _) = _ at hfirst hsecond
        rw [hhand'] at hfirst hsecond
        exact h.apart first second file hfirst hsecond
      accounted := fun file hfile => by
        refine (h.accounted file hfile).imp_right (Or.imp_right fun ⟨t', ht'⟩ => ⟨t', ?_⟩)
        exact (hhand' t').trans ht' }

/-- A place that neither enters nor leaves the critical section. -/
theorem stay (h : Files s files lines) {p q : LogPlace Line Name} (hplace : s.place t = q)
    (hcritical : p.critical = q.critical) (hhand : p.hand = q.hand)
    (hout : p.swappedOut = q.swappedOut)
    (hseen : ∀ file, p.seen = some file → file = s.logFilePtr) :
    Files (s.moveTo t p) files lines :=
  h.walk hplace (h.exclusive.keep (hplace ▸ hcritical)) hhand hout hseen

theorem acquire (h : Files s files lines) {p q : LogPlace Line Name} (hplace : s.place t = q)
    (hcritical : p.critical = true) (hhand : p.hand = q.hand) (hout : p.swappedOut = q.swappedOut)
    (hseen : p.seen = none) : Files (s.acquire t p) files lines := by
  rw [LogState.acquire]
  split_ifs with hfree
  · refine h.walk hplace (Exclusive.acquire (hfree ▸ h.exclusive) hcritical) hhand hout ?_
    intro file hfile
    simp [hseen] at hfile
  · exact h

theorem unlock (h : Files s files lines) {p q : LogPlace Line Name} (hplace : s.place t = q)
    (hcritical : q.critical = true) (hp : p.critical = false) (hhand : p.hand = q.hand)
    (hout : p.swappedOut = q.swappedOut) (hseen : p.seen = none) :
    Files { s.moveTo t p with mutex := none } files lines :=
  h.walk hplace (h.exclusive.release (hplace ▸ hcritical) hp) hhand hout fun file hfile => by
    simp [hseen] at hfile

omit [DecidableEq Thread] in
/-- The current file is written to. -/
theorem put (h : Files s files lines) (line : Line) :
    Files { s with
      content := Function.update s.content s.logFilePtr (s.content s.logFilePtr ++ [line])
      fault := s.fault || s.closed s.logFilePtr } files (lines ++ [line]) := by
  obtain ⟨before, hfiles⟩ := h.current
  have hnew : s.logFilePtr ∉ before := by
    have hnodup := h.nodup
    rw [hfiles, List.nodup_append] at hnodup
    exact fun hmem => hnodup.2.2 _ hmem _ (List.mem_singleton_self _) rfl
  exact
    { h with
      content := by
        change files.flatMap (Function.update s.content _ _) = _
        rw [← h.content, hfiles, List.flatMap_append, List.flatMap_append, List.append_assoc]
        congr 1
        · rw [List.flatMap_def, List.flatMap_def]
          refine congrArg List.flatten (List.map_congr_left fun file hfile => ?_)
          have hne : file ≠ s.logFilePtr := fun heq => hnew (heq ▸ hfile)
          exact Function.update_of_ne hne ..
        · simp
      empty := fun file hfile => by
        have hne : file ≠ s.logFilePtr := fun heq => hfile (by rw [heq, hfiles]; simp)
        change Function.update s.content _ _ file = []
        rw [Function.update_of_ne hne]
        exact h.empty file hfile
      fault := by
        change (s.fault || s.closed s.logFilePtr) = false
        rw [h.fault, h.current_open]
        rfl }

omit [DecidableEq Thread] in
theorem flush (h : Files s files lines) :
    Files { s with fault := s.fault || s.closed s.logFilePtr } files lines :=
  { h with
    fault := by
      change (s.fault || s.closed s.logFilePtr) = false
      rw [h.fault, h.current_open]
      rfl }

/-- A file is opened; until it is swapped in only this thread has it. -/
theorem openFile (h : Files s files lines) {p q : LogPlace Line Name} (hplace : s.place t = q)
    (hcritical : p.critical = q.critical) (hnone : q.hand = none)
    (hhand : p.hand = some s.opened) (hout : p.swappedOut = false) (hseen : p.seen = none) :
    Files { s.moveTo t p with opened := s.opened + 1 } files lines := by
  subst hplace
  have hfresh : s.opened ∉ files := fun hmem => Nat.lt_irrefl _ (h.below _ hmem)
  have hclosed : s.closed s.opened = false := by
    by_contra hclosed
    exact Nat.lt_irrefl _ (h.closed_below _ (Bool.not_eq_false _ ▸ hclosed))
  obtain ⟨before, hfiles⟩ := h.current
  have hcurrent : s.logFilePtr < s.opened := h.below _ (by rw [hfiles]; simp)
  have hothers (t' : Thread) (file : ℕ)
      (hfile : LogPlace.hand (Function.update s.place t p t') = some file) :
      (t' = t ∧ file = s.opened) ∨ (t' ≠ t ∧ (s.place t').hand = some file) := by
    rcases eq_or_ne t' t with rfl | hne
    · rw [Function.update_self, hhand] at hfile
      exact .inl ⟨rfl, (Option.some_inj.mp hfile).symm⟩
    · rw [Function.update_of_ne hne] at hfile
      exact .inr ⟨hne, hfile⟩
  exact
    { h with
      exclusive := h.exclusive.keep hcritical
      below := fun file hfile => Nat.lt_succ_of_lt (h.below file hfile)
      seen := fun t' file hfile => by
        change LogPlace.seen (Function.update s.place t p t') = some file at hfile
        rcases eq_or_ne t' t with rfl | hne
        · simp [hseen] at hfile
        · exact h.seen t' file (by rwa [Function.update_of_ne hne] at hfile)
      hand := fun t' file hfile => by
        change _ ∧ _ ∧ _ ∧ (_ ↔ LogPlace.swappedOut (Function.update s.place t p t') = true)
        rcases hothers t' file hfile with ⟨rfl, rfl⟩ | ⟨hne, hfile⟩
        · refine ⟨Nat.lt_succ_self _, (Nat.ne_of_lt hcurrent).symm, hclosed, ?_⟩
          rw [Function.update_self, hout]
          exact iff_of_false hfresh (by simp)
        · obtain ⟨hlt, hrest⟩ := h.hand t' file hfile
          rw [Function.update_of_ne hne]
          exact ⟨Nat.lt_succ_of_lt hlt, hrest⟩
      apart := fun first second file hfirst hsecond => by
        rcases hothers first file hfirst with ⟨heq, hfile⟩ | ⟨-, hheld⟩ <;>
          rcases hothers second file hsecond with ⟨heq', hfile'⟩ | ⟨-, hheld'⟩
        · rw [heq, heq']
        · exact absurd (hfile ▸ (h.hand _ _ hheld').1) (Nat.lt_irrefl _)
        · exact absurd (hfile' ▸ (h.hand _ _ hheld).1) (Nat.lt_irrefl _)
        · exact h.apart _ _ _ hheld hheld'
      accounted := fun file hfile => by
        rcases Nat.lt_succ_iff_lt_or_eq.mp hfile with hlt | rfl
        · refine (h.accounted file hlt).imp_right (Or.imp_right fun ⟨t', ht'⟩ => ⟨t', ?_⟩)
          have hne : t' ≠ t := fun heq => by simp [heq, hnone] at ht'
          change LogPlace.hand (Function.update s.place t p t') = _
          rwa [Function.update_of_ne hne]
        · refine .inr (.inr ⟨t, ?_⟩)
          change LogPlace.hand (Function.update s.place t p t) = _
          rwa [Function.update_self]
      closed_below := fun file hfile => Nat.lt_succ_of_lt (h.closed_below file hfile) }

/-- The new file becomes current, and its thread keeps the one before in its hand. -/
theorem swap (h : Files s files lines) {name : Name} {file tmp : ℕ}
    (hplace : s.place t = .swap name file tmp) :
    Files { s.moveTo t (.release name tmp) with logFilePtr := file } (files ++ [file]) lines := by
  obtain rfl : tmp = s.logFilePtr := h.seen t tmp (by rw [hplace]; rfl)
  have hhand : (s.place t).hand = some file := by rw [hplace]; rfl
  obtain ⟨hlt, hne, hopen, hnew⟩ := h.hand t file hhand
  rw [hplace] at hnew
  have hnew : file ∉ files := fun hmem => by simpa [LogPlace.swappedOut] using hnew.mp hmem
  obtain ⟨before, hfiles⟩ := h.current
  have hold : s.logFilePtr ∈ files := by rw [hfiles]; simp
  have hcritical : (s.place t).critical = true := by rw [hplace]; rfl
  have hothers (t' : Thread) (other : ℕ)
      (hother : LogPlace.hand (Function.update s.place t (.release name s.logFilePtr) t') =
        some other) :
      (t' = t ∧ other = s.logFilePtr) ∨ (t' ≠ t ∧ (s.place t').hand = some other) := by
    rcases eq_or_ne t' t with rfl | hne
    · rw [Function.update_self] at hother
      exact .inl ⟨rfl, (Option.some_inj.mp hother).symm⟩
    · rw [Function.update_of_ne hne] at hother
      exact .inr ⟨hne, hother⟩
  exact
    { h with
      exclusive := h.exclusive.keep hcritical.symm
      nodup := by
        refine List.nodup_append.mpr ⟨h.nodup, List.pairwise_singleton _ _, ?_⟩
        intro other hother last hlast heq
        rw [List.mem_singleton.mp hlast] at heq
        exact hnew (heq ▸ hother)
      current := ⟨files, rfl⟩
      below := fun other hother => by
        rcases List.mem_append.mp hother with hother | hother
        · exact h.below other hother
        · rwa [List.mem_singleton.mp hother]
      content := by
        change (files ++ [file]).flatMap s.content = _
        rw [List.flatMap_append, h.content, List.flatMap_singleton, h.empty file hnew,
          List.append_nil]
      empty := fun other hother => h.empty other fun hmem => hother (List.mem_append_left _ hmem)
      seen := fun t' other hother => by
        change LogPlace.seen (Function.update s.place t _ t') = some other at hother
        rcases eq_or_ne t' t with rfl | hne
        · rw [Function.update_self] at hother
          cases hother
        · rw [Function.update_of_ne hne] at hother
          have hcritical' : (s.place t').critical = true := by
            cases hplace' : s.place t' <;> rw [hplace'] at hother <;> first | rfl | cases hother
          exact absurd (h.exclusive.eq_of_critical hcritical' hcritical) hne
      hand := fun t' other hother => by
        change _ ∧ _ ∧ _ ∧ (_ ↔ LogPlace.swappedOut (Function.update s.place t _ t') = true)
        rcases hothers t' other hother with ⟨rfl, rfl⟩ | ⟨hne', hother⟩
        · refine ⟨h.below _ hold, hne.symm, h.current_open, ?_⟩
          rw [Function.update_self]
          exact iff_of_true (List.mem_append_left _ hold) rfl
        · obtain ⟨hlt', -, hopen', hmem⟩ := h.hand t' other hother
          have hdiff : other ≠ file := fun heq => hne' (h.apart t' t file (heq ▸ hother) hhand)
          rw [Function.update_of_ne hne']
          refine ⟨hlt', hdiff, hopen', ?_⟩
          rw [List.mem_append, List.mem_singleton, or_iff_left hdiff, hmem]
      apart := fun first second other hfirst hsecond => by
        rcases hothers first other hfirst with ⟨heq, hcurrent⟩ | ⟨-, hheld⟩ <;>
          rcases hothers second other hsecond with ⟨heq', hcurrent'⟩ | ⟨-, hheld'⟩
        · rw [heq, heq']
        · exact absurd hcurrent (h.hand _ _ hheld').2.1
        · exact absurd hcurrent' (h.hand _ _ hheld).2.1
        · exact h.apart _ _ _ hheld hheld'
      accounted := fun other hother => by
        rcases h.accounted other hother with hclosed | rfl | ⟨t', ht'⟩
        · exact .inl hclosed
        · refine .inr (.inr ⟨t, ?_⟩)
          change LogPlace.hand (Function.update s.place t _ t) = _
          rw [Function.update_self]
          rfl
        · rcases eq_or_ne t' t with rfl | hne
          · exact .inr (.inl (Option.some_inj.mp (ht'.symm.trans hhand)))
          · refine .inr (.inr ⟨t', ?_⟩)
            change LogPlace.hand (Function.update s.place t _ t') = _
            rwa [Function.update_of_ne hne]
      current_open := hopen }

/-- The thread closes the file that only it has. -/
theorem close (h : Files s files lines) {p q : LogPlace Line Name} {tmp : ℕ}
    (hplace : s.place t = q) (hcritical : p.critical = q.critical) (hhand : q.hand = some tmp)
    (hnone : p.hand = none) (hseen : p.seen = none) :
    Files { s.moveTo t p with
      closed := Function.update s.closed tmp true
      fault := s.fault || s.closed tmp } files lines := by
  subst hplace
  obtain ⟨hlt, hne, hopen, -⟩ := h.hand t tmp hhand
  have hothers (t' : Thread) (file : ℕ)
      (hfile : LogPlace.hand (Function.update s.place t p t') = some file) :
      t' ≠ t ∧ (s.place t').hand = some file := by
    rcases eq_or_ne t' t with rfl | hne
    · simp [hnone] at hfile
    · rw [Function.update_of_ne hne] at hfile
      exact ⟨hne, hfile⟩
  exact
    { h with
      exclusive := h.exclusive.keep hcritical
      seen := fun t' file hfile => by
        change LogPlace.seen (Function.update s.place t p t') = some file at hfile
        rcases eq_or_ne t' t with rfl | hne
        · simp [hseen] at hfile
        · exact h.seen t' file (by rwa [Function.update_of_ne hne] at hfile)
      hand := fun t' file hfile => by
        obtain ⟨hne', hfile⟩ := hothers t' file hfile
        obtain ⟨hlt', hcurrent, hopen', hmem⟩ := h.hand t' file hfile
        have hdiff : file ≠ tmp := fun heq => hne' (h.apart t' t tmp (heq ▸ hfile) hhand)
        change _ ∧ _ ∧ Function.update s.closed tmp true file = false ∧
          (_ ↔ LogPlace.swappedOut (Function.update s.place t p t') = true)
        rw [Function.update_of_ne hdiff, Function.update_of_ne hne']
        exact ⟨hlt', hcurrent, hopen', hmem⟩
      apart := fun first second file hfirst hsecond =>
        h.apart first second file (hothers first file hfirst).2 (hothers second file hsecond).2
      accounted := fun file hfile => by
        rcases eq_or_ne file tmp with rfl | hdiff
        · exact .inl (Function.update_self ..)
        · rcases h.accounted file hfile with hclosed | hcurrent | ⟨t', ht'⟩
          · exact .inl ((Function.update_of_ne hdiff ..).trans hclosed)
          · exact .inr (.inl hcurrent)
          · have hne : t' ≠ t := fun heq => by
              rw [heq, hhand] at ht'
              exact hdiff (Option.some_inj.mp ht').symm
            refine .inr (.inr ⟨t', ?_⟩)
            change LogPlace.hand (Function.update s.place t p t') = _
            rwa [Function.update_of_ne hne]
      current_open := (Function.update_of_ne hne.symm ..).trans h.current_open
      closed_below := fun file hfile => by
        rcases eq_or_ne file tmp with rfl | hdiff
        · exact hlt
        · exact h.closed_below file ((Function.update_of_ne hdiff ..).symm.trans hfile)
      fault := by
        change (s.fault || s.closed tmp) = false
        rw [h.fault, hopen]
        rfl }

end Files

/-! ## Runs -/

variable (texts)

omit [DecidableEq Thread] in
theorem Files.exit (h : Files s files lines) : Files { s with exited := true } files lines :=
  { h with }

theorem Files.proceed (h : Files s files lines) (t : Thread) (ok : Bool)
    (halive : s.exited = false) :
    Files (s.proceed texts t ok) (files ++ s.swappedIn (t, .proceed ok))
      (lines ++ (s.printed (t, .proceed ok)).map Prod.snd) := by
  have hnone {s' : LogState Thread Line Name} (h' : Files s' files lines) :
      Files s' (files ++ []) (lines ++ ([] : List (Thread × Line)).map Prod.snd) := by
    rwa [List.map_nil, List.append_nil, List.append_nil]
  simp only [LogState.proceed, LogState.swappedIn, LogState.printed, halive, Bool.false_eq_true,
    if_false]
  cases hplace : s.place t with
  | idle => exact hnone h
  | lock line next => exact hnone (h.acquire hplace rfl rfl rfl rfl)
  | print line next =>
      exact hnone (h.stay hplace rfl rfl rfl fun file hfile => (Option.some_inj.mp hfile).symm)
  | put file line next =>
      obtain rfl : file = s.logFilePtr := h.seen t file (by rw [hplace]; rfl)
      cases ok with
      | true =>
          rw [List.append_nil]
          exact (h.put line).stay (p := .flush next) hplace rfl rfl rfl fun _ hfile => nomatch hfile
      | false => exact hnone h.exit
  | flush next =>
      cases ok with
      | true =>
          exact hnone (h.flush.stay (p := .unlock next) hplace rfl rfl rfl
            fun _ hfile => nomatch hfile)
      | false => exact hnone h.exit
  | unlock next =>
      exact hnone (h.unlock hplace rfl next.place_critical next.place_hand next.place_swappedOut
        next.place_seen)
  | openFile name =>
      cases ok with
      | true => exact hnone (h.openFile hplace rfl rfl rfl rfl rfl)
      | false => exact hnone (h.stay hplace rfl rfl rfl fun _ hfile => nomatch hfile)
  | lockSwap name file => exact hnone (h.acquire hplace rfl rfl rfl rfl)
  | take name file =>
      exact hnone (h.stay hplace rfl rfl rfl fun file hfile => (Option.some_inj.mp hfile).symm)
  | swap name file tmp =>
      rw [List.map_nil, List.append_nil]
      exact h.swap hplace
  | release name tmp => exact hnone (h.unlock hplace rfl rfl rfl rfl rfl)
  | close name tmp => exact hnone (h.close hplace rfl rfl rfl rfl)
  | rename name =>
      exact hnone { h.stay (p := .idle) hplace rfl rfl rfl fun _ hfile => nomatch hfile with }

theorem Files.step [DecidableEq Name] (h : Files s files lines)
    (input : Thread × LogAction Line Name) :
    Files (s.step texts input) (files ++ s.swappedIn input)
      (lines ++ (s.printed input).map Prod.snd) := by
  obtain ⟨t, action⟩ := input
  have hnone {s' : LogState Thread Line Name} (h' : Files s' files lines) :
      Files s' (files ++ []) (lines ++ ([] : List (Thread × Line)).map Prod.snd) := by
    rwa [List.map_nil, List.append_nil, List.append_nil]
  rw [LogState.step]
  split_ifs with hexited
  · rw [swappedIn, printed, if_pos hexited, if_pos hexited]
    exact hnone h
  · have halive : s.exited = false := Bool.not_eq_true _ ▸ hexited
    cases action with
    | proceed ok =>
        have hproceed := h.proceed texts t ok halive
        cases hplace : s.place t <;> simpa only [hplace] using hproceed
    | write line =>
        rw [swappedIn, printed, if_neg hexited, if_neg hexited]
        cases hplace : s.place t with
        | idle => exact hnone (h.stay hplace rfl rfl rfl fun _ hfile => nomatch hfile)
        | _ => exact hnone h
    | update buffer =>
        rw [swappedIn, printed, if_neg hexited, if_neg hexited]
        cases hplace : s.place t with
        | idle =>
            dsimp only
            split_ifs
            · exact hnone h
            · exact hnone (h.stay hplace rfl rfl rfl fun _ hfile => nomatch hfile)
        | _ => exact hnone h

omit [DecidableEq Thread] in
theorem files_boot (name : Name) : Files (boot name : LogState Thread Line Name) [0] [] where
  exclusive _ := iff_of_false (by simp [boot, LogPlace.critical]) (by simp [boot])
  nodup := List.pairwise_singleton _ _
  current := ⟨[], rfl⟩
  below _ hfile := by rw [List.mem_singleton.mp hfile]; exact Nat.one_pos
  content := rfl
  empty _ _ := rfl
  seen _ _ hfile := nomatch hfile
  hand _ _ hfile := nomatch hfile
  apart _ _ _ hfile := nomatch hfile
  accounted _ hfile := .inr (.inl (Nat.lt_one_iff.mp hfile))
  current_open := rfl
  closed_below _ hfile := nomatch hfile
  fault := rfl

/-! ## Lines -/

/-- A thread has printed the lines that it began, up to the one that it is printing. -/
def Awaited (s : LogState Thread Line Name) (started written : List (Thread × Line)) : Prop :=
  ∀ t, started.filter (·.1 = t) = written.filter (·.1 = t) ++ (s.place t).pending.map (t, ·)

variable {texts} {started written : List (Thread × Line)}

theorem Awaited.move (h : Awaited s started written) (new old : List Line)
    {s' : LogState Thread Line Name} {p : LogPlace Line Name}
    (hplace : s'.place = Function.update s.place t p)
    (hline : (s.place t).pending ++ new = old ++ p.pending) :
    Awaited s' (started ++ new.map (t, ·)) (written ++ old.map (t, ·)) := by
  intro t'
  have hmine (part : List Line) : (part.map (t, ·)).filter (·.1 = t) = part.map (t, ·) :=
    List.filter_eq_self.mpr fun line hline => by
      obtain ⟨_, _, rfl⟩ := List.mem_map.mp hline
      exact decide_eq_true rfl
  rw [hplace, List.filter_append, List.filter_append, h t']
  rcases eq_or_ne t' t with rfl | hne
  · rw [Function.update_self, hmine, hmine, List.append_assoc, List.append_assoc,
      ← List.map_append, ← List.map_append, hline]
  · have hothers (part : List Line) : (part.map (t, ·)).filter (·.1 = t') = [] :=
      List.filter_eq_nil_iff.mpr fun line hline => by
        obtain ⟨_, _, rfl⟩ := List.mem_map.mp hline
        simpa using hne.symm
    rw [Function.update_of_ne hne, hothers, hothers, List.append_nil, List.append_nil]

theorem Awaited.step [DecidableEq Name] (h : Awaited s started written)
    (input : Thread × LogAction Line Name) :
    Awaited (s.step texts input) (started ++ s.begun texts input) (written ++ s.printed input) := by
  obtain ⟨t, action⟩ := input
  -- the thread waits, or the process ends
  have hstill {s' : LogState Thread Line Name} (hplace : s'.place = s.place) :
      Awaited s' (started ++ []) (written ++ []) := fun t' => by
    rw [List.append_nil, List.append_nil, hplace]
    exact h t'
  have hwalk {s' : LogState Thread Line Name} {p : LogPlace Line Name}
      (hplace : s'.place = Function.update s.place t p)
      (hpending : (s.place t).pending = p.pending) :
      Awaited s' (started ++ []) (written ++ []) :=
    h.move [] [] hplace (by rw [hpending, List.append_nil, List.nil_append])
  have hacquire {p : LogPlace Line Name} (hpending : (s.place t).pending = p.pending) :
      Awaited (s.acquire t p) (started ++ []) (written ++ []) := by
    rw [LogState.acquire]
    split_ifs
    · exact hwalk rfl hpending
    · exact hstill rfl
  rw [LogState.step, LogState.begun, LogState.printed]
  split_ifs with hexited
  · exact hstill rfl
  · cases action with
    | write line =>
        cases hplace : s.place t with
        | idle => exact h.move [line] [] rfl (by rw [hplace]; rfl)
        | _ => exact hstill rfl
    | update buffer =>
        cases hplace : s.place t with
        | idle =>
            dsimp only
            split_ifs
            · exact hstill rfl
            · exact hwalk rfl (by rw [hplace]; rfl)
        | _ => exact hstill rfl
    | proceed ok =>
        simp only [LogState.proceed]
        cases hplace : s.place t with
        | idle => exact hstill rfl
        | lock line next => exact hacquire (by rw [hplace]; rfl)
        | print line next => exact hwalk rfl (by rw [hplace]; rfl)
        | put file line next =>
            cases ok with
            | true => exact h.move [] [line] rfl (by rw [hplace]; rfl)
            | false => exact hstill rfl
        | flush next =>
            cases ok with
            | true => exact hwalk rfl (by rw [hplace]; rfl)
            | false => exact hstill rfl
        | unlock next => exact hwalk rfl (by rw [hplace]; exact next.place_pending.symm)
        | openFile name =>
            cases ok with
            | true =>
                exact h.move [texts.openedText name] [] rfl (by rw [hplace]; rfl)
            | false =>
                exact h.move [texts.openErrorText name] [] rfl (by rw [hplace]; rfl)
        | lockSwap name file => exact hacquire (by rw [hplace]; rfl)
        | take name file => exact hwalk rfl (by rw [hplace]; rfl)
        | swap name file tmp => exact hwalk rfl (by rw [hplace]; rfl)
        | release name tmp => exact hwalk rfl (by rw [hplace]; rfl)
        | close name tmp =>
            exact h.move [if ok then texts.closedText s.logFileName
              else texts.closeErrorText s.logFileName] [] rfl (by rw [hplace]; rfl)
        | rename name => exact hwalk rfl (by rw [hplace]; rfl)

variable [DecidableEq Name] (texts) (name : Name)

theorem files_run (inputs : List (Thread × LogAction Line Name)) :
    Files (run (step texts) (boot name) inputs)
      (0 :: emitted (step texts) swappedIn (boot name) inputs)
      ((emitted (step texts) printed (boot name) inputs).map Prod.snd) := by
  induction inputs using List.reverseRecOn with
  | nil => exact files_boot name
  | append_singleton inputs input ih =>
      simp only [run_concat, emitted_concat, List.map_append]
      exact ih.step texts input

theorem awaited_run (inputs : List (Thread × LogAction Line Name)) :
    Awaited (run (step texts) (boot name) inputs)
      (emitted (step texts) (begun texts) (boot name) inputs)
      (emitted (step texts) printed (boot name) inputs) := by
  induction inputs using List.reverseRecOn with
  | nil => exact fun _ => rfl
  | append_singleton inputs input ih =>
      simp only [run_concat, emitted_concat]
      exact ih.step input

/-- In every interleaving of any number of threads: no file is used that is closed, and the
files that have been current hold, one after the other, all lines in the order in which they
were printed, and other files none. Every thread has printed the lines that it began, in their
order, up to the one that it is printing. A file that was opened is closed, current, or in the
hand of one thread that is changing files. -/
theorem lines_kept_in_order (inputs : List (Thread × LogAction Line Name)) :
    let s := run (step texts) (boot name) inputs
    let files := 0 :: emitted (step texts) swappedIn (boot name) inputs
    let lines := emitted (step texts) printed (boot name) inputs
    s.fault = false ∧
    files.flatMap s.content = lines.map Prod.snd ∧
    (∀ file ∉ files, s.content file = []) ∧
    (∀ t, (emitted (step texts) (begun texts) (boot name) inputs).filter (·.1 = t) =
      lines.filter (·.1 = t) ++ (s.place t).pending.map (t, ·)) ∧
    ∀ file < s.opened, s.closed file = true ∨ file = s.logFilePtr ∨
      ∃ t, (s.place t).hand = some file ∧ ∀ t', (s.place t').hand = some file → t' = t := by
  intro s files lines
  have hfiles : Files s files (lines.map Prod.snd) := files_run texts name inputs
  refine ⟨hfiles.fault, hfiles.content, hfiles.empty, awaited_run texts name inputs,
    fun file hfile => ?_⟩
  refine (hfiles.accounted file hfile).imp_right (Or.imp_right fun ⟨t, ht⟩ => ⟨t, ht, ?_⟩)
  exact fun t' ht' => hfiles.apart t' t file ht' ht

end LogState

end AdaptiveSignal.Logging
