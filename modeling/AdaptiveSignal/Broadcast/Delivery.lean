import AdaptiveSignal.Broadcast.ExternalMessages

/-! # Delivery of external messages

Where callers, dispatcher and transmission loop all keep running, the dispatcher
leaves every place in its loop, so every message that was inserted is handled at
some time. Messages are then delivered exactly if none is processed in an
iteration in which its kind is not due.
-/

namespace AdaptiveSignal.Broadcast

open Foundation DispatcherPlace

variable {Data : Type*} {config : TibConfig} {own : OwnKind → Data}
  {s s' : BroadcastState Data} {actions : ℕ → BroadcastAction Data}

/-- The state after the first steps of an endless run. -/
def stateAt (config : TibConfig) (own : OwnKind → Data) (actions : ℕ → BroadcastAction Data)
    (n : ℕ) : BroadcastState Data :=
  run (broadcastStep config own) .initial ((List.range n).map actions)

theorem stateAt_succ (n : ℕ) :
    stateAt config own actions (n + 1) =
      broadcastStep config own (stateAt config own actions n) (actions n) := by
  rw [stateAt, List.range_succ, List.map_append, List.map_singleton, run_concat]
  rfl

/-- What every step preserves holds from any time on at which it holds. -/
theorem stateAt_invariant (invariant : BroadcastState Data → Prop)
    (hstep : ∀ s action, invariant s → invariant (broadcastStep config own s action)) {n m : ℕ}
    (hnm : n ≤ m) (hn : invariant (stateAt config own actions n)) :
    invariant (stateAt config own actions m) := by
  induction m, hnm using Nat.le_induction with
  | base => exact hn
  | succ m _ ih =>
      rw [stateAt_succ]
      exact hstep _ _ ih

/-- Callers, dispatcher and transmission loop all keep running. -/
structure Fair (actions : ℕ → BroadcastAction Data) : Prop where
  notifies : ∀ n, ∃ m, n ≤ m ∧ actions m = .notify
  dispatches : ∀ n, ∃ m, n ≤ m ∧ ∃ readings, actions m = .dispatch readings
  transmits : ∀ n q, ∃ m, n ≤ m ∧ actions m = .transmit q

/-! ## Space in the queues -/

/-- No queue holds more than it has places for. -/
def Bounded (s : BroadcastState Data) : Prop :=
  ∀ q, (s.queue q).length ≤ maxTibQueueSize

theorem Bounded.put (h : Bounded s) {q : TibQueue} (hspace : s.HasSpace q) (obj : TibObj Data) :
    Bounded (s.put q obj) := by
  intro other
  rcases eq_or_ne other q with rfl | hne
  · have hlength : (s.queue other).length + 1 ≤ maxTibQueueSize := hspace
    simpa using hlength
  · rw [s.put_queue_of_ne hne]
    exact h other

theorem DispatchMove.bounded (hmove : DispatchMove config own s s') (h : Bounded s) :
    Bounded s' := by
  cases hmove with
  | puts kind msg remaining hplace hspace => exact h.put hspace _
  | putsOwn kind hplace hspace => exact h.put hspace _
  | _ => exact h

theorem bounded_step (s : BroadcastState Data) (action : BroadcastAction Data) (h : Bounded s) :
    Bounded (broadcastStep config own s action) := by
  cases action with
  | insert msg =>
      simp only [broadcastStep]
      split_ifs <;> exact h
  | notify =>
      simp only [broadcastStep]
      split_ifs <;> exact h
  | dispatch readings => exact (dispatchMove config own s readings).bounded h
  | transmit q =>
      intro other
      rcases eq_or_ne other q with rfl | hne
      · have hlength := h other
        simp only [broadcastStep, Function.update_self, List.length_tail]
        omega
      · simpa [broadcastStep, hne] using h other

theorem bounded_stateAt (config : TibConfig) (own : OwnKind → Data)
    (actions : ℕ → BroadcastAction Data) (n : ℕ) : Bounded (stateAt config own actions n) := by
  apply stateAt_invariant Bounded bounded_step (Nat.zero_le n)
  intro q
  exact Nat.zero_le _

@[simp] theorem transmit_length (s : BroadcastState Data) (q : TibQueue) :
    ((broadcastStep config own s (.transmit q)).queue q).length = (s.queue q).length - 1 := by
  simp [broadcastStep]

/-! ## The dispatcher moves on -/

/-- An upper bound on the moves until the dispatcher loads its count again. -/
def rank : DispatcherPlace Data → ℕ
  | .load => 0
  | .increment => 1
  | .enqueueOwn .tim => 2
  | .branch .tim => 3
  | .enqueueOwn .spat => 4
  | .branch .spat => 5
  | .enqueueOwn .map => 6
  | .branch .map => 7
  | .reset => 8
  | .fetch remaining => 8 + 4 * remaining
  | .enqueue _ _ remaining => 9 + 4 * remaining
  | .process _ remaining => 10 + 4 * remaining
  | .subtract _ remaining => 11 + 4 * remaining

theorem rank_afterBranch_lt (kind : OwnKind) :
    rank (afterBranch kind : DispatcherPlace Data) <
      rank (.enqueueOwn kind : DispatcherPlace Data) := by
  cases kind <;> simp [afterBranch, rank]

theorem rank_enqueueOwn_lt (kind : OwnKind) :
    rank (.enqueueOwn kind : DispatcherPlace Data) <
      rank (.branch kind : DispatcherPlace Data) := by
  cases kind <;> simp [rank]

/-- The dispatcher has space wherever it waits for it. -/
def Free (s : BroadcastState Data) : Prop :=
  ∀ q, s.place.awaits = some q → s.HasSpace q

/-- A dispatcher that does not wait comes closer to the load. -/
theorem DispatchMove.rank_lt (hmove : DispatchMove config own s s') (hfree : Free s)
    (hplace : s.place ≠ .load) : rank s'.place < rank s.place := by
  cases hmove with
  | waits q hawaits hfull => exact absurd (hfree q hawaits) hfull
  | loads hload => exact absurd hload hplace
  | idles hload => exact absurd hload hplace
  | branches kind _ _ _ p hbranch hp =>
      rw [hbranch]
      rcases hp with rfl | rfl
      · exact rank_enqueueOwn_lt kind
      · exact (rank_afterBranch_lt kind).trans (rank_enqueueOwn_lt kind)
  | putsOwn kind henqueue =>
      rw [henqueue]
      exact rank_afterBranch_lt kind
  | loopEnds hat | misses _ hat | fetches _ _ _ hat | skips _ _ hat | subtracts _ _ hat
  | drops _ _ hat | targets _ _ _ hat | puts _ _ _ hat | resets hat | increments hat =>
      rw [hat]
      simp only [BroadcastState.moveTo, rank]
      omega

/-- Only the dispatcher moves it, and only it fills the queues. -/
theorem broadcastStep_place (config : TibConfig) (own : OwnKind → Data)
    (s : BroadcastState Data) {action : BroadcastAction Data}
    (hother : ∀ readings, action ≠ .dispatch readings) :
    (broadcastStep config own s action).place = s.place ∧
      ∀ q, ((broadcastStep config own s action).queue q).length ≤ (s.queue q).length := by
  cases action with
  | insert msg =>
      simp only [broadcastStep]
      split_ifs <;> exact ⟨rfl, fun q => le_rfl⟩
  | notify =>
      simp only [broadcastStep]
      split_ifs <;> exact ⟨rfl, fun q => le_rfl⟩
  | dispatch readings => exact absurd rfl (hother readings)
  | transmit q =>
      refine ⟨rfl, fun other => ?_⟩
      rcases eq_or_ne other q with rfl | hne
      · simp [broadcastStep]
      · simp [broadcastStep, hne]

/-- A dispatcher that waits changes nothing. -/
theorem dispatch_of_not_free (readings : Readings) (hwaits : ¬ Free s) :
    tibDispatcherHandler config own s readings = s := by
  obtain ⟨q, hq⟩ := not_forall.mp hwaits
  obtain ⟨hawaits, hfull⟩ := Classical.not_imp.mp hq
  cases hplace : s.place with
  | enqueue kind msg remaining =>
      rw [hplace] at hawaits
      cases hawaits
      simp only [tibDispatcherHandler, hplace, if_neg hfull]
  | enqueueOwn kind =>
      rw [hplace] at hawaits
      cases hawaits
      simp only [tibDispatcherHandler, hplace, if_neg hfull]
  | _ =>
      rw [hplace] at hawaits
      cases hawaits

/-- A place of the dispatcher that it does not leave is one in which it waits, and
the queues only become shorter in the meantime. -/
theorem stateAt_stalled {n m : ℕ} (hnm : n ≤ m)
    (hstall : ∀ k, n ≤ k → (stateAt config own actions k).place =
      (stateAt config own actions n).place → Free (stateAt config own actions k) →
      ∀ readings, actions k ≠ .dispatch readings) :
    (stateAt config own actions m).place = (stateAt config own actions n).place ∧
      ∀ q, ((stateAt config own actions m).queue q).length ≤
        ((stateAt config own actions n).queue q).length := by
  induction m, hnm using Nat.le_induction with
  | base => exact ⟨rfl, fun q => le_rfl⟩
  | succ m hm ih =>
      obtain ⟨hplace, hqueue⟩ := ih
      rw [stateAt_succ]
      by_cases hdispatch : ∃ readings, actions m = .dispatch readings
      · obtain ⟨readings, hreadings⟩ := hdispatch
        have hwaits : ¬ Free (stateAt config own actions m) :=
          fun hfree => hstall m hm hplace hfree readings hreadings
        rw [hreadings, broadcastStep, dispatch_of_not_free readings hwaits]
        exact ⟨hplace, hqueue⟩
      · obtain ⟨hsame, hshorter⟩ := broadcastStep_place config own
          (stateAt config own actions m) (not_exists.mp hdispatch)
        exact ⟨hsame.trans hplace, fun q => (hshorter q).trans (hqueue q)⟩

/-- In a fair run the dispatcher leaves the place it is at. -/
theorem Fair.exists_moves (hfair : Fair actions) (config : TibConfig) (own : OwnKind → Data)
    (n : ℕ) :
    ∃ m, n ≤ m ∧ (stateAt config own actions m).place = (stateAt config own actions n).place ∧
      Free (stateAt config own actions m) ∧ ∃ readings, actions m = .dispatch readings := by
  by_contra hnone
  have hstall (k : ℕ) (hk : n ≤ k) (hplace : (stateAt config own actions k).place =
      (stateAt config own actions n).place) (hfree : Free (stateAt config own actions k))
      (readings : Readings) (hdispatch : actions k = .dispatch readings) : False :=
    hnone ⟨k, hk, hplace, hfree, readings, hdispatch⟩
  cases hawaits : (stateAt config own actions n).place.awaits with
  | none =>
      obtain ⟨m, hm, readings, hdispatch⟩ := hfair.dispatches n
      have hplace := (stateAt_stalled hm hstall).1
      refine hstall m hm hplace (fun q hq => ?_) readings hdispatch
      rw [hplace, hawaits] at hq
      cases hq
  | some q =>
      -- Once the queue that it waits for has lost a message, it stays so.
      obtain ⟨taken, htaken, htransmit⟩ := hfair.transmits n q
      obtain ⟨m, hm, readings, hdispatch⟩ := hfair.dispatches (taken + 1)
      have hn : n ≤ taken + 1 := htaken.trans (Nat.le_succ taken)
      have htakenPlace := (stateAt_stalled hn hstall).1
      have hplace := (stateAt_stalled (hn.trans hm) hstall).1
      have hlater := (stateAt_stalled hm fun k hk hkplace =>
        hstall k (hn.trans hk) (hkplace.trans htakenPlace)).2 q
      refine hstall m (hn.trans hm) hplace (fun other hother => ?_) readings hdispatch
      rw [hplace, hawaits] at hother
      cases hother
      have hbound := bounded_stateAt config own actions taken q
      rw [stateAt_succ, htransmit, transmit_length] at hlater
      have hpositive : 0 < maxTibQueueSize := by decide
      unfold BroadcastState.HasSpace
      omega

/-- In a fair run the dispatcher loads its count again and again. -/
theorem Fair.exists_load (hfair : Fair actions) (config : TibConfig) (own : OwnKind → Data)
    (n : ℕ) : ∃ m, n ≤ m ∧ (stateAt config own actions m).place = .load := by
  induction hrank : rank (stateAt config own actions n).place using Nat.strong_induction_on
    generalizing n with
  | _ distance ih =>
      by_cases hload : (stateAt config own actions n).place = .load
      · exact ⟨n, le_rfl, hload⟩
      · obtain ⟨m, hm, hplace, hfree, readings, hdispatch⟩ := hfair.exists_moves config own n
        have hcloser : rank (stateAt config own actions (m + 1)).place < distance := by
          rw [← hrank, ← hplace, stateAt_succ, hdispatch]
          exact (dispatchMove config own _ readings).rank_lt hfree (hplace ▸ hload)
        obtain ⟨later, hlater, hplaceLater⟩ := ih _ hcloser (m + 1) rfl
        exact ⟨later, by omega, hplaceLater⟩

/-! ## Every message is handled -/

/-- The dispatcher touches neither what was inserted nor the callers. -/
theorem DispatchMove.callers (hmove : DispatchMove config own s s') :
    s'.inserted = s.inserted ∧ s'.notifying = s.notifying := by
  cases hmove <;> exact ⟨rfl, rfl⟩

theorem inserted_grows_step (s : BroadcastState Data) (action : BroadcastAction Data) :
    s.inserted <+: (broadcastStep config own s action).inserted := by
  cases action with
  | insert msg =>
      simp only [broadcastStep]
      split_ifs
      · exact List.prefix_append _ _
      · exact List.prefix_rfl
  | notify =>
      simp only [broadcastStep]
      split_ifs <;> exact List.prefix_rfl
  | dispatch readings =>
      rw [broadcastStep, (dispatchMove config own s readings).callers.1]
  | transmit q => exact List.prefix_rfl

theorem inserted_grows {n m : ℕ} (hnm : n ≤ m) :
    (stateAt config own actions n).inserted <+: (stateAt config own actions m).inserted :=
  stateAt_invariant ((stateAt config own actions n).inserted <+: ·.inserted)
    (fun s action h => h.trans (inserted_grows_step s action)) hnm List.prefix_rfl

/-- At most so many callers of the first messages have still to call back. -/
def Awaiting (target left : ℕ) (s : BroadcastState Data) : Prop :=
  s.notifying + target ≤ s.inserted.length + left

theorem awaiting_step {target left : ℕ} (s : BroadcastState Data) (action : BroadcastAction Data)
    (h : Awaiting target left s) : Awaiting target left (broadcastStep config own s action) := by
  cases action with
  | insert msg =>
      simp only [broadcastStep]
      split_ifs
      · simp only [Awaiting, List.length_append, List.length_singleton] at h ⊢
        omega
      · exact h
  | notify =>
      simp only [broadcastStep]
      split_ifs
      · exact h
      · simp only [Awaiting] at h ⊢
        omega
  | dispatch readings =>
      obtain ⟨hinserted, hnotifying⟩ := (dispatchMove config own s readings).callers
      rw [broadcastStep, Awaiting, hinserted, hnotifying]
      exact h
  | transmit q => exact h

/-- One more callback leaves one fewer to come. -/
theorem awaiting_notify {target left : ℕ} (h : Awaiting target (left + 1) s)
    (htarget : target ≤ s.inserted.length) :
    Awaiting target left (broadcastStep config own s .notify) := by
  simp only [broadcastStep]
  split_ifs with hnone
  · unfold Awaiting
    omega
  · simp only [Awaiting] at h ⊢
    omega

/-- In a fair run the callers of all messages inserted so far call back. -/
theorem Fair.exists_notified (hfair : Fair actions) (config : TibConfig) (own : OwnKind → Data)
    (n : ℕ) :
    ∃ m, n ≤ m ∧ Awaiting (stateAt config own actions n).inserted.length 0
      (stateAt config own actions m) := by
  have hcalls (left : ℕ) : ∀ m, n ≤ m →
      Awaiting (stateAt config own actions n).inserted.length left
        (stateAt config own actions m) →
      ∃ later, n ≤ later ∧ Awaiting (stateAt config own actions n).inserted.length 0
        (stateAt config own actions later) := by
    induction left with
    | zero => exact fun m hm hleft => ⟨m, hm, hleft⟩
    | succ left ih =>
        intro m hm hleft
        obtain ⟨call, hcall, hnotify⟩ := hfair.notifies m
        refine ih (call + 1) (by omega) ?_
        rw [stateAt_succ, hnotify]
        apply awaiting_notify
        · exact stateAt_invariant _ awaiting_step hcall hleft
        · exact (inserted_grows (hm.trans hcall)).length_le
  apply hcalls (stateAt config own actions n).notifying n le_rfl
  unfold Awaiting
  omega

/-- The first messages are handled, in hand, or will be fetched in this iteration. -/
def Covered (target : ℕ) (s : BroadcastState Data) : Prop :=
  target ≤ s.handled.length + s.place.inHand.length + s.place.toFetch

/-- The count that the dispatcher loads covers every message whose caller has called back. -/
theorem DispatchMove.covered_of_load {target : ℕ} (hmove : DispatchMove config own s s')
    (hload : s.place = .load) (hcounted : Counted s) (hnotified : Awaiting target 0 s) :
    Covered target s' := by
  have hhistory := congrArg List.length hcounted.history
  have hcredit := hcounted.credit
  rw [hload] at hhistory hcredit
  simp only [DispatcherPlace.inHand, DispatcherPlace.uncounted, List.length_append,
    List.length_nil] at hhistory hcredit
  unfold Awaiting at hnotified
  cases hmove with
  | waits q hawaits =>
      rw [hload] at hawaits
      cases hawaits
  | loads hplace hpending =>
      simp only [Covered, BroadcastState.moveTo, DispatcherPlace.inHand, DispatcherPlace.toFetch,
        List.length_nil]
      omega
  | idles hplace hpending =>
      simp only [Covered, BroadcastState.moveTo, DispatcherPlace.inHand, DispatcherPlace.toFetch,
        List.length_nil]
      omega
  | loopEnds hplace | misses _ hplace | fetches _ _ _ hplace | skips _ _ hplace
  | subtracts _ _ hplace | drops _ _ hplace | targets _ _ _ hplace | puts _ _ _ hplace
  | resets hplace | branches _ _ _ _ _ hplace | putsOwn _ hplace | increments hplace =>
      rw [hload] at hplace
      cases hplace

theorem DispatchMove.covered {target : ℕ} (hmove : DispatchMove config own s s')
    (hcounted : Counted s) (h : Covered target s) : Covered target s' := by
  unfold Covered at h ⊢
  cases hmove with
  | waits => exact h
  | misses remaining hplace hlist => exact absurd hlist (hcounted.list_ne_nil hplace)
  | branches kind _ _ _ p hplace hp =>
      rw [hplace] at h
      simp only [BroadcastState.moveTo, DispatcherPlace.inHand, DispatcherPlace.toFetch,
        List.length_nil] at h ⊢
      omega
  | putsOwn kind hplace =>
      rw [hplace] at h
      simp only [BroadcastState.moveTo, BroadcastState.put, DispatcherPlace.inHand,
        DispatcherPlace.toFetch, List.length_nil] at h ⊢
      omega
  | loads hplace | idles hplace | loopEnds hplace | fetches _ _ _ hplace | skips _ _ hplace
  | subtracts _ _ hplace | drops _ _ hplace | targets _ _ _ hplace | puts _ _ _ hplace
  | resets hplace | increments hplace =>
      rw [hplace] at h
      simp only [BroadcastState.moveTo, BroadcastState.put, DispatcherPlace.inHand,
        DispatcherPlace.toFetch, List.length_append, List.length_nil, List.length_singleton] at h ⊢
      omega

theorem covered_step {target : ℕ} (hcounted : Counted s) (action : BroadcastAction Data)
    (h : Covered target s) : Covered target (broadcastStep config own s action) := by
  cases action with
  | insert msg =>
      simp only [broadcastStep]
      split_ifs <;> exact h
  | notify =>
      simp only [broadcastStep]
      split_ifs <;> exact h
  | dispatch readings => exact (dispatchMove config own s readings).covered hcounted h
  | transmit q => exact h

/-- In a fair run every message is handled at some time. -/
theorem Fair.exists_handled (hfair : Fair actions) (config : TibConfig) (own : OwnKind → Data)
    (n : ℕ) :
    ∃ m, (stateAt config own actions n).inserted <+: (stateAt config own actions m).handled := by
  obtain ⟨notified, hnotified, hawaiting⟩ := hfair.exists_notified config own n
  obtain ⟨start, hstart, hstartLoad⟩ := hfair.exists_load config own notified
  obtain ⟨loading, hloading, hplace, -, readings, hdispatch⟩ := hfair.exists_moves config own start
  obtain ⟨done, hdone, hdoneLoad⟩ := hfair.exists_load config own (loading + 1)
  have hcounted (m : ℕ) : Counted (stateAt config own actions m) := counted_run _
  have hcovered : Covered (stateAt config own actions n).inserted.length
      (stateAt config own actions (loading + 1)) := by
    rw [stateAt_succ, hdispatch]
    apply (dispatchMove config own _ readings).covered_of_load (hplace.trans hstartLoad)
      (hcounted loading)
    exact stateAt_invariant _ awaiting_step (hstart.trans hloading) hawaiting
  have hdoneCovered := (stateAt_invariant
    (fun s => Counted s ∧ Covered (stateAt config own actions n).inserted.length s)
    (fun s action h => ⟨counted_step h.1 action, covered_step h.1 action h.2⟩) hdone
    ⟨hcounted _, hcovered⟩).2
  unfold Covered at hdoneCovered
  rw [hdoneLoad] at hdoneCovered
  refine ⟨done, List.prefix_of_prefix_length_le (inserted_grows (m := done) (by omega)) ?_ ?_⟩
  · rw [(hcounted done).history, List.append_assoc]
    exact List.prefix_append _ _
  · exact hdoneCovered

/-! ## Kept messages -/

theorem kept_step_iff (hprepared : Prepared s.place) (h : Kept s)
    (action : BroadcastAction Data) :
    Kept (broadcastStep config own s action) ↔ InTime config s action := by
  cases action with
  | insert msg =>
      simp only [broadcastStep]
      split_ifs <;> exact iff_of_true h trivial
  | notify =>
      simp only [broadcastStep]
      split_ifs <;> exact iff_of_true h trivial
  | dispatch readings => exact (dispatchMove config own s readings).kept_iff hprepared h
  | transmit q => exact iff_of_true h trivial

theorem prepared_step (s : BroadcastState Data) (action : BroadcastAction Data)
    (h : Prepared s.place) : Prepared (broadcastStep config own s action).place := by
  cases action with
  | insert msg =>
      simp only [broadcastStep]
      split_ifs <;> exact h
  | notify =>
      simp only [broadcastStep]
      split_ifs <;> exact h
  | dispatch readings => exact (dispatchMove config own s readings).prepared h
  | transmit q => exact h

/-- What the callers are promised: the messages are handled in the order in which
they were inserted, each is put in the queue of its kind before the dispatcher is
through with it, and this happens to every message. -/
structure Delivered (config : TibConfig) (own : OwnKind → Data)
    (actions : ℕ → BroadcastAction Data) : Prop where
  kept : ∀ n, Kept (stateAt config own actions n)
  inOrder : ∀ n, (stateAt config own actions n).handled <+: (stateAt config own actions n).inserted
  eventually : ∀ n, ∃ m,
    (stateAt config own actions n).inserted <+: (stateAt config own actions m).handled

/-- Whatever the interleaving, the external messages are delivered exactly if each is
processed in an iteration in which its kind is due. -/
theorem Fair.delivered_iff (hfair : Fair actions) (config : TibConfig) (own : OwnKind → Data) :
    Delivered config own actions ↔
      ∀ n, InTime config (stateAt config own actions n) (actions n) := by
  have hprepared (n : ℕ) : Prepared (stateAt config own actions n).place :=
    stateAt_invariant (fun s => Prepared s.place) prepared_step (Nat.zero_le n) trivial
  constructor
  · intro h n
    apply (kept_step_iff (hprepared n) (h.kept n) (actions n)).mp
    rw [← stateAt_succ]
    exact h.kept (n + 1)
  · intro hintime
    refine ⟨fun n => ?_, fun n => ?_, hfair.exists_handled config own⟩
    · induction n with
      | zero => exact fun kind => rfl
      | succ n ih =>
          rw [stateAt_succ]
          exact (kept_step_iff (hprepared n) ih (actions n)).mpr (hintime n)
    · have hcounted : Counted (stateAt config own actions n) := counted_run _
      rw [hcounted.history, List.append_assoc]
      exact List.prefix_append _ _

/-! ## One period in every iteration -/

def everyCycle : TibConfig where
  mapPacketCyclePerTransfer := 1
  spatPacketCyclePerTransfer := 1
  timPacketCyclePerTransfer := 1
  evaPacketCyclePerTransfer := 1
  rsaPacketCyclePerTransfer := 1
  psmPacketCyclePerTransfer := 1
  map_pos := Nat.one_pos
  spat_pos := Nat.one_pos
  tim_pos := Nat.one_pos
  eva_pos := Nat.one_pos
  rsa_pos := Nat.one_pos
  psm_pos := Nat.one_pos

/-- The turns of a pedestrian application, the dispatcher and the transmission loop. -/
def turn : ℕ → BroadcastAction Unit
  | 0 => .insert ⟨.personalSafetyMessage, some ()⟩
  | 1 => .notify
  | 2 => .dispatch ⟨1, 2, 0, 1, 0, 0⟩
  | 3 => .transmit (.own .map)
  | 4 => .transmit (.own .spat)
  | 5 => .transmit (.own .tim)
  | 6 => .transmit (.external .eva)
  | 7 => .transmit (.external .rsa)
  | _ => .transmit (.external .psm)

def roundRobin (n : ℕ) : BroadcastAction Unit :=
  turn (n % 9)

theorem roundRobin_eq (n : ℕ) {k : ℕ} (hk : k < 9) : roundRobin (9 * n + k) = turn k := by
  rw [roundRobin, Nat.mul_add_mod, Nat.mod_eq_of_lt hk]

theorem fair_roundRobin : Fair roundRobin where
  notifies n := ⟨9 * n + 1, by omega, roundRobin_eq n (by decide)⟩
  dispatches n := ⟨9 * n + 2, by omega, _, roundRobin_eq n (by decide)⟩
  transmits n q := by
    have hturn (k : ℕ) (hk : k < 9) (hq : turn k = .transmit q) :
        ∃ m, n ≤ m ∧ roundRobin m = .transmit q :=
      ⟨9 * n + k, by omega, (roundRobin_eq n hk).trans hq⟩
    cases q with
    | own kind =>
        cases kind with
        | map => exact hturn 3 (by decide) rfl
        | spat => exact hturn 4 (by decide) rfl
        | tim => exact hturn 5 (by decide) rfl
    | external kind =>
        cases kind with
        | eva => exact hturn 6 (by decide) rfl
        | rsa => exact hturn 7 (by decide) rfl
        | psm => exact hturn 8 (by decide) rfl

theorem delivered_iff_roundRobin :
    Fair roundRobin ∧ (Delivered everyCycle (fun _ => ()) roundRobin ↔
      ∀ n, InTime everyCycle (stateAt everyCycle (fun _ => ()) roundRobin n) (roundRobin n)) :=
  ⟨fair_roundRobin, fair_roundRobin.delivered_iff everyCycle fun _ => ()⟩

/-- The message that is fetched in the first iteration is dropped, although
every kind is due in every iteration. -/
theorem first_message_dropped :
    ¬ ∀ (config : TibConfig) (own : OwnKind → Unit) (actions : ℕ → BroadcastAction Unit),
      Fair actions → Delivered config own actions := by
  intro hall
  have hkept := (hall everyCycle (fun _ => ()) roundRobin fair_roundRobin).kept 30 .psm
  have hlength := congrArg List.length hkept
  exact absurd hlength (by decide)

end AdaptiveSignal.Broadcast
