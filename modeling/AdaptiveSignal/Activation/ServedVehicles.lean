import AdaptiveSignal.Activation.ActivationTimer

/-! # Vehicles that the activation timer serves

The timer brings its list up to date with the host vehicles at the head only, and
the handlers of packets read through the head whether there is one or not. The
list stays in order, and nothing is read that is not there, as long as vehicles
leave and join at the right moments; these moments are conditions on the state
before the step.
-/

namespace AdaptiveSignal.Signal

open Foundation

/-! ## Lists in order -/

/-- All nodes have the target phase of the head, and no name stands twice. -/
structure InOrder (nodes : List EvspActivateObu) : Prop where
  phases : ∀ first ∈ nodes.head?, ∀ node ∈ nodes, node.targetPhase = first.targetPhase
  names : (nodes.map EvspActivateObu.hostObuName).Nodup

namespace InOrder

variable {nodes nodes' : List EvspActivateObu} {first new : EvspActivateObu}
  {rest : List EvspActivateObu}

theorem nil : InOrder [] := ⟨by simp, by simp⟩

theorem singleton (node : EvspActivateObu) : InOrder [node] := ⟨by simp, by simp⟩

theorem phase_eq (h : InOrder nodes) {node node' : EvspActivateObu} (hnode : node ∈ nodes)
    (hnode' : node' ∈ nodes) : node.targetPhase = node'.targetPhase := by
  cases nodes with
  | nil => simp at hnode
  | cons first rest =>
      have hfirst := h.phases first rfl
      rw [hfirst node hnode, hfirst node' hnode']

/-- The nodes that are left when some have gone at the head. -/
theorem suffix (h : InOrder nodes) (hsuffix : nodes' <:+ nodes) : InOrder nodes' where
  phases := by
    intro first hfirst node hnode
    apply h.phase_eq (hsuffix.subset hnode)
    exact hsuffix.subset (List.mem_of_mem_head? hfirst)
  names := (hsuffix.sublist.map _).nodup h.names

theorem append (h : InOrder (first :: rest)) (hphase : new.targetPhase = first.targetPhase)
    (hname : new.hostObuName ∉ (first :: rest).map EvspActivateObu.hostObuName) :
    InOrder (first :: (rest ++ [new])) where
  phases := by
    rintro _ ⟨⟩ node hnode
    rw [← List.cons_append, List.mem_append, List.mem_singleton] at hnode
    rcases hnode with hnode | rfl
    · exact h.phases first rfl node hnode
    · exact hphase
  names := by
    rw [← List.cons_append, List.map_append]
    apply List.nodup_append.mpr
    refine ⟨h.names, List.nodup_singleton _, ?_⟩
    rintro name hmem _ hnew rfl
    rw [List.map_singleton, List.mem_singleton] at hnew
    exact hname (hnew ▸ hmem)

/-- What else stands in the nodes does not matter. -/
theorem map (h : InOrder nodes) {f : EvspActivateObu → EvspActivateObu}
    (hphase : ∀ node, (f node).targetPhase = node.targetPhase)
    (hname : ∀ node, (f node).hostObuName = node.hostObuName) : InOrder (nodes.map f) where
  phases := by
    intro first hfirst node hnode
    rw [List.head?_map, Option.mem_def, Option.map_eq_some_iff] at hfirst
    obtain ⟨first, hfirst, rfl⟩ := hfirst
    obtain ⟨other, hother, rfl⟩ := List.mem_map.mp hnode
    rw [hphase, hphase]
    exact h.phases first hfirst other hother
  names := by
    have hnames : EvspActivateObu.hostObuName ∘ f = EvspActivateObu.hostObuName := by
      funext node
      exact hname node
    rw [List.map_map, hnames]
    exact h.names

end InOrder

/-- The vehicle that a packet from outside of its terminate areas hands to the timer. -/
def Intersection.handed (s : Intersection) (packet : EvspObuPacket) (host : EvspHostObu) :
    Option EvspHostObu :=
  if host.isActivate = 2 then some host
  else if s.activates packet host then some (host.update ⟨1, 2⟩)
  else none

/-- The vehicle that a packet hands to the activation timer. -/
def Intersection.starting (s : Intersection) (packet : EvspObuPacket) : Option EvspHostObu :=
  if s.searches packet then
    ((s.evspSeen packet).evspHosts.search packet.obuName.obuName).bind fun host =>
      if (host.area.terminate packet.terminateAreas).isSome then none
      else (s.evspSeen packet).handed packet host
  else none

namespace EvspService

/-! ## What is to hold -/

/-- No call and no read has gone wrong, `list_len` is the number of nodes, and the
nodes are in order. -/
structure Sound (s : EvspService) : Prop where
  called : s.optimizedNull = false
  alive : s.crashed = false
  length : s.listLen = s.activateObuHead.length
  inOrder : InOrder s.activateObuHead

/-- There are nodes while the timer runs, and none when there is no timer. -/
def Attended (s : EvspService) : Prop :=
  match s.timer with
  | .absent => s.activateObuHead = []
  | .running _ _ => s.activateObuHead ≠ []
  | .ending => True

structure Holds (s : EvspService) : Prop extends Sound s where
  attended : s.Attended

theorem holds_initial (intersection : Intersection) : (initial intersection).Holds where
  called := rfl
  alive := rfl
  length := rfl
  inOrder := InOrder.nil
  attended := rfl

/-- A step to `s'` keeps everything if it meets `ok`, and only then is `s'` sound. -/
structure Decides (s' : EvspService) (ok : Prop) : Prop where
  keeps : ok → s'.Holds
  needs : s'.Sound → ok

theorem Holds.decides {s' : EvspService} {ok : Prop} (h : s'.Holds) (hok : ok) :
    s'.Decides ok :=
  ⟨fun _ => h, fun _ => hok⟩

theorem decides_of_crashed {s' : EvspService} {ok : Prop} (hcrashed : s'.crashed = true)
    (hok : ¬ ok) : s'.Decides ok := by
  refine ⟨fun h => absurd h hok, fun h => ?_⟩
  rw [h.alive] at hcrashed
  cases hcrashed

theorem Decides.congr {s' : EvspService} {ok ok' : Prop} (h : s'.Decides ok) (hiff : ok ↔ ok') :
    s'.Decides ok' :=
  ⟨fun hok => h.keeps (hiff.mpr hok), fun hs => hiff.mp (h.needs hs)⟩

section Operations

variable {s : EvspService} {host : EvspHostObu} {packet : EvspObuPacket}

/-- The lists of host vehicles and everything else may change. -/
theorem Holds.withIntersection (h : s.Holds) (intersection : Intersection) :
    { s with intersection := intersection }.Holds where
  called := h.called
  alive := h.alive
  length := h.length
  inOrder := h.inOrder
  attended := h.attended

theorem Sound.ofIntersection {intersection : Intersection}
    (h : { s with intersection := intersection }.Sound) : s.Sound where
  called := h.called
  alive := h.alive
  length := h.length
  inOrder := h.inOrder

/-! ## Joining the list -/

/-- The vehicle has the phase of the head and is not in the list. -/
def Joins (s : EvspService) (host : EvspHostObu) : Prop :=
  (∀ first ∈ s.activateObuHead.head?, first.targetPhase = host.targetPhase) ∧
    searchActivateObu s.activateObuHead host = none

/-- Unless it is the first, a vehicle is handed to the timer when there are nodes, and
joins them behind a head with a name. -/
def StartFits (s : EvspService) (host : EvspHostObu) : Prop :=
  s.timer ≠ .absent → s.activateObuHead ≠ [] ∧
    (s.Joins host → ∀ first ∈ s.activateObuHead.head?, first.hostObuName ≠ HostName.empty)

/-- The name is searched with its terminating zero. -/
theorem searchActivateObu_eq_none {nodes : List EvspActivateObu} :
    searchActivateObu nodes host = none ↔
      host.obuName ∉ nodes.map EvspActivateObu.hostObuName := by
  have hname : ∀ node : EvspActivateObu,
      strncmpEq (idMaxLen + 1) node.hostObuName host.obuName = true ↔
        node.hostObuName = host.obuName :=
    fun node => strncmpEq_whole (Nat.lt_succ_of_le node.hostObuName.fits)
  simp only [searchActivateObu, List.find?_eq_none, hname, List.mem_map, not_exists, not_and]

/-- While there is a thread, a vehicle finds no head, or does not join, or joins. -/
theorem activationTimerStart_cases (htimer : s.timer ≠ .absent) (host : EvspHostObu) :
    (s.activateObuHead = [] ∧ (s.activationTimerStart host).2 = { s with crashed := true }) ∨
      (s.activateObuHead ≠ [] ∧ ¬ s.Joins host ∧ (s.activationTimerStart host).2 = s) ∨
      (s.activateObuHead ≠ [] ∧ s.Joins host ∧
        (s.activationTimerStart host).2 = { s with
          activateObuHead := addActivateObu s.activateObuHead host
          listLen := s.listLen + 1 }) := by
  unfold activationTimerStart Joins
  split
  · next habsent => exact absurd habsent htimer
  cases hhead : s.activateObuHead with
  | nil => exact Or.inl ⟨rfl, rfl⟩
  | cons first rest =>
      refine Or.inr ?_
      dsimp only
      split_ifs with hphase hfound
      · refine Or.inl ⟨List.cons_ne_nil _ _, fun hjoins => ?_, rfl⟩
        exact hphase (hjoins.1 first rfl)
      · refine Or.inl ⟨List.cons_ne_nil _ _, fun hjoins => ?_, rfl⟩
        rw [hjoins.2] at hfound
        cases hfound
      · refine Or.inr ⟨List.cons_ne_nil _ _, ⟨?_, by simpa using hfound⟩, rfl⟩
        rintro _ ⟨⟩
        exact not_not.mp hphase

/-- A vehicle that joins goes behind the others, if the head has a name. -/
theorem addActivateObu_holds (h : s.Holds) (htimer : s.timer ≠ .absent) (hjoins : s.Joins host)
    (hhead : s.activateObuHead ≠ []) :
    { s with
      activateObuHead := addActivateObu s.activateObuHead host
      listLen := s.listLen + 1 }.Decides
        (∀ first ∈ s.activateObuHead.head?, first.hostObuName ≠ HostName.empty) := by
  obtain ⟨first, rest, hnodes⟩ := List.exists_cons_of_ne_nil hhead
  have hphase : host.targetPhase = first.targetPhase :=
    (hjoins.1 first (by rw [hnodes]; rfl)).symm
  have hname := searchActivateObu_eq_none.mp hjoins.2
  have hlength := h.length
  have horder := h.inOrder
  rw [hnodes] at hname hlength horder ⊢
  unfold addActivateObu
  dsimp only
  split_ifs with hempty
  · -- the head and all that follows it is lost
    refine ⟨fun hok => absurd hempty (hok first rfl), fun hsound => ?_⟩
    have hone : s.listLen + 1 = 1 := hsound.length
    rw [hlength, List.length_cons] at hone
    omega
  · apply Holds.decides
    · refine ⟨⟨h.called, h.alive, ?_, horder.append hphase hname⟩, ?_⟩
      · change s.listLen + 1 = _
        rw [hlength]
        simp
      · have hattended := h.attended
        unfold Attended at hattended ⊢
        revert hattended
        cases hcase : s.timer with
        | absent => exact absurd hcase htimer
        | running optim oldListLen => exact fun _ => List.cons_ne_nil _ _
        | ending => exact id
    · rintro _ ⟨⟩
      exact hempty

theorem activationTimerStart_decides (h : s.Holds) (host : EvspHostObu) :
    (s.activationTimerStart host).2.Decides (s.StartFits host) := by
  have hattended := h.attended
  by_cases htimer : s.timer = .absent
  · -- the first vehicle takes the place of the nameless head
    unfold activationTimerStart
    unfold Attended at hattended
    rw [htimer] at hattended ⊢
    refine Holds.decides ⟨⟨h.called, h.alive, ?_, InOrder.singleton _⟩, List.cons_ne_nil _ _⟩
      fun hthread => absurd htimer hthread
    change s.listLen + 1 = 1
    rw [h.length, hattended]
    rfl
  · rcases s.activationTimerStart_cases htimer host with
      ⟨hnone, heq⟩ | ⟨hhead, hstays, heq⟩ | ⟨hhead, hjoins, heq⟩
    · rw [heq]
      exact decides_of_crashed rfl fun hfits => (hfits htimer).1 hnone
    · rw [heq]
      exact h.decides fun _ => ⟨hhead, fun hjoins => absurd hjoins hstays⟩
    · rw [heq]
      apply (addActivateObu_holds h htimer hjoins hhead).congr
      exact ⟨fun hname _ => ⟨hhead, fun _ => hname⟩, fun hfits => (hfits htimer).2 hjoins⟩

/-! ## Packets -/

theorem activationTimeEnd_eq_none {obuName : HostName} :
    s.activationTimeEnd obuName = none ↔ s.activateObuHead = [] := by
  unfold activationTimeEnd
  cases s.activateObuHead with
  | nil => exact iff_of_true rfl rfl
  | cons first rest => exact iff_of_false (Option.some_ne_none _) (List.cons_ne_nil _ _)

theorem evspHostTerminates_decides (h : s.Holds) (host : EvspHostObu) (now : Int) :
    (s.evspHostTerminates host now).Decides (s.activateObuHead ≠ []) := by
  have hhead := @activationTimeEnd_eq_none s host.obuName
  unfold evspHostTerminates
  cases hend : s.activationTimeEnd host.obuName with
  | none => exact decides_of_crashed rfl fun hne => hne (hhead.mp hend)
  | some terminateFlag =>
      apply (h.withIntersection _).decides
      intro hnone
      rw [hhead.mpr hnone] at hend
      cases hend

/-- What a crash does not reach does not change the list either. -/
theorem Decides.unlessCrashed {ok : Prop} (h : s.Decides ok)
    (count : Intersection → Intersection) :
    (if s.crashed then s else { s with intersection := count s.intersection }).Decides ok := by
  split_ifs with hcrashed
  · exact h
  · exact ⟨fun hok => (h.keeps hok).withIntersection _, fun hs => h.needs hs.ofIntersection⟩

theorem evspTouchesAgain_decides (h : s.Holds) (packet : EvspObuPacket)
    (hstays : host.area.terminate packet.terminateAreas = none) :
    (s.evspTouchesAgain host packet).Decides
      (∀ starter ∈ s.intersection.handed packet host, s.StartFits starter) := by
  unfold evspTouchesAgain Intersection.handed
  by_cases hactive : host.isActivate = 2
  · rw [if_pos hactive, if_pos hactive]
    apply (activationTimerStart_decides h host).congr
    simp
  rw [if_neg hactive, if_neg hactive]
  unfold Intersection.activates
  by_cases hready : host.isActivate = 1
  · rw [if_pos hready]
    cases htouched : s.intersection.evspTouched packet with
    | none => exact h.decides (by simp)
    | some touched =>
        by_cases hreaches : s.intersection.evspReaches host = true
        · have hinserted := h.withIntersection
            (s.intersection.evspInsert packet.obuName touched.1 touched.2 2)
          have hstart := activationTimerStart_decides hinserted (host.update ⟨1, 2⟩)
          simp only [hstays, hready, hreaches, if_true, Option.isNone_none, Option.isSome_some,
            Bool.and_true, decide_true]
          apply (hstart.unlessCrashed fun intersection => { intersection with
            middleware := intersection.middleware.countEmergency }).congr
          exact ⟨fun hfits starter hstarter => Option.mem_some_iff.mp hstarter ▸ hfits,
            fun hfits => hfits _ rfl⟩
        · simp only [hreaches]
          exact (h.withIntersection _).decides (by simp)
  · rw [if_neg hready]
    exact h.decides (by simp [hready])

theorem evspSearched_decides (h : s.Holds) (packet : EvspObuPacket) :
    (s.evspSearched packet).Decides
      ((∀ host ∈ (s.intersection.evspHosts.search packet.obuName.obuName).filter fun host =>
          (host.area.terminate packet.terminateAreas).isSome, s.activateObuHead ≠ []) ∧
        ∀ starter ∈ (s.intersection.evspHosts.search packet.obuName.obuName).bind fun host =>
          if (host.area.terminate packet.terminateAreas).isSome then none
          else s.intersection.handed packet host, s.StartFits starter) := by
  unfold evspSearched
  cases hsearch : s.intersection.evspHosts.search packet.obuName.obuName with
  | none => exact (h.withIntersection _).decides (by simp)
  | some host =>
      dsimp only
      cases hterminate : host.area.terminate packet.terminateAreas with
      | some area =>
          apply (evspHostTerminates_decides h host packet.now).congr
          simp [hterminate]
      | none =>
          apply (evspTouchesAgain_decides h packet hterminate).congr
          simp [hterminate]

theorem evspOnObuPacketRx_of_searches (hsearches : s.intersection.searches packet = true) :
    s.evspOnObuPacketRx packet =
      { s with intersection := s.intersection.evspSeen packet }.evspSearched packet := by
  simp only [Intersection.searches, Bool.and_eq_true, decide_eq_true_eq] at hsearches
  simp only [evspOnObuPacketRx, hsearches.1, if_true]
  exact if_neg hsearches.2

theorem evspOnObuPacketRx_of_not_searches (hsearches : ¬ s.intersection.searches packet = true) :
    ∃ intersection, s.evspOnObuPacketRx packet = { s with intersection := intersection } := by
  by_cases hadmitted : packet.admitted s.intersection.rsuId = true
  · have hphase : s.intersection.middleware.status.subPhaseId = 0 := by
      simpa [Intersection.searches, hadmitted] using hsearches
    refine ⟨s.intersection.evspSeen packet, ?_⟩
    simp only [evspOnObuPacketRx, hadmitted, if_true]
    exact if_pos hphase
  · exact ⟨s.intersection, if_neg hadmitted⟩

theorem evspOnObuPacketRx_decides (h : s.Holds) (packet : EvspObuPacket) :
    (s.evspOnObuPacketRx packet).Decides
      ((∀ host ∈ s.intersection.leaving packet, s.activateObuHead ≠ []) ∧
        ∀ starter ∈ s.intersection.starting packet, s.StartFits starter) := by
  unfold Intersection.leaving Intersection.starting
  by_cases hsearches : s.intersection.searches packet = true
  · rw [evspOnObuPacketRx_of_searches hsearches, if_pos hsearches, if_pos hsearches]
    exact evspSearched_decides (h.withIntersection (s.intersection.evspSeen packet)) packet
  · obtain ⟨intersection, heq⟩ := evspOnObuPacketRx_of_not_searches hsearches
    rw [heq, if_neg hsearches, if_neg hsearches]
    exact (h.withIntersection intersection).decides (by simp)

/-- The timer has no part in what becomes of the host vehicles. -/
theorem activationTimerStart_intersection (host : EvspHostObu) :
    (s.activationTimerStart host).2.intersection = s.intersection := by
  by_cases htimer : s.timer = .absent
  · unfold activationTimerStart
    rw [htimer]
  · rcases s.activationTimerStart_cases htimer host with ⟨-, heq⟩ | ⟨-, -, heq⟩ | ⟨-, -, heq⟩ <;>
      rw [heq]

theorem evspTouchesAgain_intersection (hruns : (s.evspTouchesAgain host packet).crashed = false) :
    (s.evspTouchesAgain host packet).intersection =
      s.intersection.evspTouchesAgain host packet := by
  unfold evspTouchesAgain at hruns ⊢
  unfold Intersection.evspTouchesAgain
  by_cases hactive : host.isActivate = 2
  · have hready : ¬ host.isActivate = 1 := by
      rw [hactive]
      decide
    rw [if_pos hactive, if_neg hready]
    exact activationTimerStart_intersection host
  rw [if_neg hactive] at hruns ⊢
  by_cases hready : host.isActivate = 1
  · rw [if_pos hready] at hruns ⊢
    rw [if_pos hready]
    cases htouched : s.intersection.evspTouched packet with
    | none => rfl
    | some touched =>
        rw [htouched] at hruns
        dsimp only at hruns ⊢
        by_cases hreaches : s.intersection.evspReaches host = true
        · rw [if_pos hreaches] at hruns ⊢
          rw [if_pos hreaches]
          split_ifs at hruns ⊢ with hcrashed
          · rw [hcrashed] at hruns
            cases hruns
          · dsimp only
            rw [activationTimerStart_intersection]
        · rw [if_neg hreaches, if_neg hreaches]
  · rw [if_neg hready, if_neg hready]

/-- Unless it crashes, a packet does to the host vehicles what it does without the
activation list. -/
theorem evspOnObuPacketRx_intersection (hruns : (s.evspOnObuPacketRx packet).crashed = false) :
    (s.evspOnObuPacketRx packet).intersection = s.intersection.evspOnObuPacketRx packet := by
  unfold evspOnObuPacketRx at hruns ⊢
  unfold Intersection.evspOnObuPacketRx
  split_ifs at hruns ⊢ with hadmitted
  · dsimp only at hruns ⊢
    split_ifs at hruns ⊢ with hphase
    · rfl
    · unfold evspSearched at hruns ⊢
      unfold Intersection.evspSearched
      dsimp only at hruns ⊢
      cases hsearch : (s.intersection.evspSeen packet).evspHosts.search packet.obuName.obuName with
      | none => rfl
      | some host =>
          rw [hsearch] at hruns
          dsimp only at hruns ⊢
          cases hterminate : host.area.terminate packet.terminateAreas with
          | none =>
              rw [hterminate] at hruns
              exact evspTouchesAgain_intersection hruns
          | some area =>
              rw [hterminate] at hruns
              dsimp only at hruns ⊢
              unfold evspHostTerminates at hruns ⊢
              split at hruns
              · cases hruns
              · rfl
  · rfl

/-! ## The activation timer -/

/-- The vehicles that are asked are host vehicles. -/
theorem exists_rets (status : TrafficSignalStatus) (adjust : EvspHostObu → ℤ)
    {hosts : List (Option EvspHostObu)} (hlisted : ∀ host ∈ hosts, host.isSome = true) :
    ∃ rets, hosts.mapM (evspOptimization status adjust) = some rets := by
  induction hosts with
  | nil => exact ⟨[], rfl⟩
  | cons host rest ih =>
      obtain ⟨rets, hrets⟩ := ih fun other hother => hlisted other (List.mem_cons_of_mem _ hother)
      obtain ⟨vehicle, rfl⟩ := Option.isSome_iff_exists.mp (hlisted host List.mem_cons_self)
      obtain ⟨ret, hret⟩ : ∃ ret, evspOptimization status adjust (some vehicle) = some ret := by
        unfold evspOptimization
        split_ifs
        · exact ⟨-1, rfl⟩
        · exact ⟨adjust vehicle, rfl⟩
      refine ⟨ret :: rets, ?_⟩
      simp [List.mapM_cons, hret, hrets]

/-- With all vehicles there, a command may be inserted and the nodes note the phase. -/
theorem optimizeAll_of_listed (adjust : EvspHostObu → ℤ) (first : EvspActivateObu)
    (hhead : s.activateObuHead ≠ [])
    (hlisted : ∀ node ∈ s.activateObuHead, (s.hostOf node).isSome = true) :
    ∃ (intersection : Intersection) (control : EvspActivateObu → UInt8),
      s.optimizeAll adjust first =
        { s with
          intersection := intersection
          activateObuHead := s.activateObuHead.map fun node =>
            { node with controlSubphaseId := control node } } := by
  have hhosts : ∀ host ∈ s.activateObuHead.map s.hostOf, host.isSome = true := by
    intro host hhost
    obtain ⟨node, hnode, rfl⟩ := List.mem_map.mp hhost
    exact hlisted node hnode
  have hnone : (s.activateObuHead.map s.hostOf).any Option.isNone = false := by
    apply List.any_eq_false.mpr
    intro host hhost
    rw [← Option.not_isSome, hhosts host hhost]
    exact Bool.false_ne_true
  obtain ⟨rets, hrets⟩ := exists_rets s.intersection.middleware.status adjust hhosts
  obtain ⟨last, hlast⟩ : ∃ last, (s.activateObuHead.map s.hostOf).getLast?.join = some last := by
    have hne : s.activateObuHead.map s.hostOf ≠ [] := by simpa using hhead
    rw [List.getLast?_eq_some_getLast hne, Option.join_some]
    exact Option.isSome_iff_exists.mp (hhosts _ (List.getLast_mem hne))
  have hsame : s.activateObuHead.map (fun node =>
      { node with controlSubphaseId := node.controlSubphaseId }) = s.activateObuHead :=
    List.map_id _
  unfold optimizeAll
  dsimp only
  rw [hrets, hnone, Bool.or_false, hlast]
  dsimp only
  split_ifs with hasked hnoted
  · exact ⟨_, fun _ => s.intersection.middleware.status.subPhaseId, rfl⟩
  · exact ⟨_, EvspActivateObu.controlSubphaseId, by rw [hsame]⟩
  · exact ⟨s.intersection, EvspActivateObu.controlSubphaseId, by rw [hsame]⟩

theorem optimizeAll_optimizedNull (adjust : EvspHostObu → ℤ) (first : EvspActivateObu) :
    (s.optimizeAll adjust first).optimizedNull =
      (s.optimizedNull || (s.activateObuHead.map s.hostOf).any Option.isNone) := by
  unfold optimizeAll
  dsimp only
  split
  · rfl
  · split_ifs
    · split <;> rfl
    · rfl

/-- The nodes that are left are in order, and `remainingLen` counts them. -/
theorem Holds.remaining (h : s.Holds) :
    { s with activateObuHead := s.remaining, listLen := s.remainingLen }.Sound where
  called := h.called
  alive := h.alive
  length := by
    change s.remainingLen = (s.remaining.length : ℤ)
    rw [remainingLen, h.length]
    omega
  inOrder := h.inOrder.suffix (List.dropWhile_suffix _)

/-- The timer is about to ask every vehicle. -/
def optimizing (s : EvspService) : Bool :=
  match s.timer with
  | .running optim oldListLen =>
      (s.intersection.evspConfig.planTableSearch
        s.intersection.middleware.status.planId).isSome &&
        s.remaining.head?.any (s.optimizes optim oldListLen)
  | _ => false

/-- All the nodes that are left when the timer asks must be those of host vehicles. -/
def TurnFits (s : EvspService) : Prop :=
  s.optimizing = true → ∀ node ∈ s.remaining, (s.hostOf node).isSome = true

theorem optimizeAll_decides (hsound : s.Sound) (hhead : s.activateObuHead ≠ [])
    (adjust : EvspHostObu → ℤ) (first : EvspActivateObu) (oldListLen : ℤ) :
    { s.optimizeAll adjust first with timer := .running false oldListLen }.Decides
      (∀ node ∈ s.activateObuHead, (s.hostOf node).isSome = true) := by
  constructor
  · intro hlisted
    obtain ⟨intersection, control, heq⟩ := optimizeAll_of_listed adjust first hhead hlisted
    rw [heq]
    refine ⟨⟨hsound.called, hsound.alive, ?_, ?_⟩, ?_⟩
    · change s.listLen = _
      rw [hsound.length, List.length_map]
    · exact hsound.inOrder.map (fun _ => rfl) fun _ => rfl
    · exact fun hnil => hhead (List.map_eq_nil_iff.mp hnil)
  · intro hafter node hnode
    have hcalled : (s.optimizeAll adjust first).optimizedNull = false := hafter.called
    rw [optimizeAll_optimizedNull, Bool.or_eq_false_iff] at hcalled
    have hhost := List.any_eq_false.mp hcalled.2 _ (List.mem_map_of_mem hnode)
    rwa [← Option.not_isSome, Bool.not_eq_true', Bool.not_eq_false] at hhost

theorem activationTurn_decides (h : s.Holds) {optim : Bool} {oldListLen : ℤ}
    (htimer : s.timer = .running optim oldListLen) (adjust : EvspHostObu → ℤ) :
    (s.activationTurn adjust optim oldListLen).Decides s.TurnFits := by
  have hhead : s.activateObuHead ≠ [] := by
    have hattended := h.attended
    unfold Attended at hattended
    rwa [htimer] at hattended
  have hoptimizing : s.optimizing =
      ((s.intersection.evspConfig.planTableSearch
        s.intersection.middleware.status.planId).isSome &&
          s.remaining.head?.any (s.optimizes optim oldListLen)) := by
    unfold optimizing
    rw [htimer]
  have hsound := h.remaining
  unfold activationTurn TurnFits
  rw [hoptimizing]
  cases s.intersection.evspConfig.planTableSearch s.intersection.middleware.status.planId with
  | none =>
      apply Holds.decides
      · exact ⟨⟨h.called, h.alive, h.length, h.inOrder⟩, trivial⟩
      · simp
  | some table =>
      rw [if_neg hhead]
      cases hremaining : s.remaining with
      | nil =>
          rw [hremaining] at hsound
          apply Holds.decides
          · exact ⟨⟨hsound.called, hsound.alive, hsound.length, hsound.inOrder⟩, trivial⟩
          · simp
      | cons first rest =>
          rw [hremaining] at hsound
          dsimp only
          by_cases hoptimizes : s.optimizes optim oldListLen first = true
          · rw [if_pos hoptimizes]
            apply (optimizeAll_decides hsound (List.cons_ne_nil _ _) adjust first _).congr
            simp only [List.head?_cons, Option.any_some, hoptimizes, Option.isSome_some,
              Bool.and_self, true_implies]
            exact Iff.rfl
          · rw [if_neg hoptimizes]
            apply Holds.decides
            · exact ⟨⟨hsound.called, hsound.alive, hsound.length, hsound.inOrder⟩,
                List.cons_ne_nil _ _⟩
            · simp [hoptimizes]

theorem activationTimer_decides (h : s.Holds) (adjust : EvspHostObu → ℤ) :
    (s.activationTimer adjust).Decides s.TurnFits := by
  unfold activationTimer
  split
  · next optim oldListLen htimer => exact activationTurn_decides h htimer adjust
  · next hidle =>
      apply h.decides
      unfold TurnFits optimizing
      cases htimer : s.timer with
      | running optim oldListLen => exact absurd htimer (hidle optim oldListLen)
      | absent | ending => exact fun hnever => absurd hnever Bool.false_ne_true

/-- The block at the end sets `list_len` to zero and keeps the nodes. -/
theorem threadEnd_decides (h : s.Holds) :
    s.threadEnd.Decides (s.timer = .ending → s.activateObuHead = []) := by
  unfold threadEnd
  split
  · constructor
    · intro hnone
      have hhead := hnone ‹_›
      refine ⟨⟨h.called, h.alive, ?_, h.inOrder⟩, hhead⟩
      change (0 : ℤ) = s.activateObuHead.length
      rw [hhead]
      rfl
    · intro hsound _
      have hlength : (0 : ℤ) = s.activateObuHead.length := hsound.length
      exact List.eq_nil_of_length_eq_zero (by omega)
  · next hother => exact h.decides fun hending => absurd hending hother

end Operations

/-! ## Runs -/

/-- A vehicle terminates while there is a head. One that is handed to the timer finds
none running or winding down, or a head; and it joins behind a head with a name. When
the timer asks every vehicle, those behind the head are host vehicles too. And the
thread ends without nodes. -/
def Fits (s : EvspService) : EvspEvent → Prop
  | .obuPacket packet =>
      (∀ host ∈ s.intersection.leaving packet, s.activateObuHead ≠ []) ∧
        ∀ starter ∈ s.intersection.starting packet, s.StartFits starter
  | .activationTimer _ => s.TurnFits
  | .threadEnd => s.timer = .ending → s.activateObuHead = []
  | _ => True

theorem step_decides {s : EvspService} (h : s.Holds) (event : EvspEvent) :
    (s.step event).Decides (s.Fits event) := by
  have halive : ¬ s.crashed = true := by
    rw [h.alive]
    exact Bool.false_ne_true
  unfold step
  rw [if_neg halive]
  cases event with
  | obuPacket packet => exact evspOnObuPacketRx_decides h packet
  | packetTimeout obuName now => exact (h.withIntersection _).decides trivial
  | listTimeout obuName now => exact (h.withIntersection _).decides trivial
  | activationTimer adjust => exact activationTimer_decides h adjust
  | threadEnd => exact threadEnd_decides h
  | middleware middleware => exact (h.withIntersection _).decides trivial

/-- Of any order of packets, timeouts, turns of the timer and ends of its thread: every
state reached is sound exactly if each step finds what it needs. -/
theorem activation_list_sound_iff (intersection : Intersection) (events : List EvspEvent) :
    (∀ first, first <+: events → (run step (initial intersection) first).Sound) ↔
      Guarded step Fits (initial intersection) events := by
  apply Iff.symm
  exact @guarded_iff_always _ _ step Fits Holds Sound (fun _ h => h.toSound)
    (fun _ event h => (step_decides h event).keeps)
    (fun _ event h => (step_decides h event).needs) _ events (holds_initial intersection)

def ambulance (letter : Char) : HostName :=
  ⟨['a', 'm', 'b', '_', letter], Nat.le_of_ble_eq_true rfl⟩

/-- The packet of an ambulance in some areas. -/
def ambulancePacket (letter : Char) (touchingAreas terminateAreas : List UInt32) :
    EvspObuPacket where
  obuName := ambulance letter
  vehicleType := .ambulance
  message := .basicSafety
  strayTouching := 0
  touchingAreas := touchingAreas
  terminateAreas := terminateAreas
  now := 0

/-- An intersection in step 1 of phase 1, with one touching area. -/
def oneArea : Intersection :=
  .boot .initial { TrafficSignalStatus.initial fun _ => .unset with
      planId := 1, subPhaseId := 1, stepId := 1 } 1
    ⟨2, 60, [⟨[1], [⟨1, [⟨1, [9]⟩]⟩]⟩]⟩ ⟨none, none⟩

/-- A vehicle terminates that was never activated; the second of two is gone when the
timer asks; the plan is gone, so that the thread ends with a node; and a vehicle is
activated between the last turn and the end of the thread. -/
theorem activation_list_unsound :
    let touch (letter : Char) : EvspEvent := .obuPacket (ambulancePacket letter [1] [])
    let terminate (letter : Char) : EvspEvent := .obuPacket (ambulancePacket letter [] [9])
    let timeout (letter : Char) : EvspEvent := .listTimeout (ambulance letter) 0
    let turn : EvspEvent := .activationTimer fun _ => 0
    let unplanned : EvspEvent := .middleware { oneArea.middleware with
      status := { oneArea.middleware.status with planId := 2 } }
    let ends (events : List EvspEvent) := run step (initial oneArea) events
    let early := ends [touch 'A', terminate 'A']
    let second := ends [touch 'A', touch 'A', touch 'B', touch 'B', timeout 'B', turn]
    let planless := ends [touch 'A', touch 'A', unplanned, turn, .threadEnd]
    let late := ends [touch 'A', touch 'A', timeout 'A', turn, touch 'B', touch 'B']
    (early.crashed = true ∧ ¬ early.Sound) ∧ (second.optimizedNull = true ∧ ¬ second.Sound) ∧
      (planless.listLen = 0 ∧ planless.activateObuHead.length = 1 ∧ ¬ planless.Sound) ∧
        late.crashed = true ∧ ¬ late.Sound := by
  have hcrash : ∀ {s : EvspService}, s.crashed = true → s.crashed = true ∧ ¬ s.Sound :=
    fun h => ⟨h, fun hs => absurd hs.alive (by rw [h]; exact Bool.noConfusion)⟩
  intro touch terminate timeout turn unplanned ends early second planless late
  refine ⟨hcrash ?_, ?_, ?_, hcrash ?_⟩
  · decide
  · have hcalled : second.optimizedNull = true := by decide
    refine ⟨hcalled, fun hs => ?_⟩
    rw [hs.called] at hcalled
    cases hcalled
  · have hlength : planless.listLen = 0 ∧ planless.activateObuHead.length = 1 := by decide
    refine ⟨hlength.1, hlength.2, fun hs => ?_⟩
    have hcounted := hs.length
    rw [hlength.1, hlength.2] at hcounted
    cases hcounted
  · decide

end EvspService

end AdaptiveSignal.Signal
