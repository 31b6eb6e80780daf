import AdaptiveSignal.ExternalApps.Notifications
import AdaptiveSignal.Registration.Dispatch

/-! # Callbacks that collide

Two threads are safe from each other, however they are interleaved, exactly if no entry that
one of them comes to disturbs one of the other. The dispatcher and the command buffer call
callbacks at the same time.
-/

namespace AdaptiveSignal.ExternalApps

open Foundation Registration

namespace Notifier

variable {Thread : Type*} [DecidableEq Thread] {links : Links} {program : Thread → List Turn}
  {s : Notifier Thread} {t : Thread} {turn : Turn} {rest : List Turn} {fd : ℕ}

/-! ## Without a collision -/

theorem Ordered.mem_of_head (h : Ordered program s) (hhead : (s.waiting t).head? = some turn) :
    turn ∈ program t := by
  rw [← h t]
  exact List.mem_append_right _ (List.mem_of_mem_head? hhead)

theorem delivers_of_apart (hapart : ∀ t u, t ≠ u → ∀ turn ∈ program t, ∀ current ∈ program u,
    ¬ Disturbs links turn current) (schedule : List Thread) :
    Delivers links program (run (step links) (initial program) schedule) := by
  have hboth : Sound links (run (step links) (initial program) schedule) ∧
      Ordered program (run (step links) (initial program) schedule) := by
    refine run_invariant_of_mem (step links) (fun s => Sound links s ∧ Ordered program s) schedule
      ⟨.initial program, fun _ => rfl⟩ ?_
    rintro s t - ⟨hsound, horder⟩
    refine ⟨hsound.step fun _ turn hturn u hne _ current hcurrent => ?_, horder.step t⟩
    exact hapart t u hne.symm turn (horder.mem_of_head hturn) current
      (horder.mem_of_head hcurrent)
  exact hboth.1.delivers hboth.2

/-! ## A thread alone -/

omit [DecidableEq Thread] in
theorem send_send (s : Notifier Thread) (fd : ℕ) (first second : List NotifyPacket) :
    (s.send fd first).send fd second = s.send fd (first ++ second) := by
  simp [send]

theorem finish_goTo (s : Notifier Thread) (t : Thread) (p : TurnPlace) (turn : Turn)
    (rest : List Turn) : (s.goTo t p).finish t turn rest = s.finish t turn rest := by
  simp [finish, goTo]

theorem step_eq_proceed (hfault : s.fault = false) (hturn : s.waiting t = turn :: rest) :
    s.step links t = s.proceed links t turn rest := by
  simp [step, hfault, hturn]

/-- The packets of a callback are sent. -/
theorem run_sending {packets : List NotifyPacket} (hpackets : packets ≠ [])
    (hfault : s.fault = false) (hturn : s.waiting t = turn :: rest)
    (hplace : s.place t = .sending fd packets) :
    run (step links) s (List.replicate packets.length t) =
      (s.send fd packets).finish t turn rest := by
  induction packets generalizing s with
  | nil => exact absurd rfl hpackets
  | cons packet left ih =>
      rw [List.length_cons, List.replicate_succ, run_cons, step_eq_proceed hfault hturn]
      cases left with
      | nil => simp only [proceed, hplace, List.length_nil, List.replicate_zero, run_nil]
      | cons next left =>
          simp only [proceed, hplace]
          rw [ih (s := (s.send fd [packet]).goTo t (.sending fd (next :: left)))
            (List.cons_ne_nil next left) hfault hturn (Function.update_self ..)]
          change (((s.send fd [packet]).send fd (next :: left)).goTo t _).finish t turn rest = _
          rw [finish_goTo, send_send, List.singleton_append]

/-- A callback that forwards takes the application that is named from the checks on. -/
theorem run_fetching {app : UInt8} (hfault : s.fault = false)
    (hturn : s.waiting t = turn :: rest) (hplace : s.place t = .checking)
    (hname : s.proxyHandlingApp = some app) (hsocket : links.socket app = some fd) :
    run (step links) s (List.replicate 3 t) = s.goTo t (.sending fd turn.packets) := by
  obtain ⟨hfd, info, hinfo, rfl⟩ := Links.socket_eq_some_iff.mp hsocket
  have hstep (p : TurnPlace) :
      (s.goTo t p).step links t = (s.goTo t p).proceed links t turn rest :=
    step_eq_proceed hfault hturn
  have hfirst : s.step links t = s.goTo t .checkingFd := by
    simp [step_eq_proceed hfault hturn, proceed, hplace, hname, hinfo]
  have hsecond : (s.goTo t .checkingFd).step links t = s.goTo t .fetching := by
    rw [hstep]
    simp [proceed, goTo, hname, hinfo, hfd]
  have hthird : (s.goTo t .fetching).step links t =
      s.goTo t (.sending info.notifyFd turn.packets) := by
    rw [hstep]
    simp [proceed, goTo, hname, hinfo]
  simp only [List.replicate, run_cons, run_nil, hfirst, hsecond, hthird]

theorem run_forwarding {app : UInt8} (hfault : s.fault = false)
    (hturn : s.waiting t = turn :: rest) (hplace : s.place t = .checking)
    (hname : s.proxyHandlingApp = some app) (hsocket : links.socket app = some fd) :
    ∃ n, run (step links) s (List.replicate n t) =
      (s.send fd turn.packets).finish t turn rest := by
  refine ⟨3 + turn.packets.length, ?_⟩
  rw [List.replicate_add, run_append, run_fetching hfault hturn hplace hname hsocket,
    run_sending (s := s.goTo t (.sending fd turn.packets)) turn.packets_ne_nil hfault hturn
      (Function.update_self ..)]
  exact finish_goTo (s.send fd turn.packets) t _ turn rest

/-- The thread names the application of an entry. -/
def named (s : Notifier Thread) (turn : Turn) : Notifier Thread :=
  { s with proxyHandlingApp := some turn.app }

/-- What comes of an entry that a thread goes through at one go. -/
def through (links : Links) (s : Notifier Thread) (t : Thread) (turn : Turn) (rest : List Turn) :
    Notifier Thread :=
  match if turn.selected then links.socket turn.app else none with
  | none => (s.named turn).finish t turn rest
  | some fd => ((s.named turn).send fd turn.packets).finish t turn rest

section Through

variable (links) (s) (t) (turn) (rest)

@[simp] theorem fault_through : (s.through links t turn rest).fault = s.fault := by
  unfold through
  split <;> rfl

@[simp] theorem proxyHandlingApp_through :
    (s.through links t turn rest).proxyHandlingApp = some turn.app := by
  unfold through
  split <;> rfl

@[simp] theorem place_through :
    (s.through links t turn rest).place = Function.update s.place t .before := by
  unfold through
  split <;> rfl

@[simp] theorem waiting_through :
    (s.through links t turn rest).waiting = Function.update s.waiting t rest := by
  unfold through
  split <;> rfl

@[simp] theorem finished_through :
    (s.through links t turn rest).finished = s.finished ++ [(t, turn)] := by
  unfold through
  split <;> rfl

theorem received_through (fd : ℕ) : (s.through links t turn rest).received fd =
    s.received fd ++ if Due links turn fd then turn.packets else [] := by
  by_cases hdue : Due links turn fd
  · rw [if_pos hdue, through, if_pos hdue.1, hdue.2]
    simp [finish, send, named]
  · rw [if_neg hdue, List.append_nil, through]
    split
    next => rfl
    next other heq =>
      have hne : fd ≠ other := by
        rintro rfl
        split_ifs at heq with hselected
        exact hdue ⟨hselected, heq⟩
      exact received_send_of_ne _ _ hne

end Through

/-- A thread comes to an entry of an external application and is at the checks. -/
theorem run_checking (hfault : s.fault = false) (hturn : s.waiting t = turn :: rest)
    (hplace : s.place t = .before) (hselected : turn.selected)
    (hexternal : links.External turn.app) :
    ∃ n, run (step links) s (List.replicate n t) = (s.named turn).goTo t .checking := by
  have hfirst : s.step links t = (s.named turn).goTo t
      (if turn.twoForms then .choosing else .checking) := by
    rw [step_eq_proceed hfault hturn]
    split_ifs with htwo <;> simp [proceed, call, hplace, hselected, htwo, hexternal, named]
  cases htwo : turn.twoForms with
  | false => exact ⟨1, by simp [hfirst, htwo]⟩
  | true =>
      rw [htwo, if_pos rfl] at hfirst
      have hstep : ((s.named turn).goTo t .choosing).step links t =
          ((s.named turn).goTo t .choosing).proceed links t turn rest :=
        step_eq_proceed hfault hturn
      refine ⟨2, ?_⟩
      simp only [List.replicate, run_cons, run_nil, hfirst, hstep]
      simp [proceed, call, goTo, named, hexternal]

variable (hlinked : ∀ app info, links.eaInfo app = some info → info.notifyFd ≠ 0)
include hlinked

omit [DecidableEq Thread] in
theorem exists_socket_of_external {app : UInt8} (hexternal : links.External app) :
    ∃ fd, links.socket app = some fd := by
  obtain ⟨info, hinfo⟩ := Option.isSome_iff_exists.mp hexternal
  exact ⟨_, Links.socket_eq_some_iff.mpr ⟨hlinked app info hinfo, info, hinfo, rfl⟩⟩

theorem run_through (hfault : s.fault = false) (hturn : s.waiting t = turn :: rest)
    (hplace : s.place t = .before) :
    ∃ n, run (step links) s (List.replicate n t) = s.through links t turn rest := by
  by_cases hselected : turn.selected = true
  · by_cases hexternal : links.External turn.app
    · obtain ⟨fd, hsocket⟩ := exists_socket_of_external hlinked hexternal
      obtain ⟨n, hn⟩ := run_checking hfault hturn hplace hselected hexternal
      obtain ⟨m, hm⟩ := run_forwarding (s := (s.named turn).goTo t .checking) hfault hturn
        (Function.update_self ..) rfl hsocket
      refine ⟨n + m, ?_⟩
      rw [List.replicate_add, run_append, hn, hm, through, if_pos hselected, hsocket]
      exact finish_goTo ((s.named turn).send fd turn.packets) t .checking turn rest
    · have hnone : links.socket turn.app = none := by
        rw [Option.eq_none_iff_forall_ne_some]
        exact fun fd hsocket => hexternal (Links.external_of_socket hsocket)
      rw [through, if_pos hselected, hnone]
      cases htwo : turn.twoForms with
      | false =>
          refine ⟨1, ?_⟩
          simp only [List.replicate, run_cons, run_nil, step_eq_proceed hfault hturn]
          simp [proceed, call, hplace, hselected, htwo, hexternal, named]
      | true =>
          have hfirst : s.step links t = (s.named turn).goTo t .choosing := by
            rw [step_eq_proceed hfault hturn]
            simp [proceed, hplace, hselected, htwo, named]
          have hsecond : ((s.named turn).goTo t .choosing).step links t =
              ((s.named turn).goTo t .choosing).proceed links t turn rest :=
            step_eq_proceed hfault hturn
          refine ⟨2, ?_⟩
          simp only [List.replicate, run_cons, run_nil, hfirst, hsecond]
          simp [proceed, call, goTo, named, hexternal, finish]
  · refine ⟨1, ?_⟩
    simp only [List.replicate, run_cons, run_nil, step_eq_proceed hfault hturn]
    simp [through, proceed, hplace, hselected, named]

/-- A thread goes through its next entries while the others wait. -/
theorem run_turns {turns : List Turn} (hfault : s.fault = false)
    (hquiet : ∀ u, s.place u = .before) (hturns : s.waiting t = turns ++ rest) :
    ∃ schedule, (run (step links) s schedule).fault = false ∧
      (∀ u, (run (step links) s schedule).place u = .before) ∧
      (run (step links) s schedule).waiting = Function.update s.waiting t rest := by
  induction turns generalizing s with
  | nil =>
      rw [List.nil_append] at hturns
      exact ⟨[], hfault, hquiet, (Function.update_eq_self_iff.mpr hturns.symm).symm⟩
  | cons turn turns ih =>
      obtain ⟨n, hn⟩ := run_through hlinked hfault hturns (hquiet t)
      have hquiet' (u : Thread) : (s.through links t turn (turns ++ rest)).place u = .before := by
        rcases eq_or_ne u t with rfl | hne
        · simp
        · simp [hne, hquiet u]
      obtain ⟨schedule, hschedule⟩ := ih (s := s.through links t turn (turns ++ rest))
        (by simp [hfault]) hquiet' (by simp)
      refine ⟨List.replicate n t ++ schedule, ?_⟩
      rw [run_append, hn]
      simpa using hschedule

/-! ## With a collision -/

variable {c d : Thread} {current : Turn} {restC restD : List Turn}

omit hlinked in
/-- Where every socket has got what is due, it has not after packets were sent to one that are
not those of the entries finished since. -/
theorem not_delivers_of_received {s' : Notifier Thread} (fd : ℕ) (since : List (Thread × Turn))
    (packets : List NotifyPacket) (hdelivers : Delivers links program s)
    (hquiet : ∀ u, s.place u = .before) (hquiet' : ∀ u, s'.place u = .before)
    (hfinished : s'.finished = s.finished ++ since)
    (hreceived : s'.received fd = s.received fd ++ packets)
    (hne : packets ≠ due links since fd) : ¬ Delivers links program s' := by
  intro hdelivers'
  have hwhole := hdelivers'.whole hquiet' fd
  rw [hfinished, hreceived, hdelivers.whole hquiet fd, due_append] at hwhole
  exact hne (List.append_cancel_left hwhole)

/-- Another application is named while a callback has not taken its own. -/
theorem misses_of_other (hdelivers : Delivers links program s) (hquiet : ∀ u, s.place u = .before)
    (hcd : c ≠ d) (hc : s.waiting c = current :: restC) (hd : s.waiting d = turn :: restD)
    (hselected : current.selected) (hexternal : links.External current.app)
    (hother : turn.app ≠ current.app) :
    ∃ schedule, ¬ Delivers links program (run (step links) s schedule) := by
  obtain ⟨fd, hsocket⟩ := exists_socket_of_external hlinked hexternal
  have hnotdue : ¬ Due links turn fd := fun hdue => hother (Links.eq_of_socket hdue.2 hsocket)
  -- The first thread comes to the checks, the other one names its application.
  obtain ⟨n, hn⟩ := run_checking hdelivers.fault hc (hquiet c) hselected hexternal
  set s₁ := (s.named current).goTo c .checking with hs₁
  obtain ⟨m, hm⟩ := run_through (s := s₁) (t := d) hlinked hdelivers.fault hd
    ((Function.update_of_ne hcd.symm ..).trans (hquiet d))
  set s₂ := s₁.through links d turn restD with hs₂
  have hfault₂ : s₂.fault = false := (fault_through ..).trans hdelivers.fault
  have hplace₂ : s₂.place c = .checking := by simp [hs₂, hs₁, goTo, hcd]
  have hwaiting₂ : s₂.waiting c = current :: restC := by
    simp [hs₂, hs₁, goTo, named, hcd, hc]
  have hreceived₂ : s₂.received fd = s.received fd := by
    rw [hs₂, received_through, if_neg hnotdue, List.append_nil]
    rfl
  -- The first one is told off as an internal application, or sends to the other application.
  obtain ⟨k, hplace, hfinished, hreceived⟩ : ∃ k,
      (run (step links) s₂ (List.replicate k c)).place = Function.update s₂.place c .before ∧
      (run (step links) s₂ (List.replicate k c)).finished = s₂.finished ++ [(c, current)] ∧
      (run (step links) s₂ (List.replicate k c)).received fd = s₂.received fd := by
    have hname : s₂.proxyHandlingApp = some turn.app := proxyHandlingApp_through ..
    by_cases hturn : links.External turn.app
    · obtain ⟨fd', hfd'⟩ := exists_socket_of_external hlinked hturn
      obtain ⟨k, hk⟩ := run_forwarding hfault₂ hwaiting₂ hplace₂ hname hfd'
      have hne : fd ≠ fd' := by
        rintro rfl
        exact hother (Links.eq_of_socket hfd' hsocket)
      exact ⟨k, by rw [hk]; rfl, by rw [hk]; rfl, by rw [hk]; exact received_send_of_ne _ _ hne⟩
    · have hstep : s₂.step links c = s₂.finish c current restC := by
        rw [step_eq_proceed hfault₂ hwaiting₂]
        simp [proceed, hplace₂, hname, Option.not_isSome_iff_eq_none.mp hturn]
      exact ⟨1, congrArg Notifier.place hstep, congrArg Notifier.finished hstep,
        congrFun (congrArg Notifier.received hstep) fd⟩
  refine ⟨List.replicate n c ++ (List.replicate m d ++ List.replicate k c), ?_⟩
  rw [run_append, run_append, hn, hm]
  refine not_delivers_of_received fd [(d, turn), (c, current)] [] hdelivers hquiet (fun u => ?_) ?_
    (by rw [hreceived, hreceived₂, List.append_nil]) ?_
  · rw [hplace, hs₂, place_through]
    rcases eq_or_ne u c with rfl | hne
    · simp
    · rcases eq_or_ne u d with rfl | hne'
      · simp [hne]
      · simp [hne, hne', hs₁, goTo, named, hquiet u]
  · rw [hfinished, hs₂, finished_through, List.append_assoc]
    rfl
  · have hdue : Due links current fd := ⟨hselected, hsocket⟩
    simpa [due, hnotdue, hdue] using current.packets_ne_nil.symm

/-- A second thread sends to the same application between two packets. -/
theorem mixes_of_same (hdelivers : Delivers links program s) (hquiet : ∀ u, s.place u = .before)
    (hcd : c ≠ d) (hc : s.waiting c = current :: restC) (hd : s.waiting d = turn :: restD)
    (hselected : current.selected) (hexternal : links.External current.app)
    (hsame : turn.app = current.app) (hselected' : turn.selected) :
    ∃ schedule, ¬ Delivers links program (run (step links) s schedule) := by
  obtain ⟨fd, hsocket⟩ := exists_socket_of_external hlinked hexternal
  have hdue : Due links current fd := ⟨hselected, hsocket⟩
  have hdue' : Due links turn fd := ⟨hselected', hsame ▸ hsocket⟩
  obtain ⟨event, part, left, hpackets, -⟩ := current.packets_eq
  obtain ⟨event', part', left', hpackets', hpart'⟩ := turn.packets_eq
  -- The first thread sends its header.
  obtain ⟨n, hn⟩ := run_checking hdelivers.fault hc (hquiet c) hselected hexternal
  set s₁ := (s.named current).goTo c .checking with hs₁
  have hfetching : run (step links) s₁ (List.replicate 3 c) =
      s₁.goTo c (.sending fd current.packets) :=
    run_fetching hdelivers.fault hc (Function.update_self ..) rfl hsocket
  set s₂ := (s₁.send fd [.header event]).goTo c (.sending fd (part :: left)) with hs₂
  have hheader : (s₁.goTo c (.sending fd current.packets)).step links c = s₂ := by
    have hplace : (s₁.goTo c (.sending fd current.packets)).place c =
        .sending fd (.header event :: part :: left) := by
      rw [← hpackets]
      exact Function.update_self ..
    have hstep : (s₁.goTo c (.sending fd current.packets)).step links c =
        (s₁.goTo c (.sending fd current.packets)).proceed links c current restC :=
      step_eq_proceed hdelivers.fault hc
    rw [hstep]
    simp only [proceed, hplace]
    simp [hs₂, goTo, send]
  -- The other one sends everything it has.
  obtain ⟨m, hm⟩ := run_through (s := s₂) (t := d) hlinked hdelivers.fault hd
    (by simp [hs₂, hs₁, goTo, send, named, hcd.symm, hquiet d])
  set s₃ := s₂.through links d turn restD with hs₃
  have hlast : run (step links) s₃ (List.replicate (part :: left).length c) =
      (s₃.send fd (part :: left)).finish c current restC := by
    refine run_sending (List.cons_ne_nil part left) ((fault_through ..).trans hdelivers.fault) ?_ ?_
    · simp [hs₃, hs₂, hs₁, goTo, send, named, hcd, hc]
    · simp [hs₃, hs₂, goTo, hcd]
  refine ⟨List.replicate n c ++ (List.replicate 3 c ++ ([c] ++ (List.replicate m d ++
    List.replicate (part :: left).length c))), ?_⟩
  rw [run_append, hn, run_append, hfetching, run_append, run_cons, run_nil, hheader, run_append,
    hm, hlast]
  refine not_delivers_of_received fd [(d, turn), (c, current)]
    (.header event :: turn.packets ++ part :: left) hdelivers hquiet (fun u => ?_) ?_ ?_ ?_
  · change Function.update s₃.place c .before u = .before
    rw [hs₃, place_through]
    rcases eq_or_ne u c with rfl | hne
    · simp
    · rcases eq_or_ne u d with rfl | hne'
      · simp [hne]
      · simp [hne, hne', hs₂, hs₁, goTo, send, named, hquiet u]
  · change s₃.finished ++ [(c, current)] = _
    rw [hs₃, finished_through, List.append_assoc]
    rfl
  · change (s₃.send fd (part :: left)).received fd = _
    rw [received_send_self, hs₃, received_through, if_pos hdue']
    change (s₁.send fd [.header event]).received fd ++ _ ++ _ = _
    rw [received_send_self]
    simp [hs₁, goTo, named]
  · have hwhole : due links [(d, turn), (c, current)] fd = turn.packets ++ current.packets := by
      simp [due, hdue, hdue']
    rw [hwhole, hpackets, hpackets']
    intro heq
    have hsecond := (List.cons.inj (List.cons.inj heq).2).1
    exact hpart' event' hsecond.symm

/-- An external application is named while a thread chooses a parameter for one of the
middleware's own. -/
theorem fails_of_twoForms (hdelivers : Delivers links program s)
    (hquiet : ∀ u, s.place u = .before) (hcd : c ≠ d) (hc : s.waiting c = current :: restC)
    (hd : s.waiting d = turn :: restD) (hselected : current.selected)
    (hinternal : ¬ links.External current.app) (htwo : current.twoForms)
    (hexternal : links.External turn.app) :
    ∃ schedule, ¬ Delivers links program (run (step links) s schedule) := by
  set s₁ := (s.named current).goTo c .choosing with hs₁
  have hfirst : s.step links c = s₁ := by
    rw [step_eq_proceed hdelivers.fault hc]
    simp [proceed, hquiet c, hselected, htwo, hs₁, named]
  obtain ⟨m, hm⟩ := run_through (s := s₁) (t := d) hlinked hdelivers.fault hd
    (by simp [hs₁, goTo, named, hcd.symm, hquiet d])
  set s₂ := s₁.through links d turn restD with hs₂
  have hlast : (s₂.step links c).fault = true := by
    have hplace : s₂.place c = .choosing := by simp [hs₂, hs₁, goTo, hcd]
    have hname : s₂.proxyHandlingApp = some turn.app := proxyHandlingApp_through ..
    have hfault : s₂.fault = false := (fault_through ..).trans hdelivers.fault
    have hwaiting : s₂.waiting c = current :: restC := by
      simp [hs₂, hs₁, goTo, named, hcd, hc]
    rw [step_eq_proceed hfault hwaiting]
    simp only [proceed, hplace, hname]
    rw [if_neg fun hiff => hinternal (hiff.mp hexternal)]
  refine ⟨[c] ++ (List.replicate m d ++ [c]), fun hdelivers' => ?_⟩
  rw [run_append, run_cons, run_nil, hfirst, run_append, hm] at hdelivers'
  exact absurd (hdelivers'.fault.symm.trans hlast) (by simp)

/-- Two threads that have come to entries of which one disturbs the other. -/
theorem exists_not_delivers (hdelivers : Delivers links program s)
    (hquiet : ∀ u, s.place u = .before) (hcd : c ≠ d) (hc : s.waiting c = current :: restC)
    (hd : s.waiting d = turn :: restD) (hdisturbs : Disturbs links turn current) :
    ∃ schedule, ¬ Delivers links program (run (step links) s schedule) := by
  obtain ⟨hselected, hdisturbs⟩ := hdisturbs
  split_ifs at hdisturbs with hexternal
  · rcases eq_or_ne turn.app current.app with hsame | hother
    · exact mixes_of_same hlinked hdelivers hquiet hcd hc hd hselected hexternal hsame
        (hdisturbs.resolve_left (not_not.mpr hsame))
    · exact misses_of_other hlinked hdelivers hquiet hcd hc hd hselected hexternal hother
  · exact fails_of_twoForms hlinked hdelivers hquiet hcd hc hd hselected hexternal hdisturbs.1
      hdisturbs.2

/-- Whatever the threads go through, and however they are interleaved, the notifications are
delivered exactly if no entry of one disturbs one of another. -/
theorem delivers_iff_apart (program : Thread → List Turn) :
    (∀ schedule, Delivers links program (run (step links) (initial program) schedule)) ↔
      ∀ t u, t ≠ u → ∀ turn ∈ program t, ∀ current ∈ program u,
        ¬ Disturbs links turn current := by
  refine ⟨fun hall d c hdc turn hturn current hcurrent hdisturbs => ?_, delivers_of_apart⟩
  obtain ⟨turnsC, restC, hprogramC⟩ := List.append_of_mem hcurrent
  obtain ⟨turnsD, restD, hprogramD⟩ := List.append_of_mem hturn
  obtain ⟨first, hfault, hquiet, hwaiting⟩ := run_turns (s := initial program) hlinked rfl
    (fun _ => rfl) hprogramC
  have hwaitingD : (run (step links) (initial program) first).waiting d =
      turnsD ++ turn :: restD := by
    rw [hwaiting, Function.update_of_ne hdc]
    exact hprogramD
  obtain ⟨second, hfault', hquiet', hwaiting'⟩ := run_turns hlinked hfault hquiet hwaitingD
  rw [← run_append] at hfault' hquiet' hwaiting'
  obtain ⟨schedule, hnot⟩ := exists_not_delivers hlinked (hall (first ++ second)) hquiet'
    hdc.symm (by rw [hwaiting', Function.update_of_ne hdc.symm, hwaiting, Function.update_self])
    (by rw [hwaiting', Function.update_self]) hdisturbs
  rw [← run_append] at hnot
  exact hnot (hall _)

end Notifier

/-! ## The dispatcher and the command buffer -/

section Callers

variable {Handler : Type*} (rsuName : List UInt8) (registry : Registry Handler)

/-- A packet that the dispatcher handles, with the parts of it that are forwarded. -/
inductive Arrival
  | cloud (field : C2RCommonField) (appSection payload : List UInt8)
  | obu (msgf : Option MessageFrame) (msg obuObject privateSpace : List UInt8)
  | camera (obstacleList tab : List UInt8)

/-- The entries that the handler of a packet comes to. -/
def Arrival.turns : Arrival → List Turn
  | cloud field appSection payload =>
      (registry.cloudPacketRxEventHandler rsuName field).2.map fun c =>
        .cloudPacketRx c.appObj.id appSection payload
  | obu none _ _ _ => []
  | obu (some msgf) msg obuObject privateSpace =>
      if msgf.hasRecord then
        (registry.callbackList .obuPacketRx).map fun c =>
          .obuPacketRx c.appObj.id (c.eventCallbackId = .msg msgf.messageId) msg obuObject
            privateSpace
      else []
  | camera obstacleList tab =>
      registry.smartAviPacketRxEventHandler.2.map fun c =>
        .cameraPacketRx c.appObj.id obstacleList tab

/-- The entries that `command_buf_send` comes to. -/
def commandTurns (command : List UInt8) : List Turn :=
  (registry.callbackList .trafficSignalCommandTx).map fun c =>
    .trafficSignalCommandTx c.appObj.id command

/-- The threads that call callbacks of external applications. -/
inductive Caller
  | dispatcher
  | commandBuffer
  deriving DecidableEq

def callerProgram (arrivals : List Arrival) (commands : List (List UInt8)) : Caller → List Turn
  | .dispatcher => arrivals.flatMap (Arrival.turns rsuName registry)
  | .commandBuffer => commands.flatMap (commandTurns registry)

variable {rsuName registry} {arrivals : List Arrival} {commands : List (List UInt8)}

/-- The command buffer calls every entry, with one form of the parameter. -/
theorem of_mem_commandBuffer {command : Turn}
    (hcommand : command ∈ callerProgram rsuName registry arrivals commands .commandBuffer) :
    command.selected = true ∧ command.twoForms = false := by
  obtain ⟨bytes, -, hmem⟩ := List.mem_flatMap.mp hcommand
  obtain ⟨c, -, rfl⟩ := List.mem_map.mp hmem
  exact ⟨rfl, rfl⟩

end Callers

open Notifier in
/-- The dispatcher and the command buffer leave each other alone, however they are interleaved,
exactly if the dispatcher calls no external application while commands are announced to
anyone, and commands are announced to an external application only while the dispatcher calls
nobody and comes to no other application. -/
theorem callers_deliver_iff {Handler : Type*} (links : Links)
    (hlinked : ∀ app info, links.eaInfo app = some info → info.notifyFd ≠ 0)
    (rsuName : List UInt8) (registry : Registry Handler) (arrivals : List Arrival)
    (commands : List (List UInt8)) :
    (∀ schedule, Delivers links (callerProgram rsuName registry arrivals commands)
      (run (step links) (initial (callerProgram rsuName registry arrivals commands)) schedule)) ↔
      ∀ turn ∈ callerProgram rsuName registry arrivals commands .dispatcher,
        ∀ command ∈ callerProgram rsuName registry arrivals commands .commandBuffer,
          ¬ (turn.selected ∧ links.External turn.app) ∧
            (links.External command.app → ¬ turn.selected ∧ turn.app = command.app) := by
  rw [delivers_iff_apart hlinked]
  constructor
  · intro hapart turn hturn command hcommand
    obtain ⟨hselected, htwo⟩ := of_mem_commandBuffer hcommand
    have hfirst := hapart .commandBuffer .dispatcher (by decide) command hcommand turn hturn
    have hsecond := hapart .dispatcher .commandBuffer (by decide) turn hturn command hcommand
    refine ⟨fun ⟨hturnSelected, hexternal⟩ => hfirst ⟨hturnSelected, ?_⟩, fun hexternal => ?_⟩
    · rw [if_pos hexternal]
      exact .inr hselected
    · rw [Disturbs, if_pos hexternal, not_and] at hsecond
      have hneither := not_or.mp (hsecond hselected)
      exact ⟨hneither.2, not_not.mp hneither.1⟩
  · rintro hall (_ | _) (_ | _) hne turn hturn current hcurrent ⟨hselected, hdisturbs⟩
    · exact hne rfl
    · obtain ⟨-, hsame⟩ := hall turn hturn current hcurrent
      have htwo := (of_mem_commandBuffer hcurrent).2
      split_ifs at hdisturbs with hexternal
      · obtain ⟨hnot, heq⟩ := hsame hexternal
        exact hdisturbs.elim (fun hother => hother heq) hnot
      · simp [htwo] at hdisturbs
    · obtain ⟨hnot, hsame⟩ := hall current hcurrent turn hturn
      split_ifs at hdisturbs with hexternal
      · exact hnot ⟨hselected, hexternal⟩
      · exact (hsame hdisturbs.2).1 hselected
    · exact hne rfl

/-- The part of the middleware that announces the signal plan. -/
def tib : AppObj Unit where
  name := ['T', 'I', 'B']
  id := 6
  priority := 3
  handler event :=
    if event ∈ [.cloudPacketRx, .trafficSignalCommandTx, .registration] then some () else none

/-- An application that is told of cloud packets. -/
def cloudApp : AppObj Unit where
  name := ['A', 'P', 'P']
  id := 20
  priority := 40
  handler event := if event = .cloudPacketRx then some () else none

/-- With a part of the middleware that is told of commands, one cloud packet for an external
application and one command can collide. -/
theorem callers_deliver_iff_tib :
    ¬ ∀ schedule, Notifier.Delivers (Notifier.oneApplication 20 5)
      (callerProgram [] (run Registry.step .initial [.appRegister 0 tib, .appRegister 0 cloudApp])
        [.cloud ⟨40, 0, [], 20⟩ [3] [4]] [[1]])
      (run (Notifier.step (Notifier.oneApplication 20 5)) (Notifier.initial
        (callerProgram [] (run Registry.step .initial [.appRegister 0 tib, .appRegister 0 cloudApp])
          [.cloud ⟨40, 0, [], 20⟩ [3] [4]] [[1]])) schedule) := by
  intro hall
  have hlinked (app : UInt8) (info : EaInfo)
      (hinfo : (Notifier.oneApplication 20 5).eaInfo app = some info) : info.notifyFd ≠ 0 := by
    simp only [Notifier.oneApplication] at hinfo
    split_ifs at hinfo
    rw [← Option.some_inj.mp hinfo]
    simp
  have hnever := (callers_deliver_iff _ hlinked [] _ _ _).mp hall (.cloudPacketRx 20 [3] [4])
    (by decide) (.trafficSignalCommandTx 6 [1]) (by decide)
  exact hnever.1 (by decide)

end AdaptiveSignal.ExternalApps
