import LwsClientDemo.WsClient.Queue

open interleaving

namespace lws_client.ws_client

/-- A sender between its queue insertion and its `lws_cancel_service` call. -/
def AppFrame.inserted : AppFrame → Bool
  | .enqueue_wake | .lws_cancel_service => true
  | _ => false

def Inserted (app : Nat → List AppFrame) : Prop := Pending app fun f => f.inserted = true

/-- A callback that still has to test `q_head`, or to request WRITEABLE. -/
def Frame.wakes : Frame → Bool
  | .has_data_check _ | .lws_callback_on_writable _ | .event_wait_cancelled => true
  | .write _ _ more => more
  | _ => false

/-- A WRITEABLE is outstanding on `c->wsi`. -/
def Sys.Requested (s : Sys) : Prop := ∃ w, s.c.wsi = some w ∧ s.lws.Writable w

/-- A WRITEABLE or an EVENT_WAIT_CANCELLED is outstanding. -/
def Sys.Awake (s : Sys) : Prop := s.Requested ∨ s.lws.cancelled = true

/-- The client is connected, not stopping, and has something to send. -/
structure Sys.Needs (s : Sys) : Prop where
  stopping : s.c.stopping = false
  state : s.c.state = .STATE_CONNECTED
  q : s.c.q.has_data = true

/-- The step does not drop a wakeup: ESTABLISHED, which does not test `q_head`,
    finds nothing to send or leaves it to an EVENT_WAIT_CANCELLED; so does one
    that comes without a connection, and a write that fails. -/
def passes (cfg : Config) : Label → Prop
  | .event (.callback _ .CLIENT_ESTABLISHED _) =>
    cfg.shared.c.stopping = false → cfg.shared.c.q.has_data = true →
      cfg.shared.lws.cancelled = true ∨ Inserted cfg.app
  | .event (.event_wait_cancelled false) =>
    cfg.shared.Needs → cfg.shared.Requested ∨ Inserted cfg.app
  | .svc a =>
    match cfg.svc with
    | .write _ _ _ :: _ => a.ret < 0 → cfg.shared.Needs → cfg.shared.Awake ∨ Inserted cfg.app
    | _ => True
  | _ => True

/-- Whoever changed the queue or took a WRITEABLE passes the wakeup on. -/
def Wake (fs : List Frame) (app : Nat → List AppFrame) (s : Sys) : Prop :=
  s.Needs → s.Awake ∨ Inserted app ∨ ∃ f ∈ fs, f.wakes = true

theorem Sys.Awake.congr {s s' : Sys} (h : s.Awake) (hwsi : s'.c.wsi = s.c.wsi)
    (hlws : s.lws.Keeps s'.lws) : s'.Awake := by
  rcases h with ⟨w, hw, hwritable⟩ | hcancelled
  · exact .inl ⟨w, hwsi.trans hw, hlws.writable w hwritable⟩
  · exact .inr (hlws.cancelled hcancelled)

/-- A section that changes neither the queue nor what the wakeup depends on. -/
structure SameNeed (s s' : Sys) : Prop where
  stopping : s'.c.stopping = s.c.stopping
  state : s'.c.state = s.c.state
  q : s'.c.q = s.c.q
  wsi : s'.c.wsi = s.c.wsi
  lws : s.lws.Keeps s'.lws

theorem SameNeed.needs {s s' : Sys} (h : SameNeed s s') (hneeds : s'.Needs) : s.Needs :=
  ⟨h.stopping ▸ hneeds.stopping, h.state ▸ hneeds.state, h.q ▸ hneeds.q⟩

theorem Wake.congr {fs : List Frame} {app : Nat → List AppFrame} {s s' : Sys}
    (h : Wake fs app s) (hs : SameNeed s s') : Wake fs app s' := by
  intro hneeds
  rcases h (hs.needs hneeds) with hawake | hsender | hservice
  · exact .inl (hawake.congr hs.wsi hs.lws)
  · exact .inr (.inl hsender)
  · exact .inr (.inr hservice)

/-- The connection of a client that is connected and not stopping. -/
theorem Conn.connected {fs : List Frame} {s : Sys} {frame : Option AppFrame} (h : Conn fs s)
    (howner : Owner frame s) (hstop : s.c.stopping = false) (hstate : s.c.state = .STATE_CONNECTED) :
    s.thread = .running ∧ s.c.ctx = true ∧ ∃ w, Up s w ∧ s.lws.phase w = some .established := by
  have hgone : s.thread = .destroying ∨ s.thread = .exited → False := fun hthread => by
    have hstopping := howner.destroying hthread
    rw [hstop] at hstopping
    cases hstopping
  have hrun : s.thread = .running := by
    cases hthread : s.thread with
    | none =>
      rcases (h.none hthread).2 with hidle | hstopping
      · rw [hstate] at hidle
        cases hidle
      · rw [hstop] at hstopping
        cases hstopping
    | created =>
      have hidle := (h.created hthread).2
      rw [hstate] at hidle
      cases hidle
    | running => rfl
    | exited => exact (hgone (.inr hthread)).elim
    | destroying => exact (hgone (.inl hthread)).elim
  refine ⟨hrun, howner.running hrun, ?_⟩
  cases h.running hrun with
  | up w _ hup | sending w _ _ _ hup _ => exact ⟨w, hup, hup.established hstate⟩
  | down _ hdown =>
    rcases hdown.state with hwait | hstopping
    · rw [hstate] at hwait
      cases hwait
    · rw [hstop] at hstopping
      cases hstopping
  | accepted _ _ _ _ hconnecting =>
    rw [hstate] at hconnecting
    cases hconnecting
  | connect _ _ hnot | failing _ _ _ _ hnot => exact absurd hstate hnot

theorem Position.returned {s : Sys} {w : WsiId} {rest : List Frame}
    (h : Position (.connect_return (some w) :: rest) s) : s.c.state = .STATE_CONNECTING := by
  cases h with
  | up _ hfs _ | down hfs _ => rcases hfs with hfs | hfs <;> cases hfs
  | sending _ _ hfs hf _ _ =>
    cases hfs
    exact absurd hf id
  | accepted _ hfs _ _ hstate => exact hstate
  | connect hfs _ _ => cases hfs
  | failing gs hfs hgs _ _ =>
    cases gs with
    | nil => cases hfs
    | cons g gs =>
      cases hfs
      cases hgs _ (List.mem_cons_self ..)

/-- The end of a connection leaves a client that is stopping or not connected. -/
theorem closed_needs {s : Sys} {lws : lws_context} {now : Int}
    (h : Sys.Needs ((s.setLws lws).act (closed s.c now, []))) : False := by
  obtain ⟨_, _, state, hc, hclosed⟩ := closed_client s.c now
  obtain ⟨hstop, hstate, _⟩ := h
  rw [Sys.act_c, hc] at hstop hstate
  rcases hclosed with rfl | ⟨hstopping, _⟩
  · cases hstate
  · rw [hstopping] at hstop
    cases hstop

/-- A section of the service thread passes the wakeup on. -/
theorem svc_wake {f : Frame} {a : Answer} {s s' : Sys} {rest fs : List Frame}
    {app : Nat → List AppFrame} {frame : Option AppFrame} (h : s.svc f a = some (fs, s'))
    (hok : passes ⟨s, f :: rest, app⟩ (.svc a)) (hconn : Conn (f :: rest) s)
    (howner : Owner frame s) (hwake : Wake (f :: rest) app s) : Wake (fs ++ rest) app s' := by
  intro hneeds
  cases f with
  | do_connect =>
    simp only [Sys.svc] at h
    split at h <;> cases h <;> cases hneeds.state
  | connection_error msg =>
    cases h
    exact (closed_needs hneeds).elim
  | wsi_destroy w =>
    cases h
    obtain ⟨wsi, hc⟩ := wsi_destroy_client s.c w
    have hstop : s.c.stopping = false := by simpa [hc] using hneeds.stopping
    have hstate : s.c.state = .STATE_CONNECTED := by simpa [hc] using hneeds.state
    obtain ⟨hrun, _⟩ := hconn.connected howner hstop hstate
    exact absurd hstate (hconn.running hrun).destroy
  | connect_return wsi =>
    cases wsi with
    | none =>
      cases h
      cases hneeds.state
    | some w =>
      cases h
      have hstate : s.c.state = .STATE_CONNECTED := hneeds.state
      obtain ⟨hrun, _⟩ := hconn.connected howner hneeds.stopping hneeds.state
      rw [(hconn.running hrun).returned] at hstate
      cases hstate
  | has_data_check w =>
    cases h
    rw [if_pos hneeds.q]
    exact .inr (.inr ⟨.lws_callback_on_writable w, by simp, rfl⟩)
  | lws_callback_on_writable w =>
    cases h
    obtain ⟨hrun, _, v, hup, hphase⟩ := hconn.connected howner hneeds.stopping hneeds.state
    obtain ⟨_, hup'⟩ := (hconn.running hrun).sent (w := w) rfl
    obtain rfl := hup.only w hup'.live
    exact .inl (.inl ⟨w, hup.wsi, lws_context.writable_requested hphase⟩)
  | write w n more =>
    have hkeeps := s.lws.keeps_performs (writeable_write n w)
    simp only [Sys.svc] at h
    split at h
    · next hfailed =>
      cases h
      rcases hok hfailed ⟨hneeds.stopping, hneeds.state, hneeds.q⟩ with hawake | hsender
      · exact .inl (hawake.congr rfl (hkeeps.trans (lws_context.keeps_fail _ w)))
      · exact .inr (.inl hsender)
    · cases h
      cases more with
      | true => exact .inr (.inr ⟨.lws_callback_on_writable w, by simp, rfl⟩)
      | false =>
        have hbefore : s.Needs := ⟨hneeds.stopping, hneeds.state, hneeds.q⟩
        rcases hwake hbefore with hawake | hsender | ⟨g, hg, hwakes⟩
        · exact .inl (hawake.congr rfl hkeeps)
        · exact .inr (.inl hsender)
        · rcases List.mem_cons.mp hg with rfl | hg
          · cases hwakes
          · exact .inr (.inr ⟨g, by simpa using hg, hwakes⟩)
  | event_wait_cancelled =>
    cases h
    obtain ⟨_, _, w, hup, _⟩ := hconn.connected howner hneeds.stopping hneeds.state
    have hasked : event_wait_cancelled s.c = some w := by
      rw [event_wait_cancelled, if_pos ⟨hneeds.state, hneeds.q⟩, hup.wsi]
    exact .inr (.inr ⟨.lws_callback_on_writable w, by simp [hasked], rfl⟩)

/-- A callback passes the wakeup on: WRITEABLE still has its test of `q_head`
    ahead or knows that there is more, and the end of the connection changes
    `state`. -/
theorem callback_wake {w : WsiId} {a : Answer} {r : Reason} {s s' : Sys} {fs : List Frame}
    {app : Nat → List AppFrame} {frame : Option AppFrame} {ns : List ws_msg_node_t}
    (h : s.callback w a r = some (fs, s')) (henabled : s.lws.enables s.thread w r = true)
    (hok : passes ⟨s, [], app⟩ (.event (.callback w r a))) (hconn : Conn [] s)
    (howner : Owner frame s) (hholds : s.c.q.Holds ns) (hwake : Wake [] app s) :
    Wake fs app s' := by
  have hsame : SameNeed s s' → Wake fs app s' := by
    intro hs hneeds
    rcases hwake.congr hs hneeds with hawake | hsender | ⟨g, hg, _⟩
    · exact .inl hawake
    · exact .inr (.inl hsender)
    · cases hg
  cases r with
  | CLIENT_ESTABLISHED =>
    cases h
    intro hneeds
    rcases hok hneeds.stopping hneeds.q with hcancelled | hsender
    · exact .inl (.inr ((lws_context.keeps_performs _ _).cancelled hcancelled))
    · exact .inr (.inl hsender)
  | CLIENT_RECEIVE chunk =>
    simp only [Sys.callback, Option.map_eq_some_iff, Prod.mk.injEq] at h
    obtain ⟨o, ho, rfl, rfl⟩ := h
    obtain ⟨frag, hc⟩ := receive_client ho
    have hkeeps := s.lws.keeps_performs o.acts
    apply hsame
    split
    · exact ⟨by simp [hc], by simp [hc], by simp [hc], by simp [hc],
        hkeeps.trans (lws_context.keeps_fail _ w)⟩
    · exact ⟨by simp [hc], by simp [hc], by simp [hc], by simp [hc], hkeeps⟩
  | CLIENT_WRITEABLE =>
    simp only [Sys.callback] at h
    split at h
    · cases h
      exact fun _ => .inr (.inr ⟨.has_data_check w, by simp, rfl⟩)
    · split at h
      · next q hdequeue =>
        cases h
        intro hneeds
        have hempty : s.c.q.has_data = false := by
          obtain ⟨hhead, _⟩ := hholds.dequeue
          rw [Sys.setLws_c] at hdequeue
          rw [hdequeue] at hhead
          have hns : ns = [] := by simpa using hhead.symm
          simpa [hns] using hholds.has_data_iff
        have hdata : s.c.q.has_data = true := hneeds.q
        rw [hempty] at hdata
        cases hdata
      · next n q _ =>
        cases h
        exact fun hneeds => .inr (.inr ⟨.write w n q.has_data, by simp, hneeds.q⟩)
  | TIMER =>
    obtain ⟨send_ping, hc⟩ := timer_client s.c w
    simp only [Sys.callback, Option.some.injEq, Prod.mk.injEq] at h
    obtain ⟨rfl, rfl⟩ := h
    have hfired : s.lws.Keeps (s.lws.modify w fun i => { i with timer := none }) :=
      s.lws.keeps_modify w (fun _ => id) fun _ => id
    have hkeeps := hfired.trans (lws_context.keeps_performs _ (timer s.c w).acts)
    apply hsame
    split
    · exact ⟨by simp [hc], by simp [hc], by simp [hc], by simp [hc],
        hkeeps.trans (lws_context.keeps_fail _ w)⟩
    · exact ⟨by simp [hc], by simp [hc], by simp [hc], by simp [hc], hkeeps⟩
  | CLIENT_RECEIVE_PONG =>
    cases h
    exact hsame ⟨rfl, rfl, rfl, rfl, lws_context.keeps_performs _ _⟩
  | CLIENT_CONNECTION_ERROR _ | CLIENT_CLOSED =>
    cases h
    exact fun hneeds => (closed_needs hneeds).elim
  | WSI_DESTROY =>
    cases h
    intro hneeds
    obtain ⟨wsi, hc⟩ := wsi_destroy_client s.c w
    have hstop : s.c.stopping = false := by simpa [hc] using hneeds.stopping
    have hstate : s.c.state = .STATE_CONNECTED := by simpa [hc] using hneeds.state
    obtain ⟨hrun, _, u, hup, hphase⟩ := hconn.connected howner hstop hstate
    rw [hrun] at henabled
    have hclosed := lws_context.phase_of_enables henabled
    have hu : u ≠ w := by
      rintro rfl
      rw [hclosed] at hphase
      cases hphase
    have hkept : wsi_destroy s.c w = s.c := by
      rw [wsi_destroy, if_neg]
      rw [hup.wsi]
      simpa using hu
    have hother : (s.lws.remove w).wsi u = s.lws.wsi u := Function.update_of_ne hu _ _
    rcases hwake ⟨hstop, hstate, by simpa [hc] using hneeds.q⟩ with hawake | hsender | ⟨g, hg, _⟩
    · rcases hawake with ⟨v, hv, hwritable⟩ | hcancelled
      · obtain rfl : u = v := by
          rw [hup.wsi] at hv
          simpa using hv
        refine .inl (.inl ⟨u, by simp [hkept, hup.wsi], ?_⟩)
        simpa [lws_context.Writable, lws_context.performs, hother] using hwritable
      · exact .inl (.inr hcancelled)
    · exact .inr (.inl hsender)
    · cases hg
  | CLIENT_APPEND_HANDSHAKE_HEADER =>
    cases h
    exact hwake

theorem deliver_wake {e : Event} {s s' : Sys} {fs : List Frame} {app : Nat → List AppFrame}
    {frame : Option AppFrame} {ns : List ws_msg_node_t} (h : s.deliver e = some (fs, s'))
    (hok : passes ⟨s, [], app⟩ (.event e)) (hconn : Conn [] s) (howner : Owner frame s)
    (hholds : s.c.q.Holds ns) (hwake : Wake [] app s) : Wake fs app s' := by
  cases e with
  | service_thread =>
    simp only [Sys.deliver, Option.ite_none_right_eq_some, Option.some.injEq, Prod.mk.injEq] at h
    obtain ⟨hcreated, rfl, rfl⟩ := h
    intro hneeds
    have hidle := (hconn.created hcreated).2
    rw [hneeds.state] at hidle
    cases hidle
  | callback w r a =>
    simp only [Sys.deliver, Option.ite_none_right_eq_some] at h
    exact callback_wake h.2 h.1 hok hconn howner hholds hwake
  | event_wait_cancelled wsi =>
    simp only [Sys.deliver, Option.ite_none_right_eq_some, Option.some.injEq, Prod.mk.injEq] at h
    obtain ⟨_, rfl, rfl⟩ := h
    intro hneeds
    cases wsi with
    | true => exact .inr (.inr ⟨.event_wait_cancelled, by simp, rfl⟩)
    | false =>
      rcases hok ⟨hneeds.stopping, hneeds.state, hneeds.q⟩ with hrequested | hsender
      · exact .inl (.inl hrequested)
      · exact .inr (.inl hsender)
  | poll now =>
    simp only [Sys.deliver, Option.ite_none_right_eq_some, Option.some.injEq, Prod.mk.injEq] at h
    obtain ⟨⟨_, _, hwait, _⟩, _, rfl⟩ := h
    intro hneeds
    rw [hneeds.state] at hwait
    cases hwait
  | exit =>
    simp only [Sys.deliver, Option.ite_none_right_eq_some, Option.map_eq_some_iff,
      Prod.mk.injEq] at h
    obtain ⟨⟨_, hstop⟩, ⟨freed, q⟩, _, _, rfl⟩ := h
    intro hneeds
    have hrunning : s.c.stopping = false := hneeds.stopping
    rw [hstop] at hrunning
    cases hrunning
  | context_destroyed =>
    simp only [Sys.deliver, Option.ite_none_right_eq_some, Option.some.injEq, Prod.mk.injEq] at h
    obtain ⟨hthread, _, rfl⟩ := h
    intro hneeds
    have hstop := howner.destroying (.inl hthread)
    rw [hneeds.stopping] at hstop
    cases hstop

theorem Wake.app {f : AppFrame} {s s' : Sys} {gs : List Frame} {fs : List AppFrame}
    {app : Nat → List AppFrame} {t : Nat} (hwake : Wake gs app s) (hs : SameNeed s s')
    (htop : app t = [f]) (hf : f.inserted = false) : Wake gs (Function.update app t fs) s' := by
  intro hneeds
  rcases hwake.congr hs hneeds with hawake | hsender | hservice
  · exact .inl hawake
  · have hlater := hsender.update htop (by simp [hf]) fs
    rw [List.append_nil] at hlater
    exact .inr (.inl hlater)
  · exact .inr (.inr hservice)

/-- A sender passes the wakeup on to the service thread. -/
theorem sends_wake {f : AppFrame} {a : Answer} {s s' : Sys} {gs : List Frame}
    {fs : List AppFrame} {app : Nat → List AppFrame} {t : Nat} {frame : Option AppFrame}
    (h : s.app f a = some (fs, s')) (hf : f.sends = true) (htop : app t = [f])
    (hconn : Conn gs s) (howner : Owner frame s) (hwake : Wake gs app s) :
    Wake gs (Function.update app t fs) s' := by
  cases f with
  | enqueue data is_binary =>
    cases data with
    | none =>
      cases h
      exact hwake.app ⟨rfl, rfl, rfl, rfl, lws_context.keeps_performs _ _⟩ htop rfl
    | some data =>
      cases h
      exact hwake.app ⟨rfl, rfl, rfl, rfl, .refl _⟩ htop rfl
  | enqueue_locked data is_binary =>
    simp only [Sys.app, Option.some.injEq, Prod.mk.injEq] at h
    obtain ⟨rfl, rfl⟩ := h
    rcases enqueue_locked_spec s.c data is_binary a.ok with ⟨n, heq, _⟩ | heq
    · refine fun _ => .inr (.inl (Pending.of_pushed (f := .enqueue_wake) ?_ rfl))
      simp [heq]
    · exact hwake.app ⟨by simp [heq], by simp [heq], by simp [heq], by simp [heq],
        lws_context.keeps_performs _ _⟩ htop rfl
  | enqueue_wake =>
    cases h
    intro hneeds
    obtain ⟨_, hctx, _⟩ := hconn.connected howner hneeds.stopping hneeds.state
    refine .inr (.inl (Pending.of_pushed (f := .lws_cancel_service) ?_ rfl))
    simp [hctx]
  | lws_cancel_service =>
    cases h
    exact fun _ => .inl (.inr rfl)
  | _ => cases hf

/-- The owner's sections stop the client, or change nothing a wakeup depends on. -/
theorem owner_wake {f : AppFrame} {a : Answer} {s s' : Sys} {gs : List Frame}
    {fs : List AppFrame} {app : Nat → List AppFrame} {t : Nat} (h : s.app f a = some (fs, s'))
    (hf : f.sends = false) (htop : app t = [f]) (hconn : Conn gs s) (howner : Owner (some f) s)
    (hwake : Wake gs app s) : Wake gs (Function.update app t fs) s' := by
  have hstopped : s.c.stopping = true → s'.c.stopping = s.c.stopping →
      Wake gs (Function.update app t fs) s' := by
    intro hstop hsame hneeds
    have hrunning := hneeds.stopping
    rw [hsame, hstop] at hrunning
    cases hrunning
  cases f with
  | enqueue _ _ | enqueue_locked _ _ | enqueue_wake | lws_cancel_service => cases hf
  | wsld_start =>
    intro hneeds
    have hthread := howner.1
    simp only [Sys.app] at h
    split at h <;> cases h <;>
    · obtain ⟨hrun, _⟩ := hconn.connected howner hneeds.stopping hneeds.state
      rw [hthread] at hrun
      cases hrun
  | start_thread =>
    intro hneeds
    simp only [Sys.app] at h
    split at h <;> cases h <;> cases hneeds.state
  | wsld_stop =>
    simp only [Sys.app] at h
    split at h
    · cases h
      exact fun hneeds => by cases hneeds.stopping
    · cases h
      exact hwake.app ⟨rfl, rfl, rfl, rfl, .refl _⟩ htop rfl
  | stop_cancel =>
    cases h
    exact hstopped howner.2.2 rfl
  | stop_join =>
    simp only [Sys.app, Option.ite_none_right_eq_some, Option.some.injEq, Prod.mk.injEq] at h
    obtain ⟨_, _, rfl⟩ := h
    exact hstopped howner.2.2 rfl
  | stop_context =>
    simp only [Sys.app] at h
    split at h <;> cases h <;> exact hstopped howner.2.2.2 rfl
  | stop_context_destroyed =>
    simp only [Sys.app, Option.ite_none_right_eq_some, Option.some.injEq, Prod.mk.injEq] at h
    obtain ⟨_, _, rfl⟩ := h
    exact hstopped howner.2.2.2 rfl
  | wsld_destroy =>
    simp only [Sys.app, Option.map_eq_some_iff, Prod.mk.injEq] at h
    obtain ⟨_, _, rfl, rfl⟩ := h
    exact hwake.app ⟨rfl, rfl, rfl, rfl, lws_context.keeps_performs _ _⟩ htop rfl
  | start_return =>
    cases h
    exact hwake.app ⟨rfl, rfl, rfl, rfl, lws_context.keeps_performs _ _⟩ htop rfl

theorem wake_step {cfg cfg' : Config} {l : Label} (hmove : system.Moves cfg l cfg')
    (hok : passes cfg l) (hlife : Lifecycle cfg) (hconn : Conn cfg.svc cfg.shared)
    {ns : List ws_msg_node_t} (hholds : cfg.shared.c.q.Holds ns)
    (h : Wake cfg.svc cfg.app cfg.shared) : Wake cfg'.svc cfg'.app cfg'.shared := by
  cases hmove with
  | event hdeliver => exact deliver_wake hdeliver hok hconn hlife.owner hholds h
  | svc hsvc => exact svc_wake hsvc hok hconn hlife.owner h
  | call hidle _ =>
    intro hneeds
    rcases h hneeds with hawake | hsender | hservice
    · exact .inl hawake
    · exact .inr (.inl (hsender.call hidle))
    · exact .inr (.inr hservice)
  | @app t f a s s' svc app rest fs htop happ =>
    obtain rfl := hlife.threads.rest_nil htop
    rw [List.append_nil]
    by_cases hsends : f.sends = true
    · exact sends_wake happ hsends htop hconn hlife.owner h
    · have howner := (hlife.frame htop).resolve_left hsends
      exact owner_wake happ (by simpa using hsends) htop hconn howner h

theorem reaches_wake {c : wsld_client} (hc : c.Fresh) {cfg : Config}
    (h : system.Reaches passes (initial c) cfg) : Wake cfg.svc cfg.app cfg.shared := by
  refine h.invariant_under (I := fun mid => Wake mid.svc mid.app mid.shared)
    (J := fun mid => Lifecycle mid ∧ Conn mid.svc mid.shared ∧ ∃ ns, mid.shared.c.q.Holds ns)
    (fun mid hmid => ?_) ?_ fun _ _ _ hknown hok hmove => ?_
  · have hmid : Reachable mid := ⟨c, hc, hmid.mono fun _ _ _ => trivial⟩
    obtain ⟨ns, hholds, _⟩ := hmid.fifo
    exact ⟨hmid.lifecycle, hmid.conn, ns, hholds⟩
  · intro hneeds
    have hstate := hneeds.state
    rw [show (initial c).shared.c.state = c.state from rfl, hc.state] at hstate
    cases hstate
  · obtain ⟨hlife, hconn, ns, hholds⟩ := hknown
    exact wake_step hmove hok hlife hconn hholds

/-- In runs whose steps drop no wakeup, no queued message waits without one. In
    the middle of a callback it may be that callback which is still to test
    `q_head` or to request the WRITEABLE. -/
theorem wakeup_passed {c : wsld_client} (hc : c.Fresh) {cfg : Config}
    (h : system.Reaches passes (initial c) cfg) (hstop : cfg.shared.c.stopping = false)
    (hstate : cfg.shared.c.state = .STATE_CONNECTED) (hdata : cfg.shared.c.q.list.head ≠ none)
    (hsenders : ∀ t, ∀ f ∈ cfg.app t, f.inserted = false) :
    ((∃ w, cfg.shared.c.wsi = some w ∧ cfg.shared.lws.phase w = some .established ∧
        cfg.shared.lws.Writable w) ∨ cfg.shared.lws.cancelled = true) ∨
      (cfg.svc ≠ [] ∧ ∃ f ∈ cfg.svc, f.wakes = true) := by
  have hneeds : cfg.shared.Needs :=
    ⟨hstop, hstate, by simpa [SendQueue.has_data, Option.isSome_iff_ne_none] using hdata⟩
  have hreach : Reachable cfg := ⟨c, hc, h.mono fun _ _ _ => trivial⟩
  obtain ⟨_, _, w, hup, hphase⟩ := hreach.conn.connected hreach.lifecycle.owner hstop hstate
  rcases reaches_wake hc h hneeds with (⟨v, hv, hwritable⟩ | hcancelled) | ⟨t, f, hf, hinserted⟩ |
    ⟨f, hf, hwakes⟩
  · obtain rfl : w = v := by
      rw [hup.wsi] at hv
      simpa using hv
    exact .inl (.inl ⟨w, hv, hphase, hwritable⟩)
  · exact .inl (.inr hcancelled)
  · rw [hsenders t f hf] at hinserted
    cases hinserted
  · exact .inr ⟨List.ne_nil_of_mem hf, f, hf, hwakes⟩

/-- A condition on a step that can be evaluated, under which it drops no wakeup. -/
def sure (cfg : Config) : Label → Bool
  | .event (.callback _ .CLIENT_ESTABLISHED _) => !cfg.shared.c.q.has_data
  | .event (.event_wait_cancelled wsi) => wsi
  | .svc a => decide (0 ≤ a.ret)
  | _ => true

theorem passes_of_sure {cfg : Config} {l : Label} (h : sure cfg l = true) : passes cfg l := by
  cases l with
  | event e =>
    cases e with
    | callback w reason a =>
      cases reason with
      | CLIENT_ESTABLISHED =>
        intro _ hdata
        simp [sure, hdata] at h
      | _ => exact trivial
    | event_wait_cancelled wsi =>
      obtain rfl : wsi = true := h
      exact trivial
    | _ => exact trivial
  | svc a =>
    simp only [passes]
    split
    · exact fun hfailed => absurd hfailed (by simpa [sure] using h)
    · exact trivial
  | _ => exact trivial

/-- A message is queued before the connection is established, and the
    EVENT_WAIT_CANCELLED of its sender finds the client not connected. -/
def stalled_run : List Label :=
  connected_run.dropLast ++ [.call 1 (.enqueue (some ⟨[104, 105], two_bytes⟩) false), .app 1 {},
    .app 1 {}, .app 1 {}, .app 1 {}, .event (.event_wait_cancelled true), .svc {},
    .event (.callback 0 .CLIENT_ESTABLISHED {})]

/-- A message is queued on the open connection, up to the return of `wsld_send`. -/
def sent_run : List Label :=
  connected_run ++ [.call 1 (.enqueue (some ⟨[104, 105], two_bytes⟩) false), .app 1 {}, .app 1 {},
    .app 1 {}, .app 1 {}]

/-- Another thread queues a second message, and the first is written. -/
def written_run : List Label :=
  sent_run ++ [.call 2 (.enqueue (some ⟨[120], one_byte⟩) true), .app 2 {}, .app 2 {}, .app 2 {},
    .app 2 {}, .event (.callback 0 .CLIENT_WRITEABLE {}), .svc {}, .svc {}]

end lws_client.ws_client
