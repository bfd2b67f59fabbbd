import LwsClientDemo.WsClientV2.Queue

open interleaving

namespace lws_client.ws_client_v2

/-- A sender between its queue insertion and its `lws_cancel_service` call. -/
def AppFrame.inserted : AppFrame → Bool
  | .enqueue_msg_wake | .lws_cancel_service => true
  | _ => false

/-- A callback that still has to test `q_head`, or to request WRITEABLE. -/
def Frame.wakes : Frame → Bool
  | .q_head_check | .lws_callback_on_writable | .write _ _ | .event_wait_cancelled => true
  | _ => false

/-- A WRITEABLE is outstanding on `c->wsi`, or an EVENT_WAIT_CANCELLED is; or a
    callback of the connection has returned nonzero, so that lws closes it. -/
def Sys.Awake (s : Sys) : Prop :=
  (∃ w, s.c.wsi = some w ∧ (s.lws.Writable w ∨ s.lws.Failed w)) ∨ s.lws.cancelled = true

/-- The client is connected, not stopping, and has something to send. -/
structure Sys.Needs (s : Sys) : Prop where
  stopping : s.c.stopping = false
  state : s.c.state = .STATE_CONNECTED
  q : s.c.q.has_data = true

/-- Whoever changed the queue or took a WRITEABLE passes the wakeup on. -/
def Wake (fs : List Frame) (app : Nat → List AppFrame) (s : Sys) : Prop :=
  s.Needs → s.Awake ∨ Pending app (fun f => f.inserted = true) ∨ ∃ f ∈ fs, f.wakes = true

theorem Sys.Awake.congr {s s' : Sys} (h : s.Awake) (hwsi : s'.c.wsi = s.c.wsi)
    (hlws : s.lws.Keeps s'.lws) : s'.Awake := by
  rcases h with ⟨w, hw, hwritable | hfailed⟩ | hcancelled
  · exact .inl ⟨w, hwsi.trans hw, .inl (hlws.writable w hwritable)⟩
  · exact .inl ⟨w, hwsi.trans hw, .inr (hlws.failed w hfailed)⟩
  · exact .inr (hlws.cancelled hcancelled)

/-- A section that changes neither the queue nor what the wakeup depends on. -/
structure SameNeed (s s' : Sys) : Prop where
  stopping : s'.c.stopping = s.c.stopping
  state : s'.c.state = s.c.state
  q : s'.c.q = s.c.q
  wsi : s'.c.wsi = s.c.wsi
  lws : s.lws.Keeps s'.lws

theorem SameNeed.needs {s s' : Sys} (h : SameNeed s s') (hneeds : s'.Needs) : s.Needs :=
  ⟨h.stopping ▸ hneeds.stopping, h.state ▸ hneeds.state, h.q ▸ hneeds.q⟩

theorem Wake.congr {fs : List Frame} {app : Nat → List AppFrame} {s s' : Sys}
    (h : Wake fs app s) (hs : SameNeed s s') : Wake fs app s' := by
  intro hneeds
  rcases h (hs.needs hneeds) with hawake | hsender | hservice
  · exact .inl (hawake.congr hs.wsi hs.lws)
  · exact .inr (.inl hsender)
  · exact .inr (.inr hservice)

/-- The connection of a client that is connected and not stopping. -/
theorem Conn.connected {fs : List Frame} {s : Sys} {frame : Option AppFrame} (h : Conn fs s)
    (howner : Owner frame s) (hstop : s.c.stopping = false) (hstate : s.c.state = .STATE_CONNECTED) :
    s.thread = .running ∧ s.c.ctx = true ∧ ∃ w, Up s w ∧ s.lws.phase w = some .established := by
  have hrun : s.thread = .running := by
    cases hthread : s.thread with
    | none =>
      rcases (h.none hthread).2.2 with hidle | hstopping
      · rw [hstate] at hidle
        cases hidle
      · rw [hstop] at hstopping
        cases hstopping
    | created =>
      have hidle := (h.created hthread).2.2
      rw [hstate] at hidle
      cases hidle
    | running => rfl
    | exited =>
      unfold Owner at howner
      split at howner <;> simp_all
    | destroying =>
      have hstopping := howner.destroying hthread
      rw [hstop] at hstopping
      cases hstopping
  refine ⟨hrun, howner.running hrun, ?_⟩
  cases h.running hrun with
  | up w _ hup => exact ⟨w, hup, hup.established hstate⟩
  | down _ hdown => rcases hdown.state with h | h <;> rw [hstate] at h <;> cases h
  | sending w _ _ _ hup _ => exact ⟨w, hup, hup.established hstate⟩
  | connect _ _ _ hnot => exact absurd hstate hnot
  | failing _ _ _ _ hnot => exact absurd hstate hnot

/-- Requesting WRITEABLE on an open connection wakes it. -/
theorem awake_of_request {s : Sys} {w : WsiId} (hup : Up s w)
    (hphase : s.lws.phase w = some .established) : (s.act (s.c, request_writable s.c)).Awake := by
  have hrequest : request_writable s.c = [.lws_callback_on_writable w] := by
    simp [request_writable, onWsi, hup.wsi]
  refine .inl ⟨w, hup.wsi, .inl ?_⟩
  rw [hrequest]
  exact lws_context.writable_requested hphase

/-- A section of the service thread passes the wakeup on. -/
theorem svc_wake {f : Frame} {a : Answer} {s s' : Sys} {rest fs : List Frame}
    {app : Nat → List AppFrame} {frame : Option AppFrame} (h : s.svc f a = some (fs, s'))
    (hconn : Conn (f :: rest) s) (howner : Owner frame s) (hwake : Wake (f :: rest) app s) :
    Wake (fs ++ rest) app s' := by
  intro hneeds
  have hsame : f.wakes = false → SameNeed s s' →
      s'.Awake ∨ Pending app (fun f => f.inserted = true) ∨ ∃ g ∈ fs ++ rest, g.wakes = true := by
    intro hf hs
    rcases hwake.congr hs hneeds with hawake | hsender | ⟨g, hg, hwakes⟩
    · exact .inl hawake
    · exact .inr (.inl hsender)
    · rcases List.mem_cons.mp hg with rfl | hg
      · rw [hf] at hwakes
        cases hwakes
      · exact .inr (.inr ⟨g, List.mem_append_right _ hg, hwakes⟩)
  cases f with
  | do_connect =>
    simp only [Sys.svc] at h
    split at h <;> cases h <;> cases hneeds.state
  | connection_error msg =>
    simp only [Sys.svc, Option.some.injEq, Prod.mk.injEq] at h
    obtain ⟨_, rfl⟩ := h
    have hstate := hneeds.state
    rw [Sys.act_c, (connection_error_link s msg).2] at hstate
    cases hstate
  | wsi_destroy w =>
    obtain ⟨wsi, hc⟩ := wsi_destroy_client s.c w
    simp only [Sys.svc, Option.some.injEq, Prod.mk.injEq] at h
    obtain ⟨_, rfl⟩ := h
    have hstop : s.c.stopping = false := by simpa [hc] using hneeds.stopping
    have hstate : s.c.state = .STATE_CONNECTED := by simpa [hc] using hneeds.state
    obtain ⟨hrun, _⟩ := hconn.connected howner hstop hstate
    exact absurd hstate (hconn.running hrun).destroy
  | connect_return connected =>
    simp only [Sys.svc] at h
    split at h
    · cases h
      exact hsame rfl ⟨rfl, rfl, rfl, rfl, .refl _⟩
    · cases h
      cases hneeds.state
  | schedule_reconnect =>
    simp only [Sys.svc, Option.some.injEq, Prod.mk.injEq] at h
    obtain ⟨_, rfl⟩ := h
    have hstate := hneeds.state
    rw [Sys.act_c] at hstate
    rcases schedule_reconnect_state s.c a.ret with hwait | hstopped
    · rw [hwait] at hstate
      cases hstate
    · rw [hstopped] at hstate
      cases hstate
  | q_head_check =>
    simp only [Sys.svc, Option.some.injEq, Prod.mk.injEq] at h
    obtain ⟨rfl, rfl⟩ := h
    rw [if_pos hneeds.q]
    exact .inr (.inr ⟨.lws_callback_on_writable, by simp, rfl⟩)
  | lws_callback_on_writable =>
    cases h
    obtain ⟨_, _, w, hup, hphase⟩ := hconn.connected howner hneeds.stopping hneeds.state
    exact .inl (awake_of_request hup hphase)
  | write w n =>
    simp only [Sys.svc] at h
    split at h
    · cases h
      obtain ⟨hrun, _, v, hup, hphase⟩ := hconn.connected howner hneeds.stopping hneeds.state
      obtain ⟨_, hup'⟩ := (hconn.running hrun).write
      obtain rfl := hup.only w hup'.live
      exact .inl (.inl ⟨w, hup.wsi, .inr (lws_context.failed_fail (by simpa using hphase))⟩)
    · cases h
      exact .inr (.inr ⟨.q_head_check, by simp, rfl⟩)
  | event_wait_cancelled =>
    cases h
    obtain ⟨_, _, w, hup, hphase⟩ := hconn.connected howner hneeds.stopping hneeds.state
    have hstop : s.c.stopping = false := hneeds.stopping
    have hcancelled : event_wait_cancelled s.c = request_writable s.c := by
      simp [event_wait_cancelled, hstop]
    rw [hcancelled]
    exact .inl (awake_of_request hup hphase)

/-- A callback passes the wakeup on: it takes the WRITEABLE only to test
    `q_head` afterwards, and it ends the connection only with a new `state`. -/
theorem callback_wake {w : WsiId} {a : Answer} {r : Reason} {s s' : Sys} {fs : List Frame}
    {app : Nat → List AppFrame} {frame : Option AppFrame} {ns : List ws_msg_node_t}
    (h : s.callback w a r = some (fs, s')) (henabled : s.callback_enabled w r = true)
    (hconn : Conn [] s) (howner : Owner frame s) (hholds : s.c.q.Holds ns)
    (hwake : Wake [] app s) : Wake fs app s' := by
  have hsame : SameNeed s s' → Wake fs app s' := by
    intro hs hneeds
    rcases hwake.congr hs hneeds with hawake | hsender | ⟨g, hg, _⟩
    · exact .inl hawake
    · exact .inr (.inl hsender)
    · cases hg
  cases r with
  | CLIENT_ESTABLISHED =>
    cases h
    exact fun _ => .inr (.inr ⟨.q_head_check, by simp, rfl⟩)
  | CLIENT_RECEIVE chunk =>
    simp only [Sys.callback, Option.map_eq_some_iff, Prod.mk.injEq] at h
    obtain ⟨o, ho, rfl, rfl⟩ := h
    obtain ⟨frag, hc⟩ := receive_client ho
    have hkeeps := s.lws.keeps_performs o.acts
    apply hsame
    split
    · exact ⟨by simp [hc], by simp [hc], by simp [hc], by simp [hc],
        hkeeps.trans (lws_context.keeps_fail _ w)⟩
    · exact ⟨by simp [hc], by simp [hc], by simp [hc], by simp [hc], hkeeps⟩
  | CLIENT_WRITEABLE =>
    simp only [Sys.callback] at h
    split at h
    · cases h
      exact fun _ => .inr (.inr ⟨.q_head_check, by simp, rfl⟩)
    · split at h
      · next q hdequeue =>
        cases h
        intro hneeds
        have hempty : s.c.q.has_data = false := by
          obtain ⟨hhead, _⟩ := hholds.dequeue
          rw [Sys.setLws_c] at hdequeue
          rw [hdequeue] at hhead
          have hns : ns = [] := by simpa using hhead.symm
          simpa [hns] using hholds.has_data_iff
        have hdata : s.c.q.has_data = true := hneeds.q
        rw [hempty] at hdata
        cases hdata
      · next n q _ =>
        cases h
        exact fun _ => .inr (.inr ⟨.write w n, by simp, rfl⟩)
  | TIMER =>
    simp only [Sys.callback, Option.some.injEq, Prod.mk.injEq] at h
    obtain ⟨rfl, rfl⟩ := h
    have hfired : s.lws.Keeps (s.lws.modify w fun i => { i with timer := none }) :=
      s.lws.keeps_modify w (fun _ => id) fun _ => id
    have hkeeps := hfired.trans (lws_context.keeps_performs _ (timer s.c a.ret).acts)
    apply hsame
    rcases timer_client s.c a.ret with hc | hc
    all_goals
      split
      · exact ⟨by simp [hc], by simp [hc], by simp [hc], by simp [hc],
          hkeeps.trans (lws_context.keeps_fail _ w)⟩
      · exact ⟨by simp [hc], by simp [hc], by simp [hc], by simp [hc], hkeeps⟩
  | CLIENT_RECEIVE_PONG =>
    cases h
    exact hsame ⟨rfl, rfl, rfl, rfl, lws_context.keeps_performs _ _⟩
  | CLIENT_CONNECTION_ERROR msg =>
    simp only [Sys.callback, Option.some.injEq, Prod.mk.injEq] at h
    obtain ⟨_, rfl⟩ := h
    intro hneeds
    have hstate := hneeds.state
    rw [Sys.act_c] at hstate
    obtain ⟨n, hc⟩ := connection_error_client s.c msg
    rw [hc] at hstate
    cases hstate
  | CLIENT_CLOSED =>
    simp only [Sys.callback, Option.some.injEq, Prod.mk.injEq] at h
    obtain ⟨_, rfl⟩ := h
    intro hneeds
    have hstate := hneeds.state
    rw [Sys.act_c] at hstate
    obtain ⟨n, hc⟩ := closed_client s.c
    rw [hc] at hstate
    cases hstate
  | WSI_DESTROY =>
    obtain ⟨wsi, hc⟩ := wsi_destroy_client s.c w
    simp only [Sys.callback, Option.some.injEq, Prod.mk.injEq] at h
    obtain ⟨rfl, rfl⟩ := h
    intro hneeds
    have hstop : s.c.stopping = false := by simpa [hc] using hneeds.stopping
    have hstate : s.c.state = .STATE_CONNECTED := by simpa [hc] using hneeds.state
    obtain ⟨hrun, _, u, hup, hphase⟩ := hconn.connected howner hstop hstate
    simp [Sys.callback_enabled, lws_context.enables, hrun] at henabled
    have hu : u ≠ w := by
      rintro rfl
      rw [henabled] at hphase
      cases hphase
    have hkept : wsi_destroy s.c w = s.c := by
      rw [wsi_destroy, if_neg]
      rw [hup.wsi]
      simpa using hu
    have hother : (s.lws.remove w).wsi u = s.lws.wsi u := Function.update_of_ne hu _ _
    rcases hwake ⟨hstop, hstate, by simpa [hc] using hneeds.q⟩ with hawake | hsender | ⟨g, hg, _⟩
    · rcases hawake with ⟨v, hv, hwakes⟩ | hcancelled
      · obtain rfl : u = v := by
          rw [hup.wsi] at hv
          simpa using hv
        refine .inl (.inl ⟨u, by simp [hkept, hup.wsi], ?_⟩)
        simpa [lws_context.Writable, lws_context.Failed, lws_context.performs, hother] using hwakes
      · exact .inl (.inr hcancelled)
    · exact .inr (.inl hsender)
    · cases hg
  | CLIENT_APPEND_HANDSHAKE_HEADER =>
    cases h
    exact hsame ⟨rfl, rfl, rfl, rfl, lws_context.keeps_performs _ _⟩

theorem deliver_wake {e : Event} {s s' : Sys} {fs : List Frame} {app : Nat → List AppFrame}
    {frame : Option AppFrame} {ns : List ws_msg_node_t} (h : s.deliver e = some (fs, s'))
    (hconn : Conn [] s) (howner : Owner frame s) (hholds : s.c.q.Holds ns)
    (hwake : Wake [] app s) : Wake fs app s' := by
  cases e with
  | service_thread =>
    simp only [Sys.deliver, Option.ite_none_right_eq_some, Option.some.injEq, Prod.mk.injEq] at h
    obtain ⟨hcreated, rfl, rfl⟩ := h
    intro hneeds
    have hidle := (hconn.created hcreated).2.2
    rw [hneeds.state] at hidle
    cases hidle
  | callback w r a =>
    simp only [Sys.deliver, Option.ite_none_right_eq_some] at h
    exact callback_wake h.2 h.1 hconn howner hholds hwake
  | event_wait_cancelled wsi =>
    simp only [Sys.deliver, Option.ite_none_right_eq_some, Option.some.injEq, Prod.mk.injEq] at h
    obtain ⟨_, rfl, rfl⟩ := h
    exact fun _ => .inr (.inr ⟨.event_wait_cancelled, by simp, rfl⟩)
  | sul_reconnect_cb =>
    simp only [Sys.deliver, Option.ite_none_right_eq_some, Option.some.injEq, Prod.mk.injEq] at h
    obtain ⟨⟨_, hsul⟩, _, rfl⟩ := h
    intro hneeds
    obtain ⟨_, _, w, hup, _⟩ := hconn.connected howner hneeds.stopping hneeds.state
    simp [hup.sul] at hsul
  | exit =>
    simp only [Sys.deliver, Option.ite_none_right_eq_some, Option.map_eq_some_iff,
      Prod.mk.injEq] at h
    obtain ⟨⟨_, hstop⟩, ⟨freed, q⟩, _, _, rfl⟩ := h
    intro hneeds
    have hrunning := hneeds.stopping
    rw [Sys.act_c] at hrunning
    rw [hstop] at hrunning
    cases hrunning
  | context_destroyed =>
    simp only [Sys.deliver, Option.ite_none_right_eq_some, Option.some.injEq, Prod.mk.injEq] at h
    obtain ⟨hthread, _, rfl⟩ := h
    intro hneeds
    have hstop := howner.destroying hthread
    rw [hneeds.stopping] at hstop
    cases hstop

/-- A sender passes the wakeup on to the service thread. -/
theorem sends_wake {f : AppFrame} {a : Answer} {s s' : Sys} {gs : List Frame}
    {fs : List AppFrame} {app : Nat → List AppFrame} {t : Nat} {frame : Option AppFrame}
    (h : s.app f a = some (fs, s')) (hf : f.sends = true) (htop : app t = [f])
    (hconn : Conn gs s) (howner : Owner frame s) (hwake : Wake gs app s) :
    Wake gs (Function.update app t fs) s' := by
  intro hneeds
  have hkept : f.inserted = false → SameNeed s s' →
      s'.Awake ∨ Pending (Function.update app t fs) (fun f => f.inserted = true) ∨
        ∃ g ∈ gs, g.wakes = true := by
    intro hinserted hs
    rcases hwake.congr hs hneeds with hawake | hsender | hservice
    · exact .inl hawake
    · refine .inr (.inl ?_)
      have hlater := hsender.update htop (by simp [hinserted]) fs
      rwa [List.append_nil] at hlater
    · exact .inr (.inr hservice)
  cases f with
  | enqueue_msg data is_binary =>
    cases data with
    | none =>
      cases h
      exact hkept rfl ⟨rfl, rfl, rfl, rfl, lws_context.keeps_performs _ _⟩
    | some data =>
      cases h
      exact hkept rfl ⟨rfl, rfl, rfl, rfl, .refl _⟩
  | enqueue_msg_locked data is_binary =>
    simp only [Sys.app, Option.some.injEq, Prod.mk.injEq] at h
    obtain ⟨rfl, rfl⟩ := h
    rcases enqueue_msg_locked_spec s.c data is_binary a.ok with ⟨n, heq, _⟩ | heq
    · refine .inr (.inl (Pending.of_pushed (f := .enqueue_msg_wake) ?_ rfl))
      simp [heq]
    · exact hkept rfl ⟨by simp [heq], by simp [heq], by simp [heq], by simp [heq],
        lws_context.keeps_performs _ _⟩
  | enqueue_msg_wake =>
    cases h
    obtain ⟨_, hctx, _⟩ := hconn.connected howner hneeds.stopping hneeds.state
    refine .inr (.inl (Pending.of_pushed (f := .lws_cancel_service) ?_ rfl))
    simp [hctx]
  | lws_cancel_service =>
    cases h
    exact .inl (.inr rfl)
  | _ => simp [AppFrame.sends] at hf

/-- The owner's sections stop the client, or change nothing a wakeup depends on. -/
theorem owner_wake {f : AppFrame} {a : Answer} {s s' : Sys} {gs : List Frame}
    {fs : List AppFrame} {app : Nat → List AppFrame} {t : Nat} (h : s.app f a = some (fs, s'))
    (hf : f.sends = false) (htop : app t = [f]) (hconn : Conn gs s) (howner : Owner (some f) s)
    (hwake : Wake gs app s) : Wake gs (Function.update app t fs) s' := by
  intro hneeds
  have hkept : SameNeed s s' →
      s'.Awake ∨ Pending (Function.update app t fs) (fun f => f.inserted = true) ∨
        ∃ g ∈ gs, g.wakes = true := by
    intro hs
    rcases hwake.congr hs hneeds with hawake | hsender | hservice
    · exact .inl hawake
    · refine .inr (.inl ?_)
      have hinserted : f.inserted = false := by cases f <;> first | rfl | simp [AppFrame.sends] at hf
      have hlater := hsender.update htop (by simp [hinserted]) fs
      rwa [List.append_nil] at hlater
    · exact .inr (.inr hservice)
  have hstopping : s'.c.stopping = s.c.stopping → s.c.stopping = true → False := by
    intro hsame hstop
    have hrunning := hneeds.stopping
    rw [hsame, hstop] at hrunning
    cases hrunning
  cases f with
  | enqueue_msg _ _ | enqueue_msg_locked _ _ | enqueue_msg_wake | lws_cancel_service =>
    simp [AppFrame.sends] at hf
  | wsl_start =>
    simp only [Sys.app] at h
    split at h
    · cases h
      exact hkept ⟨rfl, rfl, rfl, rfl, .refl _⟩
    · next hstarted =>
      split at h
      · cases h
        have hthread : s.thread = .none := by simpa [Owner, hstarted] using howner
        obtain ⟨hrun, _⟩ := hconn.connected howner hneeds.stopping hneeds.state
        rw [hthread] at hrun
        cases hrun
      · cases h
        exact hkept ⟨rfl, rfl, rfl, rfl, .refl _⟩
  | start_thread =>
    simp only [Sys.app] at h
    split at h <;> cases h <;> cases hneeds.state
  | start_return =>
    cases h
    exact hkept ⟨rfl, rfl, rfl, rfl, lws_context.keeps_performs _ _⟩
  | wsl_stop =>
    simp only [Sys.app] at h
    split at h
    · cases h
      cases hneeds.stopping
    · cases h
      exact hkept ⟨rfl, rfl, rfl, rfl, .refl _⟩
  | stop_cancel =>
    cases h
    exact (hstopping rfl howner.2.2).elim
  | stop_join =>
    simp only [Sys.app, Option.ite_none_right_eq_some, Option.some.injEq, Prod.mk.injEq] at h
    obtain ⟨_, _, rfl⟩ := h
    exact (hstopping rfl howner.2.2).elim
  | stop_context =>
    simp only [Sys.app] at h
    split at h <;> cases h <;> exact (hstopping rfl howner.2.2.2).elim
  | stop_context_destroyed =>
    simp only [Sys.app, Option.ite_none_right_eq_some, Option.some.injEq, Prod.mk.injEq] at h
    obtain ⟨_, _, rfl⟩ := h
    exact (hstopping rfl howner.2.2.2).elim
  | stop_return =>
    cases h
    cases hneeds.state
  | wsl_destroy =>
    cases h
    exact hkept ⟨rfl, rfl, rfl, rfl, lws_context.keeps_performs _ _⟩

theorem wake_step {cfg cfg' : Config} {l : Label} (hmove : system.Moves cfg l cfg')
    (hlife : Lifecycle cfg) (hconn : Conn cfg.svc cfg.shared) {ns : List ws_msg_node_t}
    (hholds : cfg.shared.c.q.Holds ns) (h : Wake cfg.svc cfg.app cfg.shared) :
    Wake cfg'.svc cfg'.app cfg'.shared := by
  cases hmove with
  | event hdeliver => exact deliver_wake hdeliver hconn hlife.owner hholds h
  | svc hsvc => exact svc_wake hsvc hconn hlife.owner h
  | call hidle _ =>
    intro hneeds
    rcases h hneeds with hawake | hsender | hservice
    · exact .inl hawake
    · exact .inr (.inl (hsender.call hidle))
    · exact .inr (.inr hservice)
  | @app t f a s s' svc app rest fs htop happ =>
    obtain rfl := hlife.rest_nil htop
    rw [List.append_nil]
    by_cases hsends : f.sends = true
    · exact sends_wake happ hsends htop hconn hlife.owner h
    · have howner := (hlife.frame htop).resolve_left hsends
      exact owner_wake happ (by simpa using hsends) htop hconn howner h

theorem Reachable.wake {cfg : Config} (h : Reachable cfg) : Wake cfg.svc cfg.app cfg.shared := by
  obtain ⟨c, hc, hreach⟩ := h
  refine hreach.invariant_under (I := fun mid => Wake mid.svc mid.app mid.shared)
    (J := fun mid => Lifecycle mid ∧ Conn mid.svc mid.shared ∧ ∃ ns, mid.shared.c.q.Holds ns)
    (fun mid hmid => ?_) ?_ fun _ _ _ hknown _ hmove => ?_
  · have hmid : Reachable mid := ⟨c, hc, hmid⟩
    obtain ⟨ns, hholds, _⟩ := hmid.fifo
    exact ⟨hmid.lifecycle, hmid.conn, ns, hholds⟩
  · intro hneeds
    have hstate := hneeds.state
    rw [show (initial c).shared.c.state = c.state from rfl, hc.state] at hstate
    cases hstate
  · obtain ⟨hlife, hconn, ns, hholds⟩ := hknown
    exact wake_step hmove hlife hconn hholds

/-- No queued message waits without a wakeup: a connected client with a message
    and no sender on its way to `lws_cancel_service` has a WRITEABLE or an
    EVENT_WAIT_CANCELLED outstanding. In the middle of a callback it may be that
    callback which is still to test `q_head` or to request the WRITEABLE. -/
theorem wakeup_outstanding {cfg : Config} (h : Reachable cfg)
    (hstop : cfg.shared.c.stopping = false) (hstate : cfg.shared.c.state = .STATE_CONNECTED)
    (hdata : cfg.shared.c.q.list.head ≠ none)
    (hsenders : ∀ t, ∀ f ∈ cfg.app t, f.inserted = false)
    (hok : ∀ w, cfg.shared.c.wsi = some w → ¬ cfg.shared.lws.Failed w) :
    ((∃ w, cfg.shared.c.wsi = some w ∧ cfg.shared.lws.phase w = some .established ∧
        cfg.shared.lws.Writable w) ∨ cfg.shared.lws.cancelled = true) ∨
      (cfg.svc ≠ [] ∧ ∃ f ∈ cfg.svc, f.wakes = true) := by
  have hneeds : cfg.shared.Needs :=
    ⟨hstop, hstate, by simpa [SendQueue.has_data, Option.isSome_iff_ne_none] using hdata⟩
  obtain ⟨_, _, w, hup, hphase⟩ := h.conn.connected h.lifecycle.owner hstop hstate
  rcases h.wake hneeds with (⟨v, hv, hwritable | hfailed⟩ | hcancelled) | ⟨t, f, hf, hinserted⟩ |
    ⟨f, hf, hwakes⟩
  · obtain rfl : w = v := by
      rw [hup.wsi] at hv
      simpa using hv
    exact .inl (.inl ⟨w, hv, hphase, hwritable⟩)
  · exact absurd hfailed (hok v hv)
  · exact .inl (.inr hcancelled)
  · rw [hsenders t f hf] at hinserted
    cases hinserted
  · exact .inr ⟨List.ne_nil_of_mem hf, f, hf, hwakes⟩

/-- A message sent on an open connection, up to the return of `wsl_send`. -/
def sent_run : List Label :=
  connected_run ++ [.call 1 (.enqueue_msg (some ⟨[104, 105], two_bytes⟩) false),
    .app 1 {}, .app 1 {}, .app 1 {}, .app 1 {}]

/-- Another thread queues a second message, and the first is written. -/
def written_run : List Label :=
  sent_run ++ [.call 2 (.enqueue_msg (some ⟨[120], one_byte⟩) true), .app 2 {}, .app 2 {},
    .app 2 {}, .app 2 {}, .event (.callback 0 .CLIENT_WRITEABLE {}), .svc {}, .svc {}, .svc {}]

theorem wakeup_outstanding_sent : ∃ cfg, Reachable cfg ∧ cfg.shared.c.q.list.head ≠ none ∧
    ((∃ w, cfg.shared.c.wsi = some w ∧ cfg.shared.lws.phase w = some .established ∧
        cfg.shared.lws.Writable w) ∨ cfg.shared.lws.cancelled = true) := by
  obtain ⟨cfg, hfollows, ⟨hstop, hstate, hdata⟩, hdone, hwsi, hok, hsvc⟩ : ∃ cfg,
      system.Follows Any (initial (wsl_create "localhost" 9000 none true)) sent_run cfg ∧
        (cfg.shared.c.stopping = false ∧ cfg.shared.c.state = .STATE_CONNECTED ∧
          cfg.shared.c.q.list.head ≠ none) ∧
        ((List.range 2).all fun t => (cfg.app t).isEmpty) = true ∧ cfg.shared.c.wsi = some 0 ∧
        ¬ cfg.shared.lws.Failed 0 ∧ cfg.svc.length = 0 :=
    System.exists_follows_of_run (by decide)
  have hidle : ∀ t, cfg.app t = [] := hfollows.idle (fun _ => rfl) (by decide) hdone
  have h : Reachable cfg := ⟨_, wsl_create_fresh _ _ _ _, hfollows.reaches⟩
  refine ⟨cfg, h, hdata, ?_⟩
  have hwake := wakeup_outstanding h hstop hstate hdata (fun t f hf => by simp [hidle t] at hf)
    (fun w hw => by
      rw [hwsi] at hw
      cases hw
      exact hok)
  rcases hwake with hwake | ⟨hne, _⟩
  · exact hwake
  · exact absurd (List.length_eq_zero_iff.mp hsvc) hne

end lws_client.ws_client_v2
