import LwsClientDemo.Heartbeat
import LwsClientDemo.WsClient.Connection

open interleaving

namespace lws_client.ws_client

/-- What a step tells of connection `w`. -/
def told (w : WsiId) : Label → List Pulse
  | .event (.callback v .CLIENT_ESTABLISHED _) => if v = w then [.established] else []
  | .event (.callback v .CLIENT_RECEIVE_PONG _) => if v = w then [.pong] else []
  | _ => []

/-- The part of a step in the heartbeat of connection `w`: what it tells, and the
    PINGs among its calls. -/
def pulses (w : WsiId) (cfg : Config) (l : Label) : List Pulse :=
  told w l ++ pinged w (calls cfg l)

/-- A WRITEABLE of connection `w` that finds a ping to send. -/
def writes_ping (w : WsiId) (cfg : Config) (l : Label) : Prop :=
  cfg.shared.c.send_ping = true ∧ ∃ a, l = .event (.callback w .CLIENT_WRITEABLE a)

/-- What a step does to the heartbeat of connection `w`, open behind it. -/
def StepBeats (w : WsiId) (sends : Prop) (s s' : Sys) (acts : List Act) (pulses : List Pulse) : Prop :=
  Beats w (s.lws.phase w = some .established) False sends s.c.ping_interval_ms s.c.pong_timeout_ms s.lws
    s'.lws s.c.ping_pending s'.c.ping_pending acts pulses

variable {w : WsiId} {sends : Prop} {s s' : Sys} {cfg next : Config} {l : Label} {acts : List Act}

/-- What a step does, with its calls. -/
def Beating (w : WsiId) (cfg next : Config) (l : Label) : Prop :=
  ∃ acts, next.shared.trace = cfg.shared.trace ++ acts ∧
    StepBeats w (writes_ping w cfg l) cfg.shared next.shared acts (pulses w cfg l)

/-- A step that leaves the heartbeat as it was. -/
theorem Beating.of_steady (hstep : system.step cfg l = some next)
    (htold : told w l = [])
    (hopen : next.shared.lws.phase w = some .established)
    (htrace : next.shared.trace = cfg.shared.trace ++ acts)
    (hsteady : cfg.shared.lws.Steady next.shared.lws)
    (hpending : next.shared.c.ping_pending = cfg.shared.c.ping_pending)
    (hacts : Every Act.timeless acts) : Beating w cfg next l := by
  refine ⟨acts, htrace, ?_⟩
  rw [pulses, htold, calls_eq hstep htrace, hacts.pinged]
  exact .of_steady hsteady hopen (hsteady w hopen).1 hpending hacts

theorem closed_pending (c : wsld_client) (now : Int) : (closed c now).ping_pending = c.ping_pending := by
  unfold closed schedule_reconnect
  dsimp only
  split <;> rfl

theorem wsi_destroy_pending (c : wsld_client) (v : WsiId) :
    (wsi_destroy c v).ping_pending = c.ping_pending := by
  unfold wsi_destroy
  split <;> rfl

/-- TIMER fails the connection when a ping is pending, and requests one otherwise. -/
theorem timer_beats {a : Answer} {fs : List Frame} (hopen : s.lws.phase w = some .established)
    (h : s.callback w a .TIMER = some (fs, s')) :
    StepBeats w sends s s' (timer s.c w).acts [] := by
  have hfired : (s.lws.modify w fun i => { i with timer := none }).phase w = some .established := by
    rw [← hopen]
    exact s.lws.phase_modify_same w w fun _ => rfl
  simp only [Sys.callback, Option.some.injEq, Prod.mk.injEq] at h
  obtain ⟨_, rfl⟩ := h
  cases hpending : s.c.ping_pending with
  | true =>
    have htimer : timer s.c w = { client := s.c, acts := [], ret := -1 } := by
      rw [timer, if_pos hpending]
    simp only [Sys.setLws_c, htimer]
    refine .expire hopen ?_ hpending hpending rfl
    exact lws_context.failed_fail hfired
  | false =>
    have htimer : timer s.c w =
        { client := { s.c with send_ping := true }
          acts := [.lws_callback_on_writable w, .lws_set_timer_usecs w (s.c.pong_timeout_ms * 1000)]
          ret := 0 } := by
      rw [timer, if_neg (by simp [hpending])]
    simp only [Sys.setLws_c, htimer]
    refine .request hopen ?_ hpending hpending (by simp [timers])
    exact lws_context.armed_performs (List.mem_cons_of_mem _ (List.mem_singleton.mpr rfl)) hfired

theorem timer_pinged (c : wsld_client) (v w : WsiId) : pinged w (timer c v).acts = [] := by
  unfold timer
  split <;> rfl

/-- A callback of the open connection, or the one that opens it. -/
theorem callback_beats {a : Answer} {r : Reason} {fs : List Frame} {app : Nat → List AppFrame}
    (henabled : s.lws.enables s.thread w r = true) (h : s.callback w a r = some (fs, s'))
    (hopen : s'.lws.phase w = some .established)
    (hstep : system.step ⟨s, [], app⟩ (.event (.callback w r a)) = some ⟨s', fs, app⟩) :
    Beating w ⟨s, [], app⟩ ⟨s', fs, app⟩ (.event (.callback w r a)) := by
  by_cases hr : r = .WSI_DESTROY
  · subst hr
    cases h
    simp at hopen
  have hphase := lws_context.phase_of_enables_ne henabled hr
  cases r with
  | CLIENT_ESTABLISHED =>
    cases h
    refine ⟨_, rfl, ?_⟩
    rw [pulses, calls_eq hstep rfl, told, if_pos rfl]
    refine .established (lws_context.armed_performs (List.mem_singleton.mpr rfl) ?_) rfl
      (by simp [timers, established])
    simpa using hopen
  | CLIENT_RECEIVE chunk =>
    have hcalls : ∃ o, receive s.c chunk a.ok = some o ∧ s'.trace = s.trace ++ o.acts ∧
        s'.c = o.client ∧ s.lws.Steady s'.lws := by
      simp only [Sys.callback, Option.map_eq_some_iff, Prod.mk.injEq] at h
      obtain ⟨o, ho, _, rfl⟩ := h
      have hsteady := s.lws.steady_performs o.acts
      refine ⟨o, ho, by split <;> rfl, by split <;> rfl, ?_⟩
      split
      · exact hsteady.trans (lws_context.steady_fail _ w)
      · exact hsteady
    obtain ⟨o, ho, htrace, hclient, hsteady⟩ := hcalls
    obtain ⟨frag, hc⟩ := receive_client ho
    have hpending : s'.c.ping_pending = s.c.ping_pending := by rw [hclient, hc]
    exact .of_steady hstep rfl hopen htrace hsteady hpending (receive_acts (fun _ _ => rfl) ho)
  | CLIENT_WRITEABLE =>
    have htaken : s.lws.Steady (s.lws.modify w fun i => { i with writable := false }) :=
      s.lws.steady_modify w (fun _ => id) (fun _ => id) fun _ => id
    simp only [Sys.callback] at h
    split at h
    · next hsends =>
      cases h
      have hsteady := htaken.trans (lws_context.steady_performs _ (writeable_ping s.c w).2)
      refine ⟨_, rfl, ?_⟩
      have hpinged : pinged w (writeable_ping s.c w).2 = [.ping] := by simp [pinged, writeable_ping]
      rw [pulses, calls_eq hstep rfl, Sys.setLws_c, hpinged]
      exact .ping hphase ⟨hsends, a, rfl⟩ (hsteady w hopen).2.1 (hsteady w hopen).2.2 rfl rfl
    · split at h <;> cases h <;>
        exact .of_steady hstep rfl hopen (List.append_nil _).symm htaken rfl Every.nil
  | TIMER =>
    have hcalls : s'.trace = s.trace ++ (timer s.c w).acts := by
      simp only [Sys.callback, Option.some.injEq, Prod.mk.injEq] at h
      obtain ⟨_, rfl⟩ := h
      split <;> rfl
    refine ⟨_, hcalls, ?_⟩
    rw [pulses, calls_eq hstep hcalls, timer_pinged]
    exact timer_beats hphase h
  | CLIENT_RECEIVE_PONG =>
    cases h
    refine ⟨_, rfl, ?_⟩
    rw [pulses, calls_eq hstep rfl, told, if_pos rfl]
    exact .pong hphase (lws_context.armed_performs (List.mem_singleton.mpr rfl) hphase) rfl
      (by simp [timers, receive_pong])
  | CLIENT_CONNECTION_ERROR _ | CLIENT_CLOSED =>
    cases h
    simp [hphase] at hopen
  | WSI_DESTROY => exact absurd rfl hr
  | CLIENT_APPEND_HANDSHAKE_HEADER =>
    cases h
    rw [hphase] at hopen
    cases hopen

/-- An open connection is the only one: callbacks of another one come only at its end. -/
theorem callback_beats_other {v : WsiId} {a : Answer} {r : Reason} {fs : List Frame}
    {app : Nat → List AppFrame} (henabled : s.lws.enables s.thread v r = true)
    (h : s.callback v a r = some (fs, s')) (hv : w ≠ v) (hconn : Conn [] s)
    (hopen : s'.lws.phase w = some .established)
    (hstep : system.step ⟨s, [], app⟩ (.event (.callback v r a)) = some ⟨s', fs, app⟩) :
    Beating w ⟨s, [], app⟩ ⟨s', fs, app⟩ (.event (.callback v r a)) := by
  have honly : s.thread = .running → s.lws.Live v → s.lws.phase w ≠ some .established :=
    fun hrun hlive hw => hv (((hconn.running hrun).up_of_live hlive).only w (.inr hw))
  cases r with
  | CLIENT_CONNECTION_ERROR _ | CLIENT_CLOSED =>
    cases h
    refine .of_steady hstep rfl hopen rfl (s.lws.steady_close v) ?_ Every.nil
    simp only [Sys.act_c, closed_pending]
  | WSI_DESTROY =>
    cases h
    refine .of_steady hstep rfl hopen rfl (s.lws.steady_remove v) ?_ Every.nil
    simp only [Sys.act_c, wsi_destroy_pending]
  | CLIENT_ESTABLISHED =>
    simp [lws_context.enables] at henabled
    cases h
    rw [Sys.act_lws, lws_context.phase_performs, Sys.setLws_lws, lws_context.phase_setPhase,
      if_neg hv] at hopen
    exact absurd hopen (honly henabled.1 (.inl henabled.2))
  | CLIENT_RECEIVE chunk =>
    simp [lws_context.enables] at henabled
    simp only [Sys.callback, Option.map_eq_some_iff, Prod.mk.injEq] at h
    obtain ⟨o, _, _, rfl⟩ := h
    refine absurd ?_ (honly henabled.1 (.inr henabled.2))
    split at hopen <;> simpa [hv] using hopen
  | CLIENT_WRITEABLE =>
    simp [lws_context.enables] at henabled
    refine absurd ?_ (honly henabled.1 (.inr henabled.2))
    simp only [Sys.callback] at h
    split at h
    · cases h
      simpa [hv] using hopen
    · split at h <;> cases h <;> simpa [hv] using hopen
  | TIMER =>
    simp [lws_context.enables] at henabled
    refine absurd ?_ (honly henabled.1.1 (.inr henabled.1.2))
    simp only [Sys.callback, Option.some.injEq, Prod.mk.injEq] at h
    obtain ⟨_, rfl⟩ := h
    split at hopen <;> simpa [hv] using hopen
  | CLIENT_RECEIVE_PONG =>
    simp [lws_context.enables] at henabled
    cases h
    exact absurd (by simpa using hopen) (honly henabled.1 (.inr henabled.2))
  | CLIENT_APPEND_HANDSHAKE_HEADER =>
    cases h
    exact .of_steady hstep rfl hopen (List.append_nil _).symm (.refl s.lws) rfl Every.nil

theorem deliver_beats {e : Event} {fs : List Frame} {app : Nat → List AppFrame}
    (h : s.deliver e = some (fs, s')) (hconn : Conn [] s)
    (hopen : s'.lws.phase w = some .established)
    (hstep : system.step ⟨s, [], app⟩ (.event e) = some ⟨s', fs, app⟩) :
    Beating w ⟨s, [], app⟩ ⟨s', fs, app⟩ (.event e) := by
  cases e with
  | callback v r a =>
    simp only [Sys.deliver, Option.ite_none_right_eq_some] at h
    by_cases hv : w = v
    · subst hv
      exact callback_beats h.1 h.2 hopen hstep
    · exact callback_beats_other h.1 h.2 hv hconn hopen hstep
  | service_thread =>
    simp only [Sys.deliver, Option.ite_none_right_eq_some, Option.some.injEq, Prod.mk.injEq] at h
    obtain ⟨_, _, rfl⟩ := h
    exact .of_steady hstep rfl hopen (List.append_nil _).symm (.refl s.lws) rfl Every.nil
  | event_wait_cancelled wsi =>
    simp only [Sys.deliver, Option.ite_none_right_eq_some, Option.some.injEq, Prod.mk.injEq] at h
    obtain ⟨_, _, rfl⟩ := h
    exact .of_steady hstep rfl hopen (List.append_nil _).symm (.refl s.lws) rfl Every.nil
  | poll now =>
    simp only [Sys.deliver, Option.ite_none_right_eq_some, Option.some.injEq, Prod.mk.injEq] at h
    obtain ⟨_, _, rfl⟩ := h
    exact .of_steady hstep rfl hopen (List.append_nil _).symm (.refl s.lws) rfl Every.nil
  | exit =>
    simp only [Sys.deliver, Option.ite_none_right_eq_some, Option.map_eq_some_iff,
      Prod.mk.injEq] at h
    obtain ⟨_, ⟨freed, q⟩, _, _, rfl⟩ := h
    exact .of_steady hstep rfl hopen rfl (s.lws.steady_performs _) rfl (Every.map (fun _ => rfl) freed)
  | context_destroyed =>
    simp only [Sys.deliver, Option.ite_none_right_eq_some, Option.some.injEq, Prod.mk.injEq] at h
    obtain ⟨_, _, rfl⟩ := h
    cases hopen

theorem svc_beats {f : Frame} {a : Answer} {rest fs : List Frame} {app : Nat → List AppFrame}
    (h : s.svc f a = some (fs, s')) (hopen : s'.lws.phase w = some .established)
    (hstep : system.step ⟨s, f :: rest, app⟩ (.svc a) = some ⟨s', fs ++ rest, app⟩) :
    Beating w ⟨s, f :: rest, app⟩ ⟨s', fs ++ rest, app⟩ (.svc a) := by
  cases f with
  | do_connect =>
    have hconnect : Every Act.timeless [.lws_client_connect_via_info (connect_info s.c)] :=
      Every.single rfl
    simp only [Sys.svc] at h
    split at h <;> cases h
    · exact .of_steady hstep rfl hopen rfl (s.lws.steady_connect 0) rfl hconnect
    · exact .of_steady hstep rfl hopen rfl (.refl s.lws) rfl hconnect
  | connection_error msg =>
    cases h
    exact .of_steady hstep rfl hopen rfl (.refl s.lws) (closed_pending s.c a.now) Every.nil
  | wsi_destroy v =>
    cases h
    exact .of_steady hstep rfl hopen rfl (.refl s.lws) (wsi_destroy_pending s.c v) Every.nil
  | connect_return wsi =>
    cases wsi <;> cases h <;> exact .of_steady hstep rfl hopen rfl (.refl s.lws) rfl Every.nil
  | has_data_check v | event_wait_cancelled =>
    cases h
    exact .of_steady hstep rfl hopen (List.append_nil _).symm (.refl s.lws) rfl Every.nil
  | lws_callback_on_writable v =>
    cases h
    exact .of_steady hstep rfl hopen rfl (s.lws.steady_performs _) rfl (Every.single rfl)
  | write v n more =>
    have hsteady := s.lws.steady_performs (writeable_write n v)
    have hacts := write_node_timeless n v
    simp only [Sys.svc] at h
    split at h <;> cases h
    · exact .of_steady hstep rfl hopen rfl (hsteady.trans (lws_context.steady_fail _ v)) rfl hacts
    · exact .of_steady hstep rfl hopen rfl hsteady rfl hacts

theorem app_beats {t : Nat} {f : AppFrame} {a : Answer} {svc : List Frame} {fs : List AppFrame}
    {app app' : Nat → List AppFrame} (h : s.app f a = some (fs, s'))
    (hopen : s'.lws.phase w = some .established)
    (hstep : system.step ⟨s, svc, app⟩ (.app t a) = some ⟨s', svc, app'⟩) :
    Beating w ⟨s, svc, app⟩ ⟨s', svc, app'⟩ (.app t a) := by
  cases f with
  | enqueue data is_binary =>
    cases data with
    | none =>
      cases h
      exact .of_steady hstep rfl hopen rfl (s.lws.steady_performs _) rfl (Every.single rfl)
    | some data =>
      cases h
      exact .of_steady hstep rfl hopen (List.append_nil _).symm (.refl s.lws) rfl Every.nil
  | enqueue_locked data is_binary =>
    simp only [Sys.app, Option.some.injEq, Prod.mk.injEq] at h
    obtain ⟨_, rfl⟩ := h
    refine .of_steady hstep rfl hopen rfl (s.lws.steady_performs _) ?_ (Every.single rfl)
    rcases enqueue_locked_spec s.c data is_binary a.ok with ⟨n, hc, _⟩ | hc <;>
      rw [Sys.act_c, hc]
  | enqueue_wake =>
    cases h
    exact .of_steady hstep rfl hopen (List.append_nil _).symm (.refl s.lws) rfl Every.nil
  | lws_cancel_service =>
    cases h
    exact .of_steady hstep rfl hopen rfl (s.lws.steady_performs _) rfl (Every.single rfl)
  | wsld_start =>
    simp only [Sys.app] at h
    split at h <;> cases h
    · cases hopen
    · exact .of_steady hstep rfl hopen (List.append_nil _).symm (.refl s.lws) rfl Every.nil
  | start_thread =>
    simp only [Sys.app] at h
    split at h <;> cases h
    · exact .of_steady hstep rfl hopen rfl (.refl s.lws) rfl (Every.single rfl)
    · exact .of_steady hstep rfl hopen rfl (.refl s.lws) rfl Every.nil
  | start_return =>
    cases h
    exact .of_steady hstep rfl hopen rfl (.refl s.lws) rfl Every.nil
  | wsld_stop =>
    simp only [Sys.app] at h
    split at h <;> cases h
    · exact .of_steady hstep rfl hopen rfl (.refl s.lws) rfl Every.nil
    · exact .of_steady hstep rfl hopen (List.append_nil _).symm (.refl s.lws) rfl Every.nil
  | stop_cancel =>
    cases h
    refine .of_steady hstep rfl hopen rfl (s.lws.steady_performs _) rfl ?_
    dsimp only
    split
    · exact Every.single rfl
    · exact Every.nil
  | stop_context =>
    simp only [Sys.app] at h
    split at h <;> cases h <;>
      exact .of_steady hstep rfl hopen (List.append_nil _).symm (.refl s.lws) rfl Every.nil
  | stop_join | stop_context_destroyed =>
    simp only [Sys.app, Option.ite_none_right_eq_some, Option.some.injEq, Prod.mk.injEq] at h
    obtain ⟨_, _, rfl⟩ := h
    exact .of_steady hstep rfl hopen rfl (.refl s.lws) rfl Every.nil
  | wsld_destroy =>
    simp only [Sys.app, Option.map_eq_some_iff, Prod.mk.injEq] at h
    obtain ⟨⟨freed, _⟩, _, _, rfl⟩ := h
    exact .of_steady hstep rfl hopen rfl (s.lws.steady_performs _) rfl
      ((Every.map (fun _ => rfl) freed).append (Every.single rfl))

/-- What any step does to the heartbeat of a connection that is open behind it. -/
theorem step_beats (hstep : system.step cfg l = some next) (hconn : Conn cfg.svc cfg.shared)
    (hopen : next.shared.lws.phase w = some .established) : Beating w cfg next l := by
  cases System.step_moves hstep with
  | event hdeliver => exact deliver_beats hdeliver hconn hopen hstep
  | svc hsvc => exact svc_beats hsvc hopen hstep
  | call _ _ =>
    exact .of_steady hstep rfl hopen (List.append_nil _).symm (.refl _) rfl Every.nil
  | app _ happ => exact app_beats happ hopen hstep

/-- The heartbeat of every open connection is alive, in every run. -/
theorem Follows.alive {c : wsld_client} (hc : c.Fresh) {ls : List Label}
    (h : system.Follows Any (initial c) ls cfg) (w : WsiId)
    (hopen : cfg.shared.lws.phase w = some .established) :
    Alive w cfg.shared.lws cfg.shared.c.ping_pending
      (system.observe (pulses w) (initial c) ls) := by
  induction h with
  | nil => cases hopen
  | @snoc ls mid last l hmid _ hstep ih =>
    obtain ⟨acts, _, hbeats⟩ := step_beats hstep (Reachable.conn ⟨c, hc, hmid.reaches⟩) hopen
    rw [hmid.observe_snoc]
    exact hbeats.alive ih

theorem timer_ret (c : wsld_client) (v : WsiId) : (timer c v).ret = -1 ↔ c.ping_pending = true := by
  cases hpending : c.ping_pending <;> simp [timer, hpending]

/-- Connection 0 is closed with a PING unanswered; on connection 1 a PONG comes that
    answers none, then a PING is written. -/
def unanswered_run : List Label :=
  connected_run ++ [.event (.callback 0 .TIMER {}), .event (.callback 0 .CLIENT_WRITEABLE {}),
    .svc {}, .event (.callback 0 .TIMER {})] ++ reconnected_run ++
  [.event (.callback 1 .CLIENT_RECEIVE_PONG {}), .event (.callback 1 .TIMER {}),
    .event (.callback 1 .CLIENT_WRITEABLE {}), .svc {}]

end lws_client.ws_client
