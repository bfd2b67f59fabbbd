import LwsClientDemo.Handles
import LwsClientDemo.WsClientV2.Connection

open interleaving

namespace lws_client.ws_client_v2

section sections

variable {s s' : Sys} {a : Answer}

/-- The section makes calls that lws takes on the connections as they are then. -/
abbrev Called (s s' : Sys) : Prop := Extends s'.lws.TakesAll s.trace s'.trace

theorem Called.act {c : wsl_client} {acts : List Act} (h : s.lws.TakesAll acts) :
    Called s (s.act (c, acts)) :=
  ⟨acts, rfl, lws_context.TakesAll.congr h fun w => by simp⟩

/-- The calls on `c->wsi` are taken by a connection it names. -/
theorem timer_set_taken {x : lws_context} {c : wsl_client} {w : WsiId} (hwsi : c.wsi = some w)
    (hopen : x.phase w = some .established) :
    x.TakesAll (if c.ping_interval_ms > 0 then
      onWsi c.wsi fun w => .lws_set_timer_usecs w (c.ping_interval_ms * 1000) else []) := by
  split
  · refine .onWsi fun v hv => ?_
    obtain rfl : w = v := Option.some.inj (hwsi.symm.trans hv)
    exact hopen
  · exact .nil

theorem request_writable_taken {x : lws_context} {c : wsl_client}
    (h : ∀ w, c.wsi = some w → x.Live w) : x.TakesAll (request_writable c) :=
  .onWsi h

theorem schedule_reconnect_handleless (c : wsl_client) (ret : Int) :
    Every Act.handleless (schedule_reconnect c ret).2 := by
  unfold schedule_reconnect
  dsimp only
  split
  · split
    · exact Every.single rfl
    · exact Every.pair rfl rfl
  · exact Every.single rfl

theorem connection_error_handleless (c : wsl_client) (msg : Option String) :
    Every Act.handleless (connection_error c msg).2 := by
  unfold connection_error
  dsimp only
  split
  · exact Every.nil
  · refine .append (.append (.append ?_ ?_) ?_) ?_ <;> exact Every.callIf rfl

theorem closed_handleless (c : wsl_client) : Every Act.handleless (closed c).2 := by
  unfold closed
  dsimp only
  split
  · exact Every.nil
  · exact (Every.callIf rfl).append (Every.callIf rfl)

/-- The callbacks that use `c->wsi` are those of the connection it names. -/
theorem callback_called {w : WsiId} {r : Reason} {fs : List Frame}
    (h : s.callback w a r = some (fs, s')) (henabled : s.lws.enables s.thread w r = true)
    (hpos : s.thread = .running → Position [] s) : Called s s' := by
  have hphase := fun hr => lws_context.phase_of_enables_ne henabled (r := r) hr
  cases r with
  | CLIENT_ESTABLISHED =>
    have hconnecting : s.lws.phase w = some .connecting := hphase (by simp)
    have hrun : s.thread = .running := by
      simp only [lws_context.enables, Bool.and_eq_true, beq_iff_eq] at henabled
      exact henabled.1
    have hup := (hpos hrun).up_of_live (.inl hconnecting)
    cases h
    have htimer := timer_set_taken (x := s.lws.setPhase w .established) hup.wsi
      (by simp [hconnecting])
    refine Called.act (s := s.setLws _) (.append (.append htimer ?_) ?_)
    · exact .of_every (Every.callIf rfl)
    · exact .of_every (Every.callIf rfl)
  | CLIENT_RECEIVE chunk =>
    simp only [Sys.callback, Option.map_eq_some_iff, Prod.mk.injEq] at h
    obtain ⟨o, ho, rfl, rfl⟩ := h
    refine ⟨o.acts, by split <;> rfl, .of_every ?_⟩
    exact receive_acts (fun _ _ => rfl) (fun _ _ => rfl) ho
  | CLIENT_WRITEABLE =>
    have hopen : s.lws.phase w = some .established := hphase (by simp)
    have hkept : ∀ v,
        (s.lws.modify w fun i => { i with writable := false }).phase v = s.lws.phase v :=
      fun v => s.lws.phase_modify_same w v fun _ => rfl
    simp only [Sys.callback] at h
    split at h
    · cases h
      refine ⟨_, rfl, .single (show lws_context.phase _ w = _ from ?_)⟩
      rw [Sys.act_lws, lws_context.phase_performs, Sys.setLws_lws, hkept, hopen]
    · split at h <;> cases h <;> exact .of_eq rfl .nil
  | TIMER =>
    have hopen : s.lws.phase w = some .established := hphase (by simp)
    have hrun : s.thread = .running := by
      simp only [lws_context.enables, Bool.and_eq_true, beq_iff_eq] at henabled
      exact henabled.1.1
    have hup := (hpos hrun).up_of_live (.inr hopen)
    simp only [Sys.callback, Option.some.injEq, Prod.mk.injEq] at h
    obtain ⟨rfl, rfl⟩ := h
    refine ⟨(timer s.c a.ret).acts, by split <;> rfl, ?_⟩
    have hasked : s.lws.TakesAll (callIf (hooked s.c.hooks (·.on_heartbeat_tick)) .on_heartbeat_tick) :=
      .of_every (Every.callIf rfl)
    have htaken : s.lws.TakesAll (timer s.c a.ret).acts := by
      unfold timer
      dsimp only
      split
      · exact hasked.append (timer_set_taken hup.wsi hopen)
      · split
        · exact hasked
        · refine hasked.append (request_writable_taken fun v hv => ?_)
          obtain rfl : w = v := Option.some.inj (hup.wsi.symm.trans hv)
          exact .inr hopen
    refine lws_context.TakesAll.congr htaken fun v => ?_
    have hfired : (s.lws.modify w fun i => { i with timer := none }).phase v = s.lws.phase v :=
      s.lws.phase_modify_same w v fun _ => rfl
    split <;> simp [hfired]
  | CLIENT_RECEIVE_PONG =>
    have hopen : s.lws.phase w = some .established := hphase (by simp)
    have hrun : s.thread = .running := by
      simp only [lws_context.enables, Bool.and_eq_true, beq_iff_eq] at henabled
      exact henabled.1
    have hup := (hpos hrun).up_of_live (.inr hopen)
    cases h
    exact .act (timer_set_taken hup.wsi hopen)
  | CLIENT_CONNECTION_ERROR msg =>
    cases h
    exact Called.act (s := s.setLws _) (.of_every (connection_error_handleless s.c msg))
  | CLIENT_CLOSED =>
    cases h
    exact Called.act (s := s.setLws _) (.of_every (closed_handleless s.c))
  | WSI_DESTROY =>
    cases h
    exact ⟨[], rfl, .nil⟩
  | CLIENT_APPEND_HANDSHAKE_HEADER =>
    have hconnecting : s.lws.phase w = some .connecting := hphase (by simp)
    have hlive : s.lws.Live w := .inl hconnecting
    cases h
    exact .act (.callIf hlive)

theorem deliver_called {e : Event} {fs : List Frame} (h : s.deliver e = some (fs, s'))
    (hpos : s.thread = .running → Position [] s) : Called s s' := by
  cases e with
  | callback w r answer =>
    simp only [Sys.deliver, Option.ite_none_right_eq_some] at h
    exact callback_called h.2 h.1 hpos
  | exit =>
    simp only [Sys.deliver, Option.ite_none_right_eq_some, Option.map_eq_some_iff,
      Prod.mk.injEq] at h
    obtain ⟨_, ⟨freed, q⟩, _, rfl, rfl⟩ := h
    exact ⟨_, rfl, .of_every (Every.map (fun _ => rfl) freed)⟩
  | service_thread | event_wait_cancelled _ | sul_reconnect_cb | context_destroyed =>
    simp only [Sys.deliver, Option.ite_none_right_eq_some, Option.some.injEq, Prod.mk.injEq] at h
    obtain ⟨_, rfl, rfl⟩ := h
    exact .of_eq rfl .nil

/-- Inside a connect call, where `c->wsi` need not be a connection lws has. -/
def Frame.connects : Frame → Prop
  | .do_connect | .connect_return false => True
  | _ => False

/-- Outside a connect call the running service thread has in `c->wsi` a live
    connection or NULL. -/
def Points (fs : List Frame) (s : Sys) : Prop :=
  s.thread = .running → (∀ w, s.c.wsi = some w → s.lws.Live w) ∨ ∃ f ∈ fs, f.connects

theorem Points.of_none {fs : List Frame} (h : s.c.wsi = none) : Points fs s :=
  fun _ => .inl (by simp [h])

/-- The same pointer or NULL, and the same connections. -/
theorem Points.congr {fs gs : List Frame} (h : Points fs s)
    (hthread : s'.thread = .running → s.thread = .running)
    (hwsi : s'.c.wsi = s.c.wsi ∨ s'.c.wsi = none) (hphase : ∀ v, s'.lws.phase v = s.lws.phase v)
    (hmem : ∀ f ∈ fs, f.connects → f ∈ gs) : Points gs s' := by
  intro hrun
  rcases h (hthread hrun) with hlive | ⟨f, hf, hconnects⟩
  · refine .inl fun w hw => ?_
    rcases hwsi with heq | hnone
    · have hkept := hlive w (heq ▸ hw)
      simpa only [lws_context.Live, hphase] using hkept
    · rw [hnone] at hw
      cases hw
  · exact .inr ⟨f, hmem f hf hconnects, hconnects⟩

theorem svc_points {f : Frame} {rest fs : List Frame} (h : s.svc f a = some (fs, s'))
    (hpoints : Points (f :: rest) s) : Points (fs ++ rest) s' := by
  have hrest : ∀ {gs : List Frame}, ¬ f.connects → ∀ g ∈ f :: rest, g.connects → g ∈ gs ++ rest := by
    intro gs hf g hg hconnects
    rcases List.mem_cons.mp hg with rfl | hmem
    · exact absurd hconnects hf
    · exact List.mem_append_right gs hmem
  cases f with
  | do_connect =>
    simp only [Sys.svc] at h
    split at h <;> cases h
    · refine fun _ => .inl fun w hw => ?_
      obtain rfl : s.lws.next = w := Option.some.inj hw
      simp [lws_context.Live, lws_context.performs, lws_context.perform]
    · exact fun _ => .inr ⟨.connect_return false, by simp, trivial⟩
  | connection_error msg =>
    cases h
    refine .of_none ?_
    obtain ⟨n, hc⟩ := connection_error_client s.c msg
    rw [Sys.act_c, hc]
  | wsi_destroy w =>
    cases h
    refine hpoints.congr id ?_ (fun v => by simp) (hrest id)
    rw [Sys.act_c]
    unfold wsi_destroy
    split
    · exact .inr rfl
    · exact .inl rfl
  | connect_return connected =>
    cases connected <;> cases h
    · exact .of_none rfl
    · exact hpoints.congr id (.inl rfl) (fun _ => rfl) (hrest id)
  | schedule_reconnect =>
    cases h
    obtain ⟨_, _, _, hc, _⟩ := schedule_reconnect_client s.c a.ret
    exact hpoints.congr id (.inl (by rw [Sys.act_c, hc])) (fun v => by simp) (hrest id)
  | write w n =>
    simp only [Sys.svc] at h
    split at h <;> cases h <;>
      exact hpoints.congr id (.inl rfl) (fun v => by simp) (hrest id)
  | q_head_check | lws_callback_on_writable | event_wait_cancelled =>
    cases h
    exact hpoints.congr id (.inl rfl) (fun v => by simp) (hrest id)

theorem callback_points {w : WsiId} {r : Reason} {fs : List Frame}
    (h : s.callback w a r = some (fs, s')) (hpoints : Points [] s) : Points fs s' := by
  have hmem : ∀ f ∈ ([] : List Frame), f.connects → f ∈ fs := by simp
  cases r with
  | CLIENT_ESTABLISHED =>
    cases h
    intro hrun
    rcases hpoints hrun with hlive | ⟨f, hf, _⟩
    · refine .inl fun v hv => ?_
      have hkept := hlive v hv
      by_cases hvw : v = w
      · subst hvw
        rcases hkept with hphase | hphase <;> simp [lws_context.Live, hphase]
      · simpa [lws_context.Live, hvw] using hkept
    · cases hf
  | CLIENT_RECEIVE chunk =>
    simp only [Sys.callback, Option.map_eq_some_iff, Prod.mk.injEq] at h
    obtain ⟨o, ho, rfl, rfl⟩ := h
    obtain ⟨frag, hc⟩ := receive_client ho
    refine hpoints.congr ?_ (.inl ?_) (fun v => ?_) hmem
    · split <;> exact id
    · split <;> simp [hc]
    · split <;> simp
  | CLIENT_WRITEABLE =>
    have hkept : ∀ v,
        (s.lws.modify w fun i => { i with writable := false }).phase v = s.lws.phase v :=
      fun v => s.lws.phase_modify_same w v fun _ => rfl
    simp only [Sys.callback] at h
    split at h
    · cases h
      exact hpoints.congr id (.inl rfl)
        (fun v => by rw [Sys.act_lws, lws_context.phase_performs, Sys.setLws_lws, hkept]) hmem
    · split at h <;> cases h <;> exact hpoints.congr id (.inl rfl) hkept hmem
  | TIMER =>
    have hfired : ∀ v, (s.lws.modify w fun i => { i with timer := none }).phase v = s.lws.phase v :=
      fun v => s.lws.phase_modify_same w v fun _ => rfl
    simp only [Sys.callback, Option.some.injEq, Prod.mk.injEq] at h
    obtain ⟨rfl, rfl⟩ := h
    refine hpoints.congr ?_ (.inl ?_) (fun v => ?_) hmem
    · split <;> exact id
    · rcases timer_client s.c a.ret with hc | hc <;> split <;> simp [hc]
    · split <;> simp [hfired]
  | CLIENT_RECEIVE_PONG | CLIENT_APPEND_HANDSHAKE_HEADER =>
    cases h
    exact hpoints.congr id (.inl rfl) (fun v => by simp) hmem
  | CLIENT_CONNECTION_ERROR msg =>
    cases h
    obtain ⟨n, hc⟩ := connection_error_client s.c msg
    exact .of_none (by rw [Sys.act_c, hc])
  | CLIENT_CLOSED =>
    cases h
    obtain ⟨n, hc⟩ := closed_client s.c
    exact .of_none (by rw [Sys.act_c, hc])
  | WSI_DESTROY =>
    cases h
    intro hrun
    rcases hpoints hrun with hlive | ⟨f, hf, _⟩
    · refine .inl fun v hv => ?_
      rw [Sys.act_c, wsi_destroy] at hv
      split at hv
      · cases hv
      · next hne =>
        have hvw : v ≠ w := fun heq => hne (heq ▸ hv)
        simpa [lws_context.Live, hvw] using hlive v hv
    · cases hf

theorem deliver_points {e : Event} {fs : List Frame} (h : s.deliver e = some (fs, s'))
    (hpoints : Points [] s) : Points fs s' := by
  cases e with
  | callback w r answer =>
    simp only [Sys.deliver, Option.ite_none_right_eq_some] at h
    exact callback_points h.2 hpoints
  | service_thread =>
    simp only [Sys.deliver, Option.ite_none_right_eq_some, Option.some.injEq, Prod.mk.injEq] at h
    obtain ⟨_, rfl, rfl⟩ := h
    exact fun _ => .inr ⟨.do_connect, by simp, trivial⟩
  | event_wait_cancelled _ | sul_reconnect_cb =>
    simp only [Sys.deliver, Option.ite_none_right_eq_some, Option.some.injEq, Prod.mk.injEq] at h
    obtain ⟨_, rfl, rfl⟩ := h
    exact hpoints.congr id (.inl rfl) (fun _ => rfl) (by simp)
  | exit =>
    simp only [Sys.deliver, Option.ite_none_right_eq_some, Option.map_eq_some_iff,
      Prod.mk.injEq] at h
    obtain ⟨_, ⟨freed, q⟩, _, rfl, rfl⟩ := h
    exact fun hrun => by cases hrun
  | context_destroyed =>
    simp only [Sys.deliver, Option.ite_none_right_eq_some, Option.some.injEq, Prod.mk.injEq] at h
    obtain ⟨_, rfl, rfl⟩ := h
    exact fun hrun => by cases hrun

/-- A new context is made while no service thread runs. -/
theorem app_points {f : AppFrame} {fs : List AppFrame} {gs : List Frame}
    (h : s.app f a = some (fs, s')) (howner : f.sends = true ∨ Owner (some f) s)
    (hpoints : Points gs s) : Points gs s' := by
  have hmem : ∀ g ∈ gs, g.connects → g ∈ gs := fun _ hg _ => hg
  by_cases hsends : f.sends = true
  · have hlink := app_sends_link h hsends
    have hthread := (app_sends h hsends).2.1
    exact hpoints.congr hthread.symm.trans (.inl hlink.wsi) hlink.phase hmem
  · replace howner := howner.resolve_left hsends
    cases f with
    | enqueue_msg _ _ | enqueue_msg_locked _ _ | enqueue_msg_wake | lws_cancel_service =>
      exact absurd rfl hsends
    | wsl_start =>
      simp only [Sys.app] at h
      split at h
      · cases h
        exact hpoints
      · next hstarted =>
        have hthread : s.thread = .none := by simpa [Owner, hstarted] using howner
        split at h <;> cases h
        · exact fun hrun => by simp [hthread] at hrun
        · exact hpoints
    | start_thread =>
      simp only [Sys.app] at h
      split at h <;> cases h
      · exact fun hrun => by cases hrun
      · exact hpoints.congr id (.inl rfl) (fun v => by simp) hmem
    | wsl_stop =>
      simp only [Sys.app] at h
      split at h <;> cases h
      · exact hpoints.congr id (.inl rfl) (fun v => by simp) hmem
      · exact hpoints
    | stop_context =>
      simp only [Sys.app] at h
      split at h <;> cases h <;> exact fun hrun => by cases hrun
    | stop_join | stop_context_destroyed =>
      simp only [Sys.app, Option.ite_none_right_eq_some, Option.some.injEq, Prod.mk.injEq] at h
      obtain ⟨_, rfl, rfl⟩ := h
      exact hpoints.congr id (.inl rfl) (fun v => by simp) hmem
    | stop_return =>
      cases h
      exact .of_none rfl
    | start_return | stop_cancel | wsl_destroy =>
      cases h
      exact hpoints.congr id (.inl rfl) (fun v => by simp) hmem

/-- A section of a connection runs while the one in `c->wsi` is open. -/
theorem Position.opened {w : WsiId} {f : Frame} {rest : List Frame} (h : Position (f :: rest) s)
    (hf : f.sending w) : ∃ v, f.sending v ∧ s.c.wsi = some v ∧ s.lws.phase v = some .established := by
  cases h with
  | up _ hfs _ | down hfs _ =>
    rcases hfs with hfs | hfs | hfs <;> cases hfs <;> exact absurd hf id
  | sending v g hfs hg hup hstate =>
    cases hfs
    exact ⟨v, hg, hup.wsi, hup.established hstate⟩
  | connect hfs _ _ _ =>
    cases hfs
    exact absurd hf id
  | failing gs hfs hgs _ _ =>
    cases gs with
    | nil =>
      cases hfs
      exact absurd hf id
    | cons g gs =>
      obtain ⟨rfl, _⟩ := List.cons.inj hfs
      have hnested := hgs f (by simp)
      cases f <;> first | exact absurd hf id | cases hnested

/-- EVENT_WAIT_CANCELLED uses `c->wsi` whatever `state` is, the other sections
    only on their open connection. -/
theorem svc_called {f : Frame} {rest fs : List Frame} (h : s.svc f a = some (fs, s'))
    (hrun : s.thread = .running) (hpos : Position (f :: rest) s) (hpoints : Points (f :: rest) s)
    (hrest : f = .event_wait_cancelled → rest = []) : Called s s' := by
  cases f with
  | do_connect =>
    simp only [Sys.svc] at h
    split at h <;> cases h <;> exact ⟨_, rfl, .single trivial⟩
  | connection_error msg =>
    cases h
    exact .act (.of_every (connection_error_handleless s.c msg))
  | schedule_reconnect =>
    cases h
    exact .act (.of_every (schedule_reconnect_handleless s.c a.ret))
  | connect_return connected =>
    cases connected <;> cases h
    · exact ⟨[], rfl, .nil⟩
    · exact .of_eq rfl .nil
  | lws_callback_on_writable =>
    obtain ⟨v, _, hwsi, hopen⟩ := hpos.opened (w := 0) trivial
    cases h
    refine .act (request_writable_taken fun u hu => ?_)
    obtain rfl : v = u := Option.some.inj (hwsi.symm.trans hu)
    exact .inr hopen
  | write w n =>
    obtain ⟨v, rfl, _, hopen⟩ := hpos.opened (w := w) rfl
    obtain ⟨acts, htrace, htaken⟩ : Called s (s.act (s.c, writeable_write n w)) :=
      .act (.pair hopen trivial)
    simp only [Sys.svc] at h
    split at h <;> cases h
    · exact ⟨acts, htrace, lws_context.TakesAll.congr htaken fun v => by simp⟩
    · exact ⟨acts, htrace, htaken⟩
  | event_wait_cancelled =>
    obtain rfl := hrest rfl
    cases h
    have hlive : ∀ w, s.c.wsi = some w → s.lws.Live w := by
      rcases hpoints hrun with hlive | ⟨f, hf, hconnects⟩
      · exact hlive
      · obtain rfl := List.mem_singleton.mp hf
        exact absurd hconnects id
    refine .act ?_
    unfold event_wait_cancelled
    split
    · exact .nil
    · exact request_writable_taken hlive
  | wsi_destroy _ =>
    cases h
    exact ⟨[], rfl, .nil⟩
  | q_head_check =>
    cases h
    exact .of_eq rfl .nil

theorem Position.cancelled_alone {rest : List Frame}
    (h : Position (.event_wait_cancelled :: rest) s) : rest = [] := by
  cases h with
  | up _ hfs _ | down hfs _ =>
    rcases hfs with hfs | hfs | hfs <;> cases hfs
    rfl
  | sending _ _ hfs hf _ _ =>
    cases hfs
    exact absurd hf id
  | connect hfs _ _ _ => cases hfs
  | failing gs hfs hgs _ _ =>
    cases gs with
    | nil => cases hfs
    | cons g gs =>
      obtain ⟨rfl, _⟩ := List.cons.inj hfs
      have hnested := hgs .event_wait_cancelled (by simp)
      cases hnested

end sections

variable {cfg cfg' : Config} {l : Label}

theorem Points.step (hmove : system.Moves cfg l cfg') (hlife : Lifecycle cfg)
    (h : Points cfg.svc cfg.shared) : Points cfg'.svc cfg'.shared := by
  cases hmove with
  | event hdeliver => exact deliver_points hdeliver h
  | svc hsvc => exact svc_points hsvc h
  | call _ _ => exact h
  | app htop happ =>
    obtain rfl := hlife.rest_nil htop
    exact app_points happ (hlife.frame htop) h

theorem Reachable.points (h : Reachable cfg) : Points cfg.svc cfg.shared := by
  obtain ⟨c, hc, hreach⟩ := h
  exact hreach.invariant_under (fun mid hmid => Reachable.lifecycle ⟨c, hc, hmid⟩)
    (.of_none hc.wsi) fun _ _ _ hlife _ hmove => Points.step hmove hlife

/-- Every call on a connection is made while lws has that connection, and on an
    open one where it writes or sets the timer, though the handlers take it from
    `c->wsi`, which a connect call that fails leaves pointing nowhere. -/
theorem calls_on_own_wsi (h : Reachable cfg) (hstep : system.step cfg l = some cfg') :
    ∃ acts, cfg'.shared.trace = cfg.shared.trace ++ acts ∧ cfg'.shared.lws.TakesAll acts := by
  have hlife := h.lifecycle
  have hpoints := h.points
  cases System.step_moves hstep with
  | event hdeliver => exact deliver_called hdeliver h.conn.running
  | svc hsvc =>
    have hrun := hlife.busy (by simp)
    have hpos := h.conn.running hrun
    exact svc_called hsvc hrun hpos hpoints fun hf => (hf ▸ hpos).cancelled_alone
  | call _ _ => exact ⟨[], by simp, .nil⟩
  | app _ happ => exact (app_makes (fun _ happ _ => happ) happ).mono fun _ => Meets.of_app

/-- EVENT_WAIT_CANCELLED asks for WRITEABLE on a connection that is not open yet. -/
theorem calls_on_own_wsi_connecting : ∃ cfg cfg' : Config, Reachable cfg ∧
    system.step cfg (.svc {}) = some cfg' ∧ cfg.shared.lws.phase 0 = some .connecting ∧
    (cfg'.shared.trace.map Act.handleless).getLast? = some false ∧
    ∃ acts, cfg'.shared.trace = cfg.shared.trace ++ acts ∧ cfg'.shared.lws.TakesAll acts := by
  obtain ⟨cfg, hfollows, hphase, hlast⟩ : ∃ cfg,
      system.Follows Any (initial (wsl_create "localhost" 9000 none true))
        [.call 0 .wsl_start, .app 0 {}, .app 0 {}, .app 0 {}, .event .service_thread,
          .svc { connect := .accepted }, .svc {}, .call 1 (.enqueue_msg (some ⟨[104], one_byte⟩) false),
          .app 1 {}, .app 1 {}, .app 1 {}, .app 1 {}, .event (.event_wait_cancelled true)] cfg ∧
      cfg.shared.lws.phase 0 = some .connecting ∧
      (system.step cfg (.svc {})).any
        (fun next => (next.shared.trace.map Act.handleless).getLast? == some false) = true :=
    System.exists_follows_of_run (by decide)
  have hreach : Reachable cfg := ⟨_, wsl_create_fresh _ _ _ _, hfollows.reaches⟩
  cases hstep : system.step cfg (.svc {}) with
  | none => simp [hstep] at hlast
  | some next =>
    simp only [hstep, Option.any_some, beq_iff_eq] at hlast
    exact ⟨cfg, next, hreach, hstep, hphase, hlast, calls_on_own_wsi hreach hstep⟩

end lws_client.ws_client_v2
