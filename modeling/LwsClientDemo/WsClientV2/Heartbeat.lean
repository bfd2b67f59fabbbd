import LwsClientDemo.WsClientV2.Connection

open interleaving

namespace lws_client.ws_client_v2

/-- Every open connection has its timer armed, or a callback of it has returned
    nonzero. -/
def Beat (s : Sys) : Prop :=
  ∀ w, s.lws.phase w = some .established → s.lws.Armed w ∨ s.lws.Failed w

/-- No TIMER goes on to request a ping: a hook claims the tick, or a ping is
    still pending. -/
def tick_kept (cfg : Config) : Label → Prop
  | .event (.callback _ .TIMER a) =>
    (hooked cfg.shared.c.hooks (·.on_heartbeat_tick) = true ∧ a.ret ≠ 0) ∨
      cfg.shared.c.ping_pending = true
  | _ => True

instance (cfg : Config) (l : Label) : Decidable (tick_kept cfg l) := by
  unfold tick_kept
  split <;> infer_instance

theorem Beat.steady {s s' : Sys} (h : Beat s) (hs : s.lws.Steady s'.lws) : Beat s' := by
  intro w hw
  obtain ⟨hopen, harmed, hfailed⟩ := hs w hw
  exact (h w hopen).imp harmed hfailed

/-- The heartbeat timer is set on the one open connection. -/
theorem timer_set_mem {s : Sys} {w : WsiId} (hup : Up s w) (hping : s.c.ping_interval_ms > 0) :
    .lws_set_timer_usecs w (s.c.ping_interval_ms * 1000) ∈
      (if s.c.ping_interval_ms > 0 then
        onWsi s.c.wsi fun w => .lws_set_timer_usecs w (s.c.ping_interval_ms * 1000) else []) := by
  rw [if_pos hping, hup.wsi]
  simp [onWsi]

theorem timer_fires {c : wsl_client} {tick : Int}
    (hclaimed : ¬ (hooked c.hooks (·.on_heartbeat_tick) = true ∧ tick ≠ 0)) :
    (timer c tick).ret = if c.ping_pending then -1 else 0 := by
  unfold timer
  dsimp only
  rw [if_neg hclaimed]
  split <;> rfl

theorem timer_claimed {s : Sys} {w : WsiId} {tick : Int} (hup : Up s w)
    (hping : s.c.ping_interval_ms > 0)
    (hclaimed : hooked s.c.hooks (·.on_heartbeat_tick) = true ∧ tick ≠ 0) :
    (timer s.c tick).ret = 0 ∧
      .lws_set_timer_usecs w (s.c.ping_interval_ms * 1000) ∈ (timer s.c tick).acts := by
  have hset := timer_set_mem hup hping
  unfold timer
  dsimp only
  rw [if_pos hclaimed]
  exact ⟨rfl, List.mem_append_right _ hset⟩

/-- TIMER sets the timer again, or fails the connection, unless it goes on to
    request a ping. -/
theorem timer_beat {s : Sys} {w : WsiId} {a : Answer} (hup : Up s w)
    (hopen : s.lws.phase w = some .established) (hping : s.c.ping_interval_ms > 0)
    (hkept : (hooked s.c.hooks (·.on_heartbeat_tick) = true ∧ a.ret ≠ 0) ∨ s.c.ping_pending = true)
    {fs : List Frame} {s' : Sys} (h : s.callback w a .TIMER = some (fs, s')) : Beat s' := by
  have hfired : ∀ v, (s.lws.modify w fun i => { i with timer := none }).phase v = s.lws.phase v :=
    fun v => s.lws.phase_modify_same w v fun _ => rfl
  have hother : ∀ v, s'.lws.phase v = some .established → v = w := by
    intro v hv
    refine hup.only v (.inr ?_)
    rw [← hv]
    simp only [Sys.callback, Option.some.injEq, Prod.mk.injEq] at h
    obtain ⟨_, rfl⟩ := h
    split <;> simp [hfired]
  intro v hv
  obtain rfl := hother v hv
  simp only [Sys.callback, Option.some.injEq, Prod.mk.injEq] at h
  obtain ⟨_, rfl⟩ := h
  by_cases hclaimed : hooked s.c.hooks (·.on_heartbeat_tick) = true ∧ a.ret ≠ 0
  · left
    obtain ⟨hret, hset⟩ := timer_claimed hup hping hclaimed
    rw [Sys.setLws_c, hret, if_neg (by simp)]
    exact lws_context.armed_performs hset (by rw [Sys.setLws_lws, hfired, hopen])
  · right
    have hpending := hkept.resolve_left hclaimed
    have hret : (timer s.c a.ret).ret = -1 := by rw [timer_fires hclaimed, hpending]; rfl
    rw [Sys.setLws_c, hret, if_pos (by decide)]
    apply lws_context.failed_fail
    rw [Sys.act_lws, lws_context.phase_performs, Sys.setLws_lws, hfired, hopen]

/-- A callback under the condition keeps the open connection beating. -/
theorem callback_beat {w : WsiId} {a : Answer} {r : Reason} {s s' : Sys} {fs : List Frame}
    (h : s.callback w a r = some (fs, s')) (henabled : s.callback_enabled w r = true)
    (hconn : Conn [] s) (hping : s.c.ping_interval_ms > 0) {app : Nat → List AppFrame}
    (hok : tick_kept ⟨s, [], app⟩ (.event (.callback w r a))) (hbeat : Beat s) : Beat s' := by
  cases r with
  | CLIENT_ESTABLISHED =>
    simp [Sys.callback_enabled, lws_context.enables] at henabled
    have hup := (hconn.running henabled.1).up_of_live (.inl henabled.2)
    cases h
    intro v hv
    rw [Sys.act_lws, lws_context.phase_performs, Sys.setLws_lws, lws_context.phase_setPhase] at hv
    have hopen : (s.lws.setPhase w .established).phase w = some .established := by
      simp [henabled.2]
    have hvw : v = w := by
      by_contra hne
      rw [if_neg hne] at hv
      exact hne (hup.only v (.inr hv))
    subst hvw
    left
    have hset : .lws_set_timer_usecs v (s.c.ping_interval_ms * 1000) ∈ (established s.c).2 :=
      List.mem_append_left _ (List.mem_append_left _ (timer_set_mem hup hping))
    exact lws_context.armed_performs hset hopen
  | CLIENT_RECEIVE chunk =>
    simp only [Sys.callback, Option.map_eq_some_iff, Prod.mk.injEq] at h
    obtain ⟨o, _, _, rfl⟩ := h
    have hsteady := s.lws.steady_performs o.acts
    apply hbeat.steady
    split
    · exact hsteady.trans (lws_context.steady_fail _ w)
    · exact hsteady
  | CLIENT_WRITEABLE =>
    have htaken : s.lws.Steady (s.lws.modify w fun i => { i with writable := false }) :=
      s.lws.steady_modify w (fun _ => id) (fun _ => id) fun _ => id
    simp only [Sys.callback] at h
    split at h
    · cases h
      exact hbeat.steady (htaken.trans (lws_context.steady_performs _ _))
    · split at h <;> cases h <;> exact hbeat.steady htaken
  | TIMER =>
    simp [Sys.callback_enabled, lws_context.enables] at henabled
    have hup := (hconn.running henabled.1.1).up_of_live (.inr henabled.1.2)
    exact timer_beat hup henabled.1.2 hping hok h
  | CLIENT_RECEIVE_PONG | CLIENT_APPEND_HANDSHAKE_HEADER =>
    cases h
    exact hbeat.steady (lws_context.steady_performs _ _)
  | CLIENT_CONNECTION_ERROR msg | CLIENT_CLOSED =>
    simp only [Sys.callback, Option.some.injEq, Prod.mk.injEq] at h
    obtain ⟨_, rfl⟩ := h
    exact hbeat.steady ((lws_context.steady_close _ w).trans (lws_context.steady_performs _ _))
  | WSI_DESTROY =>
    simp only [Sys.callback, Option.some.injEq, Prod.mk.injEq] at h
    obtain ⟨_, rfl⟩ := h
    exact hbeat.steady ((lws_context.steady_remove _ w).trans (lws_context.steady_performs _ _))

theorem deliver_beat {e : Event} {s s' : Sys} {fs : List Frame}
    (h : s.deliver e = some (fs, s')) (hconn : Conn [] s) (hping : s.c.ping_interval_ms > 0)
    {app : Nat → List AppFrame} (hok : tick_kept ⟨s, [], app⟩ (.event e)) (hbeat : Beat s) :
    Beat s' := by
  cases e with
  | callback w r a =>
    simp only [Sys.deliver, Option.ite_none_right_eq_some] at h
    exact callback_beat h.2 h.1 hconn hping hok hbeat
  | service_thread | event_wait_cancelled _ | sul_reconnect_cb =>
    simp only [Sys.deliver, Option.ite_none_right_eq_some, Option.some.injEq, Prod.mk.injEq] at h
    obtain ⟨_, _, rfl⟩ := h
    exact hbeat
  | exit =>
    simp only [Sys.deliver, Option.ite_none_right_eq_some, Option.map_eq_some_iff,
      Prod.mk.injEq] at h
    obtain ⟨_, _, _, _, rfl⟩ := h
    exact hbeat.steady (lws_context.steady_performs _ _)
  | context_destroyed =>
    simp only [Sys.deliver, Option.ite_none_right_eq_some, Option.some.injEq, Prod.mk.injEq] at h
    obtain ⟨_, _, rfl⟩ := h
    intro v hv
    cases hv

theorem svc_beat {f : Frame} {a : Answer} {s s' : Sys} {rest fs : List Frame}
    (h : s.svc f a = some (fs, s')) (hpos : Position (f :: rest) s) (hbeat : Beat s) : Beat s' := by
  cases f with
  | do_connect =>
    have hnone := hpos.connecting
    simp only [Sys.svc] at h
    split at h
    · cases h
      intro v hv
      rw [Sys.setLws_lws, lws_context.phase_connect] at hv
      split at hv
      · cases hv
      · exact absurd (.inr (by simpa using hv)) (hnone v)
    · cases h
      intro v hv
      exact absurd (.inr hv) (hnone v)
  | q_head_check =>
    cases h
    exact hbeat
  | connect_return connected =>
    simp only [Sys.svc] at h
    split at h <;> cases h
    · exact hbeat
    · exact hbeat.steady (lws_context.steady_performs _ _)
  | write w n =>
    have hsteady := s.lws.steady_performs (writeable_write n w)
    simp only [Sys.svc] at h
    split at h <;> cases h
    · exact hbeat.steady (hsteady.trans (lws_context.steady_fail _ w))
    · exact hbeat.steady hsteady
  | connection_error msg | wsi_destroy w | schedule_reconnect | lws_callback_on_writable
    | event_wait_cancelled =>
    simp only [Sys.svc, Option.some.injEq, Prod.mk.injEq] at h
    obtain ⟨_, rfl⟩ := h
    exact hbeat.steady (lws_context.steady_performs _ _)

theorem app_beat {f : AppFrame} {a : Answer} {s s' : Sys} {fs : List AppFrame}
    (h : s.app f a = some (fs, s')) (hbeat : Beat s) : Beat s' := by
  cases f with
  | enqueue_msg data is_binary =>
    cases data <;> cases h
    · exact hbeat.steady (lws_context.steady_performs _ _)
    · exact hbeat
  | wsl_start =>
    simp only [Sys.app] at h
    split at h
    · cases h
      exact hbeat
    · split at h <;> cases h
      · intro v hv
        cases hv
      · exact hbeat
  | start_thread | wsl_stop | stop_context =>
    simp only [Sys.app] at h
    split at h <;> cases h <;> exact hbeat
  | stop_join | stop_context_destroyed =>
    simp only [Sys.app, Option.ite_none_right_eq_some, Option.some.injEq, Prod.mk.injEq] at h
    obtain ⟨_, _, rfl⟩ := h
    exact hbeat.steady (lws_context.steady_performs _ _)
  | enqueue_msg_wake =>
    cases h
    exact hbeat
  | enqueue_msg_locked _ _ | lws_cancel_service | start_return | stop_cancel | stop_return
    | wsl_destroy =>
    simp only [Sys.app, Option.some.injEq, Prod.mk.injEq] at h
    obtain ⟨_, rfl⟩ := h
    exact hbeat.steady (lws_context.steady_performs _ _)

theorem beat_step {cfg cfg' : Config} {l : Label} (hmove : system.Moves cfg l cfg')
    (hok : tick_kept cfg l) (hlife : Lifecycle cfg) (hconn : Conn cfg.svc cfg.shared)
    (h : cfg.shared.c.ping_interval_ms > 0 ∧ Beat cfg.shared) :
    cfg'.shared.c.ping_interval_ms > 0 ∧ Beat cfg'.shared := by
  obtain ⟨hping, hbeat⟩ := h
  have hkept : ∀ {c c' : wsl_client}, c.SameConfig c' → c.ping_interval_ms > 0 →
      c'.ping_interval_ms > 0 := by
    rintro c _ ⟨_, _, _, _, _, _, _, _, _, _, _, _, rfl⟩ hpos
    exact hpos
  cases hmove with
  | event hdeliver =>
    exact ⟨hkept (deliver_spec hdeliver).1 hping, deliver_beat hdeliver hconn hping hok hbeat⟩
  | svc hsvc =>
    exact ⟨hkept (svc_spec hsvc).1 hping,
      svc_beat hsvc (hconn.running (hlife.busy (by simp))) hbeat⟩
  | call _ _ => exact ⟨hping, hbeat⟩
  | app _ happ => exact ⟨hkept (app_spec happ).1 hping, app_beat happ hbeat⟩

/-- TIMER that goes on to request a ping leaves the timer unarmed and returns 0. -/
theorem tick_lost {s s' : Sys} {w : WsiId} {a : Answer} {fs : List Frame}
    (h : s.deliver (.callback w .TIMER a) = some (fs, s')) {app : Nat → List AppFrame}
    (hlost : ¬ tick_kept ⟨s, [], app⟩ (.event (.callback w .TIMER a))) :
    ¬ s'.lws.Armed w ∧ (s'.lws.Failed w → s.lws.Failed w) := by
  simp only [tick_kept, not_or, Bool.not_eq_true] at hlost
  obtain ⟨hclaimed, hpending⟩ := hlost
  have htimer : (timer s.c a.ret).ret = 0 ∧ ∀ u usecs,
      .lws_set_timer_usecs u usecs ∉ (timer s.c a.ret).acts := by
    unfold timer
    dsimp only
    rw [if_neg hclaimed, if_neg (by simp [hpending])]
    refine ⟨rfl, fun u usecs hmem => ?_⟩
    simp only [List.mem_append, callIf, request_writable, onWsi] at hmem
    rcases hmem with hmem | hmem
    · split at hmem <;> simp at hmem
    · obtain ⟨_, _, heq⟩ := List.mem_map.mp hmem
      cases heq
  simp only [Sys.deliver, Option.ite_none_right_eq_some] at h
  obtain ⟨_, h⟩ := h
  simp only [Sys.callback, Option.some.injEq, Prod.mk.injEq] at h
  obtain ⟨_, rfl⟩ := h
  obtain ⟨hret, hnone⟩ := htimer
  rw [Sys.setLws_c, hret, if_neg (by simp)]
  constructor
  · intro harmed
    rcases lws_context.armed_of_performs harmed with ⟨usecs, hmem⟩ | harmed
    · exact hnone w usecs hmem
    · cases hi : s.lws.wsi w <;> simp [lws_context.Armed, lws_context.modify, hi] at harmed
  · intro hfailed
    have hbefore := lws_context.failed_of_performs hfailed
    cases hi : s.lws.wsi w with
    | none => simp [lws_context.Failed, lws_context.modify, hi] at hbefore
    | some i => simpa [lws_context.Failed, lws_context.modify, hi] using hbefore

theorem reaches_beat {c : wsl_client} (hc : c.Fresh) (hping : c.ping_interval_ms > 0)
    {cfg : Config} (h : system.Reaches tick_kept (initial c) cfg) : Beat cfg.shared := by
  have hinv : cfg.shared.c.ping_interval_ms > 0 ∧ Beat cfg.shared := by
    refine h.invariant_under
      (I := fun mid => mid.shared.c.ping_interval_ms > 0 ∧ Beat mid.shared)
      (J := fun mid => Lifecycle mid ∧ Conn mid.svc mid.shared) (fun mid hmid => ?_)
      ⟨hping, fun w hw => by cases hw⟩
      fun _ _ _ hknown hok hmove hbeat => beat_step hmove hok hknown.1 hknown.2 hbeat
    have hreach : Reachable mid := ⟨c, hc, hmid.mono fun _ _ _ => trivial⟩
    exact ⟨hreach.lifecycle, hreach.conn⟩
  exact hinv.2

/-- In every run in which no TIMER goes on to request a ping, the timer of an
    open connection is armed until a callback of it returns nonzero, and with a
    ping pending the TIMER that a hook does not claim returns -1. A TIMER that
    goes on to request a ping ends this: the connection stays open, without a
    timer. -/
theorem heartbeat_armed {c : wsl_client} (hc : c.Fresh) (hping : c.ping_interval_ms > 0) :
    (∀ cfg, system.Reaches tick_kept (initial c) cfg → ∀ w,
      cfg.shared.lws.phase w = some .established → ¬ cfg.shared.lws.Failed w →
        cfg.shared.lws.Armed w ∧ (cfg.shared.c.ping_pending = true → ∀ tick,
          ¬ (hooked cfg.shared.c.hooks (·.on_heartbeat_tick) = true ∧ tick ≠ 0) →
            (timer cfg.shared.c tick).ret = -1)) ∧
    ∀ cfg cfg' w a, system.Reaches Any (initial c) cfg →
      system.step cfg (.event (.callback w .TIMER a)) = some cfg' → ¬ cfg.shared.lws.Failed w →
        ¬ tick_kept cfg (.event (.callback w .TIMER a)) →
          cfg'.shared.lws.phase w = some .established ∧ ¬ cfg'.shared.lws.Failed w ∧
            ¬ cfg'.shared.lws.Armed w := by
  constructor
  · intro cfg h w hopen hok
    refine ⟨(reaches_beat hc hping h w hopen).resolve_right hok, fun hpending tick hclaimed => ?_⟩
    rw [timer_fires hclaimed, hpending]
    rfl
  · intro cfg cfg' w a _ hstep hok hlost
    cases System.step_moves hstep with
    | @event e s s' app fs hdeliver =>
      obtain ⟨hunarmed, hfailed⟩ := tick_lost hdeliver hlost
      refine ⟨?_, fun h => hok (hfailed h), hunarmed⟩
      have hdeliver' : s.deliver (.callback w .TIMER a) = some (fs, s') := hdeliver
      simp only [Sys.deliver, Option.ite_none_right_eq_some] at hdeliver'
      obtain ⟨henabled, h⟩ := hdeliver'
      simp [Sys.callback_enabled, lws_context.enables] at henabled
      have hfired : (s.lws.modify w fun i => { i with timer := none }).phase w =
          some .established := by
        rw [← henabled.1.2]
        exact s.lws.phase_modify_same w w fun _ => rfl
      simp only [Sys.callback, Option.some.injEq, Prod.mk.injEq] at h
      obtain ⟨_, rfl⟩ := h
      split <;> simpa using hfired

theorem heartbeat_armed_default : ∃ cfg, Reachable cfg ∧
    cfg.shared.lws.phase 0 = some .established ∧ cfg.shared.lws.Armed 0 := by
  obtain ⟨cfg, hfollows, hopen, hok⟩ : ∃ cfg,
      system.Follows tick_kept (initial (wsl_create "localhost" 9000 none true)) connected_run cfg ∧
        cfg.shared.lws.phase 0 = some .established ∧ ¬ cfg.shared.lws.Failed 0 :=
    System.exists_follows_of_run (by decide)
  have hfresh := wsl_create_fresh "localhost" 9000 none true
  refine ⟨cfg, ⟨_, hfresh, hfollows.reaches.mono fun _ _ _ => trivial⟩, hopen, ?_⟩
  exact ((heartbeat_armed hfresh (by decide)).1 cfg hfollows.reaches 0 hopen hok).1

/-- A ping is written and not answered, and the timer is not armed. -/
theorem ping_disarms : ∃ cfg, Reachable cfg ∧ cfg.shared.c.ping_interval_ms > 0 ∧
    cfg.shared.c.pong_timeout_ms > 0 ∧ cfg.shared.lws.phase 0 = some .established ∧
    ¬ cfg.shared.lws.Failed 0 ∧ cfg.shared.c.ping_pending = true ∧
    writes cfg.shared.trace = [(ping_buf, 0, .LWS_WRITE_PING)] ∧ ¬ cfg.shared.lws.Armed 0 := by
  obtain ⟨cfg, hfollows, h⟩ : ∃ cfg,
      system.Follows Any (initial (wsl_create "localhost" 9000 none true))
        (connected_run ++ [.event (.callback 0 .TIMER {}), .event (.callback 0 .CLIENT_WRITEABLE {}),
          .svc {}]) cfg ∧ cfg.shared.c.ping_interval_ms > 0 ∧ cfg.shared.c.pong_timeout_ms > 0 ∧
        cfg.shared.lws.phase 0 = some .established ∧ ¬ cfg.shared.lws.Failed 0 ∧
        cfg.shared.c.ping_pending = true ∧
        writes cfg.shared.trace = [(ping_buf, 0, .LWS_WRITE_PING)] ∧ ¬ cfg.shared.lws.Armed 0 :=
    System.exists_follows_of_run (by decide)
  exact ⟨cfg, ⟨_, wsl_create_fresh _ _ _ _, hfollows.reaches⟩, h⟩

end lws_client.ws_client_v2
