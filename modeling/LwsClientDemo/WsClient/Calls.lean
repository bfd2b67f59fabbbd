import LwsClientDemo.Handles
import LwsClientDemo.WsClient.Connection

open interleaving

namespace lws_client.ws_client

section sections

variable {s s' : Sys} {a : Answer}

/-- The section makes calls that lws takes on the connections as they are then. -/
abbrev Called (s s' : Sys) : Prop := Extends s'.lws.TakesAll s.trace s'.trace

theorem Called.act {c : wsld_client} {acts : List Act} (h : s.lws.TakesAll acts) :
    Called s (s.act (c, acts)) :=
  ⟨acts, rfl, lws_context.TakesAll.congr h fun w => by simp⟩

theorem app_makes {f : AppFrame} {fs : List AppFrame} (h : s.app f a = some (fs, s')) :
    Extends (Every Act.of_app) s.trace s'.trace := by
  cases f with
  | enqueue data is_binary =>
    cases data <;> cases h
    · exact ⟨_, rfl, Every.single rfl⟩
    · exact ⟨[], by simp, Every.nil⟩
  | wsld_start | wsld_stop | stop_context =>
    simp only [Sys.app] at h
    split at h <;> cases h <;> exact ⟨[], by simp, Every.nil⟩
  | start_thread =>
    simp only [Sys.app] at h
    split at h <;> cases h
    · exact ⟨_, rfl, Every.single rfl⟩
    · exact ⟨_, rfl, Every.nil⟩
  | stop_cancel =>
    cases h
    refine ⟨_, rfl, ?_⟩
    dsimp only
    split
    · exact Every.single rfl
    · exact Every.nil
  | stop_join | stop_context_destroyed =>
    simp only [Sys.app, Option.ite_none_right_eq_some, Option.some.injEq, Prod.mk.injEq] at h
    obtain ⟨_, rfl, rfl⟩ := h
    exact ⟨_, rfl, Every.nil⟩
  | wsld_destroy =>
    simp only [Sys.app, Option.map_eq_some_iff, Prod.mk.injEq] at h
    obtain ⟨⟨freed, q⟩, _, _, rfl⟩ := h
    exact ⟨_, rfl, (Every.map (fun _ => rfl) freed).append (Every.single rfl)⟩
  | enqueue_locked _ _ | lws_cancel_service =>
    cases h
    exact ⟨_, rfl, Every.single rfl⟩
  | enqueue_wake | start_return =>
    cases h
    exact ⟨[], by simp, Every.nil⟩

/-- A callback is delivered in the phase that its own calls need. -/
theorem callback_called {w : WsiId} {r : Reason} {fs : List Frame}
    (h : s.callback w a r = some (fs, s')) (henabled : s.lws.enables s.thread w r = true) :
    Called s s' := by
  have hphase := fun hr => lws_context.phase_of_enables_ne henabled (r := r) hr
  cases r with
  | CLIENT_ESTABLISHED =>
    have hconnecting : s.lws.phase w = some .connecting := hphase (by simp)
    cases h
    refine ⟨_, rfl, .single (show lws_context.phase _ w = _ from ?_)⟩
    simp [hconnecting]
  | CLIENT_RECEIVE chunk =>
    simp only [Sys.callback, Option.map_eq_some_iff, Prod.mk.injEq] at h
    obtain ⟨o, ho, rfl, rfl⟩ := h
    refine ⟨o.acts, by split <;> rfl, .of_every ?_⟩
    exact receive_acts (fun _ _ => rfl) ho
  | CLIENT_WRITEABLE =>
    have hopen : s.lws.phase w = some .established := hphase (by simp)
    simp only [Sys.callback] at h
    split at h
    · cases h
      have htaken : ∀ v,
          (s.lws.modify w fun i => { i with writable := false }).phase v = s.lws.phase v :=
        fun v => s.lws.phase_modify_same w v fun _ => rfl
      refine ⟨_, rfl, .single (show lws_context.phase _ w = _ from ?_)⟩
      rw [Sys.act_lws, lws_context.phase_performs, Sys.setLws_lws, htaken, hopen]
    · split at h <;> cases h <;> exact .of_eq rfl .nil
  | TIMER =>
    have hopen : s.lws.phase w = some .established := hphase (by simp)
    simp only [Sys.callback, Option.some.injEq, Prod.mk.injEq] at h
    obtain ⟨rfl, rfl⟩ := h
    refine ⟨(timer s.c w).acts, by split <;> rfl, ?_⟩
    have htaken : s.lws.TakesAll (timer s.c w).acts := by
      unfold timer
      split
      · exact .nil
      · have hlive : s.lws.Live w := .inr hopen
        exact .pair hlive hopen
    refine lws_context.TakesAll.congr htaken fun v => ?_
    have hfired : (s.lws.modify w fun i => { i with timer := none }).phase v = s.lws.phase v :=
      s.lws.phase_modify_same w v fun _ => rfl
    split <;> simp [hfired]
  | CLIENT_RECEIVE_PONG =>
    have hopen : s.lws.phase w = some .established := hphase (by simp)
    cases h
    exact .act (.single hopen)
  | CLIENT_CONNECTION_ERROR _ | CLIENT_CLOSED | WSI_DESTROY =>
    cases h
    exact ⟨[], rfl, .nil⟩
  | CLIENT_APPEND_HANDSHAKE_HEADER =>
    cases h
    exact .of_eq rfl .nil

theorem deliver_called {e : Event} {fs : List Frame} (h : s.deliver e = some (fs, s')) :
    Called s s' := by
  cases e with
  | callback w r answer =>
    simp only [Sys.deliver, Option.ite_none_right_eq_some] at h
    exact callback_called h.2 h.1
  | exit =>
    simp only [Sys.deliver, Option.ite_none_right_eq_some, Option.map_eq_some_iff,
      Prod.mk.injEq] at h
    obtain ⟨_, ⟨freed, q⟩, _, rfl, rfl⟩ := h
    exact ⟨_, rfl, .of_every (Every.map (fun _ => rfl) freed)⟩
  | service_thread | event_wait_cancelled _ | poll _ | context_destroyed =>
    simp only [Sys.deliver, Option.ite_none_right_eq_some, Option.some.injEq, Prod.mk.injEq] at h
    obtain ⟨_, rfl, rfl⟩ := h
    exact .of_eq rfl .nil

/-- A section on a connection runs while that one is open. -/
theorem Position.opened {w : WsiId} {f : Frame} {rest : List Frame} (h : Position (f :: rest) s)
    (hf : f.sending w) : s.lws.phase w = some .established := by
  refine (h.sent hf).2.established ?_
  cases h with
  | up _ hfs _ | down hfs _ =>
    rcases hfs with hfs | hfs <;> cases hfs
    exact absurd hf id
  | sending _ _ _ _ _ hstate => exact hstate
  | accepted _ hfs _ _ _ | connect hfs _ _ =>
    cases hfs
    exact absurd hf id
  | failing gs hfs hgs _ _ =>
    obtain ⟨rfl, rfl⟩ | ⟨g, gs, rfl⟩ : (gs = [] ∧ f = .connect_return none) ∨ ∃ g gs', gs = g :: gs' := by
      cases gs with
      | nil =>
        cases hfs
        exact .inl ⟨rfl, rfl⟩
      | cons g gs => exact .inr ⟨g, gs, rfl⟩
    · exact absurd hf id
    · obtain ⟨rfl, _⟩ := List.cons.inj hfs
      have hnested := hgs f (by simp)
      cases f <;> first | exact absurd hf id | cases hnested

/-- What the service thread does later, it does on the one open connection. -/
theorem svc_called {f : Frame} {rest fs : List Frame} (h : s.svc f a = some (fs, s'))
    (hpos : Position (f :: rest) s) : Called s s' := by
  cases f with
  | do_connect =>
    simp only [Sys.svc] at h
    split at h <;> cases h <;> exact ⟨_, rfl, .single trivial⟩
  | lws_callback_on_writable w =>
    have hup := (hpos.sent (w := w) rfl).2
    cases h
    exact .act (.single hup.live)
  | write w n more =>
    have hopen : s.lws.phase w = some .established := hpos.opened (w := w) rfl
    have hcalled : Called s (s.act (s.c, writeable_write n w)) :=
      .act (.pair hopen trivial)
    simp only [Sys.svc] at h
    split at h <;> cases h
    · obtain ⟨acts, htrace, htaken⟩ := hcalled
      exact ⟨acts, htrace, lws_context.TakesAll.congr htaken fun v => by simp⟩
    · exact hcalled
  | connect_return wsi =>
    cases wsi <;> cases h <;> exact ⟨[], rfl, .nil⟩
  | connection_error _ | wsi_destroy _ =>
    cases h
    exact ⟨[], rfl, .nil⟩
  | has_data_check _ | event_wait_cancelled =>
    cases h
    exact .of_eq rfl .nil

end sections

variable {cfg cfg' : Config} {l : Label}

/-- Every call on a connection is made while lws has that connection, and on an
    open one where it writes or sets the timer. -/
theorem calls_taken (h : Reachable cfg) (hstep : system.step cfg l = some cfg') :
    ∃ acts, cfg'.shared.trace = cfg.shared.trace ++ acts ∧ cfg'.shared.lws.TakesAll acts := by
  have hlife := h.lifecycle
  cases System.step_moves hstep with
  | event hdeliver => exact deliver_called hdeliver
  | svc hsvc => exact svc_called hsvc (h.conn.running (hlife.busy (by simp)))
  | call _ _ => exact ⟨[], by simp, .nil⟩
  | app _ happ => exact (app_makes happ).mono fun _ => Meets.of_app

/-- A message queued before the connection is opened is asked for by
    EVENT_WAIT_CANCELLED and written. -/
theorem calls_taken_write : ∃ cfg cfg' : Config, Reachable cfg ∧
    system.step cfg (.svc {}) = some cfg' ∧ frames cfg'.shared.trace = [([104], false)] ∧
    ∃ acts, cfg'.shared.trace = cfg.shared.trace ++ acts ∧ cfg'.shared.lws.TakesAll acts := by
  obtain ⟨cfg, hfollows, hframes⟩ : ∃ cfg,
      system.Follows Any (initial (wsld_create "localhost" 9000 none true))
        ([.call 1 (.enqueue (some ⟨[104], one_byte⟩) false), .app 1 {}, .app 1 {}, .app 1 {}] ++
          connected_run ++ [.event (.callback 0 .CLIENT_WRITEABLE {})]) cfg ∧
      (system.step cfg (.svc {})).any
        (fun next => decide (frames next.shared.trace = [([104], false)])) = true :=
    System.exists_follows_of_run (by decide)
  have hreach : Reachable cfg := ⟨_, wsld_create_fresh _ _ _ _, hfollows.reaches⟩
  cases hstep : system.step cfg (.svc {}) with
  | none => simp [hstep] at hframes
  | some next =>
    simp only [hstep, Option.any_some, decide_eq_true_eq] at hframes
    exact ⟨cfg, next, hreach, hstep, hframes, calls_taken hreach hstep⟩

end lws_client.ws_client
