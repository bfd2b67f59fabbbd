import LwsClientDemo.WsClient.Sections

open interleaving

namespace lws_client.ws_client

/-- The fields the owner's calls decide. No service section changes them. -/
structure Owned (s s' : Sys) : Prop where
  ctx : s'.c.ctx = s.c.ctx
  thread_started : s'.c.thread_started = s.c.thread_started
  stopping : s'.c.stopping = s.c.stopping

theorem Owned.closed (s : Sys) (lws : lws_context) (now : Int) :
    Owned s ((s.setLws lws).act (closed s.c now, [])) := by
  obtain ⟨_, _, _, hc, _⟩ := closed_client s.c now
  exact ⟨by simp [hc], by simp [hc], by simp [hc]⟩

theorem Owned.wsi_destroy (s : Sys) (lws : lws_context) (w : WsiId) :
    Owned s ((s.setLws lws).act (wsi_destroy s.c w, [])) := by
  obtain ⟨_, hc⟩ := wsi_destroy_client s.c w
  exact ⟨by simp [hc], by simp [hc], by simp [hc]⟩

/-- Service sections leave the fields of the owner's calls and the thread as
    they are. -/
theorem svc_owned {f : Frame} {a : Answer} {s s' : Sys} {fs : List Frame}
    (h : s.svc f a = some (fs, s')) : Owned s s' ∧ s'.thread = s.thread := by
  cases f with
  | do_connect | write _ _ _ =>
    simp only [Sys.svc] at h
    split at h <;> cases h <;> exact ⟨⟨rfl, rfl, rfl⟩, rfl⟩
  | connection_error msg =>
    cases h
    exact ⟨.closed s s.lws a.now, rfl⟩
  | wsi_destroy w =>
    cases h
    exact ⟨.wsi_destroy s s.lws w, rfl⟩
  | connect_return wsi => cases wsi <;> cases h <;> exact ⟨⟨rfl, rfl, rfl⟩, rfl⟩
  | has_data_check _ | lws_callback_on_writable _ | event_wait_cancelled =>
    cases h
    exact ⟨⟨rfl, rfl, rfl⟩, rfl⟩

/-- Callbacks leave them as they are too, and only WRITEABLE leaves something to
    run. -/
theorem callback_owned {w : WsiId} {a : Answer} {r : Reason} {s s' : Sys} {fs : List Frame}
    (h : s.callback w a r = some (fs, s')) :
    Owned s s' ∧ s'.thread = s.thread ∧ (fs ≠ [] → r = .CLIENT_WRITEABLE) := by
  cases r with
  | CLIENT_RECEIVE chunk =>
    simp only [Sys.callback, Option.map_eq_some_iff, Prod.mk.injEq] at h
    obtain ⟨o, ho, rfl, rfl⟩ := h
    obtain ⟨frag, hc⟩ := receive_client ho
    refine ⟨⟨?_, ?_, ?_⟩, ?_, fun hne => absurd rfl hne⟩ <;> split <;> simp [hc]
  | CLIENT_WRITEABLE =>
    simp only [Sys.callback] at h
    split at h
    · cases h
      exact ⟨⟨rfl, rfl, rfl⟩, rfl, fun _ => rfl⟩
    · split at h <;> cases h <;> exact ⟨⟨rfl, rfl, rfl⟩, rfl, fun _ => rfl⟩
  | TIMER =>
    obtain ⟨send_ping, hc⟩ := timer_client s.c w
    simp only [Sys.callback, Option.some.injEq, Prod.mk.injEq] at h
    obtain ⟨rfl, rfl⟩ := h
    refine ⟨⟨?_, ?_, ?_⟩, ?_, fun hne => absurd rfl hne⟩ <;> split <;> simp [hc]
  | CLIENT_CONNECTION_ERROR _ | CLIENT_CLOSED =>
    cases h
    exact ⟨.closed s _ a.now, rfl, fun hne => absurd rfl hne⟩
  | WSI_DESTROY =>
    cases h
    exact ⟨.wsi_destroy s _ w, rfl, fun hne => absurd rfl hne⟩
  | CLIENT_ESTABLISHED | CLIENT_RECEIVE_PONG | CLIENT_APPEND_HANDSHAKE_HEADER =>
    cases h
    exact ⟨⟨rfl, rfl, rfl⟩, rfl, fun hne => absurd rfl hne⟩

/-- Frames of `wsld_send` and `wsld_send_binary`. -/
def AppFrame.sends : AppFrame → Bool
  | .enqueue _ _ | .enqueue_locked _ _ | .enqueue_wake | .lws_cancel_service => true
  | _ => false

/-- What the owner's position says about the thread and the flags. -/
def Owner (frame : Option AppFrame) (s : Sys) : Prop :=
  match frame with
  | some .wsld_start => s.thread = .none ∧ s.c.thread_started = false
  | some .start_thread => s.thread = .none ∧ s.c.thread_started = false ∧ s.c.ctx = true
  | some .start_return =>
    (s.thread = .created ∨ s.thread = .running) ∧ s.c.thread_started = false ∧
      s.c.ctx = true ∧ s.c.stopping = false
  | some .stop_cancel | some .stop_join =>
    (s.thread = .created ∨ s.thread = .running ∨ s.thread = .exited) ∧ s.c.ctx = true ∧
      s.c.stopping = true
  | some .stop_context => s.thread = .exited ∧ s.c.thread_started = false ∧ s.c.ctx = true ∧
      s.c.stopping = true
  | some .stop_context_destroyed =>
    (s.thread = .destroying ∨ s.thread = .none) ∧ s.c.thread_started = false ∧ s.c.ctx = true ∧
      s.c.stopping = true
  | _ =>
    if s.c.thread_started then
      (s.thread = .created ∨ s.thread = .running) ∧ s.c.ctx = true ∧ s.c.stopping = false
    else s.thread = .none

/-- The owner starts and stops the service thread by turns; the other threads
    only send; the service thread runs callbacks only while it is running. -/
structure Lifecycle (cfg : Config) : Prop where
  threads : SoleOwner AppFrame.sends cfg.app
  owner : Owner (cfg.app 0).head? cfg.shared
  busy : cfg.svc ≠ [] → cfg.shared.thread = .running

theorem Owner.running {frame : Option AppFrame} {s : Sys} (h : Owner frame s)
    (hrun : s.thread = .running) : s.c.ctx = true := by
  unfold Owner at h
  split at h <;> simp_all

theorem Owner.destroying {frame : Option AppFrame} {s : Sys} (h : Owner frame s)
    (hthread : s.thread = .destroying ∨ s.thread = .exited) : s.c.stopping = true := by
  unfold Owner at h
  rcases hthread with hthread | hthread <;> split at h <;> simp_all

/-- A step that keeps the owner's fields and the thread keeps the owner's
    statement. -/
theorem Owner.congr {frame : Option AppFrame} {s s' : Sys} (h : Owner frame s) (hs : Owned s s')
    (hthread : s'.thread = s.thread) : Owner frame s' := by
  unfold Owner at h ⊢
  rw [hthread, hs.ctx, hs.thread_started, hs.stopping]
  exact h

theorem deliver_owner {frame : Option AppFrame} {e : Event} {s s' : Sys} {fs : List Frame}
    (h : s.deliver e = some (fs, s')) (howner : Owner frame s) :
    Owner frame s' ∧ (fs ≠ [] → s'.thread = .running) := by
  cases e with
  | callback w r a =>
    simp only [Sys.deliver, Option.ite_none_right_eq_some] at h
    obtain ⟨henabled, h⟩ := h
    obtain ⟨howned, hthread, hframes⟩ := callback_owned h
    refine ⟨howner.congr howned hthread, fun hne => ?_⟩
    obtain rfl := hframes hne
    simp only [lws_context.enables, Bool.and_eq_true, beq_iff_eq] at henabled
    exact hthread.trans henabled.1
  | event_wait_cancelled _ | poll _ =>
    simp only [Sys.deliver, Option.ite_none_right_eq_some, Option.some.injEq, Prod.mk.injEq] at h
    obtain ⟨⟨hrun, _⟩, _, rfl⟩ := h
    exact ⟨howner.congr ⟨rfl, rfl, rfl⟩ rfl, fun _ => hrun⟩
  | exit =>
    simp only [Sys.deliver, Option.ite_none_right_eq_some, Option.map_eq_some_iff,
      Prod.mk.injEq] at h
    obtain ⟨⟨hrun, hstop⟩, ⟨freed, q⟩, _, rfl, rfl⟩ := h
    refine ⟨?_, fun hne => absurd rfl hne⟩
    unfold Owner at howner ⊢
    split at howner <;> simp_all
  | service_thread | context_destroyed =>
    simp only [Sys.deliver, Option.ite_none_right_eq_some, Option.some.injEq, Prod.mk.injEq] at h
    obtain ⟨hthread, rfl, rfl⟩ := h
    refine ⟨?_, by simp⟩
    unfold Owner at howner ⊢
    split at howner <;> simp_all

theorem app_length {f : AppFrame} {a : Answer} {s s' : Sys} {fs : List AppFrame}
    (h : s.app f a = some (fs, s')) : fs.length ≤ 1 := by
  cases f with
  | enqueue data is_binary => cases data <;> cases h <;> simp
  | enqueue_locked data is_binary | enqueue_wake =>
    simp only [Sys.app, Option.some.injEq, Prod.mk.injEq] at h
    obtain ⟨rfl, _⟩ := h
    split <;> simp
  | stop_join | stop_context_destroyed =>
    simp only [Sys.app, Option.ite_none_right_eq_some, Option.some.injEq, Prod.mk.injEq] at h
    obtain ⟨_, rfl, _⟩ := h
    simp
  | wsld_destroy =>
    simp only [Sys.app, Option.map_eq_some_iff, Prod.mk.injEq] at h
    obtain ⟨_, _, rfl, _⟩ := h
    simp
  | wsld_start | start_thread | wsld_stop | stop_context =>
    simp only [Sys.app] at h
    split at h <;> cases h <;> simp
  | lws_cancel_service | start_return | stop_cancel =>
    cases h
    simp

/-- The frames of a send touch neither the owner's fields nor the thread. -/
theorem app_sends {f : AppFrame} {a : Answer} {s s' : Sys} {fs : List AppFrame}
    (h : s.app f a = some (fs, s')) (hf : f.sends = true) :
    Owned s s' ∧ s'.thread = s.thread ∧ ∀ g ∈ fs, g.sends = true := by
  cases f with
  | enqueue data is_binary =>
    cases data <;> cases h <;> exact ⟨⟨rfl, rfl, rfl⟩, rfl, by simp [AppFrame.sends]⟩
  | enqueue_locked data is_binary =>
    simp only [Sys.app, Option.some.injEq, Prod.mk.injEq] at h
    obtain ⟨rfl, rfl⟩ := h
    refine ⟨?_, rfl, ?_⟩
    · rcases enqueue_locked_spec s.c data is_binary a.ok with ⟨n, heq, _⟩ | heq <;> rw [heq] <;>
        exact ⟨rfl, rfl, rfl⟩
    · split <;> simp [AppFrame.sends]
  | enqueue_wake =>
    simp only [Sys.app, Option.some.injEq, Prod.mk.injEq] at h
    obtain ⟨rfl, rfl⟩ := h
    refine ⟨⟨rfl, rfl, rfl⟩, rfl, ?_⟩
    split <;> simp [AppFrame.sends]
  | lws_cancel_service =>
    cases h
    exact ⟨⟨rfl, rfl, rfl⟩, rfl, by simp⟩
  | _ => cases hf

/-- The owner's own sections lead from one position to the next. -/
theorem app_owner {f : AppFrame} {a : Answer} {s s' : Sys} {fs : List AppFrame}
    (h : s.app f a = some (fs, s')) (howner : Owner (some f) s) : Owner fs.head? s' := by
  cases f with
  | enqueue _ _ | enqueue_locked _ _ | enqueue_wake | lws_cancel_service =>
    obtain ⟨howned, hthread, hsends⟩ := app_sends h rfl
    have hidle : Owner none s := howner
    have hlater := hidle.congr howned hthread
    cases fs with
    | nil => exact hlater
    | cons g gs =>
      have hg := hsends g (by simp)
      cases g <;> first | exact hlater | cases hg
  | wsld_start =>
    obtain ⟨hthread, hstarted⟩ := howner
    simp only [Sys.app] at h
    split at h
    · cases h
      exact ⟨hthread, hstarted, rfl⟩
    · cases h
      simp [Owner, hstarted, hthread]
  | start_thread =>
    obtain ⟨hthread, hstarted, hctx⟩ := howner
    simp only [Sys.app] at h
    split at h
    · cases h
      exact ⟨.inl rfl, hstarted, hctx, rfl⟩
    · cases h
      simp [Owner, hstarted, hthread]
  | start_return =>
    cases h
    obtain ⟨hthread, _, hctx, hstop⟩ := howner
    simp only [Owner, List.head?_nil, Sys.act_c, Sys.act_thread, if_true]
    exact ⟨hthread, hctx, hstop⟩
  | wsld_stop =>
    simp only [Sys.app] at h
    split at h
    · next hstarted =>
      cases h
      simp only [Bool.and_eq_true] at hstarted
      simp only [Owner, hstarted.1, if_true] at howner
      exact ⟨howner.1.imp_right .inl, howner.2.1, rfl⟩
    · cases h
      exact howner
  | stop_cancel =>
    cases h
    exact howner
  | stop_join =>
    simp only [Sys.app, Option.ite_none_right_eq_some, Option.some.injEq, Prod.mk.injEq] at h
    obtain ⟨hthread, rfl, rfl⟩ := h
    exact ⟨hthread, rfl, howner.2.1, howner.2.2⟩
  | stop_context =>
    obtain ⟨hthread, hstarted, hctx, hstop⟩ := howner
    simp only [Sys.app, hctx, if_true, Option.some.injEq, Prod.mk.injEq] at h
    obtain ⟨rfl, rfl⟩ := h
    exact ⟨.inl rfl, hstarted, hctx, hstop⟩
  | stop_context_destroyed =>
    obtain ⟨_, hstarted, _, hstop⟩ := howner
    simp only [Sys.app, Option.ite_none_right_eq_some, Option.some.injEq, Prod.mk.injEq] at h
    obtain ⟨hthread, rfl, rfl⟩ := h
    simp [Owner, hstarted, hthread]
  | wsld_destroy =>
    simp only [Sys.app, Option.map_eq_some_iff, Prod.mk.injEq] at h
    obtain ⟨_, _, rfl, rfl⟩ := h
    exact howner

/-- The owner does not end a running service thread. -/
theorem app_keeps_running {f : AppFrame} {a : Answer} {s s' : Sys} {fs : List AppFrame}
    (h : s.app f a = some (fs, s')) (howner : Owner (some f) s) (hrun : s.thread = .running) :
    s'.thread = .running := by
  cases f with
  | enqueue _ _ | enqueue_locked _ _ | enqueue_wake | lws_cancel_service =>
    rw [(app_sends h rfl).2.1]
    exact hrun
  | wsld_start | start_thread | stop_context => simp [Owner, hrun] at howner
  | wsld_stop =>
    simp only [Sys.app] at h
    split at h <;> cases h <;> exact hrun
  | stop_join | stop_context_destroyed =>
    simp only [Sys.app, Option.ite_none_right_eq_some, Option.some.injEq, Prod.mk.injEq] at h
    obtain ⟨hthread, _, _⟩ := h
    simp [hrun] at hthread
  | wsld_destroy =>
    simp only [Sys.app, Option.map_eq_some_iff, Prod.mk.injEq] at h
    obtain ⟨_, _, _, rfl⟩ := h
    exact hrun
  | start_return | stop_cancel =>
    cases h
    exact hrun

/-- The frame an owner or sender runs next is known by the life cycle. -/
theorem Lifecycle.frame {s : Sys} {svc : List Frame} {app : Nat → List AppFrame} {t : Nat}
    {f : AppFrame} (h : Lifecycle ⟨s, svc, app⟩) (htop : app t = [f]) :
    f.sends = true ∨ Owner (some f) s := by
  by_cases ht : t = 0
  · subst ht
    have howner := h.owner
    simp only [htop, List.head?_cons] at howner
    exact .inr howner
  · exact .inl (h.threads.guest_of_ne htop ht)

/-- Each step keeps the life cycle. -/
theorem Lifecycle.step {cfg cfg' : Config} {l : Label} (hmove : system.Moves cfg l cfg')
    (h : Lifecycle cfg) : Lifecycle cfg' := by
  obtain ⟨hthreads, howner, hbusy⟩ := h
  cases hmove with
  | event hdeliver =>
    obtain ⟨howner', hbusy'⟩ := deliver_owner hdeliver howner
    exact ⟨hthreads, howner', hbusy'⟩
  | svc hsvc =>
    obtain ⟨howned, hthread⟩ := svc_owned hsvc
    exact ⟨hthreads, howner.congr howned hthread, fun _ => hthread.trans (hbusy (by simp))⟩
  | @call t f s svc app hidle hcall =>
    refine ⟨hthreads.update (by simp) fun ht g hg => ?_, ?_, hbusy⟩
    · obtain rfl := List.mem_singleton.mp hg
      cases g <;> simp_all [system, Sys.call, AppFrame.sends]
    · by_cases ht : t = 0
      · subst ht
        simp only [hidle, List.head?_nil] at howner
        simp only [Function.update_self, List.head?_cons]
        cases f <;> simp_all [system, Sys.call, Owner]
      · simpa [Function.update_of_ne (Ne.symm ht)] using howner
  | @app t f a s s' svc app rest fs htop happ =>
    obtain rfl := hthreads.rest_nil htop
    rw [List.append_nil]
    have hguest := fun ht => hthreads.guest_of_ne htop ht
    refine ⟨hthreads.update (app_length happ) fun ht => (app_sends happ (hguest ht)).2.2, ?_,
      fun hne => ?_⟩
    · by_cases ht : t = 0
      · subst ht
        simp only [htop, List.head?_cons] at howner
        simpa using app_owner happ howner
      · obtain ⟨howned, hthread, _⟩ := app_sends happ (hguest ht)
        simpa [Function.update_of_ne (Ne.symm ht)] using howner.congr howned hthread
    · by_cases ht : t = 0
      · subst ht
        simp only [htop, List.head?_cons] at howner
        exact app_keeps_running happ howner (hbusy hne)
      · exact (app_sends happ (hguest ht)).2.1.trans (hbusy hne)

theorem initial_lifecycle {c : wsld_client} (hc : c.Fresh) : Lifecycle (initial c) :=
  ⟨.idle, by simp [Owner, initial, hc.thread_started], by simp [initial]⟩

theorem Reachable.lifecycle {cfg : Config} (h : Reachable cfg) : Lifecycle cfg := by
  obtain ⟨c, hc, hreach⟩ := h
  exact hreach.invariant (initial_lifecycle hc) fun _ _ _ _ hmove => Lifecycle.step hmove

end lws_client.ws_client
