import LwsClientDemo.WsClientV2.Sections

open interleaving

namespace lws_client.ws_client_v2

/-- The fields the owner's calls decide. No service section changes them. -/
structure Owned (s s' : Sys) : Prop where
  ctx : s'.c.ctx = s.c.ctx
  thread_started : s'.c.thread_started = s.c.thread_started
  stopping : s'.c.stopping = s.c.stopping

/-- Service sections leave the fields of the owner's calls and the thread as
    they are. -/
theorem svc_owned {f : Frame} {a : Answer} {s s' : Sys} {fs : List Frame}
    (h : s.svc f a = some (fs, s')) : Owned s s' ∧ s'.thread = s.thread := by
  cases f with
  | do_connect =>
    simp only [Sys.svc] at h
    split at h <;> cases h <;> exact ⟨⟨rfl, rfl, rfl⟩, rfl⟩
  | connection_error msg =>
    obtain ⟨n, hc⟩ := connection_error_client s.c msg
    simp only [Sys.svc, Option.some.injEq, Prod.mk.injEq] at h
    obtain ⟨_, rfl⟩ := h
    exact ⟨⟨by simp [hc], by simp [hc], by simp [hc]⟩, rfl⟩
  | wsi_destroy w =>
    obtain ⟨wsi, hc⟩ := wsi_destroy_client s.c w
    simp only [Sys.svc, Option.some.injEq, Prod.mk.injEq] at h
    obtain ⟨_, rfl⟩ := h
    exact ⟨⟨by simp [hc], by simp [hc], by simp [hc]⟩, rfl⟩
  | connect_return connected =>
    simp only [Sys.svc] at h
    split at h <;> cases h <;> exact ⟨⟨rfl, rfl, rfl⟩, rfl⟩
  | schedule_reconnect =>
    obtain ⟨delay, state, sul, hc, _⟩ := schedule_reconnect_client s.c a.ret
    simp only [Sys.svc, Option.some.injEq, Prod.mk.injEq] at h
    obtain ⟨_, rfl⟩ := h
    exact ⟨⟨by simp [hc], by simp [hc], by simp [hc]⟩, rfl⟩
  | q_head_check =>
    cases h
    exact ⟨⟨rfl, rfl, rfl⟩, rfl⟩
  | lws_callback_on_writable =>
    cases h
    exact ⟨⟨rfl, rfl, rfl⟩, rfl⟩
  | write w n =>
    simp only [Sys.svc] at h
    split at h <;> cases h <;> exact ⟨⟨rfl, rfl, rfl⟩, rfl⟩
  | event_wait_cancelled =>
    cases h
    exact ⟨⟨rfl, rfl, rfl⟩, rfl⟩

/-- Callbacks leave the fields of the owner's calls and the thread as they are,
    and those that end a connection of a stopping client leave nothing to run. -/
theorem callback_owned {w : WsiId} {a : Answer} {r : Reason} {s s' : Sys} {fs : List Frame}
    (h : s.callback w a r = some (fs, s')) :
    Owned s s' ∧ s'.thread = s.thread ∧
      (fs ≠ [] → s.c.stopping = true → r = .CLIENT_ESTABLISHED ∨ r = .CLIENT_WRITEABLE) := by
  cases r with
  | CLIENT_ESTABLISHED =>
    cases h
    exact ⟨⟨rfl, rfl, rfl⟩, rfl, fun _ _ => .inl rfl⟩
  | CLIENT_RECEIVE chunk =>
    simp only [Sys.callback, Option.map_eq_some_iff, Prod.mk.injEq] at h
    obtain ⟨o, ho, rfl, rfl⟩ := h
    obtain ⟨frag, hc⟩ := receive_client ho
    refine ⟨⟨?_, ?_, ?_⟩, ?_, fun hne => absurd rfl hne⟩ <;> split <;> simp [hc]
  | CLIENT_WRITEABLE =>
    simp only [Sys.callback] at h
    split at h
    · cases h
      exact ⟨⟨rfl, rfl, rfl⟩, rfl, fun _ _ => .inr rfl⟩
    · split at h <;> cases h <;> exact ⟨⟨rfl, rfl, rfl⟩, rfl, fun _ _ => .inr rfl⟩
  | TIMER =>
    simp only [Sys.callback, Option.some.injEq, Prod.mk.injEq] at h
    obtain ⟨rfl, rfl⟩ := h
    refine ⟨⟨?_, ?_, ?_⟩, ?_, fun hne => absurd rfl hne⟩ <;>
      rcases timer_client s.c a.ret with hc | hc <;> split <;> simp [hc]
  | CLIENT_RECEIVE_PONG =>
    cases h
    exact ⟨⟨rfl, rfl, rfl⟩, rfl, fun hne => absurd rfl hne⟩
  | CLIENT_CONNECTION_ERROR msg =>
    obtain ⟨n, hc⟩ := connection_error_client s.c msg
    simp only [Sys.callback, Option.some.injEq, Prod.mk.injEq] at h
    obtain ⟨rfl, rfl⟩ := h
    refine ⟨⟨by simp [hc], by simp [hc], by simp [hc]⟩, rfl, fun hne hstop => ?_⟩
    simp [hstop] at hne
  | CLIENT_CLOSED =>
    obtain ⟨n, hc⟩ := closed_client s.c
    simp only [Sys.callback, Option.some.injEq, Prod.mk.injEq] at h
    obtain ⟨rfl, rfl⟩ := h
    refine ⟨⟨by simp [hc], by simp [hc], by simp [hc]⟩, rfl, fun hne hstop => ?_⟩
    simp [hstop] at hne
  | WSI_DESTROY =>
    obtain ⟨wsi, hc⟩ := wsi_destroy_client s.c w
    simp only [Sys.callback, Option.some.injEq, Prod.mk.injEq] at h
    obtain ⟨rfl, rfl⟩ := h
    exact ⟨⟨by simp [hc], by simp [hc], by simp [hc]⟩, rfl, fun hne => absurd rfl hne⟩
  | CLIENT_APPEND_HANDSHAKE_HEADER =>
    cases h
    exact ⟨⟨rfl, rfl, rfl⟩, rfl, fun hne => absurd rfl hne⟩

/-- Frames of `wsl_send` and `wsl_send_binary`. -/
def AppFrame.sends : AppFrame → Bool
  | .enqueue_msg _ _ | .enqueue_msg_locked _ _ | .enqueue_msg_wake | .lws_cancel_service => true
  | _ => false

/-- What the owner's position says about the thread and the flags. -/
def Owner (frame : Option AppFrame) (s : Sys) : Prop :=
  match frame with
  | some .start_thread => s.thread = .none ∧ s.c.thread_started = false ∧ s.c.ctx = true
  | some .start_return =>
    (s.thread = .created ∨ s.thread = .running) ∧ s.c.thread_started = false ∧
      s.c.ctx = true ∧ s.c.stopping = false
  | some .stop_cancel | some .stop_join =>
    (s.thread = .created ∨ s.thread = .running ∨ s.thread = .exited) ∧ s.c.ctx = true ∧
      s.c.stopping = true
  | some .stop_context => s.thread = .exited ∧ s.c.thread_started = false ∧ s.c.ctx = true ∧
      s.c.stopping = true
  | some .stop_context_destroyed =>
    (s.thread = .destroying ∨ s.thread = .none) ∧ s.c.thread_started = false ∧ s.c.ctx = true ∧
      s.c.stopping = true
  | some .stop_return => s.thread = .none ∧ s.c.thread_started = false ∧ s.c.stopping = true
  | _ =>
    if s.c.thread_started then
      (s.thread = .created ∨ s.thread = .running) ∧ s.c.ctx = true ∧ s.c.stopping = false
    else s.thread = .none

/-- The owner starts and stops the service thread by turns; the other threads
    only send; the service thread runs callbacks only while it is running. -/
structure Lifecycle (cfg : Config) : Prop where
  single : ∀ t, (cfg.app t).length ≤ 1
  others : ∀ t, t ≠ 0 → ∀ f ∈ cfg.app t, f.sends = true
  owner : Owner (cfg.app 0).head? cfg.shared
  busy : cfg.svc ≠ [] → cfg.shared.thread = .running

theorem Owner.running {frame : Option AppFrame} {s : Sys} (h : Owner frame s)
    (hrun : s.thread = .running) : s.c.ctx = true := by
  unfold Owner at h
  split at h <;> simp_all

theorem Owner.destroying {frame : Option AppFrame} {s : Sys} (h : Owner frame s)
    (hthread : s.thread = .destroying) : s.c.stopping = true := by
  unfold Owner at h
  split at h <;> simp_all

/-- A service step that keeps the owner's fields and moves the thread forward
    keeps the owner's statement. -/
theorem Owner.congr {frame : Option AppFrame} {s s' : Sys} (h : Owner frame s) (hs : Owned s s')
    (hthread : s'.thread = s.thread) : Owner frame s' := by
  unfold Owner at h ⊢
  rw [hthread, hs.ctx, hs.thread_started, hs.stopping]
  exact h

theorem deliver_owner {frame : Option AppFrame} {e : Event} {s s' : Sys} {fs : List Frame}
    (h : s.deliver e = some (fs, s')) (howner : Owner frame s) :
    Owner frame s' ∧ (fs ≠ [] → s'.thread = .running) := by
  cases e with
  | service_thread =>
    simp only [Sys.deliver, Option.ite_none_right_eq_some, Option.some.injEq, Prod.mk.injEq] at h
    obtain ⟨hthread, rfl, rfl⟩ := h
    refine ⟨?_, fun _ => rfl⟩
    unfold Owner at howner ⊢
    split at howner <;> simp_all
  | callback w r a =>
    simp only [Sys.deliver, Option.ite_none_right_eq_some] at h
    obtain ⟨henabled, h⟩ := h
    obtain ⟨howned, hthread, hstop⟩ := callback_owned h
    refine ⟨howner.congr howned hthread, fun hne => ?_⟩
    rw [hthread]
    by_contra hnot
    cases r <;> simp [Sys.callback_enabled, lws_context.enables, hnot] at henabled
    all_goals
      have hstopping : s.c.stopping = true := howner.destroying (by tauto)
      have := hstop hne hstopping
      simp at this
  | event_wait_cancelled wsi =>
    simp only [Sys.deliver, Option.ite_none_right_eq_some, Option.some.injEq, Prod.mk.injEq] at h
    obtain ⟨⟨hrun, _⟩, rfl, rfl⟩ := h
    exact ⟨howner.congr ⟨rfl, rfl, rfl⟩ rfl, fun _ => hrun⟩
  | sul_reconnect_cb =>
    simp only [Sys.deliver, Option.ite_none_right_eq_some, Option.some.injEq, Prod.mk.injEq] at h
    obtain ⟨⟨hrun, _⟩, _, rfl⟩ := h
    exact ⟨howner.congr ⟨rfl, rfl, rfl⟩ rfl, fun _ => hrun⟩
  | exit =>
    simp only [Sys.deliver, Option.ite_none_right_eq_some, Option.map_eq_some_iff,
      Prod.mk.injEq] at h
    obtain ⟨⟨hrun, hstop⟩, ⟨freed, q⟩, _, rfl, rfl⟩ := h
    refine ⟨?_, fun hne => absurd rfl hne⟩
    unfold Owner at howner ⊢
    split at howner <;> simp_all
  | context_destroyed =>
    simp only [Sys.deliver, Option.ite_none_right_eq_some, Option.some.injEq, Prod.mk.injEq] at h
    obtain ⟨hthread, rfl, rfl⟩ := h
    refine ⟨?_, fun hne => absurd rfl hne⟩
    unfold Owner at howner ⊢
    split at howner <;> simp_all

theorem app_length {f : AppFrame} {a : Answer} {s s' : Sys} {fs : List AppFrame}
    (h : s.app f a = some (fs, s')) : fs.length ≤ 1 := by
  cases f with
  | enqueue_msg data is_binary => cases data <;> cases h <;> simp
  | enqueue_msg_locked data is_binary | enqueue_msg_wake =>
    simp only [Sys.app, Option.some.injEq, Prod.mk.injEq] at h
    obtain ⟨rfl, _⟩ := h
    split <;> simp
  | stop_join | stop_context_destroyed =>
    simp only [Sys.app, Option.ite_none_right_eq_some, Option.some.injEq, Prod.mk.injEq] at h
    obtain ⟨_, rfl, _⟩ := h
    simp
  | wsl_start =>
    simp only [Sys.app] at h
    split at h
    · cases h; simp
    · split at h <;> cases h <;> simp
  | start_thread | wsl_stop | stop_context =>
    simp only [Sys.app] at h
    split at h <;> cases h <;> simp
  | lws_cancel_service | start_return | stop_cancel | stop_return | wsl_destroy =>
    cases h
    simp

/-- The frames of a send touch neither the owner's fields nor the thread. -/
theorem app_sends {f : AppFrame} {a : Answer} {s s' : Sys} {fs : List AppFrame}
    (h : s.app f a = some (fs, s')) (hf : f.sends = true) :
    Owned s s' ∧ s'.thread = s.thread ∧ ∀ g ∈ fs, g.sends = true := by
  cases f with
  | enqueue_msg data is_binary =>
    cases data <;> cases h <;> exact ⟨⟨rfl, rfl, rfl⟩, rfl, by simp [AppFrame.sends]⟩
  | enqueue_msg_locked data is_binary =>
    simp only [Sys.app, Option.some.injEq, Prod.mk.injEq] at h
    obtain ⟨rfl, rfl⟩ := h
    have howned : Owned s (s.act ((enqueue_msg_locked s.c data is_binary a.ok).2,
        [.send_returns data.bytes is_binary (enqueue_msg_locked s.c data is_binary a.ok).1])) := by
      rcases enqueue_msg_locked_spec s.c data is_binary a.ok with ⟨n, heq, _⟩ | heq <;> rw [heq] <;>
        exact ⟨rfl, rfl, rfl⟩
    refine ⟨howned, rfl, ?_⟩
    intro g hg
    split at hg
    · obtain rfl : g = .enqueue_msg_wake := by simpa using hg
      rfl
    · simp at hg
  | enqueue_msg_wake =>
    simp only [Sys.app, Option.some.injEq, Prod.mk.injEq] at h
    obtain ⟨rfl, rfl⟩ := h
    refine ⟨⟨rfl, rfl, rfl⟩, rfl, ?_⟩
    intro g hg
    split at hg
    · obtain rfl : g = .lws_cancel_service := by simpa using hg
      rfl
    · simp at hg
  | lws_cancel_service =>
    cases h
    exact ⟨⟨rfl, rfl, rfl⟩, rfl, by simp⟩
  | _ => simp [AppFrame.sends] at hf

/-- The owner's own sections lead from one position to the next. -/
theorem app_owner {f : AppFrame} {a : Answer} {s s' : Sys} {fs : List AppFrame}
    (h : s.app f a = some (fs, s')) (howner : Owner (some f) s) : Owner fs.head? s' := by
  cases f with
  | enqueue_msg _ _ | enqueue_msg_locked _ _ | enqueue_msg_wake | lws_cancel_service =>
    obtain ⟨howned, hthread, hsends⟩ := app_sends h rfl
    have hidle : Owner none s := howner
    have hlater := hidle.congr howned hthread
    cases fs with
    | nil => exact hlater
    | cons g gs =>
      have hg := hsends g (by simp)
      cases g <;> first | exact hlater | simp [AppFrame.sends] at hg
  | wsl_start =>
    simp only [Sys.app] at h
    split at h
    · cases h
      exact howner
    · next hstarted =>
      split at h
      · cases h
        have hidle : s.thread = .none := by simpa [Owner, hstarted] using howner
        exact ⟨hidle, by simpa using hstarted, rfl⟩
      · cases h
        exact howner
  | start_thread =>
    obtain ⟨hthread, hstarted, hctx⟩ := howner
    simp only [Sys.app] at h
    split at h
    · cases h
      exact ⟨.inl rfl, hstarted, hctx, rfl⟩
    · cases h
      simp [Owner, hstarted, hthread]
  | start_return =>
    cases h
    obtain ⟨hthread, _, hctx, hstop⟩ := howner
    simp only [Owner, List.head?_nil, Sys.act_c, Sys.act_thread, if_true]
    exact ⟨hthread, hctx, hstop⟩
  | wsl_stop =>
    simp only [Sys.app] at h
    split at h
    · next hstarted =>
      cases h
      simp only [Owner, hstarted, if_true] at howner
      exact ⟨howner.1.imp_right .inl, howner.2.1, rfl⟩
    · cases h
      exact howner
  | stop_cancel =>
    cases h
    exact howner
  | stop_join =>
    simp only [Sys.app, Option.ite_none_right_eq_some, Option.some.injEq, Prod.mk.injEq] at h
    obtain ⟨hthread, rfl, rfl⟩ := h
    exact ⟨hthread, rfl, howner.2.1, howner.2.2⟩
  | stop_context =>
    obtain ⟨hthread, hstarted, hctx, hstop⟩ := howner
    simp only [Sys.app, hctx, if_true, Option.some.injEq, Prod.mk.injEq] at h
    obtain ⟨rfl, rfl⟩ := h
    exact ⟨.inl rfl, hstarted, hctx, hstop⟩
  | stop_context_destroyed =>
    obtain ⟨_, hstarted, _, hstop⟩ := howner
    simp only [Sys.app, Option.ite_none_right_eq_some, Option.some.injEq, Prod.mk.injEq] at h
    obtain ⟨hthread, rfl, rfl⟩ := h
    exact ⟨hthread, hstarted, hstop⟩
  | stop_return =>
    cases h
    obtain ⟨hthread, hstarted, _⟩ := howner
    simp [Owner, hstarted, hthread]
  | wsl_destroy =>
    cases h
    exact howner

/-- The owner leaves a service thread alone that has not left its loop. -/
theorem app_keeps_active {f : AppFrame} {a : Answer} {s s' : Sys} {fs : List AppFrame}
    (h : s.app f a = some (fs, s')) (howner : Owner (some f) s)
    (hactive : s.thread = .created ∨ s.thread = .running) : s'.thread = s.thread := by
  by_cases hsends : f.sends = true
  · exact (app_sends h hsends).2.1
  · cases f with
    | enqueue_msg _ _ | enqueue_msg_locked _ _ | enqueue_msg_wake | lws_cancel_service =>
      exact absurd rfl hsends
    | start_thread | stop_context | stop_return =>
      rcases hactive with hthread | hthread <;> simp [Owner, hthread] at howner
    | wsl_start =>
      simp only [Sys.app] at h
      split at h
      · cases h
        rfl
      · split at h <;> cases h <;> rfl
    | wsl_stop =>
      simp only [Sys.app] at h
      split at h <;> cases h <;> rfl
    | stop_join | stop_context_destroyed =>
      simp only [Sys.app, Option.ite_none_right_eq_some] at h
      rcases hactive with hthread | hthread <;> simp [hthread] at h
    | start_return | stop_cancel | wsl_destroy =>
      cases h
      rfl

theorem Lifecycle.call {s : Sys} {svc : List Frame} {app : Nat → List AppFrame} {t : Nat}
    {f : AppFrame} (hidle : app t = []) (hcall : s.call t f = true)
    (h : Lifecycle ⟨s, svc, app⟩) : Lifecycle ⟨s, svc, Function.update app t [f]⟩ := by
  obtain ⟨hsingle, hothers, howner, hbusy⟩ := h
  refine ⟨?_, ?_, ?_, hbusy⟩
  · intro u
    by_cases hu : u = t
    · subst hu
      simp
    · simpa [Function.update_of_ne hu] using hsingle u
  · intro u hu g hg
    rcases mem_update_app.mp hg with ⟨rfl, hg⟩ | ⟨_, hg⟩
    · obtain rfl : g = f := by simpa using hg
      cases g <;> simp_all [Sys.call, AppFrame.sends]
    · exact hothers u hu g hg
  · by_cases ht : t = 0
    · subst ht
      simp only [hidle, List.head?_nil] at howner
      simp only [Function.update_self, List.head?_cons]
      cases f <;> first | exact howner | simp [Sys.call] at hcall
    · simpa [Function.update_of_ne (Ne.symm ht)] using howner

/-- Every thread has at most one frame, so its next frames replace the top one. -/
theorem Lifecycle.rest_nil {cfg : Config} (h : Lifecycle cfg) {t : Nat} {f : AppFrame}
    {rest : List AppFrame} (htop : cfg.app t = f :: rest) : rest = [] := by
  have hlen := h.single t
  rw [htop] at hlen
  simpa using hlen

theorem Lifecycle.app {s s' : Sys} {svc : List Frame} {app : Nat → List AppFrame} {t : Nat}
    {f : AppFrame} {a : Answer} {fs : List AppFrame} (htop : app t = [f])
    (happ : s.app f a = some (fs, s')) (h : Lifecycle ⟨s, svc, app⟩) :
    Lifecycle ⟨s', svc, Function.update app t fs⟩ := by
  obtain ⟨hsingle, hothers, howner, hbusy⟩ := h
  dsimp only at hothers howner hbusy
  have hsends : t ≠ 0 → f.sends = true := fun ht => hothers t ht f (by simp [htop])
  refine ⟨?_, ?_, ?_, ?_⟩
  · intro u
    by_cases hu : u = t
    · subst hu
      simpa using app_length happ
    · simpa [Function.update_of_ne hu] using hsingle u
  · intro u hu g hg
    rcases mem_update_app.mp hg with ⟨heq, hg⟩ | ⟨_, hg⟩
    · exact (app_sends happ (hsends (heq ▸ hu))).2.2 g hg
    · exact hothers u hu g hg
  · by_cases ht : t = 0
    · subst ht
      rw [htop] at howner
      simpa using app_owner happ howner
    · dsimp only
      rw [Function.update_of_ne (Ne.symm ht)]
      obtain ⟨howned, hthread, _⟩ := app_sends happ (hsends ht)
      exact howner.congr howned hthread
  · intro hne
    have hrun := hbusy hne
    by_cases ht : t = 0
    · subst ht
      rw [htop] at howner
      exact (app_keeps_active happ howner (.inr hrun)).trans hrun
    · dsimp only
      rw [(app_sends happ (hsends ht)).2.1]
      exact hrun

/-- Each step keeps the life cycle. -/
theorem Lifecycle.step {cfg cfg' : Config} {l : Label} (hmove : system.Moves cfg l cfg')
    (h : Lifecycle cfg) : Lifecycle cfg' := by
  cases hmove with
  | event hdeliver =>
    obtain ⟨howner, hbusy⟩ := deliver_owner hdeliver h.owner
    exact ⟨h.single, h.others, howner, hbusy⟩
  | svc hsvc =>
    obtain ⟨howned, hthread⟩ := svc_owned hsvc
    exact ⟨h.single, h.others, h.owner.congr howned hthread,
      fun _ => hthread.trans (h.busy (by simp))⟩
  | call hidle hcall => exact h.call hidle hcall
  | app htop happ =>
    obtain rfl := h.rest_nil htop
    rw [List.append_nil]
    exact h.app htop happ

theorem initial_lifecycle {c : wsl_client} (hc : c.Fresh) : Lifecycle (initial c) := by
  refine ⟨fun t => by simp [initial], fun t _ f hf => by simp [initial] at hf, ?_, ?_⟩
  · simp [Owner, initial, hc.thread_started]
  · simp [initial]

theorem Reachable.lifecycle {cfg : Config} (h : Reachable cfg) : Lifecycle cfg := by
  obtain ⟨c, hc, hreach⟩ := h
  exact hreach.invariant (initial_lifecycle hc) fun _ _ _ _ hmove => Lifecycle.step hmove

end lws_client.ws_client_v2
