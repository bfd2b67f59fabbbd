import LwsClientDemo.WsClientV2.Queue

open interleaving

namespace lws_client.ws_client_v2

theorem Mild.keeps {acts : List Act} (h : Mild acts) : Every keeps acts := by
  refine h.mono fun act hact => ?_
  cases act with
  | lws_write _ _ _ _ | free_node _ _ | flush_node _ _ => cases hact
  | _ => rfl

theorem Mild.tidy {acts : List Act} (h : Mild acts) : Tidy acts := .of_keeps h.keeps

section sections

variable {s s' : Sys} {a : Answer}

/-- A section that makes tidy calls. -/
abbrev Adds (s s' : Sys) : Prop := Extends Tidy s.trace s'.trace

theorem callback_adds {w : WsiId} {r : Reason} {fs : List Frame}
    (h : s.callback w a r = some (fs, s')) : Adds s s' := by
  cases r with
  | CLIENT_ESTABLISHED =>
    cases h
    exact ⟨_, rfl, (established_mild s.c).tidy⟩
  | CLIENT_RECEIVE chunk =>
    simp only [Sys.callback, Option.map_eq_some_iff, Prod.mk.injEq] at h
    obtain ⟨o, ho, rfl, rfl⟩ := h
    exact ⟨o.acts, by split <;> rfl, .of_keeps (receive_acts (fun _ _ => rfl) (fun _ _ => rfl) ho)⟩
  | CLIENT_WRITEABLE =>
    simp only [Sys.callback] at h
    split at h
    · cases h
      exact ⟨_, rfl, .of_keeps (Every.single rfl)⟩
    · split at h <;> cases h <;> exact .of_eq rfl .nil
  | TIMER =>
    simp only [Sys.callback, Option.some.injEq, Prod.mk.injEq] at h
    obtain ⟨rfl, rfl⟩ := h
    exact ⟨_, by split <;> rfl, (timer_mild s.c a.ret).tidy⟩
  | CLIENT_RECEIVE_PONG =>
    cases h
    exact ⟨_, rfl, (timer_set_mild s.c).tidy⟩
  | CLIENT_CONNECTION_ERROR msg =>
    cases h
    exact ⟨_, rfl, (connection_error_mild s.c msg).tidy⟩
  | CLIENT_CLOSED =>
    cases h
    exact ⟨_, rfl, (closed_mild s.c).tidy⟩
  | WSI_DESTROY =>
    cases h
    exact ⟨_, rfl, .nil⟩
  | CLIENT_APPEND_HANDSHAKE_HEADER =>
    cases h
    exact ⟨_, rfl, .of_keeps (Every.callIf rfl)⟩

theorem deliver_adds {e : Event} {fs : List Frame} (h : s.deliver e = some (fs, s')) :
    Adds s s' := by
  cases e with
  | callback w r a =>
    simp only [Sys.deliver, Option.ite_none_right_eq_some] at h
    exact callback_adds h.2
  | service_thread | event_wait_cancelled _ | sul_reconnect_cb | context_destroyed =>
    simp only [Sys.deliver, Option.ite_none_right_eq_some, Option.some.injEq, Prod.mk.injEq] at h
    obtain ⟨_, rfl, rfl⟩ := h
    exact .of_eq rfl .nil
  | exit =>
    simp only [Sys.deliver, Option.ite_none_right_eq_some, Option.map_eq_some_iff,
      Prod.mk.injEq] at h
    obtain ⟨_, ⟨freed, q⟩, _, rfl, rfl⟩ := h
    exact ⟨_, rfl, flush_tidy freed⟩

theorem svc_adds {f : Frame} {fs : List Frame} (h : s.svc f a = some (fs, s')) : Adds s s' := by
  cases f with
  | do_connect =>
    simp only [Sys.svc] at h
    split at h <;> cases h <;> exact ⟨_, rfl, .of_keeps (Every.single rfl)⟩
  | connection_error msg =>
    cases h
    exact ⟨_, rfl, (connection_error_mild s.c msg).tidy⟩
  | wsi_destroy w =>
    cases h
    exact ⟨_, rfl, .nil⟩
  | connect_return connected =>
    simp only [Sys.svc] at h
    split at h <;> cases h
    · exact .of_eq rfl .nil
    · exact ⟨_, rfl, .nil⟩
  | schedule_reconnect =>
    cases h
    exact ⟨_, rfl, (schedule_reconnect_mild s.c a.ret).tidy⟩
  | q_head_check =>
    cases h
    exact .of_eq rfl .nil
  | lws_callback_on_writable =>
    cases h
    exact ⟨_, rfl, (request_writable_mild s.c).tidy⟩
  | write w n =>
    simp only [Sys.svc] at h
    split at h <;> cases h <;> exact ⟨_, rfl, write_node_tidy n w⟩
  | event_wait_cancelled =>
    cases h
    exact ⟨_, rfl, (event_wait_cancelled_mild s.c).tidy⟩

/-- No API call frees a node, `wsl_destroy` included. -/
theorem app_adds {f : AppFrame} {fs : List AppFrame} (h : s.app f a = some (fs, s')) : Adds s s' := by
  refine (app_makes (p := keeps) (fun act happ hfreed => ?_) h).mono fun _ => .of_keeps
  cases act with
  | free_node _ _ | flush_node _ _ => cases hfreed
  | _ => first | rfl | cases happ

end sections

variable {cfg cfg' : Config} {l : Label}

theorem moves_adds (hmove : system.Moves cfg l cfg') : Adds cfg.shared cfg'.shared := by
  cases hmove with
  | event hdeliver => exact deliver_adds hdeliver
  | svc hsvc => exact svc_adds hsvc
  | call _ _ => exact .of_eq rfl .nil
  | app _ happ => exact app_adds happ

theorem Reachable.tidy (h : Reachable cfg) : Tidy cfg.shared.trace := by
  obtain ⟨c, _, hreach⟩ := h
  refine hreach.invariant (I := fun cfg => Tidy cfg.shared.trace) .nil
    fun cfg l cfg' _ hmove htidy => ?_
  obtain ⟨acts, htrace, hacts⟩ := moves_adds hmove
  rw [htrace]
  exact htidy.append hacts

/-- What a step shows of the send queue: the service thread leaves its loop, which
    it does with a flush, or a send returns `LWS_OK`. -/
inductive Mark where
  | exit
  | accepted

def marks (cfg : Config) : Label → List Mark
  | .event .exit => [.exit]
  | .app t a =>
    match (cfg.app t).head? with
    | some (.enqueue_msg_locked data is_binary) =>
      if (enqueue_msg_locked cfg.shared.c data is_binary a.ok).1 = .LWS_OK then [.accepted] else []
    | _ => []
  | _ => []

/-- How many sends have returned `LWS_OK` since the service thread last left its
    loop, or at all when it never has. -/
def since_exit (bs : List Mark) : Nat :=
  bs.foldl (fun n mark => match mark with
    | .exit => 0
    | .accepted => n + 1) 0

@[simp] theorem since_exit_exit (bs : List Mark) : since_exit (bs ++ [.exit]) = 0 := by
  simp [since_exit]

@[simp] theorem since_exit_accepted (bs : List Mark) :
    since_exit (bs ++ [.accepted]) = since_exit bs + 1 := by
  simp [since_exit]

/-- The service thread has been created and has not left its loop. -/
def Active (s : Sys) : Prop := s.thread = .created ∨ s.thread = .running

/-- While no service thread takes nodes off the queue it holds the messages
    accepted since the last flush. -/
def Held (bs : List Mark) (s : Sys) : Prop :=
  ¬Active s → ∃ ns, s.c.q.Holds ns ∧ ns.length = since_exit bs

section steps

variable {s s' : Sys} {bs : List Mark}

theorem deliver_active {e : Event} {fs : List Frame} (h : s.deliver e = some (fs, s'))
    (hactive : Active s) : Active s' ∨ e = .exit := by
  cases e with
  | service_thread =>
    simp only [Sys.deliver, Option.ite_none_right_eq_some, Option.some.injEq, Prod.mk.injEq] at h
    obtain ⟨_, _, rfl⟩ := h
    exact .inl (.inr rfl)
  | callback w r a =>
    simp only [Sys.deliver, Option.ite_none_right_eq_some] at h
    rw [Active, (callback_owned h.2).2.1]
    exact .inl hactive
  | event_wait_cancelled _ | sul_reconnect_cb =>
    simp only [Sys.deliver, Option.ite_none_right_eq_some, Option.some.injEq, Prod.mk.injEq] at h
    obtain ⟨_, _, rfl⟩ := h
    exact .inl hactive
  | exit => exact .inr rfl
  | context_destroyed =>
    simp only [Sys.deliver, Option.ite_none_right_eq_some] at h
    rcases hactive with hthread | hthread <;> simp [hthread] at h

theorem deliver_held {e : Event} {fs : List Frame} (h : s.deliver e = some (fs, s'))
    (hholds : ∃ ns, s.c.q.Holds ns) (hheld : Held bs s) (cfg : Config) :
    Held (bs ++ marks cfg (.event e)) s' := by
  by_cases hexit : e = .exit
  · subst hexit
    simp only [Sys.deliver, Option.ite_none_right_eq_some, Option.map_eq_some_iff,
      Prod.mk.injEq] at h
    obtain ⟨_, ⟨freed, q⟩, hflush, _, rfl⟩ := h
    obtain ⟨ns, hns⟩ := hholds
    obtain ⟨q', hq', hempty⟩ := hns.flush
    rw [hflush] at hq'
    cases hq'
    exact fun _ => ⟨[], hempty, (since_exit_exit bs).symm⟩
  · have hnone : marks cfg (.event e) = [] := by
      cases e with
      | exit => exact absurd rfl hexit
      | _ => rfl
    rw [hnone, List.append_nil]
    intro hidle'
    have hidle : ¬Active s := fun hactive => (deliver_active h hactive).elim hidle' hexit
    obtain ⟨_, _, _, heffect⟩ := deliver_spec h
    cases heffect with
    | plain _ _ hq _ _ | receive _ _ hq _ | ping _ _ hq _ =>
      rw [hq]
      exact hheld hidle
    | dequeue _ _ _ _ _ =>
      -- Only a running service thread dequeues.
      simp only [Sys.deliver, Option.ite_none_right_eq_some, Sys.callback_enabled,
        lws_context.enables, Bool.and_eq_true, beq_iff_eq] at h
      exact absurd (.inr h.1.1) hidle
    | exit _ _ _ _ _ => exact absurd rfl hexit

/-- Frames other than the locked section of a send leave the queue alone. -/
theorem app_queue {f : AppFrame} {a : Answer} {fs : List AppFrame} (h : s.app f a = some (fs, s'))
    (hf : ∀ data is_binary, f ≠ .enqueue_msg_locked data is_binary) : s'.c.q = s.c.q := by
  obtain ⟨_, _, acts, _, hacts⟩ := app_spec h
  rcases hacts with ⟨hq, _⟩ | ⟨_, hq, _⟩ | ⟨n, data, is_binary, hlocked, _⟩
  · exact hq
  · exact hq
  · exact absurd hlocked (hf data is_binary)

theorem app_held (cfg : Config) {f : AppFrame} {a : Answer} {fs rest : List AppFrame} {t : Nat}
    (h : cfg.shared.app f a = some (fs, s')) (htop : cfg.app t = f :: rest)
    (hframe : f.sends = true ∨ Owner (some f) cfg.shared) (hheld : Held bs cfg.shared) :
    Held (bs ++ marks cfg (.app t a)) s' := by
  intro hidle'
  have hidle : ¬Active cfg.shared := by
    intro hactive
    have hthread : s'.thread = cfg.shared.thread :=
      hframe.elim (fun hsends => (app_sends h hsends).2.1)
        fun howner => app_keeps_active h howner hactive
    exact hidle' (by rwa [Active, hthread])
  obtain ⟨ns, hholds, hlength⟩ := hheld hidle
  by_cases hf : ∃ data is_binary, f = .enqueue_msg_locked data is_binary
  · obtain ⟨data, is_binary, rfl⟩ := hf
    simp only [Sys.app, Option.some.injEq, Prod.mk.injEq] at h
    obtain ⟨_, rfl⟩ := h
    rcases enqueue_msg_locked_spec cfg.shared.c data is_binary a.ok with ⟨n, heq, _⟩ | heq
    · refine ⟨ns ++ [n], ?_, ?_⟩
      · simpa [heq] using hholds.append n
      · simp [marks, htop, heq, hlength]
    · refine ⟨ns, ?_, ?_⟩
      · simpa [heq] using hholds
      · simp [marks, htop, heq, hlength]
  · have hnot : ∀ data is_binary, f ≠ .enqueue_msg_locked data is_binary :=
      fun data is_binary heq => hf ⟨data, is_binary, heq⟩
    have hnone : marks cfg (.app t a) = [] := by
      simp only [marks, htop, List.head?_cons]
      split
      · next heq => exact absurd (Option.some.inj heq) (hnot _ _)
      · rfl
    rw [hnone, List.append_nil, app_queue h hnot]
    exact ⟨ns, hholds, hlength⟩

end steps

theorem held_step {bs : List Mark} (hmove : system.Moves cfg l cfg') (hlife : Lifecycle cfg)
    (hfifo : Fifo cfg.shared.c.q (inflight cfg.svc) cfg.shared.trace) (hheld : Held bs cfg.shared) :
    Held (bs ++ marks cfg l) cfg'.shared := by
  cases hmove with
  | event hdeliver =>
    obtain ⟨ns, hns, _⟩ := hfifo
    exact deliver_held hdeliver ⟨ns, hns⟩ hheld _
  | svc hsvc =>
    have hrun := (svc_owned hsvc).2.trans (hlife.busy (by simp))
    exact fun hidle => absurd (.inr hrun) hidle
  | call _ _ =>
    simpa [marks] using hheld
  | @app t f a s s' svc app rest fs htop happ =>
    obtain rfl := hlife.rest_nil htop
    exact app_held ⟨s, svc, app⟩ happ htop (hlife.frame htop) hheld

/-- A client whose `wsl_destroy` is still to run is stopped. -/
def Stopped (cfg : Config) : Prop :=
  ∀ t, .wsl_destroy ∈ cfg.app t → cfg.shared.c.thread_started = false

theorem deliver_started {e : Event} {s s' : Sys} {fs : List Frame}
    (h : s.deliver e = some (fs, s')) : s'.c.thread_started = s.c.thread_started := by
  cases e with
  | callback w r a =>
    simp only [Sys.deliver, Option.ite_none_right_eq_some] at h
    exact (callback_owned h.2).1.thread_started
  | exit =>
    simp only [Sys.deliver, Option.ite_none_right_eq_some, Option.map_eq_some_iff,
      Prod.mk.injEq] at h
    obtain ⟨_, ⟨freed, q⟩, _, _, rfl⟩ := h
    rfl
  | service_thread | event_wait_cancelled _ | sul_reconnect_cb | context_destroyed =>
    simp only [Sys.deliver, Option.ite_none_right_eq_some, Option.some.injEq, Prod.mk.injEq] at h
    obtain ⟨_, _, rfl⟩ := h
    rfl

/-- `wsl_destroy` is never called by the library itself. -/
theorem app_calls {f : AppFrame} {a : Answer} {s s' : Sys} {fs : List AppFrame}
    (h : s.app f a = some (fs, s')) : .wsl_destroy ∉ fs := by
  cases f with
  | enqueue_msg data is_binary => cases data <;> cases h <;> simp
  | enqueue_msg_locked data is_binary | enqueue_msg_wake =>
    simp only [Sys.app, Option.some.injEq, Prod.mk.injEq] at h
    obtain ⟨rfl, _⟩ := h
    split <;> simp
  | stop_join | stop_context_destroyed =>
    simp only [Sys.app, Option.ite_none_right_eq_some, Option.some.injEq, Prod.mk.injEq] at h
    obtain ⟨_, rfl, _⟩ := h
    simp
  | wsl_start =>
    simp only [Sys.app] at h
    split at h
    · cases h
      simp
    · split at h <;> cases h <;> simp
  | start_thread | wsl_stop | stop_context =>
    simp only [Sys.app] at h
    split at h <;> cases h <;> simp
  | lws_cancel_service | start_return | stop_cancel | stop_return | wsl_destroy =>
    cases h
    simp

theorem Stopped.step (hmove : system.Moves cfg l cfg') (hlife : Lifecycle cfg) (h : Stopped cfg) :
    Stopped cfg' := by
  intro u hu
  cases hmove with
  | event hdeliver => exact (deliver_started hdeliver).trans (h u hu)
  | svc hsvc => exact (svc_owned hsvc).1.thread_started.trans (h u hu)
  | call _ hcall =>
    rcases mem_update_app.mp hu with ⟨_, hmem⟩ | ⟨_, hmem⟩
    · obtain rfl := List.mem_singleton.mp hmem
      have hgate := hcall
      simp only [system, Sys.call, Bool.and_eq_true, Bool.not_eq_true'] at hgate
      exact hgate.2.2
    · exact h u hmem
  | @app t f a s s' svc app rest fs htop happ =>
    obtain rfl := hlife.rest_nil htop
    rcases mem_update_app.mp hu with ⟨_, hmem⟩ | ⟨hne, hmem⟩
    · rw [List.append_nil] at hmem
      exact absurd hmem (app_calls happ)
    · -- The owner waits to destroy the client, so the thread that moves only sends.
      have hzero : u = 0 := by
        by_contra hother
        cases hlife.others u hother _ hmem
      have hsends := hlife.others t (fun ht => hne (hzero.trans ht.symm)) f (by simp [htop])
      exact (app_sends happ hsends).1.thread_started.trans (h u hmem)

/-- When `wsl_destroy` returns, the node of each send that returned `LWS_OK` has
    been freed once if and only if no send has returned `LWS_OK` since the service
    thread last left its loop, or ever when there was none. -/
theorem destroy_freed_once_iff {c : wsl_client} (hc : c.Fresh) {ls : List Label} {t : Nat}
    {rest : List AppFrame} {a : Answer} (h : system.Follows Any (initial c) ls cfg)
    (htop : cfg.app t = .wsl_destroy :: rest) (hstep : system.step cfg (.app t a) = some cfg') :
    FreedOnce cfg'.shared.trace ↔ since_exit (system.observe marks (initial c) ls) = 0 := by
  have hreach : Reachable cfg := ⟨c, hc, h.reaches⟩
  have hlife := hreach.lifecycle
  -- The client is stopped, so no service thread runs.
  have hstarted : cfg.shared.c.thread_started = false := by
    have hstopped : Stopped cfg := h.reaches.invariant_under (J := Lifecycle)
      (fun mid hmid => Reachable.lifecycle ⟨c, hc, hmid⟩) (fun u hu => by cases hu)
      fun _ _ _ hlife _ hmove => Stopped.step hmove hlife
    exact hstopped t (by simp [htop])
  have howner : Owner (some .wsl_destroy) cfg.shared := by
    obtain rfl := hlife.rest_nil htop
    exact (hlife.frame htop).resolve_left nofun
  have hthread : cfg.shared.thread = .none := by simpa [Owner, hstarted] using howner
  have hsvc : cfg.svc = [] := by
    by_contra hne
    simp [hlife.busy hne] at hthread
  -- The queue holds what was accepted since the last flush.
  have hheld : Held (system.observe marks (initial c) ls) cfg.shared := by
    refine h.observed (J := Reachable) (I := fun bs cfg => Held bs cfg.shared)
      (fun mid hmid => ⟨c, hc, hmid⟩) ?_
      fun bs cfg l cfg' hknown _ hmove hheld => held_step hmove hknown.lifecycle hknown.fifo hheld
    exact fun _ => ⟨[], hc.q ▸ SendQueue.empty_holds, rfl⟩
  obtain ⟨ns, hns, hlength⟩ := hheld (by simp [Active, hthread])
  obtain ⟨ns', hns', horder⟩ := hreach.fifo
  obtain rfl := hns'.unique hns
  have htrace : cfg'.shared.trace = cfg.shared.trace ++ [.client_destroy] := by
    simp only [System.step, htop, system, Sys.app, Option.map_some, Option.some.injEq] at hstep
    rw [← hstep]
    rfl
  have hdestroy : Tidy [.client_destroy] := .of_keeps (Every.single rfl)
  have haccepted : accepted [.client_destroy] = [] := rfl
  have houtcomes : outcomes [.client_destroy] = [] := rfl
  rw [hsvc] at horder
  rw [htrace, ← hlength, ← List.length_map (f := ws_msg_node_t.message)]
  apply (hreach.tidy.append hdestroy).freed_once_iff
  rw [outcomes_append, accepted_append, haccepted, houtcomes, List.append_nil, List.append_nil]
  simpa [inflight] using horder

/-- Thread 0 sends `h`. -/
def send_run : List Label :=
  [.call 0 (.enqueue_msg (some { bytes := [104], length_le := one_byte }) false), .app 0 {},
    .app 0 {}, .app 0 {}]

/-- Thread 0 stops the client, whose service thread leaves its loop. -/
def stop_run : List Label :=
  [.call 0 .wsl_stop, .app 0 {}, .app 0 {}, .event .exit, .app 0 {}, .app 0 {},
    .event (.callback 0 .WSI_DESTROY {}), .event .context_destroyed, .app 0 {}, .app 0 {}]

/-- A message sent before the start is written on the first connection, one sent
    later is flushed, and the client is about to be destroyed. -/
def lifetime_run : List Label :=
  send_run ++ connected_run ++
    [.svc {}, .event (.callback 0 .CLIENT_WRITEABLE {}), .svc {}, .svc {}] ++ send_run ++
    [.app 0 {}] ++ stop_run ++ [.call 0 .wsl_destroy]

theorem destroy_freed_once_iff_lifetime : ∃ cfg cfg' : Config,
    system.Follows Any (initial (wsl_create "localhost" 9000 none true)) lifetime_run cfg ∧
      system.step cfg (.app 0 {}) = some cfg' ∧ (accepted cfg.shared.trace).length = 2 ∧
      FreedOnce cfg'.shared.trace := by
  obtain ⟨cfg, hfollows, htop, hsent, hsome⟩ : ∃ cfg,
      system.Follows Any (initial (wsl_create "localhost" 9000 none true)) lifetime_run cfg ∧
        cfg.app 0 = [.wsl_destroy] ∧ (accepted cfg.shared.trace).length = 2 ∧
        (system.step cfg (.app 0 {})).isSome = true :=
    System.exists_follows_of_run_eq (g := fun cfg => cfg.app 0) rfl (by decide)
  obtain ⟨cfg', hstep⟩ := Option.isSome_iff_exists.mp hsome
  exact ⟨cfg, cfg', hfollows, hstep, hsent,
    (destroy_freed_once_iff (wsl_create_fresh _ _ _ _) hfollows htop hstep).mpr (by decide)⟩

/-- A message sent to a client that is never started is not freed. -/
theorem unstarted_leaks : ∃ cfg : Config,
    system.Follows Any (initial (wsl_create "localhost" 9000 none true))
      (send_run ++ [.call 0 .wsl_stop, .app 0 {}, .call 0 .wsl_destroy, .app 0 {}]) cfg ∧
      cfg.shared.destroyed = true ∧ accepted cfg.shared.trace = [([104], false)] ∧
      frees cfg.shared.trace = [] ∧ ¬FreedOnce cfg.shared.trace := by
  obtain ⟨cfg, hfollows, hdestroyed, haccepted, hfrees⟩ : ∃ cfg,
      system.Follows Any (initial (wsl_create "localhost" 9000 none true))
        (send_run ++ [.call 0 .wsl_stop, .app 0 {}, .call 0 .wsl_destroy, .app 0 {}]) cfg ∧
        cfg.shared.destroyed = true ∧ accepted cfg.shared.trace = [([104], false)] ∧
        frees cfg.shared.trace = [] :=
    System.exists_follows_of_run (by decide)
  refine ⟨cfg, hfollows, hdestroyed, haccepted, hfrees, fun honce => ?_⟩
  have hlength := honce.once.length_eq
  simp [haccepted, hfrees] at hlength

end lws_client.ws_client_v2
