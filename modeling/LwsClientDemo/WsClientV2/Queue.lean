import LwsClientDemo.WsClientV2.Connection

open interleaving

namespace lws_client.ws_client_v2

/-- Each step keeps the queue in order. -/
theorem fifo_step {cfg cfg' : Config} {l : Label} (hmove : system.Moves cfg l cfg')
    (hlife : Lifecycle cfg) (hconn : Conn cfg.svc cfg.shared)
    (h : Fifo cfg.shared.c.q (inflight cfg.svc) cfg.shared.trace) :
    Fifo cfg'.shared.c.q (inflight cfg'.svc) cfg'.shared.trace := by
  cases hmove with
  | event hdeliver =>
    obtain ⟨_, acts, htrace, heffect⟩ := deliver_spec hdeliver
    dsimp only at h ⊢
    rw [htrace]
    cases heffect with
    | plain _ hplain hq _ hfs =>
      rw [hq, hfs]
      exact h.quiet hplain.quiet
    | receive ho hacts hq _ =>
      rw [hq, hacts]
      exact h.quiet (receive_acts (fun _ _ => rfl) (fun _ _ => rfl) ho)
    | ping _ hacts hq _ =>
      rw [hq, hacts]
      exact h.skip rfl rfl
    | dequeue _ hdequeue hacts hq _ =>
      rw [hq, hacts, List.append_nil]
      exact h.take hdequeue
    | exit _ _ hflush hacts hq =>
      rw [hq, hacts]
      exact h.flush hflush
  | @svc f a s s' app rest fs hsvc =>
    obtain ⟨_, hq, _, hfs, acts, htrace, hacts⟩ := svc_spec hsvc
    dsimp only at h ⊢
    rw [hq, htrace, inflight_append, hfs, List.nil_append]
    rcases hacts with ⟨hplain, hf⟩ | ⟨w, n, rfl, rfl⟩
    · have hcons : inflight (f :: rest) = inflight rest := by
        rw [← List.singleton_append, inflight_append, hf, List.nil_append]
      rw [← hcons]
      exact h.quiet hplain.quiet
    · obtain ⟨rfl, _⟩ := (hconn.running (hlife.busy (by simp))).write
      obtain ⟨houtcomes, _, _, haccepted, _⟩ := write_node_outcome n w
      exact h.write houtcomes haccepted
  | call _ _ => exact h
  | app htop happ =>
    obtain ⟨_, _, acts, htrace, hacts⟩ := app_spec happ
    dsimp only at h ⊢
    rw [htrace]
    rcases hacts with ⟨hq, hplain⟩ | ⟨_, hq, rfl⟩ | ⟨n, data, is_binary, _, hq, hmessage, rfl⟩
    · rw [hq]
      exact h.quiet hplain.quiet
    · rw [hq]
      exact h.skip rfl rfl
    · rw [hq]
      exact h.accept hmessage

theorem Reachable.fifo {cfg : Config} (h : Reachable cfg) :
    Fifo cfg.shared.c.q (inflight cfg.svc) cfg.shared.trace := by
  obtain ⟨c, hc, hreach⟩ := h
  refine hreach.invariant_under (J := fun mid => Lifecycle mid ∧ Conn mid.svc mid.shared)
    (fun mid hmid => ⟨Reachable.lifecycle ⟨c, hc, hmid⟩, Reachable.conn ⟨c, hc, hmid⟩⟩) ?_
    fun _ _ _ hknown _ hmove => fifo_step hmove hknown.1 hknown.2
  change Fifo c.q [] []
  rw [hc.q]
  exact .empty

/-- How the thread moves: it starts by `pthread_create` and ends for good. -/
structure Forward (s s' : Sys) : Prop where
  none : s.thread = .none → s'.thread = .none
  active : s'.thread = .created ∨ s'.thread = .running → s.thread = .created ∨ s.thread = .running

theorem Forward.of_eq {s s' : Sys} (h : s'.thread = s.thread) : Forward s s' :=
  ⟨fun hnone => h.trans hnone, fun hactive => h ▸ hactive⟩

theorem deliver_forward {e : Event} {s s' : Sys} {fs : List Frame}
    (h : s.deliver e = some (fs, s')) : Forward s s' := by
  cases e with
  | service_thread =>
    simp only [Sys.deliver, Option.ite_none_right_eq_some, Option.some.injEq, Prod.mk.injEq] at h
    obtain ⟨hcreated, _, rfl⟩ := h
    exact ⟨by simp [hcreated], fun _ => .inl hcreated⟩
  | callback w r a =>
    simp only [Sys.deliver, Option.ite_none_right_eq_some] at h
    exact .of_eq (callback_owned h.2).2.1
  | event_wait_cancelled _ | sul_reconnect_cb =>
    simp only [Sys.deliver, Option.ite_none_right_eq_some, Option.some.injEq, Prod.mk.injEq] at h
    obtain ⟨_, _, rfl⟩ := h
    exact .of_eq rfl
  | exit =>
    simp only [Sys.deliver, Option.ite_none_right_eq_some, Option.map_eq_some_iff,
      Prod.mk.injEq] at h
    obtain ⟨⟨hrun, _⟩, _, _, _, rfl⟩ := h
    exact ⟨by simp [hrun], fun _ => .inr hrun⟩
  | context_destroyed =>
    simp only [Sys.deliver, Option.ite_none_right_eq_some, Option.some.injEq, Prod.mk.injEq] at h
    obtain ⟨_, _, rfl⟩ := h
    exact ⟨fun _ => rfl, by simp⟩

theorem app_forward {f : AppFrame} {a : Answer} {s s' : Sys} {fs : List AppFrame}
    (h : s.app f a = some (fs, s')) (hframe : f.sends = true ∨ Owner (some f) s)
    (hf : f ≠ .start_thread) : Forward s s' := by
  by_cases hsends : f.sends = true
  · exact .of_eq (app_sends h hsends).2.1
  · have howner := hframe.resolve_left hsends
    cases f with
    | enqueue_msg _ _ | enqueue_msg_locked _ _ | enqueue_msg_wake | lws_cancel_service =>
      exact absurd rfl hsends
    | start_thread => exact absurd rfl hf
    | wsl_start =>
      simp only [Sys.app] at h
      split at h
      · cases h
        exact .of_eq rfl
      · split at h <;> cases h <;> exact .of_eq rfl
    | wsl_stop =>
      simp only [Sys.app] at h
      split at h <;> cases h <;> exact .of_eq rfl
    | stop_join | stop_context_destroyed =>
      simp only [Sys.app, Option.ite_none_right_eq_some, Option.some.injEq, Prod.mk.injEq] at h
      obtain ⟨_, _, rfl⟩ := h
      exact .of_eq rfl
    | stop_context =>
      simp only [Sys.app, howner.2.2.1, if_true, Option.some.injEq, Prod.mk.injEq] at h
      obtain ⟨_, rfl⟩ := h
      exact ⟨by simp [howner.1], by simp⟩
    | start_return | stop_cancel | stop_return | wsl_destroy =>
      cases h
      exact .of_eq rfl

/-- A flush comes after all writes until the client is started again. -/
theorem single_run_step {cfg cfg' : Config} {l : Label} (hmove : system.Moves cfg l cfg')
    (hlife : Lifecycle cfg) (h : SingleRun cfg.shared.trace cfg.shared.thread) :
    SingleRun cfg'.shared.trace cfg'.shared.thread := by
  cases hmove with
  | event hdeliver =>
    obtain ⟨_, acts, htrace, heffect⟩ := deliver_spec hdeliver
    have hforward := deliver_forward hdeliver
    dsimp only at h ⊢
    rw [htrace]
    cases heffect with
    | plain _ hplain _ _ _ => exact h.quiet hplain.quiet hforward.none hforward.active
    | receive ho hacts _ _ =>
      rw [hacts]
      exact h.quiet (receive_acts (fun _ _ => rfl) (fun _ _ => rfl) ho) hforward.none hforward.active
    | ping _ hacts _ _ =>
      rw [hacts]
      exact h.skip ⟨rfl, rfl, rfl, rfl⟩ hforward.none hforward.active
    | dequeue _ _ hacts _ _ =>
      rw [hacts]
      exact h.quiet Every.nil hforward.none hforward.active
    | @exit freed _ hrun hexited _ hacts _ =>
      rw [hrun] at h
      rw [hacts, hexited]
      exact h.flush freed
  | @svc f a s s' app rest fs hsvc =>
    obtain ⟨_, _, _, _, acts, htrace, hacts⟩ := svc_spec hsvc
    have hrun : s.thread = .running := hlife.busy (by simp)
    dsimp only at h ⊢
    rw [htrace, (svc_owned hsvc).2]
    rcases hacts with ⟨hplain, _⟩ | ⟨w, n, rfl, rfl⟩
    · exact h.quiet hplain.quiet id id
    · obtain ⟨houtcomes, hframes, hdropped, _, hstarts⟩ := write_node_outcome n w
      rw [hrun] at h ⊢
      exact h.write houtcomes hframes hdropped hstarts
  | call _ _ => exact h
  | @app t f a s s' svc app rest fs htop happ =>
    obtain rfl := hlife.rest_nil htop
    have hframe := hlife.frame htop
    dsimp only at h ⊢
    by_cases hf : f = .start_thread
    · subst hf
      obtain ⟨hthread, _⟩ := hframe.resolve_left (by decide)
      rw [hthread] at h
      simp only [system, Sys.app] at happ
      split at happ
      · cases happ
        exact h.start
      · cases happ
        rw [Sys.act_thread, Sys.act_trace, hthread]
        exact h.quiet Every.nil id id
    · have hforward := app_forward happ hframe hf
      obtain ⟨_, _, acts, htrace, hacts⟩ := app_spec happ
      rw [htrace]
      rcases hacts with ⟨_, hplain⟩ | ⟨hstart, _⟩ | ⟨n, data, is_binary, _, _, _, rfl⟩
      · exact h.quiet hplain.quiet hforward.none hforward.active
      · exact absurd hstart hf
      · exact h.skip ⟨rfl, rfl, rfl, rfl⟩ hforward.none hforward.active

theorem Reachable.single_run {cfg : Config} (h : Reachable cfg) :
    SingleRun cfg.shared.trace cfg.shared.thread := by
  obtain ⟨c, hc, hreach⟩ := h
  exact hreach.invariant_under (fun mid hmid => Reachable.lifecycle ⟨c, hc, hmid⟩)
    SingleRun.initial fun _ _ _ hlife _ hmove => single_run_step hmove hlife

/-- A step that reports an error to a sender leaves the queue as it was. -/
theorem error_keeps_queue {cfg cfg' : Config} {l : Label} {data : List UInt8} {is_binary : Bool}
    {ret : LwsClientRet_e} (hstep : system.step cfg l = some cfg')
    (hreturn : cfg'.shared.trace = cfg.shared.trace ++ [.send_returns data is_binary ret])
    (hret : ret ≠ .LWS_OK) : cfg'.shared.c.q = cfg.shared.c.q := by
  cases System.step_moves hstep with
  | event hdeliver =>
    obtain ⟨_, acts, htrace, heffect⟩ := deliver_spec hdeliver
    dsimp only at hreturn ⊢
    rw [htrace, List.append_cancel_left_eq] at hreturn
    cases heffect with
    | plain _ _ hq _ _ => exact hq
    | receive _ _ hq _ => exact hq
    | ping _ _ hq _ => exact hq
    | dequeue _ _ hacts _ _ => simp [hacts] at hreturn
    | exit _ _ _ hacts _ =>
      rw [hacts, List.map_eq_singleton_iff] at hreturn
      obtain ⟨_, _, hflush⟩ := hreturn
      cases hflush
  | svc hsvc => exact (svc_spec hsvc).2.1
  | call _ _ => rfl
  | app htop happ =>
    obtain ⟨_, _, acts, htrace, hacts⟩ := app_spec happ
    dsimp only at hreturn ⊢
    rw [htrace, List.append_cancel_left_eq] at hreturn
    rcases hacts with ⟨hq, _⟩ | ⟨_, hq, _⟩ | ⟨n, data', is_binary', _, _, _, hacts⟩
    · exact hq
    · exact hq
    · rw [hacts] at hreturn
      simp only [List.cons.injEq, Act.send_returns.injEq] at hreturn
      exact absurd hreturn.1.2.2.symm hret

end lws_client.ws_client_v2
