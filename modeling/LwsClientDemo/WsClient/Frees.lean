import LwsClientDemo.Frees
import LwsClientDemo.WsClient.Queue

open interleaving

namespace lws_client.ws_client

section sections

variable {s s' : Sys} {a : Answer}

/-- A section that frees what it writes or drops, and does not destroy the client. -/
def Adds (s s' : Sys) : Prop :=
  s'.destroyed = s.destroyed ∧ Extends Tidy s.trace s'.trace

theorem Adds.refl (s : Sys) : Adds s s := ⟨rfl, [], by rw [List.append_nil], .nil⟩

theorem timer_keeps (c : wsld_client) (w : WsiId) : Every keeps (timer c w).acts := by
  unfold timer
  split
  · exact Every.nil
  · exact Every.pair rfl rfl

theorem callback_adds {w : WsiId} {r : Reason} {fs : List Frame}
    (h : s.callback w a r = some (fs, s')) : Adds s s' := by
  cases r with
  | CLIENT_ESTABLISHED | CLIENT_RECEIVE_PONG =>
    cases h
    exact ⟨rfl, _, rfl, .of_keeps (Every.single rfl)⟩
  | CLIENT_RECEIVE chunk =>
    simp only [Sys.callback, Option.map_eq_some_iff, Prod.mk.injEq] at h
    obtain ⟨o, ho, rfl, rfl⟩ := h
    exact ⟨by split <;> rfl, o.acts, by split <;> rfl, .of_keeps (receive_acts (fun _ _ => rfl) ho)⟩
  | CLIENT_WRITEABLE =>
    simp only [Sys.callback] at h
    split at h
    · cases h
      exact ⟨rfl, _, rfl, .of_keeps (Every.single rfl)⟩
    · split at h <;> cases h <;> exact ⟨rfl, [], (List.append_nil _).symm, .nil⟩
  | TIMER =>
    simp only [Sys.callback, Option.some.injEq, Prod.mk.injEq] at h
    obtain ⟨rfl, rfl⟩ := h
    exact ⟨by split <;> rfl, _, by split <;> rfl, .of_keeps (timer_keeps s.c w)⟩
  | CLIENT_CONNECTION_ERROR _ | CLIENT_CLOSED | WSI_DESTROY =>
    cases h
    exact ⟨rfl, [], rfl, .nil⟩
  | CLIENT_APPEND_HANDSHAKE_HEADER =>
    cases h
    exact .refl s

theorem deliver_adds {e : Event} {fs : List Frame} (h : s.deliver e = some (fs, s')) :
    Adds s s' := by
  cases e with
  | callback w r a =>
    simp only [Sys.deliver, Option.ite_none_right_eq_some] at h
    exact callback_adds h.2
  | service_thread | event_wait_cancelled _ | poll _ | context_destroyed =>
    simp only [Sys.deliver, Option.ite_none_right_eq_some, Option.some.injEq, Prod.mk.injEq] at h
    obtain ⟨_, _, rfl⟩ := h
    exact ⟨rfl, [], (List.append_nil _).symm, .nil⟩
  | exit =>
    simp only [Sys.deliver, Option.ite_none_right_eq_some, Option.map_eq_some_iff,
      Prod.mk.injEq] at h
    obtain ⟨_, ⟨freed, q⟩, _, rfl, rfl⟩ := h
    exact ⟨rfl, _, rfl, flush_tidy freed⟩

theorem svc_adds {f : Frame} {fs : List Frame} (h : s.svc f a = some (fs, s')) : Adds s s' := by
  cases f with
  | do_connect =>
    simp only [Sys.svc] at h
    split at h <;> cases h <;> exact ⟨rfl, _, rfl, .of_keeps (Every.single rfl)⟩
  | connection_error _ | wsi_destroy _ =>
    cases h
    exact ⟨rfl, [], rfl, .nil⟩
  | connect_return wsi =>
    cases wsi <;> cases h <;> exact ⟨rfl, [], rfl, .nil⟩
  | has_data_check _ | event_wait_cancelled =>
    cases h
    exact .refl s
  | lws_callback_on_writable w =>
    cases h
    exact ⟨rfl, _, rfl, .of_keeps (Every.single rfl)⟩
  | write w n more =>
    simp only [Sys.svc] at h
    split at h <;> cases h <;> exact ⟨rfl, _, rfl, write_node_tidy n w⟩

/-- No API call but `wsld_destroy` frees a node that was queued. -/
theorem app_adds {f : AppFrame} {fs : List AppFrame} (h : s.app f a = some (fs, s'))
    (hf : f ≠ .wsld_destroy) : Adds s s' := by
  cases f with
  | enqueue data is_binary =>
    cases data <;> cases h
    · exact ⟨rfl, _, rfl, .of_keeps (Every.single rfl)⟩
    · exact .refl s
  | enqueue_wake | start_return =>
    cases h
    exact ⟨rfl, [], by simp, .nil⟩
  | wsld_start | wsld_stop | stop_context =>
    simp only [Sys.app] at h
    split at h <;> cases h <;> exact ⟨rfl, [], by simp, .nil⟩
  | start_thread =>
    simp only [Sys.app] at h
    split at h <;> cases h
    · exact ⟨rfl, _, rfl, .of_keeps (Every.single rfl)⟩
    · exact ⟨rfl, _, rfl, .nil⟩
  | stop_cancel =>
    cases h
    refine ⟨rfl, _, rfl, .of_keeps ?_⟩
    dsimp only
    split
    · exact Every.single rfl
    · exact Every.nil
  | stop_join | stop_context_destroyed =>
    simp only [Sys.app, Option.ite_none_right_eq_some, Option.some.injEq, Prod.mk.injEq] at h
    obtain ⟨_, rfl, rfl⟩ := h
    exact ⟨rfl, _, rfl, .nil⟩
  | enqueue_locked _ _ | lws_cancel_service =>
    cases h
    exact ⟨rfl, _, rfl, .of_keeps (Every.single rfl)⟩
  | wsld_destroy => exact absurd rfl hf

end sections

variable {cfg cfg' : Config} {l : Label}

/-- A step is the end of `wsld_destroy`, or it frees what it writes or drops. -/
theorem moves_adds (hmove : system.Moves cfg l cfg') : Adds cfg.shared cfg'.shared ∨
    ∃ t a rest, l = .app t a ∧ cfg.app t = .wsld_destroy :: rest := by
  cases hmove with
  | event hdeliver => exact .inl (deliver_adds hdeliver)
  | svc hsvc => exact .inl (svc_adds hsvc)
  | call _ _ => exact .inl (.refl _)
  | @app t f a s s' svc app rest fs htop happ =>
    by_cases hf : f = .wsld_destroy
    · subst hf
      exact .inr ⟨t, a, rest, rfl, htop⟩
    · exact .inl (app_adds happ hf)

/-- `wsld_destroy` frees what is queued. -/
theorem destroy_spec {s s' : Sys} {a : Answer} {fs : List AppFrame}
    (h : s.app .wsld_destroy a = some (fs, s')) : s'.destroyed = true ∧
      ∃ freed q, ws_flush_queue s.c.q = some (freed, q) ∧ s'.trace = s.trace ++
        (freed.map (fun n => .free_node n.payload n.is_binary) ++ [.client_destroy]) := by
  simp only [Sys.app, Option.map_eq_some_iff, Prod.mk.injEq] at h
  obtain ⟨⟨freed, q⟩, hflush, _, rfl⟩ := h
  exact ⟨rfl, freed, q, hflush, rfl⟩

/-- Up to `wsld_destroy` the nodes freed are those of the messages written or
    dropped. -/
theorem Reachable.tidy (h : Reachable cfg) :
    cfg.shared.destroyed = false → Tidy cfg.shared.trace := by
  obtain ⟨c, _, hreach⟩ := h
  refine hreach.invariant (I := fun cfg => cfg.shared.destroyed = false → Tidy cfg.shared.trace)
    (fun _ => .nil) fun cfg l cfg' _ hmove htidy halive => ?_
  rcases moves_adds hmove with ⟨hdestroyed, acts, htrace, hacts⟩ | ⟨t, a, rest, rfl, htop⟩
  · rw [htrace]
    exact (htidy (hdestroyed ▸ halive)).append hacts
  · cases hmove with
    | app htop' happ =>
      obtain ⟨rfl, _⟩ := List.cons.inj (htop'.symm.trans htop)
      dsimp only at halive
      exact absurd (destroy_spec (a := a) happ).1 (by simp [halive])

/-- No event touches `thread_started`. -/
theorem deliver_thread_started {s s' : Sys} {e : Event} {fs : List Frame}
    (h : s.deliver e = some (fs, s')) : s'.c.thread_started = s.c.thread_started := by
  cases e with
  | callback w r a =>
    simp only [Sys.deliver, Option.ite_none_right_eq_some] at h
    exact (callback_owned h.2).1.thread_started
  | exit =>
    simp only [Sys.deliver, Option.ite_none_right_eq_some, Option.map_eq_some_iff,
      Prod.mk.injEq] at h
    obtain ⟨_, ⟨freed, q⟩, _, _, rfl⟩ := h
    rfl
  | service_thread | event_wait_cancelled _ | poll _ | context_destroyed =>
    simp only [Sys.deliver, Option.ite_none_right_eq_some, Option.some.injEq, Prod.mk.injEq] at h
    obtain ⟨_, _, rfl⟩ := h
    rfl

/-- No section goes on to `wsld_destroy`. -/
theorem app_not_destroy {s s' : Sys} {f : AppFrame} {a : Answer} {fs : List AppFrame}
    (h : s.app f a = some (fs, s')) : .wsld_destroy ∉ fs := by
  cases f with
  | enqueue data is_binary => cases data <;> cases h <;> simp
  | enqueue_locked _ _ | enqueue_wake =>
    simp only [Sys.app, Option.some.injEq, Prod.mk.injEq] at h
    obtain ⟨rfl, _⟩ := h
    split <;> simp
  | stop_join | stop_context_destroyed =>
    simp only [Sys.app, Option.ite_none_right_eq_some, Option.some.injEq, Prod.mk.injEq] at h
    obtain ⟨_, rfl, _⟩ := h
    simp
  | wsld_destroy =>
    simp only [Sys.app, Option.map_eq_some_iff, Prod.mk.injEq] at h
    obtain ⟨_, _, rfl, _⟩ := h
    simp
  | wsld_start | start_thread | wsld_stop | stop_context =>
    simp only [Sys.app] at h
    split at h <;> cases h <;> simp
  | lws_cancel_service | start_return | stop_cancel =>
    cases h
    simp

/-- `wsld_destroy` runs on a client that is not started. -/
theorem Reachable.not_started (h : Reachable cfg) :
    .wsld_destroy ∈ cfg.app 0 → cfg.shared.c.thread_started = false := by
  obtain ⟨c, hc, hreach⟩ := h
  refine hreach.invariant_under (J := Lifecycle)
    (I := fun cfg => .wsld_destroy ∈ cfg.app 0 → cfg.shared.c.thread_started = false)
    (fun cfg hcfg => Reachable.lifecycle ⟨c, hc, hcfg⟩) (fun htop => by cases htop)
    fun cfg l cfg' hlife _ hmove hbefore => ?_
  cases hmove with
  | event hdeliver =>
    intro htop
    rw [deliver_thread_started hdeliver]
    exact hbefore htop
  | svc hsvc =>
    intro htop
    rw [(svc_owned hsvc).1.thread_started]
    exact hbefore htop
  | @call t f s svc app hidle hcall =>
    intro hmem
    rcases mem_update_app.mp hmem with ⟨_, hf⟩ | ⟨_, hmem⟩
    · obtain rfl := List.mem_singleton.mp hf
      simp only [system, Sys.call, Bool.and_eq_true, Bool.not_eq_true'] at hcall
      exact hcall.2.2
    · exact hbefore hmem
  | @app t f a s s' svc app rest fs htop happ =>
    obtain rfl := hlife.threads.rest_nil htop
    intro hmem
    rcases mem_update_app.mp hmem with ⟨_, hmem⟩ | ⟨ht, hmem⟩
    · rw [List.append_nil] at hmem
      exact absurd hmem (app_not_destroy happ)
    · rw [(app_sends happ (hlife.threads.guest_of_ne htop (Ne.symm ht))).1.thread_started]
      exact hbefore hmem

/-- While `wsld_destroy` runs there is no service thread. -/
theorem Reachable.idle {s : Sys} {svc : List Frame} {app : Nat → List AppFrame} {t : Nat}
    {rest : List AppFrame} (h : Reachable ⟨s, svc, app⟩) (htop : app t = .wsld_destroy :: rest) :
    svc = [] := by
  have hlife := h.lifecycle
  obtain rfl := hlife.threads.rest_nil htop
  have ht : t = 0 := by
    by_contra ht
    cases hlife.threads.guest_of_ne htop ht
  subst ht
  have hstarted : s.c.thread_started = false := h.not_started (by simp [htop])
  have howner : Owner (app 0).head? s := hlife.owner
  rw [htop, List.head?_cons] at howner
  simp only [Owner, hstarted, Bool.false_eq_true, if_false] at howner
  by_contra hne
  have hrun : s.thread = .running := hlife.busy hne
  rw [howner] at hrun
  cases hrun

/-- When `wsld_destroy` returns, the node of each message that was accepted has
    been freed once, in the order of the sends: those before it after their
    `lws_write` or by the flush, the rest by `wsld_destroy` itself. -/
theorem destroy_frees_all (h : Reachable cfg) (hstep : system.step cfg l = some cfg')
    (halive : cfg.shared.destroyed = false) (hdestroyed : cfg'.shared.destroyed = true) :
    Tidy cfg.shared.trace ∧ frees cfg'.shared.trace = accepted cfg'.shared.trace := by
  have htidy := h.tidy halive
  have hlife := h.lifecycle
  have hfifo := h.fifo
  have hmove := System.step_moves hstep
  refine ⟨htidy, ?_⟩
  rcases moves_adds hmove with ⟨hkept, _⟩ | ⟨t, a, rest, rfl, htop⟩
  · rw [hkept, halive] at hdestroyed
    cases hdestroyed
  · cases hmove with
    | @app t f _ s s' svc app rest' fs htop' happ =>
      obtain ⟨rfl, rfl⟩ := List.cons.inj (htop'.symm.trans htop)
      obtain ⟨_, freed, q, hflush, htrace⟩ := destroy_spec (a := a) happ
      -- No message is between the queue and its write.
      obtain rfl := h.idle htop'
      obtain ⟨ns, hholds, horder⟩ := hfifo
      obtain ⟨q', hq', _⟩ := hholds.flush
      rw [hflush] at hq'
      cases hq'
      have hall : outcomes s.trace ++ freed.map ws_msg_node_t.message = accepted s.trace := by
        simpa [inflight] using horder
      dsimp only at htidy ⊢
      rw [htrace, frees_append, frees_append, frees_free, htidy.frees_eq, accepted_append,
        accepted_append, accepted_free, ← hall]
      simp only [List.append_assoc, List.append_cancel_left_eq, List.nil_append]
      rfl

def send (payload : UInt8) : List Label :=
  [.call 1 (.enqueue (some ⟨[payload], one_byte⟩) false), .app 1 {}, .app 1 {}, .app 1 {}]

/-- Two messages are sent before the connection. One is written on it, and the
    other one is flushed by the stop. A third one is sent after that. -/
def destroy_run : List Label :=
  send 104 ++ send 105 ++ connected_run ++
  [.event (.callback 0 .CLIENT_WRITEABLE {}), .svc {}, .svc {}, .call 0 .wsld_stop, .app 0 {},
    .app 0 {}, .event .exit, .app 0 {}, .app 0 {}, .event .context_destroyed, .app 0 {}] ++
  send 106 ++ [.call 0 .wsld_destroy]

theorem destroy_frees_all_run : ∃ cfg, Reachable cfg ∧
    accepted cfg.shared.trace = [([104], false), ([105], false), ([106], false)] ∧
    frames cfg.shared.trace = [([104], false)] ∧ dropped cfg.shared.trace = [([105], false)] ∧
    frees cfg.shared.trace = accepted cfg.shared.trace := by
  obtain ⟨cfg, hfollows, halive, hnext⟩ : ∃ cfg,
      system.Follows Any (initial (wsld_create "localhost" 9000 none true)) destroy_run cfg ∧
      cfg.shared.destroyed = false ∧
      (system.step cfg (.app 0 {})).any (fun next => next.shared.destroyed &&
        decide (accepted next.shared.trace = [([104], false), ([105], false), ([106], false)] ∧
          frames next.shared.trace = [([104], false)] ∧
          dropped next.shared.trace = [([105], false)])) = true :=
    System.exists_follows_of_run (by decide)
  have hreach : Reachable cfg := ⟨_, wsld_create_fresh _ _ _ _, hfollows.reaches⟩
  cases hstep : system.step cfg (.app 0 {}) with
  | none => simp [hstep] at hnext
  | some next =>
    simp only [hstep, Option.any_some, Bool.and_eq_true, decide_eq_true_eq] at hnext
    obtain ⟨hdestroyed, haccepted, hframes, hdropped⟩ := hnext
    refine ⟨next, ⟨_, wsld_create_fresh _ _ _ _, hfollows.reaches.step trivial hstep⟩, haccepted,
      hframes, hdropped, ?_⟩
    exact (destroy_frees_all hreach hstep halive hdestroyed).2

end lws_client.ws_client
