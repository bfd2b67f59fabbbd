import LwsClientDemo.Population
import LwsClientDemo.WsPool.Sections

open interleaving

namespace lws_client.ws_pool

/-- What the service thread leaves to the application threads. -/
structure Served (s s' : Sys) : Prop where
  stopping : ∀ c, (s'.client c).stopping = (s.client c).stopping
  joined : ∀ c, (s'.client c).pool = (s.client c).pool
  clients : s'.pool.clients = s.pool.clients
  ctx : s'.pool.ctx = s.pool.ctx
  thread_started : s'.pool.thread_started = s.pool.thread_started
  destroying : s'.pool.destroying = s.pool.destroying
  freed : s'.freed = s.freed

theorem Served.refl (s : Sys) : Served s s := ⟨fun _ => rfl, fun _ => rfl, rfl, rfl, rfl, rfl, rfl⟩

theorem Served.act (s : Sys) (lws : lws_context) {c : ClientId} {r : wsp_client × List Act}
    (hstop : r.1.stopping = (s.client c).stopping) (hpool : r.1.pool = (s.client c).pool) :
    Served s ((s.setLws lws).act c r) :=
  ⟨Sys.act_related (R := fun x y => y.stopping = x.stopping) (s := s.setLws lws) (fun _ => rfl) hstop,
    Sys.act_related (R := fun x y => y.pool = x.pool) (s := s.setLws lws) (fun _ => rfl) hpool,
    rfl, rfl, rfl, rfl, rfl⟩

theorem Served.setLws {s s' : Sys} (h : Served s s') (lws : lws_context) :
    Served s (s'.setLws lws) :=
  ⟨h.stopping, h.joined, h.clients, h.ctx, h.thread_started, h.destroying, h.freed⟩

theorem Served.connection_error (s : Sys) (lws : lws_context) (c : ClientId) (msg : Option String) :
    Served s ((s.setLws lws).act c (connection_error (s.client c) msg)) := by
  obtain ⟨_, _, _, hc, _⟩ := connection_error_client (s.client c) msg
  exact .act s lws (by rw [hc]) (by rw [hc])

theorem Served.closed (s : Sys) (lws : lws_context) (c : ClientId) :
    Served s ((s.setLws lws).act c (closed (s.client c))) := by
  obtain ⟨_, _, _, hc, _⟩ := closed_client (s.client c)
  exact .act s lws (by rw [hc]) (by rw [hc])

theorem Served.wsi_destroy (s : Sys) (lws : lws_context) (c : ClientId) (w : WsiId) :
    Served s ((s.setLws lws).act c (wsi_destroy (s.client c) w, [])) := by
  obtain ⟨_, _, hc, _⟩ := wsi_destroy_client (s.client c) w
  exact .act s lws (by rw [hc]) (by rw [hc])

theorem svc_served {f : Frame} {a : Answer} {s s' : Sys} {fs : List Frame}
    (h : s.svc f a = some (fs, s')) : Served s s' ∧ s'.thread = s.thread := by
  cases f with
  | do_connect c =>
    have hserved := Served.act s s.lws (c := c) (r := ({ s.client c with state := .STATE_CONNECTING },
      [.lws_client_connect_via_info (connect_info (s.client c))])) rfl rfl
    simp only [Sys.svc] at h
    split at h <;> cases h <;> exact ⟨hserved.setLws _, rfl⟩
  | connection_error c msg =>
    cases h
    exact ⟨.connection_error s s.lws c msg, rfl⟩
  | wsi_destroy c w =>
    cases h
    exact ⟨.wsi_destroy s s.lws c w, rfl⟩
  | connect_return c wsi =>
    cases h
    exact ⟨.act s s.lws rfl rfl, rfl⟩
  | schedule_arm c =>
    cases h
    obtain ⟨_, _, _, hc, _⟩ := schedule_reconnect_client (s.client c) a.ret
    exact ⟨.act s s.lws (by rw [hc]) (by rw [hc]), rfl⟩
  | lws_callback_on_writable c w =>
    cases h
    exact ⟨.act s s.lws rfl rfl, rfl⟩
  | write c w n more =>
    have hserved := Served.act s s.lws (c := c) (r := (s.client c, writeable_write n w)) rfl rfl
    simp only [Sys.svc] at h
    split at h <;> cases h
    · exact ⟨hserved.setLws _, rfl⟩
    · exact ⟨hserved, rfl⟩
  | event_wait_cancelled =>
    cases h
    exact ⟨⟨fun _ => rfl, fun _ => rfl, rfl, rfl, rfl, rfl, rfl⟩, rfl⟩
  | wc_connect pend =>
    cases pend with
    | nil =>
      cases h
      exact ⟨.refl s, rfl⟩
    | cons c pend =>
      cases h
      exact ⟨.act s s.lws rfl rfl, rfl⟩
  | wc_visit snap =>
    cases snap with
    | nil =>
      cases h
      exact ⟨.refl s, rfl⟩
    | cons c snap =>
      simp only [Sys.svc] at h
      split at h
      · cases h
        exact ⟨.refl s, rfl⟩
      · split at h
        · cases h
          exact ⟨.act s s.lws rfl rfl, rfl⟩
        · split at h <;> cases h <;> exact ⟨.refl s, rfl⟩
  | schedule_reconnect _ | has_data_check _ _ | wc_snapshot =>
    cases h
    exact ⟨.refl s, rfl⟩

theorem callback_served {c : ClientId} {w : WsiId} {a : Answer} {r : Reason} {s s' : Sys}
    {fs : List Frame} (h : s.callback c w a r = some (fs, s')) :
    Served s s' ∧ s'.thread = s.thread := by
  cases r with
  | CLIENT_RECEIVE chunk =>
    simp only [Sys.callback, Option.map_eq_some_iff, Prod.mk.injEq] at h
    obtain ⟨o, ho, rfl, rfl⟩ := h
    obtain ⟨frag, hc⟩ := receive_client ho
    have hserved : Served s (s.act c (o.client, o.acts)) :=
      .act s s.lws (by rw [hc]) (by rw [hc])
    split
    · exact ⟨hserved.setLws _, rfl⟩
    · exact ⟨hserved, rfl⟩
  | CLIENT_WRITEABLE =>
    simp only [Sys.callback] at h
    split at h
    · cases h
      exact ⟨.act s _ rfl rfl, rfl⟩
    · split at h <;> cases h
      · exact ⟨(Served.refl s).setLws _, rfl⟩
      · exact ⟨.act s _ rfl rfl, rfl⟩
  | TIMER =>
    obtain ⟨send_ping, hc⟩ := timer_client (s.client c) w a.ret
    simp only [Sys.callback, Option.some.injEq, Prod.mk.injEq] at h
    obtain ⟨rfl, rfl⟩ := h
    have hserved := Served.act s (s.lws.modify w fun i => { i with timer := none }) (c := c)
      (r := ((timer (s.client c) w a.ret).client, (timer (s.client c) w a.ret).acts))
      (by rw [hc]) (by rw [hc])
    split
    · exact ⟨hserved.setLws _, rfl⟩
    · exact ⟨hserved, rfl⟩
  | CLIENT_CONNECTION_ERROR msg =>
    cases h
    exact ⟨.connection_error s _ c msg, rfl⟩
  | CLIENT_CLOSED =>
    cases h
    exact ⟨.closed s _ c, rfl⟩
  | WSI_DESTROY =>
    cases h
    exact ⟨.wsi_destroy s _ c w, rfl⟩
  | CLIENT_ESTABLISHED =>
    cases h
    exact ⟨.act s _ rfl rfl, rfl⟩
  | CLIENT_RECEIVE_PONG | CLIENT_APPEND_HANDSHAKE_HEADER =>
    cases h
    exact ⟨.act s s.lws rfl rfl, rfl⟩

/-- A connect call makes a connection, or gives one up and reports it. Either way
    nothing of the client but its state changes before the call returns. -/
theorem do_connect_spec {c : ClientId} {a : Answer} {s s' : Sys} {fs : List Frame}
    (h : s.svc (.do_connect c) a = some (fs, s')) :
    (s'.pool = s.pool ∧ s'.thread = s.thread ∧
      (∀ d, s'.client d =
        if d = c then { s.client c with state := .STATE_CONNECTING } else s.client d) ∧
      ∀ d, s'.trace d = if d = c then s.trace c ++
        [.lws_client_connect_via_info (connect_info (s.client c))] else s.trace d) ∧
    ((fs = [.connect_return c (some s.lws.next)] ∧ s'.lws = s.lws.connect c) ∨
      ∃ (error : Option (Option String)) (destroyed : Bool),
        fs = (error.map (Frame.connection_error c)).toList ++
          (if destroyed then [.wsi_destroy c s.lws.next] else []) ++ [.connect_return c none] ∧
        s'.lws = { s.lws with next := s.lws.next + 1 }) := by
  simp only [Sys.svc] at h
  split at h
  · cases h
    exact ⟨⟨rfl, rfl, fun d => s.act_client c d _, fun d => s.act_trace c d _⟩, .inl ⟨rfl, rfl⟩⟩
  · next error destroyed _ =>
    cases h
    exact ⟨⟨rfl, rfl, fun d => s.act_client c d _, fun d => s.act_trace c d _⟩,
      .inr ⟨error, destroyed, rfl, rfl⟩⟩

/-- What an API call does to a client outside its queue: it never connects, and
    it takes no step back. -/
structure Advance (c c' : wsp_client) : Prop where
  wsi : c'.wsi = c.wsi
  state : c'.state = c.state
  sul : c'.sul = c.sul ∨ c'.sul = none
  stopping : c.stopping = true → c'.stopping = true
  stopped : c.stopped = true → c'.stopped = true
  joined : c.pool = true → c'.pool = true

theorem Advance.refl (c : wsp_client) : Advance c c := ⟨rfl, rfl, .inl rfl, id, id, id⟩

theorem destroy_all_client {s s' : Sys} {cs : List ClientId} (h : s.destroy_all cs = some s')
    (d : ClientId) : s'.client d = s.client d := by
  refine destroy_all_rule (R := fun s t => t.client d = s.client d) (fun _ => rfl)
    (fun hfirst hrest => hrest.trans hfirst) (fun hone => ?_) h
  obtain ⟨freed, rfl⟩ := Sys.destroy_client_eq hone
  rw [Sys.act_client]
  split
  · next hd => rw [hd]
  · rfl

theorem app_advance {f : AppFrame} {a : Answer} {s s' : Sys} {fs : List AppFrame}
    (h : s.app f a = some (fs, s')) (d : ClientId) : Advance (s.client d) (s'.client d) := by
  cases app_touches h d with
  | none hclient _ _ =>
    rw [hclient]
    exact .refl _
  | send _ _ hclient _ | flush _ hclient _ =>
    rw [hclient]
    exact ⟨rfl, rfl, .inl rfl, id, id, id⟩
  | add hclient _ =>
    rw [hclient]
    exact ⟨rfl, rfl, .inl rfl, id, id, fun _ => rfl⟩
  | stop _ hclient _ =>
    rw [hclient]
    exact ⟨rfl, rfl, .inl rfl, fun _ => rfl, id, id⟩
  | sul_cancel hclient _ =>
    rw [hclient]
    exact ⟨rfl, rfl, .inr rfl, id, id, id⟩
  | lock _ _ hclient hstopped _ =>
    rw [hclient]
    exact ⟨rfl, rfl, .inl rfl, id, hstopped, id⟩
  | wait _ hclient _ =>
    rw [hclient]
    exact ⟨rfl, rfl, .inl rfl, id, id, id⟩
  | destroy hdestroy =>
    obtain ⟨freed, rfl⟩ := Sys.destroy_client_eq hdestroy
    rw [Sys.act_client, if_pos rfl]
    exact .refl _
  | destroy_all hdestroy hclient _ =>
    rw [hclient, destroy_all_client hdestroy]
    exact .refl _

theorem destroy_all_lws {s s' : Sys} {cs : List ClientId} (h : s.destroy_all cs = some s') :
    s.lws.Calls s'.lws ∧ s'.pool = s.pool := by
  refine destroy_all_rule (R := fun s t => s.lws.Calls t.lws ∧ t.pool = s.pool)
    (fun _ => ⟨.refl _, rfl⟩)
    (fun hfirst hrest => ⟨hfirst.1.trans hrest.1, hrest.2.trans hfirst.2⟩) (fun hone => ?_) h
  obtain ⟨freed, rfl⟩ := Sys.destroy_client_eq hone
  exact ⟨lws_context.calls_performs _ _, rfl⟩

/-- The clients of the pool and their back pointers stay as they are. -/
structure SameMembers (s s' : Sys) : Prop where
  clients : s'.pool.clients = s.pool.clients
  joined : ∀ c, (s'.client c).pool = (s.client c).pool

theorem Sys.act_joined {s : Sys} {c : ClientId} {r : wsp_client × List Act}
    (h : r.1.pool = (s.client c).pool) (d : ClientId) :
    ((s.act c r).client d).pool = (s.client d).pool :=
  Sys.act_field (·.pool) h d

/-- What an API call does to the connections and to the arrays of the pool. -/
inductive Registers (s s' : Sys) : AppFrame → Prop where
  | same {f : AppFrame} : s.lws.Calls s'.lws → SameMembers s s' →
      s'.pool.pending = s.pool.pending → Registers s s' f
  | add {c : ClientId} : s'.lws = s.lws → s'.pool.clients = s.pool.clients ++ [c] →
      s'.pool.pending = s.pool.pending ++ [c] →
      (∀ d, (s'.client d).pool = if d = c then true else (s.client d).pool) →
      Registers s s' (.pool_add_locked c)
  | start : s'.lws = s.lws.destroy → SameMembers s s' → s'.pool.pending = s.pool.pending →
      Registers s s' .wsp_pool_start
  | clear {snap : List ClientId} : s.lws.Calls s'.lws → SameMembers s s' → s'.pool.pending = [] →
      Registers s s' (.destroy_pending snap)

theorem app_registers {f : AppFrame} {a : Answer} {s s' : Sys} {fs : List AppFrame}
    (h : s.app f a = some (fs, s')) : Registers s s' f := by
  cases f with
  | enqueue c data is_binary =>
    cases data <;> cases h
    · exact .same (s.lws.calls_performs _) ⟨rfl, Sys.act_joined rfl⟩ rfl
    · exact .same (.refl _) ⟨rfl, fun _ => rfl⟩ rfl
  | enqueue_locked c data is_binary =>
    simp only [Sys.app, Option.some.injEq, Prod.mk.injEq] at h
    obtain ⟨_, rfl⟩ := h
    refine .same (s.lws.calls_performs _) ⟨rfl, Sys.act_joined ?_⟩ rfl
    rcases enqueue_locked_spec (s.client c) data is_binary a.ok with ⟨n, heq, _⟩ | ⟨ret, acts, _, heq, _⟩ <;>
      rw [heq]
  | wsp_pool_add c =>
    simp only [Sys.app] at h
    split at h <;> cases h
    · exact .same (s.lws.calls_performs _) ⟨rfl, Sys.act_joined rfl⟩ rfl
    · exact .same (.refl _) ⟨rfl, fun _ => rfl⟩ rfl
  | pool_add_locked c =>
    simp only [Sys.app] at h
    split at h
    · cases h
    · split at h
      · cases h
        exact .same (s.lws.calls_performs _) ⟨rfl, Sys.act_joined rfl⟩ rfl
      · next pool hadd =>
        cases h
        rw [wsp_pool.add_spec hadd]
        exact .add rfl rfl rfl fun d => by
          rw [Sys.act_client]
          split <;> rfl
  | wsp_client_stop c =>
    simp only [Sys.app] at h
    split at h <;> cases h
    · exact .same (.refl _) ⟨rfl, fun _ => rfl⟩ rfl
    · exact .same (s.lws.calls_performs _) ⟨rfl, Sys.act_joined rfl⟩ rfl
  | stop_sul_cancel c =>
    cases h
    split
    · exact .same (s.lws.calls_performs _) ⟨rfl, Sys.act_joined rfl⟩ rfl
    · exact .same (.refl _) ⟨rfl, fun _ => rfl⟩ rfl
  | stop_locked c =>
    simp only [Sys.app] at h
    split at h
    · split at h <;> cases h
      · exact .same (s.lws.calls_performs [.lws_cancel_service]) ⟨rfl, fun _ => rfl⟩ rfl
      · exact .same (s.lws.calls_performs [.lws_cancel_service])
          ⟨rfl, Sys.act_joined (s := s.cancel) rfl⟩ rfl
    · cases h
      exact .same (s.lws.calls_performs _) ⟨rfl, Sys.act_joined rfl⟩ rfl
  | stop_wait c =>
    simp only [Sys.app] at h
    split at h
    · cases h
      exact .same (s.lws.calls_performs _) ⟨rfl, Sys.act_joined rfl⟩ rfl
    · split at h
      · cases h
      · split at h <;> cases h
        · exact .same (.refl _) ⟨rfl, fun _ => rfl⟩ rfl
        · exact .same (s.lws.calls_performs _) ⟨rfl, Sys.act_joined rfl⟩ rfl
  | stop_flush c =>
    simp only [Sys.app, Option.map_eq_some_iff, Prod.mk.injEq] at h
    obtain ⟨_, _, _, rfl⟩ := h
    exact .same (s.lws.calls_performs _) ⟨rfl, Sys.act_joined rfl⟩ rfl
  | wsp_client_destroy c =>
    simp only [Sys.app, Option.map_eq_some_iff, Prod.mk.injEq] at h
    obtain ⟨_, hdestroy, _, rfl⟩ := h
    obtain ⟨freed, rfl⟩ := Sys.destroy_client_eq hdestroy
    exact .same (s.lws.calls_performs _) ⟨rfl, Sys.act_joined rfl⟩ rfl
  | wsp_pool_start =>
    simp only [Sys.app] at h
    split at h <;> cases h
    · exact .start rfl ⟨rfl, fun _ => rfl⟩ rfl
    · exact .same (.refl _) ⟨rfl, fun _ => rfl⟩ rfl
  | destroy_pending snap =>
    simp only [Sys.app, Option.map_eq_some_iff, Prod.mk.injEq] at h
    obtain ⟨mid, hdestroy, _, rfl⟩ := h
    obtain ⟨hcalls, hpool⟩ := destroy_all_lws hdestroy
    refine .clear hcalls ⟨by simp [Sys.setPool, hpool], fun c => ?_⟩ rfl
    exact congrArg wsp_client.pool (destroy_all_client hdestroy c)
  | start_thread | destroy_thread | destroy_context =>
    simp only [Sys.app] at h
    split at h <;> cases h <;> exact .same (.refl _) ⟨rfl, fun _ => rfl⟩ rfl
  | destroy_cancel =>
    cases h
    split
    · exact .same (s.lws.calls_performs [.lws_cancel_service]) ⟨rfl, fun _ => rfl⟩ rfl
    · exact .same (.refl _) ⟨rfl, fun _ => rfl⟩ rfl
  | destroy_join | destroy_context_return =>
    simp only [Sys.app, Option.ite_none_right_eq_some, Option.some.injEq, Prod.mk.injEq] at h
    obtain ⟨_, _, rfl⟩ := h
    exact .same (.refl _) ⟨rfl, fun _ => rfl⟩ rfl
  | destroy_stop snap | destroy_clients snap => cases snap <;> cases h <;> exact .same (.refl _) ⟨rfl, fun _ => rfl⟩ rfl
  | lws_cancel_service _ | pool_add_wake | start_cancel =>
    cases h
    exact .same (s.lws.calls_performs [.lws_cancel_service]) ⟨rfl, fun _ => rfl⟩ rfl
  | enqueue_wake _ | start_return | start_pending | wsp_pool_destroy =>
    cases h
    exact .same (.refl _) ⟨rfl, fun _ => rfl⟩ rfl

/-- An API call makes calls on lws only, but for the start, which makes the context. -/
theorem Registers.calls {s s' : Sys} {f : AppFrame} (h : Registers s s' f) :
    s.lws.Calls s'.lws ∨ s'.lws = s.lws.destroy := by
  cases h with
  | same hcalls _ _ | clear hcalls _ _ => exact .inl hcalls
  | add hlws _ _ _ => exact .inl (hlws ▸ .refl _)
  | start hlws _ _ => exact .inr hlws

/-- What the sections of an API call may leave to be run, given the clients of
    the pool. -/
def AppFrame.leads (clients : List ClientId) : AppFrame → List (List AppFrame)
  | .enqueue _ none _ => [[]]
  | .enqueue c (some data) is_binary => [[.enqueue_locked c data is_binary]]
  | .enqueue_locked c _ _ => [[], [.enqueue_wake c]]
  | .enqueue_wake c => [[], [.lws_cancel_service c]]
  | .wsp_pool_add c => [[], [.pool_add_locked c]]
  | .pool_add_locked _ => [[], [.pool_add_wake]]
  | .wsp_client_stop c => [[], [.stop_sul_cancel c]]
  | .stop_sul_cancel c => [[.stop_locked c]]
  | .stop_locked c | .stop_wait c => [[.stop_flush c], [.stop_wait c]]
  | .wsp_pool_start => [[], [.start_thread]]
  | .start_thread => [[], [.start_return]]
  | .start_return => [[.start_pending]]
  | .start_pending => [[], [.start_cancel]]
  | .wsp_pool_destroy =>
    [[.destroy_stop clients, .destroy_thread, .destroy_clients clients, .destroy_pending clients]]
  | .destroy_stop (c :: snap) => [[.wsp_client_stop c, .destroy_stop snap]]
  | .destroy_thread => [[.destroy_context], [.destroy_cancel, .destroy_join, .destroy_context]]
  | .destroy_context => [[], [.destroy_context_return]]
  | .destroy_clients (c :: snap) => [[.wsp_client_destroy c, .destroy_clients snap]]
  | _ => [[]]

theorem app_leads {f : AppFrame} {a : Answer} {s s' : Sys} {fs : List AppFrame}
    (h : s.app f a = some (fs, s')) : fs ∈ f.leads s.pool.clients := by
  cases f with
  | enqueue c data is_binary => cases data <;> cases h <;> simp [AppFrame.leads]
  | enqueue_locked _ _ _ | enqueue_wake _ | start_pending =>
    simp only [Sys.app, Option.some.injEq, Prod.mk.injEq] at h
    obtain ⟨rfl, _⟩ := h
    split <;> simp [AppFrame.leads]
  | wsp_pool_add _ | wsp_client_stop _ | wsp_pool_start | start_thread | destroy_thread |
    destroy_context =>
    simp only [Sys.app] at h
    split at h <;> cases h <;> simp [AppFrame.leads]
  | pool_add_locked c =>
    simp only [Sys.app] at h
    split at h
    · cases h
    · split at h <;> cases h
      · simp [AppFrame.leads]
      · split <;> simp [AppFrame.leads]
  | stop_locked c =>
    simp only [Sys.app] at h
    split at h
    · split at h <;> cases h <;> simp [AppFrame.leads]
    · cases h
      simp [AppFrame.leads]
  | stop_wait c =>
    simp only [Sys.app] at h
    split at h
    · cases h
      simp [AppFrame.leads]
    · split at h
      · cases h
      · split at h <;> cases h <;> simp [AppFrame.leads]
  | stop_flush _ | wsp_client_destroy _ | destroy_pending _ =>
    simp only [Sys.app, Option.map_eq_some_iff, Prod.mk.injEq] at h
    obtain ⟨_, _, rfl, _⟩ := h
    simp [AppFrame.leads]
  | destroy_stop snap | destroy_clients snap => cases snap <;> cases h <;> simp [AppFrame.leads]
  | destroy_join | destroy_context_return =>
    simp only [Sys.app, Option.ite_none_right_eq_some, Option.some.injEq, Prod.mk.injEq] at h
    obtain ⟨_, rfl, _⟩ := h
    simp [AppFrame.leads]
  | lws_cancel_service _ | pool_add_wake | stop_sul_cancel _ | start_return | start_cancel |
    wsp_pool_destroy | destroy_cancel =>
    cases h
    simp [AppFrame.leads]

/-- The client a `wsp_client_stop` in progress has marked. -/
def AppFrame.stops : AppFrame → Option ClientId
  | .stop_sul_cancel c | .stop_locked c | .stop_wait c | .stop_flush c => some c
  | _ => none

/-- A stop goes on for the client it has marked. -/
theorem app_stops {f : AppFrame} {a : Answer} {s s' : Sys} {fs : List AppFrame}
    (h : s.app f a = some (fs, s')) {g : AppFrame} (hg : g ∈ fs) {c : ClientId}
    (hc : g.stops = some c) : f.stops = some c ∨ (s'.client c).stopping = true := by
  have hleads := app_leads h
  cases f with
  | wsp_client_stop d =>
    simp only [Sys.app] at h
    split at h <;> cases h
    · cases hg
    · obtain rfl := List.mem_singleton.mp hg
      cases hc
      exact .inr (by simp)
  | stop_sul_cancel d | stop_locked d | stop_wait d =>
    simp only [AppFrame.leads, List.mem_cons, List.not_mem_nil, or_false] at hleads
    refine .inl ?_
    rcases hleads with rfl | rfl <;> obtain rfl := List.mem_singleton.mp hg <;> exact hc
  | enqueue d data is_binary =>
    cases data <;> simp only [AppFrame.leads, List.mem_singleton] at hleads <;> subst hleads
    · cases hg
    · obtain rfl := List.mem_singleton.mp hg
      cases hc
  | destroy_stop snap | destroy_clients snap =>
    cases snap <;> simp only [AppFrame.leads, List.mem_singleton] at hleads <;> subst hleads <;>
      simp at hg
    rcases hg with rfl | rfl <;> cases hc
  | _ =>
    simp only [AppFrame.leads, List.mem_cons, List.not_mem_nil, or_false] at hleads
    rcases hleads with rfl | rfl <;> simp at hg <;> rcases hg with rfl | rfl | rfl | rfl <;> cases hc

/-- Code that may still be ahead behind the section at the top: the loops of
    EVENT_WAIT_CANCELLED, and the rest of a failing connect call. -/
def Frame.behind : Frame → Bool
  | .wsi_destroy _ _ | .connect_return _ none | .wc_connect _ | .wc_visit _ => true
  | _ => false

theorem svc_behind {f : Frame} {a : Answer} {s s' : Sys} {fs : List Frame}
    (h : s.svc f a = some (fs, s')) : ∀ g ∈ fs.tail, g.behind = true := by
  cases f with
  | do_connect c =>
    simp only [Sys.svc] at h
    split at h
    · cases h
      simp
    · next error destroyed _ =>
      cases h
      cases error <;> cases destroyed <;> simp [Frame.behind]
  | wc_connect pend => cases pend <;> cases h <;> simp [Frame.behind]
  | wc_visit snap =>
    cases snap with
    | nil =>
      cases h
      simp
    | cons c snap =>
      simp only [Sys.svc] at h
      split at h
      · cases h
        simp
      · split at h
        · cases h
          simp
        · split at h <;> cases h <;> simp [Frame.behind]
  | write c w n more =>
    simp only [Sys.svc] at h
    split at h <;> cases h
    · simp
    · split <;> simp
  | wsi_destroy _ _ | schedule_arm _ | lws_callback_on_writable _ _ | event_wait_cancelled |
    wc_snapshot =>
    cases h
    simp
  | connection_error _ _ | connect_return _ _ | schedule_reconnect _ | has_data_check _ _ =>
    simp only [Sys.svc, Option.some.injEq, Prod.mk.injEq] at h
    obtain ⟨rfl, _⟩ := h
    split <;> simp

theorem deliver_behind {e : Event} {s s' : Sys} {fs : List Frame}
    (h : s.deliver e = some (fs, s')) : fs.tail = [] := by
  cases e with
  | callback c w r a =>
    simp only [Sys.deliver, Option.ite_none_right_eq_some] at h
    obtain ⟨_, h⟩ := h
    cases r with
    | CLIENT_RECEIVE chunk =>
      simp only [Sys.callback, Option.map_eq_some_iff, Prod.mk.injEq] at h
      obtain ⟨_, _, rfl, _⟩ := h
      rfl
    | CLIENT_WRITEABLE =>
      simp only [Sys.callback] at h
      split at h
      · cases h
        rfl
      · split at h <;> cases h <;> rfl
    | CLIENT_CONNECTION_ERROR _ | CLIENT_CLOSED =>
      simp only [Sys.callback, Option.some.injEq, Prod.mk.injEq] at h
      obtain ⟨rfl, _⟩ := h
      split <;> rfl
    | CLIENT_ESTABLISHED | TIMER | CLIENT_RECEIVE_PONG | WSI_DESTROY |
      CLIENT_APPEND_HANDSHAKE_HEADER =>
      cases h
      rfl
  | event_wait_cancelled _ | sul_reconnect_cb _ =>
    simp only [Sys.deliver, Option.ite_none_right_eq_some, Option.some.injEq, Prod.mk.injEq] at h
    obtain ⟨_, rfl, _⟩ := h
    split <;> rfl
  | service_thread | exit | context_destroyed =>
    simp only [Sys.deliver, Option.ite_none_right_eq_some, Option.some.injEq, Prod.mk.injEq] at h
    obtain ⟨_, rfl, _⟩ := h
    rfl

end lws_client.ws_pool
