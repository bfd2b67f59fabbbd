import LwsClientDemo.Traffic
import LwsClientDemo.WsClient.System

open interleaving

namespace lws_client.ws_client

@[simp] theorem Sys.act_c (s : Sys) (r : wsld_client × List Act) : (s.act r).c = r.1 := rfl

@[simp] theorem Sys.act_lws (s : Sys) (r : wsld_client × List Act) :
    (s.act r).lws = s.lws.performs r.2 := rfl

@[simp] theorem Sys.act_thread (s : Sys) (r : wsld_client × List Act) :
    (s.act r).thread = s.thread := rfl

@[simp] theorem Sys.act_trace (s : Sys) (r : wsld_client × List Act) :
    (s.act r).trace = s.trace ++ r.2 := rfl

@[simp] theorem Sys.setLws_c (s : Sys) (lws : lws_context) : (s.setLws lws).c = s.c := rfl

@[simp] theorem Sys.setLws_lws (s : Sys) (lws : lws_context) : (s.setLws lws).lws = lws := rfl

@[simp] theorem Sys.setLws_thread (s : Sys) (lws : lws_context) :
    (s.setLws lws).thread = s.thread := rfl

@[simp] theorem Sys.setLws_trace (s : Sys) (lws : lws_context) :
    (s.setLws lws).trace = s.trace := rfl

theorem receive_client {c : wsld_client} {chunk : Chunk} {ok : Bool} {o : Out wsld_client}
    (h : receive c chunk ok = some o) : ∃ frag, o.client = { c with frag } := by
  unfold receive at h
  split at h
  · cases h
    exact ⟨c.frag, rfl⟩
  · simp only [Option.map_eq_some_iff] at h
    obtain ⟨⟨ret, f⟩, _, rfl⟩ := h
    dsimp only
    split
    · exact ⟨f, rfl⟩
    · split
      · exact ⟨f.reset, rfl⟩
      · exact ⟨f, rfl⟩

theorem timer_client (c : wsld_client) (w : WsiId) :
    ∃ send_ping, (timer c w).client = { c with send_ping } := by
  unfold timer
  split
  · exact ⟨c.send_ping, rfl⟩
  · exact ⟨true, rfl⟩

/-- The end of a connection, or of a connect call, touches the link to lws and
    the reconnect schedule. A stopping client keeps its state. -/
theorem closed_client (c : wsld_client) (now : Int) :
    ∃ delay reconnect_at state,
      closed c now = { c with
        wsi := none, reconnect_delay_ms := delay, reconnect_at, state } ∧
      (state = .STATE_RECONNECT_WAIT ∨ (c.stopping = true ∧ state = c.state)) := by
  unfold closed
  dsimp only
  split
  · next hstop => exact ⟨c.reconnect_delay_ms, c.reconnect_at, c.state, rfl, .inr ⟨hstop, rfl⟩⟩
  · exact ⟨_, _, _, rfl, .inl rfl⟩

theorem wsi_destroy_client (c : wsld_client) (w : WsiId) :
    ∃ wsi, wsi_destroy c w = { c with wsi } := by
  unfold wsi_destroy
  split
  · exact ⟨none, rfl⟩
  · exact ⟨c.wsi, rfl⟩

/-- A send is accepted exactly when its message is appended; otherwise the
    client is unchanged. -/
theorem enqueue_locked_spec (c : wsld_client) (data : Data) (is_binary ok : Bool) :
    (∃ n, enqueue_locked c data is_binary ok = (.LWS_OK, { c with q := c.q.append n }) ∧
        n.message = (data.bytes, is_binary)) ∨
      enqueue_locked c data is_binary ok = (.LWS_ERR_QUEUE_FULL, c) := by
  unfold enqueue_locked
  split
  · exact .inr rfl
  · next n hn =>
    split
    · exact .inr rfl
    · exact .inl ⟨n, rfl, (msg_node_new_message hn).1⟩

/-- RECEIVE calls `rx_cb` only. -/
theorem receive_acts {p : Act → Bool} (hrx : ∀ data is_binary, p (.rx_cb data is_binary) = true)
    {c : wsld_client} {chunk : Chunk} {ok : Bool} {o : Out wsld_client}
    (h : receive c chunk ok = some o) : Every p o.acts := by
  unfold receive at h
  split at h
  · cases h
    exact Every.callIf (hrx _ _)
  · simp only [Option.map_eq_some_iff] at h
    obtain ⟨⟨ret, f⟩, _, rfl⟩ := h
    dsimp only
    split
    · exact Every.nil
    · split
      · exact Every.callIf (hrx _ _)
      · exact Every.nil

theorem timer_plain (c : wsld_client) (w : WsiId) : Plain (timer c w).acts := by
  unfold timer
  split
  · exact Every.nil
  · intro act hact
    simp only [List.mem_cons, List.not_mem_nil, or_false] at hact
    rcases hact with rfl | rfl <;> rfl

/-- The node taken off the queue by the WRITEABLE callback that is running. -/
def inflight (fs : List Frame) : List ws_msg_node_t :=
  fs.filterMap fun
    | .write _ n _ => some n
    | _ => none

theorem inflight_append (fs gs : List Frame) : inflight (fs ++ gs) = inflight fs ++ inflight gs :=
  List.filterMap_append

theorem inflight_requests (ws : List WsiId) : inflight (ws.map .lws_callback_on_writable) = [] := by
  simp [inflight, List.filterMap_map]

/-- What a section leaves as it is: the configuration, the queue and the
    reassembly buffer. -/
structure Kept (c c' : wsld_client) : Prop where
  config : c'.towsld_config = c.towsld_config
  q : c'.q = c.q
  frag : c'.frag = c.frag

theorem Kept.refl (c : wsld_client) : Kept c c := ⟨rfl, rfl, rfl⟩

theorem Kept.closed (c : wsld_client) (now : Int) : Kept c (closed c now) := by
  obtain ⟨_, _, _, hc, _⟩ := closed_client c now
  rw [hc]
  exact ⟨rfl, rfl, rfl⟩

theorem Kept.wsi_destroy (c : wsld_client) (w : WsiId) : Kept c (wsi_destroy c w) := by
  obtain ⟨_, hc⟩ := wsi_destroy_client c w
  rw [hc]
  exact ⟨rfl, rfl, rfl⟩

/-- What a section of the service thread does to the queue, the reassembly
    buffer and the trace: nothing that counts, or the write of the node in
    flight. -/
theorem svc_spec {f : Frame} {a : Answer} {s s' : Sys} {fs : List Frame}
    (h : s.svc f a = some (fs, s')) :
    Kept s.c s'.c ∧ inflight fs = [] ∧
      ∃ acts, s'.trace = s.trace ++ acts ∧ ((Plain acts ∧ inflight [f] = []) ∨
        ∃ w n more, f = .write w n more ∧ acts = writeable_write n w) := by
  have hsilent : s.trace = s.trace ++ [] := (List.append_nil _).symm
  cases f with
  | do_connect =>
    have hplain : Plain [.lws_client_connect_via_info (connect_info s.c)] := Every.single rfl
    simp only [Sys.svc] at h
    split at h
    · cases h
      exact ⟨⟨rfl, rfl, rfl⟩, rfl, _, rfl, .inl ⟨hplain, rfl⟩⟩
    · next error destroyed _ =>
      cases h
      refine ⟨⟨rfl, rfl, rfl⟩, ?_, _, rfl, .inl ⟨hplain, rfl⟩⟩
      cases error <;> cases destroyed <;> rfl
  | connection_error msg =>
    cases h
    exact ⟨.closed s.c a.now, rfl, [], rfl, .inl ⟨Every.nil, rfl⟩⟩
  | wsi_destroy w =>
    cases h
    exact ⟨.wsi_destroy s.c w, rfl, [], rfl, .inl ⟨Every.nil, rfl⟩⟩
  | connect_return wsi =>
    cases wsi <;> cases h <;> exact ⟨⟨rfl, rfl, rfl⟩, rfl, [], rfl, .inl ⟨Every.nil, rfl⟩⟩
  | has_data_check w =>
    simp only [Sys.svc, Option.some.injEq, Prod.mk.injEq] at h
    obtain ⟨rfl, rfl⟩ := h
    exact ⟨.refl s.c, by split <;> rfl, [], hsilent, .inl ⟨Every.nil, rfl⟩⟩
  | lws_callback_on_writable w =>
    cases h
    exact ⟨⟨rfl, rfl, rfl⟩, rfl, _, rfl, .inl ⟨Every.single rfl, rfl⟩⟩
  | write w n more =>
    simp only [Sys.svc] at h
    split at h
    · cases h
      exact ⟨⟨rfl, rfl, rfl⟩, rfl, _, rfl, .inr ⟨w, n, more, rfl, rfl⟩⟩
    · cases h
      exact ⟨⟨rfl, rfl, rfl⟩, by split <;> rfl, _, rfl, .inr ⟨w, n, more, rfl, rfl⟩⟩
  | event_wait_cancelled =>
    cases h
    exact ⟨.refl s.c, inflight_requests _, [], hsilent, .inl ⟨Every.nil, rfl⟩⟩

/-- The chunk an event carries. -/
def Event.receives : Event → Option Chunk
  | .callback _ (.CLIENT_RECEIVE chunk) _ => some chunk
  | _ => none

/-- What an event does to the queue, the reassembly buffer and the trace. -/
inductive Effect (s s' : Sys) (acts : List Act) : Event → List Frame → Prop where
  | plain {e : Event} {fs : List Frame} : e.receives = none → Plain acts → Kept s.c s'.c →
      inflight fs = [] → Effect s s' acts e fs
  | receive {w : WsiId} {chunk : Chunk} {a : Answer} {o : Out wsld_client} :
      receive s.c chunk a.ok = some o → acts = o.acts → s'.c = o.client →
      Effect s s' acts (.callback w (.CLIENT_RECEIVE chunk) a) []
  | ping {w : WsiId} {a : Answer} : acts = (writeable_ping s.c w).2 → Kept s.c s'.c →
      Effect s s' acts (.callback w .CLIENT_WRITEABLE a) [.has_data_check w]
  | dequeue {w : WsiId} {a : Answer} {n : ws_msg_node_t} {q : SendQueue} :
      s.c.q.dequeue = (some n, q) → acts = [] → s'.c = { s.c with q } →
      Effect s s' acts (.callback w .CLIENT_WRITEABLE a) [.write w n q.has_data]
  | exit {freed : List ws_msg_node_t} {q : SendQueue} :
      s.thread = .running → s'.thread = .exited → ws_flush_queue s.c.q = some (freed, q) →
      acts = (freed.map fun n => .flush_node n.payload n.is_binary) → s'.c = { s.c with q } →
      Effect s s' acts .exit []

theorem callback_spec {w : WsiId} {a : Answer} {r : Reason} {s s' : Sys} {fs : List Frame}
    (h : s.callback w a r = some (fs, s')) :
    ∃ acts, s'.trace = s.trace ++ acts ∧ Effect s s' acts (.callback w r a) fs := by
  have hsilent : s.trace = s.trace ++ [] := (List.append_nil _).symm
  cases r with
  | CLIENT_ESTABLISHED =>
    cases h
    exact ⟨_, rfl, .plain rfl (Every.single rfl) ⟨rfl, rfl, rfl⟩ rfl⟩
  | CLIENT_RECEIVE chunk =>
    simp only [Sys.callback, Option.map_eq_some_iff, Prod.mk.injEq] at h
    obtain ⟨o, ho, rfl, rfl⟩ := h
    exact ⟨o.acts, by split <;> rfl, .receive ho rfl (by split <;> rfl)⟩
  | CLIENT_WRITEABLE =>
    simp only [Sys.callback] at h
    split at h
    · cases h
      exact ⟨_, rfl, .ping rfl ⟨rfl, rfl, rfl⟩⟩
    · split at h
      · cases h
        exact ⟨[], hsilent, .plain rfl Every.nil ⟨rfl, rfl, rfl⟩ rfl⟩
      · next n q hdequeue =>
        cases h
        exact ⟨[], hsilent, .dequeue hdequeue rfl rfl⟩
  | TIMER =>
    obtain ⟨send_ping, hc⟩ := timer_client s.c w
    simp only [Sys.callback, Option.some.injEq, Prod.mk.injEq] at h
    obtain ⟨rfl, rfl⟩ := h
    refine ⟨_, by split <;> rfl, .plain rfl (timer_plain s.c w) ?_ rfl⟩
    split <;> exact ⟨by simp [hc], by simp [hc], by simp [hc]⟩
  | CLIENT_RECEIVE_PONG =>
    cases h
    exact ⟨_, rfl, .plain rfl (Every.single rfl) ⟨rfl, rfl, rfl⟩ rfl⟩
  | CLIENT_CONNECTION_ERROR _ | CLIENT_CLOSED =>
    cases h
    exact ⟨[], rfl, .plain rfl Every.nil (.closed s.c a.now) rfl⟩
  | WSI_DESTROY =>
    cases h
    exact ⟨[], rfl, .plain rfl Every.nil (.wsi_destroy s.c w) rfl⟩
  | CLIENT_APPEND_HANDSHAKE_HEADER =>
    cases h
    exact ⟨[], hsilent, .plain rfl Every.nil (.refl s.c) rfl⟩

theorem deliver_spec {e : Event} {s s' : Sys} {fs : List Frame}
    (h : s.deliver e = some (fs, s')) :
    ∃ acts, s'.trace = s.trace ++ acts ∧ Effect s s' acts e fs := by
  have hsilent : s.trace = s.trace ++ [] := (List.append_nil _).symm
  cases e with
  | callback w r a =>
    simp only [Sys.deliver, Option.ite_none_right_eq_some] at h
    exact callback_spec h.2
  | event_wait_cancelled wsi =>
    simp only [Sys.deliver, Option.ite_none_right_eq_some, Option.some.injEq, Prod.mk.injEq] at h
    obtain ⟨_, rfl, rfl⟩ := h
    exact ⟨[], hsilent, .plain rfl Every.nil ⟨rfl, rfl, rfl⟩ (by split <;> rfl)⟩
  | exit =>
    simp only [Sys.deliver, Option.ite_none_right_eq_some, Option.map_eq_some_iff,
      Prod.mk.injEq] at h
    obtain ⟨⟨hrun, _⟩, ⟨freed, q⟩, hflush, rfl, rfl⟩ := h
    exact ⟨_, rfl, .exit hrun rfl hflush rfl rfl⟩
  | service_thread | poll _ | context_destroyed =>
    simp only [Sys.deliver, Option.ite_none_right_eq_some, Option.some.injEq, Prod.mk.injEq] at h
    obtain ⟨_, rfl, rfl⟩ := h
    exact ⟨[], hsilent, .plain rfl Every.nil ⟨rfl, rfl, rfl⟩ rfl⟩

/-- What a section of an API call does to the queue and the trace. -/
theorem app_spec {f : AppFrame} {a : Answer} {s s' : Sys} {fs : List AppFrame}
    (h : s.app f a = some (fs, s')) :
    s'.c.towsld_config = s.c.towsld_config ∧ s'.c.frag = s.c.frag ∧
      ∃ acts, s'.trace = s.trace ++ acts ∧
        ((s'.c.q = s.c.q ∧ Plain acts) ∨
          (f = .start_thread ∧ s'.c.q = s.c.q ∧ acts = [.pthread_create]) ∨
          ∃ n data is_binary, s'.c.q = s.c.q.append n ∧ n.message = (data, is_binary) ∧
            acts = [.send_returns data is_binary .LWS_OK]) := by
  have hsilent : s.trace = s.trace ++ [] := (List.append_nil _).symm
  cases f with
  | enqueue data is_binary =>
    cases data with
    | none =>
      cases h
      exact ⟨rfl, rfl, _, rfl, .inl ⟨rfl, Every.single rfl⟩⟩
    | some data =>
      cases h
      exact ⟨rfl, rfl, [], hsilent, .inl ⟨rfl, Every.nil⟩⟩
  | enqueue_locked data is_binary =>
    simp only [Sys.app, Option.some.injEq, Prod.mk.injEq] at h
    obtain ⟨_, rfl⟩ := h
    rcases enqueue_locked_spec s.c data is_binary a.ok with ⟨n, heq, hmessage⟩ | heq
    · rw [heq]
      exact ⟨rfl, rfl, _, rfl, .inr (.inr ⟨n, data.bytes, is_binary, rfl, hmessage, rfl⟩)⟩
    · rw [heq]
      exact ⟨rfl, rfl, _, rfl, .inl ⟨rfl, Every.single rfl⟩⟩
  | lws_cancel_service =>
    cases h
    exact ⟨rfl, rfl, _, rfl, .inl ⟨rfl, Every.single rfl⟩⟩
  | wsld_start | wsld_stop | stop_context =>
    simp only [Sys.app] at h
    split at h <;> cases h <;> exact ⟨rfl, rfl, [], by simp, .inl ⟨rfl, Every.nil⟩⟩
  | start_thread =>
    simp only [Sys.app] at h
    split at h
    · cases h
      exact ⟨rfl, rfl, _, rfl, .inr (.inl ⟨rfl, rfl, rfl⟩)⟩
    · cases h
      exact ⟨rfl, rfl, _, rfl, .inl ⟨rfl, Every.nil⟩⟩
  | stop_cancel =>
    cases h
    refine ⟨rfl, rfl, _, rfl, .inl ⟨rfl, ?_⟩⟩
    dsimp only
    split
    · exact Every.single rfl
    · exact Every.nil
  | stop_join | stop_context_destroyed =>
    simp only [Sys.app, Option.ite_none_right_eq_some, Option.some.injEq, Prod.mk.injEq] at h
    obtain ⟨_, _, rfl⟩ := h
    exact ⟨rfl, rfl, [], rfl, .inl ⟨rfl, Every.nil⟩⟩
  | enqueue_wake | start_return =>
    cases h
    exact ⟨rfl, rfl, [], by simp, .inl ⟨rfl, Every.nil⟩⟩
  | wsld_destroy =>
    simp only [Sys.app, Option.map_eq_some_iff, Prod.mk.injEq] at h
    obtain ⟨⟨freed, q⟩, _, _, rfl⟩ := h
    exact ⟨rfl, rfl, _, rfl, .inl ⟨rfl, (Every.map (fun _ => rfl) freed).append (Every.single rfl)⟩⟩

/-- No step of a run changes the configuration. -/
theorem Reaches.config {ok : Config → Label → Prop} {c : wsld_client} {cfg : Config}
    (h : system.Reaches ok (initial c) cfg) : cfg.shared.c.towsld_config = c.towsld_config := by
  refine h.invariant (I := fun cfg => cfg.shared.c.towsld_config = c.towsld_config) rfl
    fun cfg l next _ hmove hbefore => ?_
  cases hmove with
  | event hdeliver =>
    obtain ⟨acts, _, heffect⟩ := deliver_spec hdeliver
    refine Eq.trans ?_ hbefore
    cases heffect with
    | plain _ _ hkept _ | ping _ hkept => exact hkept.config
    | receive ho _ hc =>
      obtain ⟨frag, hclient⟩ := receive_client ho
      rw [hc, hclient]
    | dequeue _ _ hc | exit _ _ _ _ hc => rw [hc]
  | svc hsvc => exact (svc_spec hsvc).1.config.trans hbefore
  | call _ _ => exact hbefore
  | app _ happ => exact (app_spec happ).1.trans hbefore

/-- The calls of a step. -/
def calls (cfg : Config) (l : Label) : List Act :=
  ((system.step cfg l).map fun next => next.shared.trace.drop cfg.shared.trace.length).getD []

theorem calls_eq {cfg next : Config} {l : Label} {acts : List Act}
    (hstep : system.step cfg l = some next) (htrace : next.shared.trace = cfg.shared.trace ++ acts) :
    calls cfg l = acts := by
  simp [calls, hstep, htrace]

end lws_client.ws_client
