import LwsClientDemo.Frees
import LwsClientDemo.Handles
import LwsClientDemo.WsClientV2.System

open interleaving

namespace lws_client.ws_client_v2

@[simp] theorem Sys.act_c (s : Sys) (r : wsl_client × List Act) : (s.act r).c = r.1 := rfl

@[simp] theorem Sys.act_lws (s : Sys) (r : wsl_client × List Act) :
    (s.act r).lws = s.lws.performs r.2 := rfl

@[simp] theorem Sys.act_thread (s : Sys) (r : wsl_client × List Act) :
    (s.act r).thread = s.thread := rfl

@[simp] theorem Sys.act_trace (s : Sys) (r : wsl_client × List Act) :
    (s.act r).trace = s.trace ++ r.2 := rfl

@[simp] theorem Sys.setLws_c (s : Sys) (lws : lws_context) : (s.setLws lws).c = s.c := rfl

@[simp] theorem Sys.setLws_lws (s : Sys) (lws : lws_context) : (s.setLws lws).lws = lws := rfl

@[simp] theorem Sys.setLws_thread (s : Sys) (lws : lws_context) :
    (s.setLws lws).thread = s.thread := rfl

@[simp] theorem Sys.setLws_trace (s : Sys) (lws : lws_context) :
    (s.setLws lws).trace = s.trace := rfl

/-- `c'` has the configuration of `c`. -/
def wsl_client.SameConfig (c c' : wsl_client) : Prop :=
  ∃ fail_count ctx wsi started stopping state delay sul send_ping ping_pending q frag,
    c' = { c with
      reconnect_fail_count := fail_count, ctx, wsi, thread_started := started, stopping, state
      reconnect_delay_ms := delay, sul, send_ping, ping_pending, q, frag }

theorem wsl_client.SameConfig.refl (c : wsl_client) : c.SameConfig c :=
  ⟨_, _, _, _, _, _, _, _, _, _, _, _, rfl⟩

theorem wsl_client.SameConfig.trans {c c' c'' : wsl_client} (h₁ : c.SameConfig c')
    (h₂ : c'.SameConfig c'') : c.SameConfig c'' := by
  obtain ⟨_, _, _, _, _, _, _, _, _, _, _, _, rfl⟩ := h₁
  obtain ⟨_, _, _, _, _, _, _, _, _, _, _, _, rfl⟩ := h₂
  exact ⟨_, _, _, _, _, _, _, _, _, _, _, _, rfl⟩

theorem schedule_reconnect_client (c : wsl_client) (ret : Int) :
    ∃ delay state sul,
      (schedule_reconnect c ret).1 = { c with reconnect_delay_ms := delay, state, sul } ∧
        (state = .STATE_RECONNECT_WAIT ∨ state = .STATE_STOPPED) := by
  unfold schedule_reconnect
  dsimp only
  split
  · split
    · exact ⟨_, _, _, rfl, .inr rfl⟩
    · exact ⟨_, _, _, rfl, .inl rfl⟩
  · exact ⟨_, _, _, rfl, .inl rfl⟩

theorem receive_client {c : wsl_client} {chunk : Chunk} {ok : Bool} {o : Out wsl_client}
    (h : receive c chunk ok = some o) : ∃ frag, o.client = { c with frag } := by
  unfold receive at h
  dsimp only at h
  split at h
  · cases h
    exact ⟨c.frag, rfl⟩
  · simp only [Option.map_eq_some_iff] at h
    obtain ⟨⟨ret, f⟩, _, rfl⟩ := h
    dsimp only
    split
    · exact ⟨f, rfl⟩
    · split
      · exact ⟨f.reset, rfl⟩
      · exact ⟨f, rfl⟩

theorem timer_client (c : wsl_client) (tick : Int) :
    (timer c tick).client = c ∨ (timer c tick).client = { c with send_ping := true } := by
  unfold timer
  dsimp only
  split
  · exact .inl rfl
  · split
    · exact .inl rfl
    · exact .inr rfl

theorem connection_error_client (c : wsl_client) (msg : Option String) :
    ∃ n, (connection_error c msg).1 =
      { c with wsi := none, state := .STATE_RECONNECT_WAIT, reconnect_fail_count := n } := by
  unfold connection_error
  dsimp only
  split
  · exact ⟨c.reconnect_fail_count, rfl⟩
  · exact ⟨c.reconnect_fail_count + 1, rfl⟩

theorem closed_client (c : wsl_client) :
    ∃ n, (closed c).1 =
      { c with wsi := none, state := .STATE_RECONNECT_WAIT, reconnect_fail_count := n } := by
  unfold closed
  dsimp only
  split
  · exact ⟨c.reconnect_fail_count, rfl⟩
  · exact ⟨c.reconnect_fail_count + 1, rfl⟩

theorem wsi_destroy_client (c : wsl_client) (w : WsiId) :
    ∃ wsi, wsi_destroy c w = { c with wsi } := by
  unfold wsi_destroy
  split
  · exact ⟨none, rfl⟩
  · exact ⟨c.wsi, rfl⟩

/-- A send is accepted exactly when its message is appended; otherwise the
    client is unchanged. -/
theorem enqueue_msg_locked_spec (c : wsl_client) (data : Data) (is_binary ok : Bool) :
    (∃ n, enqueue_msg_locked c data is_binary ok = (.LWS_OK, { c with q := c.q.append n }) ∧
        n.message = (data.bytes, is_binary)) ∨
      enqueue_msg_locked c data is_binary ok = (.LWS_ERR_QUEUE_FULL, c) := by
  unfold enqueue_msg_locked
  split
  · exact .inr rfl
  · split
    · exact .inr rfl
    · split
      · exact .inr rfl
      · next n hn => exact .inl ⟨n, rfl, (ws_msg_new_message hn).1⟩

/-- Plain calls that also free no node. -/
def mild : Act → Bool
  | .free_node _ _ => false
  | act => act.plain

abbrev Mild (acts : List Act) : Prop := Every mild acts

theorem Mild.plain {acts : List Act} (h : Mild acts) : Plain acts := by
  intro act hact
  have hmild := h act hact
  cases act <;> first | exact hmild | cases hmild

theorem request_writable_mild (c : wsl_client) : Mild (request_writable c) :=
  Every.onWsi fun _ => rfl

theorem timer_set_mild (c : wsl_client) :
    Mild (if c.ping_interval_ms > 0 then
      onWsi c.wsi fun w => .lws_set_timer_usecs w (c.ping_interval_ms * 1000) else []) := by
  split
  · exact Every.onWsi fun _ => rfl
  · exact Every.nil

theorem established_mild (c : wsl_client) : Mild (established c).2 := by
  unfold established
  apply Every.append
  · apply Every.append
    · exact timer_set_mild c
    · exact Every.callIf rfl
  · exact Every.callIf rfl

/-- RECEIVE calls `rx_cb` and `on_message` only. -/
theorem receive_acts {p : Act → Bool} (hrx : ∀ data is_binary, p (.rx_cb data is_binary) = true)
    (hmessage : ∀ data is_binary, p (.on_message data is_binary) = true) {c : wsl_client}
    {chunk : Chunk} {ok : Bool} {o : Out wsl_client} (h : receive c chunk ok = some o) :
    Every p o.acts := by
  have hdeliver : ∀ (rx message : Bool) (data : List UInt8),
      Every p (callIf rx (.rx_cb data chunk.frame_is_binary) ++
        callIf message (.on_message data chunk.frame_is_binary)) := fun _ _ _ =>
    (Every.callIf (hrx _ _)).append (Every.callIf (hmessage _ _))
  unfold receive at h
  dsimp only at h
  split at h
  · cases h
    exact hdeliver _ _ _
  · simp only [Option.map_eq_some_iff] at h
    obtain ⟨⟨ret, f⟩, _, rfl⟩ := h
    dsimp only
    split
    · exact Every.nil
    · split
      · exact hdeliver _ _ _
      · exact Every.nil

theorem timer_mild (c : wsl_client) (tick : Int) : Mild (timer c tick).acts := by
  have hasked : Mild (callIf (hooked c.hooks (·.on_heartbeat_tick)) .on_heartbeat_tick) :=
    Every.callIf rfl
  unfold timer
  dsimp only
  split
  · exact hasked.append (timer_set_mild c)
  · split
    · exact hasked
    · exact hasked.append (request_writable_mild c)

theorem schedule_reconnect_mild (c : wsl_client) (ret : Int) :
    Mild (schedule_reconnect c ret).2 := by
  unfold schedule_reconnect
  dsimp only
  split
  · split
    · exact Every.single rfl
    · intro act hact
      simp only [List.mem_cons, List.not_mem_nil, or_false] at hact
      rcases hact with rfl | rfl <;> rfl
  · exact Every.single rfl

theorem connection_error_mild (c : wsl_client) (msg : Option String) :
    Mild (connection_error c msg).2 := by
  unfold connection_error
  dsimp only
  split
  · exact Every.nil
  · apply Every.append
    · apply Every.append
      · apply Every.append
        · exact Every.callIf rfl
        · exact Every.callIf rfl
      · exact Every.callIf rfl
    · exact Every.callIf rfl

theorem closed_mild (c : wsl_client) : Mild (closed c).2 := by
  unfold closed
  dsimp only
  split
  · exact Every.nil
  · apply Every.append
    · exact Every.callIf rfl
    · exact Every.callIf rfl

theorem event_wait_cancelled_mild (c : wsl_client) : Mild (event_wait_cancelled c) := by
  unfold event_wait_cancelled
  split
  · exact Every.nil
  · exact request_writable_mild c

/-- The node taken off the queue by the WRITEABLE callback that is running. -/
def inflight (fs : List Frame) : List ws_msg_node_t :=
  fs.filterMap fun
    | .write _ n => some n
    | _ => none

theorem inflight_append (fs gs : List Frame) : inflight (fs ++ gs) = inflight fs ++ inflight gs :=
  List.filterMap_append

/-- What a section of the service thread does to the queue, the reassembly
    buffer and the trace: nothing that counts, or the write of the node in
    flight. -/
theorem svc_spec {f : Frame} {a : Answer} {s s' : Sys} {fs : List Frame}
    (h : s.svc f a = some (fs, s')) :
    s.c.SameConfig s'.c ∧ s'.c.q = s.c.q ∧ s'.c.frag = s.c.frag ∧ inflight fs = [] ∧
      ∃ acts, s'.trace = s.trace ++ acts ∧ ((Plain acts ∧ inflight [f] = []) ∨
        ∃ w n, f = .write w n ∧ acts = writeable_write n w) := by
  cases f with
  | do_connect =>
    have hplain : Plain [.lws_client_connect_via_info (connect_info s.c)] := Every.single rfl
    simp only [Sys.svc] at h
    split at h
    · cases h
      exact ⟨⟨_, _, _, _, _, _, _, _, _, _, _, _, rfl⟩, rfl, rfl, rfl, _, rfl, .inl ⟨hplain, rfl⟩⟩
    · next error destroyed _ =>
      cases h
      refine ⟨⟨_, _, _, _, _, _, _, _, _, _, _, _, rfl⟩, rfl, rfl, ?_, _, rfl, .inl ⟨hplain, rfl⟩⟩
      cases error <;> cases destroyed <;> rfl
  | connection_error msg =>
    have hplain := (connection_error_mild s.c msg).plain
    obtain ⟨n, hc⟩ := connection_error_client s.c msg
    simp only [Sys.svc, Option.some.injEq, Prod.mk.injEq] at h
    obtain ⟨rfl, rfl⟩ := h
    refine ⟨?_, ?_, ?_, by split <;> rfl, _, rfl, .inl ⟨hplain, rfl⟩⟩
    · rw [Sys.act_c, hc]
      exact ⟨_, _, _, _, _, _, _, _, _, _, _, _, rfl⟩
    · rw [Sys.act_c, hc]
    · rw [Sys.act_c, hc]
  | wsi_destroy w =>
    obtain ⟨wsi, hc⟩ := wsi_destroy_client s.c w
    simp only [Sys.svc, Option.some.injEq, Prod.mk.injEq] at h
    obtain ⟨rfl, rfl⟩ := h
    refine ⟨?_, ?_, ?_, rfl, _, rfl, .inl ⟨Every.nil, rfl⟩⟩
    · rw [Sys.act_c, hc]
      exact ⟨_, _, _, _, _, _, _, _, _, _, _, _, rfl⟩
    · rw [Sys.act_c, hc]
    · rw [Sys.act_c, hc]
  | connect_return connected =>
    simp only [Sys.svc] at h
    split at h
    · cases h
      exact ⟨.refl _, rfl, rfl, rfl, [], (List.append_nil _).symm, .inl ⟨Every.nil, rfl⟩⟩
    · cases h
      exact ⟨⟨_, _, _, _, _, _, _, _, _, _, _, _, rfl⟩, rfl, rfl, rfl, _, rfl,
        .inl ⟨Every.nil, rfl⟩⟩
  | schedule_reconnect =>
    have hplain := (schedule_reconnect_mild s.c a.ret).plain
    obtain ⟨delay, state, sul, hc, _⟩ := schedule_reconnect_client s.c a.ret
    simp only [Sys.svc, Option.some.injEq, Prod.mk.injEq] at h
    obtain ⟨rfl, rfl⟩ := h
    refine ⟨?_, ?_, ?_, rfl, _, rfl, .inl ⟨hplain, rfl⟩⟩
    · rw [Sys.act_c, hc]
      exact ⟨_, _, _, _, _, _, _, _, _, _, _, _, rfl⟩
    · rw [Sys.act_c, hc]
    · rw [Sys.act_c, hc]
  | q_head_check =>
    simp only [Sys.svc, Option.some.injEq, Prod.mk.injEq] at h
    obtain ⟨rfl, rfl⟩ := h
    exact ⟨.refl _, rfl, rfl, by split <;> rfl, [], (List.append_nil _).symm,
      .inl ⟨Every.nil, rfl⟩⟩
  | lws_callback_on_writable =>
    cases h
    exact ⟨.refl _, rfl, rfl, rfl, _, rfl, .inl ⟨(request_writable_mild s.c).plain, rfl⟩⟩
  | write w n =>
    simp only [Sys.svc] at h
    split at h <;> cases h <;> exact ⟨.refl _, rfl, rfl, rfl, _, rfl, .inr ⟨w, n, rfl, rfl⟩⟩
  | event_wait_cancelled =>
    cases h
    exact ⟨.refl _, rfl, rfl, rfl, _, rfl, .inl ⟨(event_wait_cancelled_mild s.c).plain, rfl⟩⟩

/-- The chunk an event carries. -/
def Event.receives : Event → Option Chunk
  | .callback _ (.CLIENT_RECEIVE chunk) _ => some chunk
  | _ => none

/-- What an event does to the queue, the reassembly buffer and the trace. -/
inductive Effect (s s' : Sys) (acts : List Act) : Event → List Frame → Prop where
  | plain {e : Event} {fs : List Frame} : e.receives = none → Plain acts → s'.c.q = s.c.q →
      s'.c.frag = s.c.frag → inflight fs = [] → Effect s s' acts e fs
  | receive {w : WsiId} {chunk : Chunk} {a : Answer} {o : Out wsl_client} :
      receive s.c chunk a.ok = some o → acts = o.acts → s'.c.q = s.c.q →
      s'.c.frag = o.client.frag → Effect s s' acts (.callback w (.CLIENT_RECEIVE chunk) a) []
  | ping {w : WsiId} {a : Answer} : s.c.send_ping = true → acts = (writeable_ping s.c w).2 →
      s'.c.q = s.c.q → s'.c.frag = s.c.frag →
      Effect s s' acts (.callback w .CLIENT_WRITEABLE a) [.q_head_check]
  | dequeue {w : WsiId} {a : Answer} {n : ws_msg_node_t} {q : SendQueue} :
      s.c.send_ping = false → s.c.q.dequeue = (some n, q) → acts = [] → s'.c.q = q →
      s'.c.frag = s.c.frag → Effect s s' acts (.callback w .CLIENT_WRITEABLE a) [.write w n]
  | exit {freed : List ws_msg_node_t} {q : SendQueue} :
      s.thread = .running → s'.thread = .exited → ws_flush_queue s.c.q = some (freed, q) →
      acts = (freed.map fun n => .flush_node n.payload n.is_binary) → s'.c.q = q →
      Effect s s' acts .exit []

theorem callback_spec {w : WsiId} {a : Answer} {r : Reason} {s s' : Sys} {fs : List Frame}
    (h : s.callback w a r = some (fs, s')) :
    s.c.SameConfig s'.c ∧ ∃ acts, s'.trace = s.trace ++ acts ∧
      Effect s s' acts (.callback w r a) fs := by
  cases r with
  | CLIENT_ESTABLISHED =>
    cases h
    exact ⟨⟨_, _, _, _, _, _, _, _, _, _, _, _, rfl⟩, _, rfl,
      .plain rfl (established_mild s.c).plain rfl rfl rfl⟩
  | CLIENT_RECEIVE chunk =>
    simp only [Sys.callback, Option.map_eq_some_iff, Prod.mk.injEq] at h
    obtain ⟨o, ho, rfl, rfl⟩ := h
    obtain ⟨frag, hc⟩ := receive_client ho
    refine ⟨?_, o.acts, by split <;> rfl, .receive ho rfl ?_ ?_⟩
    · split <;> simp only [Sys.setLws_c, Sys.act_c, hc] <;>
        exact ⟨_, _, _, _, _, _, _, _, _, _, _, _, rfl⟩
    · split <;> simp [hc]
    · split <;> simp
  | CLIENT_WRITEABLE =>
    simp only [Sys.callback] at h
    split at h
    · next hping =>
      cases h
      exact ⟨⟨_, _, _, _, _, _, _, _, _, _, _, _, rfl⟩, _, rfl, .ping hping rfl rfl rfl⟩
    · next hping =>
      have hnot : s.c.send_ping = false := by simpa using hping
      split at h
      · cases h
        exact ⟨.refl _, [], (List.append_nil _).symm, .plain rfl Every.nil rfl rfl rfl⟩
      · next n q hdequeue =>
        cases h
        exact ⟨⟨_, _, _, _, _, _, _, _, _, _, _, _, rfl⟩, [], (List.append_nil _).symm,
          .dequeue hnot hdequeue rfl rfl rfl⟩
  | TIMER =>
    simp only [Sys.callback, Option.some.injEq, Prod.mk.injEq] at h
    obtain ⟨rfl, rfl⟩ := h
    refine ⟨?_, _, by split <;> rfl, .plain rfl (timer_mild s.c a.ret).plain ?_ ?_ rfl⟩ <;>
      rcases timer_client s.c a.ret with hc | hc <;> split <;>
      simp only [Sys.setLws_c, Sys.act_c, hc] <;> exact ⟨_, _, _, _, _, _, _, _, _, _, _, _, rfl⟩
  | CLIENT_RECEIVE_PONG =>
    cases h
    exact ⟨⟨_, _, _, _, _, _, _, _, _, _, _, _, rfl⟩, _, rfl,
      .plain rfl (timer_set_mild s.c).plain rfl rfl rfl⟩
  | CLIENT_CONNECTION_ERROR msg =>
    have hplain := (connection_error_mild s.c msg).plain
    obtain ⟨n, hc⟩ := connection_error_client s.c msg
    simp only [Sys.callback, Option.some.injEq, Prod.mk.injEq] at h
    obtain ⟨rfl, rfl⟩ := h
    refine ⟨?_, _, rfl, .plain rfl hplain ?_ ?_ (by split <;> rfl)⟩
    · rw [Sys.act_c, hc]
      exact ⟨_, _, _, _, _, _, _, _, _, _, _, _, rfl⟩
    · rw [Sys.act_c, hc]
    · rw [Sys.act_c, hc]
  | CLIENT_CLOSED =>
    have hplain := (closed_mild s.c).plain
    obtain ⟨n, hc⟩ := closed_client s.c
    simp only [Sys.callback, Option.some.injEq, Prod.mk.injEq] at h
    obtain ⟨rfl, rfl⟩ := h
    refine ⟨?_, _, rfl, .plain rfl hplain ?_ ?_ (by split <;> rfl)⟩
    · rw [Sys.act_c, hc]
      exact ⟨_, _, _, _, _, _, _, _, _, _, _, _, rfl⟩
    · rw [Sys.act_c, hc]
    · rw [Sys.act_c, hc]
  | WSI_DESTROY =>
    obtain ⟨wsi, hc⟩ := wsi_destroy_client s.c w
    simp only [Sys.callback, Option.some.injEq, Prod.mk.injEq] at h
    obtain ⟨rfl, rfl⟩ := h
    refine ⟨?_, _, rfl, .plain rfl Every.nil ?_ ?_ rfl⟩
    · rw [Sys.act_c, hc]
      exact ⟨_, _, _, _, _, _, _, _, _, _, _, _, rfl⟩
    · rw [Sys.act_c, hc]
    · rw [Sys.act_c, hc]
  | CLIENT_APPEND_HANDSHAKE_HEADER =>
    cases h
    exact ⟨.refl _, _, rfl, .plain rfl (Every.callIf rfl) rfl rfl rfl⟩

theorem deliver_spec {e : Event} {s s' : Sys} {fs : List Frame}
    (h : s.deliver e = some (fs, s')) :
    s.c.SameConfig s'.c ∧ ∃ acts, s'.trace = s.trace ++ acts ∧ Effect s s' acts e fs := by
  cases e with
  | service_thread | event_wait_cancelled _ =>
    simp only [Sys.deliver, Option.ite_none_right_eq_some, Option.some.injEq, Prod.mk.injEq] at h
    obtain ⟨_, rfl, rfl⟩ := h
    exact ⟨.refl _, [], (List.append_nil _).symm, .plain rfl Every.nil rfl rfl rfl⟩
  | callback w r a =>
    simp only [Sys.deliver, Option.ite_none_right_eq_some] at h
    exact callback_spec h.2
  | sul_reconnect_cb =>
    simp only [Sys.deliver, Option.ite_none_right_eq_some, Option.some.injEq, Prod.mk.injEq] at h
    obtain ⟨_, rfl, rfl⟩ := h
    exact ⟨⟨_, _, _, _, _, _, _, _, _, _, _, _, rfl⟩, [], (List.append_nil _).symm,
      .plain rfl Every.nil rfl rfl (by split <;> rfl)⟩
  | exit =>
    simp only [Sys.deliver, Option.ite_none_right_eq_some, Option.map_eq_some_iff,
      Prod.mk.injEq] at h
    obtain ⟨⟨hrun, _⟩, ⟨freed, q⟩, hflush, rfl, rfl⟩ := h
    exact ⟨⟨_, _, _, _, _, _, _, _, _, _, _, _, rfl⟩, _, rfl, .exit hrun rfl hflush rfl rfl⟩
  | context_destroyed =>
    simp only [Sys.deliver, Option.ite_none_right_eq_some, Option.some.injEq, Prod.mk.injEq] at h
    obtain ⟨_, rfl, rfl⟩ := h
    exact ⟨⟨_, _, _, _, _, _, _, _, _, _, _, _, rfl⟩, [], (List.append_nil _).symm,
      .plain rfl Every.nil rfl rfl rfl⟩

/-- What a section of an API call does to the queue and the trace. -/
theorem app_spec {f : AppFrame} {a : Answer} {s s' : Sys} {fs : List AppFrame}
    (h : s.app f a = some (fs, s')) :
    s.c.SameConfig s'.c ∧ s'.c.frag = s.c.frag ∧ ∃ acts, s'.trace = s.trace ++ acts ∧
      ((s'.c.q = s.c.q ∧ Plain acts) ∨
        (f = .start_thread ∧ s'.c.q = s.c.q ∧ acts = [.pthread_create]) ∨
        ∃ n data is_binary, f = .enqueue_msg_locked data is_binary ∧ s'.c.q = s.c.q.append n ∧
          n.message = (data.bytes, is_binary) ∧
          acts = [.send_returns data.bytes is_binary .LWS_OK]) := by
  have hsame : s' = s → s.c.SameConfig s'.c ∧ s'.c.frag = s.c.frag ∧
      ∃ acts, s'.trace = s.trace ++ acts ∧ ((s'.c.q = s.c.q ∧ Plain acts) ∨
        (f = .start_thread ∧ s'.c.q = s.c.q ∧ acts = [.pthread_create]) ∨
        ∃ n data is_binary, f = .enqueue_msg_locked data is_binary ∧ s'.c.q = s.c.q.append n ∧
          n.message = (data.bytes, is_binary) ∧
          acts = [.send_returns data.bytes is_binary .LWS_OK]) := by
    rintro rfl
    exact ⟨.refl _, rfl, [], (List.append_nil _).symm, .inl ⟨rfl, Every.nil⟩⟩
  cases f with
  | enqueue_msg data is_binary =>
    cases data with
    | none =>
      cases h
      exact ⟨.refl _, rfl, _, rfl, .inl ⟨rfl, Every.single rfl⟩⟩
    | some data =>
      cases h
      exact hsame rfl
  | enqueue_msg_locked data is_binary =>
    simp only [Sys.app, Option.some.injEq, Prod.mk.injEq] at h
    obtain ⟨_, rfl⟩ := h
    rcases enqueue_msg_locked_spec s.c data is_binary a.ok with ⟨n, heq, hmessage⟩ | heq
    · rw [heq]
      exact ⟨⟨_, _, _, _, _, _, _, _, _, _, _, _, rfl⟩, rfl, _, rfl,
        .inr (.inr ⟨n, data, is_binary, rfl, rfl, hmessage, rfl⟩)⟩
    · rw [heq]
      exact ⟨.refl _, rfl, _, rfl, .inl ⟨rfl, Every.single rfl⟩⟩
  | enqueue_msg_wake =>
    cases h
    exact hsame rfl
  | lws_cancel_service =>
    cases h
    exact ⟨.refl _, rfl, _, rfl, .inl ⟨rfl, Every.single rfl⟩⟩
  | wsl_start =>
    simp only [Sys.app] at h
    split at h
    · cases h
      exact hsame rfl
    · split at h
      · cases h
        exact ⟨⟨_, _, _, _, _, _, _, _, _, _, _, _, rfl⟩, rfl, [], (List.append_nil _).symm,
          .inl ⟨rfl, Every.nil⟩⟩
      · cases h
        exact hsame rfl
  | start_thread =>
    simp only [Sys.app] at h
    split at h
    · cases h
      exact ⟨⟨_, _, _, _, _, _, _, _, _, _, _, _, rfl⟩, rfl, _, rfl, .inr (.inl ⟨rfl, rfl, rfl⟩)⟩
    · cases h
      exact ⟨⟨_, _, _, _, _, _, _, _, _, _, _, _, rfl⟩, rfl, _, rfl, .inl ⟨rfl, Every.nil⟩⟩
  | wsl_stop =>
    simp only [Sys.app] at h
    split at h
    · cases h
      exact ⟨⟨_, _, _, _, _, _, _, _, _, _, _, _, rfl⟩, rfl, _, rfl, .inl ⟨rfl, Every.nil⟩⟩
    · cases h
      exact hsame rfl
  | stop_cancel =>
    cases h
    refine ⟨.refl _, rfl, _, rfl, .inl ⟨rfl, ?_⟩⟩
    dsimp only
    split
    · exact Every.single rfl
    · exact Every.nil
  | stop_context =>
    simp only [Sys.app] at h
    split at h <;> cases h <;>
      exact ⟨.refl _, rfl, [], (List.append_nil _).symm, .inl ⟨rfl, Every.nil⟩⟩
  | stop_join | stop_context_destroyed =>
    simp only [Sys.app, Option.ite_none_right_eq_some, Option.some.injEq, Prod.mk.injEq] at h
    obtain ⟨_, _, rfl⟩ := h
    exact ⟨⟨_, _, _, _, _, _, _, _, _, _, _, _, rfl⟩, rfl, _, rfl, .inl ⟨rfl, Every.nil⟩⟩
  | start_return | stop_return =>
    cases h
    exact ⟨⟨_, _, _, _, _, _, _, _, _, _, _, _, rfl⟩, rfl, _, rfl, .inl ⟨rfl, Every.nil⟩⟩
  | wsl_destroy =>
    cases h
    exact ⟨.refl _, rfl, _, rfl, .inl ⟨rfl, Every.single rfl⟩⟩

/-- What the API functions call; they free no node. -/
theorem app_makes {p : Act → Bool}
    (hp : ∀ act, Act.of_app act = true → freed_by act = none → p act = true) {f : AppFrame} {a : Answer}
    {s s' : Sys} {fs : List AppFrame} (h : s.app f a = some (fs, s')) :
    Extends (Every p) s.trace s'.trace := by
  cases f with
  | enqueue_msg data is_binary =>
    cases data <;> cases h
    · exact ⟨_, rfl, Every.single (hp _ rfl rfl)⟩
    · exact .of_eq rfl .nil
  | wsl_start =>
    simp only [Sys.app] at h
    split at h
    · cases h
      exact .of_eq rfl .nil
    · split at h <;> cases h <;> exact .of_eq rfl .nil
  | start_thread =>
    simp only [Sys.app] at h
    split at h <;> cases h
    · exact ⟨_, rfl, Every.single (hp _ rfl rfl)⟩
    · exact ⟨_, rfl, Every.nil⟩
  | wsl_stop | stop_context =>
    simp only [Sys.app] at h
    split at h <;> cases h <;> exact .of_eq (by simp) .nil
  | stop_cancel =>
    cases h
    refine ⟨_, rfl, ?_⟩
    dsimp only
    split
    · exact Every.single (hp _ rfl rfl)
    · exact Every.nil
  | stop_join | stop_context_destroyed =>
    simp only [Sys.app, Option.ite_none_right_eq_some, Option.some.injEq, Prod.mk.injEq] at h
    obtain ⟨_, rfl, rfl⟩ := h
    exact ⟨_, rfl, Every.nil⟩
  | enqueue_msg_locked _ _ | lws_cancel_service | wsl_destroy =>
    cases h
    exact ⟨_, rfl, Every.single (hp _ rfl rfl)⟩
  | enqueue_msg_wake | start_return | stop_return =>
    cases h
    exact .of_eq (by simp) .nil

/-- The calls of a step. -/
def calls (cfg : Config) (l : Label) : List Act :=
  ((system.step cfg l).map fun next => next.shared.trace.drop cfg.shared.trace.length).getD []

theorem calls_eq {cfg next : Config} {l : Label} {acts : List Act}
    (hstep : system.step cfg l = some next) (htrace : next.shared.trace = cfg.shared.trace ++ acts) :
    calls cfg l = acts := by
  simp [calls, hstep, htrace]

end lws_client.ws_client_v2
