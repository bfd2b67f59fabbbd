import LwsClientDemo.Interleaving
import LwsClientDemo.WsPool.Client

open interleaving

namespace lws_client.ws_pool

/-- The pool with its clients, the lws context, the service thread, and for each
    client the calls made so far in order. `freed` is set at the end of
    `wsp_pool_destroy`. -/
structure Sys where
  client : ClientId → wsp_client
  pool : wsp_pool
  lws : lws_context
  thread : Thread
  trace : ClientId → List Act
  freed : Bool

/-- Client `c` changes and its calls are made. -/
def Sys.act (s : Sys) (c : ClientId) (r : wsp_client × List Act) : Sys :=
  { s with
    client := Function.update s.client c r.1
    lws := s.lws.performs r.2
    trace := Function.update s.trace c (s.trace c ++ r.2) }

def Sys.setLws (s : Sys) (lws : lws_context) : Sys := { s with lws }

def Sys.setPool (s : Sys) (pool : wsp_pool) : Sys := { s with pool }

/-- `lws_cancel_service(pool->ctx)`. -/
def Sys.cancel (s : Sys) : Sys := { s with lws := { s.lws with cancelled := true } }

/-- The code the service thread still has to run, cut where another thread may
    run in between. The last four are the loops of EVENT_WAIT_CANCELLED, over
    the clients it took from `pending` and over its copy of `clients`. -/
inductive Frame where
  | do_connect (c : ClientId)
  | connection_error (c : ClientId) (msg : Option String)
  | wsi_destroy (c : ClientId) (wsi : WsiId)
  | connect_return (c : ClientId) (wsi : Option WsiId)
  | schedule_reconnect (c : ClientId)
  | schedule_arm (c : ClientId)
  | has_data_check (c : ClientId) (wsi : WsiId)
  | lws_callback_on_writable (c : ClientId) (wsi : WsiId)
  | write (c : ClientId) (wsi : WsiId) (n : ws_msg_node_t) (more : Bool)
  | event_wait_cancelled
  | wc_connect (pend : List ClientId)
  | wc_snapshot
  | wc_visit (snap : List ClientId)

/-- What the idle service thread can be given. `wsi` is whether
    EVENT_WAIT_CANCELLED comes with a connection. -/
inductive Event where
  | service_thread
  | callback (c : ClientId) (wsi : WsiId) (reason : Reason) (a : Answer)
  | event_wait_cancelled (wsi : Bool)
  | sul_reconnect_cb (c : ClientId)
  | exit
  | context_destroyed

/-- The first section of a callback of connection `w` of client `c`. The handlers
    of CONNECTION_ERROR and CLOSED go on to `schedule_reconnect` when the client
    is not stopping. -/
def Sys.callback (s : Sys) (c : ClientId) (w : WsiId) (a : Answer) :
    Reason → Option (List Frame × Sys)
  | .CLIENT_ESTABLISHED =>
    some ([], (s.setLws (s.lws.setPhase w .established)).act c (established (s.client c) w))
  | .CLIENT_RECEIVE chunk =>
    (receive (s.client c) chunk a.ok).map fun o =>
      let s := s.act c (o.client, o.acts)
      ([], if o.ret ≠ 0 then s.setLws (s.lws.fail w) else s)
  | .CLIENT_WRITEABLE =>
    let s := s.setLws (s.lws.modify w fun i => { i with writable := false })
    if (s.client c).send_ping then
      some ([.has_data_check c w], s.act c (writeable_ping (s.client c) w))
    else
      match (s.client c).q.dequeue with
      | (none, _) => some ([], s)
      | (some n, q) => some ([.write c w n q.has_data], s.act c ({ s.client c with q }, []))
  | .TIMER =>
    let s := s.setLws (s.lws.modify w fun i => { i with timer := none })
    let o := timer (s.client c) w a.ret
    let s := s.act c (o.client, o.acts)
    some ([], if o.ret ≠ 0 then s.setLws (s.lws.fail w) else s)
  | .CLIENT_RECEIVE_PONG => some ([], s.act c (receive_pong (s.client c) w))
  | .CLIENT_CONNECTION_ERROR msg =>
    some (if (s.client c).stopping then [] else [.schedule_reconnect c],
      (s.setLws (s.lws.setPhase w .closed)).act c (connection_error (s.client c) msg))
  | .CLIENT_CLOSED =>
    some (if (s.client c).stopping then [] else [.schedule_reconnect c],
      (s.setLws (s.lws.setPhase w .closed)).act c (closed (s.client c)))
  | .WSI_DESTROY =>
    some ([], (s.setLws (s.lws.remove w)).act c (wsi_destroy (s.client c) w, []))
  | .CLIENT_APPEND_HANDSHAKE_HEADER =>
    some ([], s.act c (s.client c,
      callIf (hooked (s.client c).hooks (·.on_handshake_header)) (.on_handshake_header w)))

/-- `lws_context_destroy` returns when every connection has had its WSI_DESTROY.
    The reconnect timers end with the context. -/
def Sys.deliver (e : Event) (s : Sys) : Option (List Frame × Sys) :=
  match e with
  | .service_thread =>
    if s.thread = .created then some ([], { s with thread := .running }) else none
  | .callback c w reason a =>
    if (s.lws.wsi w).any (fun i => i.user == c) && s.lws.enables s.thread w reason then
      s.callback c w a reason
    else none
  | .event_wait_cancelled wsi =>
    if s.thread = .running ∧ s.lws.cancelled then
      some (if wsi then [.event_wait_cancelled] else [],
        s.setLws { s.lws with cancelled := false })
    else none
  | .sul_reconnect_cb c =>
    if s.thread = .running ∧ (s.client c).sul.isSome then
      some (if (s.client c).stopping then [] else [.do_connect c],
        s.act c ({ s.client c with sul := none }, []))
    else none
  | .exit =>
    if s.thread = .running ∧ s.pool.destroying then some ([], { s with thread := .exited })
    else none
  | .context_destroyed =>
    if s.thread = .destroying ∧ (List.range s.lws.next).all (fun w => (s.lws.wsi w).isNone) then
      some ([], { s with
        lws := s.lws.destroy
        thread := .exited
        client := fun c => { s.client c with sul := none } })
    else none

/-- `c->wsi` is stored only when the connect call returns. -/
def Sys.svc (f : Frame) (a : Answer) (s : Sys) : Option (List Frame × Sys) :=
  match f with
  | .do_connect c =>
    let s := s.act c ({ s.client c with state := .STATE_CONNECTING },
      [.lws_client_connect_via_info (connect_info (s.client c))])
    match a.connect with
    | .accepted => some ([.connect_return c (some s.lws.next)], s.setLws (s.lws.connect c))
    | .refused error destroyed =>
      some ((error.map (Frame.connection_error c)).toList ++
          (if destroyed then [.wsi_destroy c s.lws.next] else []) ++ [.connect_return c none],
        s.setLws { s.lws with next := s.lws.next + 1 })
  | .connection_error c msg =>
    some (if (s.client c).stopping then [] else [.schedule_reconnect c],
      s.act c (connection_error (s.client c) msg))
  | .wsi_destroy c w => some ([], s.act c (wsi_destroy (s.client c) w, []))
  | .connect_return c wsi =>
    some (if wsi.isSome then [] else [.schedule_reconnect c], s.act c ({ s.client c with wsi }, []))
  | .schedule_reconnect c => some (if (s.client c).stopping then [] else [.schedule_arm c], s)
  | .schedule_arm c => some ([], s.act c (schedule_reconnect (s.client c) a.ret))
  | .has_data_check c w =>
    some (if (s.client c).q.has_data then [.lws_callback_on_writable c w] else [], s)
  | .lws_callback_on_writable c w =>
    some ([], s.act c (s.client c, [.lws_callback_on_writable w]))
  | .write c w n more =>
    let s := s.act c (s.client c, writeable_write n w)
    if a.ret < 0 then some ([], s.setLws (s.lws.fail w))
    else some (if more then [.lws_callback_on_writable c w] else [], s)
  | .event_wait_cancelled =>
    some ([.wc_connect s.pool.pending], s.setPool { s.pool with pending := [] })
  | .wc_connect [] => some ([.wc_snapshot], s)
  | .wc_connect (c :: pend) =>
    some ([.do_connect c, .wc_connect pend],
      s.act c ({ s.client c with state := .STATE_IDLE }, []))
  | .wc_snapshot => some ([.wc_visit s.pool.clients], s)
  | .wc_visit [] => some ([], s)
  | .wc_visit (c :: snap) =>
    match (s.client c).wsi with
    | none => some ([.wc_visit snap], s)
    | some w =>
      if (s.client c).stopping then
        some ([.wc_visit snap],
          s.act c (s.client c, [.lws_close_reason w, .lws_callback_on_writable w]))
      else if (s.client c).state = .STATE_CONNECTED then
        some ([.has_data_check c w, .wc_visit snap], s)
      else some ([.wc_visit snap], s)

/-- The code an API call still has to run. The loops of `wsp_pool_destroy` keep
    its copy of `clients`. -/
inductive AppFrame where
  | enqueue (c : ClientId) (data : Option Data) (is_binary : Bool)
  | enqueue_locked (c : ClientId) (data : Data) (is_binary : Bool)
  | enqueue_wake (c : ClientId)
  | lws_cancel_service (c : ClientId)
  | wsp_pool_add (c : ClientId)
  | pool_add_locked (c : ClientId)
  | pool_add_wake
  | wsp_client_stop (c : ClientId)
  | stop_sul_cancel (c : ClientId)
  | stop_locked (c : ClientId)
  | stop_wait (c : ClientId)
  | stop_flush (c : ClientId)
  | wsp_client_destroy (c : ClientId)
  | wsp_pool_start
  | start_thread
  | start_return
  | start_pending
  | start_cancel
  | wsp_pool_destroy
  | destroy_stop (snap : List ClientId)
  | destroy_thread
  | destroy_cancel
  | destroy_join
  | destroy_context
  | destroy_context_return
  | destroy_clients (snap : List ClientId)
  | destroy_pending (snap : List ClientId)

/-- Any thread may add, send and stop; a client is freed after a stop of it has
    returned; the pool is started and destroyed by its owner, thread 0. -/
def Sys.call (t : Nat) (f : AppFrame) (s : Sys) : Bool :=
  !s.freed &&
    match f with
    | .enqueue _ _ _ | .wsp_pool_add _ | .wsp_client_stop _ => true
    | .wsp_client_destroy c => (s.trace c).any (fun act => act matches .stop_returns)
    | .wsp_pool_start => t == 0 && !s.pool.thread_started
    | .wsp_pool_destroy => t == 0
    | _ => false

/-- `wsp_client_destroy`: the nodes still queued and the client are freed. -/
def Sys.destroy_client (s : Sys) (c : ClientId) : Option Sys :=
  (ws_flush_queue (s.client c).q).map fun (freed, _) =>
    s.act c (s.client c,
      freed.map (fun n => .free_node n.payload n.is_binary) ++ [.client_destroy])

/-- The last loop of `wsp_pool_destroy`. -/
def Sys.destroy_all (s : Sys) : List ClientId → Option Sys
  | [] => some s
  | c :: pending => (s.destroy_client c).bind fun s => s.destroy_all pending

def Sys.app (f : AppFrame) (a : Answer) (s : Sys) : Option (List AppFrame × Sys) :=
  match f with
  | .enqueue c none is_binary =>
    some ([], s.act c (s.client c, [.send_returns [] is_binary .LWS_ERR_PARAM]))
  | .enqueue c (some data) is_binary => some ([.enqueue_locked c data is_binary], s)
  | .enqueue_locked c data is_binary =>
    let (ret, client, acts) := enqueue_locked (s.client c) data is_binary a.ok
    some (if ret = .LWS_OK then [.enqueue_wake c] else [],
      s.act c (client, acts ++ [.send_returns data.bytes is_binary ret]))
  | .enqueue_wake c =>
    some (if (s.client c).pool && s.pool.ctx then [.lws_cancel_service c] else [], s)
  | .lws_cancel_service _ => some ([], s.cancel)
  | .wsp_pool_add c =>
    if (s.client c).pool then some ([], s.act c (s.client c, [.add_returns .LWS_ERR_PARAM]))
    else some ([.pool_add_locked c], s)
  | .pool_add_locked c =>
    if s.freed then none
    else
      match s.pool.add c with
      | none => some ([], s.act c (s.client c, [.add_returns .LWS_ERR_PARAM]))
      | some pool =>
        some (if s.pool.ctx then [.pool_add_wake] else [],
          (s.setPool pool).act c ({ s.client c with pool := true }, [.add_returns .LWS_OK]))
  | .pool_add_wake => some ([], s.cancel)
  | .wsp_client_stop c =>
    if (s.client c).stopping || (s.client c).stopped then some ([], s)
    else some ([.stop_sul_cancel c], s.act c ({ s.client c with stopping := true }, []))
  | .stop_sul_cancel c =>
    some ([.stop_locked c],
      if (s.client c).pool && s.pool.ctx then
        s.act c ({ s.client c with sul := none }, [.lws_sul_cancel])
      else s)
  | .stop_locked c =>
    if (s.client c).wsi.isSome && (s.client c).pool && s.pool.ctx then
      if (s.client c).stopped then some ([.stop_flush c], s.cancel)
      else some ([.stop_wait c], s.cancel.act c ({ s.client c with waiting := true }, []))
    else some ([.stop_flush c], s.act c ({ s.client c with stopped := true }, []))
  | .stop_wait c =>
    if a.timeout then
      some ([.stop_flush c], s.act c ({ s.client c with waiting := false }, [.stop_times_out]))
    else if (s.client c).waiting then none
    else if (s.client c).stopped then some ([.stop_flush c], s)
    else some ([.stop_wait c], s.act c ({ s.client c with waiting := true }, []))
  | .stop_flush c =>
    (ws_flush_queue (s.client c).q).map fun (freed, q) =>
      ([], s.act c ({ s.client c with q },
        freed.map (fun n => .flush_node n.payload n.is_binary) ++ [.stop_returns]))
  | .wsp_client_destroy c => (s.destroy_client c).map fun s => ([], s)
  | .wsp_pool_start =>
    if a.ok then
      some ([.start_thread], { s with pool := { s.pool with ctx := true }, lws := s.lws.destroy })
    else some ([], s.setPool { s.pool with ctx := false })
  | .start_thread =>
    let pool := { s.pool with destroying := false }
    if a.ok then some ([.start_return], { s with pool, thread := .created })
    else some ([], s.setPool { pool with ctx := false })
  | .start_return => some ([.start_pending], s.setPool { s.pool with thread_started := true })
  | .start_pending => some (if s.pool.pending.isEmpty then [] else [.start_cancel], s)
  | .start_cancel => some ([], s.cancel)
  | .wsp_pool_destroy =>
    some ([.destroy_stop s.pool.clients, .destroy_thread, .destroy_clients s.pool.clients,
      .destroy_pending s.pool.clients], s)
  | .destroy_stop [] => some ([], s)
  | .destroy_stop (c :: snap) => some ([.wsp_client_stop c, .destroy_stop snap], s)
  | .destroy_thread =>
    if s.pool.thread_started then
      some ([.destroy_cancel, .destroy_join, .destroy_context],
        s.setPool { s.pool with destroying := true })
    else some ([.destroy_context], s)
  | .destroy_cancel => some ([], if s.pool.ctx then s.cancel else s)
  | .destroy_join =>
    if s.thread = .exited then some ([], s.setPool { s.pool with thread_started := false })
    else none
  | .destroy_context =>
    if s.pool.ctx then some ([.destroy_context_return], { s with thread := .destroying })
    else some ([], s)
  | .destroy_context_return =>
    if s.thread = .exited then some ([], s.setPool { s.pool with ctx := false }) else none
  | .destroy_clients [] => some ([], s)
  | .destroy_clients (c :: snap) => some ([.wsp_client_destroy c, .destroy_clients snap], s)
  | .destroy_pending _ =>
    (s.destroy_all s.pool.pending).map fun s =>
      ([], { s.setPool { s.pool with pending := [] } with freed := true })

/-- A pool with its service thread and the threads that use it. -/
def system : System Sys Event Frame AppFrame Answer :=
  { deliver := Sys.deliver, svc := Sys.svc, call := Sys.call, app := Sys.app }

abbrev Config := interleaving.Config Sys Frame AppFrame

abbrev Label := interleaving.Label Event AppFrame Answer

/-- A freshly created pool and the clients that will use it. -/
def initial (client : ClientId → wsp_client) : Config :=
  { shared := { client, pool := wsp_pool_create
                lws := { wsi := fun _ => none, next := 0, cancelled := false }
                thread := .none, trace := fun _ => [], freed := false }
    svc := []
    app := fun _ => [] }

/-- The configurations of all runs of a new pool with freshly created clients. -/
def Reachable (cfg : Config) : Prop :=
  ∃ client : ClientId → wsp_client, (∀ c, (client c).Fresh) ∧
    system.Reaches Any (initial client) cfg

def fresh_client (_ : ClientId) : wsp_client := wsp_client_create "localhost" 9000 none true

/-- Client 0 is added to the started pool by thread 1, and its first connection,
    0, is established. -/
def connected_run : List Label :=
  [.call 0 .wsp_pool_start, .app 0 {}, .app 0 {}, .app 0 {}, .app 0 {}, .event .service_thread,
    .call 1 (.wsp_pool_add 0), .app 1 {}, .app 1 {}, .app 1 {},
    .event (.event_wait_cancelled true), .svc {}, .svc {}, .svc { connect := .accepted }, .svc {},
    .svc {}, .svc {}, .svc {}, .svc {}, .event (.callback 0 0 .CLIENT_ESTABLISHED {})]

/-- Connection 0 of client 0 is lost and connection 1 takes its place. -/
def reconnected_run : List Label :=
  [.event (.callback 0 0 .CLIENT_CLOSED {}), .svc {}, .svc {},
    .event (.callback 0 0 .WSI_DESTROY {}), .event (.sul_reconnect_cb 0),
    .svc { connect := .accepted }, .svc {}, .event (.callback 0 1 .CLIENT_ESTABLISHED {})]

end lws_client.ws_pool
