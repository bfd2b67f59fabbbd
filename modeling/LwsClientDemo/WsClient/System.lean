import LwsClientDemo.Interleaving
import LwsClientDemo.WsClient.Client

open interleaving

namespace lws_client.ws_client

/-- The client with its lws context, the service thread, and the calls made so
    far in order. `destroyed` is set by `wsld_destroy`. -/
structure Sys where
  c : wsld_client
  lws : lws_context
  thread : Thread
  trace : List Act
  destroyed : Bool

/-- The client changes and the calls are made. -/
def Sys.act (s : Sys) (r : wsld_client × List Act) : Sys :=
  { s with c := r.1, lws := s.lws.performs r.2, trace := s.trace ++ r.2 }

def Sys.setLws (s : Sys) (lws : lws_context) : Sys := { s with lws }

/-- The code the service thread still has to run, cut where another thread may
    run in between. -/
inductive Frame where
  | do_connect
  | connection_error (msg : Option String)
  | wsi_destroy (wsi : WsiId)
  | connect_return (wsi : Option WsiId)
  | has_data_check (wsi : WsiId)
  | lws_callback_on_writable (wsi : WsiId)
  | write (wsi : WsiId) (n : ws_msg_node_t) (more : Bool)
  | event_wait_cancelled

/-- What the idle service thread can be given: its start, a callback, the
    reconnect test of its loop, the end of the loop, and the end of the context.
    `wsi` is whether EVENT_WAIT_CANCELLED comes with a connection. -/
inductive Event where
  | service_thread
  | callback (wsi : WsiId) (reason : Reason) (a : Answer)
  | event_wait_cancelled (wsi : Bool)
  | poll (now : Int)
  | exit
  | context_destroyed

/-- The first section of a callback. CONNECTION_ERROR and CLOSED are one. -/
def Sys.callback (s : Sys) (w : WsiId) (a : Answer) : Reason → Option (List Frame × Sys)
  | .CLIENT_ESTABLISHED =>
    some ([], (s.setLws (s.lws.setPhase w .established)).act (established s.c w))
  | .CLIENT_RECEIVE chunk =>
    (receive s.c chunk a.ok).map fun o =>
      let s := s.act (o.client, o.acts)
      ([], if o.ret ≠ 0 then s.setLws (s.lws.fail w) else s)
  | .CLIENT_WRITEABLE =>
    let s := s.setLws (s.lws.modify w fun i => { i with writable := false })
    if s.c.send_ping then some ([.has_data_check w], s.act (writeable_ping s.c w))
    else
      match s.c.q.dequeue with
      | (none, _) => some ([], s)
      | (some n, q) => some ([.write w n q.has_data], { s with c := { s.c with q } })
  | .TIMER =>
    let s := s.setLws (s.lws.modify w fun i => { i with timer := none })
    let o := timer s.c w
    let s := s.act (o.client, o.acts)
    some ([], if o.ret ≠ 0 then s.setLws (s.lws.fail w) else s)
  | .CLIENT_RECEIVE_PONG => some ([], s.act (receive_pong s.c w))
  | .CLIENT_CONNECTION_ERROR _ | .CLIENT_CLOSED =>
    some ([], (s.setLws (s.lws.setPhase w .closed)).act (closed s.c a.now, []))
  | .WSI_DESTROY => some ([], (s.setLws (s.lws.remove w)).act (wsi_destroy s.c w, []))
  | .CLIENT_APPEND_HANDSHAKE_HEADER => some ([], s)

def Sys.deliver (e : Event) (s : Sys) : Option (List Frame × Sys) :=
  match e with
  | .service_thread =>
    if s.thread = .created then some ([.do_connect], { s with thread := .running }) else none
  | .callback w reason a =>
    if s.lws.enables s.thread w reason then s.callback w a reason else none
  | .event_wait_cancelled wsi =>
    if s.thread = .running ∧ s.lws.cancelled then
      some (if wsi then [.event_wait_cancelled] else [],
        s.setLws { s.lws with cancelled := false })
    else none
  | .poll now =>
    if s.thread = .running ∧ !s.c.stopping ∧ s.c.state = .STATE_RECONNECT_WAIT ∧
        now ≥ reconnect_due s.c then
      some ([.do_connect], s)
    else none
  | .exit =>
    if s.thread = .running ∧ s.c.stopping then
      (ws_flush_queue s.c.q).map fun (freed, q) =>
        ([], { s.act ({ s.c with q }, freed.map fun n => .flush_node n.payload n.is_binary) with
          thread := .exited })
    else none
  | .context_destroyed =>
    if s.thread = .destroying then some ([], { s with lws := s.lws.destroy, thread := .none })
    else none

/-- `c->wsi` is stored only when the connect call returns. -/
def Sys.svc (f : Frame) (a : Answer) (s : Sys) : Option (List Frame × Sys) :=
  match f with
  | .do_connect =>
    let s := s.act ({ s.c with state := .STATE_CONNECTING },
      [.lws_client_connect_via_info (connect_info s.c)])
    match a.connect with
    | .accepted => some ([.connect_return (some s.lws.next)], s.setLws (s.lws.connect 0))
    | .refused error destroyed =>
      some ((error.map Frame.connection_error).toList ++
          (if destroyed then [.wsi_destroy s.lws.next] else []) ++ [.connect_return none],
        s.setLws { s.lws with next := s.lws.next + 1 })
  | .connection_error _ => some ([], s.act (closed s.c a.now, []))
  | .wsi_destroy w => some ([], s.act (wsi_destroy s.c w, []))
  | .connect_return (some w) => some ([], s.act ({ s.c with wsi := some w }, []))
  | .connect_return none => some ([], s.act (schedule_reconnect { s.c with wsi := none } a.now, []))
  | .has_data_check w => some (if s.c.q.has_data then [.lws_callback_on_writable w] else [], s)
  | .lws_callback_on_writable w => some ([], s.act (s.c, [.lws_callback_on_writable w]))
  | .write w n more =>
    let s := s.act (s.c, writeable_write n w)
    if a.ret < 0 then some ([], s.setLws (s.lws.fail w))
    else some (if more then [.lws_callback_on_writable w] else [], s)
  | .event_wait_cancelled =>
    some ((event_wait_cancelled s.c).toList.map .lws_callback_on_writable, s)

/-- The code an API call still has to run. -/
inductive AppFrame where
  | enqueue (data : Option Data) (is_binary : Bool)
  | enqueue_locked (data : Data) (is_binary : Bool)
  | enqueue_wake
  | lws_cancel_service
  | wsld_start
  | start_thread
  | start_return
  | wsld_stop
  | stop_cancel
  | stop_join
  | stop_context
  | stop_context_destroyed
  | wsld_destroy

/-- Any thread may send. `wsld_start`, `wsld_stop` and `wsld_destroy` are called
    by the owner of the client, thread 0. A started client is not started again,
    and only a stopped one is destroyed. -/
def Sys.call (t : Nat) (f : AppFrame) (s : Sys) : Bool :=
  !s.destroyed &&
    match f with
    | .enqueue _ _ => true
    | .wsld_stop => t == 0
    | .wsld_start | .wsld_destroy => t == 0 && !s.c.thread_started
    | _ => false

/-- `wsld_start` sets `stopping` and `state` and creates the thread without a
    point at which another thread could tell. -/
def Sys.app (f : AppFrame) (a : Answer) (s : Sys) : Option (List AppFrame × Sys) :=
  match f with
  | .enqueue none is_binary => some ([], s.act (s.c, [.send_returns [] is_binary .LWS_ERR_PARAM]))
  | .enqueue (some data) is_binary => some ([.enqueue_locked data is_binary], s)
  | .enqueue_locked data is_binary =>
    let (ret, c) := enqueue_locked s.c data is_binary a.ok
    some (if ret = .LWS_OK then [.enqueue_wake] else [],
      s.act (c, [.send_returns data.bytes is_binary ret]))
  | .enqueue_wake => some (if s.c.ctx then [.lws_cancel_service] else [], s)
  | .lws_cancel_service => some ([], s.act (s.c, [.lws_cancel_service]))
  | .wsld_start =>
    if a.ok then
      some ([.start_thread], { s with c := { s.c with ctx := true }, lws := s.lws.destroy })
    else some ([], { s with c := { s.c with ctx := false } })
  | .start_thread =>
    let c := { s.c with stopping := false, state := .STATE_IDLE }
    if a.ok then
      some ([.start_return], { s.act (c, [.pthread_create]) with thread := .created })
    else some ([], s.act ({ c with ctx := false }, []))
  | .start_return => some ([], s.act ({ s.c with thread_started := true }, []))
  | .wsld_stop =>
    if s.c.thread_started && !s.c.stopping then
      some ([.stop_cancel], s.act ({ s.c with stopping := true }, []))
    else some ([], s)
  | .stop_cancel => some ([.stop_join], s.act (s.c, if s.c.ctx then [.lws_cancel_service] else []))
  | .stop_join =>
    if s.thread = .exited then
      some ([.stop_context], s.act ({ s.c with thread_started := false, wsi := none }, []))
    else none
  | .stop_context =>
    if s.c.ctx then some ([.stop_context_destroyed], { s with thread := .destroying })
    else some ([], { s with thread := .none })
  | .stop_context_destroyed =>
    if s.thread = .none then some ([], s.act ({ s.c with ctx := false }, [])) else none
  | .wsld_destroy =>
    (ws_flush_queue s.c.q).map fun (freed, _) =>
      ([], { s.act (s.c, freed.map (fun n => .free_node n.payload n.is_binary) ++ [.client_destroy])
        with destroyed := true })

/-- A v1 client with its service thread and the threads that use it. -/
def system : System Sys Event Frame AppFrame Answer :=
  { deliver := Sys.deliver, svc := Sys.svc, call := Sys.call, app := Sys.app }

abbrev Config := interleaving.Config Sys Frame AppFrame

abbrev Label := interleaving.Label Event AppFrame Answer

/-- A freshly created client before any other call. -/
def initial (c : wsld_client) : Config :=
  { shared := { c, lws := { wsi := fun _ => none, next := 0, cancelled := false }
                thread := .none, trace := [], destroyed := false }
    svc := []
    app := fun _ => [] }

/-- The configurations of all runs of a freshly created client. -/
def Reachable (cfg : Config) : Prop :=
  ∃ c : wsld_client, c.Fresh ∧ system.Reaches Any (initial c) cfg

def default_client : wsld_client := wsld_create "localhost" 9000 none true

/-- A connected client, up to the end of `CLIENT_ESTABLISHED` of connection 0. -/
def connected_run : List Label :=
  [.call 0 .wsld_start, .app 0 {}, .app 0 {}, .app 0 {}, .event .service_thread,
    .svc { connect := .accepted }, .svc {}, .event (.callback 0 .CLIENT_ESTABLISHED {})]

/-- Connection 0 is lost and connection 1 takes its place. -/
def reconnected_run : List Label :=
  [.event (.callback 0 .CLIENT_CLOSED {}), .event (.callback 0 .WSI_DESTROY {}),
    .event (.poll 1000), .svc { connect := .accepted }, .svc {},
    .event (.callback 1 .CLIENT_ESTABLISHED {})]

end lws_client.ws_client
