import LwsClientDemo.Interleaving
import LwsClientDemo.WsClientV2.Client

open interleaving

namespace lws_client.ws_client_v2

/-- The client with its lws context, the service thread, and the calls made so
    far in order. `destroyed` is set by `wsl_destroy`. -/
structure Sys where
  c : wsl_client
  lws : lws_context
  thread : Thread
  trace : List Act
  destroyed : Bool

/-- The client changes and the calls are made. -/
def Sys.act (s : Sys) (r : wsl_client × List Act) : Sys :=
  { s with c := r.1, lws := s.lws.performs r.2, trace := s.trace ++ r.2 }

/-- The code a callback of the service thread still has to run, cut where
    another thread may run in between. -/
inductive Frame where
  | do_connect
  | connection_error (msg : Option String)
  | wsi_destroy (wsi : WsiId)
  | connect_return (connected : Bool)
  | schedule_reconnect
  | q_head_check
  | lws_callback_on_writable
  | write (wsi : WsiId) (n : ws_msg_node_t)
  | event_wait_cancelled

/-- What the idle service thread can be given: its start, a callback, the
    reconnect timer, the end of its loop, and the end of the context. An
    EVENT_WAIT_CANCELLED without a `wsi` carries the context in `in`, as the
    source notes, so the handler finds its client either way. -/
inductive Event where
  | service_thread
  | callback (wsi : WsiId) (reason : Reason) (a : Answer)
  | event_wait_cancelled (wsi : Bool)
  | sul_reconnect_cb
  | exit
  | context_destroyed

def Sys.callback_enabled (s : Sys) (w : WsiId) (r : Reason) : Bool := s.lws.enables s.thread w r

def Sys.setLws (s : Sys) (lws : lws_context) : Sys := { s with lws }

/-- The first section of a callback. The handlers of CONNECTION_ERROR and CLOSED
    go on to `schedule_reconnect` when the client is not stopping. -/
def Sys.callback (s : Sys) (w : WsiId) (a : Answer) : Reason → Option (List Frame × Sys)
  | .CLIENT_ESTABLISHED =>
    some ([.q_head_check], (s.setLws (s.lws.setPhase w .established)).act (established s.c))
  | .CLIENT_RECEIVE chunk =>
    (receive s.c chunk a.ok).map fun o =>
      let s := s.act (o.client, o.acts)
      ([], if o.ret ≠ 0 then s.setLws (s.lws.fail w) else s)
  | .CLIENT_WRITEABLE =>
    let s := s.setLws (s.lws.modify w fun i => { i with writable := false })
    if s.c.send_ping then some ([.q_head_check], s.act (writeable_ping s.c w))
    else
      match s.c.q.dequeue with
      | (none, _) => some ([], s)
      | (some n, q) => some ([.write w n], { s with c := { s.c with q } })
  | .TIMER =>
    let s := s.setLws (s.lws.modify w fun i => { i with timer := none })
    let o := timer s.c a.ret
    let s := s.act (o.client, o.acts)
    some ([], if o.ret ≠ 0 then s.setLws (s.lws.fail w) else s)
  | .CLIENT_RECEIVE_PONG => some ([], s.act (receive_pong s.c))
  | .CLIENT_CONNECTION_ERROR msg =>
    some (if s.c.stopping then [] else [.schedule_reconnect],
      (s.setLws (s.lws.setPhase w .closed)).act (connection_error s.c msg))
  | .CLIENT_CLOSED =>
    some (if s.c.stopping then [] else [.schedule_reconnect],
      (s.setLws (s.lws.setPhase w .closed)).act (closed s.c))
  | .WSI_DESTROY =>
    some ([], (s.setLws (s.lws.remove w)).act (wsi_destroy s.c w, []))
  | .CLIENT_APPEND_HANDSHAKE_HEADER =>
    some ([], s.act
      (s.c, callIf (hooked s.c.hooks (·.on_handshake_header)) (.on_handshake_header w)))

def Sys.deliver (e : Event) (s : Sys) : Option (List Frame × Sys) :=
  match e with
  | .service_thread =>
    if s.thread = .created then some ([.do_connect], { s with thread := .running }) else none
  | .callback w reason a => if s.callback_enabled w reason then s.callback w a reason else none
  | .event_wait_cancelled _ =>
    if s.thread = .running ∧ s.lws.cancelled then
      some ([.event_wait_cancelled], s.setLws { s.lws with cancelled := false })
    else none
  | .sul_reconnect_cb =>
    if s.thread = .running ∧ s.c.sul.isSome then
      some (if s.c.stopping then [] else [.do_connect], { s with c := { s.c with sul := none } })
    else none
  | .exit =>
    if s.thread = .running ∧ s.c.stopping then
      (ws_flush_queue s.c.q).map fun (freed, q) =>
        ([], { s.act ({ s.c with q, frag := .empty },
          freed.map fun n => .flush_node n.payload n.is_binary) with thread := .exited })
    else none
  | .context_destroyed =>
    if s.thread = .destroying then
      some ([], { s with lws := s.lws.destroy, thread := .none, c := { s.c with sul := none } })
    else none

/-- `pwsi` makes lws store the new connection in `c->wsi` before the connect
    call may deliver its first callbacks. -/
def Sys.svc (f : Frame) (a : Answer) (s : Sys) : Option (List Frame × Sys) :=
  match f with
  | .do_connect =>
    let s := s.act ({ s.c with state := .STATE_CONNECTING, wsi := some s.lws.next },
      [.lws_client_connect_via_info (connect_info s.c)])
    match a.connect with
    | .accepted => some ([.connect_return true], s.setLws (s.lws.connect 0))
    | .refused error destroyed =>
      some ((error.map Frame.connection_error).toList ++
          (if destroyed then [.wsi_destroy s.lws.next] else []) ++ [.connect_return false],
        s.setLws { s.lws with next := s.lws.next + 1 })
  | .connection_error msg =>
    some (if s.c.stopping then [] else [.schedule_reconnect], s.act (connection_error s.c msg))
  | .wsi_destroy w => some ([], s.act (wsi_destroy s.c w, []))
  | .connect_return connected =>
    if connected then some ([], s)
    else some ([.schedule_reconnect],
      s.act ({ s.c with wsi := none, state := .STATE_RECONNECT_WAIT }, []))
  | .schedule_reconnect => some ([], s.act (schedule_reconnect s.c a.ret))
  | .q_head_check => some (if s.c.q.has_data then [.lws_callback_on_writable] else [], s)
  | .lws_callback_on_writable => some ([], s.act (s.c, request_writable s.c))
  | .write w n =>
    let s := s.act (s.c, writeable_write n w)
    if a.ret < 0 then some ([], s.setLws (s.lws.fail w)) else some ([.q_head_check], s)
  | .event_wait_cancelled => some ([], s.act (s.c, event_wait_cancelled s.c))

/-- The code an API call still has to run. -/
inductive AppFrame where
  | enqueue_msg (data : Option Data) (is_binary : Bool)
  | enqueue_msg_locked (data : Data) (is_binary : Bool)
  | enqueue_msg_wake
  | lws_cancel_service
  | wsl_start
  | start_thread
  | start_return
  | wsl_stop
  | stop_cancel
  | stop_join
  | stop_context
  | stop_context_destroyed
  | stop_return
  | wsl_destroy

/-- Any thread may send. `wsl_start`, `wsl_stop` and `wsl_destroy` are called by
    the owner of the client, thread 0, and the last one on a stopped client. -/
def Sys.call (t : Nat) (f : AppFrame) (s : Sys) : Bool :=
  !s.destroyed &&
    match f with
    | .enqueue_msg _ _ => true
    | .wsl_start | .wsl_stop => t == 0
    | .wsl_destroy => t == 0 && !s.c.thread_started
    | _ => false

def Sys.app (f : AppFrame) (a : Answer) (s : Sys) : Option (List AppFrame × Sys) :=
  match f with
  | .enqueue_msg none is_binary =>
    some ([], s.act (s.c, [.send_returns [] is_binary .LWS_ERR_PARAM]))
  | .enqueue_msg (some data) is_binary => some ([.enqueue_msg_locked data is_binary], s)
  | .enqueue_msg_locked data is_binary =>
    let (ret, c) := enqueue_msg_locked s.c data is_binary a.ok
    some (if ret = .LWS_OK then [.enqueue_msg_wake] else [],
      s.act (c, [.send_returns data.bytes is_binary ret]))
  | .enqueue_msg_wake => some (if s.c.ctx then [.lws_cancel_service] else [], s)
  | .lws_cancel_service => some ([], s.act (s.c, [.lws_cancel_service]))
  | .wsl_start =>
    if s.c.thread_started then some ([], s)
    else if a.ok then
      some ([.start_thread], { s with c := { s.c with ctx := true }, lws := s.lws.destroy })
    else some ([], s)
  | .start_thread =>
    let c := { s.c with state := .STATE_IDLE, stopping := false }
    if a.ok then
      some ([.start_return], { s.act (c, [.pthread_create]) with thread := .created })
    else some ([], s.act ({ c with ctx := false }, []))
  | .start_return => some ([], s.act ({ s.c with thread_started := true }, []))
  | .wsl_stop =>
    if s.c.thread_started then some ([.stop_cancel], s.act ({ s.c with stopping := true }, []))
    else some ([], s)
  | .stop_cancel => some ([.stop_join], s.act (s.c, if s.c.ctx then [.lws_cancel_service] else []))
  | .stop_join =>
    if s.thread = .exited then
      some ([.stop_context], s.act ({ s.c with thread_started := false }, []))
    else none
  | .stop_context =>
    if s.c.ctx then some ([.stop_context_destroyed], { s with thread := .destroying })
    else some ([.stop_return], { s with thread := .none })
  | .stop_context_destroyed =>
    if s.thread = .none then some ([.stop_return], s.act ({ s.c with ctx := false }, [])) else none
  | .stop_return => some ([], s.act ({ s.c with wsi := none, state := .STATE_IDLE }, []))
  | .wsl_destroy => some ([], { s.act (s.c, [.client_destroy]) with destroyed := true })

/-- A v2 client with its service thread and the threads that use it. -/
def system : System Sys Event Frame AppFrame Answer :=
  { deliver := Sys.deliver, svc := Sys.svc, call := Sys.call, app := Sys.app }

abbrev Config := interleaving.Config Sys Frame AppFrame

abbrev Label := interleaving.Label Event AppFrame Answer

/-- A freshly created client before any other call. -/
def initial (c : wsl_client) : Config :=
  { shared := { c, lws := { wsi := fun _ => none, next := 0, cancelled := false }
                thread := .none, trace := [], destroyed := false }
    svc := []
    app := fun _ => [] }

/-- The configurations of all runs of a freshly created client. -/
def Reachable (cfg : Config) : Prop :=
  ∃ c : wsl_client, c.Fresh ∧ system.Reaches Any (initial c) cfg

/-- A connected client, up to the end of `CLIENT_ESTABLISHED` of connection 0. -/
def connected_run : List Label :=
  [.call 0 .wsl_start, .app 0 {}, .app 0 {}, .app 0 {}, .event .service_thread,
    .svc { connect := .accepted }, .svc {}, .event (.callback 0 .CLIENT_ESTABLISHED {}), .svc {}]

end lws_client.ws_client_v2
