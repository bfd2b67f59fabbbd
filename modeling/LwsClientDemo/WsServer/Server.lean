import LwsClientDemo.Interleaving
import LwsClientDemo.WsInternal
import LwsClientDemo.Fragment

open interleaving

namespace lws_client.ws_server

/-- `per_session_t`. `echo` is `echo_buf` with the length and type it was made
    with, which nothing reads once it is NULL. -/
structure per_session_t where
  client_id : Int
  echo : Option ws_msg_node_t
  frag : ws_frag_buf_t

/-- `struct wss_server`. `rx_cb` and `conn_cb` are whether the callbacks are set,
    `ctx` whether the context pointer is non-NULL. -/
structure wss_server where
  rx_cb : Bool
  conn_cb : Bool
  ctx : Bool
  stopping : Bool
  next_id : Int

def wss_create : wss_server :=
  { rx_cb := false, conn_cb := false, ctx := false, stopping := false, next_id := 1 }

def wss_set_rx_cb (s : wss_server) (cb : Bool) : wss_server := { s with rx_cb := cb }

def wss_set_conn_cb (s : wss_server) (cb : Bool) : wss_server := { s with conn_cb := cb }

/-- What the server does that is seen outside it. -/
inductive Call where
  | lws_write (wsi : WsiId) (buf : Ptr) (len : Nat) (wp : lws_write_protocol)
  | lws_callback_on_writable (wsi : WsiId)
  | lws_cancel_service
  | rx_cb (data : List UInt8) (is_binary : Bool) (client_id : Int)
  | conn_cb (client_id : Int) (connected : Bool)
  deriving DecidableEq

/-- `prepare_echo`. `ok` is the answer of its `malloc`, which is that of a
    message buffer: `LWS_PRE + len` bytes, the payload behind `LWS_PRE`. -/
def prepare_echo (ps : per_session_t) (data : Data) (binary ok : Bool) : Int × per_session_t :=
  match msg_node_new data binary ok with
  | none => (-1, { ps with echo := none })
  | some n => (0, { ps with echo := some n })

/-- The first `frag_len` bytes of `frag_buf`. -/
def per_session_t.payload (ps : per_session_t) : Data :=
  { bytes := ps.frag.contents, length_le := ps.frag.contents_le }

/-- `ESTABLISHED`. -/
def established (srv : wss_server) : wss_server × per_session_t × List Call :=
  ({ srv with next_id := srv.next_id + 1 },
    { client_id := srv.next_id, echo := none, frag := .empty },
    if srv.conn_cb then [.conn_cb srv.next_id true] else [])

/-- `RECEIVE`: the session after it, the calls and the return value. `realloc`
    and `malloc` are the answers of the allocator to `frag_append` and to
    `prepare_echo`; `none` means that `frag_append` never returns. -/
def receive (srv : wss_server) (ps : per_session_t) (wsi : WsiId) (chunk : Chunk)
    (realloc malloc : Bool) : Option (per_session_t × List Call × Int) :=
  (ws_frag_append (if chunk.is_first_fragment then ps.frag.reset else ps.frag) chunk.data realloc).map
    fun (ret, f) =>
      let ps := { ps with frag := f }
      if ret < 0 then (ps, [], -1)
      else if chunk.is_final_fragment then
        let (prepared, next) := prepare_echo ps ps.payload chunk.frame_is_binary malloc
        ({ next with frag := f.reset },
          (if srv.rx_cb then [.rx_cb ps.payload.bytes chunk.frame_is_binary ps.client_id] else []) ++
            (if prepared = 0 then [.lws_callback_on_writable wsi] else []),
          0)
      else (ps, [], 0)

/-- `SERVER_WRITEABLE`. -/
def server_writeable (ps : per_session_t) (wsi : WsiId) : per_session_t × List Call :=
  match ps.echo with
  | none => (ps, [])
  | some n =>
    ({ ps with echo := none },
      [.lws_write wsi ⟨n.buf, LWS_PRE⟩ n.len (if n.is_binary then .LWS_WRITE_BINARY else .LWS_WRITE_TEXT)])

/-- `CLOSED`. The buffers are freed, and the session ends with it. -/
def closed (srv : wss_server) (ps : per_session_t) : List Call :=
  if srv.conn_cb then [.conn_cb ps.client_id false] else []

/-- What lws keeps for an open connection: its session, whether a
    SERVER_WRITEABLE is due, and whether a callback of it has returned nonzero. -/
structure Wsi where
  user : per_session_t
  writable : Bool
  failed : Bool

/-- The server with its open connections, the service thread, and the calls made
    so far in order. `next` is an id no connection has had. -/
structure Sys where
  srv : wss_server
  wsi : WsiId → Option Wsi
  next : WsiId
  thread : Thread
  trace : List Call

def Sys.set (s : Sys) (w : WsiId) (x : Option Wsi) (calls : List Call) : Sys :=
  { s with wsi := Function.update s.wsi w x, trace := s.trace ++ calls }

/-- What the service thread is given: the callbacks of a connection, the end of
    its loop, and the end of the context. -/
inductive Event where
  | established (wsi : WsiId)
  | receive (wsi : WsiId) (chunk : Chunk) (realloc malloc : Bool)
  | server_writeable (wsi : WsiId)
  | closed (wsi : WsiId)
  | exit
  | context_destroyed

/-- RECEIVE and SERVER_WRITEABLE come between ESTABLISHED and CLOSED; a
    SERVER_WRITEABLE clears the request. -/
def Sys.deliver (e : Event) (s : Sys) : Option (List Empty × Sys) :=
  match e with
  | .established w =>
    if s.thread = .running ∧ w = s.next then
      let (srv, user, calls) := established s.srv
      some ([], { s.set w (some { user, writable := false, failed := false }) calls with
        srv, next := s.next + 1 })
    else none
  | .receive w chunk realloc malloc =>
    if s.thread = .running then
      (s.wsi w).bind fun x =>
        (receive s.srv x.user w chunk realloc malloc).map fun (user, calls, ret) =>
          ([], s.set w (some
            { user, writable := x.writable || decide (.lws_callback_on_writable w ∈ calls)
              failed := x.failed || decide (ret ≠ 0) }) calls)
    else none
  | .server_writeable w =>
    if s.thread = .running then
      (s.wsi w).map fun x =>
        let (user, calls) := server_writeable x.user w
        ([], s.set w (some { x with user, writable := false }) calls)
    else none
  | .closed w =>
    if s.thread = .running ∨ s.thread = .destroying then
      (s.wsi w).map fun x => ([], s.set w none (closed s.srv x.user))
    else none
  | .exit =>
    if s.thread = .running ∧ s.srv.stopping then some ([], { s with thread := .exited }) else none
  | .context_destroyed =>
    if s.thread = .destroying then some ([], { s with wsi := fun _ => none, thread := .none })
    else none

/-- The code an API call still has to run. -/
inductive AppFrame where
  | wss_start
  | wss_stop
  | stop_join
  | stop_context_destroyed

/-- The owner of the server, thread 0, starts and stops it. A started server is
    not started again. -/
def Sys.call (t : Nat) (f : AppFrame) (s : Sys) : Bool :=
  t == 0 &&
    match f with
    | .wss_start => !s.srv.ctx
    | .wss_stop => true
    | _ => false

/-- `wss_start` fails when the context or the thread cannot be made. -/
def Sys.app (f : AppFrame) (a : Answer) (s : Sys) : Option (List AppFrame × Sys) :=
  match f with
  | .wss_start =>
    if a.ok then
      some ([], { s with srv := { s.srv with ctx := true, stopping := false }, thread := .running })
    else some ([], s)
  | .wss_stop =>
    if s.srv.ctx then
      some ([.stop_join],
        { s with srv := { s.srv with stopping := true }, trace := s.trace ++ [.lws_cancel_service] })
    else some ([], s)
  | .stop_join =>
    if s.thread = .exited then some ([.stop_context_destroyed], { s with thread := .destroying })
    else none
  | .stop_context_destroyed =>
    if s.thread = .none then some ([], { s with srv := { s.srv with ctx := false } }) else none

/-- A server with its service thread and its owner. Its callbacks run in one
    section. -/
def system : System Sys Event Empty AppFrame Answer :=
  { deliver := Sys.deliver, svc := fun f _ _ => f.elim, call := Sys.call, app := Sys.app }

abbrev Config := interleaving.Config Sys Empty AppFrame

abbrev Label := interleaving.Label Event AppFrame Answer

/-- A created server before any other call. -/
def initial (srv : wss_server) : Config :=
  { shared := { srv, wsi := fun _ => none, next := 0
                thread := .none, trace := [] }
    svc := []
    app := fun _ => [] }

/-- The configurations of all runs of a created server. -/
def Reachable (cfg : Config) : Prop :=
  ∃ srv : wss_server, system.Reaches Any (initial srv) cfg

end lws_client.ws_server
