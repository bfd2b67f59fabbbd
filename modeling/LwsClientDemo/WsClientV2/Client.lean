import LwsClientDemo.WsInternal
import LwsClientDemo.Fragment

namespace lws_client.ws_client_v2

inductive wsl_state where
  | STATE_IDLE
  | STATE_CONNECTING
  | STATE_CONNECTED
  | STATE_RECONNECT_WAIT
  | STATE_STOPPED
  deriving DecidableEq

/-- `struct wsl_client`. Callbacks and hooks are kept as whether they are set;
    `ctx` is whether the context pointer is non-NULL; `sul` is the armed
    reconnect timer with its delay in microseconds. -/
structure wsl_client where
  host : String
  port : Int
  path : Option String
  proto_name : Option String
  rx_cb : Bool
  conn_cb : Bool
  err_cb : Bool
  hooks : Option wsl_event_hooks_t
  reconnect_fail_count : Int
  use_ssl : Bool
  ssl_skip_verify : Bool
  ping_interval_ms : Int
  pong_timeout_ms : Int
  reconnect_init_ms : Int
  reconnect_max_ms : Int
  max_queue_msgs : Int
  max_queue_bytes : Int
  ctx : Bool
  wsi : Option WsiId
  thread_started : Bool
  stopping : Bool
  state : wsl_state
  reconnect_delay_ms : Int
  sul : Option Int
  send_ping : Bool
  ping_pending : Bool
  q : SendQueue
  frag : ws_frag_buf_t

/-- `wsl_create` with a host and a positive port, both checked by it. -/
def wsl_create (host : String) (port : Int) (protocol : Option String) (rx_cb : Bool) :
    wsl_client :=
  { host, port, path := none, proto_name := protocol, rx_cb, conn_cb := false, err_cb := false
    hooks := none, reconnect_fail_count := 0, use_ssl := false, ssl_skip_verify := false
    ping_interval_ms := 30000, pong_timeout_ms := 10000
    reconnect_init_ms := 1000, reconnect_max_ms := 60000
    max_queue_msgs := 0, max_queue_bytes := 0, ctx := false, wsi := none
    thread_started := false, stopping := false, state := .STATE_IDLE, reconnect_delay_ms := 0
    sul := none, send_ping := false, ping_pending := false, q := .empty, frag := .empty }

def wsl_set_ping (c : wsl_client) (interval_ms pong_timeout_ms : Int) : wsl_client :=
  { c with ping_interval_ms := interval_ms, pong_timeout_ms }

def wsl_set_reconnect (c : wsl_client) (init_ms max_ms : Int) : wsl_client :=
  { c with reconnect_init_ms := init_ms, reconnect_max_ms := max_ms }

def wsl_set_queue_limit (c : wsl_client) (max_msgs max_bytes : Int) : wsl_client :=
  { c with max_queue_msgs := max_msgs, max_queue_bytes := max_bytes }

def wsl_set_ssl (c : wsl_client) (enabled skip_verify : Bool) : wsl_client :=
  { c with use_ssl := enabled, ssl_skip_verify := skip_verify }

def wsl_set_path (c : wsl_client) (path : Option String) : wsl_client := { c with path }

def wsl_set_conn_cb (c : wsl_client) (cb : Bool) : wsl_client := { c with conn_cb := cb }

def wsl_set_err_cb (c : wsl_client) (cb : Bool) : wsl_client := { c with err_cb := cb }

def wsl_set_event_hooks (c : wsl_client) (hooks : Option wsl_event_hooks_t) : wsl_client :=
  { c with hooks }

/-- A client as `wsl_create` and the setters leave it: the setters touch only
    the configuration. -/
structure wsl_client.Fresh (c : wsl_client) : Prop where
  fail_count : c.reconnect_fail_count = 0
  ctx : c.ctx = false
  wsi : c.wsi = none
  thread_started : c.thread_started = false
  stopping : c.stopping = false
  state : c.state = .STATE_IDLE
  delay : c.reconnect_delay_ms = 0
  sul : c.sul = none
  send_ping : c.send_ping = false
  ping_pending : c.ping_pending = false
  q : c.q = .empty
  frag : c.frag = .empty

theorem wsl_create_fresh (host : String) (port : Int) (protocol : Option String) (rx_cb : Bool) :
    (wsl_create host port protocol rx_cb).Fresh := by
  constructor <;> rfl

/-- `schedule_reconnect`. `ret` is the answer of `on_reconnect_decision`. -/
def schedule_reconnect (c : wsl_client) (ret : Int) : wsl_client × List Act :=
  let delay :=
    if c.reconnect_delay_ms = 0 then c.reconnect_init_ms
    else if int_double c.reconnect_delay_ms > c.reconnect_max_ms then c.reconnect_max_ms
    else int_double c.reconnect_delay_ms
  let arm (delay : Int) :=
    ({ c with reconnect_delay_ms := delay, state := .STATE_RECONNECT_WAIT,
              sul := some (delay * 1000) }, [Act.lws_sul_schedule (delay * 1000)])
  if hooked c.hooks (·.on_reconnect_decision) then
    let asked := Act.on_reconnect_decision c.reconnect_fail_count delay
    if ret < 0 then ({ c with state := .STATE_STOPPED }, [asked])
    else ((arm ret).1, asked :: (arm ret).2)
  else arm delay

/-- The connection parameters `do_connect` fills in. -/
def connect_info (c : wsl_client) : lws_client_connect_info :=
  { address := c.host, port := c.port, path := c.path.getD "/", host := c.host, origin := c.host
    protocol := c.proto_name
    ssl_connection :=
      if c.use_ssl then
        if c.ssl_skip_verify then
          [.USE_SSL, .ALLOW_SELFSIGNED, .SKIP_SERVER_CERT_HOSTNAME_CHECK, .ALLOW_EXPIRED]
        else [.USE_SSL]
      else [] }

/-- `CLIENT_ESTABLISHED` up to its test of `q_head`. -/
def established (c : wsl_client) : wsl_client × List Act :=
  ({ c with state := .STATE_CONNECTED, reconnect_delay_ms := c.reconnect_init_ms,
            ping_pending := false, reconnect_fail_count := 0 },
    (if c.ping_interval_ms > 0 then
      onWsi c.wsi fun w => .lws_set_timer_usecs w (c.ping_interval_ms * 1000) else []) ++
    callIf c.conn_cb (.conn_cb true) ++ callIf (hooked c.hooks (·.on_connected)) .on_connected)

/-- `lws_callback_on_writable(c->wsi)`. -/
def request_writable (c : wsl_client) : List Act := onWsi c.wsi .lws_callback_on_writable

/-- `CLIENT_RECEIVE`. `ok` is the answer of `realloc`; `none` means that
    `ws_frag_append` never returns. -/
def receive (c : wsl_client) (chunk : Chunk) (ok : Bool) : Option (Out wsl_client) :=
  let deliver (rx message : Bool) (data : List UInt8) :=
    callIf rx (.rx_cb data chunk.frame_is_binary) ++
      callIf message (.on_message data chunk.frame_is_binary)
  let on_message := hooked c.hooks (·.on_message)
  if chunk.is_first_fragment && chunk.is_final_fragment &&
      chunk.remaining_packet_payload == 0 then
    some { client := c, acts := deliver c.rx_cb on_message chunk.data.bytes, ret := 0 }
  else
    (ws_frag_append c.frag chunk.data ok).map fun (ret, f) =>
      if ret < 0 then { client := { c with frag := f }, acts := [], ret := -1 }
      else if chunk.is_final_fragment then
        { client := { c with frag := f.reset }
          acts := deliver (c.rx_cb && decide (f.len > 0)) (on_message && decide (f.len > 0))
            f.contents
          ret := 0 }
      else { client := { c with frag := f }, acts := [], ret := 0 }

/-- The string literal `""` that the ping branch passes to `lws_write`. -/
def ping_buf : Ptr := { object := { bytes := [0], writable := false }, offset := 0 }

/-- The ping branch of `CLIENT_WRITEABLE` up to its test of `q_head`. -/
def writeable_ping (c : wsl_client) (wsi : WsiId) : wsl_client × List Act :=
  ({ c with send_ping := false, ping_pending := true },
    [.lws_write wsi ping_buf 0 .LWS_WRITE_PING])

/-- `lws_write` of a dequeued node, and `free(n)`. -/
abbrev writeable_write (n : ws_msg_node_t) (wsi : WsiId) : List Act := write_node n wsi

/-- `TIMER`. `tick` is the answer of `on_heartbeat_tick`. -/
def timer (c : wsl_client) (tick : Int) : Out wsl_client :=
  let asked := callIf (hooked c.hooks (·.on_heartbeat_tick)) .on_heartbeat_tick
  if hooked c.hooks (·.on_heartbeat_tick) ∧ tick ≠ 0 then
    { client := c
      acts := asked ++ (if c.ping_interval_ms > 0 then
        onWsi c.wsi fun w => .lws_set_timer_usecs w (c.ping_interval_ms * 1000) else [])
      ret := 0 }
  else if c.ping_pending then { client := c, acts := asked, ret := -1 }
  else { client := { c with send_ping := true }, acts := asked ++ request_writable c, ret := 0 }

/-- `CLIENT_RECEIVE_PONG`. -/
def receive_pong (c : wsl_client) : wsl_client × List Act :=
  ({ c with ping_pending := false },
    if c.ping_interval_ms > 0 then
      onWsi c.wsi fun w => .lws_set_timer_usecs w (c.ping_interval_ms * 1000) else [])

/-- `CLIENT_CONNECTION_ERROR` up to its call of `schedule_reconnect`. -/
def connection_error (c : wsl_client) (msg : Option String) : wsl_client × List Act :=
  let text := msg.getD "unknown error"
  let c := { c with wsi := none, state := .STATE_RECONNECT_WAIT }
  if c.stopping then (c, [])
  else
    ({ c with reconnect_fail_count := c.reconnect_fail_count + 1 },
      callIf c.err_cb (.err_cb text) ++ callIf (hooked c.hooks (·.on_error)) (.on_error text) ++
      callIf c.conn_cb (.conn_cb false) ++
      callIf (hooked c.hooks (·.on_disconnected)) .on_disconnected)

/-- `CLIENT_CLOSED` up to its call of `schedule_reconnect`. -/
def closed (c : wsl_client) : wsl_client × List Act :=
  let c := { c with wsi := none, state := .STATE_RECONNECT_WAIT }
  if c.stopping then (c, [])
  else
    ({ c with reconnect_fail_count := c.reconnect_fail_count + 1 },
      callIf c.conn_cb (.conn_cb false) ++
      callIf (hooked c.hooks (·.on_disconnected)) .on_disconnected)

/-- `WSI_DESTROY`. -/
def wsi_destroy (c : wsl_client) (wsi : WsiId) : wsl_client :=
  if c.wsi = some wsi then { c with wsi := none } else c

/-- `EVENT_WAIT_CANCELLED`, handled before the test for a NULL `wsi`. -/
def event_wait_cancelled (c : wsl_client) : List Act :=
  if c.stopping then [] else request_writable c

/-- `ws_callback` for a connection, run to its end. The answers are those of the
    one call per reason whose result the handler uses. -/
def ws_callback (c : wsl_client) (wsi : WsiId) (reason : Reason) (a : Answer) :
    Option (Out wsl_client) :=
  match reason with
  | .CLIENT_ESTABLISHED =>
    let (c, acts) := established c
    some { client := c, acts := acts ++ (if c.q.has_data then request_writable c else []), ret := 0 }
  | .CLIENT_RECEIVE chunk => receive c chunk a.ok
  | .CLIENT_WRITEABLE =>
    if c.send_ping then
      let (c, acts) := writeable_ping c wsi
      some { client := c, acts := acts ++ (if c.q.has_data then request_writable c else []), ret := 0 }
    else
      match c.q.dequeue with
      | (none, _) => some { client := c, acts := [], ret := 0 }
      | (some n, q) =>
        let c := { c with q }
        if a.ret < 0 then some { client := c, acts := writeable_write n wsi, ret := -1 }
        else
          some
            { client := c
              acts := writeable_write n wsi ++ (if c.q.has_data then request_writable c else [])
              ret := 0 }
  | .TIMER => some (timer c a.ret)
  | .CLIENT_RECEIVE_PONG =>
    let (c, acts) := receive_pong c
    some { client := c, acts, ret := 0 }
  | .CLIENT_CONNECTION_ERROR msg =>
    let (c', acts) := connection_error c msg
    if c.stopping then some { client := c', acts, ret := 0 }
    else
      let (c', more) := schedule_reconnect c' a.ret
      some { client := c', acts := acts ++ more, ret := 0 }
  | .CLIENT_CLOSED =>
    let (c', acts) := closed c
    if c.stopping then some { client := c', acts, ret := 0 }
    else
      let (c', more) := schedule_reconnect c' a.ret
      some { client := c', acts := acts ++ more, ret := 0 }
  | .WSI_DESTROY => some { client := wsi_destroy c wsi, acts := [], ret := 0 }
  | .CLIENT_APPEND_HANDSHAKE_HEADER =>
    some
      { client := c
        acts := callIf (hooked c.hooks (·.on_handshake_header)) (.on_handshake_header wsi)
        ret := 0 }

/-- The `q_lock` section of `enqueue_msg`. `ok` is the answer of `malloc`. -/
def enqueue_msg_locked (c : wsl_client) (data : Data) (is_binary ok : Bool) :
    LwsClientRet_e × wsl_client :=
  if c.max_queue_msgs > 0 ∧ int_of_size c.q.q_msgs ≥ c.max_queue_msgs then (.LWS_ERR_QUEUE_FULL, c)
  else if c.max_queue_bytes > 0 ∧
      int_of_size (size_add c.q.q_bytes data.bytes.length) > c.max_queue_bytes then
    (.LWS_ERR_QUEUE_FULL, c)
  else
    match ws_msg_new data is_binary ok with
    | none => (.LWS_ERR_QUEUE_FULL, c)
    | some n => (.LWS_OK, { c with q := c.q.append n })

end lws_client.ws_client_v2
