import LwsClientDemo.WsInternal
import LwsClientDemo.Fragment

namespace lws_client.ws_pool

/-- A `wsp_client_t` pointer. -/
abbrev ClientId := Nat

inductive client_state_t where
  | STATE_IDLE
  | STATE_CONNECTING
  | STATE_CONNECTED
  | STATE_RECONNECT_WAIT
  | STATE_STOPPED
  deriving DecidableEq

/-- The configuration of a `wsp_client`, read-only from `wsp_pool_add` on. The
    callback and the hooks are kept as whether they are set. -/
structure wsp_config where
  host : String
  port : Int
  proto_name : String
  path : Option String
  rx_cb : Bool
  hooks : Option wsl_event_hooks_t
  use_ssl : Bool
  ssl_skip_verify : Bool
  ping_interval_ms : Int
  pong_timeout_ms : Int
  reconnect_init_ms : Int
  reconnect_max_ms : Int
  max_queue_msgs : Nat
  max_queue_bytes : Nat

/-- `struct wsp_client`. `sul` is the armed reconnect timer with its delay in
    microseconds, `waiting` whether a thread is blocked on `stop_cond`, and
    `pool` whether the back pointer is set. -/
structure wsp_client extends wsp_config where
  reconnect_delay_ms : Int
  reconnect_fail_count : Int
  wsi : Option WsiId
  state : client_state_t
  send_ping : Bool
  ping_pending : Bool
  sul : Option Int
  q : SendQueue
  frag : ws_frag_buf_t
  stopping : Bool
  stopped : Bool
  waiting : Bool
  pool : Bool

/-- `struct wsp_pool`: `n_clients` and `n_pending` are the lengths of the lists,
    and `ctx` is whether the context pointer is non-NULL. -/
structure wsp_pool where
  clients : List ClientId
  pending : List ClientId
  ctx : Bool
  thread_started : Bool
  destroying : Bool

def WSP_MAX_CLIENTS : Nat := 256

def wsp_pool_create : wsp_pool :=
  { clients := [], pending := [], ctx := false, thread_started := false, destroying := false }

/-- `wsp_client_create` with a host and a positive port, both checked by it. -/
def wsp_client_create (host : String) (port : Int) (protocol : Option String) (rx_cb : Bool) :
    wsp_client :=
  { host, port, proto_name := protocol.getD "", path := some "/", rx_cb, hooks := none
    use_ssl := false, ssl_skip_verify := false
    ping_interval_ms := 30000, pong_timeout_ms := 10000
    reconnect_init_ms := 1000, reconnect_max_ms := 60000
    max_queue_msgs := 0, max_queue_bytes := 0
    reconnect_delay_ms := 1000, reconnect_fail_count := 0, wsi := none, state := .STATE_IDLE
    send_ping := false, ping_pending := false, sul := none, q := .empty, frag := .empty
    stopping := false, stopped := false, waiting := false, pool := false }

def wsp_set_ping (c : wsp_client) (interval_ms pong_timeout_ms : Int) : wsp_client :=
  { c with ping_interval_ms := interval_ms, pong_timeout_ms }

def wsp_set_reconnect (c : wsp_client) (init_ms max_ms : Int) : wsp_client :=
  { c with reconnect_init_ms := init_ms, reconnect_max_ms := max_ms, reconnect_delay_ms := init_ms }

def wsp_set_queue_limit (c : wsp_client) (max_msgs max_bytes : Int) : wsp_client :=
  { c with max_queue_msgs := size_of_int max_msgs, max_queue_bytes := size_of_int max_bytes }

def wsp_set_ssl (c : wsp_client) (enabled skip_verify : Bool) : wsp_client :=
  { c with use_ssl := enabled, ssl_skip_verify := skip_verify }

/-- `ok` is the answer of `strdup`. -/
def wsp_set_path (c : wsp_client) (path : Option String) (ok : Bool) : wsp_client :=
  match path with
  | none => c
  | some path => { c with path := if ok then some path else none }

def wsp_set_event_hooks (c : wsp_client) (hooks : Option wsl_event_hooks_t) : wsp_client :=
  { c with hooks }

/-- A client as `wsp_client_create` and the setters leave it: the setters touch
    only the configuration and the first reconnect delay. -/
structure wsp_client.Fresh (c : wsp_client) : Prop where
  fail_count : c.reconnect_fail_count = 0
  wsi : c.wsi = none
  state : c.state = .STATE_IDLE
  send_ping : c.send_ping = false
  ping_pending : c.ping_pending = false
  sul : c.sul = none
  q : c.q = .empty
  frag : c.frag = .empty
  stopping : c.stopping = false
  stopped : c.stopped = false
  waiting : c.waiting = false
  pool : c.pool = false

theorem wsp_client_create_fresh (host : String) (port : Int) (protocol : Option String)
    (rx_cb : Bool) : (wsp_client_create host port protocol rx_cb).Fresh := by
  constructor <;> rfl

/-- `schedule_reconnect` behind its test of `stopping`. `ret` is the answer of
    `on_reconnect_decision`. -/
def schedule_reconnect (c : wsp_client) (ret : Int) : wsp_client × List Act :=
  let doubled := int_double c.reconnect_delay_ms
  let delay := if doubled > c.reconnect_max_ms then c.reconnect_max_ms else doubled
  let arm (delay : Int) :=
    ({ c with reconnect_delay_ms := delay, state := .STATE_RECONNECT_WAIT,
              sul := some (delay * 1000) }, [Act.lws_sul_schedule (delay * 1000)])
  if hooked c.hooks (·.on_reconnect_decision) then
    let asked := Act.on_reconnect_decision c.reconnect_fail_count delay
    if ret < 0 then ({ c with state := .STATE_STOPPED }, [asked])
    else ((arm ret).1, asked :: (arm ret).2)
  else arm delay

/-- The connection parameters `do_connect` fills in. -/
def connect_info (c : wsp_client) : lws_client_connect_info :=
  { address := c.host, port := c.port
    path := match c.path with
      | some path => if path = "" then "/" else path
      | none => "/"
    host := c.host, origin := c.host
    protocol := if c.proto_name = "" then none else some c.proto_name
    ssl_connection :=
      if c.use_ssl then
        if c.ssl_skip_verify then
          [.USE_SSL, .ALLOW_SELFSIGNED, .SKIP_SERVER_CERT_HOSTNAME_CHECK, .ALLOW_EXPIRED]
        else [.USE_SSL]
      else [] }

/-- `CLIENT_ESTABLISHED`. -/
def established (c : wsp_client) (wsi : WsiId) : wsp_client × List Act :=
  ({ c with state := .STATE_CONNECTED, reconnect_delay_ms := c.reconnect_init_ms
            reconnect_fail_count := 0, send_ping := false, ping_pending := false },
    .lws_set_timer_usecs wsi (c.ping_interval_ms * 1000) ::
      callIf (hooked c.hooks (·.on_connected)) .on_connected)

/-- `CLIENT_RECEIVE`. `ok` is the answer of `realloc`; `none` means that
    `frag_append` never returns. -/
def receive (c : wsp_client) (chunk : Chunk) (ok : Bool) : Option (Out wsp_client) :=
  let deliver (message : Bool) (data : List UInt8) :=
    callIf c.rx_cb (.rx_cb data chunk.frame_is_binary) ++
      callIf message (.on_message data chunk.frame_is_binary)
  let on_message := hooked c.hooks (·.on_message)
  if chunk.is_first_fragment && chunk.is_final_fragment &&
      chunk.remaining_packet_payload == 0 then
    some { client := c, acts := deliver on_message chunk.data.bytes, ret := 0 }
  else
    (ws_frag_append (if chunk.is_first_fragment then c.frag.reset else c.frag) chunk.data ok).map
      fun (ret, f) =>
        if ret < 0 then { client := { c with frag := f }, acts := [], ret := -1 }
        else if chunk.is_final_fragment && chunk.remaining_packet_payload == 0 then
          { client := { c with frag := f.reset }
            acts := deliver (on_message && decide (f.len > 0)) f.contents, ret := 0 }
        else { client := { c with frag := f }, acts := [], ret := 0 }

/-- `ping_buf + LWS_PRE`, into the zeroed array of the ping branch. -/
def ping_buf : Ptr :=
  { object := { bytes := List.replicate (LWS_PRE + 4) 0, writable := true }, offset := LWS_PRE }

/-- The ping branch of `CLIENT_WRITEABLE` up to its test of `q_head`. -/
def writeable_ping (c : wsp_client) (wsi : WsiId) : wsp_client × List Act :=
  ({ c with send_ping := false, ping_pending := true },
    [.lws_write wsi ping_buf 0 .LWS_WRITE_PING])

/-- `lws_write` of a dequeued node, and `free(node)`. -/
abbrev writeable_write (n : ws_msg_node_t) (wsi : WsiId) : List Act := write_node n wsi

/-- `TIMER`. `tick` is the answer of `on_heartbeat_tick`. -/
def timer (c : wsp_client) (wsi : WsiId) (tick : Int) : Out wsp_client :=
  let asked := callIf (hooked c.hooks (·.on_heartbeat_tick)) .on_heartbeat_tick
  if hooked c.hooks (·.on_heartbeat_tick) ∧ tick ≠ 0 then
    { client := c
      acts := asked ++ (if c.ping_interval_ms > 0 then
        onWsi c.wsi fun w => .lws_set_timer_usecs w (c.ping_interval_ms * 1000) else [])
      ret := 0 }
  else if c.ping_pending then { client := c, acts := asked, ret := -1 }
  else
    { client := { c with send_ping := true }
      acts := asked ++ [.lws_callback_on_writable wsi,
        .lws_set_timer_usecs wsi (c.pong_timeout_ms * 1000)]
      ret := 0 }

/-- `CLIENT_RECEIVE_PONG`. -/
def receive_pong (c : wsp_client) (wsi : WsiId) : wsp_client × List Act :=
  ({ c with ping_pending := false }, [.lws_set_timer_usecs wsi (c.ping_interval_ms * 1000)])

/-- `stopped = 1; pthread_cond_signal(&stop_cond)`. -/
def signal_stopped (c : wsp_client) : wsp_client := { c with stopped := true, waiting := false }

/-- `CLIENT_CONNECTION_ERROR` up to its call of `schedule_reconnect`. -/
def connection_error (c : wsp_client) (msg : Option String) : wsp_client × List Act :=
  let c := { c with wsi := none }
  if c.stopping then (signal_stopped c, [])
  else
    ({ c with reconnect_fail_count := c.reconnect_fail_count + 1 },
      callIf (hooked c.hooks (·.on_error)) (.on_error (msg.getD "unknown error")) ++
      callIf (hooked c.hooks (·.on_disconnected)) .on_disconnected)

/-- `CLIENT_CLOSED` up to its call of `schedule_reconnect`. -/
def closed (c : wsp_client) : wsp_client × List Act :=
  let c := { c with wsi := none, state := .STATE_IDLE }
  if c.stopping then (signal_stopped c, [])
  else
    ({ c with reconnect_fail_count := c.reconnect_fail_count + 1 },
      callIf (hooked c.hooks (·.on_disconnected)) .on_disconnected)

/-- `WSI_DESTROY`. -/
def wsi_destroy (c : wsp_client) (wsi : WsiId) : wsp_client :=
  let c := if c.wsi = some wsi then { c with wsi := none } else c
  if c.stopping && !c.stopped then signal_stopped c else c

/-- `enqueue` from its allocation on, with the node it frees. The allocation
    comes before the lock, and `ok` is its answer; everything else is the
    `q_lock` section. -/
def enqueue_locked (c : wsp_client) (data : Data) (is_binary ok : Bool) :
    LwsClientRet_e × wsp_client × List Act :=
  match ws_msg_new data is_binary ok with
  | none => (.LWS_ERR_QUEUE_FULL, c, [])
  | some node =>
    let freed := [.free_node node.payload node.is_binary]
    if c.stopping then (.LWS_ERR_PARAM, c, freed)
    else if (c.max_queue_msgs ≠ 0 ∧ c.q.q_msgs ≥ c.max_queue_msgs) ∨
        (c.max_queue_bytes ≠ 0 ∧ size_add c.q.q_bytes data.bytes.length > c.max_queue_bytes) then
      (.LWS_ERR_QUEUE_FULL, c, freed)
    else (.LWS_OK, { c with q := c.q.append node }, [])

/-- The `pool_lock` section of `wsp_pool_add`; `none` when the pool is full. -/
def wsp_pool.add (p : wsp_pool) (c : ClientId) : Option wsp_pool :=
  if p.clients.length + p.pending.length ≥ WSP_MAX_CLIENTS then none
  else some { p with clients := p.clients ++ [c], pending := p.pending ++ [c] }

end lws_client.ws_pool
