import LwsClientDemo.WsInternal
import LwsClientDemo.Fragment

namespace lws_client.ws_client

inductive client_state_t where
  | STATE_IDLE
  | STATE_CONNECTING
  | STATE_CONNECTED
  | STATE_RECONNECT_WAIT
  deriving DecidableEq

/-- A `CLOCK_MONOTONIC` time. -/
structure timespec where
  tv_sec : Int
  tv_nsec : Int
  deriving DecidableEq

/-- The configuration of a `wsld_client`, read-only from `wsld_start` on. `rx_cb`
    is whether the callback is set. -/
structure wsld_config where
  host : String
  port : Int
  proto_name : String
  path : Option String
  rx_cb : Bool
  use_ssl : Bool
  ssl_skip_verify : Bool
  ping_interval_ms : Int
  pong_timeout_ms : Int
  reconnect_init_ms : Int
  reconnect_max_ms : Int
  max_queue_msgs : Nat
  max_queue_bytes : Nat

/-- `struct wsld_client`. `ctx` is whether the context pointer is non-NULL. -/
structure wsld_client extends wsld_config where
  ctx : Bool
  wsi : Option WsiId
  thread_started : Bool
  stopping : Bool
  state : client_state_t
  reconnect_delay_ms : Int
  reconnect_at : timespec
  send_ping : Bool
  ping_pending : Bool
  q : SendQueue
  frag : ws_frag_buf_t

/-- `wsld_create` with a host and a positive port, both checked by it. -/
def wsld_create (host : String) (port : Int) (protocol : Option String) (rx_cb : Bool) :
    wsld_client :=
  { host, port, proto_name := protocol.getD "", path := some "/", rx_cb
    use_ssl := false, ssl_skip_verify := false
    ping_interval_ms := 30000, pong_timeout_ms := 10000
    reconnect_init_ms := 1000, reconnect_max_ms := 60000
    max_queue_msgs := 0, max_queue_bytes := 0, ctx := false, wsi := none
    thread_started := false, stopping := false, state := .STATE_IDLE, reconnect_delay_ms := 1000
    reconnect_at := ⟨0, 0⟩, send_ping := false, ping_pending := false, q := .empty, frag := .empty }

def wsld_set_ping (c : wsld_client) (interval_ms pong_timeout_ms : Int) : wsld_client :=
  { c with ping_interval_ms := interval_ms, pong_timeout_ms }

def wsld_set_reconnect (c : wsld_client) (init_ms max_ms : Int) : wsld_client :=
  { c with reconnect_init_ms := init_ms, reconnect_max_ms := max_ms, reconnect_delay_ms := init_ms }

def wsld_set_queue_limit (c : wsld_client) (max_msgs max_bytes : Int) : wsld_client :=
  { c with max_queue_msgs := size_of_int max_msgs, max_queue_bytes := size_of_int max_bytes }

def wsld_set_ssl (c : wsld_client) (enabled skip_verify : Bool) : wsld_client :=
  { c with use_ssl := enabled, ssl_skip_verify := skip_verify }

/-- `ok` is the answer of `strdup`. -/
def wsld_set_path (c : wsld_client) (path : Option String) (ok : Bool) : wsld_client :=
  match path with
  | none => c
  | some path => { c with path := if ok then some path else none }

/-- A client as `wsld_create` and the setters leave it: the setters touch only
    the configuration and the first reconnect delay. -/
structure wsld_client.Fresh (c : wsld_client) : Prop where
  ctx : c.ctx = false
  wsi : c.wsi = none
  thread_started : c.thread_started = false
  stopping : c.stopping = false
  state : c.state = .STATE_IDLE
  send_ping : c.send_ping = false
  ping_pending : c.ping_pending = false
  q : c.q = .empty
  frag : c.frag = .empty

theorem wsld_create_fresh (host : String) (port : Int) (protocol : Option String) (rx_cb : Bool) :
    (wsld_create host port protocol rx_cb).Fresh := by
  constructor <;> rfl

/-- `schedule_reconnect` at the time `now`, the answer of `ms_now`. -/
def schedule_reconnect (c : wsld_client) (now : Int) : wsld_client :=
  let at_ms := now + c.reconnect_delay_ms
  let delay := int_double c.reconnect_delay_ms
  { c with
    reconnect_at := { tv_sec := at_ms.tdiv 1000, tv_nsec := at_ms.tmod 1000 * 1000000 }
    reconnect_delay_ms := if delay > c.reconnect_max_ms then c.reconnect_max_ms else delay
    state := .STATE_RECONNECT_WAIT }

/-- The time in milliseconds from which the service loop reconnects. -/
def reconnect_due (c : wsld_client) : Int :=
  c.reconnect_at.tv_sec * 1000 + c.reconnect_at.tv_nsec.tdiv 1000000

/-- The deadline survives its split into seconds and nanoseconds. -/
theorem reconnect_due_schedule (c : wsld_client) (now : Int) :
    reconnect_due (schedule_reconnect c now) = now + c.reconnect_delay_ms := by
  have hnsec : ((now + c.reconnect_delay_ms).tmod 1000 * 1000000).tdiv 1000000 =
      (now + c.reconnect_delay_ms).tmod 1000 := Int.mul_tdiv_cancel _ (by decide)
  have hsplit := Int.tdiv_mul_add_tmod (now + c.reconnect_delay_ms) 1000
  simp only [reconnect_due, schedule_reconnect, hnsec]
  exact hsplit

/-- The connection parameters `do_connect` fills in. -/
def connect_info (c : wsld_client) : lws_client_connect_info :=
  { address := c.host, port := c.port
    path := match c.path with
      | some path => if path = "" then "/" else path
      | none => "/"
    host := c.host, origin := c.host
    protocol := if c.proto_name = "" then none else some c.proto_name
    ssl_connection :=
      if c.use_ssl then
        if c.ssl_skip_verify then
          [.USE_SSL, .ALLOW_SELFSIGNED, .SKIP_SERVER_CERT_HOSTNAME_CHECK, .ALLOW_EXPIRED]
        else [.USE_SSL]
      else [] }

/-- `CLIENT_ESTABLISHED`. -/
def established (c : wsld_client) (wsi : WsiId) : wsld_client × List Act :=
  ({ c with wsi := some wsi, state := .STATE_CONNECTED, reconnect_delay_ms := c.reconnect_init_ms
            send_ping := false, ping_pending := false },
    [.lws_set_timer_usecs wsi (c.ping_interval_ms * 1000)])

/-- `CLIENT_RECEIVE`. `ok` is the answer of `realloc`; `none` means that
    `frag_append` never returns. -/
def receive (c : wsld_client) (chunk : Chunk) (ok : Bool) : Option (Out wsld_client) :=
  if chunk.is_first_fragment && chunk.is_final_fragment &&
      chunk.remaining_packet_payload == 0 then
    some
      { client := c, acts := callIf c.rx_cb (.rx_cb chunk.data.bytes chunk.frame_is_binary)
        ret := 0 }
  else
    (ws_frag_append (if chunk.is_first_fragment then c.frag.reset else c.frag) chunk.data ok).map
      fun (ret, f) =>
        if ret < 0 then { client := { c with frag := f }, acts := [], ret := -1 }
        else if chunk.is_final_fragment && chunk.remaining_packet_payload == 0 then
          { client := { c with frag := f.reset }
            acts := callIf c.rx_cb (.rx_cb f.contents chunk.frame_is_binary), ret := 0 }
        else { client := { c with frag := f }, acts := [], ret := 0 }

/-- `ping_buf + LWS_PRE`, into the zeroed array of the ping branch. -/
def ping_buf : Ptr :=
  { object := { bytes := List.replicate (LWS_PRE + 4) 0, writable := true }, offset := LWS_PRE }

/-- The ping branch of `CLIENT_WRITEABLE` up to its test of `q_head`. -/
def writeable_ping (c : wsld_client) (wsi : WsiId) : wsld_client × List Act :=
  ({ c with send_ping := false, ping_pending := true },
    [.lws_write wsi ping_buf 0 .LWS_WRITE_PING])

/-- `lws_write` of a dequeued node, and `free` of its buffer and of the node. -/
abbrev writeable_write (n : ws_msg_node_t) (wsi : WsiId) : List Act := write_node n wsi

/-- `TIMER`. -/
def timer (c : wsld_client) (wsi : WsiId) : Out wsld_client :=
  if c.ping_pending then { client := c, acts := [], ret := -1 }
  else
    { client := { c with send_ping := true }
      acts := [.lws_callback_on_writable wsi, .lws_set_timer_usecs wsi (c.pong_timeout_ms * 1000)]
      ret := 0 }

/-- `CLIENT_RECEIVE_PONG`. -/
def receive_pong (c : wsld_client) (wsi : WsiId) : wsld_client × List Act :=
  ({ c with ping_pending := false }, [.lws_set_timer_usecs wsi (c.ping_interval_ms * 1000)])

/-- `CLIENT_CONNECTION_ERROR` and `CLIENT_CLOSED`, which do the same. -/
def closed (c : wsld_client) (now : Int) : wsld_client :=
  let c := { c with wsi := none }
  if c.stopping then c else schedule_reconnect c now

/-- `WSI_DESTROY`. -/
def wsi_destroy (c : wsld_client) (wsi : WsiId) : wsld_client :=
  if c.wsi = some wsi then { c with wsi := none } else c

/-- The connection for which `EVENT_WAIT_CANCELLED` requests WRITEABLE. `wsi` and
    `state` are the service thread's own, `q_head` is read under `q_lock`. -/
def event_wait_cancelled (c : wsld_client) : Option WsiId :=
  if c.state = .STATE_CONNECTED ∧ c.q.has_data then c.wsi else none

/-- `enqueue` from its allocations on. They come before the lock, and `ok` is
    the answer of both; everything else is the `q_lock` section. -/
def enqueue_locked (c : wsld_client) (data : Data) (is_binary ok : Bool) :
    LwsClientRet_e × wsld_client :=
  match msg_node_new data is_binary ok with
  | none => (.LWS_ERR_QUEUE_FULL, c)
  | some node =>
    if (c.max_queue_msgs ≠ 0 ∧ c.q.q_msgs ≥ c.max_queue_msgs) ∨
        (c.max_queue_bytes ≠ 0 ∧ size_add c.q.q_bytes data.bytes.length > c.max_queue_bytes) then
      (.LWS_ERR_QUEUE_FULL, c)
    else (.LWS_OK, { c with q := c.q.append node })

end lws_client.ws_client
