import LwsClientDemo.WsClientV2.Wakeup
import LwsClientDemo.WsClient.Heartbeat
import LwsClientDemo.WsPool.Heartbeat
import LwsClientDemo.WsClientV2.Queue
import LwsClientDemo.WsClient.Queue
import LwsClientDemo.WsClient.Receive
import LwsClientDemo.WsClient.Wakeup
import LwsClientDemo.WsPool.Queue
import LwsClientDemo.WsPool.Receive
import LwsClientDemo.WsPool.Wakeup
import LwsClientDemo.WsClient.Decisions
import LwsClientDemo.WsClientV2.Decisions
import LwsClientDemo.WsPool.Decisions
import LwsClientDemo.WsClientV2.Places
import LwsClientDemo.WsPool.Places
import LwsClientDemo.WsClientV2.Breaker
import LwsClientDemo.WsPool.Breaker
import LwsClientDemo.WsClient.Headroom
import LwsClientDemo.WsClientV2.Headroom
import LwsClientDemo.WsPool.Headroom
import LwsClientDemo.WsServer.Headroom

open interleaving

namespace lws_client

/-- The send queue of each client keeps its messages in order. A v1 or v2 client
    that is started again may drop messages before it writes others; up to its
    second start the writes come first, as they always do in the pool. A send
    that returns an error leaves the queue as it was. -/
theorem queues_in_order :
    ((∀ cfg, ws_client.Reachable cfg →
        Fifo cfg.shared.c.q (ws_client.inflight cfg.svc) cfg.shared.trace ∧
        (starts cfg.shared.trace ≤ 1 →
          InOrder cfg.shared.c.q (ws_client.inflight cfg.svc) cfg.shared.trace)) ∧
      ∀ cfg l cfg' data is_binary ret, ws_client.system.step cfg l = some cfg' →
        cfg'.shared.trace = cfg.shared.trace ++ [.send_returns data is_binary ret] →
        ret ≠ .LWS_OK → cfg'.shared.c.q = cfg.shared.c.q) ∧
    ((∀ cfg, ws_client_v2.Reachable cfg →
        Fifo cfg.shared.c.q (ws_client_v2.inflight cfg.svc) cfg.shared.trace ∧
        (starts cfg.shared.trace ≤ 1 →
          InOrder cfg.shared.c.q (ws_client_v2.inflight cfg.svc) cfg.shared.trace)) ∧
      ∀ cfg l cfg' data is_binary ret, ws_client_v2.system.step cfg l = some cfg' →
        cfg'.shared.trace = cfg.shared.trace ++ [.send_returns data is_binary ret] →
        ret ≠ .LWS_OK → cfg'.shared.c.q = cfg.shared.c.q) ∧
    (∀ cfg, ws_pool.Reachable cfg → ∀ d,
        InOrder (cfg.shared.client d).q (ws_pool.inflight d cfg.svc) (cfg.shared.trace d)) ∧
      ∀ cfg l cfg' d acts data is_binary ret, ws_pool.system.step cfg l = some cfg' →
        cfg'.shared.trace d = cfg.shared.trace d ++ (acts ++ [.send_returns data is_binary ret]) →
        ret ≠ .LWS_OK → (cfg'.shared.client d).q = (cfg.shared.client d).q := by
  refine ⟨⟨fun cfg h => ⟨h.fifo, fun hone => ?_⟩, fun _ _ _ _ _ _ => ws_client.error_keeps_queue⟩,
    ⟨fun cfg h => ⟨h.fifo, fun hone => ?_⟩, fun _ _ _ _ _ _ => ws_client_v2.error_keeps_queue⟩,
    fun cfg h d => ?_, fun _ _ _ _ _ _ _ _ => ws_pool.error_keeps_queue⟩
  · refine h.single_run.inOrder h.fifo hone fun hsent => h.lifecycle.busy ?_
    rintro hnil
    simp [hnil, ws_client.inflight] at hsent
  · refine h.single_run.inOrder h.fifo hone fun hsent => h.lifecycle.busy ?_
    rintro hnil
    simp [hnil, ws_client_v2.inflight] at hsent
  · obtain ⟨client, hfresh, hreach⟩ := h
    obtain ⟨ns, hholds, horder, _⟩ := ws_pool.Reaches.ordered hfresh hreach d
    exact ⟨ns, hholds, horder⟩

/-- Two threads have sent a message each, and the first is written. -/
theorem queues_in_order_written :
    (∃ cfg, ws_client.Reachable cfg ∧ frames cfg.shared.trace = [([104, 105], false)] ∧
      ∃ ns, cfg.shared.c.q.Holds ns ∧ ns.map ws_msg_node_t.message = [([120], true)]) ∧
    (∃ cfg, ws_client_v2.Reachable cfg ∧ frames cfg.shared.trace = [([104, 105], false)] ∧
      ∃ ns, cfg.shared.c.q.Holds ns ∧ ns.map ws_msg_node_t.message = [([120], true)]) ∧
    ∃ cfg, ws_pool.Reachable cfg ∧ frames (cfg.shared.trace 0) = [([104, 105], false)] ∧
      ∃ ns, (cfg.shared.client 0).q.Holds ns ∧ ns.map ws_msg_node_t.message = [([120], true)] := by
  obtain ⟨⟨hv1, _⟩, ⟨hv2, _⟩, hpool, _⟩ := queues_in_order
  refine ⟨?_, ?_, ?_⟩
  · obtain ⟨cfg, hfollows, hframes, hdropped, haccepted, hstarts, hsvc⟩ : ∃ cfg,
        ws_client.system.Follows Any (ws_client.initial ws_client.default_client)
          ws_client.written_run cfg ∧
        frames cfg.shared.trace = [([104, 105], false)] ∧ dropped cfg.shared.trace = [] ∧
        accepted cfg.shared.trace = frames cfg.shared.trace ++ [([120], true)] ∧
        starts cfg.shared.trace ≤ 1 ∧ cfg.svc.length = 0 :=
      System.exists_follows_of_run (by decide)
    have hreach : ws_client.Reachable cfg :=
      ⟨_, ws_client.wsld_create_fresh _ _ _ _, hfollows.reaches⟩
    have horder := (hv1 cfg hreach).2 hstarts
    rw [List.length_eq_zero_iff.mp hsvc] at horder
    exact ⟨cfg, hreach, hframes, horder.rest hdropped haccepted⟩
  · obtain ⟨cfg, hfollows, hframes, hdropped, haccepted, hstarts, hsvc⟩ : ∃ cfg,
        ws_client_v2.system.Follows Any
          (ws_client_v2.initial (ws_client_v2.wsl_create "localhost" 9000 none true))
          ws_client_v2.written_run cfg ∧
        frames cfg.shared.trace = [([104, 105], false)] ∧ dropped cfg.shared.trace = [] ∧
        accepted cfg.shared.trace = frames cfg.shared.trace ++ [([120], true)] ∧
        starts cfg.shared.trace ≤ 1 ∧ cfg.svc.length = 0 :=
      System.exists_follows_of_run (by decide)
    have hreach : ws_client_v2.Reachable cfg :=
      ⟨_, ws_client_v2.wsl_create_fresh _ _ _ _, hfollows.reaches⟩
    have horder := (hv2 cfg hreach).2 hstarts
    rw [List.length_eq_zero_iff.mp hsvc] at horder
    exact ⟨cfg, hreach, hframes, horder.rest hdropped haccepted⟩
  · obtain ⟨cfg, hfollows, hframes, hdropped, haccepted, hsvc⟩ : ∃ cfg,
        ws_pool.system.Follows Any (ws_pool.initial ws_pool.fresh_client) ws_pool.written_run cfg ∧
        frames (cfg.shared.trace 0) = [([104, 105], false)] ∧ dropped (cfg.shared.trace 0) = [] ∧
        accepted (cfg.shared.trace 0) = frames (cfg.shared.trace 0) ++ [([120], true)] ∧
        cfg.svc.length = 0 :=
      System.exists_follows_of_run (by decide)
    have hreach : ws_pool.Reachable cfg :=
      ⟨_, fun _ => ws_pool.wsp_client_create_fresh _ _ _ _, hfollows.reaches⟩
    have horder := hpool cfg hreach 0
    rw [List.length_eq_zero_iff.mp hsvc] at horder
    exact ⟨cfg, hreach, hframes, horder.rest hdropped haccepted⟩

/-- In v1 and in the pool `rx_cb` gets exactly the messages whose last chunk
    arrived, over all connections, when no append to the reassembly buffer
    fails; and none fails when the allocation succeeds. -/
theorem reassembly_exact :
    (∀ (c : ws_client.wsld_client) ls cfg (conns : List Connection), c.Fresh → c.rx_cb = true →
        ws_client.system.Follows ws_client.granted (ws_client.initial c) ls cfg →
        ws_client.received ls = conns.flatMap Connection.chunks →
        (∀ conn ∈ conns, conn.WellFormed Chunk.last) →
          deliveries cfg.shared.trace = completed conns) ∧
    (∀ (c : ws_client.wsld_client) (chunk : Chunk),
        c.frag.len + chunk.data.bytes.length ≤ 2 ^ 62 →
          (ws_client.receive c chunk true).any (fun o => o.ret == 0) = true) ∧
    (∀ (client : ws_pool.ClientId → ws_pool.wsp_client) d ls cfg (conns : List Connection),
        (client d).Fresh → (client d).rx_cb = true →
        ws_pool.system.Follows (ws_pool.granted d) (ws_pool.initial client) ls cfg →
        ws_pool.received d ls = conns.flatMap Connection.chunks →
        (∀ conn ∈ conns, conn.WellFormed Chunk.last) →
          deliveries (cfg.shared.trace d) = completed conns) ∧
    ∀ (c : ws_pool.wsp_client) (chunk : Chunk),
        c.frag.len + chunk.data.bytes.length ≤ 2 ^ 62 →
          (ws_pool.receive c chunk true).any (fun o => o.ret == 0) = true :=
  ⟨fun _ _ _ _ hfresh hrx h hwire => ws_client.delivers_completed hfresh hrx h hwire,
    ws_client.receive_returns,
    fun _ _ _ _ _ hfresh hrx h hwire => ws_pool.delivers_completed hfresh hrx h hwire,
    ws_pool.receive_returns⟩

/-- Connection 0 receives `b` and is cut off inside the next message; connection 1
    receives `cd`. -/
def cut_off : List Connection :=
  [{ messages := [(([98], false), [text_chunk ⟨[98], one_byte⟩ true true])]
     cut := [text_chunk ⟨[97], one_byte⟩ true false] },
    { messages := [(([99, 100], false), two_chunks)], cut := [] }]

theorem cut_off_wellFormed : ∀ conn ∈ cut_off, conn.WellFormed Chunk.last := by
  intro conn hconn
  simp only [cut_off, List.mem_cons, List.not_mem_nil, or_false] at hconn
  rcases hconn with rfl | rfl <;> refine ⟨fun m hm => ?_, ?_⟩
  · obtain rfl := List.mem_singleton.mp hm
    exact @Split.whole Chunk.last (text_chunk ⟨[98], one_byte⟩ true true) rfl rfl
  · exact .inside rfl rfl (by simp [Inner])
  · obtain rfl := List.mem_singleton.mp hm
    exact @Split.pair Chunk.last (text_chunk ⟨[99], one_byte⟩ true false)
      (text_chunk ⟨[100], one_byte⟩ false true) ⟨rfl, rfl⟩ ⟨rfl, rfl⟩ rfl
  · exact .between

def ws_client.cut_off_run : List ws_client.Label :=
  connected_run ++ [.event (.callback 0 (.CLIENT_RECEIVE (text_chunk ⟨[98], one_byte⟩ true true)) {}),
    .event (.callback 0 (.CLIENT_RECEIVE (text_chunk ⟨[97], one_byte⟩ true false)) {})] ++
  reconnected_run ++ two_chunks.map fun k => .event (.callback 1 (.CLIENT_RECEIVE k) {})

def ws_pool.cut_off_run : List ws_pool.Label :=
  connected_run ++ [.event (.callback 0 0 (.CLIENT_RECEIVE (text_chunk ⟨[98], one_byte⟩ true true)) {}),
    .event (.callback 0 0 (.CLIENT_RECEIVE (text_chunk ⟨[97], one_byte⟩ true false)) {})] ++
  reconnected_run ++ two_chunks.map fun k => .event (.callback 0 1 (.CLIENT_RECEIVE k) {})

theorem reassembly_exact_cut_off :
    (∃ cfg, ws_client.system.Follows ws_client.granted (ws_client.initial ws_client.default_client)
        ws_client.cut_off_run cfg ∧
      deliveries cfg.shared.trace = [([98], false), ([99, 100], false)]) ∧
    ∃ cfg, ws_pool.system.Follows (ws_pool.granted 0) (ws_pool.initial ws_pool.fresh_client)
        ws_pool.cut_off_run cfg ∧
      deliveries (cfg.shared.trace 0) = [([98], false), ([99, 100], false)] := by
  constructor
  · obtain ⟨cfg, hfollows, _⟩ : ∃ cfg,
        ws_client.system.Follows ws_client.granted (ws_client.initial ws_client.default_client)
          ws_client.cut_off_run cfg ∧ True :=
      System.exists_follows_of_run (by decide)
    exact ⟨cfg, hfollows, reassembly_exact.1 _ _ cfg cut_off (ws_client.wsld_create_fresh _ _ _ _)
      rfl hfollows rfl cut_off_wellFormed⟩
  · obtain ⟨cfg, hfollows, _⟩ : ∃ cfg,
        ws_pool.system.Follows (ws_pool.granted 0) (ws_pool.initial ws_pool.fresh_client)
          ws_pool.cut_off_run cfg ∧ True :=
      System.exists_follows_of_run (by decide)
    exact ⟨cfg, hfollows, reassembly_exact.2.2.1 _ 0 _ cfg cut_off
      (ws_pool.wsp_client_create_fresh _ _ _ _) rfl hfollows rfl cut_off_wellFormed⟩

/-- In v1 and in the pool no queued message of a connected client waits without
    a wakeup, in every run whose steps pass the wakeups on. In the middle of a
    callback it may be that callback which is still to test `q_head` or to
    request the WRITEABLE. -/
theorem wakeups_passed {c : ws_client.wsld_client} {client : ws_pool.ClientId → ws_pool.wsp_client}
    (hc : c.Fresh) (hfresh : ∀ d, (client d).Fresh) :
    (∀ cfg, ws_client.system.Reaches ws_client.passes (ws_client.initial c) cfg →
      cfg.shared.c.stopping = false → cfg.shared.c.state = .STATE_CONNECTED →
      cfg.shared.c.q.list.head ≠ none → (∀ t, ∀ f ∈ cfg.app t, f.inserted = false) →
        ((∃ w, cfg.shared.c.wsi = some w ∧ cfg.shared.lws.phase w = some .established ∧
            cfg.shared.lws.Writable w) ∨ cfg.shared.lws.cancelled = true) ∨
          (cfg.svc ≠ [] ∧ ∃ f ∈ cfg.svc, f.wakes = true)) ∧
    ∀ cfg d, ws_pool.system.Reaches ws_pool.passes (ws_pool.initial client) cfg →
      (cfg.shared.client d).stopping = false → (cfg.shared.client d).state = .STATE_CONNECTED →
      (cfg.shared.client d).q.list.head ≠ none → (∀ t, ∀ f ∈ cfg.app t, f.inserted d = false) →
        ((∃ w, (cfg.shared.client d).wsi = some w ∧ cfg.shared.lws.phase w = some .established ∧
            cfg.shared.lws.Writable w) ∨ cfg.shared.lws.cancelled = true) ∨
          (cfg.svc ≠ [] ∧ ∃ f ∈ cfg.svc, f.wakes d = true) :=
  ⟨fun _ h => ws_client.wakeup_passed hc h, fun _ _ h => ws_pool.wakeup_passed hfresh h⟩

theorem wakeups_passed_sent :
    (∃ cfg, ws_client.Reachable cfg ∧ cfg.shared.c.q.list.head ≠ none ∧
      ((∃ w, cfg.shared.c.wsi = some w ∧ cfg.shared.lws.phase w = some .established ∧
        cfg.shared.lws.Writable w) ∨ cfg.shared.lws.cancelled = true)) ∧
    ∃ cfg, ws_pool.Reachable cfg ∧ (cfg.shared.client 0).q.list.head ≠ none ∧
      ((∃ w, (cfg.shared.client 0).wsi = some w ∧ cfg.shared.lws.phase w = some .established ∧
        cfg.shared.lws.Writable w) ∨ cfg.shared.lws.cancelled = true) := by
  have hc := ws_client.wsld_create_fresh "localhost" 9000 none true
  have hfresh : ∀ c, (ws_pool.fresh_client c).Fresh := fun _ => ws_pool.wsp_client_create_fresh _ _ _ _
  constructor
  · obtain ⟨cfg, hfollows, hstop, hstate, hdata, hdone, hsvc⟩ : ∃ cfg,
        ws_client.system.Follows (fun cfg l => ws_client.sure cfg l = true)
          (ws_client.initial (ws_client.wsld_create "localhost" 9000 none true)) ws_client.sent_run cfg ∧
        cfg.shared.c.stopping = false ∧ cfg.shared.c.state = .STATE_CONNECTED ∧
        cfg.shared.c.q.list.head ≠ none ∧
        ((List.range 2).all fun t => (cfg.app t).isEmpty) = true ∧ cfg.svc.length = 0 :=
      System.exists_follows_of_run (by decide)
    have hidle : ∀ t, cfg.app t = [] := hfollows.idle (fun _ => rfl) (by decide) hdone
    refine ⟨cfg, ⟨_, hc, hfollows.reaches.mono fun _ _ _ => trivial⟩, hdata, ?_⟩
    rcases (wakeups_passed hc hfresh).1 cfg (hfollows.reaches.mono fun _ _ => ws_client.passes_of_sure)
      hstop hstate hdata (fun t f hf => by simp [hidle t] at hf) with hwake | ⟨hne, _⟩
    · exact hwake
    · exact absurd (List.length_eq_zero_iff.mp hsvc) hne
  · obtain ⟨cfg, hfollows, hstop, hstate, hdata, hdone, hsvc⟩ : ∃ cfg,
        ws_pool.system.Follows (fun cfg l => ws_pool.sure cfg l = true)
          (ws_pool.initial ws_pool.fresh_client) ws_pool.sent_run cfg ∧
        (cfg.shared.client 0).stopping = false ∧ (cfg.shared.client 0).state = .STATE_CONNECTED ∧
        (cfg.shared.client 0).q.list.head ≠ none ∧
        ((List.range 3).all fun t => (cfg.app t).isEmpty) = true ∧ cfg.svc.length = 0 :=
      System.exists_follows_of_run (by decide)
    have hidle : ∀ t, cfg.app t = [] := hfollows.idle (fun _ => rfl) (by decide) hdone
    refine ⟨cfg, ⟨_, hfresh, hfollows.reaches.mono fun _ _ _ => trivial⟩, hdata, ?_⟩
    rcases (wakeups_passed hc hfresh).2 cfg 0 (hfollows.reaches.mono fun _ _ => ws_pool.passes_of_sure)
      hstop hstate hdata (fun t f hf => by simp [hidle t] at hf) with hwake | ⟨hne, _⟩
    · exact hwake
    · exact absurd (List.length_eq_zero_iff.mp hsvc) hne

/-- A message that was queued before the handshake completed waits: every thread
    is idle, and neither a WRITEABLE nor an EVENT_WAIT_CANCELLED is outstanding. -/
theorem early_message_stalls :
    (∃ cfg, ws_client.Reachable cfg ∧ cfg.shared.c.stopping = false ∧
      cfg.shared.c.state = .STATE_CONNECTED ∧ cfg.shared.c.q.list.head ≠ none ∧
      (∀ t, cfg.app t = []) ∧ cfg.svc = [] ∧ cfg.shared.c.wsi = some 0 ∧
      ¬ cfg.shared.lws.Writable 0 ∧ cfg.shared.lws.cancelled = false) ∧
    ∃ cfg, ws_pool.Reachable cfg ∧ (cfg.shared.client 0).stopping = false ∧
      (cfg.shared.client 0).state = .STATE_CONNECTED ∧ (cfg.shared.client 0).q.list.head ≠ none ∧
      (∀ t, cfg.app t = []) ∧ cfg.svc = [] ∧ (cfg.shared.client 0).wsi = some 0 ∧
      ¬ cfg.shared.lws.Writable 0 ∧ cfg.shared.lws.cancelled = false := by
  constructor
  · obtain ⟨cfg, hfollows, hstop, hstate, hdata, hdone, hsvc, hrest⟩ : ∃ cfg,
        ws_client.system.Follows Any
          (ws_client.initial (ws_client.wsld_create "localhost" 9000 none true))
          ws_client.stalled_run cfg ∧
        cfg.shared.c.stopping = false ∧ cfg.shared.c.state = .STATE_CONNECTED ∧
        cfg.shared.c.q.list.head ≠ none ∧
        ((List.range 2).all fun t => (cfg.app t).isEmpty) = true ∧ cfg.svc.length = 0 ∧
        cfg.shared.c.wsi = some 0 ∧ ¬ cfg.shared.lws.Writable 0 ∧
        cfg.shared.lws.cancelled = false :=
      System.exists_follows_of_run (by decide)
    exact ⟨cfg, ⟨_, ws_client.wsld_create_fresh _ _ _ _, hfollows.reaches⟩, hstop, hstate, hdata,
      hfollows.idle (fun _ => rfl) (by decide) hdone, List.length_eq_zero_iff.mp hsvc, hrest⟩
  · obtain ⟨cfg, hfollows, hstop, hstate, hdata, hdone, hsvc, hrest⟩ : ∃ cfg,
        ws_pool.system.Follows Any (ws_pool.initial ws_pool.fresh_client) ws_pool.stalled_run cfg ∧
        (cfg.shared.client 0).stopping = false ∧ (cfg.shared.client 0).state = .STATE_CONNECTED ∧
        (cfg.shared.client 0).q.list.head ≠ none ∧
        ((List.range 3).all fun t => (cfg.app t).isEmpty) = true ∧ cfg.svc.length = 0 ∧
        (cfg.shared.client 0).wsi = some 0 ∧ ¬ cfg.shared.lws.Writable 0 ∧
        cfg.shared.lws.cancelled = false :=
      System.exists_follows_of_run (by decide)
    exact ⟨cfg, ⟨_, fun _ => ws_pool.wsp_client_create_fresh _ _ _ _, hfollows.reaches⟩, hstop,
      hstate, hdata, hfollows.idle (fun _ => rfl) (by decide) hdone,
      List.length_eq_zero_iff.mp hsvc, hrest⟩

/-- Between two callbacks a client that is not stopping, and whose hook has never
    refused a reconnect, has exactly one of a live connection, an armed timer and,
    in the pool, a place in `pending`, as its state says. -/
theorem one_place_each {c : ws_client_v2.wsl_client} {client : ws_pool.ClientId → ws_pool.wsp_client}
    (hc : c.Fresh) (hfresh : ∀ d, (client d).Fresh) :
    (∀ cfg, ws_client_v2.system.Reaches (fun cfg l => ws_client_v2.refuses cfg l = false)
        (ws_client_v2.initial c) cfg →
      cfg.shared.thread = .running → cfg.svc = [] → cfg.shared.c.stopping = false →
        ((∃ w, cfg.shared.c.wsi = some w ∧ cfg.shared.lws.Live w ∧
            ∀ v, cfg.shared.lws.Live v → v = w) ∧ cfg.shared.c.sul = none ∧
          (cfg.shared.c.state = .STATE_CONNECTING ∨ cfg.shared.c.state = .STATE_CONNECTED)) ∨
        ((∀ v, ¬ cfg.shared.lws.Live v) ∧ cfg.shared.c.sul.isSome = true ∧
          cfg.shared.c.state = .STATE_RECONNECT_WAIT)) ∧
    ∀ d ls cfg, ws_pool.system.Follows (fun cfg l => ws_pool.refuses d cfg l = false)
        (ws_pool.initial client) ls cfg → (ws_pool.added ls).Nodup →
      cfg.shared.Serving → cfg.svc = [] → (cfg.shared.client d).pool = true →
      (cfg.shared.client d).stopping = false →
        (d ∈ cfg.shared.pool.pending ∧ (∀ v, cfg.shared.lws.owns d v = false) ∧
          (cfg.shared.client d).sul = none ∧ (cfg.shared.client d).state = .STATE_IDLE) ∨
        (d ∉ cfg.shared.pool.pending ∧ (∃ w, (cfg.shared.client d).wsi = some w ∧
            cfg.shared.lws.owns d w = true ∧ ∀ v, cfg.shared.lws.owns d v = true → v = w) ∧
          (cfg.shared.client d).sul = none ∧
          ((cfg.shared.client d).state = .STATE_CONNECTING ∨
            (cfg.shared.client d).state = .STATE_CONNECTED)) ∨
        (d ∉ cfg.shared.pool.pending ∧ (∀ v, cfg.shared.lws.owns d v = false) ∧
          (cfg.shared.client d).sul.isSome = true ∧
          (cfg.shared.client d).state = .STATE_RECONNECT_WAIT) := by
  refine ⟨fun _ h => ws_client_v2.one_place hc h, fun d ls cfg h hdistinct => ?_⟩
  exact ws_pool.one_place (fun _ _ hok => hok.2 d) (fun _ _ hok => hok.1) hfresh
    (ws_pool.Follows.adds_once hfresh h hdistinct).reaches

theorem one_place_each_lost :
    (∃ cfg, ws_client_v2.Reachable cfg ∧ cfg.shared.c.asks = true ∧
      (∀ v, ¬ cfg.shared.lws.Live v) ∧ cfg.shared.c.sul.isSome = true) ∧
    ∃ cfg, ws_pool.Reachable cfg ∧ (cfg.shared.client 0).asks = true ∧
      0 ∉ cfg.shared.pool.pending ∧ (∀ v, cfg.shared.lws.owns 0 v = false) ∧
      (cfg.shared.client 0).sul.isSome = true := by
  obtain ⟨hv2, hpool⟩ := one_place_each ws_client_v2.asking_client_fresh ws_pool.asking_client_fresh
  constructor
  · obtain ⟨cfg, hfollows, hrun, hsvc, hstop, hasks, hstate⟩ : ∃ cfg,
        ws_client_v2.system.Follows (fun cfg l => ws_client_v2.refuses cfg l = false)
          (ws_client_v2.initial ws_client_v2.asking_client) ws_client_v2.lost_run cfg ∧
        cfg.shared.thread = .running ∧ cfg.svc.length = 0 ∧ cfg.shared.c.stopping = false ∧
        cfg.shared.c.asks = true ∧ cfg.shared.c.state = .STATE_RECONNECT_WAIT :=
      System.exists_follows_of_run (by decide)
    refine ⟨cfg, ⟨_, ws_client_v2.asking_client_fresh, hfollows.reaches.mono fun _ _ _ => trivial⟩,
      hasks, ?_⟩
    rcases hv2 cfg hfollows.reaches hrun (List.length_eq_zero_iff.mp hsvc) hstop with
      ⟨_, _, hup⟩ | ⟨hnone, harmed, _⟩
    · rw [hstate] at hup
      rcases hup with hup | hup <;> cases hup
    · exact ⟨hnone, harmed⟩
  · obtain ⟨cfg, hfollows, hserving, hsvc, hjoined, hstop, hasks, hstate⟩ : ∃ cfg,
        ws_pool.system.Follows (fun cfg l => ws_pool.refuses 0 cfg l = false)
          (ws_pool.initial ws_pool.asking_client) ws_pool.lost_run cfg ∧
        (cfg.shared.freed = false ∧ cfg.shared.thread ≠ .destroying ∧
          cfg.shared.thread ≠ .exited) ∧ cfg.svc.length = 0 ∧
        (cfg.shared.client 0).pool = true ∧ (cfg.shared.client 0).stopping = false ∧
        (cfg.shared.client 0).asks = true ∧
        (cfg.shared.client 0).state = .STATE_RECONNECT_WAIT :=
      System.exists_follows_of_run (by decide)
    refine ⟨cfg, ⟨_, ws_pool.asking_client_fresh, hfollows.reaches.mono fun _ _ _ => trivial⟩,
      hasks, ?_⟩
    rcases hpool 0 _ cfg hfollows (by decide) hserving (List.length_eq_zero_iff.mp hsvc) hjoined
      hstop with ⟨_, _, _, hidle⟩ | ⟨_, _, _, hup⟩ | ⟨hnew, hnone, harmed, _⟩
    · rw [hstate] at hidle
      cases hidle
    · rw [hstate] at hup
      rcases hup with hup | hup <;> cases hup
    · exact ⟨hnew, hnone, harmed⟩

/-- After a negative answer of `on_reconnect_decision` a client is not connected,
    its hook is not asked and its timer is not armed, in v2 until it is started
    again, in every run whose negative answers leave nothing behind that retries. -/
theorem refusal_final {c : ws_client_v2.wsl_client} {client : ws_pool.ClientId → ws_pool.wsp_client}
    (hc : c.Fresh) (hfresh : ∀ d, (client d).Fresh) :
    (∀ cfg l mid cfg', ws_client_v2.system.Reaches ws_client_v2.Heeds (ws_client_v2.initial c) cfg →
      ws_client_v2.Heeds cfg l → ws_client_v2.system.step cfg l = some mid →
      ws_client_v2.refuses cfg l = true →
      ws_client_v2.system.Reaches ws_client_v2.Heeds mid cfg' →
      starts cfg'.shared.trace = starts mid.shared.trace →
        retries cfg'.shared.trace = retries mid.shared.trace ∧ cfg'.shared.c.sul = none) ∧
    ∀ d cfg l mid cfg', ws_pool.system.Reaches (ws_pool.Heeds d) (ws_pool.initial client) cfg →
      ws_pool.Heeds d cfg l → ws_pool.system.step cfg l = some mid →
      ws_pool.refuses d cfg l = true → ws_pool.system.Reaches (ws_pool.Heeds d) mid cfg' →
        retries (cfg'.shared.trace d) = retries (mid.shared.trace d) ∧
          (cfg'.shared.client d).sul = none :=
  ⟨fun _ _ _ _ h hok hstep hrefuses hlater =>
      ws_client_v2.refused_final hc h hok hstep hrefuses hlater,
    fun _ _ _ _ _ h hok hstep hrefuses hlater =>
      ws_pool.refused_final hfresh h hok hstep hrefuses hlater⟩

theorem refusal_final_lost :
    (∃ cfg, ws_client_v2.Reachable cfg ∧ cfg.shared.thread = .running ∧
      (retries cfg.shared.trace).length = 2 ∧ cfg.shared.c.sul = none) ∧
    ∃ cfg, ws_pool.Reachable cfg ∧ cfg.shared.thread = .running ∧
      (retries (cfg.shared.trace 0)).length = 2 ∧ (cfg.shared.client 0).sul = none := by
  obtain ⟨hv2, hpool⟩ := refusal_final ws_client_v2.asking_client_fresh ws_pool.asking_client_fresh
  constructor
  · obtain ⟨cfg, hfollows, hok, hrefuses, hmid⟩ : ∃ cfg,
        ws_client_v2.system.Follows ws_client_v2.Heeds
          (ws_client_v2.initial ws_client_v2.asking_client) ws_client_v2.lost_question cfg ∧
        ws_client_v2.Heeds cfg (.svc { ret := -1 }) ∧
        ws_client_v2.refuses cfg (.svc { ret := -1 }) = true ∧
        (ws_client_v2.system.step cfg (.svc { ret := -1 })).any (fun mid =>
          decide ((retries mid.shared.trace).length = 2) &&
          (ws_client_v2.system.run ws_client_v2.Heeds mid ws_client_v2.silent_run).any fun last =>
            decide (last.shared.thread = .running ∧
              starts last.shared.trace = starts mid.shared.trace)) = true :=
      System.exists_follows_of_run (by decide)
    obtain ⟨mid, hstep, hmid⟩ := (Option.any_eq_true _ _).mp hmid
    rw [Bool.and_eq_true, decide_eq_true_eq] at hmid
    obtain ⟨cfg', hlater, hrun, hstarts⟩ := System.exists_follows_of_run hmid.2
    obtain ⟨hretries, hsul⟩ :=
      hv2 _ _ _ _ hfollows.reaches hok hstep hrefuses hlater.reaches hstarts
    have hreach := (hfollows.reaches.step hok hstep).trans hlater.reaches
    exact ⟨cfg', ⟨_, ws_client_v2.asking_client_fresh, hreach.mono fun _ _ _ => trivial⟩, hrun,
      by rw [hretries, hmid.1], hsul⟩
  · obtain ⟨cfg, hfollows, hok, hrefuses, hmid⟩ : ∃ cfg,
        ws_pool.system.Follows (ws_pool.Heeds 0) (ws_pool.initial ws_pool.asking_client)
          ws_pool.lost_question cfg ∧
        ws_pool.Heeds 0 cfg (.svc { ret := -1 }) ∧
        ws_pool.refuses 0 cfg (.svc { ret := -1 }) = true ∧
        (ws_pool.system.step cfg (.svc { ret := -1 })).any (fun mid =>
          decide ((retries (mid.shared.trace 0)).length = 2) &&
          (ws_pool.system.run (ws_pool.Heeds 0) mid ws_pool.silent_run).any fun last =>
            decide (last.shared.thread = .running)) = true :=
      System.exists_follows_of_run (by decide)
    obtain ⟨mid, hstep, hmid⟩ := (Option.any_eq_true _ _).mp hmid
    rw [Bool.and_eq_true, decide_eq_true_eq] at hmid
    obtain ⟨cfg', hlater, hrun⟩ := System.exists_follows_of_run hmid.2
    obtain ⟨hretries, hsul⟩ := hpool 0 _ _ _ _ hfollows.reaches hok hstep hrefuses hlater.reaches
    have hreach := (hfollows.reaches.step hok hstep).trans hlater.reaches
    exact ⟨cfg', ⟨_, ws_pool.asking_client_fresh, hreach.mono fun _ _ _ => trivial⟩, hrun,
      by rw [hretries, hmid.1], hsul⟩

/-- A client that is refused inside a connect call is asked again when the call
    returns NULL. The second answer arms its timer, and the client is connected. -/
theorem refusal_overruled :
    (∃ cfg mid cfg', ws_client_v2.system.Follows Any
        (ws_client_v2.initial ws_client_v2.asking_client) ws_client_v2.nested_question cfg ∧
      ws_client_v2.refuses cfg (.svc { ret := -1 }) = true ∧
      ws_client_v2.system.step cfg (.svc { ret := -1 }) = some mid ∧
      ws_client_v2.system.Follows Any mid ws_client_v2.overruled_run cfg' ∧
      starts cfg'.shared.trace = starts mid.shared.trace ∧
      connects mid.shared.trace = 1 ∧ connects cfg'.shared.trace = 2) ∧
    ∃ cfg mid cfg', ws_pool.system.Follows Any (ws_pool.initial ws_pool.asking_client)
        ws_pool.nested_question cfg ∧
      ws_pool.refuses 0 cfg (.svc { ret := -1 }) = true ∧
      ws_pool.system.step cfg (.svc { ret := -1 }) = some mid ∧
      ws_pool.system.Follows Any mid ws_pool.overruled_run cfg' ∧
      connects (mid.shared.trace 0) = 1 ∧ connects (cfg'.shared.trace 0) = 2 := by
  constructor
  · obtain ⟨cfg, hfollows, hrefuses, hmid⟩ : ∃ cfg, ws_client_v2.system.Follows Any
          (ws_client_v2.initial ws_client_v2.asking_client) ws_client_v2.nested_question cfg ∧
        ws_client_v2.refuses cfg (.svc { ret := -1 }) = true ∧
        (ws_client_v2.system.step cfg (.svc { ret := -1 })).any (fun mid =>
          (ws_client_v2.system.run Any mid ws_client_v2.overruled_run).any fun last =>
            decide (starts last.shared.trace = starts mid.shared.trace ∧
              connects mid.shared.trace = 1 ∧ connects last.shared.trace = 2)) = true :=
      System.exists_follows_of_run (by decide)
    obtain ⟨mid, hstep, hmid⟩ := (Option.any_eq_true _ _).mp hmid
    obtain ⟨cfg', hlater, hconnects⟩ := System.exists_follows_of_run hmid
    exact ⟨cfg, mid, cfg', hfollows, hrefuses, hstep, hlater, hconnects⟩
  · obtain ⟨cfg, hfollows, hrefuses, hmid⟩ : ∃ cfg, ws_pool.system.Follows Any
          (ws_pool.initial ws_pool.asking_client) ws_pool.nested_question cfg ∧
        ws_pool.refuses 0 cfg (.svc { ret := -1 }) = true ∧
        (ws_pool.system.step cfg (.svc { ret := -1 })).any (fun mid =>
          (ws_pool.system.run Any mid ws_pool.overruled_run).any fun last =>
            decide (connects (mid.shared.trace 0) = 1 ∧ connects (last.shared.trace 0) = 2)) =
          true :=
      System.exists_follows_of_run (by decide)
    obtain ⟨mid, hstep, hmid⟩ := (Option.any_eq_true _ _).mp hmid
    obtain ⟨cfg', hlater, hconnects⟩ := System.exists_follows_of_run hmid
    exact ⟨cfg, mid, cfg', hfollows, hrefuses, hstep, hlater, hconnects⟩

/-- Every buffer handed to `lws_write` has its header room, and a data frame or
    an echo is a whole accepted or completed message in an object sized for it.
    In v2 it takes a run that writes no PING; a PING of v2 has no header room. -/
theorem writes_have_room {c : ws_client_v2.wsl_client} (hc : c.Fresh) :
    (∀ cfg, ws_client.Reachable cfg → ∀ x ∈ writes cfg.shared.trace,
      HasRoom x.1 x.2.1 ∧ Carries cfg.shared.trace x.1 x.2.1 x.2.2) ∧
    ((∀ cfg, ws_client_v2.system.Reaches (fun cfg l => ws_client_v2.writes_ping cfg l = false)
          (ws_client_v2.initial c) cfg →
        ∀ x ∈ writes cfg.shared.trace,
          HasRoom x.1 x.2.1 ∧ Carries cfg.shared.trace x.1 x.2.1 x.2.2) ∧
      ∀ cfg l cfg', ws_client_v2.system.step cfg l = some cfg' →
        ws_client_v2.writes_ping cfg l = true →
        ∃ x ∈ writes cfg'.shared.trace, ¬ HasRoom x.1 x.2.1) ∧
    (∀ cfg d, ws_pool.Reachable cfg → ∀ x ∈ writes (cfg.shared.trace d),
      HasRoom x.1 x.2.1 ∧ Carries (cfg.shared.trace d) x.1 x.2.1 x.2.2) ∧
    ∀ srv ls cfg, ws_server.system.Follows Any (ws_server.initial srv) ls cfg →
      ∀ w buf len wp, (w, buf, len, wp) ∈ ws_server.writes cfg.shared.trace →
        HasRoom buf len ∧ buf.object.bytes.length = LWS_PRE + len ∧
          (w, buf.read len, decide (wp = .LWS_WRITE_BINARY)) ∈
            ws_server.system.observe ws_server.completes (ws_server.initial srv) ls := by
  refine ⟨fun cfg h => h.headroom, ⟨fun cfg h x hx => ?_, fun cfg l cfg' hstep hping => ?_⟩,
    fun cfg d h => ?_, fun srv ls cfg h => (ws_server.Follows.headroom h).written⟩
  · have hreach : ws_client_v2.Reachable cfg := ⟨c, hc, h.mono fun _ _ _ => trivial⟩
    have hwp := ws_client_v2.no_ping_written h x hx
    exact ⟨(hreach.data_room x hx hwp).1, hreach.data_carries x hx hwp⟩
  · obtain ⟨hmem, hroom⟩ := ws_client_v2.ping_write hstep hping
    exact ⟨_, hmem, hroom⟩
  · obtain ⟨client, hfresh, hreach⟩ := h
    exact ws_pool.Reaches.headroom hfresh hreach d

theorem writes_have_room_sent : ∃ cfg, ws_client_v2.Reachable cfg ∧
    (writes cfg.shared.trace).length = 1 ∧ ∀ x ∈ writes cfg.shared.trace, HasRoom x.1 x.2.1 := by
  obtain ⟨cfg, hfollows, hwrites⟩ : ∃ cfg,
      ws_client_v2.system.Follows (fun cfg l => ws_client_v2.writes_ping cfg l = false)
        (ws_client_v2.initial (ws_client_v2.wsl_create "localhost" 9000 none true))
        (ws_client_v2.sent_run ++
          [.event (.callback 0 .CLIENT_WRITEABLE {}), .svc {}]) cfg ∧
      (writes cfg.shared.trace).length = 1 :=
    System.exists_follows_of_run (by decide)
  have hfresh := ws_client_v2.wsl_create_fresh "localhost" 9000 none true
  refine ⟨cfg, ⟨_, hfresh, hfollows.reaches.mono fun _ _ _ => trivial⟩, hwrites, fun x hx => ?_⟩
  exact ((writes_have_room hfresh).2.1.1 cfg hfollows.reaches x hx).1

/-- v2 writes its PING from the string literal `""`. -/
theorem ping_without_room : ∃ cfg, ws_client_v2.Reachable cfg ∧
    ∃ x ∈ writes cfg.shared.trace, ¬ HasRoom x.1 x.2.1 := by
  obtain ⟨cfg, hfollows, hwrites⟩ : ∃ cfg,
      ws_client_v2.system.Follows Any
        (ws_client_v2.initial (ws_client_v2.wsl_create "localhost" 9000 none true))
        (ws_client_v2.connected_run ++ [.event (.callback 0 .TIMER {}),
          .event (.callback 0 .CLIENT_WRITEABLE {})]) cfg ∧
      writes cfg.shared.trace = [(ws_client_v2.ping_buf, 0, .LWS_WRITE_PING)] :=
    System.exists_follows_of_run (by decide)
  refine ⟨cfg, ⟨_, ws_client_v2.wsl_create_fresh _ _ _ _, hfollows.reaches⟩,
    (ws_client_v2.ping_buf, 0, .LWS_WRITE_PING), ?_, by decide⟩
  rw [hwrites]
  exact List.mem_singleton.mpr rfl

/-- An open connection has its timer armed until a callback of it returns nonzero,
    and a TIMER that no hook claims returns -1 exactly when a PING has been written
    on this connection and no PONG received on it since. In the pool it takes a run
    in which no two adds of the client overlap. -/
theorem heartbeats_sound {c : ws_client.wsld_client} (hc : c.Fresh)
    {client : ws_pool.ClientId → ws_pool.wsp_client} (hfresh : ∀ d, (client d).Fresh) :
    (c.ping_interval_ms > 0 → c.pong_timeout_ms > 0 →
      ∀ ls cfg, ws_client.system.Follows Any (ws_client.initial c) ls cfg →
        ∀ w, cfg.shared.lws.phase w = some .established →
          (¬ cfg.shared.lws.Failed w → cfg.shared.lws.Armed w) ∧
          ((ws_client.timer cfg.shared.c w).ret = -1 ↔
            unanswered (ws_client.system.observe (ws_client.pulses w) (ws_client.initial c) ls) =
              true)) ∧
    ∀ d, (client d).ping_interval_ms > 0 → (client d).pong_timeout_ms > 0 →
      ∀ ls cfg, ws_pool.system.Follows (ws_pool.AddedOnce d) (ws_pool.initial client) ls cfg →
        ∀ w, cfg.shared.lws.link w = some (d, .established) →
          (¬ cfg.shared.lws.Failed w → cfg.shared.lws.Armed w) ∧
          ∀ tick, ¬ (hooked (cfg.shared.client d).hooks (·.on_heartbeat_tick) = true ∧ tick ≠ 0) →
            ((ws_pool.timer (cfg.shared.client d) w tick).ret = -1 ↔
              unanswered (ws_pool.system.observe (ws_pool.pulses d w) (ws_pool.initial client) ls) =
                true) := by
  constructor
  · intro _ _ ls cfg h w hopen
    have halive := ws_client.Follows.alive hc h w hopen
    exact ⟨halive.armed.resolve_right, by rw [ws_client.timer_ret, halive.pending_eq]⟩
  · intro d hinterval _ ls cfg h w hopen
    have halive := ws_pool.Follows.alive hfresh hinterval h w hopen
    exact ⟨halive.armed.resolve_right, fun tick htick => by
      rw [ws_pool.timer_ret htick, halive.pending_eq]⟩

/-- A second connection starts anew: the PING that the first one left unanswered
    does not count, its own does. -/
theorem heartbeats_sound_unanswered :
    (∃ cfg, ws_client.system.Follows Any (ws_client.initial ws_client.default_client)
        ws_client.unanswered_run cfg ∧
      cfg.shared.lws.Armed 1 ∧ (ws_client.timer cfg.shared.c 1).ret = -1) ∧
    ∃ cfg, ws_pool.system.Follows (ws_pool.AddedOnce 0) (ws_pool.initial ws_pool.fresh_client)
        ws_pool.unanswered_run cfg ∧
      cfg.shared.lws.Armed 1 ∧ (ws_pool.timer (cfg.shared.client 0) 1 0).ret = -1 := by
  have hfresh : ∀ d, (ws_pool.fresh_client d).Fresh := fun _ => ws_pool.wsp_client_create_fresh _ _ _ _
  obtain ⟨hv1, hpool⟩ := heartbeats_sound (ws_client.wsld_create_fresh "localhost" 9000 none true) hfresh
  constructor
  · obtain ⟨cfg, hfollows, hopen, halive⟩ : ∃ cfg,
        ws_client.system.Follows Any (ws_client.initial ws_client.default_client)
          ws_client.unanswered_run cfg ∧
        cfg.shared.lws.phase 1 = some .established ∧ ¬ cfg.shared.lws.Failed 1 :=
      System.exists_follows_of_run (by decide)
    obtain ⟨harmed, hret⟩ := hv1 (by decide) (by decide) _ cfg hfollows 1 hopen
    exact ⟨cfg, hfollows, harmed halive, hret.mpr (by decide)⟩
  · obtain ⟨cfg, hfollows, hopen, halive, hhook⟩ : ∃ cfg,
        ws_pool.system.Follows (ws_pool.AddedOnce 0) (ws_pool.initial ws_pool.fresh_client)
          ws_pool.unanswered_run cfg ∧
        cfg.shared.lws.link 1 = some (0, .established) ∧ ¬ cfg.shared.lws.Failed 1 ∧
        hooked (cfg.shared.client 0).hooks (·.on_heartbeat_tick) = false :=
      System.exists_follows_of_run (by decide)
    obtain ⟨harmed, hret⟩ := hpool 0 (by decide) (by decide) _ cfg hfollows 1 hopen
    exact ⟨cfg, hfollows, harmed halive, (hret 0 (by simp [hhook])).mpr (by decide)⟩

/-- A client of the pool that is added twice has two connections and one
    `ping_pending`: TIMER fails the one that no PING was written on. -/
theorem ping_pending_shared : ∃ cfg next : ws_pool.Config,
    ws_pool.system.Follows Any (ws_pool.initial ws_pool.fresh_client) ws_pool.added_twice_run cfg ∧
      (ws_pool.fresh_client 0).ping_interval_ms > 0 ∧ (ws_pool.fresh_client 0).pong_timeout_ms > 0 ∧
      hooked (cfg.shared.client 0).hooks (·.on_heartbeat_tick) = false ∧
      cfg.shared.lws.link 1 = some (0, .established) ∧
      ws_pool.system.step cfg (.event (.callback 0 1 .TIMER {})) = some next ∧
      (ws_pool.timer (cfg.shared.client 0) 1 0).ret = -1 ∧ next.shared.lws.Failed 1 ∧
      unanswered (ws_pool.system.observe (ws_pool.pulses 0 1) (ws_pool.initial ws_pool.fresh_client)
        ws_pool.added_twice_run) = false := by
  obtain ⟨cfg, hfollows, ⟨hhook, hopen⟩, hret, hnext⟩ : ∃ cfg,
      ws_pool.system.Follows Any (ws_pool.initial ws_pool.fresh_client) ws_pool.added_twice_run cfg ∧
        (hooked (cfg.shared.client 0).hooks (·.on_heartbeat_tick) = false ∧
          cfg.shared.lws.link 1 = some (0, .established)) ∧
        (ws_pool.timer (cfg.shared.client 0) 1 0).ret = -1 ∧
        (ws_pool.system.step cfg (.event (.callback 0 1 .TIMER {}))).any
          (fun next => decide (next.shared.lws.Failed 1)) = true :=
    System.exists_follows_of_run (by decide)
  obtain ⟨next, hstep, hfailed⟩ := (Option.any_eq_true _ _).mp hnext
  exact ⟨cfg, next, hfollows, by decide, by decide, hhook, hopen, hstep, hret,
    of_decide_eq_true hfailed, by decide⟩

end lws_client
