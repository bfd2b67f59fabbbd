import LwsClientDemo.LinkedQueue
import LwsClientDemo.Lws

open linked_queue

namespace lws_client

/-- Which hooks of a `wsl_event_hooks_t` are set. -/
structure wsl_event_hooks_t where
  on_connected : Bool
  on_disconnected : Bool
  on_error : Bool
  on_message : Bool
  on_heartbeat_tick : Bool
  on_reconnect_decision : Bool
  on_handshake_header : Bool

/-- `c->hooks && c->hooks->hook`. -/
def hooked (hooks : Option wsl_event_hooks_t) (hook : wsl_event_hooks_t → Bool) : Bool :=
  hooks.any hook

/-- `sizeof(ws_msg_node_t)` without the flexible array, LP64. -/
def SIZEOF_MSG_NODE : Nat := 24

/-- A message node. `buf` is the flexible array member of `ws_msg_node_t`, or
    the object of its own that a `msg_node_t` of the first client points to. The
    `next` pointer is kept by the queue cell. -/
structure ws_msg_node_t where
  len : Nat
  is_binary : Bool
  buf : Object
  size_eq : buf.bytes.length = LWS_PRE + len
  writable_eq : buf.writable = true

/-- The payload bytes `buf + LWS_PRE .. buf + LWS_PRE + len`. -/
def ws_msg_node_t.payload (n : ws_msg_node_t) : List UInt8 := (Ptr.mk n.buf LWS_PRE).read n.len

/-- What the node stands for: its bytes and its text/binary type. -/
def ws_msg_node_t.message (n : ws_msg_node_t) : List UInt8 × Bool := (n.payload, n.is_binary)

private theorem Data.size_no_wrap (data : Data) {base : Nat} (hbase : base ≤ 2 ^ 32) :
    size_add base data.bytes.length = base + data.bytes.length := by
  have hlen := data.length_le
  apply size_add_of_lt
  simp only [PTRDIFF_MAX] at hlen
  omega

/-- `ws_msg_new(data, len, is_binary, LWS_PRE)`: one `malloc` of
    `sizeof(*n) + prefix + len`, whose tail is the flexible array. -/
def ws_msg_new (data : Data) (is_binary ok : Bool) : Option ws_msg_node_t :=
  match h : malloc ok (size_add (size_add SIZEOF_MSG_NODE LWS_PRE) data.bytes.length) with
  | none => none
  | some n =>
    have hn := malloc_eq_some h
    some
      { len := data.bytes.length
        is_binary
        buf := (Object.mk (n.bytes.drop SIZEOF_MSG_NODE) n.writable).memcpy LWS_PRE data.bytes
        size_eq := by
          have hsize : n.bytes.length = SIZEOF_MSG_NODE + LWS_PRE + data.bytes.length := by
            rw [hn.2.1]
            exact data.size_no_wrap (by decide)
          have hlen : (n.bytes.drop SIZEOF_MSG_NODE).length = LWS_PRE + data.bytes.length := by
            rw [List.length_drop, hsize]
            omega
          rw [Object.memcpy_length (Nat.le_of_eq hlen.symm)]
          exact hlen
        writable_eq := hn.2.2 }

/-- The two allocations of the first client's `enqueue`: `malloc(sizeof(*node))`
    and `malloc(LWS_PRE + len)`. -/
def msg_node_new (data : Data) (is_binary ok : Bool) : Option ws_msg_node_t :=
  match h : malloc ok (size_add LWS_PRE data.bytes.length) with
  | none => none
  | some b =>
    have hb := malloc_eq_some h
    some
      { len := data.bytes.length
        is_binary
        buf := b.memcpy LWS_PRE data.bytes
        size_eq := by
          have hsize : b.bytes.length = LWS_PRE + data.bytes.length := by
            rw [hb.2.1]
            exact data.size_no_wrap (by decide)
          rw [Object.memcpy_length (Nat.le_of_eq hsize.symm)]
          exact hsize
        writable_eq := hb.2.2 }

theorem ws_msg_new_message {data : Data} {is_binary ok : Bool} {n : ws_msg_node_t}
    (h : ws_msg_new data is_binary ok = some n) :
    n.message = (data.bytes, is_binary) ∧ n.len = data.bytes.length := by
  unfold ws_msg_new at h
  split at h
  · cases h
  · next o ho =>
    cases h
    have hsize : o.bytes.length = SIZEOF_MSG_NODE + LWS_PRE + data.bytes.length := by
      rw [(malloc_eq_some ho).2.1]
      exact data.size_no_wrap (by decide)
    refine ⟨?_, rfl⟩
    simp only [ws_msg_node_t.message, ws_msg_node_t.payload, Prod.mk.injEq, and_true]
    apply Object.memcpy_read
    simp only [List.length_drop, hsize]
    omega

theorem msg_node_new_message {data : Data} {is_binary ok : Bool} {n : ws_msg_node_t}
    (h : msg_node_new data is_binary ok = some n) :
    n.message = (data.bytes, is_binary) ∧ n.len = data.bytes.length := by
  unfold msg_node_new at h
  split at h
  · cases h
  · next b hb =>
    cases h
    have hsize : b.bytes.length = LWS_PRE + data.bytes.length := by
      rw [(malloc_eq_some hb).2.1]
      exact data.size_no_wrap (by decide)
    refine ⟨?_, rfl⟩
    simp only [ws_msg_node_t.message, ws_msg_node_t.payload, Prod.mk.injEq, and_true]
    apply Object.memcpy_read
    omega

/-- `lws_write` of a dequeued node and `free` of it, as in the `WRITEABLE` branches
    of the three clients. -/
def write_node (n : ws_msg_node_t) (wsi : WsiId) : List Act :=
  [.lws_write wsi ⟨n.buf, LWS_PRE⟩ n.len (if n.is_binary then .LWS_WRITE_BINARY else .LWS_WRITE_TEXT),
    .free_node n.payload n.is_binary]

/-- The send queue fields of a client: `q_head` and `q_tail` with the nodes they
    reach, and the counters `q_msgs` and `q_bytes`, both `size_t`. -/
structure SendQueue where
  list : Queue ws_msg_node_t
  q_msgs : Nat
  q_bytes : Nat

def SendQueue.empty : SendQueue := { list := .empty, q_msgs := 0, q_bytes := 0 }

/-- `c->q_head != NULL`. -/
def SendQueue.has_data (q : SendQueue) : Bool := q.list.head.isSome

/-- `if (q_tail) q_tail->next = n; else q_head = n; q_tail = n; q_msgs++;
    q_bytes += len`. -/
def SendQueue.append (q : SendQueue) (n : ws_msg_node_t) : SendQueue :=
  { list := q.list.push n, q_msgs := size_add q.q_msgs 1, q_bytes := size_add q.q_bytes n.len }

/-- `n = q_head; if (n) { q_head = n->next; if (!q_head) q_tail = NULL;
    q_msgs--; q_bytes -= n->len; }`. -/
def SendQueue.dequeue (q : SendQueue) : Option ws_msg_node_t × SendQueue :=
  match q.list.pop with
  | (none, _) => (none, q)
  | (some n, list) =>
    (some n, { list, q_msgs := size_sub q.q_msgs 1, q_bytes := size_sub q.q_bytes n.len })

/-- `ws_flush_queue` and the two `flush_queue_locked`: free every node, then
    null the pointers and the counters. -/
def ws_flush_queue (q : SendQueue) : Option (List ws_msg_node_t × SendQueue) :=
  q.list.flush.map fun r => (r.1, { list := r.2, q_msgs := 0, q_bytes := 0 })

/-- The queue holds exactly the nodes `ns`, in this order: the list from
    `q_head` is finite and ends at `q_tail`, and the counters are their number
    and the sum of their lengths. -/
structure SendQueue.Holds (q : SendQueue) (ns : List ws_msg_node_t) : Prop where
  links : ∃ cells, q.list.Links cells ∧ cells.map Prod.snd = ns
  msgs : q.q_msgs = ns.length % 2 ^ 64
  bytes : q.q_bytes = (ns.map ws_msg_node_t.len).sum % 2 ^ 64

theorem SendQueue.empty_holds : SendQueue.empty.Holds [] :=
  ⟨⟨[], Queue.empty_links, rfl⟩, rfl, rfl⟩

theorem SendQueue.Holds.append {q : SendQueue} {ns : List ws_msg_node_t} (h : q.Holds ns)
    (n : ws_msg_node_t) : (q.append n).Holds (ns ++ [n]) := by
  obtain ⟨⟨cells, hlinks, hcells⟩, hmsgs, hbytes⟩ := h
  refine ⟨⟨_, Queue.push_links hlinks n, by simp [hcells]⟩, ?_, ?_⟩
  · rw [SendQueue.append, hmsgs, size_add_mod, List.length_append, List.length_singleton]
  · rw [SendQueue.append, hbytes, size_add_mod]
    simp

theorem SendQueue.Holds.has_data_iff {q : SendQueue} {ns : List ws_msg_node_t} (h : q.Holds ns) :
    q.has_data = true ↔ ns ≠ [] := by
  obtain ⟨⟨cells, hlinks, hcells⟩, _, _⟩ := h
  rw [SendQueue.has_data, hlinks.chain.head_isSome, ← hcells]
  simp

/-- Dequeuing from an empty queue finds no node and changes nothing. -/
theorem SendQueue.Holds.dequeue_nil {q : SendQueue} (h : q.Holds []) : q.dequeue = (none, q) := by
  obtain ⟨⟨cells, hlinks, hcells⟩, _, _⟩ := h
  obtain rfl : cells = [] := by simpa using hcells
  simp [SendQueue.dequeue, Queue.pop_nil hlinks]

/-- Dequeuing takes the first node; the last one leaves both pointers NULL. -/
theorem SendQueue.Holds.dequeue_cons {q : SendQueue} {n : ws_msg_node_t}
    {ns : List ws_msg_node_t} (h : q.Holds (n :: ns)) :
    ∃ q', q.dequeue = (some n, q') ∧ q'.Holds ns := by
  obtain ⟨⟨cells, hlinks, hcells⟩, hmsgs, hbytes⟩ := h
  cases cells with
  | nil => simp at hcells
  | cons c cells =>
    obtain ⟨p, a⟩ := c
    simp only [List.map_cons, List.cons.injEq] at hcells
    obtain ⟨rfl, rfl⟩ := hcells
    obtain ⟨hval, hrest⟩ := Queue.pop_cons hlinks
    have hpop : q.list.pop = (some a, q.list.pop.2) := Prod.ext hval rfl
    refine ⟨⟨q.list.pop.2, size_sub q.q_msgs 1, size_sub q.q_bytes a.len⟩, ?_, ⟨cells, hrest, rfl⟩, ?_, ?_⟩
    · rw [SendQueue.dequeue, hpop]
    · simp only [hmsgs, List.length_cons, List.length_map]
      exact size_sub_add_mod _ _
    · simp only [hbytes, List.map_cons, List.sum_cons]
      rw [Nat.add_comm]
      exact size_sub_add_mod _ _

/-- Whether a node was found, and what is left, in one statement. -/
theorem SendQueue.Holds.dequeue {q : SendQueue} {ns : List ws_msg_node_t} (h : q.Holds ns) :
    q.dequeue.1 = ns.head? ∧ q.dequeue.2.Holds ns.tail := by
  cases ns with
  | nil =>
    rw [h.dequeue_nil]
    exact ⟨rfl, h⟩
  | cons n ns =>
    obtain ⟨q', hdequeue, hq'⟩ := h.dequeue_cons
    rw [hdequeue]
    exact ⟨rfl, hq'⟩

/-- The flush loop ends on every well-formed queue and frees its nodes in order. -/
theorem SendQueue.Holds.flush {q : SendQueue} {ns : List ws_msg_node_t} (h : q.Holds ns) :
    ∃ q', ws_flush_queue q = some (ns, q') ∧ q'.Holds [] := by
  obtain ⟨⟨cells, hlinks, rfl⟩, _, _⟩ := h
  obtain ⟨list, hflush, hempty⟩ := Queue.flush_links hlinks
  refine ⟨⟨list, 0, 0⟩, ?_, ⟨[], hempty, rfl⟩, rfl, rfl⟩
  simp [ws_flush_queue, hflush]

/-- The nodes in the queue are determined by it. -/
theorem SendQueue.Holds.unique {q : SendQueue} {ns ns' : List ws_msg_node_t} (h : q.Holds ns)
    (h' : q.Holds ns') : ns = ns' := by
  obtain ⟨_, hflush, _⟩ := h.flush
  obtain ⟨_, hflush', _⟩ := h'.flush
  rw [hflush] at hflush'
  simp only [Option.some.injEq, Prod.mk.injEq] at hflush'
  exact hflush'.1

end lws_client
