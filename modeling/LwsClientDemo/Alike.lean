import LwsClientDemo.Traffic

namespace lws_client

/-- What is seen of a call apart from the connection and the buffer it is made
    with: a write shows its bytes. -/
def Act.seen : Act → Act
  | .lws_write _ buf len wp => .lws_write 0 ⟨⟨buf.read len, true⟩, 0⟩ len wp
  | .lws_callback_on_writable _ => .lws_callback_on_writable 0
  | .lws_set_timer_usecs _ usecs => .lws_set_timer_usecs 0 usecs
  | .lws_close_reason _ => .lws_close_reason 0
  | .on_handshake_header _ => .on_handshake_header 0
  | act => act

/-- Frames handed to lws, and timers of the connection. -/
def Act.outgoing : Act → Bool
  | .lws_write _ _ _ _ | .lws_set_timer_usecs _ _ => true
  | _ => false

/-- A call, as it is seen, or the value a callback returns. -/
inductive Seen where
  | call (act : Act)
  | returned (ret : Int)

def seen (acts : List Act) : List Seen := acts.map fun act => .call act.seen

@[simp] theorem seen_append (xs ys : List Act) : seen (xs ++ ys) = seen xs ++ seen ys :=
  List.map_append

/-- Two nodes carry the same message. -/
theorem ws_msg_node_t.length_payload (n : ws_msg_node_t) : n.payload.length = n.len := by
  have hsize := n.size_eq
  simp only [payload, Ptr.read, List.length_take, List.length_drop]
  omega

theorem ws_msg_node_t.len_eq {n n' : ws_msg_node_t} (h : n.message = n'.message) : n.len = n'.len := by
  rw [← n.length_payload, ← n'.length_payload]
  exact congrArg (fun m : Message => m.1.length) h

/-- The write of a node, and its release, are seen by its message alone. -/
theorem seen_write {n n' : ws_msg_node_t} (h : n.message = n'.message) (w w' : WsiId)
    (wp : Bool → lws_write_protocol) :
    seen [.lws_write w ⟨n.buf, LWS_PRE⟩ n.len (wp n.is_binary), .free_node n.payload n.is_binary] =
      seen [.lws_write w' ⟨n'.buf, LWS_PRE⟩ n'.len (wp n'.is_binary),
        .free_node n'.payload n'.is_binary] := by
  have hlen := ws_msg_node_t.len_eq h
  simp only [ws_msg_node_t.message, Prod.mk.injEq] at h
  have hread : (Ptr.mk n.buf LWS_PRE).read n.len = (Ptr.mk n'.buf LWS_PRE).read n'.len := h.1
  simp only [seen, List.map_cons, List.map_nil, Act.seen, h.1, h.2]
  rw [hread, hlen]

/-- Two queues hold the same messages. -/
def SendQueue.Alike (q q' : SendQueue) : Prop :=
  ∃ ns ns', q.Holds ns ∧ q'.Holds ns' ∧ ns.map ws_msg_node_t.message = ns'.map ws_msg_node_t.message

variable {q q' : SendQueue}

theorem SendQueue.Alike.symm (h : q.Alike q') : q'.Alike q := by
  obtain ⟨ns, ns', hns, hns', hsame⟩ := h
  exact ⟨ns', ns, hns', hns, hsame.symm⟩

/-- Two empty queues. -/
theorem SendQueue.Alike.of_empty {ns ns' : List ws_msg_node_t} (h : q.Holds ns) (h' : q'.Holds ns')
    (hq : q.has_data = false) (hq' : q'.has_data = false) : q.Alike q' := by
  have hnil : ∀ {q : SendQueue} {ns : List ws_msg_node_t}, q.Holds ns → q.has_data = false → ns = [] := by
    intro q ns hns hfalse
    by_contra hne
    rw [hns.has_data_iff.mpr hne] at hfalse
    cases hfalse
  exact ⟨ns, ns', h, h', by rw [hnil h hq, hnil h' hq']⟩

theorem SendQueue.Alike.has_data (h : q.Alike q') : q.has_data = q'.has_data := by
  obtain ⟨ns, ns', hns, hns', hsame⟩ := h
  have hnil : ns = [] ↔ ns' = [] := by
    rw [← List.map_eq_nil_iff (f := ws_msg_node_t.message), hsame, List.map_eq_nil_iff]
  rw [Bool.eq_iff_iff, hns.has_data_iff, hns'.has_data_iff, Ne, Ne, hnil]

/-- The counters are those of the messages. -/
theorem SendQueue.Alike.counters (h : q.Alike q') : q.q_msgs = q'.q_msgs ∧ q.q_bytes = q'.q_bytes := by
  obtain ⟨ns, ns', hns, hns', hsame⟩ := h
  have hlen : ∀ ms : List ws_msg_node_t,
      ms.map ws_msg_node_t.len = (ms.map ws_msg_node_t.message).map fun m => m.1.length := by
    intro ms
    rw [List.map_map]
    exact List.map_congr_left fun n _ => n.length_payload.symm
  have hcount : ns.length = ns'.length := by simpa using congrArg List.length hsame
  rw [hns.msgs, hns'.msgs, hns.bytes, hns'.bytes, hlen, hlen, hsame, hcount]
  exact ⟨rfl, rfl⟩

theorem SendQueue.Alike.append (h : q.Alike q') (n : ws_msg_node_t) :
    (q.append n).Alike (q'.append n) := by
  obtain ⟨ns, ns', hns, hns', hsame⟩ := h
  exact ⟨_, _, hns.append n, hns'.append n, by simp [hsame]⟩

/-- A dequeue finds the same message, or none, and leaves the same ones. -/
theorem SendQueue.Alike.dequeue (h : q.Alike q') :
    (q.dequeue.1 = none ∧ q'.dequeue.1 = none) ∨
      ∃ n n', q.dequeue.1 = some n ∧ q'.dequeue.1 = some n' ∧ n.message = n'.message ∧
        q.dequeue.2.Alike q'.dequeue.2 := by
  obtain ⟨ns, ns', hns, hns', hsame⟩ := h
  obtain ⟨hhead, hrest⟩ := hns.dequeue
  obtain ⟨hhead', hrest'⟩ := hns'.dequeue
  cases ns with
  | nil =>
    obtain rfl : ns' = [] := by simpa using hsame.symm
    exact .inl ⟨hhead, hhead'⟩
  | cons n ns =>
    cases ns' with
    | nil => simp at hsame
    | cons n' ns' =>
      simp only [List.map_cons, List.cons.injEq] at hsame
      exact .inr ⟨n, n', hhead, hhead', hsame.1, ns, ns', hrest, hrest', hsame.2⟩

end lws_client
