import LwsClientDemo.WsInternal

namespace lws_client

/-- The queue is well formed and within its limits, of which 0 is none. -/
def SendQueue.Within (q : SendQueue) (max_msgs max_bytes : Nat) : Prop :=
  ∃ ns, q.Holds ns ∧ (max_msgs ≠ 0 → ns.length ≤ max_msgs) ∧
    (max_bytes ≠ 0 → (ns.map ws_msg_node_t.len).sum ≤ max_bytes)

/-- `(max_msgs && q_msgs >= max_msgs) || (max_bytes && q_bytes + len > max_bytes)`. -/
def SendQueue.Full (q : SendQueue) (max_msgs max_bytes len : Nat) : Prop :=
  (max_msgs ≠ 0 ∧ q.q_msgs ≥ max_msgs) ∨ (max_bytes ≠ 0 ∧ size_add q.q_bytes len > max_bytes)

/-- One more message of `len` bytes would break an enabled limit. -/
def SendQueue.Breaks (q : SendQueue) (max_msgs max_bytes len : Nat) : Prop :=
  (max_msgs ≠ 0 ∧ q.q_msgs + 1 > max_msgs) ∨ (max_bytes ≠ 0 ∧ q.q_bytes + len > max_bytes)

variable {q q' : SendQueue} {max_msgs max_bytes : Nat} {n : ws_msg_node_t}
  {freed : List ws_msg_node_t}

theorem size_of_int_of_nonneg {n : Int} (h : 0 ≤ n) (hmax : n ≤ INT_MAX) :
    (size_of_int n : Int) = n := by
  simp only [INT_MAX] at hmax
  simp only [size_of_int]
  omega

theorem size_of_int_le {n : Int} (h : 0 ≤ n) (hmax : n ≤ INT_MAX) : (size_of_int n : Int) ≤ INT_MAX := by
  rw [size_of_int_of_nonneg h hmax]
  exact hmax

theorem SendQueue.Within.empty : SendQueue.empty.Within max_msgs max_bytes :=
  ⟨[], empty_holds, by simp, by simp⟩

theorem SendQueue.Within.dequeue (h : q.Within max_msgs max_bytes) :
    q.dequeue.2.Within max_msgs max_bytes := by
  obtain ⟨ns, hholds, hmsgs, hbytes⟩ := h
  obtain ⟨_, hrest⟩ := hholds.dequeue
  have hlength : ns.tail.length ≤ ns.length := by simp
  have hsum : (ns.tail.map ws_msg_node_t.len).sum ≤ (ns.map ws_msg_node_t.len).sum := by
    cases ns with
    | nil => exact Nat.le_refl _
    | cons m ms => simp
  exact ⟨ns.tail, hrest, fun hne => Nat.le_trans hlength (hmsgs hne),
    fun hne => Nat.le_trans hsum (hbytes hne)⟩

theorem SendQueue.Within.flush (h : q.Within max_msgs max_bytes)
    (hflush : ws_flush_queue q = some (freed, q')) : q'.Within max_msgs max_bytes := by
  obtain ⟨ns, hholds, _⟩ := h
  obtain ⟨empty, heq, hempty⟩ := hholds.flush
  rw [hflush] at heq
  cases heq
  exact ⟨[], hempty, by simp, by simp⟩

/-- The counters of a queue that is limited by an `int` have not wrapped. -/
theorem SendQueue.Within.counters {ns : List ws_msg_node_t} (hholds : q.Holds ns)
    (hmsgs : max_msgs ≠ 0 → ns.length ≤ max_msgs)
    (hbytes : max_bytes ≠ 0 → (ns.map ws_msg_node_t.len).sum ≤ max_bytes)
    (hmax_msgs : (max_msgs : Int) ≤ INT_MAX) (hmax_bytes : (max_bytes : Int) ≤ INT_MAX) :
    (max_msgs ≠ 0 → q.q_msgs = ns.length) ∧
      (max_bytes ≠ 0 → q.q_bytes = (ns.map ws_msg_node_t.len).sum) := by
  simp only [INT_MAX] at hmax_msgs hmax_bytes
  refine ⟨fun hne => ?_, fun hne => ?_⟩
  · have hle := hmsgs hne
    rw [hholds.msgs]
    omega
  · have hle := hbytes hne
    rw [hholds.bytes]
    omega

theorem SendQueue.Within.le (h : q.Within max_msgs max_bytes)
    (hmax_msgs : (max_msgs : Int) ≤ INT_MAX) (hmax_bytes : (max_bytes : Int) ≤ INT_MAX) :
    (max_msgs ≠ 0 → q.q_msgs ≤ max_msgs) ∧ (max_bytes ≠ 0 → q.q_bytes ≤ max_bytes) := by
  obtain ⟨ns, hholds, hmsgs, hbytes⟩ := h
  obtain ⟨hq_msgs, hq_bytes⟩ := counters hholds hmsgs hbytes hmax_msgs hmax_bytes
  exact ⟨fun hne => hq_msgs hne ▸ hmsgs hne, fun hne => hq_bytes hne ▸ hbytes hne⟩

/-- The test of the code is exact: `q_bytes + len` does not wrap. -/
theorem SendQueue.Within.full_iff (h : q.Within max_msgs max_bytes)
    (hmax_msgs : (max_msgs : Int) ≤ INT_MAX) (hmax_bytes : (max_bytes : Int) ≤ INT_MAX)
    {len : Nat} (hlen : len ≤ PTRDIFF_MAX) :
    q.Full max_msgs max_bytes len ↔ q.Breaks max_msgs max_bytes len := by
  obtain ⟨_, hq_bytes⟩ := h.le hmax_msgs hmax_bytes
  have hexact : max_bytes ≠ 0 → size_add q.q_bytes len = q.q_bytes + len := by
    intro hne
    have hle := hq_bytes hne
    simp only [INT_MAX, PTRDIFF_MAX] at hmax_bytes hlen
    exact size_add_of_lt (by omega)
  refine or_congr (and_congr_right fun _ => by omega) (and_congr_right fun hne => ?_)
  rw [hexact hne]

/-- A message that passes the test keeps the queue within its limits. -/
theorem SendQueue.Within.append (h : q.Within max_msgs max_bytes)
    (hmax_msgs : (max_msgs : Int) ≤ INT_MAX) (hmax_bytes : (max_bytes : Int) ≤ INT_MAX)
    (hlen : n.len ≤ PTRDIFF_MAX) (hroom : ¬ q.Full max_msgs max_bytes n.len) :
    (q.append n).Within max_msgs max_bytes := by
  rw [h.full_iff hmax_msgs hmax_bytes hlen, SendQueue.Breaks] at hroom
  obtain ⟨ns, hholds, hmsgs, hbytes⟩ := h
  obtain ⟨hq_msgs, hq_bytes⟩ := counters hholds hmsgs hbytes hmax_msgs hmax_bytes
  push Not at hroom
  refine ⟨ns ++ [n], hholds.append n, fun hne => ?_, fun hne => ?_⟩
  · have hle := hroom.1 hne
    rw [hq_msgs hne] at hle
    simpa using hle
  · have hle := hroom.2 hne
    rw [hq_bytes hne] at hle
    simpa using hle

/-- The limits as the caller gave them, as `int`s. -/
theorem SendQueue.Within.exact {msgs bytes : Int}
    (h : q.Within (size_of_int msgs) (size_of_int bytes)) (hmsgs : 0 ≤ msgs) (hmsgs' : msgs ≤ INT_MAX)
    (hbytes : 0 ≤ bytes) (hbytes' : bytes ≤ INT_MAX) :
    (0 < msgs → (q.q_msgs : Int) ≤ msgs) ∧ (0 < bytes → (q.q_bytes : Int) ≤ bytes) ∧
      ∀ len ≤ PTRDIFF_MAX, q.Full (size_of_int msgs) (size_of_int bytes) len ↔
        (0 < msgs ∧ msgs < q.q_msgs + 1) ∨ (0 < bytes ∧ bytes < q.q_bytes + len) := by
  have hmax_msgs := size_of_int_of_nonneg hmsgs hmsgs'
  have hmax_bytes := size_of_int_of_nonneg hbytes hbytes'
  obtain ⟨hle_msgs, hle_bytes⟩ := h.le (size_of_int_le hmsgs hmsgs') (size_of_int_le hbytes hbytes')
  refine ⟨fun hpos => ?_, fun hpos => ?_, fun len hlen => ?_⟩
  · have hle := hle_msgs (by omega)
    omega
  · have hle := hle_bytes (by omega)
    omega
  · rw [h.full_iff (size_of_int_le hmsgs hmsgs') (size_of_int_le hbytes hbytes') hlen]
    refine or_congr ?_ ?_ <;> constructor <;> rintro ⟨hpos, hlt⟩ <;> constructor <;> omega

end lws_client
