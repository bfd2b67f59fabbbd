import LwsClientDemo.WsClient.Limits
import LwsClientDemo.WsClientV2.Sections
import LwsClientDemo.WsPool.Limits

open interleaving

namespace lws_client

/-- What is done to a queue: a send, whose allocation succeeds, or the dequeue
    of a WRITEABLE callback. -/
inductive QueueOp where
  | send (data : Data) (is_binary : Bool)
  | dequeue

/-- Both clients get their node. -/
def QueueOp.Allocates : QueueOp → Prop
  | .send data is_binary =>
    (msg_node_new data is_binary true).isSome = true ∧ (ws_msg_new data is_binary true).isSome = true
  | .dequeue => True

instance (op : QueueOp) : Decidable op.Allocates := by
  unfold QueueOp.Allocates
  split <;> infer_instance

def ws_client.queue_op (c : ws_client.wsld_client) :
    QueueOp → Option LwsClientRet_e × ws_client.wsld_client
  | .send data is_binary =>
    let (ret, c) := ws_client.enqueue_locked c data is_binary true
    (some ret, c)
  | .dequeue => (none, { c with q := c.q.dequeue.2 })

def ws_client_v2.queue_op (c : ws_client_v2.wsl_client) :
    QueueOp → Option LwsClientRet_e × ws_client_v2.wsl_client
  | .send data is_binary =>
    let (ret, c) := ws_client_v2.enqueue_msg_locked c data is_binary true
    (some ret, c)
  | .dequeue => (none, { c with q := c.q.dequeue.2 })

/-- Two queues hold the same messages and count the same. -/
structure SendQueue.Agrees (q q' : SendQueue) : Prop where
  messages : ∃ ns ns', q.Holds ns ∧ q'.Holds ns' ∧
    ns.map ws_msg_node_t.message = ns'.map ws_msg_node_t.message ∧
    ns.map ws_msg_node_t.len = ns'.map ws_msg_node_t.len
  msgs : q.q_msgs = q'.q_msgs
  bytes : q.q_bytes = q'.q_bytes

/-- The two clients answer every operation alike, and their queues agree after
    each, within a positive `max_bytes`. -/
def Lockstep (max_bytes : Int) : ws_client.wsld_client → ws_client_v2.wsl_client → List QueueOp → Prop
  | _, _, [] => True
  | c, c', op :: ops =>
    let r := ws_client.queue_op c op
    let r' := ws_client_v2.queue_op c' op
    r.1 = r'.1 ∧ r.2.q.Agrees r'.2.q ∧ (0 < max_bytes → (r'.2.q.q_bytes : Int) ≤ max_bytes) ∧
      Lockstep max_bytes r.2 r'.2 ops

/-- A send of more bytes than the limit still allows exceeds the limit also as
    an `int`, unless the number of messages stops it first. -/
def casts (max_msgs max_bytes : Int) (q : SendQueue) : QueueOp → Bool
  | .send data _ =>
    decide (max_bytes = 0) || decide (0 < max_msgs ∧ max_msgs ≤ q.q_msgs) ||
      decide (q.q_bytes + data.bytes.length ≤ max_bytes) ||
      decide (max_bytes < int_of_size (q.q_bytes + data.bytes.length))
  | .dequeue => true

/-- So does every send of the history. -/
def casts_all (max_msgs max_bytes : Int) : ws_client.wsld_client → List QueueOp → Bool
  | _, [] => true
  | c, op :: ops =>
    casts max_msgs max_bytes c.q op && casts_all max_msgs max_bytes (ws_client.queue_op c op).2 ops

variable {q q' : SendQueue} {max_msgs max_bytes : Int} {c : ws_client.wsld_client}
  {c' : ws_client_v2.wsl_client} {data : Data} {is_binary : Bool}

theorem int_of_size_of_le {n : Nat} (h : (n : Int) ≤ INT_MAX) : int_of_size n = n := by
  simp only [INT_MAX] at h
  exact Int.bmod_eq_of_le (by omega) (by omega)

/-- A sum of a limited `int` and a length does not wrap. -/
theorem size_add_of_le {n len : Nat} (hn : (n : Int) ≤ max_bytes) (hmax : max_bytes ≤ INT_MAX)
    (hlen : len ≤ PTRDIFF_MAX) : size_add n len = n + len := by
  simp only [INT_MAX, PTRDIFF_MAX] at hmax hlen
  exact size_add_of_lt (by omega)

theorem SendQueue.Agrees.append {n n' : ws_msg_node_t} (h : q.Agrees q')
    (hmessage : n.message = n'.message) (hlen : n.len = n'.len) : (q.append n).Agrees (q'.append n') := by
  obtain ⟨⟨ns, ns', hholds, hholds', hmessages, hlens⟩, hmsgs, hbytes⟩ := h
  refine ⟨⟨_, _, hholds.append n, hholds'.append n', by simp [hmessages, hmessage],
    by simp [hlens, hlen]⟩, ?_, ?_⟩
  · simp only [SendQueue.append, hmsgs]
  · simp only [SendQueue.append, hbytes, hlen]

theorem SendQueue.Agrees.dequeue (h : q.Agrees q') : q.dequeue.2.Agrees q'.dequeue.2 := by
  obtain ⟨⟨ns, ns', hholds, hholds', hmessages, hlens⟩, hmsgs, hbytes⟩ := h
  obtain ⟨_, hrest⟩ := hholds.dequeue
  obtain ⟨_, hrest'⟩ := hholds'.dequeue
  have htail : ns.tail.map ws_msg_node_t.len = ns'.tail.map ws_msg_node_t.len := by
    rw [List.map_tail, List.map_tail, hlens]
  have hlength : ns.tail.length = ns'.tail.length := by
    simpa using congrArg List.length htail
  refine ⟨⟨_, _, hrest, hrest', ?_, htail⟩, ?_, ?_⟩
  · rw [List.map_tail, List.map_tail, hmessages]
  · rw [hrest.msgs, hrest'.msgs, hlength]
  · rw [hrest.bytes, hrest'.bytes, htail]

/-- The `int` tests of v2. -/
def ws_client_v2.wsl_client.Full (c : ws_client_v2.wsl_client) (len : Nat) : Prop :=
  (c.max_queue_msgs > 0 ∧ int_of_size c.q.q_msgs ≥ c.max_queue_msgs) ∨
    (c.max_queue_bytes > 0 ∧ int_of_size (size_add c.q.q_bytes len) > c.max_queue_bytes)

/-- What a send does in v2 when its allocation succeeds. -/
theorem ws_client_v2.enqueue_msg_locked_cases (c' : ws_client_v2.wsl_client)
    (halloc : (ws_msg_new data is_binary true).isSome = true) :
    (c'.Full data.bytes.length ∧
        ws_client_v2.enqueue_msg_locked c' data is_binary true = (.LWS_ERR_QUEUE_FULL, c')) ∨
      (¬ c'.Full data.bytes.length ∧ ∃ n, n.message = (data.bytes, is_binary) ∧
        n.len = data.bytes.length ∧ ws_client_v2.enqueue_msg_locked c' data is_binary true =
          (.LWS_OK, { c' with q := c'.q.append n })) := by
  obtain ⟨n, hn⟩ := Option.isSome_iff_exists.mp halloc
  obtain ⟨hmessage, hlen⟩ := ws_msg_new_message hn
  unfold ws_client_v2.enqueue_msg_locked ws_client_v2.wsl_client.Full
  split
  · next hmsgs => exact .inl ⟨.inl hmsgs, rfl⟩
  · next hmsgs =>
    split
    · next hbytes => exact .inl ⟨.inr hbytes, rfl⟩
    · next hbytes =>
      rw [hn]
      exact .inr ⟨not_or.mpr ⟨hmsgs, hbytes⟩, n, hmessage, hlen, rfl⟩

/-- What a send does in v1 when its allocations succeed. -/
theorem ws_client.enqueue_locked_cases (c : ws_client.wsld_client)
    (halloc : (msg_node_new data is_binary true).isSome = true) :
    (c.q.Full c.max_queue_msgs c.max_queue_bytes data.bytes.length ∧
        ws_client.enqueue_locked c data is_binary true = (.LWS_ERR_QUEUE_FULL, c)) ∨
      (¬ c.q.Full c.max_queue_msgs c.max_queue_bytes data.bytes.length ∧
        ∃ n, n.message = (data.bytes, is_binary) ∧ n.len = data.bytes.length ∧
          ws_client.enqueue_locked c data is_binary true =
            (.LWS_OK, { c with q := c.q.append n })) := by
  obtain ⟨n, hn⟩ := Option.isSome_iff_exists.mp halloc
  obtain ⟨hmessage, hlen⟩ := msg_node_new_message hn
  unfold ws_client.enqueue_locked
  rw [hn]
  dsimp only
  split
  · next hfull => exact .inl ⟨hfull, rfl⟩
  · next hroom => exact .inr ⟨hroom, n, hmessage, hlen, rfl⟩

/-- The limits of the two clients, and what their queues have in common. -/
structure Alike (max_msgs max_bytes : Int) (c : ws_client.wsld_client)
    (c' : ws_client_v2.wsl_client) : Prop where
  limited : c.q.Within (size_of_int max_msgs) (size_of_int max_bytes)
  max_msgs : c.max_queue_msgs = size_of_int max_msgs ∧ c'.max_queue_msgs = max_msgs
  max_bytes : c.max_queue_bytes = size_of_int max_bytes ∧ c'.max_queue_bytes = max_bytes
  agrees : c.q.Agrees c'.q

section limits

variable (hmsgs : 0 ≤ max_msgs) (hmsgs' : max_msgs ≤ INT_MAX) (hbytes : 0 ≤ max_bytes)
  (hbytes' : max_bytes ≤ INT_MAX)

include hmsgs hmsgs' hbytes hbytes'

/-- The tests of the two clients agree exactly when the cast to `int` keeps what
    is too much too much. -/
theorem Alike.full_iff (h : Alike max_msgs max_bytes c c') (data : Data) (is_binary : Bool) :
    ((c.q.Full c.max_queue_msgs c.max_queue_bytes data.bytes.length ↔
        c'.Full data.bytes.length) ↔
      casts max_msgs max_bytes c.q (.send data is_binary) = true) := by
  obtain ⟨hwithin, ⟨hv1_msgs, hv2_msgs⟩, ⟨hv1_bytes, hv2_bytes⟩, hagrees⟩ := h
  obtain ⟨hle_msgs, hle_bytes, hfull⟩ := hwithin.exact hmsgs hmsgs' hbytes hbytes'
  have hlen := data.length_le
  rw [hv1_msgs, hv1_bytes, hfull _ hlen]
  have hcount : 0 < max_msgs →
      (int_of_size c'.q.q_msgs ≥ max_msgs ↔ max_msgs < c.q.q_msgs + 1) := by
    intro hpos
    have hle := hle_msgs hpos
    rw [← hagrees.msgs, int_of_size_of_le (by omega)]
    omega
  have hsum : 0 < max_bytes →
      size_add c'.q.q_bytes data.bytes.length = c.q.q_bytes + data.bytes.length := by
    intro hpos
    rw [← hagrees.bytes]
    exact size_add_of_le (hle_bytes hpos) hbytes' hlen
  have hsmall : (c.q.q_bytes + data.bytes.length : Int) ≤ max_bytes →
      int_of_size (c.q.q_bytes + data.bytes.length) = c.q.q_bytes + data.bytes.length := by
    intro hle
    rw [int_of_size_of_le (by push_cast; omega)]
    push_cast
    rfl
  simp only [ws_client_v2.wsl_client.Full, hv2_msgs, hv2_bytes, casts, Bool.or_eq_true,
    decide_eq_true_eq]
  by_cases hzero : max_bytes = 0
  · simp only [hzero, lt_irrefl, gt_iff_lt, false_and, or_false, true_or, iff_true]
    exact and_congr_right fun hpos => (hcount hpos).symm
  · have hpos : 0 < max_bytes := by omega
    rw [hsum hpos]
    simp only [hzero, hpos, gt_iff_lt, true_and, false_or]
    constructor
    · intro hsame
      by_contra hnone
      push Not at hnone
      obtain ⟨⟨hroom, hbig⟩, hcast⟩ := hnone
      rcases hsame.mp (.inr hbig) with ⟨hlimited, hge⟩ | hlt
      · have hlt := (hcount hlimited).mp hge
        have hroom := hroom hlimited
        omega
      · exact absurd hlt hcast.not_gt
    · rintro ((⟨hlimited, hge⟩ | hle) | hcast)
      · have hlt : max_msgs < c.q.q_msgs + 1 := by omega
        exact iff_of_true (.inl ⟨hlimited, hlt⟩) (.inl ⟨hlimited, (hcount hlimited).mpr hlt⟩)
      · refine or_congr (and_congr_right fun hlimited => (hcount hlimited).symm) ?_
        rw [hsmall hle]
      · have hbig : max_bytes < c.q.q_bytes + data.bytes.length := by
          by_contra hle
          rw [hsmall (by omega)] at hcast
          omega
        exact iff_of_true (.inr hbig) (.inr hcast)

/-- One operation gets the same answer exactly when the cast does no harm, and
    then the clients stay alike. -/
theorem Alike.step (h : Alike max_msgs max_bytes c c') {op : QueueOp} (halloc : op.Allocates) :
    ((ws_client.queue_op c op).1 = (ws_client_v2.queue_op c' op).1 ↔
        casts max_msgs max_bytes c.q op = true) ∧
      ((ws_client.queue_op c op).1 = (ws_client_v2.queue_op c' op).1 →
        Alike max_msgs max_bytes (ws_client.queue_op c op).2 (ws_client_v2.queue_op c' op).2) := by
  cases op with
  | dequeue =>
    exact ⟨iff_of_true rfl rfl,
      fun _ => ⟨h.limited.dequeue, h.max_msgs, h.max_bytes, h.agrees.dequeue⟩⟩
  | send data is_binary =>
    have hiff := h.full_iff hmsgs hmsgs' hbytes hbytes' data is_binary
    simp only [ws_client.queue_op, ws_client_v2.queue_op]
    rcases ws_client.enqueue_locked_cases c halloc.1 with
      ⟨hfull, heq⟩ | ⟨hroom, n, hmessage, hlen, heq⟩ <;>
    rcases ws_client_v2.enqueue_msg_locked_cases c' halloc.2 with
      ⟨hfull', heq'⟩ | ⟨hroom', n', hmessage', hlen', heq'⟩
    · rw [heq, heq']
      exact ⟨iff_of_true rfl (hiff.mp (iff_of_true hfull hfull')), fun _ => h⟩
    · rw [heq, heq']
      have hdiffer : ¬ casts max_msgs max_bytes c.q (.send data is_binary) = true :=
        fun hcasts => hroom' ((hiff.mpr hcasts).mp hfull)
      exact ⟨iff_of_false (by simp) hdiffer, fun hsame => (by cases hsame)⟩
    · rw [heq, heq']
      have hdiffer : ¬ casts max_msgs max_bytes c.q (.send data is_binary) = true :=
        fun hcasts => hroom ((hiff.mpr hcasts).mpr hfull')
      exact ⟨iff_of_false (by simp) hdiffer, fun hsame => (by cases hsame)⟩
    · rw [heq, heq']
      refine ⟨iff_of_true rfl (hiff.mp (iff_of_false hroom hroom')), fun _ => ?_⟩
      rw [h.max_msgs.1, h.max_bytes.1] at hroom
      refine ⟨?_, h.max_msgs, h.max_bytes, ?_⟩
      · exact h.limited.append (size_of_int_le hmsgs hmsgs') (size_of_int_le hbytes hbytes')
          (hlen ▸ data.length_le) (hlen ▸ hroom)
      · exact h.agrees.append (hmessage.trans hmessage'.symm) (hlen.trans hlen'.symm)

/-- A history gets the same answers and keeps the queues alike exactly when no
    send of it is harmed by the cast. -/
theorem Alike.lockstep_iff (h : Alike max_msgs max_bytes c c') {ops : List QueueOp}
    (halloc : ∀ op ∈ ops, op.Allocates) :
    Lockstep max_bytes c c' ops ↔ casts_all max_msgs max_bytes c ops = true := by
  induction ops generalizing c c' with
  | nil => exact iff_of_true trivial rfl
  | cons op ops ih =>
    obtain ⟨hiff, hkeeps⟩ := h.step hmsgs hmsgs' hbytes hbytes' (halloc op List.mem_cons_self)
    have hrest : ∀ op ∈ ops, op.Allocates := fun op hop => halloc op (List.mem_cons_of_mem _ hop)
    simp only [Lockstep, casts_all, Bool.and_eq_true]
    constructor
    · rintro ⟨hsame, _, _, hlater⟩
      exact ⟨hiff.mp hsame, (ih (hkeeps hsame) hrest).mp hlater⟩
    · rintro ⟨hcasts, hlater⟩
      have hsame := hiff.mpr hcasts
      have halike := hkeeps hsame
      refine ⟨hsame, halike.agrees, fun hpos => ?_, (ih halike hrest).mpr hlater⟩
      rw [← halike.agrees.bytes]
      exact (halike.limited.exact hmsgs hmsgs' hbytes hbytes').2.1 hpos

end limits

theorem alike_of_empty (hq : c.q = .empty) (hq' : c'.q = .empty) :
    Alike max_msgs max_bytes (ws_client.wsld_set_queue_limit c max_msgs max_bytes)
      (ws_client_v2.wsl_set_queue_limit c' max_msgs max_bytes) := by
  refine ⟨?_, ⟨rfl, rfl⟩, ⟨rfl, rfl⟩, ?_⟩
  · change c.q.Within _ _
    rw [hq]
    exact .empty
  · change c.q.Agrees c'.q
    rw [hq, hq']
    exact ⟨⟨[], [], SendQueue.empty_holds, SendQueue.empty_holds, rfl, rfl⟩, rfl, rfl⟩

/-- v1 and v2 answer every history of sends and dequeues alike and keep the same
    messages, exactly when no send exceeds the limit of v2 without exceeding it
    as an `int`. -/
theorem flow_control_agrees (hq : c.q = .empty) (hq' : c'.q = .empty) (hmsgs : 0 ≤ max_msgs)
    (hmsgs' : max_msgs ≤ INT_MAX) (hbytes : 0 ≤ max_bytes) (hbytes' : max_bytes ≤ INT_MAX)
    {ops : List QueueOp} (halloc : ∀ op ∈ ops, op.Allocates) :
    Lockstep max_bytes (ws_client.wsld_set_queue_limit c max_msgs max_bytes)
        (ws_client_v2.wsl_set_queue_limit c' max_msgs max_bytes) ops ↔
      casts_all max_msgs max_bytes (ws_client.wsld_set_queue_limit c max_msgs max_bytes) ops = true :=
  (alike_of_empty hq hq').lockstep_iff hmsgs hmsgs' hbytes hbytes' halloc

/-- Two sends to a queue of one message, and its WRITEABLE. -/
def small_ops : List QueueOp :=
  [.send { bytes := [104], length_le := one_byte } false,
    .send { bytes := [105], length_le := one_byte } true, .dequeue]

theorem flow_control_agrees_small :
    Lockstep 100 (ws_client.wsld_set_queue_limit (ws_client.wsld_create "localhost" 9000 none true) 1 100)
      (ws_client_v2.wsl_set_queue_limit (ws_client_v2.wsl_create "localhost" 9000 none true) 1 100)
      small_ops :=
  (flow_control_agrees rfl rfl (by decide) (by decide) (by decide) (by decide) (by decide)).mpr
    (by decide)

theorem msg_node_new_isSome (h : LWS_PRE + data.bytes.length ≤ PTRDIFF_MAX) :
    (msg_node_new data is_binary true).isSome = true := by
  unfold msg_node_new
  split
  · next hnone =>
    rw [size_add_of_lt (by simp only [PTRDIFF_MAX] at h; omega)] at hnone
    simp [malloc, h] at hnone
  · rfl

theorem ws_msg_new_isSome (h : SIZEOF_MSG_NODE + LWS_PRE + data.bytes.length ≤ PTRDIFF_MAX) :
    (ws_msg_new data is_binary true).isSome = true := by
  have hsmall : SIZEOF_MSG_NODE + LWS_PRE < 2 ^ 64 := by decide
  unfold ws_msg_new
  split
  · next hnone =>
    rw [size_add_of_lt hsmall, size_add_of_lt (by simp only [PTRDIFF_MAX] at h; omega)] at hnone
    simp [malloc, h] at hnone
  · rfl

/-- A message of 2 GiB, whose length is negative as an `int`. -/
def huge : Data :=
  { bytes := List.replicate (2 ^ 31) 0, length_le := by rw [List.length_replicate]; decide }

theorem huge_length : huge.bytes.length = 2 ^ 31 := List.length_replicate

/-- v2 accepts 2 GiB against a limit of 100 bytes. -/
theorem flow_control_casts : (QueueOp.send huge false).Allocates ∧
    ¬ Lockstep 100
      (ws_client.wsld_set_queue_limit (ws_client.wsld_create "localhost" 9000 none true) 0 100)
      (ws_client_v2.wsl_set_queue_limit (ws_client_v2.wsl_create "localhost" 9000 none true) 0 100)
      [.send huge false] := by
  have halloc : (QueueOp.send huge false).Allocates := by
    constructor
    · apply msg_node_new_isSome
      rw [huge_length]
      decide
    · apply ws_msg_new_isSome
      rw [huge_length]
      decide
  refine ⟨halloc, ?_⟩
  have halike : Alike 0 100
      (ws_client.wsld_set_queue_limit (ws_client.wsld_create "localhost" 9000 none true) 0 100)
      (ws_client_v2.wsl_set_queue_limit (ws_client_v2.wsl_create "localhost" 9000 none true) 0 100) :=
    alike_of_empty rfl rfl
  rw [halike.lockstep_iff (by decide) (by decide) (by decide) (by decide) (by simpa using halloc)]
  simp only [casts_all, casts, huge_length]
  decide

/-- The limits that v1 and the pool are given before the first send hold in every
    state, and a send to a client that is not stopping fails for them exactly
    when its message would break one. -/
theorem queue_limits_tight {client : ws_pool.ClientId → ws_pool.wsp_client} (hc : c.Fresh)
    (hfresh : ∀ d, (client d).Fresh) (hmsgs : 0 ≤ max_msgs) (hmsgs' : max_msgs ≤ INT_MAX)
    (hbytes : 0 ≤ max_bytes) (hbytes' : max_bytes ≤ INT_MAX) :
    (∀ cfg, ws_client.system.Reaches Any
        (ws_client.initial (ws_client.wsld_set_queue_limit c max_msgs max_bytes)) cfg →
      (0 < max_msgs → (cfg.shared.c.q.q_msgs : Int) ≤ max_msgs) ∧
      (0 < max_bytes → (cfg.shared.c.q.q_bytes : Int) ≤ max_bytes) ∧
      ∀ t data is_binary rest a cfg', cfg.app t = .enqueue_locked data is_binary :: rest →
        (msg_node_new data is_binary a.ok).isSome = true →
        ws_client.system.step cfg (.app t a) = some cfg' →
          ∃ ret, cfg'.shared.trace =
              cfg.shared.trace ++ [.send_returns data.bytes is_binary ret] ∧
            (ret = .LWS_ERR_QUEUE_FULL ↔
              (0 < max_msgs ∧ max_msgs < cfg.shared.c.q.q_msgs + 1) ∨
              (0 < max_bytes ∧ max_bytes < cfg.shared.c.q.q_bytes + data.bytes.length)) ∧
            (ret = .LWS_ERR_QUEUE_FULL → cfg'.shared.c.q = cfg.shared.c.q)) ∧
    ∀ cfg d, ws_pool.system.Reaches Any
        (ws_pool.initial (Function.update client d
          (ws_pool.wsp_set_queue_limit (client d) max_msgs max_bytes))) cfg →
      (0 < max_msgs → ((cfg.shared.client d).q.q_msgs : Int) ≤ max_msgs) ∧
      (0 < max_bytes → ((cfg.shared.client d).q.q_bytes : Int) ≤ max_bytes) ∧
      ∀ t data is_binary rest a cfg', cfg.app t = .enqueue_locked d data is_binary :: rest →
        (ws_msg_new data is_binary a.ok).isSome = true → (cfg.shared.client d).stopping = false →
        ws_pool.system.step cfg (.app t a) = some cfg' →
          ∃ acts ret, cfg'.shared.trace d =
              cfg.shared.trace d ++ (acts ++ [.send_returns data.bytes is_binary ret]) ∧
            (ret = .LWS_ERR_QUEUE_FULL ↔
              (0 < max_msgs ∧ max_msgs < (cfg.shared.client d).q.q_msgs + 1) ∨
              (0 < max_bytes ∧
                max_bytes < (cfg.shared.client d).q.q_bytes + data.bytes.length)) ∧
            (ret = .LWS_ERR_QUEUE_FULL → (cfg'.shared.client d).q = (cfg.shared.client d).q) :=
  ⟨fun _ h => ws_client.limits_exact hc hmsgs hmsgs' hbytes hbytes' h,
    fun _ _ h => ws_pool.limits_exact hfresh hmsgs hmsgs' hbytes hbytes' h⟩

/-- A client of v1 queues one message and is about to queue another. -/
def ws_client.second_send : List ws_client.Label :=
  [.call 0 (.enqueue (some { bytes := [104], length_le := one_byte }) false), .app 0 {}, .app 0 {},
    .app 0 {}, .call 0 (.enqueue (some { bytes := [105], length_le := one_byte }) false), .app 0 {}]

/-- Client 0 of a pool does so before it is added. -/
def ws_pool.second_send : List ws_pool.Label :=
  [.call 0 (.enqueue 0 (some { bytes := [104], length_le := one_byte }) false), .app 0 {}, .app 0 {},
    .app 0 {}, .call 0 (.enqueue 0 (some { bytes := [105], length_le := one_byte }) false),
    .app 0 {}]

theorem queue_limits_tight_full :
    (∃ cfg cfg' data, ws_client.system.Reaches Any (ws_client.initial
        (ws_client.wsld_set_queue_limit (ws_client.wsld_create "localhost" 9000 none true) 1 0)) cfg ∧
      ws_client.system.step cfg (.app 0 {}) = some cfg' ∧
      cfg'.shared.trace = cfg.shared.trace ++ [.send_returns data false .LWS_ERR_QUEUE_FULL]) ∧
    ∃ cfg cfg' acts data, ws_pool.system.Reaches Any (ws_pool.initial (Function.update
        ws_pool.fresh_client 0 (ws_pool.wsp_set_queue_limit (ws_pool.fresh_client 0) 1 0))) cfg ∧
      ws_pool.system.step cfg (.app 0 {}) = some cfg' ∧
      cfg'.shared.trace 0 =
        cfg.shared.trace 0 ++ (acts ++ [.send_returns data false .LWS_ERR_QUEUE_FULL]) := by
  have hmsgs : (0 : Int) ≤ 1 := by decide
  have hmsgs' : 1 ≤ INT_MAX := by decide
  have hbytes' : 0 ≤ INT_MAX := by decide
  obtain ⟨hv1, hpool⟩ := queue_limits_tight
    (ws_client.wsld_create_fresh "localhost" 9000 none true)
    (fun _ => ws_pool.wsp_client_create_fresh "localhost" 9000 none true) hmsgs hmsgs' le_rfl hbytes'
  constructor
  · obtain ⟨cfg, hfollows, htop, hone, hstep⟩ : ∃ cfg,
        ws_client.system.Follows Any (ws_client.initial
          (ws_client.wsld_set_queue_limit (ws_client.wsld_create "localhost" 9000 none true) 1 0))
          ws_client.second_send cfg ∧
        cfg.app 0 = [.enqueue_locked { bytes := [105], length_le := one_byte } false] ∧
        cfg.shared.c.q.q_msgs = 1 ∧ (ws_client.system.step cfg (.app 0 {})).isSome = true :=
      System.exists_follows_of_run_eq (g := fun cfg => cfg.app 0) rfl (by decide)
    obtain ⟨cfg', hstep⟩ := Option.isSome_iff_exists.mp hstep
    obtain ⟨_, _, hsend⟩ := hv1 cfg hfollows.reaches
    obtain ⟨ret, htrace, hfull, _⟩ := hsend 0 _ false _ {} cfg' htop rfl hstep
    obtain rfl := hfull.mpr (.inl ⟨by decide, by rw [hone]; decide⟩)
    exact ⟨cfg, cfg', _, hfollows.reaches, hstep, htrace⟩
  · obtain ⟨cfg, hfollows, htop, hone, hstop, hstep⟩ : ∃ cfg,
        ws_pool.system.Follows Any (ws_pool.initial (Function.update ws_pool.fresh_client 0
          (ws_pool.wsp_set_queue_limit (ws_pool.fresh_client 0) 1 0))) ws_pool.second_send cfg ∧
        cfg.app 0 = [.enqueue_locked 0 { bytes := [105], length_le := one_byte } false] ∧
        (cfg.shared.client 0).q.q_msgs = 1 ∧ (cfg.shared.client 0).stopping = false ∧
        (ws_pool.system.step cfg (.app 0 {})).isSome = true :=
      System.exists_follows_of_run_eq (g := fun cfg => cfg.app 0) rfl (by decide)
    obtain ⟨cfg', hstep⟩ := Option.isSome_iff_exists.mp hstep
    obtain ⟨_, _, hsend⟩ := hpool cfg 0 hfollows.reaches
    obtain ⟨acts, ret, htrace, hfull, _⟩ := hsend 0 _ false _ {} cfg' htop rfl hstop hstep
    obtain rfl := hfull.mpr (.inl ⟨by decide, by rw [hone]; decide⟩)
    exact ⟨cfg, cfg', acts, _, hfollows.reaches, hstep, htrace⟩

end lws_client
