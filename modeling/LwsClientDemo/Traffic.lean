import LwsClientDemo.WsInternal

namespace lws_client

/-- A message: its bytes, and whether it is binary. -/
abbrev Message := List UInt8 × Bool

/-- The data frame a call hands to `lws_write`. A PING is none. -/
def Act.frame : Act → Option Message
  | .lws_write _ buf len .LWS_WRITE_TEXT => some (buf.read len, false)
  | .lws_write _ buf len .LWS_WRITE_BINARY => some (buf.read len, true)
  | _ => none

/-- The message a flush frees. -/
def Act.dropped : Act → Option Message
  | .flush_node payload is_binary => some (payload, is_binary)
  | _ => none

/-- The message of a send that returned `LWS_OK`. -/
def Act.accepted : Act → Option Message
  | .send_returns data is_binary .LWS_OK => some (data, is_binary)
  | _ => none

/-- The data frames handed to `lws_write`, in order. -/
def frames (trace : List Act) : List Message := trace.filterMap Act.frame

/-- The messages freed by flushes, in order. -/
def dropped (trace : List Act) : List Message := trace.filterMap Act.dropped

/-- The sends that returned `LWS_OK`, in the order of their locked sections. -/
def accepted (trace : List Act) : List Message := trace.filterMap Act.accepted

/-- What became of messages that left the queue, in order: written or dropped. -/
def outcomes (trace : List Act) : List Message :=
  trace.filterMap fun act => act.frame <|> act.dropped

/-- How often the service thread has been started. -/
def starts (trace : List Act) : Nat := trace.countP fun act => act matches .pthread_create

/-- The number of connect calls. -/
def connects (trace : List Act) : Nat :=
  trace.countP fun act => act matches .lws_client_connect_via_info _

/-- The messages given to `rx_cb`, in order. -/
def deliveries (trace : List Act) : List Message :=
  trace.filterMap fun
    | .rx_cb data is_binary => some (data, is_binary)
    | _ => none

/-- The pointers and lengths handed to `lws_write`. -/
def writes (trace : List Act) : List (Ptr × Nat × lws_write_protocol) :=
  trace.filterMap fun
    | .lws_write _ buf len wp => some (buf, len, wp)
    | _ => none

/-- Calls that neither start the thread, nor accept, write or drop a message. -/
def Act.quiet : Act → Bool
  | .lws_write _ _ _ .LWS_WRITE_TEXT | .lws_write _ _ _ .LWS_WRITE_BINARY => false
  | .flush_node _ _ | .send_returns _ _ .LWS_OK | .pthread_create => false
  | _ => true

/-- Quiet calls that also neither write a PING nor deliver a message. -/
def Act.plain : Act → Bool
  | .lws_write _ _ _ _ | .rx_cb _ _ => false
  | act => act.quiet

/-- Plain calls that also make no connect call. -/
def Act.mute : Act → Bool
  | .lws_client_connect_via_info _ => false
  | act => act.plain

/-- The calls of the two consumers of messages. -/
def Act.delivers : Act → Bool
  | .rx_cb _ _ | .on_message _ _ => true
  | _ => false

/-- Every call of the list has property `p`. -/
def Every (p : Act → Bool) (acts : List Act) : Prop := ∀ act ∈ acts, p act = true

abbrev Quiet (acts : List Act) : Prop := Every Act.quiet acts

abbrev Plain (acts : List Act) : Prop := Every Act.plain acts

abbrev Mute (acts : List Act) : Prop := Every Act.mute acts

@[simp] theorem starts_append (xs ys : List Act) : starts (xs ++ ys) = starts xs + starts ys :=
  List.countP_append

@[simp] theorem connects_append (xs ys : List Act) :
    connects (xs ++ ys) = connects xs + connects ys :=
  List.countP_append

@[simp] theorem frames_append (xs ys : List Act) : frames (xs ++ ys) = frames xs ++ frames ys := by
  simp [frames]

@[simp] theorem dropped_append (xs ys : List Act) :
    dropped (xs ++ ys) = dropped xs ++ dropped ys := by
  simp [dropped]

@[simp] theorem accepted_append (xs ys : List Act) :
    accepted (xs ++ ys) = accepted xs ++ accepted ys := by
  simp [accepted]

@[simp] theorem deliveries_append (xs ys : List Act) :
    deliveries (xs ++ ys) = deliveries xs ++ deliveries ys := by
  simp [deliveries]

@[simp] theorem writes_append (xs ys : List Act) : writes (xs ++ ys) = writes xs ++ writes ys := by
  simp [writes]

@[simp] theorem outcomes_append (xs ys : List Act) :
    outcomes (xs ++ ys) = outcomes xs ++ outcomes ys := by
  simp [outcomes]

theorem Every.nil {p : Act → Bool} : Every p [] := by simp [Every]

theorem Every.append {p : Act → Bool} {xs ys : List Act} (hx : Every p xs) (hy : Every p ys) :
    Every p (xs ++ ys) := by
  intro act hact
  rcases List.mem_append.mp hact with h | h
  · exact hx act h
  · exact hy act h

theorem Every.mono {p q : Act → Bool} {acts : List Act} (h : Every p acts)
    (himp : ∀ act, p act = true → q act = true) : Every q acts :=
  fun act hact => himp act (h act hact)

theorem Every.single {p : Act → Bool} {act : Act} (h : p act = true) : Every p [act] := by
  intro a ha
  obtain rfl : a = act := by simpa using ha
  exact h

theorem Every.pair {p : Act → Bool} {a b : Act} (ha : p a = true) (hb : p b = true) :
    Every p [a, b] := by
  have hfirst : Every p [a] := .single ha
  exact hfirst.append (.single hb)

theorem Every.callIf {p : Act → Bool} {set : Bool} {act : Act} (h : p act = true) :
    Every p (callIf set act) := by
  unfold lws_client.callIf
  split
  · exact .single h
  · exact .nil

theorem Every.onWsi {p : Act → Bool} {wsi : Option WsiId} {act : WsiId → Act}
    (h : ∀ w, p (act w) = true) : Every p (onWsi wsi act) := by
  cases wsi with
  | none => exact .nil
  | some w => exact .single (h w)

/-- The calls made for a list of nodes. -/
theorem Every.map {p : Act → Bool} {f : ws_msg_node_t → Act} (h : ∀ n, p (f n) = true)
    (ns : List ws_msg_node_t) : Every p (ns.map f) := by
  intro act hact
  obtain ⟨n, _, rfl⟩ := List.mem_map.mp hact
  exact h n

/-- The calls in `trace'` behind those of `trace` have the property `p`. -/
def Extends (p : List Act → Prop) (trace trace' : List Act) : Prop :=
  ∃ acts, trace' = trace ++ acts ∧ p acts

theorem Extends.of_eq {p : List Act → Prop} {trace trace' : List Act} (h : trace' = trace)
    (hnil : p []) : Extends p trace trace' :=
  ⟨[], by rw [h, List.append_nil], hnil⟩

theorem Extends.mono {p q : List Act → Prop} {trace trace' : List Act} (h : Extends p trace trace')
    (himp : ∀ acts, p acts → q acts) : Extends q trace trace' := by
  obtain ⟨acts, htrace, hacts⟩ := h
  exact ⟨acts, htrace, himp acts hacts⟩

/-- The calls of two sections, one behind the other. -/
theorem Extends.trans {p : List Act → Prop} {trace trace' trace'' : List Act}
    (happend : ∀ xs ys, p xs → p ys → p (xs ++ ys)) (h : Extends p trace trace')
    (h' : Extends p trace' trace'') : Extends p trace trace'' := by
  obtain ⟨acts, htrace, hacts⟩ := h
  obtain ⟨acts', htrace', hacts'⟩ := h'
  exact ⟨acts ++ acts', by rw [htrace', htrace, List.append_assoc], happend _ _ hacts hacts'⟩

theorem Mute.plain {acts : List Act} (h : Mute acts) : Plain acts := by
  intro act hact
  have hmute := h act hact
  cases act <;> first | exact hmute | cases hmute

theorem Plain.quiet {acts : List Act} (h : Plain acts) : Quiet acts := by
  intro act hact
  have hplain := h act hact
  cases act <;> first | exact hplain | simp [Act.plain] at hplain

theorem Plain.deliveries {acts : List Act} (h : Plain acts) : deliveries acts = [] := by
  rw [lws_client.deliveries, List.filterMap_eq_nil_iff]
  intro act hact
  have hplain := h act hact
  cases act <;> first | rfl | simp [Act.plain] at hplain

theorem Plain.writes {acts : List Act} (h : Plain acts) : writes acts = [] := by
  rw [lws_client.writes, List.filterMap_eq_nil_iff]
  intro act hact
  have hplain := h act hact
  cases act <;> first | rfl | simp [Act.plain] at hplain

theorem writes_of_delivers {acts : List Act} (h : Every Act.delivers acts) : writes acts = [] := by
  rw [lws_client.writes, List.filterMap_eq_nil_iff]
  intro act hact
  have hdelivers := h act hact
  cases act <;> first | rfl | cases hdelivers

theorem Act.quiet_iff (act : Act) : act.quiet = true ↔
    act.frame = none ∧ act.dropped = none ∧ act.accepted = none ∧ act ≠ .pthread_create := by
  cases act with
  | lws_write wsi buf len wp => cases wp <;> simp [Act.quiet, Act.frame, Act.dropped, Act.accepted]
  | send_returns data is_binary ret =>
    cases ret <;> simp [Act.quiet, Act.frame, Act.dropped, Act.accepted]
  | _ => simp [Act.quiet, Act.frame, Act.dropped, Act.accepted]

theorem Quiet.frames {acts : List Act} (h : Quiet acts) : frames acts = [] := by
  rw [lws_client.frames, List.filterMap_eq_nil_iff]
  exact fun act hact => (act.quiet_iff.mp (h act hact)).1

theorem Quiet.dropped {acts : List Act} (h : Quiet acts) : dropped acts = [] := by
  rw [lws_client.dropped, List.filterMap_eq_nil_iff]
  exact fun act hact => (act.quiet_iff.mp (h act hact)).2.1

theorem Quiet.accepted {acts : List Act} (h : Quiet acts) : accepted acts = [] := by
  rw [lws_client.accepted, List.filterMap_eq_nil_iff]
  exact fun act hact => (act.quiet_iff.mp (h act hact)).2.2.1

theorem Quiet.outcomes {acts : List Act} (h : Quiet acts) : outcomes acts = [] := by
  rw [lws_client.outcomes, List.filterMap_eq_nil_iff]
  intro act hact
  obtain ⟨hframe, hdropped, _⟩ := act.quiet_iff.mp (h act hact)
  simp [hframe, hdropped]

theorem Quiet.starts {acts : List Act} (h : Quiet acts) : starts acts = 0 := by
  rw [lws_client.starts, List.countP_eq_zero]
  intro act hact
  have hne := (act.quiet_iff.mp (h act hact)).2.2.2
  cases act <;> simp_all

theorem write_node_outcome (n : ws_msg_node_t) (w : WsiId) :
    outcomes (write_node n w) = [n.message] ∧ frames (write_node n w) = [n.message] ∧
      dropped (write_node n w) = [] ∧ accepted (write_node n w) = [] ∧ starts (write_node n w) = 0 := by
  obtain ⟨len, is_binary, buf, _, _⟩ := n
  cases is_binary <;> exact ⟨rfl, rfl, rfl, rfl, rfl⟩

/-- The queue holds `ns`, and the messages accepted so far are those already
    written or dropped, then the nodes `inflight` taken off the queue and not
    yet written, then `ns`. -/
def Fifo (q : SendQueue) (inflight : List ws_msg_node_t) (trace : List Act) : Prop :=
  ∃ ns, q.Holds ns ∧
    outcomes trace ++ inflight.map ws_msg_node_t.message ++ ns.map ws_msg_node_t.message =
      accepted trace

variable {q : SendQueue} {inflight : List ws_msg_node_t} {trace acts : List Act}

theorem Fifo.empty : Fifo .empty [] [] := ⟨[], SendQueue.empty_holds, rfl⟩

theorem Fifo.skip (h : Fifo q inflight trace) (houtcomes : outcomes acts = [])
    (haccepted : accepted acts = []) : Fifo q inflight (trace ++ acts) := by
  obtain ⟨ns, hholds, horder⟩ := h
  refine ⟨ns, hholds, ?_⟩
  simpa [houtcomes, haccepted] using horder

theorem Fifo.quiet (h : Fifo q inflight trace) (hacts : Quiet acts) :
    Fifo q inflight (trace ++ acts) :=
  h.skip hacts.outcomes hacts.accepted

/-- A send that returns `LWS_OK` puts its message behind all others. -/
theorem Fifo.accept (h : Fifo q inflight trace) {n : ws_msg_node_t} {data : List UInt8}
    {is_binary : Bool} (hmessage : n.message = (data, is_binary)) :
    Fifo (q.append n) inflight (trace ++ [.send_returns data is_binary .LWS_OK]) := by
  obtain ⟨ns, hholds, horder⟩ := h
  refine ⟨ns ++ [n], hholds.append n, ?_⟩
  have hreturn : accepted [.send_returns data is_binary .LWS_OK] = [(data, is_binary)] := rfl
  have hnone : outcomes [.send_returns data is_binary .LWS_OK] = [] := rfl
  simp only [outcomes_append, accepted_append, hreturn, hnone, List.append_nil, List.map_append,
    List.map_cons, List.map_nil, hmessage, ← horder]
  simp

/-- A dequeue takes the oldest message that is still queued. -/
theorem Fifo.take {q' : SendQueue} {n : ws_msg_node_t} (h : Fifo q [] trace)
    (hdequeue : q.dequeue = (some n, q')) : Fifo q' [n] trace := by
  obtain ⟨ns, hholds, horder⟩ := h
  obtain ⟨hhead, hrest⟩ := hholds.dequeue
  rw [hdequeue] at hhead hrest
  cases ns with
  | nil => cases hhead
  | cons m ms =>
    cases hhead
    exact ⟨ms, hrest, by simpa using horder⟩

/-- The dequeued message is the next one handed to `lws_write`. -/
theorem Fifo.write {n : ws_msg_node_t} (h : Fifo q [n] trace)
    (houtcome : outcomes acts = [n.message]) (haccepted : accepted acts = []) :
    Fifo q [] (trace ++ acts) := by
  obtain ⟨ns, hholds, horder⟩ := h
  refine ⟨ns, hholds, ?_⟩
  simpa [houtcome, haccepted] using horder

theorem outcomes_flush (ns : List ws_msg_node_t) :
    outcomes (ns.map fun n => .flush_node n.payload n.is_binary) =
      ns.map ws_msg_node_t.message := by
  rw [outcomes, List.filterMap_map]
  exact congrFun (List.filterMap_eq_map (f := ws_msg_node_t.message)) ns

theorem accepted_flush (ns : List ws_msg_node_t) :
    accepted (ns.map fun n => .flush_node n.payload n.is_binary) = [] := by
  simp [accepted, Act.accepted, List.filterMap_map]

/-- A flush drops what is queued, in order. -/
theorem Fifo.flush {q' : SendQueue} {freed : List ws_msg_node_t} (h : Fifo q [] trace)
    (hflush : ws_flush_queue q = some (freed, q')) :
    Fifo q' [] (trace ++ freed.map fun n => .flush_node n.payload n.is_binary) := by
  obtain ⟨ns, hholds, horder⟩ := h
  obtain ⟨q'', hns, hempty⟩ := hholds.flush
  rw [hflush] at hns
  simp only [Option.some.injEq, Prod.mk.injEq] at hns
  obtain ⟨rfl, rfl⟩ := hns
  refine ⟨[], hempty, ?_⟩
  simpa [outcomes_flush, accepted_flush] using horder

/-- Up to the second start of the service thread the writes come before the
    drops: the flush runs once, when the thread has left its loop. -/
structure SingleRun (trace : List Act) (thread : Thread) : Prop where
  fresh : starts trace = 0 → thread = .none ∧ dropped trace = []
  active : starts trace ≤ 1 → thread = .created ∨ thread = .running → dropped trace = []
  order : starts trace ≤ 1 → outcomes trace = frames trace ++ dropped trace

variable {thread thread' : Thread}

theorem SingleRun.initial : SingleRun [] .none := ⟨fun _ => ⟨rfl, rfl⟩, fun _ _ => rfl, fun _ => rfl⟩

theorem SingleRun.not_fresh (h : SingleRun trace thread) (hthread : thread ≠ .none) :
    starts trace ≠ 0 := fun hzero => hthread (h.fresh hzero).1

/-- Calls that do not count keep it, when the thread does not become active. -/
theorem SingleRun.skip (h : SingleRun trace thread)
    (hacts : outcomes acts = [] ∧ frames acts = [] ∧ dropped acts = [] ∧ starts acts = 0)
    (hnone : thread = .none → thread' = .none)
    (hactive : thread' = .created ∨ thread' = .running → thread = .created ∨ thread = .running) :
    SingleRun (trace ++ acts) thread' := by
  obtain ⟨hfresh, hdropped, horder⟩ := h
  obtain ⟨houtcomes', hframes', hdropped', hstarts'⟩ := hacts
  refine ⟨?_, ?_, ?_⟩
  · intro hzero
    obtain ⟨hthread, hempty⟩ := hfresh (by simpa [hstarts'] using hzero)
    exact ⟨hnone hthread, by simpa [hdropped'] using hempty⟩
  · intro hone hrun
    simpa [hdropped'] using hdropped (by simpa [hstarts'] using hone) (hactive hrun)
  · intro hone
    simpa [houtcomes', hframes', hdropped'] using horder (by simpa [hstarts'] using hone)

theorem SingleRun.quiet (h : SingleRun trace thread) (hacts : Quiet acts)
    (hnone : thread = .none → thread' = .none)
    (hactive : thread' = .created ∨ thread' = .running → thread = .created ∨ thread = .running) :
    SingleRun (trace ++ acts) thread' :=
  h.skip ⟨hacts.outcomes, hacts.frames, hacts.dropped, hacts.starts⟩ hnone hactive

theorem SingleRun.start (h : SingleRun trace .none) :
    SingleRun (trace ++ [.pthread_create]) .created := by
  have hstarts : starts [Act.pthread_create] = 1 := rfl
  have hnone : outcomes [Act.pthread_create] = [] ∧ frames [Act.pthread_create] = [] ∧
      dropped [Act.pthread_create] = [] := ⟨rfl, rfl, rfl⟩
  refine ⟨?_, ?_, ?_⟩
  · intro hzero
    simp [hstarts] at hzero
  · intro hone _
    rw [starts_append, hstarts] at hone
    simpa [hnone.2.2] using (h.fresh (by omega)).2
  · intro hone
    rw [starts_append, hstarts] at hone
    simpa [hnone.1, hnone.2.1, hnone.2.2] using h.order (by omega)

theorem SingleRun.write (h : SingleRun trace .running) {m : Message}
    (houtcomes : outcomes acts = [m]) (hframes : frames acts = [m]) (hdropped : dropped acts = [])
    (hstarts : starts acts = 0) : SingleRun (trace ++ acts) .running := by
  refine ⟨?_, ?_, ?_⟩
  · intro hzero
    rw [starts_append, hstarts] at hzero
    exact absurd hzero (h.not_fresh (by decide))
  · intro hone hrun
    rw [starts_append, hstarts] at hone
    simpa [hdropped] using h.active hone hrun
  · intro hone
    rw [starts_append, hstarts] at hone
    have hempty := h.active hone (.inr rfl)
    have horder := h.order hone
    rw [hempty, List.append_nil] at horder
    simp [houtcomes, hframes, hdropped, horder, hempty]

theorem SingleRun.flush (h : SingleRun trace .running) (ns : List ws_msg_node_t) :
    SingleRun (trace ++ ns.map fun n => .flush_node n.payload n.is_binary) .exited := by
  have hframes : frames (ns.map fun n => .flush_node n.payload n.is_binary) = [] := by
    simp [frames, Act.frame, List.filterMap_map]
  have hstarts : starts (ns.map fun n => .flush_node n.payload n.is_binary) = 0 := by
    simp [starts, List.countP_map]
  have hdropped : dropped (ns.map fun n => .flush_node n.payload n.is_binary) =
      outcomes (ns.map fun n => .flush_node n.payload n.is_binary) := by
    simp [dropped, outcomes, Act.dropped, Act.frame, List.filterMap_map, Function.comp_def]
  refine ⟨?_, by simp, ?_⟩
  · intro hzero
    rw [starts_append, hstarts] at hzero
    exact absurd hzero (h.not_fresh (by decide))
  · intro hone
    rw [starts_append, hstarts] at hone
    rw [outcomes_append, frames_append, dropped_append, h.order hone, hframes, hdropped]
    simp

/-- The queue holds `ns`, and the messages accepted so far are those already
    written, then those `taken` off the queue and not yet written, then those a
    flush has dropped, then `ns`. -/
def InOrder (q : SendQueue) (taken : List ws_msg_node_t) (trace : List Act) : Prop :=
  ∃ ns, q.Holds ns ∧
    frames trace ++ taken.map ws_msg_node_t.message ++ dropped trace ++
      ns.map ws_msg_node_t.message = accepted trace

/-- With nothing taken off the queue and nothing dropped, it holds what is not
    written yet. -/
theorem InOrder.rest {ms : List Message} (h : InOrder q [] trace) (hdropped : dropped trace = [])
    (haccepted : accepted trace = frames trace ++ ms) :
    ∃ ns, q.Holds ns ∧ ns.map ws_msg_node_t.message = ms := by
  obtain ⟨ns, hholds, horder⟩ := h
  refine ⟨ns, hholds, ?_⟩
  rw [haccepted, hdropped] at horder
  simpa using horder

/-- Before the second start nothing is in flight when a flush has been. -/
theorem SingleRun.inOrder (h : SingleRun trace thread) (hfifo : Fifo q inflight trace)
    (hone : starts trace ≤ 1) (hrun : inflight ≠ [] → thread = .running) :
    InOrder q inflight trace := by
  obtain ⟨ns, hholds, horder⟩ := hfifo
  refine ⟨ns, hholds, ?_⟩
  rw [h.order hone] at horder
  by_cases hnone : inflight = []
  · simpa [hnone] using horder
  · have hdropped := h.active hone (.inr (hrun hnone))
    simpa [hdropped] using horder

/-- A pointer lws may put the frame header in front of: `LWS_PRE` bytes into an
    object that may be written, with the payload inside the object. -/
structure HasRoom (buf : Ptr) (len : Nat) : Prop where
  offset : buf.offset = LWS_PRE
  writable : buf.object.writable = true
  size : LWS_PRE + len ≤ buf.object.bytes.length

instance (buf : Ptr) (len : Nat) : Decidable (HasRoom buf len) :=
  decidable_of_iff
    (buf.offset = LWS_PRE ∧ buf.object.writable = true ∧ LWS_PRE + len ≤ buf.object.bytes.length)
    ⟨fun ⟨h₁, h₂, h₃⟩ => ⟨h₁, h₂, h₃⟩, fun ⟨h₁, h₂, h₃⟩ => ⟨h₁, h₂, h₃⟩⟩

theorem ws_msg_node_t.hasRoom (n : ws_msg_node_t) : HasRoom ⟨n.buf, LWS_PRE⟩ n.len :=
  ⟨rfl, n.writable_eq, Nat.le_of_eq n.size_eq.symm⟩

/-- What a data write must satisfy beside its header room: the object was sized
    for exactly this message, and the message is one that was accepted. -/
def Carries (trace : List Act) (buf : Ptr) (len : Nat) (wp : lws_write_protocol) : Prop :=
  wp = .LWS_WRITE_PING ∨ (buf.object.bytes.length = LWS_PRE + len ∧
    (buf.read len, decide (wp = .LWS_WRITE_BINARY)) ∈ accepted trace)

/-- A write has header room, and a data write fills the object it was sized for. -/
def Sized (x : Ptr × Nat × lws_write_protocol) : Prop :=
  HasRoom x.1 x.2.1 ∧ (x.2.2 ≠ .LWS_WRITE_PING → x.1.object.bytes.length = LWS_PRE + x.2.1)

theorem ws_msg_node_t.sized (n : ws_msg_node_t) (wp : lws_write_protocol) :
    Sized (⟨n.buf, LWS_PRE⟩, n.len, wp) :=
  ⟨n.hasRoom, fun _ => n.size_eq⟩

theorem mem_frames {trace : List Act} {buf : Ptr} {len : Nat} {wp : lws_write_protocol}
    (h : (buf, len, wp) ∈ writes trace) (hwp : wp ≠ .LWS_WRITE_PING) :
    (buf.read len, decide (wp = .LWS_WRITE_BINARY)) ∈ frames trace := by
  obtain ⟨act, hact, hwrite⟩ := List.mem_filterMap.mp h
  refine List.mem_filterMap.mpr ⟨act, hact, ?_⟩
  cases act with
  | lws_write wsi buf' len' wp' =>
    simp only [Option.some.injEq, Prod.mk.injEq] at hwrite
    obtain ⟨rfl, rfl, rfl⟩ := hwrite
    cases wp' with
    | LWS_WRITE_TEXT => rfl
    | LWS_WRITE_BINARY => rfl
    | LWS_WRITE_PING => exact absurd rfl hwp
  | _ => simp at hwrite

theorem mem_outcomes {trace : List Act} {m : Message} (h : m ∈ frames trace) :
    m ∈ outcomes trace := by
  obtain ⟨act, hact, hframe⟩ := List.mem_filterMap.mp h
  exact List.mem_filterMap.mpr ⟨act, hact, by simp [hframe]⟩

/-- Every frame that was written is a message that was accepted. -/
theorem Fifo.accepted_of_frame {q : SendQueue} {inflight : List ws_msg_node_t} {trace : List Act}
    (h : Fifo q inflight trace) {m : Message} (hm : m ∈ frames trace) : m ∈ accepted trace := by
  obtain ⟨ns, _, horder⟩ := h
  rw [← horder, List.append_assoc]
  exact List.mem_append_left _ (mem_outcomes hm)

end lws_client
