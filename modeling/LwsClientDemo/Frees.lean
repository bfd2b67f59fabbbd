import LwsClientDemo.Traffic

namespace lws_client

/-- The message of the node that a call frees. -/
def freed_by : Act → Option Message
  | .free_node payload is_binary | .flush_node payload is_binary => some (payload, is_binary)
  | _ => none

/-- The messages whose nodes were freed, in order. -/
def frees (trace : List Act) : List Message := trace.filterMap freed_by

/-- A node that no flush frees has been handed to `lws_write` right before. -/
def WrittenFirst (trace : List Act) : Prop :=
  ∀ before after payload is_binary, trace = before ++ .free_node payload is_binary :: after →
    ∃ act ∈ before.getLast?, act.frame = some (payload, is_binary)

/-- The node of each send that returned `LWS_OK` has been freed once: after its
    `lws_write` or by a flush. -/
structure FreedOnce (trace : List Act) : Prop where
  once : (frees trace).Perm (accepted trace)
  written_first : WrittenFirst trace

/-- What is freed in a trace is what was written or dropped. -/
structure Tidy (trace : List Act) : Prop where
  frees_eq : frees trace = outcomes trace
  written_first : WrittenFirst trace

/-- Calls that neither write a message nor free a node. -/
def keeps (act : Act) : Bool := act.frame.isNone && (freed_by act).isNone

@[simp] theorem frees_append (xs ys : List Act) : frees (xs ++ ys) = frees xs ++ frees ys :=
  List.filterMap_append

theorem WrittenFirst.append {xs ys : List Act} (hx : WrittenFirst xs) (hy : WrittenFirst ys) :
    WrittenFirst (xs ++ ys) := by
  intro before after payload is_binary heq
  rcases List.append_eq_append_iff.mp heq with ⟨as, rfl, hys⟩ | ⟨bs, hxs, hbs⟩
  · obtain ⟨act, hact, hframe⟩ := hy as after payload is_binary hys
    refine ⟨act, ?_, hframe⟩
    rw [List.getLast?_append, Option.mem_def.mp hact]
    rfl
  · cases bs with
    | nil =>
      obtain ⟨act, hact, _⟩ := hy [] after payload is_binary hbs.symm
      cases hact
    | cons b bs =>
      obtain ⟨rfl, _⟩ := List.cons.inj hbs
      exact hx before bs payload is_binary hxs

theorem Tidy.nil : Tidy [] :=
  ⟨rfl, fun before _ _ _ heq => by simp at heq⟩

theorem Tidy.append {xs ys : List Act} (hx : Tidy xs) (hy : Tidy ys) : Tidy (xs ++ ys) := by
  refine ⟨?_, hx.written_first.append hy.written_first⟩
  rw [frees_append, outcomes_append, hx.frees_eq, hy.frees_eq]

theorem WrittenFirst.of_not_mem {acts : List Act}
    (h : ∀ payload is_binary, Act.free_node payload is_binary ∉ acts) : WrittenFirst acts := by
  rintro before after payload is_binary rfl
  exact absurd (List.mem_append_right _ List.mem_cons_self) (h payload is_binary)

theorem Tidy.of_keeps {acts : List Act} (h : Every keeps acts) : Tidy acts := by
  have hparts : ∀ act ∈ acts, act.frame = none ∧ freed_by act = none := by
    intro act hact
    simpa [keeps] using h act hact
  have hfrees : frees acts = [] :=
    List.filterMap_eq_nil_iff.mpr fun act hact => (hparts act hact).2
  have houtcomes : outcomes acts = [] := by
    refine List.filterMap_eq_nil_iff.mpr fun act hact => ?_
    obtain ⟨hframe, hfreed⟩ := hparts act hact
    rw [hframe]
    cases act with
    | flush_node payload is_binary => cases hfreed
    | _ => rfl
  refine ⟨hfrees.trans houtcomes.symm, .of_not_mem fun payload is_binary hmem => ?_⟩
  cases (hparts _ hmem).2

/-- The messages that are neither written nor dropped are those not freed. -/
theorem Tidy.freed_once_iff {trace : List Act} {ms : List Message} (h : Tidy trace)
    (horder : outcomes trace ++ ms = accepted trace) : FreedOnce trace ↔ ms.length = 0 := by
  have hlength := congrArg List.length horder
  rw [List.length_append] at hlength
  refine ⟨fun honce => ?_, fun hzero => ⟨?_, h.written_first⟩⟩
  · have hsame := honce.once.length_eq
    rw [h.frees_eq] at hsame
    omega
  · obtain rfl := List.length_eq_zero_iff.mp hzero
    rw [h.frees_eq, ← horder, List.append_nil]

theorem write_node_tidy (n : ws_msg_node_t) (w : WsiId) : Tidy (write_node n w) := by
  refine ⟨(write_node_outcome n w).1.symm, ?_⟩
  intro before after payload is_binary heq
  -- The node is freed by the second of the two calls.
  cases before with
  | nil => cases heq
  | cons act before =>
    obtain ⟨rfl, hrest⟩ := List.cons.inj heq
    cases before with
    | nil =>
      cases hrest
      refine ⟨_, rfl, ?_⟩
      obtain ⟨len, is_binary, buf, _, _⟩ := n
      cases is_binary <;> rfl
    | cons b before => simp at hrest

theorem flush_tidy (ns : List ws_msg_node_t) :
    Tidy (ns.map fun n => .flush_node n.payload n.is_binary) := by
  refine ⟨?_, .of_not_mem fun payload is_binary hmem => ?_⟩
  · rw [outcomes_flush, frees, List.filterMap_map]
    exact congrFun (List.filterMap_eq_map (f := ws_msg_node_t.message)) ns
  · obtain ⟨n, _, hn⟩ := List.mem_map.mp hmem
    cases hn

theorem frees_free (ns : List ws_msg_node_t) :
    frees (ns.map fun n => .free_node n.payload n.is_binary) = ns.map ws_msg_node_t.message := by
  rw [frees, List.filterMap_map]
  exact congrFun (List.filterMap_eq_map (f := ws_msg_node_t.message)) ns

theorem accepted_free (ns : List ws_msg_node_t) :
    accepted (ns.map fun n => .free_node n.payload n.is_binary) = [] := by
  simp [accepted, Act.accepted, List.filterMap_map]

end lws_client
