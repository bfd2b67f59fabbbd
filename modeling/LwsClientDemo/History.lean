import LwsClientDemo.TwoRuns
import LwsClientDemo.Alike
import LwsClientDemo.Fragment
import LwsClientDemo.Reassembly

namespace lws_client

/-- What a client is given on an open connection, whatever the connection: a
    callback, the wakeup of its service loop, a later section of a callback with
    its answer, and the locked section of a send. -/
inductive Stimulus where
  | callback (reason : Reason) (a : Answer)
  | event_wait_cancelled (wsi : Bool)
  | visit
  | section (a : Answer)
  | send (data : Data) (is_binary ok : Bool)

/-- Callbacks of an open connection up to its end. -/
def opened : Reason → Bool
  | .CLIENT_RECEIVE _ | .CLIENT_WRITEABLE | .TIMER | .CLIENT_RECEIVE_PONG | .CLIENT_CLOSED
  | .WSI_DESTROY => true
  | _ => false

/-- Calls of lws on behalf of the connection, and of the user's callback and hooks. -/
def Act.observed : Act → Bool
  | .lws_write _ _ _ _ | .lws_callback_on_writable _ | .lws_set_timer_usecs _ _
  | .lws_close_reason _ | .lws_sul_schedule _ | .lws_client_connect_via_info _ => true
  | .rx_cb _ _ | .conn_cb _ | .err_cb _ | .on_connected | .on_disconnected | .on_error _
  | .on_message _ _ | .on_heartbeat_tick | .on_reconnect_decision _ _ | .on_handshake_header _ => true
  | _ => false

/-- What a step shows: a call, a returned value, or how long after the loss the
    client that polls its clock reconnects. -/
inductive Shown where
  | seen (x : Seen)
  | reconnect (delay_ms : Int)

def shown (acts : List Act) : List Shown := (seen (acts.filter Act.observed)).map .seen

@[simp] theorem shown_append (xs ys : List Act) : shown (xs ++ ys) = shown xs ++ shown ys := by
  simp [shown]

@[simp] theorem shown_nil : shown [] = [] := rfl

/-- The write of a node is shown by its message alone. -/
theorem shown_write {n n' : ws_msg_node_t} (h : n.message = n'.message) (w w' : WsiId)
    (wp : Bool → lws_write_protocol) :
    shown [.lws_write w ⟨n.buf, LWS_PRE⟩ n.len (wp n.is_binary), .free_node n.payload n.is_binary] =
      shown [.lws_write w' ⟨n'.buf, LWS_PRE⟩ n'.len (wp n'.is_binary),
        .free_node n'.payload n'.is_binary] := by
  have hseen := seen_write h w w' wp
  simp only [seen, List.map_cons, List.cons.injEq] at hseen
  exact congrArg (fun x => [Shown.seen x]) hseen.1

/-- A callback whose outcome is known to be 0. -/
theorem returned_zero {γ : Type} {o : Option (Out γ)} (h : o.any (fun o => o.ret == 0) = true) :
    (o.toList.map fun o => Seen.returned o.ret) = [.returned 0] := by
  obtain ⟨o, rfl, hzero⟩ := (Option.any_eq_true _ _).mp h
  simp [beq_iff_eq.mp hzero]

/-- The chunks received, in order. -/
def chunks (given : List Stimulus) : List Chunk :=
  given.filterMap fun
    | .callback (.CLIENT_RECEIVE chunk) _ => some chunk
    | _ => none

/-- The first chunk that is not a message by itself begins one. -/
def BeginsFirst (given : List Stimulus) : Prop :=
  ∀ k ∈ (chunks given).find? fun k => !k.whole, k.is_first_fragment = true

/-- The buffers hold the same, or have not been used yet. -/
def SameBuffer (given : List Stimulus) (f f' : ws_frag_buf_t) : Prop :=
  (∀ k ∈ chunks given, k.whole = true) ∨ f.contents = f'.contents

variable {given : List Stimulus} {x : Stimulus} {f f' : ws_frag_buf_t} {chunk : Chunk} {a : Answer}

theorem chunks_snoc (given : List Stimulus) (x : Stimulus) :
    chunks (given ++ [x]) = chunks given ++ chunks [x] :=
  List.filterMap_append

theorem BeginsFirst.init (h : BeginsFirst (given ++ [x])) : BeginsFirst given := by
  intro k hk
  refine h k ?_
  rw [chunks_snoc, List.find?_append, Option.mem_def.mp hk, Option.some_or]
  rfl

theorem SameBuffer.symm (h : SameBuffer given f f') : SameBuffer given f' f :=
  h.imp id Eq.symm

/-- What is no chunk, or a chunk that goes past the buffer. -/
theorem SameBuffer.pass (h : SameBuffer given f f') (hx : ∀ k ∈ chunks [x], k.whole = true) :
    SameBuffer (given ++ [x]) f f' := by
  refine h.imp (fun hall k hk => ?_) id
  rw [chunks_snoc, List.mem_append] at hk
  exact hk.elim (hall k) (hx k)

/-- A chunk that is appended: to buffers that hold the same, or as the first one
    of its message. -/
theorem SameBuffer.append {g g' : ws_frag_buf_t} {ok ok' : Bool} (h : SameBuffer given f f')
    (hfirst : BeginsFirst (given ++ [.callback (.CLIENT_RECEIVE chunk) a])) (hwhole : chunk.whole = false)
    (hg : ws_frag_append (if chunk.is_first_fragment then f.reset else f) chunk.data ok = some (0, g))
    (hg' : ws_frag_append (if chunk.is_first_fragment then f'.reset else f') chunk.data ok' =
      some (0, g')) : g.contents = g'.contents := by
  rw [ws_frag_append_contents hg, ws_frag_append_contents hg']
  split
  · rfl
  · next hnot =>
    rcases h with hall | hsame
    · -- The first chunk that is not a whole message begins none.
      refine absurd (hfirst chunk ?_) hnot
      have hnone : (chunks given).find? (fun k => !k.whole) = none := by
        rw [List.find?_eq_none]
        intro k hk
        simp [hall k hk]
      rw [chunks_snoc, List.find?_append, hnone, Option.none_or]
      simp [chunks, hwhole]
    · rw [hsame]

end lws_client
