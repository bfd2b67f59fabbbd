import LwsClientDemo.Decisions
import LwsClientDemo.WsPool.Queue

open interleaving

namespace lws_client.ws_pool

/-- The calls that end the life of a client: a stop that has run out of time, a
    stop that has returned, and the release of the client. -/
def Act.milestone : Act → Bool
  | .stop_times_out | .stop_returns | .client_destroy => true
  | _ => false

def Act.stop_returned : Act → Bool
  | .stop_returns => true
  | _ => false

def Act.stop_timed_out : Act → Bool
  | .stop_times_out => true
  | _ => false

/-- The number of times a client has been released. -/
def destroys (trace : List Act) : Nat :=
  trace.countP fun
    | .client_destroy => true
    | _ => false

/-- Calls that are neither a milestone nor a retry. -/
def Act.inner (act : Act) : Bool := !Act.milestone act && !act.retries

/-- For client `d` the section passes no milestone. -/
abbrev Unmarked (s s' : Sys) (d : ClientId) : Prop := Makes (fun act => !Act.milestone act) s s' d

variable {s s' : Sys} {d : ClientId}

@[simp] theorem destroys_append (xs ys : List Act) :
    destroys (xs ++ ys) = destroys xs + destroys ys :=
  List.countP_append

theorem any_stop_returned {trace : List Act} :
    trace.any Act.stop_returned = true ↔ .stop_returns ∈ trace := by
  have hact : ∀ act, Act.stop_returned act = true ↔ act = .stop_returns := fun act => by
    cases act <;> simp [Act.stop_returned]
  simp [hact]

theorem any_stop_timed_out {trace : List Act} :
    trace.any Act.stop_timed_out = false ↔ .stop_times_out ∉ trace := by
  have hact : ∀ act, Act.stop_timed_out act = true ↔ act = .stop_times_out := fun act => by
    cases act <;> simp [Act.stop_timed_out]
  rw [← Bool.not_eq_true]
  simp [hact]

theorem Unmarked.mem_iff (h : Unmarked s s' d) {act : Act} (hact : Act.milestone act = true) :
    act ∈ s'.trace d ↔ act ∈ s.trace d := by
  obtain ⟨acts, htrace, hacts⟩ := h
  rw [htrace, List.mem_append, or_iff_left]
  intro hmem
  have hnot := hacts act hmem
  simp [hact] at hnot

theorem Unmarked.destroys (h : Unmarked s s' d) : destroys (s'.trace d) = destroys (s.trace d) := by
  obtain ⟨acts, htrace, hacts⟩ := h
  have hnone : ws_pool.destroys acts = 0 := by
    rw [ws_pool.destroys, List.countP_eq_zero]
    intro act hact
    have hnot := hacts act hact
    cases act with
    | client_destroy => simp [Act.milestone] at hnot
    | _ => simp
  rw [htrace, destroys_append, hnone, Nat.add_zero]

/-- For client `d` the section passes no milestone and retries nothing. -/
abbrev Inner (s s' : Sys) (d : ClientId) : Prop := Makes Act.inner s s' d

theorem Act.unmarked_of_inner (act : Act) (h : Act.inner act = true) :
    (!Act.milestone act) = true := by
  rw [Act.inner, Bool.and_eq_true] at h
  exact h.1

theorem Inner.unmarked (h : Inner s s' d) : Unmarked s s' d := h.mono Act.unmarked_of_inner

theorem Inner.retries (h : Inner s s' d) : retries (s'.trace d) = retries (s.trace d) := by
  obtain ⟨acts, htrace, hacts⟩ := h
  have hnone : lws_client.retries acts = [] := retries_eq_nil <| hacts.mono fun act hact => by
    rw [Act.inner, Bool.and_eq_true] at hact
    exact hact.2
  rw [htrace, retries_append, hnone, List.append_nil]

/-- The service thread passes no milestone. -/
theorem Act.unmarked_of_svc (act : Act) (h : Act.of_svc act = true) :
    (!Act.milestone act) = true := by
  cases act with
  | stop_times_out | stop_returns | client_destroy => cases h
  | _ => rfl

theorem svc_unmarked {f : Frame} {a : Answer} {fs : List Frame} (h : s.svc f a = some (fs, s'))
    (d : ClientId) : Unmarked s s' d :=
  (svc_makes h d).mono Act.unmarked_of_svc

/-- Nor does a callback, and it retries nothing itself. -/
theorem Act.inner_of_callback (act : Act) (h : Act.of_callback act = true) :
    Act.inner act = true := by
  cases act with
  | stop_times_out | stop_returns | client_destroy | lws_sul_schedule _ => cases h
  | on_reconnect_decision _ _ | lws_client_connect_via_info _ => cases h
  | _ => rfl

theorem deliver_inner {e : Event} {fs : List Frame} (h : s.deliver e = some (fs, s'))
    (d : ClientId) : Inner s s' d := by
  cases deliver_spec h d with
  | receive ho _ htrace => exact ⟨_, htrace, receive_acts (fun _ _ => rfl) (fun _ _ => rfl) ho⟩
  | silent hnone _ _ => exact (deliver_makes h hnone).mono Act.inner_of_callback
  | ping _ _ | dequeue _ _ _ => exact (deliver_makes h rfl).mono Act.inner_of_callback

theorem deliver_unmarked {e : Event} {fs : List Frame} (h : s.deliver e = some (fs, s'))
    (d : ClientId) : Unmarked s s' d :=
  (deliver_inner h d).unmarked

/-- What `wsp_client_destroy` frees before the client. -/
theorem free_unmarked (freed : List ws_msg_node_t) :
    Every (fun act => !Act.milestone act) (freed.map fun n => .free_node n.payload n.is_binary) :=
  .map (fun _ => rfl) freed

/-- The milestones an API call passes for client `d`. -/
inductive Marks (s s' : Sys) (d : ClientId) : AppFrame → Prop where
  | none {f : AppFrame} : Unmarked s s' d → Marks s s' d f
  | times_out : s'.trace d = s.trace d ++ [.stop_times_out] → Marks s s' d (.stop_wait d)
  | returns {acts : List Act} : s'.trace d = s.trace d ++ acts ++ [.stop_returns] →
      Every (fun act => !Act.milestone act) acts → Marks s s' d (.stop_flush d)
  | destroy {acts : List Act} : s'.trace d = s.trace d ++ acts ++ [.client_destroy] →
      Every (fun act => !Act.milestone act) acts → Marks s s' d (.wsp_client_destroy d)
  | destroy_all {snap : List ClientId} {mid : Sys} :
      s.destroy_all s.pool.pending = some mid → s'.trace d = mid.trace d →
        Marks s s' d (.destroy_pending snap)

theorem destroy_client_trace {c : ClientId} (h : s.destroy_client c = some s') (d : ClientId) :
    if d = c then ∃ acts, s'.trace d = s.trace d ++ acts ++ [.client_destroy] ∧
      Every (fun act => !Act.milestone act) acts else s'.trace d = s.trace d := by
  obtain ⟨freed, rfl⟩ := Sys.destroy_client_eq h
  split
  · next hd =>
    subst hd
    exact ⟨_, by simp, free_unmarked freed⟩
  · next hd => simp [hd]

theorem app_marks {f : AppFrame} {a : Answer} {fs : List AppFrame}
    (h : s.app f a = some (fs, s')) (d : ClientId) : Marks s s' d f := by
  cases app_touches h d with
  | none _ htrace hacts =>
    exact .none ⟨_, htrace, every_of_minor hacts (fun _ _ => rfl) (fun _ _ _ => rfl) fun _ => rfl⟩
  | send _ _ _ htrace | add _ htrace | sul_cancel _ htrace =>
    exact .none ⟨_, htrace, Every.single rfl⟩
  | stop _ _ htrace | lock _ _ _ _ htrace => exact .none (.of_eq htrace)
  | wait _ _ htrace =>
    rcases htrace with htrace | htrace
    · exact .none (.of_eq htrace)
    · exact .times_out htrace
  | @flush _ freed _ _ _ htrace =>
    rw [← List.append_assoc] at htrace
    exact .returns htrace (.map (fun _ => rfl) freed)
  | destroy hdestroy =>
    have htrace := destroy_client_trace hdestroy d
    rw [if_pos rfl] at htrace
    obtain ⟨acts, htrace, hacts⟩ := htrace
    exact .destroy htrace hacts
  | destroy_all hdestroy _ htrace => exact .destroy_all hdestroy htrace

/-- The releases made by the last loop of `wsp_pool_destroy`. -/
theorem destroy_all_destroys {cs : List ClientId} (h : s.destroy_all cs = some s') (d : ClientId) :
    destroys (s'.trace d) = destroys (s.trace d) + cs.count d := by
  induction cs generalizing s with
  | nil =>
    cases h
    rfl
  | cons c cs ih =>
    simp only [Sys.destroy_all, Option.bind_eq_some_iff] at h
    obtain ⟨mid, hmid, hrest⟩ := h
    have htrace := destroy_client_trace hmid d
    rw [ih hrest]
    split at htrace
    · next hd =>
      subst hd
      obtain ⟨acts, htrace, hacts⟩ := htrace
      have hnone : Unmarked s { s with trace := fun _ => s.trace d ++ acts } d := ⟨acts, rfl, hacts⟩
      have hlast : destroys [.client_destroy] = 1 := rfl
      rw [htrace, destroys_append, hlast, ← hnone.destroys, List.count_cons_self]
      dsimp only
      omega
    · next hd =>
      rw [htrace, List.count_cons_of_ne (Ne.symm hd)]

theorem destroy_all_mem_iff {cs : List ClientId} (h : s.destroy_all cs = some s') {act : Act}
    (hact : Act.milestone act = true) (hnot : act ≠ .client_destroy) (d : ClientId) :
    act ∈ s'.trace d ↔ act ∈ s.trace d := by
  refine destroy_all_rule (R := fun s t => act ∈ t.trace d ↔ act ∈ s.trace d) (fun _ => Iff.rfl)
    (fun hfirst hrest => hrest.trans hfirst) (fun {s t c} hone => ?_) h
  have htrace := destroy_client_trace hone d
  split at htrace
  · obtain ⟨acts, htrace, hacts⟩ := htrace
    have hsame : Unmarked s { s with trace := fun _ => s.trace d ++ acts } d := ⟨acts, rfl, hacts⟩
    rw [htrace, List.mem_append, List.mem_singleton, or_iff_left hnot]
    exact hsame.mem_iff hact
  · rw [htrace]

/-- A stop returns only from its flush. -/
theorem Marks.returns_iff {f : AppFrame} (h : Marks s s' d f) (hf : f ≠ .stop_flush d) :
    .stop_returns ∈ s'.trace d ↔ .stop_returns ∈ s.trace d := by
  cases h with
  | none hacts => exact hacts.mem_iff rfl
  | times_out htrace => simp [htrace]
  | returns _ _ => exact absurd rfl hf
  | @destroy acts htrace hacts =>
    have hsame : Unmarked s { s with trace := fun _ => s.trace d ++ acts } d := ⟨acts, rfl, hacts⟩
    rw [htrace, List.mem_append, or_iff_left (by simp)]
    exact hsame.mem_iff rfl
  | destroy_all hdestroy htrace => exact htrace ▸ destroy_all_mem_iff hdestroy rfl (by simp) d

theorem Unmarked.grows (h : Unmarked s s' d) : s.trace d <+: s'.trace d := by
  obtain ⟨acts, htrace, _⟩ := h
  exact ⟨acts, htrace.symm⟩

theorem destroy_client_grows {c : ClientId} (h : s.destroy_client c = some s') (d : ClientId) :
    s.trace d <+: s'.trace d := by
  have htrace := destroy_client_trace h d
  split at htrace
  · obtain ⟨acts, htrace, _⟩ := htrace
    rw [htrace, List.append_assoc]
    exact List.prefix_append _ _
  · rw [htrace]

theorem destroy_all_grows {cs : List ClientId} (h : s.destroy_all cs = some s') (d : ClientId) :
    s.trace d <+: s'.trace d :=
  destroy_all_rule (R := fun s t => s.trace d <+: t.trace d) (fun _ => List.prefix_rfl)
    List.IsPrefix.trans (fun hone => destroy_client_grows hone d) h

theorem Marks.grows {f : AppFrame} (h : Marks s s' d f) : s.trace d <+: s'.trace d := by
  cases h with
  | none hacts => exact hacts.grows
  | times_out htrace => exact ⟨_, htrace.symm⟩
  | returns htrace _ | destroy htrace _ => exact ⟨_, by rw [htrace, List.append_assoc]⟩
  | destroy_all hdestroy htrace => exact htrace ▸ destroy_all_grows hdestroy d

/-- A step only adds to the calls made for a client. -/
theorem trace_grows {cfg cfg' : Config} {l : Label} (hmove : system.Moves cfg l cfg')
    (c : ClientId) : cfg.shared.trace c <+: cfg'.shared.trace c := by
  cases hmove with
  | event hdeliver => exact (deliver_unmarked hdeliver c).grows
  | svc hsvc => exact (svc_unmarked hsvc c).grows
  | call _ _ => exact List.prefix_rfl
  | @app t f a s s' svc app rest fs htop happ => exact (app_marks (f := f) (a := a) happ c).grows

theorem Reaches.trace_grows {ok : Config → Label → Prop} {cfg cfg' : Config}
    (h : system.Reaches ok cfg cfg') (c : ClientId) :
    cfg.shared.trace c <+: cfg'.shared.trace c :=
  h.invariant (I := fun mid => cfg.shared.trace c <+: mid.shared.trace c) List.prefix_rfl
    fun _ _ _ _ hmove hbefore => hbefore.trans (ws_pool.trace_grows hmove c)

end lws_client.ws_pool
