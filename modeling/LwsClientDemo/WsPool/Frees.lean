import Mathlib.Data.List.Perm.Basic
import LwsClientDemo.Frees
import LwsClientDemo.WsPool.Milestones
import LwsClientDemo.WsPool.Queue

open interleaving

namespace lws_client.ws_pool

/-- The message of a node that is allocated for a send to client `d` which is
    then refused. -/
def declined_by (d : ClientId) (s : Sys) (a : Answer) : AppFrame → List Message
  | .enqueue_locked c data is_binary =>
    if c = d ∧ (enqueue_locked (s.client c) data is_binary a.ok).1 ≠ .LWS_OK ∧
        (ws_msg_new data is_binary a.ok).isSome then
      [(data.bytes, is_binary)]
    else []
  | _ => []

/-- The refused sends of a run that had allocated a node. -/
def declined (d : ClientId) (cfg : Config) : Label → List Message
  | .app t a => (cfg.app t).head?.toList.flatMap (declined_by d cfg.shared a)
  | _ => []

section ledger

variable {d : ClientId} {s s' : Sys} {extra : List Message}

/-- The section frees the nodes of the messages it writes or drops, and of `extra`. -/
def Frees (d : ClientId) (extra : List Message) (s s' : Sys) : Prop :=
  Extends (fun acts => destroys acts = 0 ∧ frees acts = frames acts ++ dropped acts ++ extra)
    (s.trace d) (s'.trace d)

theorem Frees.of_eq (h : s'.trace d = s.trace d) : Frees d [] s s' := Extends.of_eq h ⟨rfl, rfl⟩

/-- Calls that leave every node alone, and the client. -/
def Act.leaves : Act → Bool
  | .lws_write _ _ _ .LWS_WRITE_PING => true
  | .lws_write _ _ _ _ | .free_node _ _ | .flush_node _ _ | .client_destroy => false
  | _ => true

theorem leaves_free {acts : List Act} (h : Every Act.leaves acts) :
    destroys acts = 0 ∧ frees acts = [] ∧ frames acts = [] ∧ dropped acts = [] := by
  refine ⟨List.countP_eq_zero.mpr fun act hact => ?_, ?_, ?_, ?_⟩
  · have hleaves := h act hact
    cases act with
    | client_destroy => cases hleaves
    | _ => simp
  all_goals
    refine List.filterMap_eq_nil_iff.mpr fun act hact => ?_
    have hleaves := h act hact
    cases act with
    | lws_write _ _ _ wp => cases wp <;> first | rfl | cases hleaves
    | _ => first | rfl | cases hleaves

theorem Frees.leaves (h : Makes Act.leaves s s' d) : Frees d [] s s' := by
  obtain ⟨acts, htrace, hacts⟩ := h
  obtain ⟨hzero, hfrees, hframes, hdropped⟩ := leaves_free hacts
  exact ⟨acts, htrace, hzero, by rw [hfrees, hframes, hdropped]; rfl⟩

theorem Frees.act {c : ClientId} {r : wsp_client × List Act} (hzero : destroys r.2 = 0)
    (hfrees : frees r.2 = frames r.2 ++ dropped r.2) (d : ClientId) : Frees d [] s (s.act c r) := by
  by_cases hd : d = c
  · subst hd
    exact ⟨r.2, by simp, hzero, by rw [hfrees, List.append_nil]⟩
  · exact .of_eq (by simp [hd])

theorem writeable_write_frees (n : ws_msg_node_t) (w : WsiId) :
    destroys (writeable_write n w) = 0 ∧
      frees (writeable_write n w) = frames (writeable_write n w) ++ dropped (writeable_write n w) := by
  obtain ⟨_, hframes, hdropped, _⟩ := write_node_outcome n w
  rw [hframes, hdropped]
  exact ⟨rfl, rfl⟩

theorem callback_frees {c : ClientId} {w : WsiId} {a : Answer} {r : Reason} {fs : List Frame}
    (h : s.callback c w a r = some (fs, s')) (d : ClientId) : Frees d [] s s' := by
  cases hchunk : (Event.callback c w r a).receives d with
  | none =>
    refine .leaves ((callback_makes h hchunk).mono fun act hact => ?_)
    cases act with
    | lws_write _ _ _ wp => cases wp <;> first | rfl | cases hact
    | _ => first | rfl | cases hact
  | some chunk =>
    cases r with
    | CLIENT_RECEIVE chunk =>
      simp only [Sys.callback, Option.map_eq_some_iff, Prod.mk.injEq] at h
      obtain ⟨o, ho, rfl, rfl⟩ := h
      have hmakes : Makes Act.leaves s (s.act c (o.client, o.acts)) d :=
        .act (receive_acts (fun _ _ => rfl) (fun _ _ => rfl) ho) d
      split <;> exact .leaves hmakes
    | _ => cases hchunk

theorem deliver_frees {e : Event} {fs : List Frame} (h : s.deliver e = some (fs, s'))
    (d : ClientId) : Frees d [] s s' := by
  cases e with
  | callback c w r a =>
    simp only [Sys.deliver, Option.ite_none_right_eq_some] at h
    exact callback_frees h.2 d
  | sul_reconnect_cb c =>
    simp only [Sys.deliver, Option.ite_none_right_eq_some, Option.some.injEq, Prod.mk.injEq] at h
    obtain ⟨_, _, rfl⟩ := h
    exact .act rfl rfl d
  | service_thread | event_wait_cancelled _ | exit | context_destroyed =>
    simp only [Sys.deliver, Option.ite_none_right_eq_some, Option.some.injEq, Prod.mk.injEq] at h
    obtain ⟨_, _, rfl⟩ := h
    exact .of_eq rfl

theorem svc_frees {f : Frame} {a : Answer} {fs : List Frame} (h : s.svc f a = some (fs, s'))
    (d : ClientId) : Frees d [] s s' := by
  cases f with
  | do_connect c =>
    have hconnect : Frees d [] s (s.act c ({ s.client c with state := .STATE_CONNECTING },
        [.lws_client_connect_via_info (connect_info (s.client c))])) := .act rfl rfl d
    simp only [Sys.svc] at h
    split at h <;> cases h <;> exact hconnect
  | connection_error c msg =>
    cases h
    exact .leaves (.act (connection_error_acts (fun _ => rfl) rfl _ msg) d)
  | schedule_arm c =>
    cases h
    exact .leaves (.act (schedule_reconnect_acts (fun _ _ => rfl) (fun _ => rfl) _ a.ret) d)
  | lws_callback_on_writable c w | wsi_destroy c w | connect_return c w =>
    cases h
    exact .act rfl rfl d
  | write c w n more =>
    obtain ⟨hzero, hfrees⟩ := writeable_write_frees n w
    have hwrite : Frees d [] s (s.act c (s.client c, writeable_write n w)) := .act hzero hfrees d
    simp only [Sys.svc] at h
    split at h <;> cases h <;> exact hwrite
  | wc_connect pend =>
    cases pend <;> cases h
    · exact .of_eq rfl
    · exact .act rfl rfl d
  | wc_visit snap =>
    cases snap with
    | nil =>
      cases h
      exact .of_eq rfl
    | cons c snap =>
      simp only [Sys.svc] at h
      split at h
      · cases h
        exact .of_eq rfl
      · split at h
        · cases h
          exact .act rfl rfl d
        · split at h <;> cases h <;> exact .of_eq rfl
  | schedule_reconnect _ | has_data_check _ _ | event_wait_cancelled | wc_snapshot =>
    cases h
    exact .of_eq rfl

/-- The releases of client `d` that a section makes: the first of them frees what
    is queued. -/
structure Releases (d : ClientId) (s s' : Sys) (acts : List Act) : Prop where
  client : s'.client d = s.client d
  trace : s'.trace d = s.trace d ++ acts
  frames : frames acts = []
  dropped : dropped acts = []
  accepted : accepted acts = []
  none : destroys acts = 0 → frees acts = []
  once : destroys acts = 1 → ∃ freed q, ws_flush_queue (s.client d).q = some (freed, q) ∧
    frees acts = freed.map ws_msg_node_t.message

theorem Releases.refl (s : Sys) : Releases d s s [] :=
  ⟨rfl, (List.append_nil _).symm, rfl, rfl, rfl, fun _ => rfl, fun h => by cases h⟩

theorem Releases.trans {s'' : Sys} {acts acts' : List Act} (h : Releases d s s' acts)
    (h' : Releases d s' s'' acts') : Releases d s s'' (acts ++ acts') := by
  refine ⟨h'.client.trans h.client, by rw [h'.trace, h.trace, List.append_assoc],
    by rw [frames_append, h.frames, h'.frames]; rfl,
    by rw [dropped_append, h.dropped, h'.dropped]; rfl,
    by rw [accepted_append, h.accepted, h'.accepted]; rfl, fun hzero => ?_, fun hone => ?_⟩
  · rw [destroys_append] at hzero
    rw [frees_append, h.none (by omega), h'.none (by omega)]
    rfl
  · rw [destroys_append] at hone
    rcases Nat.eq_zero_or_pos (destroys acts) with hzero | hpos
    · obtain ⟨freed, q, hflush, hfrees⟩ := h'.once (by omega)
      exact ⟨freed, q, h.client ▸ hflush, by rw [frees_append, h.none hzero, hfrees]; rfl⟩
    · obtain ⟨freed, q, hflush, hfrees⟩ := h.once (by omega)
      exact ⟨freed, q, hflush, by rw [frees_append, hfrees, h'.none (by omega), List.append_nil]⟩

theorem free_none {f : Act → Option Message} (freed : List ws_msg_node_t)
    (hnode : ∀ payload is_binary, f (.free_node payload is_binary) = none)
    (hdestroy : f .client_destroy = none) :
    (freed.map (fun n : ws_msg_node_t => Act.free_node n.payload n.is_binary) ++
      [Act.client_destroy]).filterMap f = [] := by
  refine List.filterMap_eq_nil_iff.mpr fun act hact => ?_
  simp only [List.mem_append, List.mem_map, List.mem_singleton] at hact
  rcases hact with ⟨n, _, rfl⟩ | rfl
  · exact hnode _ _
  · exact hdestroy

theorem destroy_client_releases {c : ClientId} (h : s.destroy_client c = some s') (d : ClientId) :
    ∃ acts, Releases d s s' acts := by
  simp only [Sys.destroy_client, Option.map_eq_some_iff] at h
  obtain ⟨⟨freed, q⟩, hflush, rfl⟩ := h
  by_cases hd : d = c
  · subst hd
    refine ⟨freed.map (fun n : ws_msg_node_t => Act.free_node n.payload n.is_binary) ++
      [Act.client_destroy], by simp, by simp, free_none freed (f := Act.frame) (fun _ _ => rfl) rfl,
      free_none freed (f := Act.dropped) (fun _ _ => rfl) rfl,
      free_none freed (f := Act.accepted) (fun _ _ => rfl) rfl, fun hzero => ?_,
      fun _ => ⟨freed, q, hflush, ?_⟩⟩
    · rw [destroys_append] at hzero
      have hlast : destroys [.client_destroy] = 1 := rfl
      omega
    · rw [frees_append, frees_free]
      exact List.append_nil _
  · exact ⟨[], by simp [hd], by simp [hd], rfl, rfl, rfl, fun _ => rfl, fun h => by cases h⟩

theorem destroy_all_releases {cs : List ClientId} (h : s.destroy_all cs = some s') (d : ClientId) :
    ∃ acts, Releases d s s' acts := by
  refine destroy_all_rule (R := fun s t => ∃ acts, Releases d s t acts) (fun s => ⟨[], .refl s⟩)
    (fun ⟨_, hfirst⟩ ⟨_, hrest⟩ => ⟨_, hfirst.trans hrest⟩)
    (fun hone => destroy_client_releases hone d) h

/-- A refused send frees the node it had allocated. -/
theorem enqueue_frees (c : ClientId) (data : Data) (is_binary : Bool) (a : Answer)
    (d : ClientId) : Frees d (declined_by d s a (.enqueue_locked c data is_binary)) s
      (s.act c ((enqueue_locked (s.client c) data is_binary a.ok).2.1,
        (enqueue_locked (s.client c) data is_binary a.ok).2.2 ++
          [.send_returns data.bytes is_binary
            (enqueue_locked (s.client c) data is_binary a.ok).1])) := by
  by_cases hd : c = d
  · subst hd
    refine ⟨(enqueue_locked (s.client c) data is_binary a.ok).2.2 ++ [.send_returns data.bytes
      is_binary (enqueue_locked (s.client c) data is_binary a.ok).1], by simp, ?_⟩
    simp only [declined_by, true_and]
    cases hnew : ws_msg_new data is_binary a.ok with
    | none =>
      simp only [enqueue_locked, hnew]
      exact ⟨rfl, rfl⟩
    | some n =>
      have hfreed : frees [.free_node n.payload n.is_binary] = [(data.bytes, is_binary)] :=
        congrArg (fun m => [m]) (ws_msg_new_message hnew).1
      simp only [enqueue_locked, hnew]
      split
      · exact ⟨rfl, hfreed⟩
      · split
        · exact ⟨rfl, hfreed⟩
        · exact ⟨rfl, rfl⟩
  · rw [declined_by, if_neg (by simp [hd])]
    exact .of_eq (by simp [Ne.symm hd])

/-- The flush of a stop drops what it frees. -/
theorem flush_frees (freed : List ws_msg_node_t) :
    destroys (freed.map (fun n => .flush_node n.payload n.is_binary) ++ [.stop_returns]) = 0 ∧
      frees (freed.map (fun n => .flush_node n.payload n.is_binary) ++ [.stop_returns]) =
        frames (freed.map (fun n => .flush_node n.payload n.is_binary) ++ [.stop_returns]) ++
          dropped (freed.map (fun n => .flush_node n.payload n.is_binary) ++ [.stop_returns]) := by
  refine ⟨List.countP_eq_zero.mpr fun act hact => ?_, ?_⟩
  · simp only [List.mem_append, List.mem_map, List.mem_singleton] at hact
    rcases hact with ⟨n, _, rfl⟩ | rfl <;> simp
  · simp [frees, frames, dropped, freed_by, Act.frame, Act.dropped, List.filterMap_append,
      List.filterMap_map, Function.comp_def]
    rfl

/-- A section frees the nodes of the messages it writes, drops or refuses, or it
    releases clients. -/
theorem app_frees {f : AppFrame} {a : Answer} {fs : List AppFrame}
    (h : s.app f a = some (fs, s')) (d : ClientId) :
    Frees d (declined_by d s a f) s s' ∨
      (declined_by d s a f = [] ∧ ∃ acts, Releases d s s' acts) := by
  cases f with
  | enqueue_locked c data is_binary =>
    cases h
    exact .inl (enqueue_frees c data is_binary a d)
  | wsp_client_destroy c =>
    simp only [Sys.app, Option.map_eq_some_iff, Prod.mk.injEq] at h
    obtain ⟨s', hdestroy, _, rfl⟩ := h
    exact .inr ⟨rfl, destroy_client_releases hdestroy d⟩
  | destroy_pending snap =>
    simp only [Sys.app, Option.map_eq_some_iff, Prod.mk.injEq] at h
    obtain ⟨mid, hdestroy, _, rfl⟩ := h
    obtain ⟨acts, hreleases⟩ := destroy_all_releases hdestroy d
    exact .inr ⟨rfl, acts, { hreleases with }⟩
  | stop_flush c =>
    simp only [Sys.app, Option.map_eq_some_iff, Prod.mk.injEq] at h
    obtain ⟨⟨freed, q⟩, _, _, rfl⟩ := h
    exact .inl (.act (flush_frees freed).1 (flush_frees freed).2 d)
  | enqueue c data is_binary =>
    cases data <;> cases h
    · exact .inl (.act rfl rfl d)
    · exact .inl (.of_eq rfl)
  | wsp_pool_add c =>
    simp only [Sys.app] at h
    split at h <;> cases h
    · exact .inl (.act rfl rfl d)
    · exact .inl (.of_eq rfl)
  | pool_add_locked c =>
    simp only [Sys.app] at h
    split at h
    · cases h
    · split at h <;> cases h
      · exact .inl (.act rfl rfl d)
      · exact .inl (.act (s := s.setPool _) rfl rfl d)
  | wsp_client_stop c =>
    simp only [Sys.app] at h
    split at h <;> cases h
    · exact .inl (.of_eq rfl)
    · exact .inl (.act rfl rfl d)
  | stop_sul_cancel c =>
    simp only [Sys.app, Option.some.injEq, Prod.mk.injEq] at h
    obtain ⟨_, rfl⟩ := h
    split
    · exact .inl (.act rfl rfl d)
    · exact .inl (.of_eq rfl)
  | stop_locked c =>
    simp only [Sys.app] at h
    split at h
    · split at h <;> cases h
      · exact .inl (.of_eq rfl)
      · exact .inl (.act (s := s.cancel) rfl rfl d)
    · cases h
      exact .inl (.act rfl rfl d)
  | stop_wait c =>
    simp only [Sys.app] at h
    split at h
    · cases h
      exact .inl (.act rfl rfl d)
    · split at h
      · cases h
      · split at h <;> cases h
        · exact .inl (.of_eq rfl)
        · exact .inl (.act rfl rfl d)
  | wsp_pool_start | start_thread | destroy_thread | destroy_context =>
    simp only [Sys.app] at h
    split at h <;> cases h <;> exact .inl (.of_eq rfl)
  | destroy_cancel =>
    simp only [Sys.app, Option.some.injEq, Prod.mk.injEq] at h
    obtain ⟨_, rfl⟩ := h
    split <;> exact .inl (.of_eq rfl)
  | destroy_join | destroy_context_return =>
    simp only [Sys.app, Option.ite_none_right_eq_some, Option.some.injEq, Prod.mk.injEq] at h
    obtain ⟨_, _, rfl⟩ := h
    exact .inl (.of_eq rfl)
  | destroy_stop snap | destroy_clients snap => cases snap <;> cases h <;> exact .inl (.of_eq rfl)
  | enqueue_wake _ | lws_cancel_service _ | pool_add_wake | start_return | start_pending |
    start_cancel | wsp_pool_destroy =>
    cases h
    exact .inl (.of_eq rfl)

end ledger

section runs

variable {cfg cfg' : Config} {ls : List Label} {l : Label} {d : ClientId}

/-- Until its release, the nodes freed for client `d` are those of the messages
    written, dropped and refused. -/
def Ledger (d : ClientId) (refused : List Message) (s : Sys) : Prop :=
  destroys (s.trace d) = 0 →
    (frees (s.trace d)).Perm (frames (s.trace d) ++ dropped (s.trace d) ++ refused)

theorem Frees.ledger {s s' : Sys} {extra refused : List Message} (h : Frees d extra s s')
    (hbefore : Ledger d refused s) : Ledger d (refused ++ extra) s' := by
  obtain ⟨acts, htrace, hnone, hfrees⟩ := h
  intro hzero
  rw [htrace, destroys_append, hnone, Nat.add_zero] at hzero
  rw [htrace, frees_append, frames_append, dropped_append, hfrees]
  refine List.perm_iff_count.mpr fun m => ?_
  have hcount := (hbefore hzero).count_eq m
  simp only [List.count_append] at hcount ⊢
  omega

theorem Releases.ledger {s s' : Sys} {acts : List Act} {refused : List Message}
    (h : Releases d s s' acts) (hbefore : Ledger d refused s) : Ledger d refused s' := by
  intro hzero
  rw [h.trace, destroys_append] at hzero
  rw [h.trace, frees_append, frames_append, dropped_append, h.frames, h.dropped,
    h.none (by omega)]
  simpa using hbefore (by omega)

theorem ledger_step {refused : List Message} (hmove : system.Moves cfg l cfg')
    (h : Ledger d refused cfg.shared) : Ledger d (refused ++ declined d cfg l) cfg'.shared := by
  cases hmove with
  | event hdeliver => exact (deliver_frees hdeliver d).ledger h
  | svc hsvc => exact (svc_frees hsvc d).ledger h
  | call _ _ => exact (Frees.of_eq rfl).ledger h
  | @app t f a s s' svc app rest fs htop happ =>
    have hdeclined : declined d ⟨s, svc, app⟩ (.app t a) = declined_by d s a f := by
      simp [declined, htop]
    rw [hdeclined]
    rcases app_frees happ d with hfrees | ⟨hnone, acts, hreleases⟩
    · exact hfrees.ledger h
    · rw [hnone, List.append_nil]
      exact hreleases.ledger h

theorem Follows.ledger {client : ClientId → wsp_client}
    (h : system.Follows Any (initial client) ls cfg) :
    Ledger d (system.observe (declined d) (initial client) ls) cfg.shared :=
  h.observed (I := fun refused mid => Ledger d refused mid.shared) (J := fun _ => True)
    (fun _ _ => trivial) (fun _ => .refl _) fun _ _ _ _ _ _ hmove => ledger_step hmove

/-- When the first release of client `d` ends, the node that each of its sends
    allocated, whether the send was accepted or refused, has been freed once, except
    for the one that the service thread holds between its dequeue and its write. -/
theorem release_frees_all {client : ClientId → wsp_client} (hfresh : ∀ c, (client c).Fresh)
    (h : system.Follows Any (initial client) ls cfg) (hstep : system.step cfg l = some cfg')
    (halive : destroys (cfg.shared.trace d) = 0) (hreleased : destroys (cfg'.shared.trace d) = 1) :
    (frees (cfg'.shared.trace d) ++ (inflight d cfg'.svc).map ws_msg_node_t.message).Perm
      (accepted (cfg'.shared.trace d) ++ system.observe (declined d) (initial client) ls) := by
  have hmove := System.step_moves hstep
  have hledger := Follows.ledger h halive
  obtain ⟨ns, hholds, horder, _⟩ := Reaches.ordered hfresh h.reaches d
  have hkept : ∀ {extra}, Frees d extra cfg.shared cfg'.shared → False := by
    rintro extra ⟨acts, htrace, hnone, _⟩
    rw [htrace, destroys_append] at hreleased
    omega
  cases hmove with
  | event hdeliver => exact absurd (deliver_frees hdeliver d) hkept
  | svc hsvc => exact absurd (svc_frees hsvc d) hkept
  | call _ _ => exact absurd (.of_eq rfl) hkept
  | @app t f a s s' svc app rest fs htop happ =>
    rcases app_frees happ d with hfrees | ⟨_, acts, hreleases⟩
    · exact absurd hfrees hkept
    · dsimp only at *
      rw [hreleases.trace, destroys_append] at hreleased
      obtain ⟨freed, q, hflush, hfrees⟩ := hreleases.once (by omega)
      obtain ⟨q', hns, _⟩ := hholds.flush
      rw [hflush, Option.some.injEq, Prod.mk.injEq] at hns
      obtain ⟨rfl, _⟩ := hns
      rw [hreleases.trace, frees_append, accepted_append, hreleases.accepted, hfrees, ← horder]
      refine List.perm_iff_count.mpr fun m => ?_
      have hcount := hledger.count_eq m
      simp only [List.count_append, List.append_nil] at hcount ⊢
      omega

def send (c : ClientId) (payload : UInt8) : List Label :=
  [.call 1 (.enqueue c (some ⟨[payload], one_byte⟩) false), .app 1 {}, .app 1 {}, .app 1 {},
    .app 1 {}]

/-- Of three messages one is written, and one is taken off the queue and not yet
    written when a stop runs out of time. The stop flushes the third one, and a
    fourth one is refused. -/
def release_run : List Label :=
  connected_run ++ send 0 104 ++ send 0 105 ++ send 0 106 ++
  [.event (.event_wait_cancelled true), .svc {}, .svc {}, .svc {}, .svc {}, .svc {}, .svc {}, .svc {},
    .event (.callback 0 0 .CLIENT_WRITEABLE {}), .svc {}, .svc {},
    .event (.callback 0 0 .CLIENT_WRITEABLE {}),
    .call 2 (.wsp_client_stop 0), .app 2 {}, .app 2 {}, .app 2 {}, .app 2 { timeout := true },
    .app 2 {}] ++
  (send 0 107).take 3 ++ [.call 2 (.wsp_client_destroy 0)]

theorem release_frees_all_run : ∃ cfg : Config,
    frames (cfg.shared.trace 0) = [([104], false)] ∧
    (inflight 0 cfg.svc).map ws_msg_node_t.message = [([105], false)] ∧
    dropped (cfg.shared.trace 0) = [([106], false)] ∧
    system.observe (declined 0) (initial fresh_client) release_run = [([107], false)] ∧
    (frees (cfg.shared.trace 0) ++ (inflight 0 cfg.svc).map ws_msg_node_t.message).Perm
      (accepted (cfg.shared.trace 0) ++
        system.observe (declined 0) (initial fresh_client) release_run) := by
  obtain ⟨cfg, hfollows, halive, hnext⟩ : ∃ cfg,
      system.Follows Any (initial fresh_client) release_run cfg ∧
      destroys (cfg.shared.trace 0) = 0 ∧
      (system.step cfg (.app 2 {})).any (fun next => decide (
        destroys (next.shared.trace 0) = 1 ∧ frames (next.shared.trace 0) = [([104], false)] ∧
        (inflight 0 next.svc).map ws_msg_node_t.message = [([105], false)] ∧
        dropped (next.shared.trace 0) = [([106], false)])) = true :=
    System.exists_follows_of_run (by decide)
  cases hstep : system.step cfg (.app 2 {}) with
  | none => simp [hstep] at hnext
  | some next =>
    simp only [hstep, Option.any_some, decide_eq_true_eq] at hnext
    obtain ⟨hreleased, hframes, hheld, hdropped⟩ := hnext
    exact ⟨next, hframes, hheld, hdropped, by decide,
      release_frees_all (fun _ => wsp_client_create_fresh _ _ _ _) hfollows hstep halive hreleased⟩

end runs

end lws_client.ws_pool
