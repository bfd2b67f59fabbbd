import LwsClientDemo.WsPool.Lifecycle

open interleaving

namespace lws_client.ws_pool

/-- The queue holds `ns`, and the messages accepted so far are those already
    written, then the node taken off the queue and not yet written, then those
    the flush has dropped, then `ns`. After a flush nothing is queued again. -/
def Ordered (c : wsp_client) (taken : List ws_msg_node_t) (trace : List Act) : Prop :=
  ∃ ns, c.q.Holds ns ∧
    frames trace ++ taken.map ws_msg_node_t.message ++ dropped trace ++
      ns.map ws_msg_node_t.message = accepted trace ∧
    (dropped trace = [] ∨ (c.stopping = true ∧ ns = []))

variable {c c' : wsp_client} {taken : List ws_msg_node_t} {trace acts : List Act}

theorem Ordered.skip (h : Ordered c taken trace) (hq : c'.q = c.q)
    (hstop : c.stopping = true → c'.stopping = true)
    (hacts : frames acts = [] ∧ dropped acts = [] ∧ accepted acts = []) :
    Ordered c' taken (trace ++ acts) := by
  obtain ⟨ns, hholds, horder, hflushed⟩ := h
  obtain ⟨hframes, hdropped, haccepted⟩ := hacts
  refine ⟨ns, hq ▸ hholds, ?_, ?_⟩
  · simpa [hframes, hdropped, haccepted] using horder
  · rw [dropped_append, hdropped, List.append_nil]
    exact hflushed.imp_right fun ⟨hstopping, hns⟩ => ⟨hstop hstopping, hns⟩

theorem Ordered.quiet (h : Ordered c taken trace) (hq : c'.q = c.q)
    (hstop : c.stopping = true → c'.stopping = true) (hacts : Quiet acts) :
    Ordered c' taken (trace ++ acts) :=
  h.skip hq hstop ⟨hacts.frames, hacts.dropped, hacts.accepted⟩

/-- A send that returns `LWS_OK` comes before any flush of its client. -/
theorem Ordered.accept (h : Ordered c taken trace) {n : ws_msg_node_t} {data : List UInt8}
    {is_binary : Bool} (hstop : c.stopping = false) (hq : c'.q = c.q.append n)
    (hmessage : n.message = (data, is_binary)) :
    Ordered c' taken (trace ++ [.send_returns data is_binary .LWS_OK]) := by
  obtain ⟨ns, hholds, horder, hflushed⟩ := h
  have hnone : dropped trace = [] := by
    rcases hflushed with hnone | ⟨hstopping, _⟩
    · exact hnone
    · rw [hstop] at hstopping
      cases hstopping
  have haccepted : accepted [.send_returns data is_binary .LWS_OK] = [(data, is_binary)] := rfl
  have hframes : frames [.send_returns data is_binary .LWS_OK] = [] := rfl
  have hdropped : dropped [.send_returns data is_binary .LWS_OK] = [] := rfl
  refine ⟨ns ++ [n], hq ▸ hholds.append n, ?_, .inl (by simp [hnone, hdropped])⟩
  simp only [frames_append, dropped_append, accepted_append, hframes, hdropped, haccepted,
    List.append_nil, ← horder, List.map_append, List.map_cons, List.map_nil, hmessage,
    List.append_assoc]

/-- A dequeue that finds a node comes before any flush of its client. -/
theorem Ordered.take {q : SendQueue} {n : ws_msg_node_t} (h : Ordered c [] trace)
    (hdequeue : c.q.dequeue = (some n, q)) (hq : c'.q = q) : Ordered c' [n] trace := by
  obtain ⟨ns, hholds, horder, hflushed⟩ := h
  obtain ⟨hhead, hrest⟩ := hholds.dequeue
  rw [hdequeue] at hhead hrest
  cases ns with
  | nil => cases hhead
  | cons m ms =>
    cases hhead
    have hnone : dropped trace = [] := by
      rcases hflushed with hnone | ⟨_, hns⟩
      · exact hnone
      · cases hns
    exact ⟨ms, hq ▸ hrest, by simpa [hnone] using horder, .inl hnone⟩

theorem Ordered.write {n : ws_msg_node_t} (h : Ordered c [n] trace) (hc : c' = c)
    (hframes : frames acts = [n.message]) (hdropped : dropped acts = [])
    (haccepted : accepted acts = []) : Ordered c' [] (trace ++ acts) := by
  obtain ⟨ns, hholds, horder, hflushed⟩ := h
  subst hc
  refine ⟨ns, hholds, ?_, by simpa [hdropped] using hflushed⟩
  simpa [hframes, hdropped, haccepted] using horder

/-- The flush drops what is queued behind the node in flight. -/
theorem Ordered.flush {q : SendQueue} {freed : List ws_msg_node_t} (h : Ordered c taken trace)
    (hstop : c'.stopping = true) (hflush : ws_flush_queue c.q = some (freed, q)) (hq : c'.q = q) :
    Ordered c' taken
      (trace ++ (freed.map (fun n => .flush_node n.payload n.is_binary) ++ [.stop_returns])) := by
  obtain ⟨ns, hholds, horder, hflushed⟩ := h
  obtain ⟨q', hns, hempty⟩ := hholds.flush
  rw [hflush] at hns
  simp only [Option.some.injEq, Prod.mk.injEq] at hns
  obtain ⟨rfl, rfl⟩ := hns
  have hframes : frames (freed.map fun n => .flush_node n.payload n.is_binary) = [] := by
    simp [frames, Act.frame, List.filterMap_map]
  have hdropped : dropped (freed.map fun n => .flush_node n.payload n.is_binary) =
      freed.map ws_msg_node_t.message := by
    rw [← outcomes_flush]
    simp [dropped, outcomes, Act.dropped, Act.frame, List.filterMap_map, Function.comp_def]
  have hreturn : frames [Act.stop_returns] = [] ∧ dropped [Act.stop_returns] = [] ∧
      accepted [Act.stop_returns] = [] := ⟨rfl, rfl, rfl⟩
  refine ⟨[], hq ▸ hempty, ?_, .inr ⟨hstop, rfl⟩⟩
  simp only [frames_append, dropped_append, accepted_append, hframes, hdropped, hreturn,
    accepted_flush, List.append_nil, List.map_nil, ← horder, List.append_assoc]

/-- Each step keeps the queue of every client in order. -/
theorem ordered_step {cfg cfg' : Config} {l : Label} {d : ClientId}
    (hmove : system.Moves cfg l cfg') (hbehind : ∀ f ∈ cfg.svc.tail, f.behind = true)
    (hstops : ∀ {t : Nat}, .stop_flush d ∈ cfg.app t → (cfg.shared.client d).stopping = true)
    (h : Ordered (cfg.shared.client d) (inflight d cfg.svc) (cfg.shared.trace d)) :
    Ordered (cfg'.shared.client d) (inflight d cfg'.svc) (cfg'.shared.trace d) := by
  cases hmove with
  | event hdeliver =>
    have hstop := (deliver_served hdeliver).1.stopping d
    dsimp only at h ⊢
    cases deliver_spec hdeliver d with
    | silent _ hsilent hfs =>
      obtain ⟨acts, htrace, hmute⟩ := hsilent.trace
      rw [htrace, hfs]
      exact h.quiet hsilent.kept.q hstop.trans (Mute.plain hmute).quiet
    | receive ho hc htrace =>
      obtain ⟨frag, hfrag⟩ := receive_client ho
      rw [htrace]
      exact h.quiet (by rw [hc, hfrag]) hstop.trans
        (receive_acts (fun _ _ => rfl) (fun _ _ => rfl) ho)
    | ping hkept htrace =>
      rw [htrace]
      exact h.skip hkept.q hstop.trans ⟨rfl, rfl, rfl⟩
    | @dequeue w a n q hdequeue hc htrace =>
      have hfs : inflight d [.write d w n q.has_data] = [n] := by simp [inflight]
      rw [htrace, hfs]
      exact h.take hdequeue (by rw [hc])
  | @svc f a s s' app rest fs hsvc =>
    have hstop := (svc_served hsvc).1.stopping d
    obtain ⟨hfs, hspec⟩ := svc_spec hsvc d
    dsimp only at h ⊢
    rw [inflight_append, hfs, List.nil_append]
    rcases hspec with ⟨hsilent, hf⟩ | ⟨rfl, hkept, info, htrace⟩ | ⟨w, n, more, rfl, hc, htrace⟩
    · obtain ⟨acts, htrace, hmute⟩ := hsilent.trace
      have hcons : inflight d (f :: rest) = inflight d rest := by
        rw [← List.singleton_append, inflight_append, hf, List.nil_append]
      rw [htrace, ← hcons]
      exact h.quiet hsilent.kept.q hstop.trans (Mute.plain hmute).quiet
    · rw [htrace]
      exact h.skip hkept.q hstop.trans ⟨rfl, rfl, rfl⟩
    · -- Only the top frame is a write.
      have hrest : inflight d rest = [] := by
        rw [inflight, List.filterMap_eq_nil_iff]
        intro g hg
        have hg := hbehind g hg
        cases g <;> first | rfl | cases hg
      have hcons : inflight d (.write d w n more :: rest) = [n] := by
        rw [← List.singleton_append, inflight_append, hrest, List.append_nil]
        simp [inflight]
      obtain ⟨_, hframes, hdropped, haccepted, _⟩ := write_node_outcome n w
      rw [hcons] at h
      rw [htrace, hrest]
      exact h.write hc hframes hdropped haccepted
  | call _ _ => exact h
  | @app t f a s s' svc app rest fs htop happ =>
    have hstop := (app_advance happ d).stopping
    dsimp only at h ⊢
    rcases app_spec happ d with hsilent | ⟨freed, q, rfl, hflush, hc, htrace⟩ |
      ⟨n, data, is_binary, hrunning, hc, hmessage, htrace, _⟩
    · obtain ⟨acts, htrace, hmute⟩ := hsilent.trace
      rw [htrace]
      exact h.quiet hsilent.kept.q hstop (Mute.plain hmute).quiet
    · rw [htrace]
      exact h.flush (hstop (hstops (t := t) (by simp [htop]))) hflush (by rw [hc])
    · rw [htrace]
      exact h.accept hrunning (by rw [hc]) hmessage

theorem Reaches.ordered {ok : Config → Label → Prop} {client : ClientId → wsp_client}
    (hfresh : ∀ c, (client c).Fresh) {cfg : Config} (h : system.Reaches ok (initial client) cfg)
    (d : ClientId) :
    Ordered (cfg.shared.client d) (inflight d cfg.svc) (cfg.shared.trace d) := by
  refine h.invariant_under (J := fun mid => (∀ f ∈ mid.svc.tail, f.behind = true) ∧
      ∀ {t : Nat}, .stop_flush d ∈ mid.app t → (mid.shared.client d).stopping = true)
    (fun mid hmid => ⟨Reaches.behind hmid, fun hf => Reaches.stopping hmid hf rfl⟩) ?_
    fun _ _ _ hknown _ hmove => ordered_step hmove hknown.1 hknown.2
  refine ⟨[], ?_, rfl, .inl rfl⟩
  change (client d).q.Holds []
  rw [(hfresh d).q]
  exact SendQueue.empty_holds

/-- A step that reports an error to a sender leaves the queue as it was. -/
theorem error_keeps_queue {cfg cfg' : Config} {l : Label} {d : ClientId} {data : List UInt8}
    {is_binary : Bool} {ret : LwsClientRet_e} {acts : List Act}
    (hstep : system.step cfg l = some cfg')
    (hreturn : cfg'.shared.trace d =
      cfg.shared.trace d ++ (acts ++ [.send_returns data is_binary ret]))
    (hret : ret ≠ .LWS_OK) : (cfg'.shared.client d).q = (cfg.shared.client d).q := by
  cases System.step_moves hstep with
  | event hdeliver =>
    cases deliver_spec hdeliver d with
    | silent _ hsilent _ => exact hsilent.kept.q
    | receive ho hc _ =>
      obtain ⟨frag, hfrag⟩ := receive_client ho
      dsimp only
      rw [hc, hfrag]
    | ping hkept _ => exact hkept.q
    | dequeue _ _ htrace =>
      dsimp only at hreturn
      rw [htrace] at hreturn
      simp at hreturn
  | svc hsvc =>
    rcases (svc_spec hsvc d).2 with ⟨hsilent, _⟩ | ⟨_, hkept, _⟩ | ⟨_, _, _, _, hc, _⟩
    · exact hsilent.kept.q
    · exact hkept.q
    · dsimp only
      rw [hc]
  | call _ _ => rfl
  | app htop happ =>
    dsimp only at hreturn ⊢
    rcases app_spec happ d with hsilent | ⟨freed, q, rfl, _, _, htrace⟩ |
      ⟨n, data', is_binary', _, _, _, htrace, _⟩
    · exact hsilent.kept.q
    · rw [htrace, List.append_cancel_left_eq] at hreturn
      have hlast := congrArg List.getLast? hreturn
      simp at hlast
    · rw [htrace, List.append_cancel_left_eq] at hreturn
      have hlast := congrArg List.getLast? hreturn
      simp only [List.getLast?_append, List.getLast?_singleton, Option.some_or, Option.some.injEq,
        Act.send_returns.injEq] at hlast
      exact absurd hlast.2.2.symm hret

end lws_client.ws_pool
