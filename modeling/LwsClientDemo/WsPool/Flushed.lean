import LwsClientDemo.WsPool.Queue
import LwsClientDemo.WsPool.Milestones

open interleaving linked_queue

namespace lws_client.ws_pool

variable {cfg cfg' : Config} {l : Label} {c d : ClientId}

/-- Once a stop of client `d` has returned, the client is stopping and its queue
    is empty. -/
def Flushed (d : ClientId) (s : Sys) : Prop :=
  .stop_returns ∈ s.trace d → (s.client d).stopping = true ∧ (s.client d).q.Holds []

/-- A step that leaves the queue alone. -/
theorem Flushed.keep {s s' : Sys} (h : Flushed d s)
    (hsame : .stop_returns ∈ s'.trace d ↔ .stop_returns ∈ s.trace d)
    (hstop : (s.client d).stopping = true → (s'.client d).stopping = true)
    (hq : (s'.client d).q = (s.client d).q) : Flushed d s' := by
  intro hreturned
  obtain ⟨hstopping, hempty⟩ := h (hsame.mp hreturned)
  exact ⟨hstop hstopping, hq ▸ hempty⟩

theorem Flushed.step (hmove : system.Moves cfg l cfg')
    (hstops : ∀ {t : Nat}, .stop_flush d ∈ cfg.app t → (cfg.shared.client d).stopping = true)
    (hordered : ∃ ns, (cfg.shared.client d).q.Holds ns) (h : Flushed d cfg.shared) :
    Flushed d cfg'.shared := by
  cases hmove with
  | event hdeliver =>
    have hstop := (deliver_served hdeliver).1.stopping d
    have hsame := (deliver_unmarked hdeliver d).mem_iff (show Act.milestone .stop_returns = true from rfl)
    cases deliver_spec hdeliver d with
    | silent _ hsilent _ => exact h.keep hsame hstop.trans hsilent.kept.q
    | receive ho hc _ =>
      obtain ⟨frag, hfrag⟩ := receive_client ho
      exact h.keep hsame hstop.trans (by dsimp only; rw [hc, hfrag])
    | ping hkept _ => exact h.keep hsame hstop.trans hkept.q
    | dequeue hdequeue _ htrace =>
      -- Nothing is left to be dequeued.
      intro hreturned
      dsimp only at hreturned
      rw [htrace] at hreturned
      have hempty := (h hreturned).2.dequeue_nil
      dsimp only at hempty
      rw [hdequeue] at hempty
      cases hempty
  | svc hsvc =>
    have hstop := (svc_served hsvc).1.stopping d
    have hsame := (svc_unmarked hsvc d).mem_iff (show Act.milestone .stop_returns = true from rfl)
    rcases (svc_spec hsvc d).2 with ⟨hsilent, _⟩ | ⟨_, hkept, _⟩ | ⟨_, _, _, _, hc, _⟩
    · exact h.keep hsame hstop.trans hsilent.kept.q
    · exact h.keep hsame hstop.trans hkept.q
    · exact h.keep hsame hstop.trans (by dsimp only; rw [hc])
  | call _ _ => exact h
  | @app t f a s s' svc app rest fs htop happ =>
    have hstop := (app_advance happ d).stopping
    by_cases hf : f = .stop_flush d
    · subst hf
      obtain ⟨ns, hholds⟩ := hordered
      obtain ⟨q, hflush, hempty⟩ := hholds.flush
      dsimp only at hflush
      simp only [system, Sys.app, hflush, Option.map_some, Option.some.injEq, Prod.mk.injEq] at happ
      obtain ⟨_, rfl⟩ := happ
      exact fun _ => ⟨hstop (hstops (t := t) (by simp [htop])), by simpa using hempty⟩
    · have hsame := (app_marks (f := f) (a := a) happ d).returns_iff hf
      rcases app_spec happ d with hsilent | ⟨_, _, heq, _⟩ | ⟨n, data, is_binary, hrunning, _, _, htrace, _⟩
      · exact h.keep hsame hstop hsilent.kept.q
      · exact absurd heq hf
      · -- A send is accepted only before the stop.
        intro hreturned
        have hstopping := (h (hsame.mp hreturned)).1
        dsimp only at hstopping
        rw [hrunning] at hstopping
        cases hstopping

theorem Reaches.flushed {ok : Config → Label → Prop} {client : ClientId → wsp_client}
    (hfresh : ∀ c, (client c).Fresh) (h : system.Reaches ok (initial client) cfg) (d : ClientId) :
    Flushed d cfg.shared := by
  refine h.invariant_under (J := fun mid => (∃ ns, (mid.shared.client d).q.Holds ns) ∧
      ∀ {t : Nat}, .stop_flush d ∈ mid.app t → (mid.shared.client d).stopping = true)
    (fun mid hmid => ⟨?_, fun hf => Reaches.stopping hmid hf rfl⟩) (fun hreturned => by cases hreturned)
    fun _ _ _ hknown _ hmove => Flushed.step hmove hknown.2 hknown.1
  obtain ⟨ns, hholds, _⟩ := Reaches.ordered hfresh hmid d
  exact ⟨ns, hholds⟩

/-- After a stop of client `c` has returned its queue is empty and stays so, and a
    send that comes to its locked section is refused and frees its node. -/
theorem no_message_stranded {client : ClientId → wsp_client} (hfresh : ∀ c, (client c).Fresh)
    (h : system.Reaches Any (initial client) cfg) (hreturned : .stop_returns ∈ cfg.shared.trace c) :
    (∀ cfg', system.Reaches Any cfg cfg' →
        (cfg'.shared.client c).q.list.head = none ∧ (cfg'.shared.client c).q.list.tail = none ∧
          (cfg'.shared.client c).q.q_msgs = 0 ∧ (cfg'.shared.client c).q.q_bytes = 0) ∧
      ∀ {t data is_binary rest a n}, cfg.app t = .enqueue_locked c data is_binary :: rest →
        ws_msg_new data is_binary a.ok = some n →
        ∃ cfg', system.step cfg (.app t a) = some cfg' ∧ cfg'.app t = rest ∧
          cfg'.shared.client = cfg.shared.client ∧ cfg'.shared.trace c = cfg.shared.trace c ++
            [.free_node n.payload n.is_binary, .send_returns data.bytes is_binary .LWS_ERR_PARAM] := by
  refine ⟨fun cfg' hlater => ?_, ?_⟩
  · have hstill := (Reaches.trace_grows hlater c).subset hreturned
    obtain ⟨⟨cells, hlinks, hcells⟩, hmsgs, hbytes⟩ :=
      (Reaches.flushed hfresh (h.trans hlater) c hstill).2
    obtain rfl : cells = [] := by simpa using hcells
    exact ⟨(Queue.head_eq_none_iff hlinks).mpr rfl, (Queue.tail_eq_none_iff hlinks).mpr rfl, hmsgs,
      hbytes⟩
  · intro t data is_binary rest a n htop hnew
    have hstopping := (Reaches.flushed hfresh h c hreturned).1
    have hrefused : enqueue_locked (cfg.shared.client c) data is_binary a.ok =
        (.LWS_ERR_PARAM, cfg.shared.client c, [.free_node n.payload n.is_binary]) := by
      simp [enqueue_locked, hnew, hstopping]
    refine ⟨_, by simp only [System.step, htop, system, Sys.app, hrefused]; rfl, by simp, ?_, by simp⟩
    exact Function.update_eq_self _ _

/-- A sender of client 0 comes to its locked section after the flush. -/
def racing_run : List Label :=
  [.call 1 (.enqueue 0 (some ⟨[104, 105], two_bytes⟩) false), .app 1 {},
    .call 2 (.wsp_client_stop 0), .app 2 {}, .app 2 {}, .app 2 {}, .app 2 {}]

theorem no_message_stranded_racing : ∃ cfg cfg' : Config,
    system.Follows Any (initial fresh_client) racing_run cfg ∧
      (cfg.shared.client 0).q.list.head = none ∧ system.step cfg (.app 1 {}) = some cfg' ∧
      cfg'.shared.client = cfg.shared.client := by
  obtain ⟨cfg, hfollows, htop, hreturned⟩ :
      ∃ cfg, system.Follows Any (initial fresh_client) racing_run cfg ∧
        cfg.app 1 = [.enqueue_locked 0 ⟨[104, 105], two_bytes⟩ false] ∧
        (cfg.shared.trace 0).any Act.stop_returned = true :=
    System.exists_follows_of_run_eq (g := fun cfg => cfg.app 1) rfl (by decide)
  obtain ⟨hempty, hrefused⟩ := no_message_stranded (fun _ => wsp_client_create_fresh _ _ _ _)
    hfollows.reaches (any_stop_returned.mp hreturned)
  obtain ⟨cfg', hstep, _, hsame, _⟩ := hrefused (a := {}) htop rfl
  exact ⟨cfg, cfg', hfollows, (hempty cfg .refl).1, hstep, hsame⟩

end lws_client.ws_pool
