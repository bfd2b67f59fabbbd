import LwsClientDemo.Limits
import LwsClientDemo.WsPool.Clients

open interleaving

namespace lws_client.ws_pool

/-- The configuration is `conf`, whose limits the send queue keeps. -/
structure Limited (conf : wsp_config) (c : wsp_client) : Prop where
  config : c.towsp_config = conf
  within : c.q.Within conf.max_queue_msgs conf.max_queue_bytes

variable {conf : wsp_config} {s s' : Sys} {c c' : wsp_client} {cfg cfg' : Config} {l : Label}
  {data : Data} {is_binary ok : Bool} {d : ClientId}

theorem Limited.kept (h : Limited conf c) (hkept : Kept c c') : Limited conf c' :=
  ⟨hkept.config.trans h.config, hkept.q ▸ h.within⟩

/-- With a node allocated, a send to a client that is not stopping fails exactly
    by the test of the limits. -/
theorem enqueue_locked_full (halloc : (ws_msg_new data is_binary ok).isSome = true)
    (hstop : c.stopping = false) :
    (enqueue_locked c data is_binary ok).1 = .LWS_ERR_QUEUE_FULL ↔
      c.q.Full c.max_queue_msgs c.max_queue_bytes data.bytes.length := by
  obtain ⟨n, hn⟩ := Option.isSome_iff_exists.mp halloc
  unfold enqueue_locked
  rw [hn]
  dsimp only
  rw [if_neg (by simp [hstop])]
  split
  · next hfull => exact ⟨fun _ => hfull, fun _ => rfl⟩
  · next hroom => exact ⟨fun heq => (by cases heq), fun hfull => absurd hfull hroom⟩

theorem enqueue_locked_limited (h : Limited conf c) (hmsgs : (conf.max_queue_msgs : Int) ≤ INT_MAX)
    (hbytes : (conf.max_queue_bytes : Int) ≤ INT_MAX) :
    Limited conf (enqueue_locked c data is_binary ok).2.1 := by
  unfold enqueue_locked
  split
  · exact h
  · next n hn =>
    dsimp only
    split
    · exact h
    · split
      · exact h
      · next hroom =>
        have hlen : n.len = data.bytes.length := (ws_msg_new_message hn).2
        have hroom' : ¬ c.q.Full c.max_queue_msgs c.max_queue_bytes n.len := by
          rw [hlen]
          exact hroom
        rw [show c.max_queue_msgs = conf.max_queue_msgs by rw [h.config],
          show c.max_queue_bytes = conf.max_queue_bytes by rw [h.config]] at hroom'
        exact ⟨h.config, h.within.append hmsgs hbytes (hlen ▸ data.length_le) hroom'⟩

/-- Only the locked section of a send goes on to wake the service thread. -/
theorem leads_enqueue_wake {f : AppFrame} {clients : List ClientId}
    (h : [.enqueue_wake d] ∈ f.leads clients) : ∃ data is_binary, f = .enqueue_locked d data is_binary := by
  cases f with
  | enqueue_locked c data is_binary =>
    simp only [AppFrame.leads, List.mem_cons, List.cons.injEq, AppFrame.enqueue_wake.injEq, and_true,
      List.not_mem_nil, or_false, reduceCtorEq, false_or] at h
    exact ⟨data, is_binary, by rw [h]⟩
  | enqueue c data is_binary => cases data <;> simp [AppFrame.leads] at h
  | destroy_stop snap | destroy_clients snap => cases snap <;> simp [AppFrame.leads] at h
  | _ => simp [AppFrame.leads] at h

theorem app_limited {f : AppFrame} {a : Answer} {fs : List AppFrame} (h : s.app f a = some (fs, s'))
    (hmsgs : (conf.max_queue_msgs : Int) ≤ INT_MAX) (hbytes : (conf.max_queue_bytes : Int) ≤ INT_MAX)
    (hlimited : Limited conf (s.client d)) : Limited conf (s'.client d) := by
  rcases app_spec h d with hsilent | ⟨freed, q, _, hflush, hc, _⟩ | ⟨_, _, _, _, _, _, _, rfl⟩
  · exact hlimited.kept hsilent.kept
  · rw [hc]
    exact ⟨hlimited.config, hlimited.within.flush hflush⟩
  · obtain ⟨data, is_binary, rfl⟩ := leads_enqueue_wake (app_leads h)
    simp only [Sys.app, Option.some.injEq, Prod.mk.injEq] at h
    obtain ⟨_, rfl⟩ := h
    rw [Sys.act_client, if_pos rfl]
    exact enqueue_locked_limited hlimited hmsgs hbytes

theorem limited_step (hmove : system.Moves cfg l cfg') (hmsgs : (conf.max_queue_msgs : Int) ≤ INT_MAX)
    (hbytes : (conf.max_queue_bytes : Int) ≤ INT_MAX) (h : Limited conf (cfg.shared.client d)) :
    Limited conf (cfg'.shared.client d) := by
  cases hmove with
  | event hdeliver =>
    dsimp only at h ⊢
    cases deliver_spec hdeliver d with
    | silent _ hsilent _ => exact h.kept hsilent.kept
    | receive ho hc _ =>
      obtain ⟨frag, hfrag⟩ := receive_client ho
      rw [hc, hfrag]
      exact ⟨h.config, h.within⟩
    | ping hkept _ => exact h.kept hkept
    | dequeue hdequeue hc _ =>
      rw [hc]
      exact ⟨h.config, by simpa [hdequeue] using h.within.dequeue⟩
  | svc hsvc =>
    rcases (svc_spec hsvc d).2 with ⟨hsilent, _⟩ | ⟨_, hkept, _⟩ | ⟨_, _, _, _, hc, _⟩
    · exact h.kept hsilent.kept
    · exact h.kept hkept
    · dsimp only at h ⊢
      rw [hc]
      exact h
  | call _ _ => exact h
  | app _ happ => exact app_limited happ hmsgs hbytes h

/-- A queue limited by `wsp_set_queue_limit` keeps its limits, and a send to a
    client that is not stopping fails exactly when it would break one of them. -/
theorem limits_exact {client : ClientId → wsp_client} (hfresh : ∀ d, (client d).Fresh)
    {max_msgs max_bytes : Int} (hmsgs : 0 ≤ max_msgs) (hmsgs' : max_msgs ≤ INT_MAX)
    (hbytes : 0 ≤ max_bytes) (hbytes' : max_bytes ≤ INT_MAX)
    (h : system.Reaches Any (initial (Function.update client d
      (wsp_set_queue_limit (client d) max_msgs max_bytes))) cfg) :
    (0 < max_msgs → ((cfg.shared.client d).q.q_msgs : Int) ≤ max_msgs) ∧
      (0 < max_bytes → ((cfg.shared.client d).q.q_bytes : Int) ≤ max_bytes) ∧
      ∀ t data is_binary rest a cfg', cfg.app t = .enqueue_locked d data is_binary :: rest →
        (ws_msg_new data is_binary a.ok).isSome = true → (cfg.shared.client d).stopping = false →
        system.step cfg (.app t a) = some cfg' →
          ∃ acts ret, cfg'.shared.trace d =
              cfg.shared.trace d ++ (acts ++ [.send_returns data.bytes is_binary ret]) ∧
            (ret = .LWS_ERR_QUEUE_FULL ↔
              (0 < max_msgs ∧ max_msgs < (cfg.shared.client d).q.q_msgs + 1) ∨
              (0 < max_bytes ∧
                max_bytes < (cfg.shared.client d).q.q_bytes + data.bytes.length)) ∧
            (ret = .LWS_ERR_QUEUE_FULL → (cfg'.shared.client d).q = (cfg.shared.client d).q) := by
  have hlimited : Limited (wsp_set_queue_limit (client d) max_msgs max_bytes).towsp_config
      (cfg.shared.client d) := by
    refine h.invariant (I := fun cfg => Limited _ (cfg.shared.client d)) ?_
      fun _ _ _ _ hmove => limited_step hmove ?_ ?_
    · change Limited _ (Function.update client d _ d)
      rw [Function.update_self]
      refine ⟨rfl, ?_⟩
      change (client d).q.Within _ _
      rw [(hfresh d).q]
      exact .empty
    · exact size_of_int_le hmsgs hmsgs'
    · exact size_of_int_le hbytes hbytes'
  have hwithin : (cfg.shared.client d).q.Within (size_of_int max_msgs) (size_of_int max_bytes) :=
    hlimited.within
  obtain ⟨hle_msgs, hle_bytes, hfull⟩ := hwithin.exact hmsgs hmsgs' hbytes hbytes'
  refine ⟨hle_msgs, hle_bytes, fun t data is_binary rest a cfg' htop halloc hstop hstep => ?_⟩
  have hreturns := enqueue_locked_full halloc hstop
  rw [show (cfg.shared.client d).max_queue_msgs = size_of_int max_msgs by rw [hlimited.config]; rfl,
    show (cfg.shared.client d).max_queue_bytes = size_of_int max_bytes by
      rw [hlimited.config]; rfl,
    hfull _ data.length_le] at hreturns
  simp only [System.step, htop, Option.map_eq_some_iff] at hstep
  obtain ⟨⟨fs, s'⟩, happ, rfl⟩ := hstep
  simp only [system, Sys.app, Option.some.injEq, Prod.mk.injEq] at happ
  obtain ⟨_, rfl⟩ := happ
  refine ⟨(enqueue_locked (cfg.shared.client d) data is_binary a.ok).2.2, _,
    by rw [Sys.act_trace, if_pos rfl], hreturns, fun hret => ?_⟩
  rcases enqueue_locked_spec (cfg.shared.client d) data is_binary a.ok with
    ⟨n, heq, _⟩ | ⟨ret, acts, _, heq, _⟩
  · rw [heq] at hret
    cases hret
  · rw [Sys.act_client, if_pos rfl, heq]

end lws_client.ws_pool
