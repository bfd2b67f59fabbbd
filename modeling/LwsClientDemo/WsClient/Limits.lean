import LwsClientDemo.Limits
import LwsClientDemo.WsClient.Sections

open interleaving

namespace lws_client.ws_client

/-- The configuration is `conf`, whose limits the send queue keeps. -/
structure Limited (conf : wsld_config) (c : wsld_client) : Prop where
  config : c.towsld_config = conf
  within : c.q.Within conf.max_queue_msgs conf.max_queue_bytes

variable {conf : wsld_config} {s s' : Sys} {c c' : wsld_client} {cfg cfg' : Config} {l : Label}
  {data : Data} {is_binary ok : Bool}

theorem Limited.kept (h : Limited conf c) (hkept : Kept c c') : Limited conf c' :=
  ⟨hkept.config.trans h.config, hkept.q ▸ h.within⟩

/-- With a node allocated, a send fails exactly by the test of the limits. -/
theorem enqueue_locked_full (c : wsld_client)
    (halloc : (msg_node_new data is_binary ok).isSome = true) :
    (enqueue_locked c data is_binary ok).1 = .LWS_ERR_QUEUE_FULL ↔
      c.q.Full c.max_queue_msgs c.max_queue_bytes data.bytes.length := by
  obtain ⟨n, hn⟩ := Option.isSome_iff_exists.mp halloc
  unfold enqueue_locked
  rw [hn]
  dsimp only
  split
  · next hfull => exact ⟨fun _ => hfull, fun _ => rfl⟩
  · next hroom => exact ⟨fun heq => (by cases heq), fun hfull => absurd hfull hroom⟩

theorem enqueue_locked_limited (h : Limited conf c) (hmsgs : (conf.max_queue_msgs : Int) ≤ INT_MAX)
    (hbytes : (conf.max_queue_bytes : Int) ≤ INT_MAX) :
    Limited conf (enqueue_locked c data is_binary ok).2 := by
  unfold enqueue_locked
  split
  · exact h
  · next n hn =>
    split
    · exact h
    · next hroom =>
      have hlen : n.len = data.bytes.length := (msg_node_new_message hn).2
      have hroom' : ¬ c.q.Full c.max_queue_msgs c.max_queue_bytes n.len := by
        rw [hlen]
        exact hroom
      rw [show c.max_queue_msgs = conf.max_queue_msgs by rw [h.config],
        show c.max_queue_bytes = conf.max_queue_bytes by rw [h.config]] at hroom'
      exact ⟨h.config, h.within.append hmsgs hbytes (hlen ▸ data.length_le) hroom'⟩

/-- Only the locked section of a send touches the queue of an API call. -/
theorem app_queue {f : AppFrame} {a : Answer} {fs : List AppFrame} (h : s.app f a = some (fs, s')) :
    s'.c.q = s.c.q ∨ ∃ data is_binary, f = .enqueue_locked data is_binary ∧
      s'.c = (enqueue_locked s.c data is_binary a.ok).2 := by
  cases f with
  | enqueue_locked data is_binary =>
    cases h
    exact .inr ⟨data, is_binary, rfl, rfl⟩
  | enqueue data is_binary => cases data <;> cases h <;> exact .inl rfl
  | wsld_start | start_thread | wsld_stop | stop_context =>
    simp only [Sys.app] at h
    split at h <;> cases h <;> exact .inl rfl
  | stop_join | stop_context_destroyed =>
    simp only [Sys.app, Option.ite_none_right_eq_some, Option.some.injEq, Prod.mk.injEq] at h
    obtain ⟨_, _, rfl⟩ := h
    exact .inl rfl
  | wsld_destroy =>
    simp only [Sys.app, Option.map_eq_some_iff, Prod.mk.injEq] at h
    obtain ⟨_, _, _, rfl⟩ := h
    exact .inl rfl
  | enqueue_wake | lws_cancel_service | start_return | stop_cancel =>
    cases h
    exact .inl rfl

theorem limited_step (hmove : system.Moves cfg l cfg') (hmsgs : (conf.max_queue_msgs : Int) ≤ INT_MAX)
    (hbytes : (conf.max_queue_bytes : Int) ≤ INT_MAX) (h : Limited conf cfg.shared.c) :
    Limited conf cfg'.shared.c := by
  cases hmove with
  | event hdeliver =>
    obtain ⟨_, _, heffect⟩ := deliver_spec hdeliver
    dsimp only at h ⊢
    cases heffect with
    | plain _ _ hkept _ => exact h.kept hkept
    | receive ho _ hc =>
      obtain ⟨frag, hfrag⟩ := receive_client ho
      rw [hc, hfrag]
      exact ⟨h.config, h.within⟩
    | ping _ hkept => exact h.kept hkept
    | dequeue hdequeue _ hc =>
      rw [hc]
      exact ⟨h.config, by simpa [hdequeue] using h.within.dequeue⟩
    | exit _ _ hflush _ hc =>
      rw [hc]
      exact ⟨h.config, h.within.flush hflush⟩
  | svc hsvc => exact h.kept (svc_spec hsvc).1
  | call _ _ => exact h
  | app _ happ =>
    dsimp only at h ⊢
    rcases app_queue happ with hq | ⟨data, is_binary, _, hc⟩
    · exact ⟨(app_spec happ).1.trans h.config, hq ▸ h.within⟩
    · rw [hc]
      exact enqueue_locked_limited h hmsgs hbytes

/-- A queue limited by `wsld_set_queue_limit` keeps its limits, and a send fails
    exactly when it would break one of them. -/
theorem limits_exact (hc : c.Fresh) {max_msgs max_bytes : Int} (hmsgs : 0 ≤ max_msgs)
    (hmsgs' : max_msgs ≤ INT_MAX) (hbytes : 0 ≤ max_bytes) (hbytes' : max_bytes ≤ INT_MAX)
    (h : system.Reaches Any (initial (wsld_set_queue_limit c max_msgs max_bytes)) cfg) :
    (0 < max_msgs → (cfg.shared.c.q.q_msgs : Int) ≤ max_msgs) ∧
      (0 < max_bytes → (cfg.shared.c.q.q_bytes : Int) ≤ max_bytes) ∧
      ∀ t data is_binary rest a cfg', cfg.app t = .enqueue_locked data is_binary :: rest →
        (msg_node_new data is_binary a.ok).isSome = true →
        system.step cfg (.app t a) = some cfg' →
          ∃ ret, cfg'.shared.trace =
              cfg.shared.trace ++ [.send_returns data.bytes is_binary ret] ∧
            (ret = .LWS_ERR_QUEUE_FULL ↔
              (0 < max_msgs ∧ max_msgs < cfg.shared.c.q.q_msgs + 1) ∨
              (0 < max_bytes ∧ max_bytes < cfg.shared.c.q.q_bytes + data.bytes.length)) ∧
            (ret = .LWS_ERR_QUEUE_FULL → cfg'.shared.c.q = cfg.shared.c.q) := by
  have hlimited : Limited (wsld_set_queue_limit c max_msgs max_bytes).towsld_config
      cfg.shared.c := by
    refine h.invariant (I := fun cfg => Limited _ cfg.shared.c) ⟨rfl, ?_⟩
      fun _ _ _ _ hmove => limited_step hmove ?_ ?_
    · change c.q.Within _ _
      rw [hc.q]
      exact .empty
    · exact size_of_int_le hmsgs hmsgs'
    · exact size_of_int_le hbytes hbytes'
  have hwithin : cfg.shared.c.q.Within (size_of_int max_msgs) (size_of_int max_bytes) :=
    hlimited.within
  obtain ⟨hle_msgs, hle_bytes, hfull⟩ := hwithin.exact hmsgs hmsgs' hbytes hbytes'
  refine ⟨hle_msgs, hle_bytes, fun t data is_binary rest a cfg' htop halloc hstep => ?_⟩
  have hreturns := enqueue_locked_full cfg.shared.c halloc
  rw [show cfg.shared.c.max_queue_msgs = size_of_int max_msgs by rw [hlimited.config]; rfl,
    show cfg.shared.c.max_queue_bytes = size_of_int max_bytes by rw [hlimited.config]; rfl,
    hfull _ data.length_le] at hreturns
  simp only [System.step, htop, Option.map_eq_some_iff] at hstep
  obtain ⟨⟨fs, s'⟩, happ, rfl⟩ := hstep
  simp only [system, Sys.app, Option.some.injEq, Prod.mk.injEq] at happ
  obtain ⟨_, rfl⟩ := happ
  refine ⟨_, rfl, hreturns, fun hret => ?_⟩
  rcases enqueue_locked_spec cfg.shared.c data is_binary a.ok with ⟨n, heq, _⟩ | heq
  · rw [heq] at hret
    cases hret
  · rw [Sys.act_c, heq]

end lws_client.ws_client
