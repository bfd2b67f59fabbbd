import LwsClientDemo.WsPool.Members
import LwsClientDemo.WsPool.Adds

open interleaving

namespace lws_client.ws_pool

/-- The pending clients are the last registered ones, and both arrays have room. -/
structure Registry (p : wsp_pool) : Prop where
  pending : p.pending <:+ p.clients
  room : p.clients.length ≤ WSP_MAX_CLIENTS

variable {s s' : Sys} {c : ClientId}

theorem Registry.congr {p p' : wsp_pool} (h : Registry p) (hclients : p'.clients = p.clients)
    (hpending : p'.pending = p.pending ∨ p'.pending = []) : Registry p' := by
  refine ⟨?_, hclients ▸ h.room⟩
  rw [hclients]
  rcases hpending with hsame | hnone
  · exact hsame ▸ h.pending
  · rw [hnone]
    exact List.nil_suffix

/-- The service thread changes the pool only where it takes the pending clients. -/
theorem svc_pool {f : Frame} {a : Answer} {fs : List Frame} (h : s.svc f a = some (fs, s')) :
    s'.pool = s.pool ∨ (f = .event_wait_cancelled ∧ fs = [.wc_connect s.pool.pending] ∧
      s' = s.setPool { s.pool with pending := [] }) := by
  cases f with
  | event_wait_cancelled =>
    cases h
    exact .inr ⟨rfl, rfl, rfl⟩
  | do_connect c => exact .inl (do_connect_spec h).1.1
  | write c w n more =>
    simp only [Sys.svc] at h
    split at h <;> cases h <;> exact .inl rfl
  | wc_connect pend => cases pend <;> cases h <;> exact .inl rfl
  | wc_visit snap =>
    cases snap with
    | nil =>
      cases h
      exact .inl rfl
    | cons c snap =>
      simp only [Sys.svc] at h
      split at h
      · cases h
        exact .inl rfl
      · split at h
        · cases h
          exact .inl rfl
        · split at h <;> cases h <;> exact .inl rfl
  | connection_error _ _ | wsi_destroy _ _ | connect_return _ _ | schedule_reconnect _
  | schedule_arm _ | has_data_check _ _ | lws_callback_on_writable _ _ | wc_snapshot =>
    cases h
    exact .inl rfl

theorem callback_pool {w : WsiId} {a : Answer} {r : Reason} {fs : List Frame}
    (h : s.callback c w a r = some (fs, s')) : s'.pool = s.pool := by
  cases r with
  | CLIENT_RECEIVE chunk =>
    simp only [Sys.callback, Option.map_eq_some_iff, Prod.mk.injEq] at h
    obtain ⟨o, _, _, rfl⟩ := h
    split <;> rfl
  | CLIENT_WRITEABLE =>
    simp only [Sys.callback] at h
    split at h
    · cases h
      rfl
    · split at h <;> cases h <;> rfl
  | TIMER =>
    simp only [Sys.callback, Option.some.injEq, Prod.mk.injEq] at h
    obtain ⟨_, rfl⟩ := h
    split <;> rfl
  | CLIENT_ESTABLISHED | CLIENT_RECEIVE_PONG | CLIENT_CONNECTION_ERROR _ | CLIENT_CLOSED
  | WSI_DESTROY | CLIENT_APPEND_HANDSHAKE_HEADER =>
    cases h
    rfl

theorem deliver_pool {e : Event} {fs : List Frame} (h : s.deliver e = some (fs, s')) :
    s'.pool = s.pool := by
  cases e with
  | callback c w r a =>
    simp only [Sys.deliver, Option.ite_none_right_eq_some] at h
    exact callback_pool h.2
  | service_thread | event_wait_cancelled _ | sul_reconnect_cb _ | exit | context_destroyed =>
    simp only [Sys.deliver, Option.ite_none_right_eq_some, Option.some.injEq, Prod.mk.injEq] at h
    obtain ⟨_, _, rfl⟩ := h
    rfl

/-- The locked section of a `wsp_pool_add` registers the client, or refuses it
    and leaves everything as it was. -/
theorem app_add {a : Answer} {fs : List AppFrame}
    (h : s.app (.pool_add_locked c) a = some (fs, s')) :
    (s.pool.clients.length + s.pool.pending.length < WSP_MAX_CLIENTS ∧
      s'.pool.clients = s.pool.clients ++ [c] ∧ s'.pool.pending = s.pool.pending ++ [c] ∧
      (s.pool.add c).isSome = true ∧ s'.trace c = s.trace c ++ [.add_returns .LWS_OK] ∧
      fs = if s.pool.ctx then [.pool_add_wake] else []) ∨
    (WSP_MAX_CLIENTS ≤ s.pool.clients.length + s.pool.pending.length ∧ s'.pool = s.pool ∧
      s'.client = s.client ∧ (s.pool.add c).isSome = false ∧
      s'.trace c = s.trace c ++ [.add_returns .LWS_ERR_PARAM]) := by
  simp only [Sys.app] at h
  split at h
  · cases h
  · by_cases hfull : s.pool.clients.length + s.pool.pending.length ≥ WSP_MAX_CLIENTS
    · have hadd : s.pool.add c = none := by simp [wsp_pool.add, hfull]
      rw [hadd] at h
      cases h
      exact .inr ⟨hfull, rfl, Function.update_eq_self _ _, by simp [hadd], by simp⟩
    · have hadd : s.pool.add c = some { s.pool with
          clients := s.pool.clients ++ [c], pending := s.pool.pending ++ [c] } := by
        simp [wsp_pool.add, hfull]
      rw [hadd] at h
      cases h
      exact .inl ⟨Nat.lt_of_not_le hfull, rfl, rfl, by simp [hadd], by simp [Sys.setPool], rfl⟩

theorem Registry.step {cfg cfg' : Config} {l : Label} (hmove : system.Moves cfg l cfg')
    (h : Registry cfg.shared.pool) : Registry cfg'.shared.pool := by
  cases hmove with
  | event hdeliver => exact deliver_pool hdeliver ▸ h
  | svc hsvc =>
    rcases svc_pool hsvc with hpool | ⟨_, _, hs'⟩
    · exact hpool ▸ h
    · dsimp only
      rw [hs']
      exact h.congr rfl (.inr rfl)
  | call _ _ => exact h
  | @app t f a s s' svc app rest fs htop happ =>
    cases app_registers happ with
    | same _ hs hpending => exact h.congr hs.clients (.inl hpending)
    | start _ hs hpending => exact h.congr hs.clients (.inl hpending)
    | clear _ hs hpending => exact h.congr hs.clients (.inr hpending)
    | @add c _ hclients hpending _ =>
      rcases app_add (a := a) happ with ⟨hroom, _⟩ | ⟨_, hpool, _⟩
      · obtain ⟨before, hsuffix⟩ := h.pending
        dsimp only at hsuffix ⊢
        refine ⟨⟨before, ?_⟩, ?_⟩
        · rw [hclients, hpending, ← List.append_assoc, hsuffix]
        · rw [hclients, List.length_append, List.length_singleton]
          omega
      · exact hpool ▸ h

/-- In every run of the pool, under any condition on its steps. -/
theorem Reaches.registry {ok : Config → Label → Prop} {client : ClientId → wsp_client}
    {cfg : Config} (h : system.Reaches ok (initial client) cfg) : Registry cfg.shared.pool :=
  h.invariant (I := fun cfg => Registry cfg.shared.pool) ⟨List.nil_suffix, Nat.zero_le _⟩
    fun _ _ _ _ hmove => Registry.step hmove

end lws_client.ws_pool
