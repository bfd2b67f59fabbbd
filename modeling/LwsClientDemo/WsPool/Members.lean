import LwsClientDemo.WsPool.Seats

open interleaving

namespace lws_client.ws_pool

/-- `clients` lists exactly the clients whose back pointer is set, each once. -/
structure Members (s : Sys) : Prop where
  registered : ∀ c, (s.client c).pool = true ↔ c ∈ s.pool.clients
  nodup : s.pool.clients.Nodup

theorem Members.same {s s' : Sys} (h : Members s) (hs : SameMembers s s') : Members s' := by
  refine ⟨fun c => ?_, hs.clients ▸ h.nodup⟩
  rw [hs.joined, hs.clients]
  exact h.registered c

/-- The service thread adds no client. -/
theorem Served.members {s s' : Sys} (hs : Served s s') : SameMembers s s' := ⟨hs.clients, hs.joined⟩

theorem Members.step {cfg cfg' : Config} {l : Label} (hmove : system.Moves cfg l cfg')
    (hok : AddsOnce cfg l) (h : Members cfg.shared) : Members cfg'.shared := by
  cases hmove with
  | event hdeliver => exact h.same (deliver_served hdeliver).1.members
  | svc hsvc => exact h.same (svc_served hsvc).1.members
  | call _ _ => exact h
  | @app t f a s s' svc app rest fs htop happ =>
    cases app_registers happ with
    | same _ hs _ | start _ hs _ | clear _ hs _ => exact h.same hs
    | @add c _ hclients _ hjoined =>
      have hnew : c ∉ s.pool.clients := by
        rw [← h.registered c, hok c ⟨_, htop⟩]
        simp
      refine ⟨fun d => ?_, ?_⟩
      · dsimp only
        rw [hjoined, hclients, List.mem_append, List.mem_singleton, ← h.registered d]
        by_cases hd : d = c <;> simp [hd]
      · dsimp only
        rw [hclients]
        exact List.nodup_append.mpr ⟨h.nodup, by simp, fun d hd e he => by
          obtain rfl := List.mem_singleton.mp he
          rintro rfl
          exact hnew hd⟩

/-- In every run in which adds of one client do not overlap. -/
theorem Reaches.members {ok : Config → Label → Prop} (hadds : ∀ cfg l, ok cfg l → AddsOnce cfg l)
    {client : ClientId → wsp_client} (hfresh : ∀ c, (client c).Fresh) {cfg : Config}
    (h : system.Reaches ok (initial client) cfg) : Members cfg.shared := by
  refine h.invariant (I := fun mid => Members mid.shared) ⟨fun c => ?_, List.nodup_nil⟩
    fun _ _ _ hok hmove => Members.step hmove (hadds _ _ hok)
  have hpool : ((initial client).shared.client c).pool = false := (hfresh c).pool
  rw [hpool]
  simp [initial, wsp_pool_create]

end lws_client.ws_pool
