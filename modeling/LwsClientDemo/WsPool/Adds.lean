import LwsClientDemo.WsPool.Seats

open interleaving

namespace lws_client.ws_pool

/-- The frame is one of `wsp_pool_add` of client `c`, up to its locked section. -/
def AppFrame.adds (c : ClientId) : AppFrame → Bool
  | .wsp_pool_add d | .pool_add_locked d => d == c
  | _ => false

/-- The client a step calls `wsp_pool_add` for. -/
def added_by : Label → Option ClientId
  | .call _ (.wsp_pool_add c) => some c
  | _ => none

/-- The clients `wsp_pool_add` is called for, in order. -/
def added (ls : List Label) : List ClientId := ls.filterMap added_by

variable {c : ClientId} {ls : List Label} {cfg cfg' : Config} {l : Label}

theorem added_snoc (ls : List Label) (l : Label) :
    added (ls ++ [l]) = added ls ++ (added_by l).toList := by
  cases hl : added_by l <;> simp [added, List.filterMap_append, hl]

/-- A section passes on at most the add it is part of. -/
theorem countP_adds_leads {clients : List ClientId} {f : AppFrame} {fs : List AppFrame}
    (h : fs ∈ f.leads clients) : fs.countP (AppFrame.adds c) ≤ ([f]).countP (AppFrame.adds c) := by
  cases f with
  | wsp_pool_add d =>
    simp only [AppFrame.leads, List.mem_cons, List.not_mem_nil, or_false] at h
    rcases h with rfl | rfl
    · exact Nat.zero_le _
    · exact Nat.le_refl _
  | enqueue d data is_binary =>
    cases data <;> simp only [AppFrame.leads, List.mem_singleton] at h <;> subst h <;>
      exact Nat.zero_le _
  | destroy_stop snap | destroy_clients snap =>
    cases snap <;> simp only [AppFrame.leads, List.mem_singleton] at h <;> subst h <;>
      exact Nat.zero_le _
  | _ =>
    simp only [AppFrame.leads, List.mem_cons, List.not_mem_nil, or_false] at h
    rcases h with rfl | rfl <;> exact Nat.zero_le _

/-- What is known of a client that is passed to `wsp_pool_add` at most once:
    before the call it is in no pool, and up to the locked section of the call
    neither. -/
structure Once (c : ClientId) (ls : List Label) (cfg : Config) : Prop where
  fresh : c ∉ added ls →
    (cfg.shared.client c).pool = false ∧ ∀ t, (cfg.app t).countP (AppFrame.adds c) = 0
  adding : ∀ t, 0 < (cfg.app t).countP (AppFrame.adds c) → (cfg.shared.client c).pool = false
  one : Exclusive (AppFrame.adds c) cfg.app

/-- A step that does not take the client into the pool and starts no add of it. -/
theorem Once.pass (h : Once c ls cfg)
    (hpool : (cfg'.shared.client c).pool = (cfg.shared.client c).pool)
    (hone : Exclusive (AppFrame.adds c) cfg'.app)
    (hcount : ∀ t, (cfg'.app t).countP (AppFrame.adds c) ≤ (cfg.app t).countP (AppFrame.adds c)) :
    Once c (ls ++ [l]) cfg' := by
  refine ⟨fun hnew => ?_, fun t ht => ?_, hone⟩
  · rw [added_snoc, List.mem_append, not_or] at hnew
    obtain ⟨hjoined, hnone⟩ := h.fresh hnew.1
    exact ⟨hpool.trans hjoined, fun t => Nat.le_zero.mp (hnone t ▸ hcount t)⟩
  · exact hpool.trans (h.adding t (Nat.lt_of_lt_of_le ht (hcount t)))

theorem Once.step (hmove : system.Moves cfg l cfg') (hdistinct : (added (ls ++ [l])).Nodup)
    (h : Once c ls cfg) : Once c (ls ++ [l]) cfg' := by
  cases hmove with
  | event hdeliver =>
    exact h.pass ((deliver_served hdeliver).1.joined c) h.one fun _ => Nat.le_refl _
  | svc hsvc =>
    exact h.pass ((svc_served hsvc).1.joined c) h.one fun _ => Nat.le_refl _
  | @call t f s svc app hidle hcall =>
    by_cases hadd : f = .wsp_pool_add c
    · -- The one add of `c`, of which there is no trace yet.
      subst hadd
      have hnew : c ∉ added ls := by
        rw [added_snoc] at hdistinct
        intro hmem
        exact (List.nodup_append.mp hdistinct).2.2 c hmem c (by simp [added_by]) rfl
      obtain ⟨hjoined, hnone⟩ := h.fresh hnew
      refine ⟨fun hmem => ?_, fun _ _ => hjoined, .take hnone (by simp [AppFrame.adds])⟩
      rw [added_snoc] at hmem
      simp [added_by] at hmem
    · have hf : f.adds c = false := by
        cases f <;> first | rfl | simp [system, Sys.call] at hcall
        simpa [AppFrame.adds] using hadd
      have hle : ([f]).countP (AppFrame.adds c) ≤ (app t).countP (AppFrame.adds c) := by
        simp [hf]
      exact h.pass rfl (h.one.update hle) (countP_update_app_le hle)
  | @app t f a s s' svc app rest fs htop happ =>
    have hleads := app_leads (f := f) (a := a) happ
    have hle : (fs ++ rest).countP (AppFrame.adds c) ≤ (app t).countP (AppFrame.adds c) := by
      have hfs := countP_adds_leads (c := c) hleads
      rw [htop, ← List.singleton_append, List.countP_append, List.countP_append]
      omega
    by_cases hf : f = .pool_add_locked c
    · -- The locked section ends the add.
      subst hf
      have hpos : 0 < (app t).countP (AppFrame.adds c) := by simp [htop, AppFrame.adds]
      have hmem : c ∈ added ls := by
        by_contra hnew
        have hzero := (h.fresh hnew).2 t
        dsimp only at hzero
        omega
      have hsingle := h.one.single t
      have hends : (fs ++ rest).countP (AppFrame.adds c) = 0 := by
        simp only [AppFrame.leads, List.mem_cons, List.not_mem_nil, or_false] at hleads
        rw [show (⟨s, svc, app⟩ : Config).app t = .pool_add_locked c :: rest from htop] at hsingle
        rcases hleads with rfl | rfl <;> simp [AppFrame.adds] at hsingle ⊢ <;> exact hsingle
      have hgone := h.one.release hpos hends
      refine ⟨fun hnew => ?_, fun u hu => ?_, h.one.update hle⟩
      · rw [added_snoc, List.mem_append, not_or] at hnew
        exact absurd hmem hnew.1
      · dsimp only at hu
        rw [hgone u] at hu
        omega
    · refine h.pass ?_ (h.one.update hle) (countP_update_app_le hle)
      cases app_registers happ with
      | same _ hs _ | start _ hs _ | clear _ hs _ => exact hs.joined c
      | @add d _ _ _ hjoined =>
        dsimp only
        rw [hjoined, if_neg]
        rintro rfl
        exact hf rfl

/-- In a run that adds distinct clients, no add finds its client in the pool. -/
theorem Follows.once {ok : Config → Label → Prop} {client : ClientId → wsp_client}
    (hfresh : ∀ c, (client c).Fresh) (h : system.Follows ok (initial client) ls cfg)
    (hdistinct : (added ls).Nodup) (c : ClientId) : Once c ls cfg := by
  revert hdistinct
  refine h.invariant (I := fun ls cfg => (added ls).Nodup → Once c ls cfg) (fun _ => ?_)
    fun ls cfg l cfg' _ hmove hbefore hdistinct => ?_
  · exact ⟨fun _ => ⟨(hfresh c).pool, fun _ => rfl⟩, fun _ _ => (hfresh c).pool, .idle⟩
  · refine Once.step hmove hdistinct (hbefore ?_)
    rw [added_snoc] at hdistinct
    exact (List.nodup_append.mp hdistinct).1

theorem Follows.adds_once {ok : Config → Label → Prop} {client : ClientId → wsp_client}
    (hfresh : ∀ c, (client c).Fresh) (h : system.Follows ok (initial client) ls cfg)
    (hdistinct : (added ls).Nodup) :
    system.Follows (fun cfg l => ok cfg l ∧ AddsOnce cfg l) (initial client) ls cfg := by
  induction h with
  | nil => exact .nil
  | @snoc ls mid last l hmid hok hstep ih =>
    have hbefore : (added ls).Nodup := by
      rw [added_snoc] at hdistinct
      exact (List.nodup_append.mp hdistinct).1
    refine (ih hbefore).snoc ⟨hok, fun c hadds => ?_⟩ hstep
    cases l with
    | app t a =>
      obtain ⟨rest, htop⟩ := hadds
      exact (Follows.once hfresh hmid hbefore c).adding t (by simp [htop, AppFrame.adds])
    | event _ | svc _ | call _ _ => exact hadds.elim

end lws_client.ws_pool
