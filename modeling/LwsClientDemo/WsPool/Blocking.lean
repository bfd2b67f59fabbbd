import LwsClientDemo.WsPool.Quiescent

open interleaving linked_queue

namespace lws_client.ws_pool

variable {s s' : Sys} {cfg cfg' : Config} {l : Label} {c d : ClientId} {top : Option Frame}
  {fs : List Frame}

/-- Only a connect call makes a connection. -/
theorem Relinks.lives (h : Relinks s s' top fs) (hb : s.lws.Bounded) :
    s'.lws.lives d ≤ s.lws.lives d ∨
      top = some (.do_connect d) ∧ fs = [.connect_return d (some s.lws.next)] := by
  cases h with
  | still hlinks _ _ _ | report _ _ hlinks _ _ _ _ _ | store hlinks _ | idle hlinks _ _ _ _ =>
    exact .inl (Nat.le_of_eq (hlinks.lives d))
  | establish _ hlink hlinks _ =>
    exact .inl (Nat.le_of_eq ((hlinks.lives d).trans (lws_context.lives_establish hlink d)))
  | close hlink hp hlinks _ _ _ _ _ =>
    have hclose := hb.lives_close hlink hp d
    have hsame := hlinks.lives d
    omega
  | remove _ _ hlinks _ _ _ =>
    have hle := s.lws.lives_remove_le (c := d)
    exact .inl ((hlinks.lives d).trans_le (hle _))
  | @connect b hlinks _ =>
    by_cases hbd : b = d
    · subst hbd
      exact .inr ⟨rfl, rfl⟩
    · have hlives := lws_context.lives_connect s.lws b d
      rw [beq_false_of_ne hbd, Bool.toNat_false, Nat.add_zero] at hlives
      exact .inl (Nat.le_of_eq ((hlinks.lives d).trans hlives))
  | refuse hlws _ _ =>
    rw [hlws]
    exact .inl (Nat.le_of_eq (lws_context.lives_skip hb d))
  | finish _ hlws _ _ =>
    rw [hlws, lws_context.lives_destroy]
    exact .inl (Nat.zero_le _)

/-- The service thread stops only a client that is stopping, and starts none again. -/
theorem Relinks.stopped (h : Relinks s s' top fs) :
    ((s.client d).stopped = true → (s'.client d).stopped = true) ∧
      ((s.client d).stopping = false → (s'.client d).stopped = (s.client d).stopped) := by
  have hother : ∀ {b : ClientId} {wsi : Option WsiId} {state : client_state_t} {stopped : Bool},
      Views s s' b (wsi, state, stopped) →
      ((s.client b).stopping = true → stopped = true) →
      ((s.client b).stopping = false → stopped = (s.client b).stopped) →
      ((s.client d).stopped = true → (s'.client d).stopped = true) ∧
        ((s.client d).stopping = false → (s'.client d).stopped = (s.client d).stopped) := by
    intro b wsi state stopped hviews hstop hkept
    by_cases hd : d = b
    · subst hd
      rw [hviews.self.2.2]
      refine ⟨fun hstopped => ?_, hkept⟩
      cases hstopping : (s.client d).stopping with
      | true => exact hstop hstopping
      | false => exact (hkept hstopping).trans hstopped
    · rw [(hviews.other hd).2.2]
      exact ⟨id, fun _ => rfl⟩
  have hsame : (s'.client d).stopped = (s.client d).stopped →
      ((s.client d).stopped = true → (s'.client d).stopped = true) ∧
        ((s.client d).stopping = false → (s'.client d).stopped = (s.client d).stopped) :=
    fun heq => ⟨fun hstopped => heq.trans hstopped, fun _ => heq⟩
  have hkeeps : ∀ {b : ClientId} {wsi : Option WsiId} {state : client_state_t},
      Views s s' b (wsi, state, (s.client b).stopped) →
      (s'.client d).stopped = (s.client d).stopped := by
    intro b wsi state hviews
    by_cases hd : d = b
    · subst hd
      exact hviews.self.2.2
    · exact (hviews.other hd).2.2
  cases h with
  | still _ hview _ _ | finish _ _ hview _ => exact hsame (wsp_client.view_eq (hview d)).2.2
  | close _ _ _ hviews _ hstop hkept _ | remove _ _ _ hviews hstop hkept
  | report _ _ _ hviews _ hstop hkept _ => exact hother hviews hstop hkept
  | establish _ _ _ hviews | connect _ hviews | refuse _ hviews _ | store _ hviews
  | idle _ _ hviews _ _ => exact hsame (hkeeps hviews)

/-- No API call makes a connection. -/
theorem app_lives {f : AppFrame} {a : Answer} {gs : List AppFrame} (h : s.app f a = some (gs, s'))
    (d : ClientId) : s'.lws.lives d ≤ s.lws.lives d := by
  cases app_registers h with
  | same hcalls _ _ | clear hcalls _ _ => exact Nat.le_of_eq (hcalls.sameLinks.lives d)
  | add hlws _ _ _ => exact Nat.le_of_eq (by rw [hlws])
  | start hlws _ _ =>
    rw [hlws, lws_context.lives_destroy]
    exact Nat.zero_le _

/-- What makes every `wsp_client_stop` of client `c` block until the client is
    stopped: a stop that does not wait finds no connection, the WSI_DESTROY that
    ends a stop is of the only one, none is made once the client is stopped, and
    a call that finds the client stopping comes after the stop that marked it. -/
structure Blocks (c : ClientId) (cfg : Config) (l : Label) : Prop where
  once : AddedOnce c cfg l
  locked : ∀ {t a rest}, l = .app t a → cfg.app t = .stop_locked c :: rest →
    cfg.shared.awaits c = false → cfg.shared.lws.lives c = 0
  last : DestroysLast c cfg l
  accepts : ∀ {a rest}, l = .svc a → cfg.svc = .do_connect c :: rest → a.connect = .accepted →
    (cfg.shared.client c).stopped = false
  second : ∀ {t a rest}, l = .app t a → cfg.app t = .wsp_client_stop c :: rest →
    ((cfg.shared.client c).stopping || (cfg.shared.client c).stopped) = true →
    .stop_returns ∈ cfg.shared.trace c ∨ .stop_times_out ∈ cfg.shared.trace c

/-- A stopped client has no connection. -/
def Ended (c : ClientId) (s : Sys) : Prop :=
  (s.client c).stopped = true → s.lws.lives c = 0

theorem deliver_ended {e : Event} {app : Nat → List AppFrame} (h : s.deliver e = some (fs, s'))
    (hok : Blocks c ⟨s, [], app⟩ (.event e)) (hlinked : Linked c ⟨s, [], app⟩) (hended : Ended c s) :
    Ended c s' := by
  intro hafter
  have hb := hlinked.joined.bounded
  have hrel := deliver_relinks h
  cases hbefore : (s.client c).stopped with
  | true =>
    rcases hrel.lives (d := c) hb with hle | ⟨htop, _⟩
    · exact Nat.le_zero.mp (hended hbefore ▸ hle)
    · cases htop
  | false =>
    have hstopping : (s.client c).stopping = true := by
      by_contra hrunning
      rw [hrel.stopped.2 (by simpa using hrunning), hbefore] at hafter
      cases hafter
    exact (deliver_ends h hok.last hlinked hstopping hbefore hafter).2.2

theorem svc_ended {f : Frame} {a : Answer} {app : Nat → List AppFrame} {rest : List Frame}
    (h : s.svc f a = some (fs, s')) (hok : Blocks c ⟨s, f :: rest, app⟩ (.svc a))
    (hlinked : Linked c ⟨s, f :: rest, app⟩) (hended : Ended c s) : Ended c s' := by
  intro hafter
  have hrel := svc_relinks h
  cases hbefore : (s.client c).stopped with
  | true =>
    rcases hrel.lives (d := c) hlinked.joined.bounded with hle | ⟨htop, rfl⟩
    · exact Nat.le_zero.mp (hended hbefore ▸ hle)
    · obtain rfl := Option.some.inj htop
      have haccepted : a.connect = .accepted := by
        simp only [Sys.svc] at h
        split at h
        · assumption
        · next error destroyed _ =>
          cases error <;> cases destroyed <;> simp at h
      have hrunning := hok.accepts rfl rfl haccepted
      dsimp only at hrunning
      rw [hbefore] at hrunning
      cases hrunning
  | false =>
    -- Only a connect call that reports its failure stops a client.
    have hone := hlinked.one
    cases hrel with
    | @report _ d _ _ _ hf _ hlinks hviews _ _ _ _ =>
      by_cases hd : c = d
      · subst hd
        exact (hlinks.lives c).trans (lives_of_retries hf hone)
      · rw [(hviews.other hd).2.2, hbefore] at hafter
        cases hafter
    | still _ hview _ _ =>
      rw [(wsp_client.view_eq (hview c)).2.2, hbefore] at hafter
      cases hafter
    | @connect d _ hviews | @refuse d _ _ hviews _ | @store d _ _ hviews
    | @idle _ d _ _ _ _ hviews _ _ =>
      by_cases hd : c = d
      · subst hd
        rw [hviews.self.2.2, hbefore] at hafter
        cases hafter
      · rw [(hviews.other hd).2.2, hbefore] at hafter
        cases hafter

/-- Only the second locked section of a stop stops its client from an API call. -/
theorem app_ended {f : AppFrame} {a : Answer} {gs rest : List AppFrame} {svc : List Frame}
    {app : Nat → List AppFrame} {t : Nat} (htop : app t = f :: rest)
    (happ : s.app f a = some (gs, s')) (hok : Blocks c ⟨s, svc, app⟩ (.app t a))
    (hended : Ended c s) : Ended c s' := by
  intro hafter
  refine Nat.le_zero.mp (Nat.le_trans (app_lives happ c) (Nat.le_of_eq ?_))
  by_cases hbefore : (s.client c).stopped = true
  · exact hended hbefore
  · by_cases hlocked : f = .stop_locked c
    · subst hlocked
      refine hok.locked rfl htop ?_
      simp only [Sys.app] at happ
      simp only [Sys.awaits]
      split at happ
      · cases happ
        simp [Sys.cancel, hbefore] at hafter
      · next hcond => rw [Bool.eq_false_iff.mpr hcond, Bool.false_and]
    · refine absurd ?_ hbefore
      by_cases hwait : f = .stop_wait c
      · subst hwait
        simp only [Sys.app] at happ
        split at happ
        · cases happ
          simpa using hafter
        · split at happ
          · cases happ
          · cases happ
            simpa using hafter
      · exact (app_waits happ hlocked hwait).1 ▸ hafter

theorem Reaches.ended {client : ClientId → wsp_client} (hfresh : ∀ c, (client c).Fresh)
    (h : system.Reaches (Blocks c) (initial client) cfg) : Ended c cfg.shared := by
  refine h.invariant_under (I := fun mid => Ended c mid.shared) (J := Linked c)
    (fun mid hmid => Reaches.linked (fun _ _ hok => hok.once) hfresh hmid)
    (fun hstopped => ?_) fun mid l next hlinked hok hmove hended => ?_
  · rw [show ((initial client).shared.client c).stopped = false from (hfresh c).stopped] at hstopped
    cases hstopped
  · cases hmove with
    | event hdeliver => exact deliver_ended hdeliver hok hlinked hended
    | svc hsvc => exact svc_ended hsvc hok hlinked hended
    | call _ _ => exact hended
    | app htop happ => exact app_ended htop happ hok hended

/-- The client is stopped, or its stop has run out of time. -/
def Finished (c : ClientId) (s : Sys) : Prop :=
  .stop_times_out ∈ s.trace c ∨ (s.client c).stopped = true

theorem Finished.step (hmove : system.Moves cfg l cfg') (h : Finished c cfg.shared) :
    Finished c cfg'.shared := by
  refine h.imp (fun hmem => (trace_grows hmove c).subset hmem) fun hstopped => ?_
  cases hmove with
  | event hdeliver => exact (deliver_relinks hdeliver).stopped.1 hstopped
  | svc hsvc => exact (svc_relinks hsvc).stopped.1 hstopped
  | call _ _ => exact hstopped
  | app _ happ => exact (app_advance happ c).stopped hstopped

theorem app_finishes {f : AppFrame} {a : Answer} {gs : List AppFrame}
    (happ : s.app f a = some (gs, s')) (hmem : .stop_flush c ∈ gs) : Finished c s' := by
  rcases leads_stop_flush (app_leads happ) hmem with rfl | rfl
  · simp only [Sys.app] at happ
    split at happ
    · split at happ
      · next hstopped =>
        cases happ
        exact .inr hstopped
      · cases happ
        simp at hmem
    · cases happ
      exact .inr (by simp)
  · simp only [Sys.app] at happ
    split at happ
    · cases happ
      exact .inl (by simp)
    · split at happ
      · cases happ
      · split at happ
        · next hstopped =>
          cases happ
          exact .inr hstopped
        · cases happ
          simp at hmem

/-- A stop of client `c` at its flush, or that has returned, has finished. -/
structure Finishes (c : ClientId) (cfg : Config) : Prop where
  flushing : ∀ t, .stop_flush c ∈ cfg.app t → Finished c cfg.shared
  returned : .stop_returns ∈ cfg.shared.trace c → Finished c cfg.shared

theorem Finishes.step (hmove : system.Moves cfg l cfg') (h : Finishes c cfg) : Finishes c cfg' := by
  have hstep := fun hfinished => Finished.step (c := c) hmove hfinished
  cases hmove with
  | event hdeliver =>
    exact ⟨fun t hf => hstep (h.flushing t hf), fun hreturned =>
      hstep (h.returned (((deliver_unmarked hdeliver c).mem_iff rfl).mp hreturned))⟩
  | svc hsvc =>
    exact ⟨fun t hf => hstep (h.flushing t hf), fun hreturned =>
      hstep (h.returned (((svc_unmarked hsvc c).mem_iff rfl).mp hreturned))⟩
  | @call t f s svc app hidle hcall =>
    refine ⟨fun u hu => ?_, h.returned⟩
    rcases mem_update_app.mp hu with ⟨_, hin⟩ | ⟨_, hin⟩
    · obtain rfl := List.mem_singleton.mp hin
      simp [system, Sys.call] at hcall
    · exact h.flushing u hin
  | @app t f a s s' svc app rest gs htop happ =>
    refine ⟨fun u hu => ?_, fun hreturned => ?_⟩
    · rcases mem_update_app.mp hu with ⟨_, hin⟩ | ⟨_, hin⟩
      · rcases List.mem_append.mp hin with hnew | hin
        · exact app_finishes (f := f) (a := a) happ hnew
        · exact hstep (h.flushing t (by dsimp only; rw [htop]; simp [hin]))
      · exact hstep (h.flushing u hin)
    · by_cases hf : f = .stop_flush c
      · exact hstep (h.flushing t (by dsimp only; rw [htop, hf]; simp))
      · exact hstep (h.returned (((app_marks (f := f) (a := a) happ c).returns_iff hf).mp hreturned))

/-- In every run of the pool, under any condition on its steps. -/
theorem Reaches.finishes {ok : Config → Label → Prop} {client : ClientId → wsp_client}
    (h : system.Reaches ok (initial client) cfg) (c : ClientId) : Finishes c cfg :=
  h.invariant (I := Finishes c) ⟨fun t hf => (by cases hf), fun hreturned => (by cases hreturned)⟩
    fun _ _ _ _ hmove => Finishes.step hmove

/-- A `wsp_client_stop` of client `c` returns in the step: behind its flush, or at
    once when it finds the client stopping or stopped. -/
def Returns (c : ClientId) (cfg : Config) : Label → Prop
  | .app t _ =>
    match cfg.app t with
    | .stop_flush d :: _ => d = c
    | .wsp_client_stop d :: _ =>
      d = c ∧ ((cfg.shared.client c).stopping || (cfg.shared.client c).stopped) = true
    | _ => False
  | _ => False

/-- When a `wsp_client_stop` of client `c` returns, the client is stopped, has no
    connection and an empty queue, or the stop that marked it has timed out. -/
theorem stop_blocks {client : ClientId → wsp_client} (hfresh : ∀ c, (client c).Fresh)
    (h : system.Reaches (Blocks c) (initial client) cfg) (hok : Blocks c cfg l)
    (hstep : system.step cfg l = some cfg') (hreturns : Returns c cfg l) :
    .stop_times_out ∈ cfg'.shared.trace c ∨
      ((cfg'.shared.client c).stopped = true ∧ (∀ w, cfg'.shared.lws.owns c w = false) ∧
        (cfg'.shared.client c).q.list.head = none ∧ (cfg'.shared.client c).q.q_msgs = 0) := by
  have hlater := h.step hok hstep
  have hmove := System.step_moves hstep
  have hended : ∀ {mid}, system.Reaches (Blocks c) (initial client) mid →
      (mid.shared.client c).stopped = true → ∀ w, mid.shared.lws.owns c w = false :=
    fun hmid hstopped =>
      ((Reaches.linked (fun _ _ hok => hok.once) hfresh hmid).joined.no_wsi
        (Reaches.ended hfresh hmid hstopped)).2
  have hempty : .stop_returns ∈ cfg'.shared.trace c →
      (cfg'.shared.client c).q.list.head = none ∧ (cfg'.shared.client c).q.q_msgs = 0 := by
    intro hreturned
    obtain ⟨⟨cells, hlinks, hcells⟩, hmsgs, _⟩ := (Reaches.flushed hfresh hlater c hreturned).2
    obtain rfl : cells = [] := by simpa using hcells
    exact ⟨(Queue.head_eq_none_iff hlinks).mpr rfl, hmsgs⟩
  -- Either way the stop that marked the client has returned, or timed out.
  have hreturned : .stop_times_out ∈ cfg'.shared.trace c ∨ .stop_returns ∈ cfg'.shared.trace c := by
    cases l with
    | app t a =>
      simp only [Returns] at hreturns
      split at hreturns
      · next d rest htop =>
        subst hreturns
        obtain ⟨ns, hholds, _⟩ := Reaches.ordered hfresh h d
        obtain ⟨q, hflush, _⟩ := hholds.flush
        simp only [System.step, htop, system, Sys.app, hflush, Option.map_some,
          Option.some.injEq] at hstep
        subst hstep
        exact .inr (by simp)
      · next d rest htop =>
        obtain ⟨rfl, hmarked⟩ := hreturns
        rcases hok.second rfl htop hmarked with hreturned | htimeout
        · exact .inr ((trace_grows hmove d).subset hreturned)
        · exact .inl ((trace_grows hmove d).subset htimeout)
      · cases hreturns
    | event _ | svc _ | call _ _ => exact hreturns.elim
  rcases hreturned with htimeout | hreturned
  · exact .inl htimeout
  · rcases (Reaches.finishes hlater c).returned hreturned with htimeout | hstopped
    · exact .inl htimeout
    · exact .inr ⟨hstopped, hended hlater hstopped, hempty hreturned⟩

/-- A step of which `Blocks 0` is plain. -/
def blocks_out (cfg : Config) (l : Label) : Bool :=
  waits_out cfg l &&
    match l with
    | .svc _ => !(cfg.shared.client 0).stopped
    | .app t _ =>
      match cfg.app t with
      | .wsp_client_stop _ :: _ =>
        !((cfg.shared.client 0).stopping || (cfg.shared.client 0).stopped) ||
          (cfg.shared.trace 0).any (fun act => act matches .stop_returns)
      | _ => true
    | _ => true

theorem blocks_of_blocks_out (honce : AddedOnce 0 cfg l) (h : blocks_out cfg l = true) :
    Blocks 0 cfg l := by
  simp only [blocks_out, Bool.and_eq_true] at h
  obtain ⟨hwaits, hmore⟩ := h
  have hcalm := stopsCalm_of_waits_out honce hwaits
  refine ⟨honce, fun hl htop hnot => (hcalm.locked hl htop hnot).lives, hcalm.last,
    fun hl _ _ => ?_, fun hl htop hmarked => ?_⟩
  · subst hl
    simpa using hmore
  · subst hl
    simp only [htop, hmarked, Bool.not_true, Bool.false_or, List.any_eq_true] at hmore
    obtain ⟨act, hact, hmatch⟩ := hmore
    cases act <;> first | exact .inl hact | cases hmatch

/-- Another thread stops the client again after its stop has returned. -/
def stopped_again_run : List Label := closed_run ++ [.call 2 (.wsp_client_stop 0)]

theorem stop_blocks_again : ∃ cfg cfg' : Config,
    system.Reaches Any (initial fresh_client) cfg ∧ Returns 0 cfg (.app 2 {}) ∧
      system.step cfg (.app 2 {}) = some cfg' ∧ (cfg'.shared.client 0).stopped = true ∧
      ∀ w, cfg'.shared.lws.owns 0 w = false := by
  obtain ⟨cfg, hfollows, htop, hlast, hintime, hnext⟩ : ∃ cfg,
      system.Follows (fun cfg l => blocks_out cfg l = true) (initial fresh_client) stopped_again_run cfg ∧
        cfg.app 2 = [.wsp_client_stop 0] ∧ blocks_out cfg (.app 2 {}) = true ∧
        ((cfg.shared.client 0).stopping = true ∧ (system.step cfg (.app 2 {})).all (fun last =>
          !(last.shared.trace 0).any Act.stop_timed_out) = true) ∧
        (system.step cfg (.app 2 {})).isSome = true :=
    System.exists_follows_of_run_eq (g := fun cfg => cfg.app 2) rfl (by decide)
  obtain ⟨cfg', hstep⟩ := Option.isSome_iff_exists.mp hnext
  have hfresh : ∀ c, (fresh_client c).Fresh := fun _ => wsp_client_create_fresh _ _ _ _
  have honce := Follows.adds_once hfresh hfollows (by decide)
  have hblocks := honce.reaches.mono fun _ _ hok => blocks_of_blocks_out (hok.2 0) hok.1
  have hreturns : Returns 0 cfg (.app 2 {}) := by
    simp [Returns, htop, hintime.1]
  have hok : Blocks 0 cfg (.app 2 {}) :=
    blocks_of_blocks_out (fun ⟨_, hadds⟩ => by simp [htop] at hadds) hlast
  refine ⟨cfg, cfg', hfollows.reaches.mono fun _ _ _ => trivial, hreturns, hstep, ?_⟩
  rcases stop_blocks hfresh hblocks hok hstep hreturns with htimeout | ⟨hstopped, hended, _⟩
  · rw [hstep, Option.all_some, Bool.not_eq_true'] at hintime
    exact absurd htimeout (any_stop_timed_out.mp hintime.2)
  · exact ⟨hstopped, hended⟩

/-- Another thread stops the client while its stop still waits. -/
def second_stop_run : List Label := blocked_run ++ [.call 2 (.wsp_client_stop 0)]

theorem second_stop_returns_early : ∃ cfg cfg' : Config,
    system.Follows Any (initial fresh_client) second_stop_run cfg ∧ Returns 0 cfg (.app 2 {}) ∧
      system.step cfg (.app 2 {}) = some cfg' ∧ (cfg'.app 2).isEmpty = true ∧
      (cfg'.shared.trace 0).all (fun act => !(act matches .stop_times_out)) = true ∧
      (cfg'.shared.client 0).stopped = false ∧ cfg'.shared.lws.owns 0 0 = true := by
  obtain ⟨cfg, hfollows, htop, hstopping, hnext⟩ : ∃ cfg,
      system.Follows Any (initial fresh_client) second_stop_run cfg ∧
        cfg.app 2 = [.wsp_client_stop 0] ∧ (cfg.shared.client 0).stopping = true ∧
        (system.step cfg (.app 2 {})).any (fun last => decide ((last.app 2).isEmpty = true ∧
          (last.shared.trace 0).any Act.stop_timed_out = false ∧
          (last.shared.client 0).stopped = false ∧ last.shared.lws.owns 0 0 = true)) = true :=
    System.exists_follows_of_run_eq (g := fun cfg => cfg.app 2) rfl (by decide)
  obtain ⟨cfg', hstep, hlast⟩ := Option.any_eq_true _ _ |>.mp hnext
  obtain ⟨hended, hintime, hmore⟩ := of_decide_eq_true hlast
  have hnone := any_stop_timed_out.mp hintime
  refine ⟨cfg, cfg', hfollows, by simp [Returns, htop, hstopping], hstep, hended, ?_, hmore⟩
  refine List.all_eq_true.mpr fun act hact => ?_
  cases act with
  | stop_times_out => exact absurd hact hnone
  | _ => rfl

end lws_client.ws_pool
