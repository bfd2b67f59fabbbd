import LwsClientDemo.WsPool.Clients

open interleaving

namespace lws_client.ws_pool

/-- How an event moves the thread. -/
inductive Turns (s s' : Sys) : Prop where
  | stay : s'.thread = s.thread → Turns s s'
  | run : s.thread = .created → s'.thread = .running → Turns s s'
  | exit : s.thread = .running → s.pool.destroying = true → s'.thread = .exited → Turns s s'
  | destroyed : s.thread = .destroying → s'.thread = .exited → Turns s s'

theorem deliver_served {e : Event} {s s' : Sys} {fs : List Frame}
    (h : s.deliver e = some (fs, s')) :
    Served s s' ∧ Turns s s' ∧ (fs ≠ [] → s'.thread = .running ∨ s'.thread = .destroying) := by
  cases e with
  | service_thread =>
    simp only [Sys.deliver, Option.ite_none_right_eq_some, Option.some.injEq, Prod.mk.injEq] at h
    obtain ⟨hcreated, rfl, rfl⟩ := h
    exact ⟨⟨fun _ => rfl, fun _ => rfl, rfl, rfl, rfl, rfl, rfl⟩, .run hcreated rfl, by simp⟩
  | callback c w r a =>
    simp only [Sys.deliver, Option.ite_none_right_eq_some, Bool.and_eq_true] at h
    obtain ⟨⟨_, henabled⟩, h⟩ := h
    obtain ⟨hserved, hthread⟩ := callback_served h
    refine ⟨hserved, .stay hthread, fun _ => ?_⟩
    rw [hthread]
    cases r <;> simp [lws_context.enables] at henabled <;> tauto
  | event_wait_cancelled wsi =>
    simp only [Sys.deliver, Option.ite_none_right_eq_some, Option.some.injEq, Prod.mk.injEq] at h
    obtain ⟨⟨hrun, _⟩, _, rfl⟩ := h
    exact ⟨(Served.refl s).setLws _, .stay rfl, fun _ => .inl hrun⟩
  | sul_reconnect_cb c =>
    simp only [Sys.deliver, Option.ite_none_right_eq_some, Option.some.injEq, Prod.mk.injEq] at h
    obtain ⟨⟨hrun, _⟩, _, rfl⟩ := h
    exact ⟨.act s s.lws rfl rfl, .stay rfl, fun _ => .inl hrun⟩
  | exit =>
    simp only [Sys.deliver, Option.ite_none_right_eq_some, Option.some.injEq, Prod.mk.injEq] at h
    obtain ⟨⟨hrun, hdestroying⟩, rfl, rfl⟩ := h
    exact ⟨⟨fun _ => rfl, fun _ => rfl, rfl, rfl, rfl, rfl, rfl⟩, .exit hrun hdestroying rfl, by simp⟩
  | context_destroyed =>
    simp only [Sys.deliver, Option.ite_none_right_eq_some, Option.some.injEq, Prod.mk.injEq] at h
    obtain ⟨⟨hthread, _⟩, rfl, rfl⟩ := h
    exact ⟨⟨fun _ => rfl, fun _ => rfl, rfl, rfl, rfl, rfl, rfl⟩, .destroyed hthread rfl, by simp⟩

/-- Frames of the calls any thread may make. -/
def AppFrame.guest : AppFrame → Bool
  | .enqueue _ _ _ | .enqueue_locked _ _ _ | .enqueue_wake _ | .lws_cancel_service _
  | .wsp_pool_add _ | .pool_add_locked _ | .pool_add_wake
  | .wsp_client_stop _ | .stop_sul_cancel _ | .stop_locked _ | .stop_wait _ | .stop_flush _
  | .wsp_client_destroy _ => true
  | _ => false

/-- What such a call leaves to the owner of the pool. -/
structure Lent (s s' : Sys) : Prop where
  thread : s'.thread = s.thread
  ctx : s'.pool.ctx = s.pool.ctx
  thread_started : s'.pool.thread_started = s.pool.thread_started
  destroying : s'.pool.destroying = s.pool.destroying
  freed : s'.freed = s.freed

theorem Lent.refl (s : Sys) : Lent s s := ⟨rfl, rfl, rfl, rfl, rfl⟩

theorem Lent.act (s : Sys) (c : ClientId) (r : wsp_client × List Act) : Lent s (s.act c r) :=
  ⟨rfl, rfl, rfl, rfl, rfl⟩

theorem app_guest {f : AppFrame} {a : Answer} {s s' : Sys} {fs : List AppFrame}
    (h : s.app f a = some (fs, s')) (hf : f.guest = true) :
    Lent s s' ∧ ∀ g ∈ fs, g.guest = true := by
  cases f with
  | enqueue c data is_binary =>
    cases data <;> cases h
    · exact ⟨.act s c _, by simp⟩
    · exact ⟨.refl s, by simp [AppFrame.guest]⟩
  | enqueue_locked c data is_binary =>
    simp only [Sys.app, Option.some.injEq, Prod.mk.injEq] at h
    obtain ⟨rfl, rfl⟩ := h
    refine ⟨.act s c _, fun g hg => ?_⟩
    rw [List.mem_ite_nil_right, List.mem_singleton] at hg
    rw [hg.2]
    rfl
  | enqueue_wake c =>
    cases h
    refine ⟨.refl s, fun g hg => ?_⟩
    split at hg <;> simp at hg
    rw [hg]
    rfl
  | lws_cancel_service _ | pool_add_wake =>
    cases h
    exact ⟨⟨rfl, rfl, rfl, rfl, rfl⟩, by simp⟩
  | wsp_pool_add c =>
    simp only [Sys.app] at h
    split at h <;> cases h
    · exact ⟨.act s c _, by simp⟩
    · exact ⟨.refl s, by simp [AppFrame.guest]⟩
  | pool_add_locked c =>
    simp only [Sys.app] at h
    split at h
    · cases h
    · split at h
      · cases h
        exact ⟨.act s c _, by simp⟩
      · next pool hadd =>
        cases h
        rw [wsp_pool.add_spec hadd]
        refine ⟨⟨rfl, rfl, rfl, rfl, rfl⟩, fun g hg => ?_⟩
        split at hg <;> simp at hg
        rw [hg]
        rfl
  | wsp_client_stop c =>
    simp only [Sys.app] at h
    split at h <;> cases h
    · exact ⟨.refl s, by simp⟩
    · exact ⟨.act s c _, by simp [AppFrame.guest]⟩
  | stop_sul_cancel c =>
    cases h
    refine ⟨?_, by simp [AppFrame.guest]⟩
    split
    · exact .act s c _
    · exact .refl s
  | stop_locked c =>
    simp only [Sys.app] at h
    split at h
    · split at h <;> cases h <;> exact ⟨⟨rfl, rfl, rfl, rfl, rfl⟩, by simp [AppFrame.guest]⟩
    · cases h
      exact ⟨.act s c _, by simp [AppFrame.guest]⟩
  | stop_wait c =>
    simp only [Sys.app] at h
    split at h
    · cases h
      exact ⟨.act s c _, by simp [AppFrame.guest]⟩
    · split at h
      · cases h
      · split at h <;> cases h
        · exact ⟨.refl s, by simp [AppFrame.guest]⟩
        · exact ⟨.act s c _, by simp [AppFrame.guest]⟩
  | stop_flush c =>
    simp only [Sys.app, Option.map_eq_some_iff, Prod.mk.injEq] at h
    obtain ⟨_, _, rfl, rfl⟩ := h
    exact ⟨.act s c _, by simp⟩
  | wsp_client_destroy c =>
    simp only [Sys.app, Option.map_eq_some_iff, Prod.mk.injEq] at h
    obtain ⟨_, hdestroy, rfl, rfl⟩ := h
    obtain ⟨freed, rfl⟩ := Sys.destroy_client_eq hdestroy
    exact ⟨.act s c _, by simp⟩
  | _ => cases hf

/-- The service thread has been created and not been told to end. -/
def Sys.Started (s : Sys) : Prop :=
  (s.thread = .created ∨ s.thread = .running) ∧ s.pool.ctx = true ∧ s.pool.destroying = false

/-- Between calls of the owner: not started, or started for good. -/
def Sys.Idle (s : Sys) : Prop :=
  (s.thread = .none ∧ s.pool.thread_started = false) ∨ (s.pool.thread_started = true ∧ s.Started)

/-- What the owner's stack says about the thread. -/
inductive Owner : List AppFrame → Sys → Prop where
  | guests {fs : List AppFrame} {s : Sys} : (∀ f ∈ fs, f.guest = true) → s.Idle → Owner fs s
  | start {s : Sys} : s.thread = .none → s.pool.thread_started = false →
      Owner [.wsp_pool_start] s
  | create {s : Sys} : s.thread = .none → s.pool.thread_started = false → s.pool.ctx = true →
      Owner [.start_thread] s
  | created {s : Sys} : s.Started → Owner [.start_return] s
  | notify {f : AppFrame} {s : Sys} : f = .start_pending ∨ f = .start_cancel →
      s.pool.thread_started = true → s.Started → Owner [f] s
  | destroy {s : Sys} : s.Idle → Owner [.wsp_pool_destroy] s
  | stop {pre : List AppFrame} {rem snap : List ClientId} {s : Sys} :
      (∀ f ∈ pre, f.guest = true) → s.Idle →
      Owner (pre ++ [.destroy_stop rem, .destroy_thread, .destroy_clients snap,
        .destroy_pending snap]) s
  | thread {snap : List ClientId} {s : Sys} : s.Idle →
      Owner [.destroy_thread, .destroy_clients snap, .destroy_pending snap] s
  | join {pre : List AppFrame} {snap : List ClientId} {s : Sys} :
      pre = [] ∨ pre = [.destroy_cancel] → s.pool.ctx = true →
      s.thread = .created ∨ s.thread = .running ∨ s.thread = .exited →
      Owner (pre ++ [.destroy_join, .destroy_context, .destroy_clients snap,
        .destroy_pending snap]) s
  | context {snap : List ClientId} {s : Sys} : s.thread = .none ∨ s.thread = .exited →
      Owner [.destroy_context, .destroy_clients snap, .destroy_pending snap] s
  | context_return {snap : List ClientId} {s : Sys} : s.thread = .destroying ∨ s.thread = .exited →
      Owner [.destroy_context_return, .destroy_clients snap, .destroy_pending snap] s
  | free {pre : List AppFrame} {rem snap : List ClientId} {s : Sys} :
      (∀ f ∈ pre, f.guest = true) → s.thread = .none ∨ s.thread = .exited →
      Owner (pre ++ [.destroy_clients rem, .destroy_pending snap]) s
  | last {snap : List ClientId} {s : Sys} : s.thread = .none ∨ s.thread = .exited →
      Owner [.destroy_pending snap] s
  | freed {fs : List AppFrame} {s : Sys} : fs = [] → s.thread = .none ∨ s.thread = .exited →
      s.freed = true → Owner fs s

theorem Sys.Started.congr {s s' : Sys} (h : s.Started) (hs : Lent s s') : s'.Started :=
  ⟨by rw [hs.thread]; exact h.1, hs.ctx.trans h.2.1, hs.destroying.trans h.2.2⟩

theorem Sys.Idle.congr {s s' : Sys} (h : s.Idle) (hs : Lent s s') : s'.Idle :=
  h.imp (fun ⟨hthread, hstarted⟩ => ⟨hs.thread.trans hthread, hs.thread_started.trans hstarted⟩)
    fun ⟨hstarted, hup⟩ => ⟨hs.thread_started.trans hstarted, hup.congr hs⟩

theorem Owner.congr {fs : List AppFrame} {s s' : Sys} (h : Owner fs s) (hs : Lent s s') :
    Owner fs s' := by
  cases h with
  | guests hfs hidle => exact .guests hfs (hidle.congr hs)
  | start hthread hstarted => exact .start (hs.thread.trans hthread) (hs.thread_started.trans hstarted)
  | create hthread hstarted hctx =>
    exact .create (hs.thread.trans hthread) (hs.thread_started.trans hstarted) (hs.ctx.trans hctx)
  | created hup => exact .created (hup.congr hs)
  | notify hf hstarted hup => exact .notify hf (hs.thread_started.trans hstarted) (hup.congr hs)
  | destroy hidle => exact .destroy (hidle.congr hs)
  | stop hpre hidle => exact .stop hpre (hidle.congr hs)
  | thread hidle => exact .thread (hidle.congr hs)
  | join hpre hctx hthread => exact .join hpre (hs.ctx.trans hctx) (hs.thread ▸ hthread)
  | context hthread => exact .context (hs.thread ▸ hthread)
  | context_return hthread => exact .context_return (hs.thread ▸ hthread)
  | free hpre hthread => exact .free hpre (hs.thread ▸ hthread)
  | last hthread => exact .last (hs.thread ▸ hthread)
  | freed hfs hthread hfreed => exact .freed hfs (hs.thread ▸ hthread) (hs.freed.trans hfreed)

theorem Sys.Started.turns {s s' : Sys} (h : s.Started) (hs : Served s s') (hturns : Turns s s') :
    s'.Started := by
  obtain ⟨hthread, hctx, hdestroying⟩ := h
  refine ⟨?_, hs.ctx.trans hctx, hs.destroying.trans hdestroying⟩
  cases hturns with
  | stay heq => rwa [heq]
  | run _ hrun => exact .inr hrun
  | exit _ hexit _ =>
    rw [hdestroying] at hexit
    cases hexit
  | destroyed hgone _ => rcases hthread with hthread | hthread <;> rw [hgone] at hthread <;> cases hthread

/-- Once ended or never started, the thread stays so. -/
theorem Turns.ended {s s' : Sys} (h : Turns s s') (hthread : s.thread = .none ∨ s.thread = .exited) :
    s'.thread = .none ∨ s'.thread = .exited := by
  cases h with
  | stay heq => rwa [heq]
  | run heq _ | exit heq _ _ | destroyed heq _ =>
    rcases hthread with hthread | hthread <;> rw [heq] at hthread <;> cases hthread

theorem Turns.none {s s' : Sys} (h : Turns s s') (hthread : s.thread = .none) : s'.thread = .none := by
  rcases h.ended (.inl hthread) with hnone | hexited
  · exact hnone
  · cases h with
    | stay heq => rw [heq, hthread]
    | run heq _ | exit heq _ _ | destroyed heq _ =>
      rw [hthread] at heq
      cases heq

theorem Sys.Idle.turns {s s' : Sys} (h : s.Idle) (hs : Served s s') (hturns : Turns s s') :
    s'.Idle :=
  h.imp (fun ⟨hthread, hstarted⟩ => ⟨hturns.none hthread, hs.thread_started.trans hstarted⟩)
    fun ⟨hstarted, hup⟩ => ⟨hs.thread_started.trans hstarted, hup.turns hs hturns⟩

/-- The service thread moves under the owner's stack. -/
theorem Owner.turns {fs : List AppFrame} {s s' : Sys} (h : Owner fs s) (hs : Served s s')
    (hturns : Turns s s') : Owner fs s' := by
  cases h with
  | guests hfs hidle => exact .guests hfs (hidle.turns hs hturns)
  | start hthread hstarted =>
    exact .start (hturns.none hthread) (hs.thread_started.trans hstarted)
  | create hthread hstarted hctx =>
    exact .create (hturns.none hthread) (hs.thread_started.trans hstarted) (hs.ctx.trans hctx)
  | created hup => exact .created (hup.turns hs hturns)
  | notify hf hstarted hup =>
    exact .notify hf (hs.thread_started.trans hstarted) (hup.turns hs hturns)
  | destroy hidle => exact .destroy (hidle.turns hs hturns)
  | stop hpre hidle => exact .stop hpre (hidle.turns hs hturns)
  | thread hidle => exact .thread (hidle.turns hs hturns)
  | join hpre hctx hthread =>
    refine .join hpre (hs.ctx.trans hctx) ?_
    cases hturns with
    | stay heq => rwa [heq]
    | run _ hrun => exact .inr (.inl hrun)
    | exit _ _ hexited | destroyed _ hexited => exact .inr (.inr hexited)
  | context hthread => exact .context (hturns.ended hthread)
  | context_return hthread =>
    refine .context_return ?_
    cases hturns with
    | stay heq => rwa [heq]
    | run heq _ | exit heq _ _ => rcases hthread with hthread | hthread <;> rw [heq] at hthread <;> cases hthread
    | destroyed _ hexited => exact .inr hexited
  | free hpre hthread => exact .free hpre (hturns.ended hthread)
  | last hthread => exact .last (hturns.ended hthread)
  | freed hfs hthread hfreed => exact .freed hfs (hturns.ended hthread) (hs.freed.trans hfreed)

/-- A section of a call any thread may make goes on under the owner's stack. -/
theorem Owner.replace {stack fs rest : List AppFrame} {f : AppFrame} {s : Sys} (h : Owner stack s)
    (htop : stack = f :: rest) (hf : f.guest = true) (hfs : ∀ g ∈ fs, g.guest = true) :
    Owner (fs ++ rest) s := by
  have hmix : ∀ {pre : List AppFrame}, (∀ g ∈ f :: pre, g.guest = true) →
      ∀ g ∈ fs ++ pre, g.guest = true := by
    intro pre hpre g hg
    rcases List.mem_append.mp hg with hg | hg
    · exact hfs g hg
    · exact hpre g (List.mem_cons_of_mem _ hg)
  cases h with
  | guests hall hidle =>
    subst htop
    exact .guests (hmix hall) hidle
  | @stop pre rem snap _ hpre hidle =>
    cases pre with
    | nil =>
      cases htop
      cases hf
    | cons g pre =>
      rw [List.cons_append, List.cons.injEq] at htop
      obtain ⟨rfl, rfl⟩ := htop
      rw [← List.append_assoc]
      exact .stop (hmix hpre) hidle
  | @join pre snap _ hpre hctx hthread =>
    rcases hpre with rfl | rfl <;> cases htop <;> cases hf
  | @free pre rem snap _ hpre hthread =>
    cases pre with
    | nil =>
      cases htop
      cases hf
    | cons g pre =>
      rw [List.cons_append, List.cons.injEq] at htop
      obtain ⟨rfl, rfl⟩ := htop
      rw [← List.append_assoc]
      exact .free (hmix hpre) hthread
  | notify hg _ _ => rcases hg with rfl | rfl <;> cases htop <;> cases hf
  | freed hnil _ _ =>
    rw [hnil] at htop
    cases htop
  | _ =>
    cases htop
    cases hf

theorem Lent.trans {s s' s'' : Sys} (h₁ : Lent s s') (h₂ : Lent s' s'') : Lent s s'' :=
  ⟨h₂.thread.trans h₁.thread, h₂.ctx.trans h₁.ctx, h₂.thread_started.trans h₁.thread_started,
    h₂.destroying.trans h₁.destroying, h₂.freed.trans h₁.freed⟩

theorem destroy_all_lent {s s' : Sys} {cs : List ClientId} (h : s.destroy_all cs = some s') :
    Lent s s' := by
  refine destroy_all_rule Lent.refl Lent.trans (fun hone => ?_) h
  obtain ⟨freed, rfl⟩ := Sys.destroy_client_eq hone
  exact .act _ _ _

/-- A section of `wsp_pool_start` or `wsp_pool_destroy` leads from an owner's
    stack to an owner's stack, and leaves a service thread that is busy. -/
theorem owner_app {stack fs rest : List AppFrame} {f : AppFrame} {a : Answer} {s s' : Sys}
    (howner : Owner stack s) (htop : stack = f :: rest) (hf : f.guest = false)
    (h : s.app f a = some (fs, s')) :
    Owner (fs ++ rest) s' ∧
      (s.thread = .running ∨ s.thread = .destroying → s'.thread = s.thread) := by
  have hended : s.thread = .none ∨ s.thread = .exited →
      (s.thread = .running ∨ s.thread = .destroying → s'.thread = s.thread) := by
    rintro (hthread | hthread) (hbusy | hbusy) <;> rw [hthread] at hbusy <;> cases hbusy
  have hnotGuest : ∀ {pre : List AppFrame} {g : AppFrame}, (∀ h ∈ g :: pre, h.guest = true) →
      g = f → False := by
    rintro pre g hpre rfl
    rw [hpre g (List.mem_cons_self ..)] at hf
    cases hf
  cases howner with
  | guests hall _ =>
    subst htop
    exact (hnotGuest hall rfl).elim
  | start hthread hstarted =>
    cases htop
    simp only [Sys.app] at h
    split at h <;> cases h
    · exact ⟨.create hthread hstarted rfl, fun _ => rfl⟩
    · exact ⟨.guests (by simp) (.inl ⟨hthread, hstarted⟩), fun _ => rfl⟩
  | create hthread hstarted hctx =>
    cases htop
    refine ⟨?_, hended (.inl hthread)⟩
    simp only [Sys.app] at h
    split at h <;> cases h
    · exact .created ⟨.inl rfl, hctx, rfl⟩
    · exact .guests (by simp) (.inl ⟨hthread, hstarted⟩)
  | created hup =>
    cases htop
    cases h
    exact ⟨.notify (.inl rfl) rfl hup, fun _ => rfl⟩
  | notify hg hstarted hup =>
    rcases hg with rfl | rfl <;> cases htop <;> cases h
    · refine ⟨?_, fun _ => rfl⟩
      split
      · exact .guests (by simp) (.inr ⟨hstarted, hup⟩)
      · exact .notify (.inr rfl) hstarted hup
    · exact ⟨.guests (by simp) (.inr ⟨hstarted, hup⟩), fun _ => rfl⟩
  | destroy hidle =>
    cases htop
    cases h
    exact ⟨@Owner.stop [] _ _ _ (by simp) hidle, fun _ => rfl⟩
  | @stop pre rem snap _ hpre hidle =>
    cases pre with
    | cons g pre =>
      rw [List.cons_append, List.cons.injEq] at htop
      exact (hnotGuest hpre htop.1).elim
    | nil =>
      cases htop
      cases rem with
      | nil =>
        cases h
        exact ⟨.thread hidle, fun _ => rfl⟩
      | cons c rem =>
        cases h
        exact ⟨@Owner.stop [.wsp_client_stop c] _ _ _ (by simp [AppFrame.guest]) hidle, fun _ => rfl⟩
  | thread hidle =>
    cases htop
    rcases hidle with ⟨hthread, hstarted⟩ | ⟨hstarted, hthread, hctx, _⟩ <;>
      simp [Sys.app, hstarted] at h <;> obtain ⟨rfl, rfl⟩ := h
    · exact ⟨.context (.inl hthread), fun _ => rfl⟩
    · exact ⟨@Owner.join [.destroy_cancel] _ _ (.inr rfl) hctx (hthread.imp_right .inl),
        fun _ => rfl⟩
  | @join pre snap _ hpre hctx hthread =>
    rcases hpre with rfl | rfl
    · cases htop
      simp only [Sys.app, Option.ite_none_right_eq_some, Option.some.injEq, Prod.mk.injEq] at h
      obtain ⟨hexited, rfl, rfl⟩ := h
      exact ⟨.context (.inr hexited), fun _ => rfl⟩
    · cases htop
      simp only [Sys.app, hctx, if_true, Option.some.injEq, Prod.mk.injEq] at h
      obtain ⟨rfl, rfl⟩ := h
      exact ⟨@Owner.join [] _ _ (.inl rfl) hctx hthread, fun _ => rfl⟩
  | context hthread =>
    cases htop
    refine ⟨?_, hended hthread⟩
    simp only [Sys.app] at h
    split at h <;> cases h
    · exact .context_return (.inl rfl)
    · exact @Owner.free [] _ _ _ (by simp) hthread
  | context_return hthread =>
    cases htop
    simp only [Sys.app, Option.ite_none_right_eq_some, Option.some.injEq, Prod.mk.injEq] at h
    obtain ⟨hexited, rfl, rfl⟩ := h
    exact ⟨@Owner.free [] _ _ _ (by simp) (.inr hexited), fun _ => rfl⟩
  | @free pre rem snap _ hpre hthread =>
    cases pre with
    | cons g pre =>
      rw [List.cons_append, List.cons.injEq] at htop
      exact (hnotGuest hpre htop.1).elim
    | nil =>
      cases htop
      refine ⟨?_, hended hthread⟩
      cases rem with
      | nil =>
        cases h
        exact .last hthread
      | cons c rem =>
        cases h
        exact @Owner.free [.wsp_client_destroy c] _ _ _ (by simp [AppFrame.guest]) hthread
  | last hthread =>
    cases htop
    simp only [Sys.app, Option.map_eq_some_iff, Prod.mk.injEq] at h
    obtain ⟨mid, hdestroy, rfl, rfl⟩ := h
    have hlent := destroy_all_lent hdestroy
    exact ⟨.freed rfl (by rw [← hlent.thread] at hthread; exact hthread) rfl, hended hthread⟩
  | freed hnil _ _ =>
    rw [hnil] at htop
    cases htop

/-- Only the owner's calls move the thread. -/
theorem app_thread {f : AppFrame} {a : Answer} {s s' : Sys} {fs : List AppFrame}
    (h : s.app f a = some (fs, s')) : s'.thread = s.thread ∨
      (f = .start_thread ∧ s'.thread = .created) ∨ (f = .destroy_context ∧ s'.thread = .destroying) := by
  by_cases hf : f.guest = true
  · exact .inl (app_guest h hf).1.thread
  · cases f with
    | start_thread =>
      simp only [Sys.app] at h
      split at h <;> cases h
      · exact .inr (.inl ⟨rfl, rfl⟩)
      · exact .inl rfl
    | destroy_context =>
      simp only [Sys.app] at h
      split at h <;> cases h
      · exact .inr (.inr ⟨rfl, rfl⟩)
      · exact .inl rfl
    | wsp_pool_start | destroy_thread =>
      simp only [Sys.app] at h
      split at h <;> cases h <;> exact .inl rfl
    | destroy_cancel =>
      cases h
      split <;> exact .inl rfl
    | destroy_join | destroy_context_return =>
      simp only [Sys.app, Option.ite_none_right_eq_some, Option.some.injEq, Prod.mk.injEq] at h
      obtain ⟨_, _, rfl⟩ := h
      exact .inl rfl
    | destroy_stop snap | destroy_clients snap => cases snap <;> cases h <;> exact .inl rfl
    | destroy_pending snap =>
      simp only [Sys.app, Option.map_eq_some_iff, Prod.mk.injEq] at h
      obtain ⟨_, hdestroy, _, rfl⟩ := h
      exact .inl (destroy_all_lent hdestroy).thread
    | start_return | start_pending | start_cancel | wsp_pool_destroy =>
      cases h
      exact .inl rfl
    | _ => exact absurd rfl hf

/-- Only the last section of `wsp_pool_destroy` frees the pool. -/
theorem app_freed {f : AppFrame} {a : Answer} {s s' : Sys} {fs : List AppFrame}
    (h : s.app f a = some (fs, s')) :
    s'.freed = s.freed ∨ ∃ snap, f = .destroy_pending snap ∧ s'.freed = true := by
  by_cases hf : f.guest = true
  · exact .inl (app_guest h hf).1.freed
  · cases f with
    | wsp_pool_start | start_thread | destroy_thread | destroy_context =>
      simp only [Sys.app] at h
      split at h <;> cases h <;> exact .inl rfl
    | destroy_join | destroy_context_return =>
      simp only [Sys.app, Option.ite_none_right_eq_some, Option.some.injEq, Prod.mk.injEq] at h
      obtain ⟨_, _, rfl⟩ := h
      exact .inl rfl
    | destroy_cancel =>
      cases h
      split <;> exact .inl rfl
    | destroy_stop snap | destroy_clients snap => cases snap <;> cases h <;> exact .inl rfl
    | start_return | start_pending | start_cancel | wsp_pool_destroy =>
      cases h
      exact .inl rfl
    | destroy_pending snap =>
      simp only [Sys.app, Option.map_eq_some_iff, Prod.mk.injEq] at h
      obtain ⟨_, _, _, rfl⟩ := h
      exact .inr ⟨snap, rfl, rfl⟩
    | _ => exact absurd rfl hf

/-- The pool is started from rest. -/
theorem Owner.not_started {stack rest : List AppFrame} {f : AppFrame} {s : Sys}
    (h : Owner stack s) (htop : stack = f :: rest) (hf : f = .wsp_pool_start ∨ f = .start_thread) :
    s.thread = .none := by
  cases h with
  | start hthread _ | create hthread _ _ => exact hthread
  | guests hall _ =>
    subst htop
    have hguest := hall f (List.mem_cons_self ..)
    rcases hf with rfl | rfl <;> cases hguest
  | @stop pre rem snap _ hpre _ | @free pre rem snap _ hpre _ =>
    cases pre with
    | nil => rcases hf with rfl | rfl <;> cases htop
    | cons g pre =>
      rw [List.cons_append, List.cons.injEq] at htop
      have hguest := hpre g (List.mem_cons_self ..)
      rw [htop.1] at hguest
      rcases hf with rfl | rfl <;> cases hguest
  | join hpre _ _ =>
    rcases hpre with rfl | rfl <;> rcases hf with rfl | rfl <;> cases htop
  | notify hg _ _ =>
    rcases hg with rfl | rfl <;> rcases hf with rfl | rfl <;> cases htop
  | freed hnil _ _ =>
    rw [hnil] at htop
    cases htop
  | _ => rcases hf with rfl | rfl <;> cases htop

theorem Owner.idle {stack : List AppFrame} {s : Sys} (h : Owner stack s) (hnil : stack = [])
    (hfreed : s.freed = false) : s.Idle := by
  cases h with
  | guests _ hidle => exact hidle
  | stop _ _ | join _ _ _ | free _ _ => simp at hnil
  | freed _ _ hgone =>
    rw [hfreed] at hgone
    cases hgone
  | _ => cases hnil

/-- The owner starts and destroys the pool; the other threads make the calls any
    thread may make; the service thread runs callbacks only while it is running,
    or inside `lws_context_destroy`. -/
structure Lifecycle (cfg : Config) : Prop where
  guests : ∀ t, t ≠ 0 → ∀ f ∈ cfg.app t, f.guest = true
  owner : Owner (cfg.app 0) cfg.shared
  busy : cfg.svc ≠ [] → cfg.shared.thread = .running ∨ cfg.shared.thread = .destroying

theorem Lifecycle.step {cfg cfg' : Config} {l : Label} (hmove : system.Moves cfg l cfg')
    (h : Lifecycle cfg) : Lifecycle cfg' := by
  obtain ⟨hguests, howner, hbusy⟩ := h
  cases hmove with
  | event hdeliver =>
    obtain ⟨hserved, hturns, hframes⟩ := deliver_served hdeliver
    exact ⟨hguests, howner.turns hserved hturns, hframes⟩
  | svc hsvc =>
    obtain ⟨hserved, hthread⟩ := svc_served hsvc
    refine ⟨hguests, howner.turns hserved (.stay hthread), fun _ => ?_⟩
    rw [hthread]
    exact hbusy (by simp)
  | @call t f s svc app hidle hcall =>
    simp only [system, Sys.call, Bool.and_eq_true, Bool.not_eq_true'] at hcall
    obtain ⟨hfreed, hcall⟩ := hcall
    refine ⟨fun u hu g hg => ?_, ?_, hbusy⟩
    · rcases mem_update_app.mp hg with ⟨rfl, hmem⟩ | ⟨_, hmem⟩
      · obtain rfl := List.mem_singleton.mp hmem
        cases g <;> first | rfl | simp [hu] at hcall
      · exact hguests u hu g hmem
    · by_cases ht : t = 0
      · subst ht
        have hready := howner.idle hidle hfreed
        cases f with
        | wsp_pool_start =>
          simp only [Bool.and_eq_true, Bool.not_eq_true'] at hcall
          rcases hready with ⟨hthread, hstarted⟩ | ⟨hstarted, _⟩
          · simpa using Owner.start hthread hstarted
          · rw [hcall.2] at hstarted
            cases hstarted
        | wsp_pool_destroy => simpa using Owner.destroy hready
        | enqueue _ _ _ | wsp_pool_add _ | wsp_client_stop _ | wsp_client_destroy _ =>
          exact .guests (by simp [AppFrame.guest]) hready
        | _ => cases hcall
      · simpa [Function.update_of_ne (Ne.symm ht)] using howner
  | @app t f a s s' svc app rest fs htop happ =>
    by_cases hf : f.guest = true
    · obtain ⟨hlent, hfs⟩ := app_guest happ hf
      refine ⟨fun u hu g hg => ?_, ?_, by rw [hlent.thread]; exact hbusy⟩
      · rcases mem_update_app.mp hg with ⟨rfl, hmem⟩ | ⟨_, hmem⟩
        · rcases List.mem_append.mp hmem with hmem | hmem
          · exact hfs g hmem
          · exact hguests u hu g (by simp [htop, hmem])
        · exact hguests u hu g hmem
      · by_cases ht : t = 0
        · subst ht
          simpa using (howner.congr hlent).replace htop hf hfs
        · simpa [Function.update_of_ne (Ne.symm ht)] using howner.congr hlent
    · have ht : t = 0 := by
        by_contra ht
        exact hf (hguests t ht f (by simp [htop]))
      subst ht
      obtain ⟨howner', hkept⟩ := owner_app howner htop (by simpa using hf) happ
      refine ⟨fun u hu g hg => ?_, by simpa using howner', fun hne => ?_⟩
      · simp only [Function.update_of_ne hu] at hg
        exact hguests u hu g hg
      · have hthread := hbusy hne
        dsimp only at hthread ⊢
        rwa [hkept hthread]

/-- The pool is started when the thread has not been created. -/
theorem Lifecycle.none {s : Sys} {svc : List Frame} {app : Nat → List AppFrame} {t : Nat}
    {f : AppFrame} {rest : List AppFrame} (h : Lifecycle ⟨s, svc, app⟩) (htop : app t = f :: rest)
    (hf : f = .wsp_pool_start ∨ f = .start_thread) : s.thread = .none := by
  have ht : t = 0 := by
    by_contra ht
    have hguest := h.guests t ht f (by simp [htop])
    rcases hf with rfl | rfl <;> cases hguest
  subst ht
  exact h.owner.not_started htop hf

/-- The context outlives the running thread. -/
theorem Owner.ctx {fs : List AppFrame} {s : Sys} (h : Owner fs s) (hrun : s.thread = .running) :
    s.pool.ctx = true := by
  have hidle : s.Idle → s.pool.ctx = true := by
    rintro (⟨hnone, _⟩ | ⟨_, _, hctx, _⟩)
    · rw [hnone] at hrun
      cases hrun
    · exact hctx
  cases h with
  | guests _ hready | destroy hready | stop _ hready | thread hready => exact hidle hready
  | created hstarted | notify _ _ hstarted => exact hstarted.2.1
  | join _ hctx _ => exact hctx
  | start hthread _ | create hthread _ _ =>
    rw [hthread] at hrun
    cases hrun
  | context hthread | context_return hthread | free _ hthread | last hthread | freed _ hthread _ =>
    rcases hthread with hthread | hthread <;> rw [hthread] at hrun <;> cases hrun

theorem initial_lifecycle (client : ClientId → wsp_client) : Lifecycle (initial client) :=
  ⟨fun _ _ _ hf => (by cases hf), .guests (fun _ hf => by cases hf) (.inl ⟨rfl, rfl⟩),
    fun hne => absurd rfl hne⟩

/-- In every run of the pool, under any condition on its steps. -/
theorem Reaches.lifecycle {ok : Config → Label → Prop} {client : ClientId → wsp_client}
    {cfg : Config} (h : system.Reaches ok (initial client) cfg) : Lifecycle cfg :=
  h.invariant (initial_lifecycle client) fun _ _ _ _ hmove => Lifecycle.step hmove

/-- Behind the top frame the service thread has only the loops of
    EVENT_WAIT_CANCELLED and the rest of a failing connect call. -/
theorem Reaches.behind {ok : Config → Label → Prop} {client : ClientId → wsp_client}
    {cfg : Config} (h : system.Reaches ok (initial client) cfg) :
    ∀ f ∈ cfg.svc.tail, f.behind = true := by
  refine h.invariant (I := fun cfg => ∀ f ∈ cfg.svc.tail, f.behind = true)
    (fun f hf => by cases hf) fun cfg l cfg' _ hmove hmid => ?_
  cases hmove with
  | event hdeliver =>
    intro f hf
    rw [deliver_behind hdeliver] at hf
    cases hf
  | @svc f a s s' app rest fs hsvc =>
    intro g hg
    cases fs with
    | nil => exact hmid g (List.mem_of_mem_tail hg)
    | cons f' fs =>
      rcases List.mem_append.mp hg with hg | hg
      · exact svc_behind hsvc g hg
      · exact hmid g hg
  | call _ _ => exact hmid
  | app _ _ => exact hmid

/-- A stop in progress has marked its client. -/
theorem Reaches.stopping {ok : Config → Label → Prop} {client : ClientId → wsp_client}
    {cfg : Config} (h : system.Reaches ok (initial client) cfg) {t : Nat} {f : AppFrame}
    {c : ClientId} (hf : f ∈ cfg.app t) (hc : f.stops = some c) :
    (cfg.shared.client c).stopping = true := by
  revert t f c
  refine h.invariant (I := fun cfg => ∀ {t : Nat} {f : AppFrame} {c : ClientId}, f ∈ cfg.app t →
    f.stops = some c → (cfg.shared.client c).stopping = true) (fun hf => by cases hf)
    fun cfg l cfg' _ hmove hmid => ?_
  intro u g c hg hc
  cases hmove with
  | event hdeliver => exact ((deliver_served hdeliver).1.stopping c).trans (hmid hg hc)
  | svc hsvc => exact ((svc_served hsvc).1.stopping c).trans (hmid hg hc)
  | @call t f s svc app hidle hcall =>
    rcases mem_update_app.mp hg with ⟨rfl, hmem⟩ | ⟨_, hmem⟩
    · obtain rfl := List.mem_singleton.mp hmem
      have hnone : g.stops = none := by
        cases g <;> first | rfl | simp [system, Sys.call] at hcall
      rw [hnone] at hc
      cases hc
    · exact hmid hmem hc
  | @app t f a s s' svc app rest fs htop happ =>
    have honward := (app_advance happ c).stopping
    rcases mem_update_app.mp hg with ⟨rfl, hmem⟩ | ⟨_, hmem⟩
    · rcases List.mem_append.mp hmem with hmem | hmem
      · rcases app_stops happ hmem hc with hstops | hstopping
        · exact honward (hmid (t := u) (by simp [htop]) hstops)
        · exact hstopping
      · exact honward (hmid (t := u) (by simp [htop, hmem]) hc)
    · exact honward (hmid hmem hc)

end lws_client.ws_pool
