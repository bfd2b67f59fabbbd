import LwsClientDemo.WsPool.Sections

open interleaving

namespace lws_client.ws_pool

/-- Sections that lws runs inside a connect call of client `c` that fails. -/
def Frame.nested (c : ClientId) : Frame → Bool
  | .connection_error d _ | .wsi_destroy d _ | .schedule_reconnect d | .schedule_arm d => d == c
  | _ => false

/-- The loops of EVENT_WAIT_CANCELLED, which go on behind what they start. -/
def Frame.loops : Frame → Bool
  | .wc_connect _ | .wc_visit _ => true
  | _ => false

/-- Code that is run by itself, outside of a failing connect call. -/
def Frame.single : Frame → Bool
  | .connection_error _ _ | .wsi_destroy _ _ | .connect_return _ none => false
  | _ => true

/-- What the service thread still has to run: at most one section, or the rest of
    one failing connect call, and then loops. -/
inductive Stack : List Frame → Prop where
  | nil : Stack []
  | single {f : Frame} {loops : List Frame} :
      f.single = true → (∀ g ∈ loops, g.loops = true) → Stack (f :: loops)
  | failing {c : ClientId} {ns loops : List Frame} :
      (∀ n ∈ ns, n.nested c = true) → (∀ g ∈ loops, g.loops = true) →
        Stack (ns ++ .connect_return c none :: loops)

variable {s s' : Sys} {f : Frame} {rest fs loops : List Frame} {c : ClientId}

theorem Frame.single_of_loops (h : f.loops = true) : f.single = true := by
  cases f <;> first | rfl | cases h

theorem Stack.of_loops (h : ∀ g ∈ loops, g.loops = true) : Stack loops := by
  cases loops with
  | nil => exact .nil
  | cons g loops =>
    exact .single (Frame.single_of_loops (h g (by simp))) fun g hg => h g (List.mem_cons_of_mem _ hg)

/-- The frame is one of a failing connect call, or of the `schedule_reconnect`
    behind it. -/
def Frame.inside : Frame → Bool
  | .connection_error _ _ | .wsi_destroy _ _ | .connect_return _ none | .schedule_reconnect _
  | .schedule_arm _ => true
  | _ => false

theorem Frame.inside_of_nested (h : f.nested c = true) : f.inside = true := by
  cases f <;> first | rfl | cases h

/-- Any other section has only loops behind it. -/
theorem Stack.loops_behind (h : Stack (f :: rest)) (hf : f.inside = false) :
    ∀ g ∈ rest, g.loops = true := by
  generalize hfs : f :: rest = fs at h
  cases h with
  | nil => cases hfs
  | single _ hloops =>
    cases hfs
    exact hloops
  | @failing c ns loops hns _ =>
    cases ns with
    | nil =>
      cases hfs
      cases hf
    | cons n ns =>
      cases hfs
      rw [Frame.inside_of_nested (hns f (by simp))] at hf
      cases hf

/-- The return of a failing connect call has only loops behind it too. -/
theorem Stack.loops_behind_return (h : Stack (.connect_return c none :: rest)) :
    ∀ g ∈ rest, g.loops = true := by
  generalize hfs : Frame.connect_return c none :: rest = fs at h
  cases h with
  | nil => cases hfs
  | single hsingle _ =>
    cases hfs
    cases hsingle
  | @failing d ns loops hns hloops =>
    cases ns with
    | nil =>
      cases hfs
      exact hloops
    | cons n ns =>
      cases hfs
      have hn := hns (.connect_return c none) (by simp)
      cases hn

/-- A section inside a failing connect call is followed by another one of it, or
    by nothing. -/
theorem Stack.replace (h : Stack (f :: rest)) (hf : f.nested c = true)
    (hfs : ∀ g ∈ fs, g.nested c = true ∧ g.single = true) (hlen : fs.length ≤ 1) :
    Stack (fs ++ rest) := by
  generalize htop : f :: rest = gs at h
  cases h with
  | nil => cases htop
  | single _ hloops =>
    cases htop
    match fs with
    | [] => exact .of_loops hloops
    | [g] => exact .single (hfs g (by simp)).2 hloops
    | _ :: _ :: _ => simp at hlen
  | @failing d ns loops hns hloops =>
    cases ns with
    | nil =>
      cases htop
      cases hf
    | cons n ns =>
      cases htop
      have hd : d = c := by
        have hn := hns f (by simp)
        cases f <;> first | exact (beq_iff_eq.mp hn).symm.trans (beq_iff_eq.mp hf) | cases hn
      subst hd
      change Stack (fs ++ (ns ++ .connect_return d none :: loops))
      rw [← List.append_assoc]
      refine .failing (fun n hn => ?_) hloops
      rcases List.mem_append.mp hn with hg | hg
      · exact (hfs n hg).1
      · exact hns n (List.mem_cons_of_mem _ hg)

theorem svc_stack {a : Answer} (h : s.svc f a = some (fs, s')) (hstack : Stack (f :: rest)) :
    Stack (fs ++ rest) := by
  cases f with
  | do_connect c =>
    have hloops := hstack.loops_behind rfl
    simp only [Sys.svc] at h
    split at h <;> cases h
    · exact .single rfl hloops
    · next error destroyed _ =>
      rw [List.append_assoc]
      refine .failing (c := c) (fun n hn => ?_) hloops
      cases error <;> cases destroyed <;> simp at hn
      · rw [hn]
        simp [Frame.nested]
      · rw [hn]
        simp [Frame.nested]
      · rcases hn with rfl | rfl <;> simp [Frame.nested]
  | connection_error c msg =>
    simp only [Sys.svc, Option.some.injEq, Prod.mk.injEq] at h
    obtain ⟨rfl, _⟩ := h
    refine hstack.replace (c := c) (by simp [Frame.nested]) (fun g hg => ?_) (by split <;> simp)
    split at hg
    · cases hg
    · rw [List.mem_singleton.mp hg]
      simp [Frame.nested, Frame.single]
  | schedule_reconnect c =>
    simp only [Sys.svc, Option.some.injEq, Prod.mk.injEq] at h
    obtain ⟨rfl, _⟩ := h
    refine hstack.replace (c := c) (by simp [Frame.nested]) (fun g hg => ?_) (by split <;> simp)
    split at hg
    · cases hg
    · rw [List.mem_singleton.mp hg]
      simp [Frame.nested, Frame.single]
  | wsi_destroy c w | schedule_arm c =>
    cases h
    exact hstack.replace (c := c) (by simp [Frame.nested]) (by simp) (by simp)
  | connect_return c wsi =>
    cases wsi with
    | none =>
      cases h
      exact .single rfl hstack.loops_behind_return
    | some w =>
      cases h
      exact .of_loops (hstack.loops_behind rfl)
  | has_data_check c w =>
    have hloops := hstack.loops_behind rfl
    simp only [Sys.svc, Option.some.injEq, Prod.mk.injEq] at h
    obtain ⟨rfl, _⟩ := h
    split
    · exact .single rfl hloops
    · exact .of_loops hloops
  | write c w n more =>
    have hloops := hstack.loops_behind rfl
    simp only [Sys.svc] at h
    split at h <;> cases h
    · exact .of_loops hloops
    · split
      · exact .single rfl hloops
      · exact .of_loops hloops
  | wc_connect pend =>
    have hloops := hstack.loops_behind rfl
    cases pend <;> cases h
    · exact .single rfl hloops
    · exact .single rfl (List.forall_mem_cons.mpr ⟨rfl, hloops⟩)
  | wc_visit snap =>
    have hloops := hstack.loops_behind rfl
    cases snap with
    | nil =>
      cases h
      exact .of_loops hloops
    | cons c snap =>
      simp only [Sys.svc] at h
      split at h
      · cases h
        exact .single rfl hloops
      · split at h
        · cases h
          exact .single rfl hloops
        · split at h <;> cases h
          · exact .single rfl (List.forall_mem_cons.mpr ⟨rfl, hloops⟩)
          · exact .single rfl hloops
  | lws_callback_on_writable c w =>
    cases h
    exact .of_loops (hstack.loops_behind rfl)
  | event_wait_cancelled | wc_snapshot =>
    cases h
    exact .single rfl (hstack.loops_behind rfl)

/-- A callback leaves one more section to run at most. -/
theorem callback_frames {w : WsiId} {a : Answer} {r : Reason}
    (h : s.callback c w a r = some (fs, s')) :
    fs = [] ∨ ∃ f, fs = [f] ∧ f.single = true ∧ (f = .schedule_reconnect c ∨ f.inside = false) := by
  cases r with
  | CLIENT_RECEIVE chunk =>
    simp only [Sys.callback, Option.map_eq_some_iff, Prod.mk.injEq] at h
    obtain ⟨_, _, rfl, _⟩ := h
    exact .inl rfl
  | CLIENT_WRITEABLE =>
    simp only [Sys.callback] at h
    split at h
    · cases h
      exact .inr ⟨_, rfl, rfl, .inr rfl⟩
    · split at h <;> cases h
      · exact .inl rfl
      · exact .inr ⟨_, rfl, rfl, .inr rfl⟩
  | CLIENT_CONNECTION_ERROR _ | CLIENT_CLOSED =>
    simp only [Sys.callback, Option.some.injEq, Prod.mk.injEq] at h
    obtain ⟨rfl, _⟩ := h
    split
    · exact .inl rfl
    · exact .inr ⟨_, rfl, rfl, .inl rfl⟩
  | CLIENT_ESTABLISHED | TIMER | CLIENT_RECEIVE_PONG | WSI_DESTROY |
    CLIENT_APPEND_HANDSHAKE_HEADER =>
    cases h
    exact .inl rfl

theorem deliver_stack {e : Event} (h : s.deliver e = some (fs, s')) : Stack fs := by
  cases e with
  | callback c w r a =>
    simp only [Sys.deliver, Option.ite_none_right_eq_some] at h
    rcases callback_frames h.2 with rfl | ⟨f, rfl, hsingle, _⟩
    · exact .nil
    · exact .single hsingle (by simp)
  | event_wait_cancelled _ | sul_reconnect_cb _ =>
    simp only [Sys.deliver, Option.ite_none_right_eq_some, Option.some.injEq, Prod.mk.injEq] at h
    obtain ⟨_, rfl, _⟩ := h
    split
    · first | exact .nil | exact .single rfl (by simp)
    · first | exact .nil | exact .single rfl (by simp)
  | service_thread | exit | context_destroyed =>
    simp only [Sys.deliver, Option.ite_none_right_eq_some, Option.some.injEq, Prod.mk.injEq] at h
    obtain ⟨_, rfl, _⟩ := h
    exact .nil

/-- In every run the service thread is in one connect call at most. -/
theorem Reaches.stack {ok : Config → Label → Prop} {client : ClientId → wsp_client} {cfg : Config}
    (h : system.Reaches ok (initial client) cfg) : Stack cfg.svc := by
  refine h.invariant (I := fun cfg => Stack cfg.svc) .nil fun cfg l cfg' _ hmove hbefore => ?_
  cases hmove with
  | event hdeliver => exact deliver_stack hdeliver
  | svc hsvc => exact svc_stack hsvc hbefore
  | call _ _ | app _ _ => exact hbefore

/-- Inside a failing connect call the return of NULL is still to come. -/
theorem Stack.returns {msg : Option String} (h : Stack (.connection_error c msg :: rest)) :
    .connect_return c none ∈ rest := by
  generalize hfs : Frame.connection_error c msg :: rest = fs at h
  cases h with
  | nil => cases hfs
  | single hsingle _ =>
    cases hfs
    cases hsingle
  | @failing d ns loops hns _ =>
    cases ns with
    | nil => cases hfs
    | cons n ns =>
      cases hfs
      obtain rfl : c = d := beq_iff_eq.mp (hns (.connection_error c msg) (by simp))
      simp

end lws_client.ws_pool
