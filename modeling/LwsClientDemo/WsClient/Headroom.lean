import LwsClientDemo.WsClient.Queue

open interleaving

namespace lws_client.ws_client

theorem ping_buf_sized : Sized (ping_buf, 0, .LWS_WRITE_PING) := ⟨by decide, fun h => absurd rfl h⟩

/-- What a step hands to `lws_write` has header room: a dequeued node, or the
    array of the ping branch. -/
theorem step_sized {cfg cfg' : Config} {l : Label} (hmove : system.Moves cfg l cfg') :
    ∃ acts, cfg'.shared.trace = cfg.shared.trace ++ acts ∧ ∀ x ∈ writes acts, Sized x := by
  have hnone : ∀ {acts : List Act}, writes acts = [] → ∀ x ∈ writes acts, Sized x := by
    intro acts hacts x hx
    rw [hacts] at hx
    cases hx
  cases hmove with
  | event hdeliver =>
    obtain ⟨acts, htrace, heffect⟩ := deliver_spec hdeliver
    refine ⟨acts, htrace, ?_⟩
    cases heffect with
    | plain _ hplain _ _ => exact hnone hplain.writes
    | receive ho hacts _ =>
      exact hnone (hacts ▸ writes_of_delivers (receive_acts (fun _ _ => rfl) ho))
    | ping hacts _ =>
      intro x hx
      obtain rfl : x = (ping_buf, 0, .LWS_WRITE_PING) := by
        simpa [hacts, writes, writeable_ping] using hx
      exact ping_buf_sized
    | dequeue _ hacts _ => exact hnone (hacts ▸ rfl)
    | exit _ _ _ hacts _ => exact hnone (by simp [hacts, writes, List.filterMap_map])
  | svc hsvc =>
    obtain ⟨_, _, acts, htrace, hacts⟩ := svc_spec hsvc
    refine ⟨acts, htrace, ?_⟩
    rcases hacts with ⟨hplain, _⟩ | ⟨w, n, more, _, rfl⟩
    · exact hnone hplain.writes
    · intro x hx
      obtain rfl := List.mem_singleton.mp hx
      exact n.sized _
  | call _ _ => exact ⟨[], (List.append_nil _).symm, hnone rfl⟩
  | app _ happ =>
    obtain ⟨_, _, acts, htrace, hacts⟩ := app_spec happ
    refine ⟨acts, htrace, ?_⟩
    rcases hacts with ⟨_, hplain⟩ | ⟨_, _, rfl⟩ | ⟨n, data, is_binary, _, _, rfl⟩
    · exact hnone hplain.writes
    · exact hnone rfl
    · exact hnone rfl

theorem Reachable.sized {cfg : Config} (h : Reachable cfg) :
    ∀ x ∈ writes cfg.shared.trace, Sized x := by
  obtain ⟨c, hc, hreach⟩ := h
  refine hreach.invariant (I := fun mid => ∀ x ∈ writes mid.shared.trace, Sized x)
    (fun x hx => by cases hx) fun mid l next _ hmove hmid x hx => ?_
  obtain ⟨acts, htrace, hacts⟩ := step_sized hmove
  rw [htrace, writes_append] at hx
  rcases List.mem_append.mp hx with hx | hx
  · exact hmid x hx
  · exact hacts x hx

/-- Every write has header room, and a data write carries an accepted message. -/
theorem Reachable.headroom {cfg : Config} (h : Reachable cfg) :
    ∀ x ∈ writes cfg.shared.trace,
      HasRoom x.1 x.2.1 ∧ Carries cfg.shared.trace x.1 x.2.1 x.2.2 := by
  intro x hx
  obtain ⟨hroom, hsize⟩ := h.sized x hx
  refine ⟨hroom, ?_⟩
  by_cases hwp : x.2.2 = .LWS_WRITE_PING
  · exact .inl hwp
  · exact .inr ⟨hsize hwp, h.fifo.accepted_of_frame (mem_frames hx hwp)⟩

end lws_client.ws_client
