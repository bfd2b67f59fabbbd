import LwsClientDemo.Traffic

namespace lws_client

/-- What a call asks of the connection it is made on: writing, and setting the
    timer, need an open one, the other calls one that has not ended. -/
def Act.Needs (opened live : WsiId → Prop) : Act → Prop
  | .lws_write w _ _ _ | .lws_set_timer_usecs w _ => opened w
  | .lws_callback_on_writable w | .lws_close_reason w | .on_handshake_header w => live w
  | _ => True

/-- The calls that are made on no connection. -/
def Act.handleless : Act → Bool
  | .lws_write _ _ _ _ | .lws_set_timer_usecs _ _ | .lws_callback_on_writable _ => false
  | .lws_close_reason _ | .on_handshake_header _ => false
  | _ => true

/-- The calls that API functions make. -/
def Act.of_app : Act → Bool
  | .send_returns _ _ _ | .add_returns _ | .stop_times_out | .stop_returns => true
  | .lws_cancel_service | .lws_sul_cancel | .pthread_create => true
  | .free_node _ _ | .flush_node _ _ | .client_destroy => true
  | _ => false

theorem Act.handleless_of_app (act : Act) (h : act.of_app = true) : act.handleless = true := by
  cases act <;> first | rfl | simp [Act.of_app] at h

/-- The connections have what all the calls need. -/
def Meets (opened live : WsiId → Prop) (acts : List Act) : Prop :=
  ∀ act ∈ acts, act.Needs opened live

section meets

variable {opened live : WsiId → Prop} {act : Act} {acts : List Act}

theorem Act.needs_of_handleless (h : act.handleless = true) : act.Needs opened live := by
  cases act <;> first | exact trivial | simp [Act.handleless] at h

theorem Meets.of_every (h : Every Act.handleless acts) : Meets opened live acts :=
  fun act hact => Act.needs_of_handleless (h act hact)

theorem Meets.of_app (h : Every Act.of_app acts) : Meets opened live acts :=
  .of_every (h.mono Act.handleless_of_app)

theorem Meets.nil : Meets opened live [] := by simp [Meets]

theorem Meets.cons (h : act.Needs opened live) (h' : Meets opened live acts) :
    Meets opened live (act :: acts) := by
  simpa [Meets] using ⟨h, h'⟩

theorem Meets.single (h : act.Needs opened live) : Meets opened live [act] := by
  simpa [Meets] using h

theorem Meets.pair {act' : Act} (h : act.Needs opened live) (h' : act'.Needs opened live) :
    Meets opened live [act, act'] :=
  .cons h (.single h')

theorem Meets.append {acts' : List Act} (h : Meets opened live acts) (h' : Meets opened live acts') :
    Meets opened live (acts ++ acts') := by
  intro act hact
  rcases List.mem_append.mp hact with hmem | hmem
  · exact h act hmem
  · exact h' act hmem

theorem Meets.callIf {set : Bool} (h : act.Needs opened live) :
    Meets opened live (callIf set act) := by
  cases set
  · exact .nil
  · exact .single h

/-- A call on a connection pointer needs nothing when it is NULL. -/
theorem Meets.onWsi {wsi : Option WsiId} {f : WsiId → Act}
    (h : ∀ w, wsi = some w → (f w).Needs opened live) : Meets opened live (onWsi wsi f) := by
  cases wsi with
  | none => exact .nil
  | some w => exact .single (h w rfl)

theorem Meets.mono {opened' live' : WsiId → Prop} (h : Meets opened live acts)
    (hopened : ∀ w, opened w → opened' w) (hlive : ∀ w, live w → live' w) :
    Meets opened' live' acts := by
  intro act hact
  have hneeds := h act hact
  cases act with
  | lws_write w _ _ _ | lws_set_timer_usecs w _ => exact hopened w hneeds
  | lws_callback_on_writable w | lws_close_reason w | on_handshake_header w => exact hlive w hneeds
  | _ => trivial

end meets

/-- lws takes the calls: their connections are there, and open where they have to be. -/
abbrev lws_context.TakesAll (x : lws_context) : List Act → Prop :=
  Meets (fun w => x.phase w = some .established) x.Live

/-- Only the phases of the connections count. -/
theorem lws_context.TakesAll.congr {x y : lws_context} {acts : List Act} (h : x.TakesAll acts)
    (hphase : ∀ w, y.phase w = x.phase w) : y.TakesAll acts :=
  h.mono (fun w hopen => (hphase w).trans hopen) fun w hlive => by
    simpa only [lws_context.Live, hphase] using hlive

end lws_client
