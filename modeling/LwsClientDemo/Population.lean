import LwsClientDemo.Lws

namespace lws_client

/-- Counting below `n` when two predicates differ at most at `w`. -/
theorem countP_range_exchange {p q : Nat → Bool} {n w : Nat} (hw : w < n)
    (hsame : ∀ v, v ≠ w → p v = q v) :
    (List.range n).countP p + (q w).toNat = (List.range n).countP q + (p w).toNat := by
  induction n with
  | zero => omega
  | succ n ih =>
    have hone : ∀ r : Nat → Bool, (List.range (n + 1)).countP r =
        (List.range n).countP r + (r n).toNat := by
      intro r
      rw [List.range_succ, List.countP_append]
      cases hr : r n <;> simp [hr]
    rw [hone p, hone q]
    by_cases hwn : w = n
    · subst hwn
      have hbelow : (List.range w).countP p = (List.range w).countP q := by
        refine List.countP_congr fun v hv => ?_
        rw [hsame v (by have := List.mem_range.mp hv; omega)]
      omega
    · rw [hsame n (Ne.symm hwn)]
      have := ih (by omega)
      omega

namespace lws_context

/-- The user and the phase of a connection. -/
def link (x : lws_context) (w : WsiId) : Option (Nat × WsiPhase) :=
  (x.wsi w).map fun i => (i.user, i.phase)

/-- Connection `w` belongs to user `c` and has not ended. -/
def owns (x : lws_context) (c : Nat) (w : WsiId) : Bool :=
  (x.link w).any fun l => l.1 == c && l.2 != .closed

/-- The number of connections of user `c` that have not ended. -/
def lives (x : lws_context) (c : Nat) : Nat := (List.range x.next).countP (x.owns c)

/-- Only ids below `next` have been used. -/
def Bounded (x : lws_context) : Prop := ∀ w, x.next ≤ w → x.wsi w = none

/-- Two contexts with the same connections in the same phases. -/
structure SameLinks (x y : lws_context) : Prop where
  next : y.next = x.next
  link : ∀ w, y.link w = x.link w

variable {x y z : lws_context} {c : Nat} {w v : WsiId}

theorem SameLinks.refl (x : lws_context) : SameLinks x x := ⟨rfl, fun _ => rfl⟩

theorem SameLinks.trans (h₁ : SameLinks x y) (h₂ : SameLinks y z) : SameLinks x z :=
  ⟨h₂.next.trans h₁.next, fun w => (h₂.link w).trans (h₁.link w)⟩

theorem owns_congr (h : y.link w = x.link w) (c : Nat) : y.owns c w = x.owns c w := by
  rw [owns, h, owns]

theorem SameLinks.owns (h : SameLinks x y) (c : Nat) (w : WsiId) : y.owns c w = x.owns c w :=
  owns_congr (h.link w) c

theorem SameLinks.lives (h : SameLinks x y) (c : Nat) : y.lives c = x.lives c := by
  rw [lws_context.lives, h.next, funext (h.owns c), lws_context.lives]

theorem SameLinks.bounded (h : SameLinks x y) (hx : x.Bounded) : y.Bounded := by
  intro w hw
  have hnone := h.link w
  rw [h.next] at hw
  simpa [lws_context.link, hx w hw] using hnone

theorem phase_eq_link (x : lws_context) (w : WsiId) : x.phase w = (x.link w).map Prod.snd := by
  simp [phase, link, Function.comp_def]

theorem sameLinks_modify (x : lws_context) (w : WsiId) {f : Wsi → Wsi}
    (hf : ∀ i, (f i).user = i.user ∧ (f i).phase = i.phase) : SameLinks x (x.modify w f) := by
  refine ⟨rfl, fun v => ?_⟩
  by_cases hv : v = w
  · subst hv
    simp [link, modify, Function.comp_def, hf]
  · simp [link, modify, hv]

theorem sameLinks_fail (x : lws_context) (w : WsiId) : SameLinks x (x.fail w) :=
  x.sameLinks_modify w fun _ => ⟨rfl, rfl⟩

theorem sameLinks_performs (x : lws_context) (acts : List Act) : SameLinks x (x.performs acts) := by
  induction acts generalizing x with
  | nil => exact .refl x
  | cons act acts ih =>
    refine SameLinks.trans ?_ (ih (x.perform act))
    cases act with
    | lws_callback_on_writable w =>
      apply x.sameLinks_modify w
      intro i
      split <;> exact ⟨rfl, rfl⟩
    | lws_set_timer_usecs w usecs => exact x.sameLinks_modify w fun _ => ⟨rfl, rfl⟩
    | lws_cancel_service => exact ⟨rfl, fun _ => rfl⟩
    | _ => exact .refl x

theorem Calls.sameLinks (h : x.Calls y) : SameLinks x y := by
  obtain ⟨acts, rfl⟩ := h
  exact x.sameLinks_performs acts

theorem owns_eq_true : x.owns c w = true ↔ ∃ p, x.link w = some (c, p) ∧ p ≠ .closed := by
  rw [owns, Option.any_eq_true]
  constructor
  · rintro ⟨⟨user, p⟩, hlink, hl⟩
    simp only [Bool.and_eq_true, beq_iff_eq, bne_iff_ne] at hl
    exact ⟨p, by rw [hlink, hl.1], hl.2⟩
  · rintro ⟨p, hlink, hp⟩
    exact ⟨(c, p), hlink, by simp [hp]⟩

theorem Bounded.lt (h : x.Bounded) {l : Nat × WsiPhase} (hlink : x.link w = some l) :
    w < x.next := by
  by_contra hw
  rw [link, h w (Nat.le_of_not_lt hw)] at hlink
  cases hlink

/-- A connection that has not ended is counted. -/
theorem Bounded.lives_pos (h : x.Bounded) (howns : x.owns c w = true) : 0 < x.lives c := by
  obtain ⟨p, hlink, _⟩ := owns_eq_true.mp howns
  exact List.countP_pos_iff.mpr ⟨w, List.mem_range.mpr (h.lt hlink), howns⟩

theorem Bounded.not_owns (h : x.Bounded) (hlives : x.lives c = 0) (w : WsiId) :
    ¬ x.owns c w = true := by
  intro howns
  have hpos := h.lives_pos howns
  omega

/-- Two connections of one user are counted twice. -/
theorem Bounded.unique (h : x.Bounded) (hone : x.lives c ≤ 1) (hw : x.owns c w = true)
    (hv : x.owns c v = true) : w = v := by
  by_contra hne
  obtain ⟨p, hlink, _⟩ := owns_eq_true.mp hw
  obtain ⟨q, hlink', _⟩ := owns_eq_true.mp hv
  have hexchange := countP_range_exchange (p := fun u => u != w && x.owns c u) (q := x.owns c)
    (h.lt hlink) fun u hu => by simp [hu]
  have hrest : 0 < (List.range x.next).countP fun u => u != w && x.owns c u :=
    List.countP_pos_iff.mpr ⟨v, List.mem_range.mpr (h.lt hlink'), by simp [hv, Ne.symm hne]⟩
  simp only [hw, bne_self_eq_false, Bool.false_and, Bool.toNat_true, Bool.toNat_false,
    Nat.add_zero] at hexchange
  rw [lives, ← hexchange] at hone
  exact absurd hrest (Nat.not_lt_of_le (Nat.le_of_succ_le_succ hone))

theorem link_setPhase (x : lws_context) (w v : WsiId) (p : WsiPhase) :
    (x.setPhase w p).link v = if v = w then (x.link w).map fun l => (l.1, p) else x.link v := by
  by_cases hv : v = w
  · subst hv
    simp [link, setPhase, modify, Function.comp_def]
  · simp [link, setPhase, modify, hv]

theorem link_connect (x : lws_context) (user : Nat) (v : WsiId) :
    (x.connect user).link v = if v = x.next then some (user, .connecting) else x.link v := by
  by_cases hv : v = x.next
  · subst hv
    simp [link, connect]
  · simp [link, connect, hv]

theorem link_remove (x : lws_context) (w v : WsiId) :
    (x.remove w).link v = if v = w then none else x.link v := by
  by_cases hv : v = w
  · subst hv
    simp [link, remove]
  · simp [link, remove, hv]

theorem Bounded.setPhase (h : x.Bounded) (w : WsiId) (p : WsiPhase) : (x.setPhase w p).Bounded := by
  intro v hv
  have hnone := h v hv
  by_cases hvw : v = w
  · subst hvw
    simp [lws_context.setPhase, modify, hnone]
  · simpa [lws_context.setPhase, modify, hvw] using hnone

theorem Bounded.connect (h : x.Bounded) (user : Nat) : (x.connect user).Bounded := by
  intro v hv
  have hle : x.next ≤ v := Nat.le_of_succ_le hv
  have hne : v ≠ x.next := Nat.ne_of_gt hv
  simp only [lws_context.connect]
  rw [Function.update_of_ne hne]
  exact h v hle

theorem Bounded.remove (h : x.Bounded) (w : WsiId) : (x.remove w).Bounded := by
  intro v hv
  by_cases hvw : v = w
  · subst hvw
    simp [lws_context.remove]
  · simpa [lws_context.remove, hvw] using h v hv

theorem Bounded.skip (h : x.Bounded) : ({ x with next := x.next + 1 } : lws_context).Bounded :=
  fun v hv => h v (Nat.le_of_succ_le hv)

theorem Bounded.destroy (x : lws_context) : x.destroy.Bounded := fun _ _ => rfl

/-- A connection that is established is its user's as before. -/
theorem owns_establish {user : Nat} (hlink : x.link w = some (user, .connecting)) (c : Nat)
    (v : WsiId) : (x.setPhase w .established).owns c v = x.owns c v := by
  by_cases hv : v = w
  · subst hv
    rw [owns, link_setPhase, if_pos rfl, hlink, owns, hlink]
    rfl
  · exact owns_congr (by rw [link_setPhase, if_neg hv]) c

/-- A connection that is established stays one connection. -/
theorem lives_establish {user : Nat} (hlink : x.link w = some (user, .connecting)) (c : Nat) :
    (x.setPhase w .established).lives c = x.lives c := by
  change (List.range x.next).countP ((x.setPhase w .established).owns c) = _
  rw [funext (owns_establish hlink c), lives]

/-- A connection that ends is nobody's, and the others stay as they are. -/
theorem owns_of_close {c : Nat} (h : (x.setPhase w .closed).owns c v = true) :
    v ≠ w ∧ x.owns c v = true := by
  have hv : v ≠ w := by
    rintro rfl
    obtain ⟨p, hlink, hp⟩ := owns_eq_true.mp h
    rw [link_setPhase, if_pos rfl, Option.map_eq_some_iff] at hlink
    obtain ⟨_, _, heq⟩ := hlink
    exact hp (Prod.mk.inj heq).2.symm
  rw [owns_congr (link_setPhase x w v .closed ▸ if_neg hv)] at h
  exact ⟨hv, h⟩

theorem owns_of_remove {c : Nat} (h : (x.remove w).owns c v = true) : v ≠ w ∧ x.owns c v = true := by
  have hv : v ≠ w := by
    rintro rfl
    rw [owns, link_remove, if_pos rfl] at h
    cases h
  rw [owns_congr (link_remove x w v ▸ if_neg hv)] at h
  exact ⟨hv, h⟩

theorem owns_of_connect {user c : Nat} (h : (x.connect user).owns c v = true) :
    x.owns c v = true ∨ (user = c ∧ v = x.next) := by
  by_cases hv : v = x.next
  · subst hv
    rw [owns, link_connect, if_pos rfl] at h
    exact .inr ⟨by simpa using h, rfl⟩
  · rw [owns_congr (link_connect x user v ▸ if_neg hv)] at h
    exact .inl h

/-- The end of a connection is the end of one connection of its user. -/
theorem Bounded.lives_close (h : x.Bounded) {user : Nat} {p : WsiPhase}
    (hlink : x.link w = some (user, p)) (hp : p ≠ .closed) (c : Nat) :
    (x.setPhase w .closed).lives c + (user == c).toNat = x.lives c := by
  have hexchange := countP_range_exchange (p := (x.setPhase w .closed).owns c) (q := x.owns c)
    (h.lt hlink) fun v hv => by rw [owns, link_setPhase, if_neg hv, owns]
  have hclosed : (x.setPhase w .closed).owns c w = false := by
    rw [owns, link_setPhase, if_pos rfl, hlink]
    simp
  have hlive : x.owns c w = (user == c) := by
    rw [owns, hlink]
    simp [hp]
  rw [hclosed, hlive] at hexchange
  exact hexchange

theorem lives_connect (x : lws_context) (user c : Nat) :
    (x.connect user).lives c = x.lives c + (user == c).toNat := by
  have hbelow : (List.range x.next).countP ((x.connect user).owns c) = x.lives c := by
    refine List.countP_congr fun v hv => ?_
    rw [owns, link_connect, if_neg (Nat.ne_of_lt (List.mem_range.mp hv)), owns]
  have hnew : (x.connect user).owns c x.next = (user == c) := by
    rw [owns, link_connect, if_pos rfl]
    simp
  change (List.range (x.next + 1)).countP ((x.connect user).owns c) = _
  rw [List.range_succ, List.countP_append, hbelow, List.countP_singleton, hnew]
  cases user == c <;> rfl

theorem lives_skip (h : x.Bounded) (c : Nat) :
    ({ x with next := x.next + 1 } : lws_context).lives c = x.lives c := by
  have hnew : x.owns c x.next = false := by
    rw [owns, link, h x.next (Nat.le_refl _)]
    rfl
  change (List.range (x.next + 1)).countP (x.owns c) = _
  rw [List.range_succ, List.countP_append, List.countP_singleton, hnew]
  rfl

theorem lives_remove_le (x : lws_context) (w : WsiId) (c : Nat) :
    (x.remove w).lives c ≤ x.lives c := by
  refine List.countP_mono_left fun v _ howns => ?_
  by_cases hv : v = w
  · rw [owns, link_remove, if_pos hv] at howns
    cases howns
  · rwa [owns, link_remove, if_neg hv] at howns

theorem lives_destroy (x : lws_context) (c : Nat) : x.destroy.lives c = 0 :=
  List.countP_eq_zero.mpr fun _ _ => by simp [owns, link, destroy]

/-- A new connection takes no wakeup from another. -/
theorem Bounded.keeps_connect (h : x.Bounded) (user : Nat) : x.Keeps (x.connect user) := by
  have hold : ∀ v, (x.wsi v).isSome = true → (x.connect user).wsi v = x.wsi v := by
    intro v hv
    have hne : v ≠ x.next := by
      rintro rfl
      rw [h x.next (Nat.le_refl _)] at hv
      cases hv
    exact Function.update_of_ne hne _ _
  have hsome : ∀ {v : WsiId} {p : Wsi → Bool}, (x.wsi v).any p = true → (x.wsi v).isSome = true := by
    intro v p hp
    cases hi : x.wsi v <;> simp [hi] at hp ⊢
  refine ⟨fun v hv => ?_, fun v hv => ?_, id⟩
  · rw [Writable, hold v (hsome hv)]
    exact hv
  · rw [Failed, hold v (hsome hv)]
    exact hv

/-- No wakeup recorded in `x` is lost in `y`, but perhaps the one of `w`. -/
structure KeepsBut (w : WsiId) (x y : lws_context) : Prop where
  writable : ∀ v, v ≠ w → x.Writable v → y.Writable v
  cancelled : x.cancelled = true → y.cancelled = true

theorem Keeps.but (h : x.Keeps y) (w : WsiId) : KeepsBut w x y :=
  ⟨fun v _ => h.writable v, h.cancelled⟩

theorem KeepsBut.trans (h₁ : KeepsBut w x y) (h₂ : KeepsBut w y z) : KeepsBut w x z :=
  ⟨fun v hv h => h₂.writable v hv (h₁.writable v hv h), fun h => h₂.cancelled (h₁.cancelled h)⟩

theorem keepsBut_modify (x : lws_context) (w : WsiId) (f : Wsi → Wsi) :
    KeepsBut w x (x.modify w f) :=
  ⟨fun v hv h => by simpa [Writable, modify, hv] using h, id⟩

theorem keepsBut_remove (x : lws_context) (w : WsiId) : KeepsBut w x (x.remove w) :=
  ⟨fun v hv h => by simpa [Writable, remove, hv] using h, id⟩

end lws_context

end lws_client
