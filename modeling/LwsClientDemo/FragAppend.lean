import LwsClientDemo.Fragment
import LwsClientDemo.WhileLoop

open while_loop

namespace lws_client

/-- `FRAG_INIT_CAP` of the components; `ws_internal.h` has the number itself. -/
def FRAG_INIT_CAP : Nat := 4096

/-- The fields `buf`, `len` and `cap` of a reassembly buffer (`frag_buf`,
    `frag_len` and `frag_cap` in the components), with nothing known of them.
    `buf i` is the byte at `buf + i`. -/
structure frag_fields where
  buf : Nat → UInt8
  len : Nat
  cap : Nat

/-- The first `len` bytes. -/
def frag_fields.contents (f : frag_fields) : List UInt8 := (List.range f.len).map f.buf

/-- What `realloc` returns for a size: NULL, or a block. The block has arbitrary
    bytes behind the old ones. -/
abbrev Realloc := Nat → Option (Nat → UInt8)

/-- `realloc(buf, size)` of a block of `old` bytes. -/
def Realloc.block (realloc : Realloc) (buf : Nat → UInt8) (old size : Nat) : Option (Nat → UInt8) :=
  (realloc size).map fun fresh i => if i < old then buf i else fresh i

/-- `memcpy(f->buf + f->len, data, len); f->len += len;`. -/
def frag_fields.extend (f : frag_fields) (data : List UInt8) : frag_fields :=
  { f with
    buf := fun i =>
      if f.len ≤ i ∧ i < f.len + data.length then data.getD (i - f.len) 0 else f.buf i
    len := size_add f.len data.length }

/-- The four functions that append a chunk, with the initial capacity. `none`
    means that the growth loop never ends. -/
def frag_append (init_cap : Nat) (f : frag_fields) (data : List UInt8) (realloc : Realloc) :
    Option (Int × frag_fields) :=
  let need := size_add f.len data.length
  if need > f.cap then
    (growCap need 64 (if f.cap ≠ 0 then f.cap else init_cap)).map fun new_cap =>
      match realloc.block f.buf f.cap new_cap with
      | none => (-1, f)
      | some p => (0, { f with buf := p, cap := new_cap }.extend data)
  else some (0, f.extend data)

/-- `ws_frag_append` of `ws_internal.h`. -/
def ws_internal.ws_frag_append : frag_fields → List UInt8 → Realloc → Option (Int × frag_fields) :=
  frag_append 4096

def ws_pool.frag_append : frag_fields → List UInt8 → Realloc → Option (Int × frag_fields) :=
  lws_client.frag_append FRAG_INIT_CAP

def ws_server.frag_append : frag_fields → List UInt8 → Realloc → Option (Int × frag_fields) :=
  lws_client.frag_append FRAG_INIT_CAP

/-- The copy of v1 sets `frag_cap` before `frag_buf`. -/
def ws_client.frag_append (f : frag_fields) (data : List UInt8) (realloc : Realloc) :
    Option (Int × frag_fields) :=
  let need := size_add f.len data.length
  if need > f.cap then
    (growCap need 64 (if f.cap ≠ 0 then f.cap else FRAG_INIT_CAP)).map fun cap =>
      match realloc.block f.buf f.cap cap with
      | none => (-1, f)
      | some p =>
        let f := { f with cap }
        let f := { f with buf := p }
        (0, f.extend data)
  else some (0, f.extend data)

/-- The buffers that calls of `append` and resets `len = 0` make from the empty
    one, whatever the chunks are and whatever `realloc` answers. -/
inductive frag_fields.Reachable
    (append : frag_fields → List UInt8 → Realloc → Option (Int × frag_fields)) :
    frag_fields → Prop where
  | empty {buf : Nat → UInt8} : Reachable append { buf, len := 0, cap := 0 }
  | reset {f : frag_fields} : Reachable append f → Reachable append { f with len := 0 }
  | append {f f' : frag_fields} {data : List UInt8} {realloc : Realloc} {ret : Int} :
      Reachable append f → append f data realloc = some (ret, f') → Reachable append f'

/-- `f->cap ? f->cap : 4096`. -/
def frag_fields.base (f : frag_fields) : Nat := if f.cap ≠ 0 then f.cap else 4096

/-- The loop `while (cap < need) cap *= 2` on `size_t`, from `cap` to `cap'`. -/
def GrowthEnds (need cap cap' : Nat) : Prop :=
  Ends (fun cap => decide (cap < need)) (fun cap => cap * 2 % 2 ^ 64) cap cap'

/-- The capacity for `need` bytes: as it was when they fit, and else where the
    growth loop ends, the least `base * 2 ^ k` that fits. -/
def frag_fields.Grows (f : frag_fields) (need cap : Nat) : Prop :=
  if need ≤ f.cap then cap = f.cap
  else GrowthEnds need f.base cap ∧
    ∃ k, cap = f.base * 2 ^ k ∧ need ≤ cap ∧ ∀ j, j < k → f.base * 2 ^ j < need

/-- What appends and resets keep: a capacity is a power of two. -/
structure frag_fields.Sound (f : frag_fields) : Prop where
  len_le : f.len ≤ f.cap
  cap_shape : f.cap = 0 ∨ ∃ k, 12 ≤ k ∧ k ≤ 63 ∧ f.cap = 2 ^ k

theorem growCap_eq_run (need fuel cap : Nat) : growCap need fuel cap =
    run (fun cap => decide (cap < need)) (fun cap => cap * 2 % 2 ^ 64) fuel cap := by
  induction fuel generalizing cap with
  | zero => simp [growCap, run]
  | succ fuel ih => simp [growCap, run, ih]

/-- A power of two stays one, until the doubling makes it 0. -/
theorem double_shape {cap : Nat} (h : cap = 0 ∨ ∃ k, k ≤ 63 ∧ cap = 2 ^ k) :
    cap * 2 % 2 ^ 64 = 0 ∨ ∃ k, k ≤ 63 ∧ cap * 2 % 2 ^ 64 = 2 ^ k := by
  rcases h with rfl | ⟨k, hk, rfl⟩
  · exact .inl rfl
  · rcases Nat.lt_or_ge k 63 with hlt | hge
    · refine .inr ⟨k + 1, hlt, ?_⟩
      rw [← Nat.pow_succ]
      exact Nat.mod_eq_of_lt (Nat.pow_lt_pow_right (by decide) (by omega))
    · obtain rfl : k = 63 := by omega
      exact .inl (by decide)

/-- From a power of two the growth loop ends exactly where `growCap` says. -/
theorem growCap_iff {need k cap : Nat} (hk : k ≤ 63) :
    growCap need 64 (2 ^ k) = some cap ↔ GrowthEnds need (2 ^ k) cap := by
  constructor
  · intro h
    rw [growCap_eq_run] at h
    exact ends_of_run h
  · intro h
    obtain ⟨hshape, hstop⟩ := h.invariant (I := fun cap => cap = 0 ∨ ∃ k, k ≤ 63 ∧ cap = 2 ^ k)
      (.inr ⟨k, hk, rfl⟩) fun _ _ => double_shape
    have hneed : need ≤ 2 ^ 63 := by
      have hle : need ≤ cap := by simpa using hstop
      rcases hshape with rfl | ⟨m, hm, rfl⟩
      · omega
      · exact Nat.le_trans hle (Nat.pow_le_pow_right (by decide) hm)
    have hsome : (growCap need 64 (2 ^ k)).isSome = true := growCap_isSome hneed hk (by omega)
    obtain ⟨cap', hcap'⟩ := Option.isSome_iff_exists.mp hsome
    rw [hcap']
    have hends := hcap'
    rw [growCap_eq_run] at hends
    rw [h.unique (ends_of_run hends)]

theorem frag_fields.Sound.base_eq {f : frag_fields} (h : f.Sound) :
    ∃ k, 12 ≤ k ∧ k ≤ 63 ∧ f.base = 2 ^ k := by
  rcases h.cap_shape with hcap | ⟨k, hlo, hhi, hcap⟩
  · exact ⟨12, by omega, by omega, by simp [base, hcap]⟩
  · have hpos : f.cap ≠ 0 := by
      rw [hcap]
      positivity
    exact ⟨k, hlo, hhi, by rw [base, if_pos hpos, hcap]⟩

variable {f f' : frag_fields} {data : List UInt8} {realloc : Realloc} {ret : Int}

/-- A chunk that fits. -/
theorem frag_append_of_le (h : size_add f.len data.length ≤ f.cap) :
    frag_append 4096 f data realloc = some (0, f.extend data) :=
  if_neg (Nat.not_lt.mpr h)

/-- A chunk for which the buffer has to grow. -/
theorem frag_append_of_lt (h : f.cap < size_add f.len data.length) :
    frag_append 4096 f data realloc =
      (growCap (size_add f.len data.length) 64 f.base).map fun cap =>
        match realloc.block f.buf f.cap cap with
        | none => (-1, f)
        | some p => (0, { f with buf := p, cap }.extend data) :=
  if_pos h

theorem frag_fields.Sound.append (h : f.Sound)
    (happend : frag_append 4096 f data realloc = some (ret, f')) : f'.Sound := by
  rcases Nat.lt_or_ge f.cap (size_add f.len data.length) with hlt | hfit
  · rw [frag_append_of_lt hlt, Option.map_eq_some_iff] at happend
    obtain ⟨cap, hgrow, hblock⟩ := happend
    obtain ⟨k, hlo, hhi, hbase⟩ := h.base_eq
    rw [hbase] at hgrow
    obtain ⟨m, hkm, hm, rfl, hneed, _⟩ := growCap_eq_some hhi hgrow
    split at hblock
    · cases hblock
      exact h
    · cases hblock
      exact ⟨hneed, .inr ⟨m, by omega, hm, rfl⟩⟩
  · rw [frag_append_of_le hfit] at happend
    cases happend
    exact ⟨hfit, h.cap_shape⟩

theorem frag_fields.Reachable.sound (h : Reachable ws_internal.ws_frag_append f) : f.Sound := by
  induction h with
  | empty => exact ⟨Nat.le_refl 0, .inl rfl⟩
  | reset _ ih => exact ⟨Nat.zero_le _, ih.cap_shape⟩
  | append _ happend ih => exact ih.append happend

/-- Up to `2 ^ 63` bytes there is a capacity, and the growth loop finds it. -/
theorem frag_fields.Sound.grows (h : f.Sound) {need : Nat} (hneed : need ≤ 2 ^ 63) :
    ∃ cap, f.Grows need cap ∧ (f.cap < need → growCap need 64 f.base = some cap) := by
  by_cases hfit : need ≤ f.cap
  · exact ⟨f.cap, by rw [Grows, if_pos hfit], fun hlt => absurd hfit (Nat.not_le.mpr hlt)⟩
  · obtain ⟨k, hlo, hhi, hbase⟩ := h.base_eq
    have hsome : (growCap need 64 (2 ^ k)).isSome = true := growCap_isSome hneed hhi (by omega)
    obtain ⟨cap, hgrow⟩ := Option.isSome_iff_exists.mp hsome
    refine ⟨cap, ?_, fun _ => hbase ▸ hgrow⟩
    rw [Grows, if_neg hfit, hbase]
    obtain ⟨m, hkm, hm, hcap, hroom, hleast⟩ := growCap_eq_some hhi hgrow
    refine ⟨(growCap_iff hhi).mp hgrow, m - k, ?_, hcap ▸ hroom, fun j hj => ?_⟩
    · rw [hcap, ← Nat.pow_add]
      congr 1
      omega
    · rw [← Nat.pow_add]
      exact hleast (k + j) (by omega) (by omega)

/-- `none` stands for the growth loop that never ends. -/
theorem frag_fields.Sound.append_eq_none (h : f.Sound) :
    frag_append 4096 f data realloc = none ↔
      f.cap < size_add f.len data.length ∧
        ∀ cap, ¬ GrowthEnds (size_add f.len data.length) f.base cap := by
  rcases Nat.lt_or_ge f.cap (size_add f.len data.length) with hlt | hfit
  · obtain ⟨k, _, hhi, hbase⟩ := h.base_eq
    rw [frag_append_of_lt hlt, Option.map_eq_none_iff, hbase, Option.eq_none_iff_forall_ne_some,
      and_iff_right hlt]
    exact forall_congr' fun cap => not_congr (growCap_iff hhi)
  · rw [frag_append_of_le hfit]
    simp [Nat.not_lt.mpr hfit]

/-- The bytes behind the block's old ones do not matter. -/
theorem frag_fields.Sound.extend_contents (h : f.Sound) {buf : Nat → UInt8} {cap : Nat}
    (hsize : size_add f.len data.length = f.len + data.length)
    (hbuf : ∀ i, i < f.cap → buf i = f.buf i) :
    ({ f with buf, cap }.extend data).contents = f.contents ++ data := by
  have hold : (List.range f.len).map buf = f.contents :=
    List.map_congr_left fun i hi => hbuf i (Nat.lt_of_lt_of_le (List.mem_range.mp hi) h.len_le)
  rw [contents, extend, hsize, ← hold]
  exact contents_append fun i => rfl

/-- What an append does in a buffer that appends and resets have made. -/
theorem frag_fields.Sound.append_spec (h : f.Sound) (realloc : Realloc)
    (hneed : f.len + data.length ≤ 2 ^ 63) :
    ∃ cap, f.Grows (f.len + data.length) cap ∧
      (f.len + data.length ≤ f.cap ∨ (realloc cap).isSome = true →
        ∃ f', frag_append 4096 f data realloc = some (0, f') ∧ f'.contents = f.contents ++ data ∧
          f'.len = f.len + data.length ∧ f'.len ≤ f'.cap ∧ f'.cap = cap) ∧
      (f.cap < f.len + data.length → realloc cap = none →
        frag_append 4096 f data realloc = some (-1, f)) := by
  have hsize : size_add f.len data.length = f.len + data.length := size_add_of_lt (by omega)
  obtain ⟨cap, hgrows, hloop⟩ := h.grows hneed
  refine ⟨cap, hgrows, fun hroom => ?_, fun hlt hnull => ?_⟩
  · by_cases hfit : f.len + data.length ≤ f.cap
    · rw [Grows, if_pos hfit] at hgrows
      subst hgrows
      exact ⟨f.extend data, frag_append_of_le (hsize.trans_le hfit),
        h.extend_contents hsize fun _ _ => rfl, hsize, hsize.trans_le hfit, rfl⟩
    · have hlt : f.cap < f.len + data.length := Nat.lt_of_not_le hfit
      obtain ⟨fresh, hfresh⟩ := Option.isSome_iff_exists.mp (hroom.resolve_left hfit)
      rw [Grows, if_neg hfit] at hgrows
      obtain ⟨_, _, _, hcap, _⟩ := hgrows
      let block := fun i => if i < f.cap then f.buf i else fresh i
      refine ⟨{ f with buf := block, cap }.extend data, ?_,
        h.extend_contents hsize fun i hi => if_pos hi, hsize, hsize.trans_le hcap, rfl⟩
      rw [frag_append_of_lt (hlt.trans_eq hsize.symm), hsize, hloop hlt]
      simp only [Option.map_some, Realloc.block, hfresh]
      rfl
  · rw [frag_append_of_lt (hlt.trans_eq hsize.symm), hsize, hloop hlt]
    simp only [Option.map_some, Realloc.block, hnull, Option.map_none]

/-- The fields of a buffer of the components' models. -/
def ws_frag_buf_t.fields (f : ws_frag_buf_t) : frag_fields :=
  { buf := f.buf, len := f.len, cap := f.cap }

theorem ws_frag_buf_t.fields_sound (f : ws_frag_buf_t) : f.fields.Sound := by
  refine ⟨f.len_le, f.cap_shape.imp_right ?_⟩
  rintro ⟨k, hlo, hhi, hcap⟩
  exact ⟨k, hlo, by omega, hcap⟩

theorem ws_frag_buf_t.fields_base (f : ws_frag_buf_t) : f.fields.base = f.base := by
  by_cases hcap : f.cap = 0 <;>
    simp [frag_fields.base, ws_frag_buf_t.base, ws_frag_buf_t.fields, hcap]

/-- The append of the components' models is this one, with a `realloc` that
    grants at most `PTRDIFF_MAX` bytes. -/
theorem ws_frag_append_fields (f : ws_frag_buf_t) (data : Data) (ok : Bool) :
    (ws_frag_append f data ok).map (fun r => (r.1, r.2.fields)) =
      ws_internal.ws_frag_append f.fields data.bytes fun size =>
        if ok = true ∧ size ≤ PTRDIFF_MAX then some f.buf else none := by
  change _ = frag_append 4096 f.fields data.bytes _
  unfold ws_frag_append
  dsimp only
  split
  · next hlt =>
    rw [frag_append_of_lt (f := f.fields) hlt, f.fields_base]
    split
    · next hgrow => exact (congrArg (Option.map _) hgrow).symm
    · next cap hgrow =>
      refine Eq.trans ?_ (congrArg (Option.map _) hgrow).symm
      simp only [Option.map_some, Realloc.block]
      split
      · have hblock : (fun i => if i < f.cap then f.buf i else f.buf i) = f.buf :=
          funext fun i => ite_self _
        exact congrArg (fun buf => some ((0 : Int),
          ({ buf, len := f.len, cap } : frag_fields).extend data.bytes)) hblock.symm
      · rfl
  · next hfit => exact (frag_append_of_le (f := f.fields) (Nat.le_of_not_lt hfit)).symm

/-- So the `none` of the components' models stands for a growth loop that never
    ends. -/
theorem ws_frag_append_eq_none (f : ws_frag_buf_t) (data : Data) (ok : Bool) :
    ws_frag_append f data ok = none ↔
      f.cap < size_add f.len data.bytes.length ∧
        ∀ cap, ¬ GrowthEnds (size_add f.len data.bytes.length) f.base cap := by
  rw [← f.fields_base, ← Option.map_eq_none_iff (f := fun r => (r.1, r.2.fields)),
    ws_frag_append_fields]
  exact f.fields_sound.append_eq_none

/-- In every buffer that appends and resets make, an append of a chunk with which
    it has up to `2 ^ 63` bytes ends: it adds the chunk, and grows the buffer to
    the least capacity only when it has to, or it changes nothing when `realloc`
    fails. All four copies compute the same. -/
theorem ws_frag_append_exact :
    (∀ f data realloc, frag_fields.Reachable ws_internal.ws_frag_append f →
      f.len + data.length ≤ 2 ^ 63 →
        ∃ cap, f.Grows (f.len + data.length) cap ∧
          (f.len + data.length ≤ f.cap ∨ (realloc cap).isSome = true →
            ∃ f', ws_internal.ws_frag_append f data realloc = some (0, f') ∧
              f'.contents = f.contents ++ data ∧ f'.len = f.len + data.length ∧
              f'.len ≤ f'.cap ∧ f'.cap = cap) ∧
          (f.cap < f.len + data.length → realloc cap = none →
            ws_internal.ws_frag_append f data realloc = some (-1, f))) ∧
    ∀ f data realloc,
      ws_pool.frag_append f data realloc = ws_internal.ws_frag_append f data realloc ∧
      ws_client.frag_append f data realloc = ws_internal.ws_frag_append f data realloc ∧
      ws_server.frag_append f data realloc = ws_internal.ws_frag_append f data realloc :=
  ⟨fun _ _ realloc hreach hneed => hreach.sound.append_spec realloc hneed,
    fun _ _ _ => ⟨rfl, rfl, rfl⟩⟩

/-- The first block holds 4000 bytes; for 5000 more the capacity doubles twice. -/
theorem ws_frag_append_exact_doubled :
    ∃ f f', frag_fields.Reachable ws_internal.ws_frag_append f ∧ f.cap = 4096 ∧
      f.contents = List.replicate 4000 104 ∧
      ws_internal.ws_frag_append f (List.replicate 5000 105) (fun _ => some fun _ => 0) = some (0, f') ∧
      f'.contents = List.replicate 4000 104 ++ List.replicate 5000 105 ∧ f'.cap = 16384 := by
  have hlen₁ : (List.replicate 4000 (104 : UInt8)).length = 4000 := List.length_replicate
  have hlen₂ : (List.replicate 5000 (105 : UInt8)).length = 5000 := List.length_replicate
  -- Only the lengths of the chunks count from here.
  generalize List.replicate 4000 (104 : UInt8) = first at *
  generalize List.replicate 5000 (105 : UInt8) = second at *
  obtain ⟨cap, hgrows, hroom, _⟩ := ws_frag_append_exact.1 { buf := fun _ => 0, len := 0, cap := 0 }
    first (fun _ => some fun _ => 0) .empty (by dsimp only; omega)
  obtain ⟨f, happend, hcontents, hlen, _, hcap⟩ := hroom (.inr rfl)
  have hreach : frag_fields.Reachable ws_internal.ws_frag_append f := .append .empty happend
  rw [hlen₁] at hgrows hlen
  rw [frag_fields.Grows, if_neg (by decide)] at hgrows
  have hblock : f.cap = 4096 := hcap.trans (Ends.unique (.done (by decide)) hgrows.1)
  obtain ⟨cap', hgrows', hroom', _⟩ := ws_frag_append_exact.1 f second (fun _ => some fun _ => 0)
    hreach (by omega)
  obtain ⟨f', happend', hcontents', _, _, hcap'⟩ := hroom' (.inr rfl)
  have hbase : f.base = 4096 := by simp [frag_fields.base, hblock]
  rw [hlen₂, hlen, frag_fields.Grows, if_neg (by omega), hbase] at hgrows'
  have hdoubled : cap' = 16384 :=
    Ends.unique (.turn (by decide) (.turn (by decide) (.done (by decide)))) hgrows'.1
  have hheld : f.contents = first := hcontents
  exact ⟨f, f', hreach, hblock, hheld, happend', by rw [hcontents', hheld], hcap'.trans hdoubled⟩

end lws_client
