import LwsClientDemo.Lws
import Mathlib.Tactic.Positivity

namespace lws_client

/-- `ws_frag_buf_t`, and the three `frag_*` fields of the other components. The
    bytes from `len` on are whatever the allocator and earlier messages left. A
    capacity is a power of two that `realloc` could grant. -/
structure ws_frag_buf_t where
  buf : Nat → UInt8
  len : Nat
  cap : Nat
  len_le : len ≤ cap
  cap_shape : cap = 0 ∨ ∃ k, 12 ≤ k ∧ k ≤ 62 ∧ cap = 2 ^ k

def ws_frag_buf_t.empty : ws_frag_buf_t :=
  { buf := fun _ => 0, len := 0, cap := 0, len_le := Nat.le_refl 0, cap_shape := .inl rfl }

/-- `f->len = 0`. -/
def ws_frag_buf_t.reset (f : ws_frag_buf_t) : ws_frag_buf_t :=
  { f with len := 0, len_le := Nat.zero_le _ }

/-- The first `len` bytes. -/
def ws_frag_buf_t.contents (f : ws_frag_buf_t) : List UInt8 := (List.range f.len).map f.buf

/-- The loop `while (cap < need) cap *= 2`. `none` means that it never ends:
    after 64 doublings the capacity is 0 and stays there. -/
def growCap (need : Nat) : Nat → Nat → Option Nat
  | 0, cap => if cap < need then none else some cap
  | fuel + 1, cap => if cap < need then growCap need fuel (cap * 2 % 2 ^ 64) else some cap

theorem growCap_zero {need : Nat} (hneed : 0 < need) (fuel : Nat) :
    growCap need fuel 0 = none := by
  induction fuel with
  | zero => simp [growCap, hneed]
  | succ fuel ih => simpa [growCap, hneed] using ih

/-- From a power of two the loop stops at the least power of two that fits. -/
theorem growCap_eq_some {need fuel k cap : Nat} (hk : k ≤ 63)
    (h : growCap need fuel (2 ^ k) = some cap) :
    ∃ m, k ≤ m ∧ m ≤ 63 ∧ cap = 2 ^ m ∧ need ≤ 2 ^ m ∧ ∀ j, k ≤ j → j < m → 2 ^ j < need := by
  induction fuel generalizing k with
  | zero =>
    simp only [growCap, Option.ite_none_left_eq_some, Option.some.injEq] at h
    exact ⟨k, Nat.le_refl k, hk, h.2.symm, Nat.le_of_not_lt h.1, fun j hkj hjk => by omega⟩
  | succ fuel ih =>
    rw [growCap] at h
    split at h
    · next hlt =>
      rcases Nat.lt_or_ge k 63 with hk63 | hk63
      · have hpow : 2 ^ k * 2 % 2 ^ 64 = 2 ^ (k + 1) := by
          rw [← Nat.pow_succ]
          exact Nat.mod_eq_of_lt (Nat.pow_lt_pow_right (by decide) (by omega))
        rw [hpow] at h
        obtain ⟨m, hkm, hm, hcap, hneed, hleast⟩ := ih (by omega) h
        refine ⟨m, by omega, hm, hcap, hneed, ?_⟩
        intro j hkj hjm
        rcases Nat.eq_or_lt_of_le hkj with rfl | hlt'
        · exact hlt
        · exact hleast j hlt' hjm
      · obtain rfl : k = 63 := by omega
        have hzero : 2 ^ 63 * 2 % 2 ^ 64 = 0 := by decide
        rw [hzero, growCap_zero (by omega)] at h
        cases h
    · next hge =>
      cases h
      exact ⟨k, Nat.le_refl k, hk, rfl, Nat.le_of_not_lt hge, fun j hkj hjk => by omega⟩

/-- The loop ends for every need up to `2 ^ 63`. -/
theorem growCap_isSome {need fuel k : Nat} (hneed : need ≤ 2 ^ 63) (hk : k ≤ 63)
    (hfuel : 63 - k ≤ fuel) : (growCap need fuel (2 ^ k)).isSome := by
  induction fuel generalizing k with
  | zero =>
    obtain rfl : k = 63 := by omega
    rw [growCap, if_neg (Nat.not_lt.mpr hneed)]
    rfl
  | succ fuel ih =>
    rw [growCap]
    split
    · next hlt =>
      have hk63 : k < 63 := by
        by_contra hnot
        obtain rfl : k = 63 := by omega
        omega
      have hpow : 2 ^ k * 2 % 2 ^ 64 = 2 ^ (k + 1) := by
        rw [← Nat.pow_succ]
        exact Nat.mod_eq_of_lt (Nat.pow_lt_pow_right (by decide) (by omega))
      rw [hpow]
      exact ih (by omega) (by omega)
    · rfl

/-- `f->cap ? f->cap : 4096`. -/
def ws_frag_buf_t.base (f : ws_frag_buf_t) : Nat := if f.cap = 0 then 4096 else f.cap

theorem ws_frag_buf_t.base_eq (f : ws_frag_buf_t) : ∃ k, 12 ≤ k ∧ k ≤ 62 ∧ f.base = 2 ^ k := by
  rcases f.cap_shape with hcap | ⟨k, hlo, hhi, hcap⟩
  · exact ⟨12, by omega, by omega, by simp [base, hcap]⟩
  · have hpos : f.cap ≠ 0 := by
      rw [hcap]
      positivity
    exact ⟨k, hlo, hhi, by rw [base, if_neg hpos, hcap]⟩

private theorem grown_shape {f : ws_frag_buf_t} {need cap : Nat}
    (hgrow : growCap need 64 f.base = some cap) (hmax : cap ≤ PTRDIFF_MAX) :
    need ≤ cap ∧ (cap = 0 ∨ ∃ k, 12 ≤ k ∧ k ≤ 62 ∧ cap = 2 ^ k) := by
  obtain ⟨k, hlo, hhi, hbase⟩ := f.base_eq
  rw [hbase] at hgrow
  obtain ⟨m, hkm, hm, rfl, hneed, _⟩ := growCap_eq_some (by omega) hgrow
  refine ⟨hneed, .inr ⟨m, by omega, ?_, rfl⟩⟩
  by_contra hnot
  obtain rfl : m = 63 := by omega
  simp [PTRDIFF_MAX] at hmax

/-- `ws_frag_append`, and the `frag_append` of the other components. `ok` is the
    answer of `realloc`. The result is the return value with the buffer; `none`
    means that the growth loop never ends. -/
def ws_frag_append (f : ws_frag_buf_t) (data : Data) (ok : Bool) :
    Option (Int × ws_frag_buf_t) :=
  let need := size_add f.len data.bytes.length
  let buf := fun i =>
    if f.len ≤ i ∧ i < f.len + data.bytes.length then data.bytes.getD (i - f.len) 0 else f.buf i
  if hfit : f.cap < need then
    match hgrow : growCap need 64 f.base with
    | none => none
    | some cap =>
      if hok : ok = true ∧ cap ≤ PTRDIFF_MAX then
        have hcap := grown_shape hgrow hok.2
        some (0, { buf, len := need, cap, len_le := hcap.1, cap_shape := hcap.2 })
      else some (-1, f)
  else some (0, { f with buf, len := need, len_le := Nat.le_of_not_lt hfit })

theorem ws_frag_buf_t.cap_le (f : ws_frag_buf_t) : f.cap ≤ 2 ^ 62 := by
  rcases f.cap_shape with hcap | ⟨k, _, hhi, hcap⟩
  · omega
  · rw [hcap]
    exact Nat.pow_le_pow_right (by decide) hhi

theorem ws_frag_buf_t.need_eq (f : ws_frag_buf_t) (data : Data) :
    size_add f.len data.bytes.length = f.len + data.bytes.length := by
  have hlen := f.len_le
  have hcap := f.cap_le
  have hdata := data.length_le
  simp only [PTRDIFF_MAX] at hdata
  apply size_add_of_lt
  omega

/-- Overwriting the bytes behind the first `len` appends to them. -/
theorem contents_append {buf buf' : Nat → UInt8} {len : Nat} {data : List UInt8}
    (hbuf : ∀ i, buf' i = if len ≤ i ∧ i < len + data.length then data.getD (i - len) 0 else buf i) :
    (List.range (len + data.length)).map buf' = (List.range len).map buf ++ data := by
  rw [List.range_add, List.map_append, List.map_map]
  congr 1
  · apply List.map_congr_left
    intro i hi
    have hlt : i < len := by simpa using hi
    rw [hbuf, if_neg (by omega)]
  · apply List.ext_getElem
    · simp
    · intro i h₁ h₂
      simp only [List.getElem_map, List.getElem_range, Function.comp_apply, hbuf]
      rw [if_pos (by omega)]
      simp [List.getD_eq_getElem?_getD, List.getElem?_eq_getElem h₂]

/-- When the append succeeds, the chunk follows the old contents. -/
theorem ws_frag_append_contents {f f' : ws_frag_buf_t} {data : Data} {ok : Bool}
    (h : ws_frag_append f data ok = some (0, f')) :
    f'.contents = f.contents ++ data.bytes := by
  have hneed := f.need_eq data
  unfold ws_frag_append at h
  dsimp only at h
  split at h
  · split at h
    · cases h
    · split at h
      · simp only [Option.some.injEq, Prod.mk.injEq, true_and] at h
        subst h
        simp only [ws_frag_buf_t.contents, hneed]
        exact contents_append fun i => rfl
      · simp at h
  · simp only [Option.some.injEq, Prod.mk.injEq, true_and] at h
    subst h
    simp only [ws_frag_buf_t.contents, hneed]
    exact contents_append fun i => rfl

/-- A failed append leaves the buffer as it was. -/
theorem ws_frag_append_failed {f f' : ws_frag_buf_t} {data : Data} {ok : Bool} {ret : Int}
    (h : ws_frag_append f data ok = some (ret, f')) (hret : ret ≠ 0) : ret = -1 ∧ f' = f := by
  unfold ws_frag_append at h
  dsimp only at h
  split at h
  · split at h
    · cases h
    · split at h
      · simp only [Option.some.injEq, Prod.mk.injEq] at h
        exact absurd h.1.symm hret
      · simp only [Option.some.injEq, Prod.mk.injEq] at h
        exact ⟨h.1.symm, h.2.symm⟩
  · simp only [Option.some.injEq, Prod.mk.injEq] at h
    exact absurd h.1.symm hret

/-- An append that does not return -1 returns 0. -/
theorem ws_frag_append_returned {f f' : ws_frag_buf_t} {data : Data} {ok : Bool} {ret : Int}
    (h : ws_frag_append f data ok = some (ret, f')) (hret : ¬ ret < 0) : ret = 0 := by
  by_contra hne
  rw [(ws_frag_append_failed h hne).1] at hret
  exact hret (by decide)

/-- An append to a buffer that the first chunk of a message resets. -/
theorem ws_frag_append_after {f f' : ws_frag_buf_t} {data : Data} {ok first : Bool}
    (h : ws_frag_append (if first then f.reset else f) data ok = some (0, f')) :
    f'.contents = (if first then [] else f.contents) ++ data.bytes := by
  rw [ws_frag_append_contents h]
  split <;> rfl

/-- With the allocator answering, a chunk is appended as long as the message
    fits the largest capacity. -/
theorem ws_frag_append_succeeds (f : ws_frag_buf_t) (data : Data)
    (hfits : f.len + data.bytes.length ≤ 2 ^ 62) :
    ∃ f', ws_frag_append f data true = some (0, f') := by
  have hneed := f.need_eq data
  obtain ⟨k, hlo, hhi, hbase⟩ := f.base_eq
  unfold ws_frag_append
  dsimp only
  split
  · have hsome : (growCap (size_add f.len data.bytes.length) 64 f.base).isSome := by
      rw [hbase]
      apply growCap_isSome <;> omega
    split
    · next hnone =>
      rw [hnone] at hsome
      cases hsome
    · next cap hgrow =>
      have hmax : cap ≤ PTRDIFF_MAX := by
        rw [hbase] at hgrow
        obtain ⟨m, hkm, hm, rfl, _, hleast⟩ := growCap_eq_some (by omega) hgrow
        by_contra hnot
        obtain rfl : m = 63 := by
          by_contra hne
          have hle : 2 ^ m ≤ 2 ^ 62 := Nat.pow_le_pow_right (by decide) (by omega)
          simp only [PTRDIFF_MAX] at hnot
          omega
        have hlt := hleast 62 hhi (by omega)
        omega
      rw [dif_pos ⟨rfl, hmax⟩]
      exact ⟨_, rfl⟩
  · exact ⟨_, rfl⟩

@[simp] theorem ws_frag_buf_t.reset_contents (f : ws_frag_buf_t) : f.reset.contents = [] := rfl

@[simp] theorem ws_frag_buf_t.length_contents (f : ws_frag_buf_t) :
    f.contents.length = f.len := by
  simp [contents]

/-- What is in the buffer is no longer than an object can be. -/
theorem ws_frag_buf_t.contents_le (f : ws_frag_buf_t) : f.contents.length ≤ PTRDIFF_MAX := by
  have hcap := f.cap_le
  have hlen := f.len_le
  rw [f.length_contents, PTRDIFF_MAX]
  omega

end lws_client
