import Mathlib.Data.List.Basic

namespace percent_encoding

/-- The upper-case hexadecimal digit of a value below sixteen. -/
def hexDigit (n : UInt8) : UInt8 := if n < 10 then 48 + n else 55 + n

/-- The value of a hexadecimal digit of either case. -/
def hexValue (c : UInt8) : Option UInt8 :=
  if 48 ≤ c ∧ c ≤ 57 then some (c - 48)
  else if 65 ≤ c ∧ c ≤ 70 then some (c - 55)
  else if 97 ≤ c ∧ c ≤ 102 then some (c - 87)
  else none

/-- The three bytes that stand for `c`. -/
def escape (c : UInt8) : List UInt8 := [37, hexDigit (c >>> 4), hexDigit (c &&& 15)]

/-- What a byte becomes where only the bytes of `keep` stand for themselves. -/
def unit (keep : UInt8 → Bool) (c : UInt8) : List UInt8 := if keep c then [c] else escape c

def encode (keep : UInt8 → Bool) (bytes : List UInt8) : List UInt8 := bytes.flatMap (unit keep)

/-- The bytes an encoded text stands for, `none` if an escape in it is not whole. -/
def decode : List UInt8 → Option (List UInt8)
  | [] => some []
  | c :: rest =>
    if c = 37 then
      match rest with
      | high :: low :: rest => do
        let high ← hexValue high
        let low ← hexValue low
        let bytes ← decode rest
        pure ((high <<< 4 ||| low) :: bytes)
      | _ => none
    else (decode rest).map (c :: ·)

variable {keep : UInt8 → Bool} {c : UInt8} {bytes rest : List UInt8}

theorem encode_append : encode keep (bytes ++ rest) = encode keep bytes ++ encode keep rest :=
  List.flatMap_append

theorem unit_length_le : (unit keep c).length ≤ 3 := by
  rw [unit]
  split <;> simp [escape]

theorem encode_length_le : (encode keep bytes).length ≤ 3 * bytes.length := by
  induction bytes with
  | nil => simp [encode]
  | cons c bytes ih =>
    have hunit : (unit keep c).length ≤ 3 := unit_length_le
    simp only [encode, List.flatMap_cons, List.length_append, List.length_cons] at ih ⊢
    omega

theorem encode_length_prefix (n : Nat) :
    (encode keep (bytes.take n)).length ≤ (encode keep bytes).length := by
  conv_rhs => rw [← List.take_append_drop n bytes, encode_append]
  simp

theorem escape_of_fin : ∀ i : Fin 256,
    hexValue (hexDigit (UInt8.ofFin i >>> 4)) = some (UInt8.ofFin i >>> 4) ∧
      hexValue (hexDigit (UInt8.ofFin i &&& 15)) = some (UInt8.ofFin i &&& 15) ∧
      (UInt8.ofFin i >>> 4) <<< 4 ||| (UInt8.ofFin i &&& 15) = UInt8.ofFin i ∧
      hexDigit (UInt8.ofFin i >>> 4) ≠ 0 ∧ hexDigit (UInt8.ofFin i &&& 15) ≠ 0 := by
  decide +kernel

/-- An escape is read back as the byte it stands for. -/
theorem decode_escape : decode (escape c ++ rest) = (decode rest).map (c :: ·) := by
  obtain ⟨hhigh, hlow, hbyte, _, _⟩ := escape_of_fin c.toFin
  simp only [UInt8.ofFin_toFin] at hhigh hlow hbyte
  simp only [escape, List.cons_append, List.nil_append, decode, if_true, hhigh, hlow,
    Option.bind_eq_bind, Option.bind_some, hbyte]
  cases decode rest <;> rfl

theorem decode_cons (hc : c ≠ 37) : decode (c :: rest) = (decode rest).map (c :: ·) := by
  match rest with
  | [] | [_] | _ :: _ :: _ => simp only [decode, if_neg hc]

/-- Every text that is encoded is read back, whatever follows it. -/
theorem decode_encode_append (hkeep : keep 37 = false) :
    decode (encode keep bytes ++ rest) = (decode rest).map (bytes ++ ·) := by
  induction bytes with
  | nil => simp [encode]
  | cons c bytes ih =>
    have hcons : encode keep (c :: bytes) ++ rest = unit keep c ++ (encode keep bytes ++ rest) := by
      simp [encode]
    rw [hcons, unit]
    split
    · next hc =>
      have hne : c ≠ 37 := by
        rintro rfl
        rw [hkeep] at hc
        cases hc
      rw [List.singleton_append, decode_cons hne, ih, Option.map_map]
      rfl
    · rw [decode_escape, ih, Option.map_map]
      rfl

theorem decode_encode (hkeep : keep 37 = false) : decode (encode keep bytes) = some bytes := by
  have h : decode (encode keep bytes ++ []) = (decode []).map (bytes ++ ·) :=
    decode_encode_append hkeep
  simpa [decode] using h

/-- No byte of an encoded text is NUL, as long as NUL is not kept. -/
theorem zero_notMem_encode (hkeep : keep 0 = false) : 0 ∉ encode keep bytes := by
  intro hzero
  obtain ⟨b, -, hb⟩ := List.mem_flatMap.mp hzero
  rw [unit] at hb
  split at hb
  · next hkept =>
    rw [← List.mem_singleton.mp hb, hkeep] at hkept
    cases hkept
  · obtain ⟨_, _, _, hhigh, hlow⟩ := escape_of_fin b.toFin
    simp only [UInt8.ofFin_toFin] at hhigh hlow
    simp only [escape, List.mem_cons, List.not_mem_nil, or_false] at hb
    rcases hb with hb | hb | hb
    · cases hb
    · exact hhigh hb.symm
    · exact hlow hb.symm

end percent_encoding
