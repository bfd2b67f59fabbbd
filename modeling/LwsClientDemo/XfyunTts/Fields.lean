import LwsClientDemo.XfyunTts.UrlEncode

namespace lws_client.xfyun_tts

open json

/-- A string literal as a name or a text of a document. -/
def plain (s : String) (h : 0 ∉ literal s ∧ 34 ∉ literal s) : Text := ⟨literal s, h⟩

/-- The field names that more than one document has. -/
def data_name : Text := plain "data" (by decide)

def status_name : Text := plain "status" (by decide)

def code_name : Text := plain "code" (by decide)

def audio_name : Text := plain "audio" (by decide)

/-- The number and the text of a value that has one. -/
def number : Value → Option Int
  | .num n => some n
  | _ => none

def text_of : Value → Option (List UInt8)
  | .str s => some s.bytes
  | _ => none

def isStr (value : Value) : Bool := (text_of value).isSome

theorem isStr_iff {value : Value} : isStr value = true ↔ ∃ s, value = .str s := by
  cases value <;> simp [isStr, text_of]

/-- The number of the first member of that name, in a document of the service. -/
def int_field (doc : Value) (key : List UInt8) : Option Int :=
  ((doc.find key fun _ => true).bind number).map int_of_long

/-- The text of the first member of that name that is a string, if no space stands before it. -/
def str_field (gap : List UInt8) (doc : Value) (key : List UInt8) : Option (List UInt8) :=
  if gap = [] then (doc.find key isStr).bind text_of else none

/-- What `json_get_int` and `json_get_str` read in a string, be it a document or not. -/
def raw_int (string key : List UInt8) : Option Int :=
  (strstr string (announce key [])).bind fun p =>
    sscanf_d ((p.drop (announce key []).length).dropWhile (· = 32))

def raw_str (string key : List UInt8) : Option (List UInt8) :=
  (strstr string (announce key [34])).bind fun p =>
    let p := p.drop (announce key [34]).length
    (p.findIdx? (· = 34)).map p.take

/-- `out` after the text has been copied into it as far as it fits. -/
def copied (out : List UInt8) (outlen : Nat) : Option (List UInt8) → List UInt8 × Bool
  | none => (out, false)
  | some s => (s.take (outlen - 1) ++ 0 :: out.drop ((s.take (outlen - 1)).length + 1), true)

variable {gap key out text after object rest : List UInt8} {outlen : Nat} {doc : Value}

theorem snprintf_eq (hpos : 0 < outlen) (hout : outlen ≤ out.length) :
    snprintf out outlen text = some (text.take (outlen - 1) ++
      0 :: out.drop ((text.take (outlen - 1)).length + 1),
        if (text.length : Int) ≤ INT_MAX then (text.length : Int) else -1) := by
  have hroom : 0 + (text.take (outlen - 1) ++ [0]).length ≤ out.length := by
    simp only [List.length_append, List.length_take, List.length_singleton]
    omega
  rw [snprintf]
  simp only [if_neg (Nat.pos_iff_ne_zero.mp hpos), store_eq hroom]
  simp

/-- A short text formatted into a buffer is there afterwards. -/
theorem snprintf_buffer (hlen : text.length < outlen) :
    ∃ z n, snprintf (buffer outlen) outlen text = some (text ++ 0 :: z, n) := by
  rw [snprintf_eq (by omega) (by simp [buffer]), List.take_of_length_le (by omega)]
  exact ⟨_, _, rfl⟩

theorem sscanf_d_none {c : UInt8} (hspace : isspace c = false) (hsign : c ≠ 45 ∧ c ≠ 43)
    (hdigit : isdigit c = false) : sscanf_d (c :: after) = none := by
  have hdrop : (c :: after).dropWhile isspace = c :: after := by simp [hspace]
  simp only [sscanf_d, hdrop]
  split
  · next heq => exact absurd (List.cons.inj heq).1 hsign.1
  · next heq => exact absurd (List.cons.inj heq).1 hsign.2
  · simp [hdigit]

/-- The digits of a number, up to what closes its value. -/
theorem takeWhile_digits {n : Nat} (hafter : Closed after) :
    (digits n ++ after).takeWhile isdigit = digits n := by
  have hdigits : ∀ c ∈ digits n, isdigit c = true := by
    intro c hc
    simpa [isdigit] using mem_digits c hc
  rw [List.takeWhile_append_of_pos hdigits]
  cases after with
  | nil => simp
  | cons c after =>
    have hc : isdigit c = false := by
      rcases hafter with rfl | rfl | rfl <;> decide
    simp [hc]

theorem digits_head {n : Nat} : ∃ c rest, digits n = c :: rest ∧ isspace c = false ∧ c ≠ 45 ∧
    c ≠ 43 := by
  cases hdigits : digits n with
  | nil =>
    rw [digits] at hdigits
    split at hdigits
    · cases hdigits
    · next hn => simp [Nat.digits_ne_nil_iff_ne_zero.mpr hn] at hdigits
  | cons c rest =>
    obtain ⟨hlow, hhigh⟩ := mem_digits c (hdigits ▸ List.mem_cons_self)
    refine ⟨c, rest, rfl, ?_, ?_, ?_⟩
    · simp only [isspace, Bool.or_eq_false_iff, decide_eq_false_iff_not, Bool.and_eq_false_iff]
      grind
    · grind
    · grind

theorem sscanf_d_digits {n : Nat} (hafter : Closed after) :
    sscanf_d (digits n ++ after) = some (int_of_long n) := by
  obtain ⟨c, rest, hcons, hspace, hminus, hplus⟩ := digits_head (n := n)
  have hne : digits n ≠ [] := by simp [hcons]
  have hdrop : (digits n ++ after).dropWhile isspace = digits n ++ after := by simp [hcons, hspace]
  simp only [sscanf_d, hdrop]
  split
  · next heq =>
    simp only [hcons, List.cons_append, List.cons.injEq] at heq
    exact absurd heq.1 hminus
  · next heq =>
    simp only [hcons, List.cons_append, List.cons.injEq] at heq
    exact absurd heq.1 hplus
  · rw [takeWhile_digits hafter, if_neg hne, strtol_digits, digits_value]
    rfl

theorem sscanf_d_minus {n : Nat} (hafter : Closed after) :
    sscanf_d (45 :: (digits n ++ after)) = some (int_of_long (-n)) := by
  obtain ⟨c, rest, hcons, _⟩ := digits_head (n := n)
  have hne : digits n ≠ [] := by simp [hcons]
  have hdrop : (45 :: (digits n ++ after)).dropWhile isspace = 45 :: (digits n ++ after) := by
    simp [isspace]
  simp only [sscanf_d, hdrop]
  rw [takeWhile_digits hafter, if_neg hne, strtol_digits, digits_value]
  rfl

/-- `sscanf` reads a value that is a number, and no other. -/
theorem sscanf_d_value (value : Value) (hafter : Closed after) :
    sscanf_d (value.print gap ++ after) = (number value).map int_of_long := by
  cases value with
  | null => exact sscanf_d_none (by decide) (by decide) (by decide)
  | bool b => cases b <;> exact sscanf_d_none (by decide) (by decide) (by decide)
  | str s => exact sscanf_d_none (by decide) (by decide) (by decide)
  | arr items => exact sscanf_d_none (by decide) (by decide) (by decide)
  | obj members => exact sscanf_d_none (by decide) (by decide) (by decide)
  | num n =>
    rw [Value.print, decimal]
    split
    · next hneg =>
      rw [List.cons_append, sscanf_d_minus hafter, number, Option.map_some]
      congr 2
      omega
    · next hpos =>
      rw [sscanf_d_digits hafter, number, Option.map_some]
      congr 2
      omega

theorem dropWhile_gap (hgap : ∀ c ∈ gap, c = 32) (value : Value) :
    (gap ++ (value.print gap ++ after)).dropWhile (· = 32) = value.print gap ++ after := by
  rw [List.dropWhile_append_of_pos (by simpa using hgap)]
  cases value with
  | null | str | arr | obj => rfl
  | bool b => cases b <;> rfl
  | num n =>
    rw [Value.print, decimal]
    split
    · rfl
    · obtain ⟨c, rest, hcons, hspace, _⟩ := digits_head (n := n.natAbs)
      have hc : c ≠ 32 := by
        rintro rfl
        simp [isspace] at hspace
      simp [hcons, hc]

theorem announce_plain {first : List UInt8} (hkey : 0 ∉ key) (hfirst : 0 ∉ first) :
    0 ∉ announce key first := by
  simp only [announce_eq, List.mem_cons, List.mem_append, not_or]
  exact ⟨by decide, hkey, by decide, by decide, hfirst⟩

theorem gap_plain {c : UInt8} (hgap : ∀ c ∈ gap, c = 32) (hc : c ≠ 32) : c ∉ gap :=
  fun hmem => hc (hgap c hmem)

theorem announce_length {first : List UInt8} :
    (announce key first).length = key.length + 3 + first.length := by
  simp only [announce_eq, List.length_cons, List.length_append]
  omega

/-- A member of any type is announced by its name. -/
theorem query_int (hname : Name key) (hgap : ∀ c ∈ gap, c = 32) :
    Query gap key [] fun _ => true where
  name_ok := hname
  gap_plain := gap_plain hgap (by decide)
  accept_iff := by simp

theorem decimal_cons (n : Int) : ∃ c rest, decimal n = c :: rest := by
  rw [decimal]
  split
  · exact ⟨_, _, rfl⟩
  · obtain ⟨c, rest, hcons, _⟩ := digits_head (n := n.natAbs)
    exact ⟨c, rest, hcons⟩

/-- A member that is a string is announced by its name and the quotation mark. -/
theorem query_str (hname : Name key) : Query [] key [34] isStr where
  name_ok := hname
  gap_plain := List.not_mem_nil
  accept_iff := by
    intro value after
    rw [List.nil_append]
    cases value with
    | str s => simp [Value.print, quoted, isStr, text_of]
    | null => simp [Value.print, nullWord, isStr, text_of]
    | bool b => cases b <;> simp [Value.print, boolWord, isStr, text_of]
    | arr items => simp [Value.print, isStr, text_of]
    | obj members => simp [Value.print, isStr, text_of]
    | num n =>
      obtain ⟨c, rest, hcons⟩ := decimal_cons n
      have hc : ¬ 34 = c := fun h => (decimal_plain n).2 (by simp [hcons, h])
      simp [Value.print, hcons, isStr, text_of, hc]

/-- With a space before the value no member is announced. -/
theorem query_spaced (hname : Name key) (hgap : ∀ c ∈ gap, c = 32) (hne : gap ≠ []) :
    Query gap key [34] fun _ => false where
  name_ok := hname
  gap_plain := gap_plain hgap (by decide)
  accept_iff := by
    intro value after
    cases gap with
    | nil => exact absurd rfl hne
    | cons c gap =>
      have hc := hgap c (by simp)
      simp [hc]

theorem print_plain (doc : Value) (hgap : ∀ c ∈ gap, c = 32) : 0 ∉ doc.print gap :=
  doc.zero_notMem (gap_plain hgap (by decide))

/-- The needle is formatted whole. -/
theorem needle_eq {first : List UInt8} (hkey : 0 ∉ key) (hfirst : 0 ∉ first)
    (hlen : key.length + first.length ≤ 60) :
    ∃ z n, snprintf (buffer 64) 64 (announce key first) = some (announce key first ++ 0 :: z, n) ∧
      c_str (announce key first ++ 0 :: z) = some (announce key first) := by
  have hroom : (announce key first).length < 64 := by
    rw [announce_length]
    omega
  obtain ⟨z, n, hneedle⟩ := snprintf_buffer hroom
  exact ⟨z, n, hneedle, c_str_append (announce_plain hkey hfirst) z⟩

theorem json_get_int_spec (hobject : c_str object = some text) (hkey : 0 ∉ key)
    (hlen : key.length ≤ 60) : json_get_int object key = some (raw_int text key) := by
  have htext : literal "\"" ++ key ++ literal "\":" = announce key [] := by
    simp only [announce_eq]
    rfl
  obtain ⟨z, n, hneedle, hstr⟩ := needle_eq hkey List.not_mem_nil hlen
  simp only [json_get_int, htext, hneedle, Option.bind_eq_bind, Option.bind_some, hstr, hobject,
    raw_int]
  cases strstr text (announce key []) <;> rfl

/-- What is copied stays inside `out` and is a C string there. -/
theorem json_get_str_spec (hobject : c_str object = some text) (hkey : 0 ∉ key)
    (hlen : key.length ≤ 59) (hpos : 0 < outlen) (hout : outlen ≤ out.length)
    (hmax : outlen ≤ PTRDIFF_MAX) :
    json_get_str object key out outlen = some (copied out outlen (raw_str text key)) := by
  have htext : literal "\"" ++ key ++ literal "\":\"" = announce key [34] := by
    simp only [announce_eq]
    rfl
  have hquote : 0 ∉ ([34] : List UInt8) := by decide
  have hroom : key.length + ([34] : List UInt8).length ≤ 60 := Nat.succ_le_succ hlen
  obtain ⟨z, n, hneedle, hstr⟩ := needle_eq hkey hquote hroom
  simp only [json_get_str, htext, hneedle, Option.bind_eq_bind, Option.bind_some, hstr, hobject,
    raw_str]
  cases strstr text (announce key [34]) with
  | none => rfl
  | some p =>
    simp only [Option.bind_some]
    generalize p.drop (announce key [34]).length = p
    cases hquoted : p.findIdx? (· = 34) with
    | none => rfl
    | some len =>
      have hsub : size_sub outlen 1 = outlen - 1 := by
        simp only [size_sub, PTRDIFF_MAX] at hmax ⊢
        omega
      obtain ⟨hle, _⟩ := List.findIdx?_eq_some_iff_getElem.mp hquoted
      have hcut : (if outlen ≤ len then size_sub outlen 1 else len) =
          ((p.take len).take (outlen - 1)).length := by
        rw [hsub, List.length_take, List.length_take]
        split <;> omega
      have htake : p.take ((p.take len).take (outlen - 1)).length =
          (p.take len).take (outlen - 1) := by
        rw [List.take_take, List.length_take, List.take_eq_take_iff]
        omega
      have hroom : ((p.take len).take (outlen - 1)).length + 1 ≤ out.length := by
        rw [List.length_take]
        omega
      simp only [hcut, htake, Option.map_some, copied]
      generalize (p.take len).take (outlen - 1) = cut at hroom
      rw [store_eq (by omega), Option.bind_some, List.take_zero, List.nil_append, Nat.zero_add,
        store_append rfl (by simp only [List.length_drop, List.length_singleton]; omega)]
      simp [List.drop_drop]

theorem raw_int_print (hname : Name key) (hgap : ∀ c ∈ gap, c = 32) :
    raw_int (doc.print gap) key = int_field doc key := by
  obtain ⟨hfound, hnone⟩ := (query_int hname hgap).search_eq doc
  rw [raw_int, strstr, int_field]
  cases hfind : doc.find key fun _ => true with
  | none =>
    rw [hnone hfind, search_nil]
    rfl
  | some value =>
    obtain ⟨after, hafter, hsearch⟩ := hfound value hfind
    have hlength : (announce key []).length = (quoted key ++ [58]).length := rfl
    rw [hsearch, Option.bind_some, Option.bind_some, List.append_cons, hlength, List.drop_left' rfl,
      dropWhile_gap hgap, sscanf_d_value value hafter]

theorem raw_str_print (hname : Name key) (hgap : ∀ c ∈ gap, c = 32) :
    raw_str (doc.print gap) key = str_field gap doc key := by
  rw [raw_str, strstr, str_field]
  split
  · next hnil =>
    subst hnil
    obtain ⟨hfound, hnone⟩ := (query_str hname).search_eq doc
    cases hfind : doc.find key isStr with
    | none =>
      rw [hnone hfind, search_nil]
      rfl
    | some value =>
      obtain ⟨after, hafter, hsearch⟩ := hfound value hfind
      obtain ⟨s, rfl⟩ := isStr_iff.mp ((query_str hname).accepted hfind)
      have hdrop : (quoted key ++ 58 :: ([] ++ ((Value.str s).print [] ++ after))).drop
          (announce key [34]).length = s.bytes ++ 34 :: after := by
        simp [announce, Value.print, quoted]
      have hquote : (s.bytes ++ 34 :: after).findIdx? (· = 34) = some s.bytes.length := by
        have hne : ∀ c ∈ s.bytes, c ≠ 34 := fun c hc => ne_of_mem_of_not_mem hc s.plain.2
        rw [List.findIdx?_append, List.findIdx?_eq_none_iff.mpr (by simpa using hne)]
        simp [List.findIdx?_cons]
      simp only [hsearch, Option.bind_some, hdrop, hquote]
      simp [text_of]
  · next hne =>
    obtain ⟨_, hnone⟩ := (query_spaced hname hgap hne).search_eq doc
    cases hfind : doc.find key fun _ => false with
    | none =>
      rw [hnone hfind, search_nil]
      rfl
    | some value => cases (query_spaced hname hgap hne).accepted hfind

/-- On a document written without spaces, but for those after a colon, and without quotation marks
    in its strings, `json_get_int` finds the first member of that name and `json_get_str` the first
    that is a string, except that a space after the colon hides it. -/
theorem json_get_print (hname : Name key) (hkey : 0 ∉ key) (hlen : key.length ≤ 59)
    (hgap : ∀ c ∈ gap, c = 32) (doc : Value) (rest : List UInt8) :
    json_get_int (doc.print gap ++ 0 :: rest) key = some (int_field doc key) ∧
    ∀ out outlen, 0 < outlen → outlen ≤ out.length → outlen ≤ PTRDIFF_MAX →
      json_get_str (doc.print gap ++ 0 :: rest) key out outlen =
        some (copied out outlen (str_field gap doc key)) := by
  have hobject := c_str_append (print_plain doc hgap) rest
  refine ⟨?_, fun out outlen hpos hout hmax => ?_⟩
  · rw [json_get_int_spec hobject hkey (by omega), raw_int_print hname hgap]
  · rw [json_get_str_spec hobject hkey hlen hpos hout hmax, raw_str_print hname hgap]

/-- An answer with its samples in an object of their own. -/
def nested_doc : Value :=
  .obj
    (.cons code_name (.num 0)
    (.cons data_name (.obj
      (.cons audio_name (.str (plain "aGk=" (by decide)))
      (.cons status_name (.num 2) .nil))) .nil))

/-- The inner fields are found, the text only where no space stands before it. -/
theorem json_get_print_nested :
    json_get_int (nested_doc.print [32] ++ [0]) (literal "status") = some (some 2) ∧
      json_get_str (nested_doc.print [] ++ [0]) (literal "audio") (List.replicate 8 1) 8 =
        some (literal "aGk=" ++ [0, 1, 1, 1], true) ∧
      json_get_str (nested_doc.print [32] ++ [0]) (literal "audio") (List.replicate 8 1) 8 =
        some (List.replicate 8 1, false) := by
  refine ⟨?_, ?_, ?_⟩
  · exact (json_get_print (by decide) (by decide) (by decide) (by simp) nested_doc []).1
  · exact (json_get_print (by decide) (by decide) (by decide) (by simp) nested_doc []).2
      (List.replicate 8 1) 8 (by decide) (by decide) (by decide)
  · exact (json_get_print (by decide) (by decide) (by decide) (by simp) nested_doc []).2
      (List.replicate 8 1) 8 (by decide) (by decide) (by decide)

/-- What `json_get_str` reads is a part of the text. -/
theorem raw_str_sublist {s : List UInt8} (h : raw_str text key = some s) : s.Sublist text := by
  simp only [raw_str, Option.bind_eq_some_iff, Option.map_eq_some_iff] at h
  obtain ⟨p, hp, n, _, rfl⟩ := h
  exact (List.take_sublist n _).trans ((List.drop_sublist _ p).trans (search_suffix hp).sublist)

theorem copied_whole {s : List UInt8} (out : List UInt8) (hroom : s.length < outlen) :
    ∃ rest, copied out outlen (some s) = (s ++ 0 :: rest, true) := by
  rw [copied, List.take_of_length_le (by omega)]
  exact ⟨_, rfl⟩

/-- Copying keeps the size of the array and the NUL in it. -/
theorem copied_length {s : Option (List UInt8)} (hpos : 0 < outlen) (hout : outlen ≤ out.length) :
    (copied out outlen s).1.length = out.length := by
  cases s with
  | none => rfl
  | some s =>
    simp only [copied, List.length_append, List.length_cons, List.length_drop, List.length_take]
    omega

theorem copied_zero_mem {s : Option (List UInt8)} (h : 0 ∈ out) : 0 ∈ (copied out outlen s).1 := by
  cases s with
  | none => exact h
  | some s => simp [copied]

end lws_client.xfyun_tts
