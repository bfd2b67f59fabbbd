import Mathlib.Data.List.Basic
import Mathlib.Data.Nat.Digits.Defs

namespace json

/-- A string as it is written between its quotation marks. -/
structure Text where
  bytes : List UInt8
  plain : 0 ∉ bytes ∧ 34 ∉ bytes
  deriving DecidableEq

mutual
inductive Value where
  | null
  | bool (b : Bool)
  | num (n : Int)
  | str (s : Text)
  | arr (items : Items)
  | obj (members : Members)

inductive Items where
  | nil
  | cons (value : Value) (rest : Items)

inductive Members where
  | nil
  | cons (name : Text) (value : Value) (rest : Members)
end

/-- The decimal digits of a number, most significant first. -/
def digits (n : Nat) : List UInt8 :=
  if n = 0 then [48] else ((Nat.digits 10 n).map fun d => UInt8.ofNat (48 + d)).reverse

def decimal (n : Int) : List UInt8 := if n < 0 then 45 :: digits n.natAbs else digits n.natAbs

def quoted (s : List UInt8) : List UInt8 := 34 :: (s ++ [34])

/-- The letters of `null`, `true` and `false`. -/
def nullWord : List UInt8 := [110, 117, 108, 108]

def boolWord (b : Bool) : List UInt8 := if b then [116, 114, 117, 101] else [102, 97, 108, 115, 101]

/- A document as it is written without spaces, `gap` after each colon excepted. -/
mutual
def Value.print (gap : List UInt8) : Value → List UInt8
  | .null => nullWord
  | .bool b => boolWord b
  | .num n => decimal n
  | .str s => quoted s.bytes
  | .arr items => 91 :: (items.print gap ++ [93])
  | .obj members => 123 :: (members.print gap ++ [125])

def Items.print (gap : List UInt8) : Items → List UInt8
  | .nil => []
  | .cons value rest => value.print gap ++ rest.printTail gap

def Items.printTail (gap : List UInt8) : Items → List UInt8
  | .nil => []
  | .cons value rest => 44 :: (value.print gap ++ rest.printTail gap)

def Members.print (gap : List UInt8) : Members → List UInt8
  | .nil => []
  | .cons name value rest =>
    quoted name.bytes ++ 58 :: (gap ++ (value.print gap ++ rest.printTail gap))

def Members.printTail (gap : List UInt8) : Members → List UInt8
  | .nil => []
  | .cons name value rest =>
    44 :: (quoted name.bytes ++ 58 :: (gap ++ (value.print gap ++ rest.printTail gap)))
end

/- The value of the first member of that name that is accepted, in the order of the text. -/
mutual
def Value.find (name : List UInt8) (accept : Value → Bool) : Value → Option Value
  | .arr items => items.find name accept
  | .obj members => members.find name accept
  | .null | .bool _ | .num _ | .str _ => none

def Items.find (name : List UInt8) (accept : Value → Bool) : Items → Option Value
  | .nil => none
  | .cons value rest => (value.find name accept).or (rest.find name accept)

def Members.find (name : List UInt8) (accept : Value → Bool) : Members → Option Value
  | .nil => none
  | .cons name' value rest =>
    if name'.bytes = name ∧ accept value then some value
    else (value.find name accept).or (rest.find name accept)
end

/-- The rest of the text from the first place where the needle stands. -/
def search (needle : List UInt8) : List UInt8 → Option (List UInt8)
  | [] => if needle = [] then some [] else none
  | c :: text =>
    if needle.isPrefixOf (c :: text) then some (c :: text) else search needle text

/-- What can follow a value in a document. -/
def Closed : List UInt8 → Prop
  | [] => True
  | c :: _ => c = 44 ∨ c = 93 ∨ c = 125

/-- A member's name that no punctuation can be taken for. -/
def Name (name : List UInt8) : Prop :=
  34 ∉ name ∧ name.head? ≠ some 44 ∧ name.head? ≠ some 93 ∧ name.head? ≠ some 125 ∧
    name.head? ≠ some 58

instance (name : List UInt8) : Decidable (Name name) :=
  inferInstanceAs (Decidable (_ ∧ _ ∧ _ ∧ _ ∧ _))

/-- The text that announces a member, with the first bytes of its value. -/
def announce (name first : List UInt8) : List UInt8 := quoted name ++ 58 :: first

variable {gap name first text tail : List UInt8} {accept : Value → Bool}

/-- Up to the first quotation mark two texts that agree have the same letters. -/
theorem quoted_prefix {s : List UInt8} (hs : 34 ∉ s) (hname : 34 ∉ name) :
    name ++ 34 :: first <+: s ++ 34 :: tail ↔ name = s ∧ first <+: tail := by
  induction s generalizing name with
  | nil =>
    cases name with
    | nil => simp
    | cons c name =>
      have hc : ¬ 34 = c := fun h => hname (by simp [h])
      simp [Ne.symm hc]
  | cons b s ih =>
    simp only [List.mem_cons, not_or] at hs
    cases name with
    | nil => simp [hs.1]
    | cons c name =>
      simp only [List.mem_cons, not_or] at hname
      rw [List.cons_append, List.cons_append, List.cons_prefix_cons, List.cons.injEq,
        ih hs.2 hname.2, and_assoc]

theorem announce_eq : announce name first = 34 :: (name ++ 34 :: 58 :: first) := by
  simp [announce, quoted]

/-- Where a string stands, a member is announced if that is its name and its value begins so. -/
theorem announce_prefix_quoted {s : List UInt8} (hs : 34 ∉ s) (hname : Name name) :
    announce name first <+: quoted s ++ tail ↔ name = s ∧ 58 :: first <+: tail := by
  rw [announce_eq, quoted, List.cons_append, List.append_assoc, List.singleton_append,
    List.cons_prefix_cons, quoted_prefix hs hname.1]
  simp

theorem search_cons {c : UInt8} (h : ¬ announce name first <+: c :: text) :
    search (announce name first) (c :: text) = search (announce name first) text := by
  rw [search, if_neg (by simpa using h)]

theorem search_found (h : announce name first <+: text) :
    search (announce name first) text = some text := by
  cases text with
  | nil => simp [announce, quoted] at h
  | cons c text => rw [search, if_pos (by simpa using h)]

/-- No member is announced inside a text without quotation marks. -/
theorem search_append {w : List UInt8} (hword : 34 ∉ w) :
    search (announce name first) (w ++ text) = search (announce name first) text := by
  induction w with
  | nil => rfl
  | cons c w ih =>
    simp only [List.mem_cons, not_or] at hword
    rw [List.cons_append, search_cons (by simp [announce_eq, hword.1])]
    exact ih hword.2

/-- Nor where a string ends, if a punctuation mark follows. -/
theorem search_close (hname : Name name)
    (htext : ∀ c ∈ text.head?, c = 44 ∨ c = 93 ∨ c = 125 ∨ c = 58) :
    search (announce name first) (34 :: text) = search (announce name first) text := by
  apply search_cons
  obtain ⟨_, hhead⟩ := hname
  rw [announce_eq, List.cons_prefix_cons]
  rintro ⟨-, hprefix⟩
  cases text with
  | nil => simp at hprefix
  | cons c text =>
    have hc := htext c rfl
    cases name with
    | nil =>
      obtain rfl : 34 = c := by simpa using (List.cons_prefix_cons.mp hprefix).1
      simp at hc
    | cons d name =>
      obtain rfl : d = c := by simpa using (List.cons_prefix_cons.mp hprefix).1
      simp only [List.head?_cons, ne_eq, Option.some.injEq] at hhead
      tauto

/-- A string that announces nothing is passed over. -/
theorem search_quoted {s : List UInt8} (hs : 34 ∉ s) (hname : Name name)
    (htext : ∀ c ∈ text.head?, c = 44 ∨ c = 93 ∨ c = 125 ∨ c = 58)
    (hnot : ¬ announce name first <+: quoted s ++ text) :
    search (announce name first) (quoted s ++ text) = search (announce name first) text := by
  rw [quoted, List.cons_append] at hnot ⊢
  rw [search_cons hnot, List.append_assoc, search_append hs]
  exact search_close hname htext

/-- The search in `text`, a part of a document with `tail` after it, meets the member that was
    found in that part, or goes on in `tail`. -/
def Meets (gap name first : List UInt8) (found : Option Value) (text tail : List UInt8) : Prop :=
  (∀ value, found = some value → ∃ after, Closed after ∧
    search (announce name first) text =
      some (quoted name ++ 58 :: (gap ++ (value.print gap ++ after)))) ∧
  (found = none → search (announce name first) text = search (announce name first) tail)

theorem Meets.or {found found' : Option Value} {middle : List UInt8}
    (h : Meets gap name first found text middle) (h' : Meets gap name first found' middle tail) :
    Meets gap name first (found.or found') text tail := by
  cases found with
  | some value => exact ⟨h.1, by simp⟩
  | none =>
    refine ⟨fun value hvalue => ?_, fun hnone => ?_⟩
    · obtain ⟨after, hafter, hsearch⟩ := h'.1 value hvalue
      exact ⟨after, hafter, (h.2 rfl).trans hsearch⟩
    · exact (h.2 rfl).trans (h'.2 hnone)

/-- Text without quotation marks can stand before a part of a document. -/
theorem Meets.append {found : Option Value} {w : List UInt8} (hword : 34 ∉ w)
    (h : Meets gap name first found text tail) :
    Meets gap name first found (w ++ text) tail := by
  rwa [Meets, search_append hword]

theorem Meets.nothing (h : search (announce name first) text = search (announce name first) tail) :
    Meets gap name first none text tail :=
  ⟨by simp, fun _ => h⟩

theorem Meets.after {found : Option Value} {tail' : List UInt8}
    (h : Meets gap name first found text tail)
    (htail : search (announce name first) tail = search (announce name first) tail') :
    Meets gap name first found text tail' :=
  ⟨h.1, fun hnone => (h.2 hnone).trans htail⟩

theorem digit_range : ∀ d : Fin 10, 48 ≤ UInt8.ofNat (48 + d) ∧ UInt8.ofNat (48 + d) ≤ 57 := by
  decide

theorem mem_digits {n : Nat} : ∀ c ∈ digits n, 48 ≤ c ∧ c ≤ 57 := by
  intro c hc
  rw [digits] at hc
  split at hc
  · obtain rfl := List.mem_singleton.mp hc
    decide
  · obtain ⟨d, hd, rfl⟩ := List.mem_map.mp (List.mem_reverse.mp hc)
    exact digit_range ⟨d, Nat.digits_lt_base (by decide) hd⟩

theorem digits_plain (n : Nat) : 0 ∉ digits n ∧ 34 ∉ digits n :=
  ⟨fun hzero => absurd (mem_digits 0 hzero).1 (by decide),
    fun hquote => absurd (mem_digits 34 hquote).1 (by decide)⟩

theorem decimal_plain (n : Int) : 0 ∉ decimal n ∧ 34 ∉ decimal n := by
  obtain ⟨hzero, hquote⟩ := digits_plain n.natAbs
  rw [decimal]
  split
  · simp [hzero, hquote]
  · exact ⟨hzero, hquote⟩

/-- A number is read back from its digits. -/
theorem digits_value (n : Nat) : (digits n).foldl (fun v c => v * 10 + (c.toNat - 48)) 0 = n := by
  have hdigit (d : Nat) (hd : d < 10) : (UInt8.ofNat (48 + d)).toNat - 48 = d := by
    rw [UInt8.toNat_ofNat']
    omega
  rw [digits]
  split
  · next hzero =>
    subst hzero
    rfl
  · have hlt : ∀ d ∈ Nat.digits 10 n, d < 10 := fun d hd => Nat.digits_lt_base (by decide) hd
    conv_rhs => rw [← Nat.ofDigits_digits 10 n]
    generalize Nat.digits 10 n = ds at hlt
    rw [List.foldl_reverse]
    induction ds with
    | nil => rfl
    | cons d ds ih =>
      obtain ⟨hd, hds⟩ := List.forall_mem_cons.mp hlt
      rw [List.map_cons, List.foldr_cons, ih hds, hdigit d hd, Nat.ofDigits_cons]
      omega

theorem closed_printTail_items (items : Items) (htail : Closed tail) :
    Closed (items.printTail gap ++ tail) := by
  cases items with
  | nil => exact htail
  | cons value rest => exact .inl rfl

theorem closed_printTail_members (members : Members) (htail : Closed tail) :
    Closed (members.printTail gap ++ tail) := by
  cases members with
  | nil => exact htail
  | cons name value rest => exact .inl rfl

theorem Closed.head (h : Closed text) : ∀ c ∈ text.head?, c = 44 ∨ c = 93 ∨ c = 125 ∨ c = 58 := by
  cases text with
  | nil => simp
  | cons c text =>
    rintro d ⟨⟩
    exact h.elim .inl fun h => .inr (h.elim .inl fun h => .inr (.inl h))

/-- What is searched for announces the accepted members of that name and nothing else. -/
structure Query (gap name first : List UInt8) (accept : Value → Bool) : Prop where
  name_ok : Name name
  gap_plain : 34 ∉ gap
  accept_iff : ∀ (value : Value) (after : List UInt8),
    first <+: gap ++ (value.print gap ++ after) ↔ accept value = true

/-- A string that is a value announces no member. -/
theorem meets_str {s : Text} (hname : Name name) (htail : Closed tail) :
    Meets gap name first none (quoted s.bytes ++ tail) tail := by
  refine .nothing (search_quoted s.plain.2 hname htail.head fun hprefix => ?_)
  obtain ⟨_, hcolon⟩ := (announce_prefix_quoted s.plain.2 hname).mp hprefix
  cases tail with
  | nil => simp at hcolon
  | cons c tail =>
    obtain rfl : 58 = c := (List.cons_prefix_cons.mp hcolon).1
    simp [Closed] at htail

/-- A member is met, or the search goes on in its value. -/
theorem Query.meets_member (h : Query gap name first accept) {k : Text} {value : Value}
    {found : Option Value} {after : List UInt8} (hafter : Closed after)
    (hvalue : Meets gap name first found (value.print gap ++ after) tail) :
    Meets gap name first (if k.bytes = name ∧ accept value then some value else found)
      (quoted k.bytes ++ 58 :: (gap ++ (value.print gap ++ after))) tail := by
  have hhere :
      announce name first <+: quoted k.bytes ++ 58 :: (gap ++ (value.print gap ++ after)) ↔
        k.bytes = name ∧ accept value = true := by
    rw [announce_prefix_quoted k.plain.2 h.name_ok, List.cons_prefix_cons,
      h.accept_iff value after, eq_comm (a := name)]
    simp
  split
  · next hfound =>
    refine ⟨?_, by simp⟩
    rintro _ ⟨⟩
    refine ⟨after, hafter, ?_⟩
    rw [search_found (hhere.mpr hfound), hfound.1]
  · next hnot =>
    have hskip := search_quoted k.plain.2 h.name_ok (by simp) (mt hhere.mp hnot)
    have hcolon : 34 ∉ 58 :: gap := by simp [h.gap_plain]
    have hgo := hvalue.append hcolon
    rw [List.cons_append] at hgo
    rwa [Meets, hskip]

mutual
/-- The search through a value that stands in a document. -/
theorem Query.meets_value (h : Query gap name first accept) (value : Value)
    {tail : List UInt8} (htail : Closed tail) :
    Meets gap name first (value.find name accept) (value.print gap ++ tail) tail := by
  match value with
  | .null => exact .nothing (search_append (w := nullWord) (by decide))
  | .bool b => exact .nothing (search_append (w := boolWord b) (by cases b <;> decide))
  | .num n => exact .nothing (search_append (decimal_plain n).2)
  | .str s => exact meets_str h.name_ok htail
  | .arr items =>
    have hitems := h.meets_items items (show Closed (93 :: tail) from .inr (.inl rfl))
    have hclose : search (announce name first) (93 :: tail) = search (announce name first) tail :=
      search_append (w := [93]) (by decide)
    rw [Value.print, Value.find, List.cons_append, List.append_assoc, List.singleton_append]
    exact (hitems.after hclose).append (w := [91]) (by decide)
  | .obj members =>
    have hmembers := h.meets_members members (show Closed (125 :: tail) from .inr (.inr rfl))
    have hclose : search (announce name first) (125 :: tail) = search (announce name first) tail :=
      search_append (w := [125]) (by decide)
    rw [Value.print, Value.find, List.cons_append, List.append_assoc, List.singleton_append]
    exact (hmembers.after hclose).append (w := [123]) (by decide)

theorem Query.meets_items (h : Query gap name first accept) (items : Items)
    {tail : List UInt8} (htail : Closed tail) :
    Meets gap name first (items.find name accept) (items.print gap ++ tail) tail := by
  match items with
  | .nil => exact .nothing rfl
  | .cons value rest =>
    rw [Items.print, Items.find, List.append_assoc]
    exact (h.meets_value value (closed_printTail_items rest htail)).or
      (h.meets_items_tail rest htail)

theorem Query.meets_items_tail (h : Query gap name first accept) (items : Items)
    {tail : List UInt8} (htail : Closed tail) :
    Meets gap name first (items.find name accept) (items.printTail gap ++ tail) tail := by
  match items with
  | .nil => exact .nothing rfl
  | .cons value rest =>
    rw [Items.printTail, Items.find, List.cons_append, List.append_assoc]
    exact ((h.meets_value value (closed_printTail_items rest htail)).or
      (h.meets_items_tail rest htail)).append (w := [44]) (by decide)

theorem Query.meets_members (h : Query gap name first accept) (members : Members)
    {tail : List UInt8} (htail : Closed tail) :
    Meets gap name first (members.find name accept) (members.print gap ++ tail) tail := by
  match members with
  | .nil => exact .nothing rfl
  | .cons key value rest =>
    have hafter : Closed (rest.printTail gap ++ tail) := closed_printTail_members rest htail
    have hgo := (h.meets_value value hafter).or (h.meets_members_tail rest htail)
    have hmember := h.meets_member (k := key) hafter hgo
    simpa only [Members.print, Members.find, List.append_assoc, List.cons_append] using hmember

theorem Query.meets_members_tail (h : Query gap name first accept) (members : Members)
    {tail : List UInt8} (htail : Closed tail) :
    Meets gap name first (members.find name accept) (members.printTail gap ++ tail) tail := by
  match members with
  | .nil => exact .nothing rfl
  | .cons key value rest =>
    have hafter : Closed (rest.printTail gap ++ tail) := closed_printTail_members rest htail
    have hgo := (h.meets_value value hafter).or (h.meets_members_tail rest htail)
    have hmember := h.meets_member (k := key) hafter hgo
    have hcomma := hmember.append (w := [44]) (by decide)
    simpa only [Members.printTail, Members.find, List.append_assoc, List.cons_append,
      List.nil_append] using hcomma
end

/-- The whole document: the first accepted member is found, or nothing is. -/
theorem Query.search_eq (h : Query gap name first accept) (value : Value) :
    Meets gap name first (value.find name accept) (value.print gap) [] := by
  simpa using h.meets_value value (show Closed [] from trivial)

/-- What is found begins with what was searched for. -/
theorem search_starts {needle p : List UInt8} (h : search needle text = some p) : needle <+: p := by
  induction text with
  | nil =>
    simp only [search, Option.ite_none_right_eq_some, Option.some.injEq] at h
    obtain ⟨rfl, _⟩ := h
    exact List.nil_prefix
  | cons c text ih =>
    rw [search] at h
    split at h
    · next hprefix =>
      cases h
      simpa using hprefix
    · exact ih h

/-- What is found is the end of the text. -/
theorem search_suffix {needle p : List UInt8} (h : search needle text = some p) : p <:+ text := by
  induction text with
  | nil =>
    simp only [search, Option.ite_none_right_eq_some, Option.some.injEq] at h
    obtain ⟨_, rfl⟩ := h
    exact List.suffix_refl _
  | cons c text ih =>
    rw [search] at h
    split at h
    · cases h
      exact List.suffix_refl _
    · exact (ih h).trans (List.suffix_cons c text)

/-- What is found is accepted. -/
theorem Query.accepted (h : Query gap name first accept) {value member : Value}
    (hfind : value.find name accept = some member) : accept member = true := by
  obtain ⟨after, _, hsearch⟩ := (h.search_eq value).1 member hfind
  have hprefix := (announce_prefix_quoted h.name_ok.1 h.name_ok).mp (search_starts hsearch)
  exact (h.accept_iff member after).mp (List.cons_prefix_cons.mp hprefix.2).2

theorem search_nil : search (announce name first) [] = none := by
  simp [search, announce, quoted]

theorem zero_notMem_quoted {s : Text} : 0 ∉ quoted s.bytes := by
  simp [quoted, s.plain.1]

/- No byte of a document is NUL. -/
mutual
theorem Value.zero_notMem (hgap : 0 ∉ gap) (value : Value) : 0 ∉ value.print gap := by
  match value with
  | .null => exact (by decide : 0 ∉ nullWord)
  | .bool b => exact (by cases b <;> decide : 0 ∉ boolWord b)
  | .num n => exact (decimal_plain n).1
  | .str s => exact zero_notMem_quoted
  | .arr items => simp [Value.print, items.zero_notMem hgap]
  | .obj members => simp [Value.print, members.zero_notMem hgap]

theorem Items.zero_notMem (hgap : 0 ∉ gap) (items : Items) : 0 ∉ items.print gap := by
  match items with
  | .nil => exact List.not_mem_nil
  | .cons value rest => simp [Items.print, value.zero_notMem hgap, rest.zero_notMem_tail hgap]

theorem Items.zero_notMem_tail (hgap : 0 ∉ gap) (items : Items) : 0 ∉ items.printTail gap := by
  match items with
  | .nil => exact List.not_mem_nil
  | .cons value rest => simp [Items.printTail, value.zero_notMem hgap, rest.zero_notMem_tail hgap]

theorem Members.zero_notMem (hgap : 0 ∉ gap) (members : Members) : 0 ∉ members.print gap := by
  match members with
  | .nil => exact List.not_mem_nil
  | .cons name value rest =>
    simp [Members.print, zero_notMem_quoted, hgap, value.zero_notMem hgap,
      rest.zero_notMem_tail hgap]

theorem Members.zero_notMem_tail (hgap : 0 ∉ gap) (members : Members) :
    0 ∉ members.printTail gap := by
  match members with
  | .nil => exact List.not_mem_nil
  | .cons name value rest =>
    simp [Members.printTail, zero_notMem_quoted, hgap, value.zero_notMem hgap,
      rest.zero_notMem_tail hgap]
end

end json
