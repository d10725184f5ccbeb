/-
# C strings and the part of the C library that reads and prints them

A text is a list of bytes.  A C string is a text without NUL (`CString`); what a C function
sees of a buffer is the text before its first NUL (`cstr`).  The functions below follow the
C standard and POSIX: `strtol`, `snprintf` (as the cut it makes), `strtok` with one
delimiter, `strncmp` as a prefix test, `strcasecmp`, `inet_pton` and `inet_ntop`.

The lemmas are about what survives printing: a bounded print is the whole text or a proper
prefix of it, a printed number holds only digits and reads back as itself, and a record
whose fields do not hold the separator splits back into its fields.
-/
import Mathlib.Data.List.Basic
import Mathlib.Data.List.TakeWhile
import Mathlib.Tactic.Positivity

namespace CLib

/-! ## 1. Texts -/

abbrev Byte := UInt8

/-- Bytes without the terminator. -/
abbrev Text := List Byte

/-- The bytes of an ASCII literal. -/
def ascii (s : String) : Text := s.toList.map Char.toUInt8

/-- A C string: the bytes before the terminator, none of them NUL. -/
structure CString where
  bytes : Text
  noNul : 0 ∉ bytes

/-- What a C function sees of a buffer. -/
def cstr (buf : List Byte) : Text := buf.takeWhile (· ≠ 0)

/-- `snprintf` into `size` bytes: the text, cut so that its terminator fits. -/
def snprintf (size : Nat) (text : Text) : Text := text.take (size - 1)

/-- `strtok` with one delimiter: the maximal runs of other bytes, in order. -/
def strtok (delim : Byte) (s : Text) : List Text := (s.splitOn delim).filter (· ≠ [])

/-- `strspn`: the bytes of `s` in front that are all in `set`. -/
def strspn (s set : Text) : Nat := (s.takeWhile (· ∈ set)).length

/-- `tolower` on ASCII. -/
def toLower (c : Byte) : Byte := if 65 ≤ c ∧ c ≤ 90 then c + 32 else c

/-- `!strcasecmp(a, b)`. -/
def strcaseeq (a b : Text) : Bool := a.map toLower = b.map toLower

/-- A cut print is short, and it is the text itself when it fits. -/
theorem snprintf_eq {size : Nat} {text : Text} (h : text.length < size) :
    snprintf size text = text :=
  List.take_of_length_le (by omega)

/-- **A bounded print shows the whole text exactly when it fits**, so a text that does not
fit is never printed as itself. -/
theorem snprintf_eq_iff {size : Nat} {text : Text} (hs : 0 < size) :
    snprintf size text = text ↔ text.length < size := by
  constructor
  · intro h
    have hlen : (snprintf size text).length = text.length := by rw [h]
    simp only [snprintf, List.length_take] at hlen
    omega
  · exact snprintf_eq

/-- `value` is `word`, each letter of it small or capital; `word` has small letters. -/
def Spells (word value : Text) : Prop :=
  List.Forall₂ (fun w b => b = w ∨ (65 ≤ b ∧ b ≤ 90) ∧ b + 32 = w) word value

/-- **`strcasecmp` against a word in small letters** accepts the spellings of that word. -/
theorem strcaseeq_iff {word value : Text} (hw : ∀ w ∈ word, ¬ (65 ≤ w ∧ w ≤ 90)) :
    strcaseeq value word = true ↔ Spells word value := by
  have hlow : ∀ w ∈ word, toLower w = w := fun w hm => if_neg (hw w hm)
  rw [strcaseeq, decide_eq_true_eq, List.map_congr_left hlow, List.map_id']
  clear hlow
  induction word generalizing value with
  | nil =>
    rw [List.map_eq_nil_iff, Spells, List.forall₂_nil_left_iff]
  | cons w word ih =>
    cases value with
    | nil => simp [Spells]
    | cons b value =>
      have hrest : value.map toLower = word ↔ Spells word value :=
        ih fun x hx => hw x (List.mem_cons_of_mem w hx)
      have hb : toLower b = w ↔ b = w ∨ (65 ≤ b ∧ b ≤ 90) ∧ b + 32 = w := by
        unfold toLower
        split
        · rename_i hcap
          -- a capital is not itself a letter of the word
          have hne : b ≠ w := fun h => hw w List.mem_cons_self (h ▸ hcap)
          simp only [hne, hcap, and_self, true_and, false_or]
        · rename_i hsmall
          simp only [hsmall, false_and, or_false]
      rw [List.map_cons, List.cons.injEq, hb, hrest]
      simp only [Spells, List.forall₂_cons]

theorem cstr_eq_self {s : List Byte} (h : 0 ∉ s) : cstr s = s :=
  List.takeWhile_eq_self_iff.mpr fun b hb => by
    simpa using fun h0 : b = 0 => h (h0 ▸ hb)

/-! ## 2. Decimal numbers -/

/-- A decimal digit. -/
def isDigit (c : Byte) : Bool := 48 ≤ c ∧ c ≤ 57

/-- `isspace` in the C locale. -/
def isSpace (c : Byte) : Bool := c = 32 ∨ 9 ≤ c ∧ c ≤ 13

/-- The value of a run of digits. -/
def digitsValue (ds : Text) : Nat := ds.foldl (fun v c => 10 * v + (c.toNat - 48)) 0

/-- The digits of a natural number, most significant first. -/
def natDigits (n : Nat) : Text := (Nat.toDigits 10 n).map Char.toUInt8

/-- `%d` and `%ld`. -/
def decimal (v : Int) : Text :=
  if v < 0 then 45 :: natDigits v.natAbs else natDigits v.natAbs

/-- What `strtol` returns: the value, where it stopped, and whether it set `ERANGE`. -/
structure Strtol where
  value : Int
  rest : Text
  erange : Bool

/-- The sign in front of a number: whether it is a minus, and the text behind it. -/
def readSign : Text → Bool × Text
  | 45 :: t => (true, t)
  | 43 :: t => (false, t)
  | t => (false, t)

/-- `strtol(s, &end, 10)` where `long` has `bits` bits. -/
def strtol (bits : Nat) (s : Text) : Strtol :=
  let (neg, t) := readSign (s.dropWhile isSpace)
  let ds := t.takeWhile isDigit
  let rest := t.dropWhile isDigit
  let v : Int := if neg then -(digitsValue ds : Int) else digitsValue ds
  if ds = [] then ⟨0, s, false⟩
  else if v < -2 ^ (bits - 1) then ⟨-2 ^ (bits - 1), rest, true⟩
  else if 2 ^ (bits - 1) - 1 < v then ⟨2 ^ (bits - 1) - 1, rest, true⟩
  else ⟨v, rest, false⟩

theorem toNat_toUInt8_of_isDigit {c : Char} (hc : c.isDigit = true) :
    c.toUInt8.toNat = c.toNat := by
  have h57 : c.toNat ≤ 57 := (Char.isDigit_iff_toNat.mp hc).2
  simp only [Char.toUInt8, UInt32.toNat_toUInt8]
  exact Nat.mod_eq_of_lt (lt_of_le_of_lt h57 (by decide))

/-- Every byte of a printed number is a digit. -/
theorem isDigit_of_mem_natDigits {n : Nat} {b : Byte} (hb : b ∈ natDigits n) :
    isDigit b = true := by
  obtain ⟨c, hc, rfl⟩ := List.mem_map.mp hb
  have hd : c.isDigit = true := Nat.isDigit_of_mem_toDigits (by decide) (by decide) hc
  simp only [isDigit, decide_eq_true_eq, UInt8.le_iff_toNat_le, toNat_toUInt8_of_isDigit hd]
  exact Char.isDigit_iff_toNat.mp hd

theorem natDigits_ne_nil (n : Nat) : natDigits n ≠ [] := by
  simp [natDigits, Nat.toDigits_ne_nil]

/-- **Printing a number and reading it back gives the number.** -/
theorem digitsValue_natDigits (n : Nat) : digitsValue (natDigits n) = n := by
  have hfold : ∀ (l : List Char) (v : Nat), (∀ c ∈ l, c.isDigit = true) →
      (l.map Char.toUInt8).foldl (fun v c => 10 * v + (c.toNat - 48)) v
        = Nat.ofDigitChars 10 l v := by
    intro l
    induction l with
    | nil => intro v _; simp
    | cons c l ih =>
      intro v hl
      have hc : c.toUInt8.toNat = c.toNat :=
        toNat_toUInt8_of_isDigit (hl c List.mem_cons_self)
      rw [List.map_cons, List.foldl_cons, Nat.ofDigitChars_cons, hc]
      exact ih _ fun d hd => hl d (List.mem_cons_of_mem _ hd)
  have hdig : ∀ c ∈ Nat.toDigits 10 n, c.isDigit = true := fun c hc =>
    Nat.isDigit_of_mem_toDigits (by decide) (by decide) hc
  rw [digitsValue, natDigits, hfold _ _ hdig, Nat.ofDigitChars_ten_toDigits]

theorem natDigits_injective {m n : Nat} (h : natDigits m = natDigits n) : m = n := by
  rw [← digitsValue_natDigits m, h, digitsValue_natDigits]

/-- The last digit stands behind those of the tenth. -/
theorem natDigits_of_ten_le {n : Nat} (h : 10 ≤ n) :
    ∃ b, natDigits n = natDigits (n / 10) ++ [b] := by
  rw [natDigits, Nat.toDigits_of_base_le (by decide) h, List.map_append]
  exact ⟨_, rfl⟩

theorem natDigits_of_lt_ten {n : Nat} (h : n < 10) : ∃ b, natDigits n = [b] := by
  rw [natDigits, Nat.toDigits_of_lt_base h]
  exact ⟨_, rfl⟩

/-- **Which numbers a number begins**: itself, and those whose tenth it begins. -/
theorem natDigits_prefix_iff {q n : Nat} :
    natDigits q <+: natDigits n ↔ q = n ∨ 10 ≤ n ∧ natDigits q <+: natDigits (n / 10) := by
  by_cases hn : 10 ≤ n
  · obtain ⟨b, hb⟩ := natDigits_of_ten_le hn
    rw [hb, List.prefix_concat_iff, ← hb]
    refine or_congr ⟨natDigits_injective, fun h => h ▸ rfl⟩ ?_
    exact ⟨fun h => ⟨hn, h⟩, fun h => h.2⟩
  · obtain ⟨b, hb⟩ := natDigits_of_lt_ten (Nat.lt_of_not_le hn)
    constructor
    · intro h
      refine Or.inl (natDigits_injective ?_)
      refine h.eq_of_length_le ?_
      rw [hb]
      exact List.length_pos_iff.mpr (natDigits_ne_nil q)
    · rintro (rfl | ⟨h, -⟩)
      · exact List.prefix_rfl
      · exact absurd h hn

/-- A byte that is neither a digit nor a minus is not in a printed number. -/
theorem not_mem_decimal {v : Int} {b : Byte} (hd : isDigit b = false) (hm : b ≠ 45) :
    b ∉ decimal v := by
  intro hb
  have hnat : b ∉ natDigits v.natAbs := fun h => by
    rw [isDigit_of_mem_natDigits h] at hd
    exact absurd hd (by decide)
  unfold decimal at hb
  split at hb
  · rcases List.mem_cons.mp hb with h | h
    · exact hm h
    · exact hnat h
  · exact hnat hb

/-! ### Numerals -/

/-- The sign in front of the digits of a numeral. -/
inductive Sign
  | none | plus | minus
  deriving DecidableEq

def Sign.text : Sign → Text
  | .none => []
  | .plus => [43]
  | .minus => [45]

def Sign.apply : Sign → Nat → Int
  | .minus, n => -(n : Int)
  | _, n => n

/-- `s` is white space, an optional sign, one or more digits and nothing else, and the
number it denotes is `v`. -/
def Denotes (s : Text) (v : Int) : Prop :=
  ∃ (space : Text) (sign : Sign) (digits : Text),
    s = space ++ (sign.text ++ digits)
      ∧ (∀ c ∈ space, isSpace c = true)
      ∧ digits ≠ [] ∧ (∀ c ∈ digits, isDigit c = true)
      ∧ v = sign.apply (digitsValue digits)

theorem digit_bounds {c : Byte} (hc : isDigit c = true) : 48 ≤ c.toNat ∧ c.toNat ≤ 57 := by
  simpa [isDigit, UInt8.le_iff_toNat_le] using hc

theorem not_isSpace_of_isDigit {c : Byte} (hc : isDigit c = true) : isSpace c = false := by
  have hb := digit_bounds hc
  simp only [isSpace, decide_eq_false_iff_not, not_or, not_and, UInt8.le_iff_toNat_le]
  refine ⟨fun h => ?_, fun _ => ?_⟩
  · rw [h] at hb
    exact absurd hb.1 (by decide)
  · simp only [UInt8.reduceToNat]
    omega

/-- The white space in front of a numeral ends where its sign or its digits start. -/
theorem dropWhile_isSpace_numeral {space digits : Text} (sign : Sign)
    (hs : ∀ c ∈ space, isSpace c = true) (hd : ∀ c ∈ digits, isDigit c = true) :
    (space ++ (sign.text ++ digits)).dropWhile isSpace = sign.text ++ digits := by
  rw [List.dropWhile_append_of_pos hs]
  cases sign with
  | none =>
    cases digits with
    | nil => rfl
    | cons c digits =>
      rw [Sign.text, List.nil_append,
        List.dropWhile_cons_of_neg (by simp [not_isSpace_of_isDigit (hd c (by simp))])]
  | plus => exact List.dropWhile_cons_of_neg (by decide)
  | minus => exact List.dropWhile_cons_of_neg (by decide)

theorem readSign_numeral {digits : Text} (sign : Sign)
    (hd : ∀ c ∈ digits, isDigit c = true) :
    readSign (sign.text ++ digits) = (decide (sign = .minus), digits) := by
  cases sign with
  | plus => rfl
  | minus => rfl
  | none =>
    rw [Sign.text, List.nil_append]
    unfold readSign
    split
    · exact absurd (hd 45 (by simp)) (by decide)
    · exact absurd (hd 43 (by simp)) (by decide)
    · rfl

/-- `strtol` on a numeral: the number it denotes when a `long` holds it, the nearest `long`
and `ERANGE` when it does not, and the whole text read either way. -/
theorem strtol_of_denotes {s : Text} {v : Int} (bits : Nat) (h : Denotes s v) :
    strtol bits s =
      if v < -2 ^ (bits - 1) then ⟨-2 ^ (bits - 1), [], true⟩
      else if 2 ^ (bits - 1) - 1 < v then ⟨2 ^ (bits - 1) - 1, [], true⟩
      else ⟨v, [], false⟩ := by
  obtain ⟨space, sign, digits, rfl, hs, hne, hd, rfl⟩ := h
  have htake : digits.takeWhile isDigit = digits := List.takeWhile_eq_self_iff.mpr hd
  have hdrop : digits.dropWhile isDigit = [] := List.dropWhile_eq_nil_iff.mpr hd
  have hval : (if decide (sign = .minus) = true then -(digitsValue digits : Int)
      else (digitsValue digits : Int)) = sign.apply (digitsValue digits) := by
    cases sign <;> rfl
  simp only [strtol, dropWhile_isSpace_numeral sign hs hd, readSign_numeral sign hd, htake,
    hdrop, hval, if_neg hne]

theorem readSign_eq (t : Text) :
    ∃ sign : Sign, t = sign.text ++ (readSign t).2 ∧ (readSign t).1 = decide (sign = .minus) := by
  unfold readSign
  split
  · exact ⟨.minus, rfl, rfl⟩
  · exact ⟨.plus, rfl, rfl⟩
  · exact ⟨.none, rfl, rfl⟩

/-- **What `strtol` reads to the end, and not as nothing at all, is a numeral.** -/
theorem denotes_of_strtol {bits : Nat} {s : Text} (hrest : (strtol bits s).rest = [])
    (hread : (strtol bits s).rest.length ≠ s.length) : ∃ v, Denotes s v := by
  obtain ⟨sign, ht, hneg⟩ := readSign_eq (s.dropWhile isSpace)
  obtain ⟨t, htdef⟩ : ∃ t, t = (readSign (s.dropWhile isSpace)).2 := ⟨_, rfl⟩
  have hne : t.takeWhile isDigit ≠ [] := fun h0 => by
    refine hread ?_
    simp only [strtol, ← htdef, h0, if_pos]
  have hstop : (strtol bits s).rest = t.dropWhile isDigit := by
    simp only [strtol, ← htdef, if_neg hne, apply_ite Strtol.rest, ite_self]
  have hall : ∀ c ∈ t, isDigit c = true := List.dropWhile_eq_nil_iff.mp (hstop ▸ hrest)
  refine ⟨sign.apply (digitsValue t), s.takeWhile isSpace, sign, t, ?_, ?_, ?_, hall, rfl⟩
  · rw [htdef, ← ht, List.takeWhile_append_dropWhile]
  · exact fun c hc => List.mem_takeWhile_imp hc
  · rintro rfl
    exact hne rfl

/-! ## 3. Records with a separator -/

/-- **A record reads back as its fields.**  Fields that do not hold the separator, printed
with it in between, split into exactly themselves. -/
theorem splitOn_fields {sep : Byte} {f : Text} {fs : List Text} (h : ∀ g ∈ f :: fs, sep ∉ g) :
    (List.intercalate [sep] (f :: fs)).splitOn sep = f :: fs :=
  List.splitOn_intercalate sep h (by simp)

/-- What splits into the fields of a record is that record. -/
theorem eq_of_splitOn_eq {sep : Byte} {s : Text} {fs : List Text} (h : s.splitOn sep = fs) :
    s = List.intercalate [sep] fs := by
  rw [← h, List.intercalate_splitOn]

/-- A field in front of a separator begins a record exactly when it is the first field of it. -/
theorem field_prefix_iff {sep : Byte} {x y s t : Text} (hx : sep ∉ x) (hy : sep ∉ y) :
    x ++ sep :: s <+: y ++ sep :: t ↔ x = y ∧ s <+: t := by
  constructor
  · rintro ⟨u, hu⟩
    have hsplit := congrArg (fun l : Text => l.takeWhile (· ≠ sep)) hu
    have htake : ∀ {z r : Text}, sep ∉ z → (z ++ sep :: r).takeWhile (· ≠ sep) = z := by
      intro z r hz
      rw [List.takeWhile_append_of_pos fun b hb => by
        simpa using fun h0 : b = sep => hz (h0 ▸ hb)]
      simp
    simp only [List.append_assoc, List.cons_append] at hu hsplit
    rw [htake hx, htake hy] at hsplit
    subst hsplit
    simp only [List.append_cancel_left_eq, List.cons.injEq, true_and] at hu
    exact ⟨rfl, u, hu⟩
  · rintro ⟨rfl, h⟩
    exact (List.prefix_append_right_inj x).mpr (List.cons_prefix_cons.mpr ⟨rfl, h⟩)

/-- A text without separators begins a record exactly when it begins its first field. -/
theorem prefix_field_iff {sep : Byte} {x y t : Text} (hx : sep ∉ x) :
    x <+: y ++ sep :: t ↔ x <+: y := by
  constructor
  · intro h
    rcases List.prefix_or_prefix_of_prefix h (List.prefix_append y (sep :: t)) with h1 | ⟨u, hu⟩
    · exact h1
    · cases u with
      | nil => rw [List.append_nil] at hu; exact hu ▸ List.prefix_rfl
      | cons b u =>
        rw [← hu, List.prefix_append_right_inj, List.cons_prefix_cons] at h
        rw [← hu, h.1] at hx
        exact absurd (by simp) hx
  · exact fun h => h.trans (List.prefix_append _ _)

/-! ## 4. IPv4 addresses -/

/-- `struct in_addr`. -/
structure InAddr where
  b1 : Byte
  b2 : Byte
  b3 : Byte
  b4 : Byte
  deriving DecidableEq, Repr

/-- `inet_ntop(AF_INET, ..)`: the canonical dotted quad. -/
def inetNtop (a : InAddr) : Text :=
  List.intercalate [46]
    [natDigits a.b1.toNat, natDigits a.b2.toNat, natDigits a.b3.toNat, natDigits a.b4.toNat]

theorem dot_notMem_natDigits (n : Nat) : (46 : Byte) ∉ natDigits n := fun h => by
  have := isDigit_of_mem_natDigits h
  exact absurd this (by decide)

/-- One octet of a dotted quad: one to three digits, no leading zero, at most 255. -/
def readOctet (t : Text) : Option Byte :=
  if t ≠ [] ∧ t.length ≤ 3 ∧ t.all isDigit ∧ (t.head? = some 48 → t.length = 1)
      ∧ digitsValue t ≤ 255 then
    some (digitsValue t).toUInt8
  else none

/-- `inet_pton(AF_INET, ..)`: four octets and nothing else. -/
def inetPton (s : Text) : Option InAddr :=
  match s.splitOn 46 with
  | [p1, p2, p3, p4] => do
    return ⟨← readOctet p1, ← readOctet p2, ← readOctet p3, ← readOctet p4⟩
  | _ => none

/-- A dotted quad holds digits and dots. -/
theorem mem_inetNtop {a : InAddr} {b : Byte} (hb : b ∈ inetNtop a) :
    isDigit b = true ∨ b = 46 := by
  simp only [inetNtop, List.intercalate, List.intersperse, List.flatten_cons, List.mem_append,
    List.mem_singleton, List.flatten_nil, List.append_nil] at hb
  rcases hb with h | h | h | h | h | h | h
  all_goals first
    | exact Or.inl (isDigit_of_mem_natDigits h)
    | exact Or.inr h

/-- A byte that is neither a digit nor a dot is not in a dotted quad. -/
theorem not_mem_inetNtop {a : InAddr} {b : Byte} (hd : isDigit b = false) (hm : b ≠ 46) :
    b ∉ inetNtop a := fun hb => by
  rcases mem_inetNtop hb with h | h
  · rw [h] at hd; exact absurd hd (by decide)
  · exact hm h

/-- An octet, printed, reads back as itself. -/
theorem readOctet_natDigits (b : Byte) : readOctet (natDigits b.toNat) = some b := by
  have hall : ∀ n : Fin 256, readOctet (natDigits n) = some (n : Nat).toUInt8 := by
    decide +kernel
  have hb := hall ⟨b.toNat, b.toNat_lt⟩
  rw [hb]
  exact congrArg some UInt8.ofNat_toNat

/-- **`inet_pton` accepts the canonical dotted quad of every address.** -/
theorem inetPton_inetNtop (a : InAddr) : inetPton (inetNtop a) = some a := by
  have hsplit : (inetNtop a).splitOn 46 =
      [natDigits a.b1.toNat, natDigits a.b2.toNat, natDigits a.b3.toNat, natDigits a.b4.toNat] :=
    splitOn_fields fun g hg => by
      simp only [List.mem_cons, List.not_mem_nil, or_false] at hg
      rcases hg with rfl | rfl | rfl | rfl <;> exact dot_notMem_natDigits _
  simp only [inetPton, hsplit, readOctet_natDigits, Option.pure_def, Option.bind_eq_bind,
    Option.bind_some]

/-- Distinct addresses print differently. -/
theorem inetNtop_injective : Function.Injective inetNtop := fun a b h => by
  have hab := congrArg inetPton h
  simpa only [inetPton_inetNtop, Option.some.injEq] using hab

theorem natDigits_length_le (b : Byte) : (natDigits b.toNat).length ≤ 3 := by
  have hb : b.toNat < 256 := b.toNat_lt
  have h := Nat.length_toDigits_le_iff (b := 10) (n := b.toNat) (k := 3) (by decide) (by decide)
  simpa [natDigits] using h.mpr (by omega)

theorem inetNtop_length_le (a : InAddr) : (inetNtop a).length ≤ 15 := by
  have h1 := natDigits_length_le a.b1
  have h2 := natDigits_length_le a.b2
  have h3 := natDigits_length_le a.b3
  have h4 := natDigits_length_le a.b4
  simp only [inetNtop, List.intercalate, List.intersperse, List.flatten_cons, List.length_append,
    List.length_singleton, List.flatten_nil, List.append_nil]
  omega

/-! ## 5. `strcmp` -/

/-- `strcmp`: the difference of the first bytes that differ, the terminator being 0. -/
def strcmp : Text → Text → Int
  | [], [] => 0
  | [], b :: _ => -(b.toNat : Int)
  | a :: _, [] => a.toNat
  | a :: s, b :: t => if a = b then strcmp s t else (a.toNat : Int) - b.toNat

/-- On C strings `strcmp` is the lexicographic order of the bytes. -/
theorem strcmp_neg_iff : ∀ {s t : Text}, 0 ∉ s → 0 ∉ t → (strcmp s t < 0 ↔ s < t)
  | [], [], _, _ => by simp [strcmp]
  | [], b :: t, _, ht => by
    have hb : b.toNat ≠ 0 := fun h => by
      have hb0 : b = 0 := UInt8.toNat_inj.mp h
      exact ht (by simp [hb0])
    simp only [strcmp, List.nil_lt_cons, iff_true]
    omega
  | a :: s, [], _, _ => by
    simp only [strcmp, List.not_lt_nil, iff_false]
    omega
  | a :: s, b :: t, hs, ht => by
    have ih := strcmp_neg_iff (s := s) (t := t) (fun h => hs (by simp [h]))
      (fun h => ht (by simp [h]))
    rw [strcmp, List.cons_lt_cons_iff]
    by_cases hab : a = b
    · rw [if_pos hab, ih]
      simp [hab]
    · rw [if_neg hab]
      simp only [hab, false_and, or_false, UInt8.lt_iff_toNat_lt]
      omega

end CLib
