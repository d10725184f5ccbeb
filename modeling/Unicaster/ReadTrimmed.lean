/-
# `read_trimmed` in the caller's buffer (`pod_list.c`)

`readTrimmed` says what is left of a file.  Here is the function as it works: it reads into the
buffer, writes over the blanks at the end, counts those in front and moves the rest.  Every
access is checked, and so is the difference that is the length moved (`none` where it fails).

`readTrimmedInto_refines` connects the two; what is left of a file without NUL is its content
trimmed (`trim_cases`).
-/
import Unicaster.Namespace
import Unicaster.Lib.CBuffer

namespace Unicaster

open CLib

/-! ## 1. The code -/

/-- `while (len && strchr(" \t\r\n", buf[len - 1])) buf[--len] = '\0';` -/
def trimEnd : Nat → Buf → Option (Buf × Nat)
  | 0, buf => some (buf, 0)
  | len + 1, buf => do
    let b ← buf[len]?
    -- `strchr` finds the terminator of its set too
    if b ∈ whitespace ∨ b = 0 then trimEnd len (← writeAt buf len 0)
    else return (buf, len + 1)

/-- A difference of two sizes, which must not wrap. -/
def sizeSub (a b : Nat) : Option Nat := if b ≤ a then some (a - b) else none

/-- `read_trimmed` into `buf`: what it returns, and the buffer behind it. -/
def readTrimmedInto (file : Option (List Byte)) (buf : Buf) : Option (Bool × Buf) :=
  match file with
  | none => some (false, buf)
  | some content => do
    -- `fread`
    let data := content.take buf.length
    let buf ← copyAt buf 0 data
    if data.length = buf.length then return (false, buf)
    else
      let (buf, len) ← trimEnd data.length (← writeAt buf data.length 0)
      let lead := strspn (← strAt buf 0) whitespace
      let buf ← moveAt buf 0 lead ((← sizeSub len lead) + 1)
      return ((← buf[0]?) ≠ 0, buf)

/-! ## 2. What it leaves -/

/-- The loop leaves what `rdropWhile` does, terminated. -/
theorem trimEnd_eq (content rest : List Byte) : ∃ rest',
    trimEnd content.length (content ++ 0 :: rest) =
      some ((content.rdropWhile fun b => b ∈ whitespace ∨ b = 0) ++ 0 :: rest',
        (content.rdropWhile fun b => b ∈ whitespace ∨ b = 0).length) ∧
      ((content.rdropWhile fun b => b ∈ whitespace ∨ b = 0) ++ 0 :: rest').length =
        (content ++ 0 :: rest).length := by
  induction content using List.reverseRecOn generalizing rest with
  | nil => exact ⟨rest, rfl, rfl⟩
  | append_singleton l b ih =>
    have hget : (l ++ [b] ++ 0 :: rest)[l.length]? = some b := by simp
    have hlen : (l ++ [b]).length = l.length + 1 := List.length_append
    rw [hlen, trimEnd, hget]
    by_cases hb : b ∈ whitespace ∨ b = 0
    · obtain ⟨rest', heq, hlen'⟩ := ih (0 :: rest)
      have hwrite : writeAt (l ++ [b] ++ 0 :: rest) l.length 0 = some (l ++ 0 :: 0 :: rest) := by
        rw [List.append_assoc]
        exact writeAt_append rfl
      rw [List.rdropWhile_concat_pos _ _ _ (by simpa using hb)]
      refine ⟨rest', ?_, by rw [hlen']; simp⟩
      simp only [Option.bind_eq_bind, Option.bind_some, if_pos hb, hwrite, heq]
    · rw [List.rdropWhile_concat_neg _ _ _ (by simpa using hb), hlen]
      refine ⟨rest, ?_, rfl⟩
      simp only [Option.bind_eq_bind, Option.bind_some, if_neg hb, Option.pure_def]

/-- The count of the blanks in front is that of a text within the buffer. -/
theorem strspn_cstr_le (s set : Text) : strspn (cstr s) set ≤ s.length := by
  unfold strspn cstr
  exact ((List.takeWhile_sublist _).trans (List.takeWhile_sublist _)).length_le

/-- The text behind the blanks and its terminator, moved to the front. -/
theorem moveAt_text {s : List Byte} (rest : List Byte) {lead : Nat} (h : lead ≤ s.length) : ∃ rest',
    moveAt (s ++ 0 :: rest) 0 lead (s.length - lead + 1) = some (s.drop lead ++ 0 :: rest') ∧
      (s.drop lead ++ 0 :: rest').length = (s ++ 0 :: rest).length := by
  obtain ⟨rest', heq, hlen⟩ := moveAt_front (s.take lead) (s.drop lead ++ [0]) rest
  have hbuf : s.take lead ++ (s.drop lead ++ [0] ++ rest) = s ++ 0 :: rest := by
    rw [List.append_assoc, List.singleton_append, ← List.append_assoc, List.take_append_drop]
  have hn : (s.drop lead ++ [0]).length = s.length - lead + 1 := by
    rw [List.length_append, List.length_drop, List.length_singleton]
  rw [hbuf, hn, List.length_take, Nat.min_eq_left h, List.append_assoc,
    List.singleton_append] at heq
  rw [hbuf, List.append_assoc, List.singleton_append] at hlen
  exact ⟨rest', heq, hlen⟩

/-- Its first byte tells whether there is a text. -/
theorem getElem?_zero_text (s rest : List Byte) :
    ∃ b, (s ++ 0 :: rest)[0]? = some b ∧ (b ≠ 0 ↔ cstr s ≠ []) := by
  cases s with
  | nil => exact ⟨0, rfl, by simp [cstr]⟩
  | cons b s => exact ⟨b, rfl, by simp [cstr]⟩

/-- **`read_trimmed` stays within its buffer, and is `readTrimmed` there.** -/
theorem readTrimmedInto_refines (file : Option (List Byte)) (buf : Buf) : ∃ ret buf',
    readTrimmedInto file buf = some (ret, buf') ∧ buf'.length = buf.length ∧
      match readTrimmed file buf.length with
      | none => ret = false
      | some text => ret = true ∧ ∃ rest, buf' = text ++ 0 :: rest := by
  cases file with
  | none => exact ⟨false, buf, rfl, rfl, rfl⟩
  | some content =>
    unfold readTrimmedInto readTrimmed
    dsimp only
    obtain ⟨data, hdata⟩ : ∃ data, data = content.take buf.length := ⟨_, rfl⟩
    have hle : data.length ≤ buf.length := by
      rw [hdata, List.length_take]
      exact Nat.min_le_left _ _
    rw [← hdata]
    -- `fread` overwrites the front of the buffer
    obtain ⟨old, post, rfl, hold⟩ : ∃ old post, buf = old ++ post ∧ data.length = old.length :=
      ⟨buf.take data.length, buf.drop data.length, (List.take_append_drop _ _).symm, by
        rw [List.length_take, Nat.min_eq_left hle]⟩
    have hcopy : copyAt (old ++ post) 0 data = some (data ++ post) :=
      copyAt_append [] post rfl hold
    have hlen : (data ++ post).length = (old ++ post).length := by
      rw [List.length_append, List.length_append, hold]
    rw [hcopy, Option.bind_eq_bind, Option.bind_some, hlen]
    by_cases hfull : data.length = (old ++ post).length
    · rw [if_pos hfull, if_pos hfull]
      exact ⟨false, data ++ post, rfl, hlen, rfl⟩
    · rw [if_neg hfull, if_neg hfull]
      obtain ⟨b, post, rfl⟩ : ∃ b post', post = b :: post' := by
        refine List.exists_cons_of_ne_nil fun hnil => hfull ?_
        rw [hnil, List.append_nil, hold]
      have hwrite : writeAt (data ++ b :: post) data.length 0 = some (data ++ 0 :: post) :=
        writeAt_append rfl
      obtain ⟨rest, htrim, htrimlen⟩ := trimEnd_eq data post
      generalize hkept : data.rdropWhile (fun b => b ∈ whitespace ∨ b = 0) = kept at htrim htrimlen
      obtain ⟨lead, hlead⟩ : ∃ lead, lead = strspn (cstr kept) whitespace := ⟨_, rfl⟩
      have hle' : lead ≤ kept.length := hlead ▸ strspn_cstr_le _ _
      obtain ⟨rest', hmove, hmovelen⟩ := moveAt_text rest hle'
      obtain ⟨b', hget, hb'⟩ := getElem?_zero_text (kept.drop lead) rest'
      have hsub : sizeSub kept.length lead = some (kept.length - lead) := if_pos hle'
      simp only [hwrite, htrim, strAt_zero, ← hlead, hsub, hmove, hget, Option.bind_eq_bind,
        Option.bind_some, Option.pure_def]
      refine ⟨decide (b' ≠ 0), kept.drop lead ++ 0 :: rest', rfl, ?_, ?_⟩
      · rw [hmovelen, htrimlen, ← hlen]
        simp
      · by_cases htext : cstr (kept.drop lead) ≠ []
        · rw [if_pos htext]
          exact ⟨decide_eq_true (hb'.mpr htext), rest', rfl⟩
        · rw [if_neg htext]
          exact decide_eq_false fun hne => htext (hb'.mp hne)

/-! ## 3. A file without NUL -/

/-- A text has no blank in front and none at its end. -/
structure Trimmed (text : Text) : Prop where
  head : ∀ b, text.head? = some b → b ∉ whitespace
  last : ∀ b, text.getLast? = some b → b ∉ whitespace

section Trim

variable {content : List Byte}

/-- **What `trim` takes away**: blanks in front and at the end, and no others. -/
theorem exists_trim (content : List Byte) : ∃ lead trail, content = lead ++ trim content ++ trail ∧
    (∀ b ∈ lead, b ∈ whitespace) ∧ (∀ b ∈ trail, b ∈ whitespace) ∧ Trimmed (trim content) := by
  obtain ⟨kept, hkept⟩ : ∃ kept, kept = content.rdropWhile (· ∈ whitespace) := ⟨_, rfl⟩
  refine ⟨kept.takeWhile (· ∈ whitespace), content.rtakeWhile (· ∈ whitespace), ?_, ?_, ?_, ?_, ?_⟩
  · rw [trim, ← hkept, List.takeWhile_append_dropWhile, hkept, List.rdropWhile_append_rtakeWhile]
  · exact fun b hb => by simpa using List.mem_takeWhile_imp hb
  · exact fun b hb => by simpa using List.mem_rtakeWhile_imp hb
  · intro b hb
    obtain ⟨rest, hrest⟩ := List.head?_eq_some_iff.mp hb
    simpa using of_dropWhile_eq_cons hrest
  · intro b hb
    -- the last byte of the trimmed text is that of what was kept of the end
    obtain ⟨init, hinit⟩ := List.getLast?_eq_some_iff.mp hb
    have hsuffix : trim content <:+ kept := by
      rw [trim, ← hkept]
      exact List.dropWhile_suffix _
    obtain ⟨front, hfront⟩ := hsuffix
    have hsplit : content.rdropWhile (· ∈ whitespace) = (front ++ init) ++ [b] := by
      rw [← hkept, ← hfront, hinit, List.append_assoc]
    have hne : content.rdropWhile (· ∈ whitespace) ≠ [] := by
      rw [hsplit]
      simp
    have hlast := List.rdropWhile_last_not _ _ hne
    simpa [hsplit] using hlast

/-- Nothing is left of blanks only. -/
theorem trim_ne_nil_iff : trim content ≠ [] ↔ ∃ b ∈ content, b ∉ whitespace := by
  constructor
  · intro hne
    obtain ⟨lead, trail, hsplit, -, -, hhead, -⟩ := exists_trim content
    obtain ⟨b, rest, htrim⟩ := List.exists_cons_of_ne_nil hne
    refine ⟨b, ?_, hhead b (by rw [htrim]; rfl)⟩
    rw [hsplit, htrim]
    simp
  · rintro ⟨b, hb, hno⟩ hnil
    obtain ⟨lead, trail, hsplit, hlead, htrail, -⟩ := exists_trim content
    rw [hsplit, hnil, List.append_nil] at hb
    rcases List.mem_append.mp hb with hb | hb
    · exact hno (hlead b hb)
    · exact hno (htrail b hb)

end Trim

/-- **The whole trimmed file or nothing**, and never a byte outside the buffer. -/
theorem read_trimmed_whole (content : List Byte) (buf : Buf) : ∃ ret buf',
    readTrimmedInto (some content) buf = some (ret, buf') ∧ buf'.length = buf.length ∧
      (0 ∉ content →
        (ret = true ↔ content.length < buf.length ∧ ∃ b ∈ content, b ∉ whitespace) ∧
        (ret = true → ∃ lead text trail, content = lead ++ text ++ trail ∧
          (∀ b ∈ lead, b ∈ whitespace) ∧ (∀ b ∈ trail, b ∈ whitespace) ∧ Trimmed text ∧
          strAt buf' 0 = some text)) := by
  obtain ⟨ret, buf', heq, hlen, hread⟩ := readTrimmedInto_refines (some content) buf
  refine ⟨ret, buf', heq, hlen, fun hnul => ?_⟩
  have htext := readTrimmed_text content buf.length
  rw [fileText_eq_trim hnul] at htext
  rw [← trim_ne_nil_iff]
  cases hfile : readTrimmed (some content) buf.length with
  | none =>
    rw [hfile] at hread htext
    obtain rfl : ret = false := hread
    have hno : ¬ (content.length < buf.length ∧ trim content ≠ []) := by
      intro hyes
      rw [if_pos hyes] at htext
      exact absurd htext (by simp)
    exact ⟨⟨fun hret => absurd hret (by simp), fun hyes => absurd hyes hno⟩,
      fun hret => absurd hret (by simp)⟩
  | some text =>
    rw [hfile] at hread htext
    obtain ⟨rfl, rest, rfl⟩ := hread
    by_cases hyes : content.length < buf.length ∧ trim content ≠ []
    · rw [if_pos hyes, Option.map_some, Option.some.injEq] at htext
      refine ⟨⟨fun _ => hyes, fun _ => rfl⟩, fun _ => ?_⟩
      obtain ⟨lead, trail, hsplit, hlead, htrail, htrim⟩ := exists_trim content
      exact ⟨lead, trim content, trail, hsplit, hlead, htrail, htrim, by rw [strAt_zero, htext]⟩
    · rw [if_neg hyes] at htext
      exact absurd htext (by simp)

/-- A token with its newline, in a buffer of 8 bytes. -/
theorem read_trimmed_token : ∃ buf' lead text trail,
    readTrimmedInto (some (ascii " tok\n")) (List.replicate 8 255) = some (true, buf') ∧
      ascii " tok\n" = lead ++ text ++ trail ∧ strAt buf' 0 = some text := by
  obtain ⟨ret, buf', heq, -, hplain⟩ :=
    read_trimmed_whole (ascii " tok\n") (List.replicate 8 255)
  obtain ⟨hiff, htext⟩ := hplain (by decide)
  have hret : ret = true := hiff.mpr ⟨by decide, 116, by decide, by decide⟩
  obtain ⟨lead, text, trail, hsplit, -, -, -, hstr⟩ := htext hret
  exact ⟨buf', lead, text, trail, by rw [heq, hret], hsplit, hstr⟩

end Unicaster
