/-
# C strings in memory

A buffer is the bytes of one allocation, and a pointer into it is an index.  Reads and writes
are checked: `none` is an access outside the allocation.  `readAt`, `copyAt` and `moveAt` are what
`memcpy` and `memmove` do, `strAt` is the C string at a pointer, and `strtokAt` is `strtok` as it
works, writing into the buffer and keeping its place.

The lemmas bring a buffer to the form `pre ++ piece ++ 0 :: post`, where `piece` is the string
at `pre.length`; `strtokAt_cases` says that successive calls deliver `strtok` piece by piece.
-/
import Unicaster.Lib.CString
import Mathlib.Data.List.Basic

namespace CLib

/-- The bytes of an allocation. -/
abbrev Buf := List Byte

/-- `buf[i] = b`. -/
def writeAt (buf : Buf) (i : Nat) (b : Byte) : Option Buf :=
  if i < buf.length then some (buf.set i b) else none

/-- The `n` bytes at `i`, as `memcpy` and `memmove` read them. -/
def readAt (buf : Buf) (i n : Nat) : Option (List Byte) :=
  if i + n ≤ buf.length then some ((buf.drop i).take n) else none

/-- `bytes` written over what is at `i`. -/
def copyAt (buf : Buf) (i : Nat) (bytes : List Byte) : Option Buf :=
  if i + bytes.length ≤ buf.length then
    some (buf.take i ++ (bytes ++ buf.drop (i + bytes.length)))
  else none

/-- `memmove(buf + dst, buf + src, n)`. -/
def moveAt (buf : Buf) (dst src n : Nat) : Option Buf := do
  copyAt buf dst (← readAt buf src n)

/-- `realloc(data, n)`.  It fails, or the old bytes are kept and `fresh` is what the new ones
happen to be. -/
def realloc (data : Option Buf) (n : Nat) (fresh : Option (Nat → Byte)) : Option Buf :=
  fresh.map fun fresh =>
    let old := (data.getD []).take n
    old ++ (List.range (n - old.length)).map fun i => fresh (old.length + i)

/-- The C string at `i`; `none` where no terminator follows in the buffer. -/
def strAt (buf : Buf) (i : Nat) : Option Text :=
  let s := cstr (buf.drop i)
  if i + s.length < buf.length then some s else none

/-- `strtok` with one delimiter, from the saved place `pos`: the piece found, the buffer with
the delimiter behind it overwritten, and the place saved. -/
def strtokAt (delim : Byte) (buf : Buf) (pos : Nat) : Option (Option Nat × Buf × Nat) := do
  let s ← strAt buf pos
  let skip := (s.takeWhile (· = delim)).length
  let piece := (s.drop skip).takeWhile (· ≠ delim)
  if piece = [] then return (none, buf, pos + skip)
  else if skip + piece.length = s.length then
    return (some (pos + skip), buf, pos + skip + piece.length)
  else
    let buf ← writeAt buf (pos + skip + piece.length) 0
    return (some (pos + skip), buf, pos + skip + piece.length + 1)

section Buffers

variable {pre piece post : List Byte} {delim : Byte}

theorem cstr_append {s t : List Byte} (h : 0 ∉ s) : cstr (s ++ 0 :: t) = s := by
  rw [cstr, List.takeWhile_append_of_pos fun b hb => by
    simpa using fun h0 : b = 0 => h (h0 ▸ hb)]
  simp

/-- Behind a NUL there is nothing to read. -/
theorem cstr_append_nul (s t : List Byte) : cstr (s ++ 0 :: t) = cstr s := by
  induction s with
  | nil => simp [cstr]
  | cons b s ih =>
    unfold cstr at ih ⊢
    rw [List.cons_append, List.takeWhile_cons, List.takeWhile_cons, ih]

/-- The string at the start of a terminated piece is that piece. -/
theorem strAt_piece (pre post : List Byte) (h : 0 ∉ piece) :
    strAt (pre ++ piece ++ 0 :: post) pre.length = some piece := by
  have hdrop : (pre ++ piece ++ 0 :: post).drop pre.length = piece ++ 0 :: post := by
    rw [List.append_assoc, List.drop_left]
  have hlen : pre.length + piece.length < (pre ++ piece ++ 0 :: post).length := by
    simp only [List.length_append, List.length_cons]
    omega
  rw [strAt, hdrop, cstr_append h]
  exact if_pos hlen

/-- The string at the start of a buffer with a terminator in it. -/
theorem strAt_zero (s post : List Byte) : strAt (s ++ 0 :: post) 0 = some (cstr s) := by
  have hlen : 0 + (cstr s).length < (s ++ 0 :: post).length := by
    have hle : (cstr s).length ≤ s.length := (List.takeWhile_sublist _).length_le
    rw [List.length_append, List.length_cons]
    omega
  rw [strAt, List.drop_zero, cstr_append_nul]
  exact if_pos hlen

/-- Writing over the byte behind a prefix. -/
theorem writeAt_append {b c : Byte} {i : Nat} (hi : i = pre.length) :
    writeAt (pre ++ b :: post) i c = some (pre ++ c :: post) := by
  subst hi
  rw [writeAt, if_pos (by simp)]
  simp

/-! ## Copies -/

section Copies

variable {bytes old : List Byte}

theorem readAt_append (pre bytes post : List Byte) {i n : Nat} (hi : i = pre.length)
    (hn : n = bytes.length) : readAt (pre ++ (bytes ++ post)) i n = some bytes := by
  subst hi hn
  have hle : pre.length + bytes.length ≤ (pre ++ (bytes ++ post)).length := by
    simp only [List.length_append]
    omega
  rw [readAt, if_pos hle, List.drop_left, List.take_left]

/-- Writing over the bytes behind a prefix. -/
theorem copyAt_append (pre post : List Byte) {i : Nat} (hi : i = pre.length)
    (hlen : bytes.length = old.length) :
    copyAt (pre ++ (old ++ post)) i bytes = some (pre ++ (bytes ++ post)) := by
  subst hi
  have hle : pre.length + bytes.length ≤ (pre ++ (old ++ post)).length := by
    simp only [List.length_append]
    omega
  rw [copyAt, if_pos hle, List.take_left, ← List.drop_drop, List.drop_left, hlen, List.drop_left]

/-- Within the buffer a copy succeeds and leaves its length. -/
theorem length_copyAt {buf buf' : Buf} {i : Nat} (h : copyAt buf i bytes = some buf') :
    buf'.length = buf.length := by
  unfold copyAt at h
  split at h
  · rw [← Option.some.inj h]
    simp only [List.length_append, List.length_take, List.length_drop]
    omega
  · exact absurd h (by simp)

/-- Bytes moved to the start of their buffer; what is behind them then is left over. -/
theorem moveAt_front (pre bytes post : List Byte) : ∃ tail,
    moveAt (pre ++ (bytes ++ post)) 0 pre.length bytes.length = some (bytes ++ tail) ∧
      (bytes ++ tail).length = (pre ++ (bytes ++ post)).length := by
  have hread : readAt (pre ++ (bytes ++ post)) pre.length bytes.length = some bytes :=
    readAt_append _ _ _ rfl rfl
  have hcopy : copyAt (pre ++ (bytes ++ post)) 0 bytes =
      some (bytes ++ (pre ++ (bytes ++ post)).drop (0 + bytes.length)) := by
    refine if_pos ?_
    simp only [List.length_append]
    omega
  refine ⟨_, ?_, length_copyAt hcopy⟩
  rw [moveAt, hread]
  exact hcopy

/-- **A block that is enlarged keeps its bytes.** -/
theorem realloc_enlarged {data : Option Buf} {n : Nat} (h : (data.getD []).length ≤ n)
    (fresh : Nat → Byte) :
    ∃ tail, realloc data n (some fresh) = some (data.getD [] ++ tail) ∧
      (data.getD [] ++ tail).length = n := by
  refine ⟨(List.range (n - (data.getD []).length)).map fun i => fresh ((data.getD []).length + i),
    ?_, ?_⟩
  · simp only [realloc, Option.map_some, List.take_of_length_le h]
  · simp only [List.length_append, List.length_map, List.length_range]
    omega

end Copies

/-! ## Pieces -/

theorem strtok_nil : strtok delim [] = [] := by
  simp [strtok, List.splitOn_nil]

theorem strtok_delim_cons (s : Text) : strtok delim (delim :: s) = strtok delim s := by
  have hsplit : ([] ++ delim :: s).splitOn delim = [] :: s.splitOn delim :=
    List.splitOn_append_cons_self_of_not_mem List.not_mem_nil s
  rw [List.nil_append] at hsplit
  simp [strtok, hsplit]

/-- Delimiters in front make no piece. -/
theorem strtok_delims_append {ds : Text} (h : ∀ b ∈ ds, b = delim) (s : Text) :
    strtok delim (ds ++ s) = strtok delim s := by
  induction ds with
  | nil => rfl
  | cons d ds ih =>
    have hd : d = delim := h d (by simp)
    rw [hd, List.cons_append, strtok_delim_cons]
    exact ih fun b hb => h b (by simp [hb])

/-- A piece is the bytes up to the next delimiter. -/
theorem strtok_piece_append {p s : Text} (hne : p ≠ []) (h : delim ∉ p) :
    strtok delim (p ++ delim :: s) = p :: strtok delim s := by
  simp only [strtok, List.splitOn_append_cons_self_of_not_mem h]
  simp [hne]

theorem strtok_piece {p : Text} (hne : p ≠ []) (h : delim ∉ p) : strtok delim p = [p] := by
  simp only [strtok, List.splitOn_eq_singleton h]
  simp [hne]

theorem length_splitOn_le (s : Text) : (s.splitOn delim).length ≤ s.length + 1 := by
  induction s with
  | nil => simp [List.splitOn_nil]
  | cons b s ih =>
    rw [List.splitOn_cons_eq_if_modifyHead]
    split
    · simpa using ih
    · rw [List.length_modifyHead, List.length_cons]
      omega

/-- There are no more pieces than bytes, and one. -/
theorem length_strtok_le (s : Text) : (strtok delim s).length ≤ s.length + 1 :=
  (List.length_filter_le _ _).trans (length_splitOn_le s)

/-! ## Successive calls -/

/-- What is left of a list starts with the first element that fails the test. -/
theorem of_dropWhile_eq_cons {p : Byte → Bool} {l t : List Byte} {b : Byte}
    (h : l.dropWhile p = b :: t) : p b = false := by
  have hhead := List.head?_dropWhile_not p l
  rwa [h] at hhead

/-- `rest` is what `strtok` has still to read: the string at the saved place `pos`. -/
def Saved (buf : Buf) (pos : Nat) (rest : Text) : Prop :=
  ∃ pre post, buf = pre ++ rest ++ 0 :: post ∧ pos = pre.length ∧ 0 ∉ rest

/-- A string as `strtok` reads it: the delimiters in front, the piece, and what lies behind. -/
structure Pieces (delim : Byte) (rest ds piece tail : Text) : Prop where
  eq : rest = ds ++ (piece ++ tail)
  front : ds = rest.takeWhile (· = delim)
  piece_eq : piece = (rest.drop ds.length).takeWhile (· ≠ delim)
  delims : ∀ b ∈ ds, b = delim
  no_delim : delim ∉ piece
  tail_eq : tail = [] ∨ ∃ more, tail = delim :: more
  last : piece = [] → tail = []

theorem exists_pieces (delim : Byte) (rest : Text) :
    ∃ ds piece tail, Pieces delim rest ds piece tail := by
  obtain ⟨more, hmore⟩ : ∃ more, more = rest.dropWhile (· = delim) := ⟨_, rfl⟩
  obtain ⟨tail, htail⟩ : ∃ tail, tail = more.dropWhile (· ≠ delim) := ⟨_, rfl⟩
  have hrest : rest = rest.takeWhile (· = delim) ++ more := by
    rw [hmore, List.takeWhile_append_dropWhile]
  have hsplit : more = more.takeWhile (· ≠ delim) ++ tail := by
    rw [htail, List.takeWhile_append_dropWhile]
  have hdrop : ∀ ds, rest = ds ++ more → rest.drop ds.length = more := by
    intro ds hds
    rw [hds, List.drop_left]
  refine ⟨rest.takeWhile (· = delim), more.takeWhile (· ≠ delim), tail, ?_, rfl,
    by rw [hdrop _ hrest], fun b hb => ?_, fun hb => ?_, ?_, fun hnil => ?_⟩
  · rw [← hsplit]
    exact hrest
  · simpa using List.mem_takeWhile_imp hb
  · simpa using List.mem_takeWhile_imp hb
  · cases tail with
    | nil => exact Or.inl rfl
    | cons d tail =>
      have hd : d = delim := by simpa using of_dropWhile_eq_cons htail.symm
      exact Or.inr ⟨tail, by rw [hd]⟩
  · cases more with
    | nil => exact htail
    | cons b more =>
      have hb : ¬ b = delim := by simpa using of_dropWhile_eq_cons hmore.symm
      rw [List.takeWhile_cons, if_pos (by simpa using hb)] at hnil
      exact absurd hnil (by simp)

/-- What one call reads and writes. -/
theorem strtokAt_eq {delim : Byte} {rest ds piece tail : Text} (pre post : List Byte)
    (hnul : 0 ∉ rest) (h : Pieces delim rest ds piece tail) :
    strtokAt delim (pre ++ rest ++ 0 :: post) pre.length =
      if piece = [] then some (none, pre ++ rest ++ 0 :: post, (pre ++ ds).length)
      else if ds.length + piece.length = rest.length then
        some (some (pre ++ ds).length, pre ++ rest ++ 0 :: post,
          (pre ++ ds).length + piece.length)
      else (writeAt (pre ++ rest ++ 0 :: post) ((pre ++ ds).length + piece.length) 0).bind
        fun buf => some (some (pre ++ ds).length, buf, (pre ++ ds).length + piece.length + 1) := by
  simp only [strtokAt, strAt_piece pre post hnul, Option.bind_eq_bind, Option.bind_some, ← h.front,
    ← h.piece_eq, Option.pure_def, List.length_append]

/-- **One call delivers the first of the pieces that are left**, terminated in place.  Its
bytes are the caller's: whatever is written over them, the pieces behind it stay. -/
theorem strtokAt_cases {buf : Buf} {pos : Nat} {rest : Text} (delim : Byte)
    (h : Saved buf pos rest) :
    (strtok delim rest = [] ∧ ∃ pos', strtokAt delim buf pos = some (none, buf, pos')) ∨
    ∃ pre piece post pos' rest',
      piece ≠ [] ∧ 0 ∉ piece ∧ strtok delim rest = piece :: strtok delim rest' ∧
      strtokAt delim buf pos = some (some pre.length, pre ++ piece ++ 0 :: post, pos') ∧
      ∀ bytes : List Byte, bytes.length = piece.length →
        Saved (pre ++ bytes ++ 0 :: post) pos' rest' := by
  obtain ⟨pre, post, rfl, rfl, hnul⟩ := h
  obtain ⟨ds, piece, tail, hp⟩ := exists_pieces delim rest
  have hrest := hp.eq
  rw [strtokAt_eq pre post hnul hp]
  by_cases hne : piece = []
  · left
    refine ⟨?_, _, if_pos hne⟩
    rw [hrest, hne, hp.last hne, List.append_nil, strtok_delims_append hp.delims, strtok_nil]
  · right
    have hnulp : 0 ∉ piece := fun hb => hnul (by rw [hrest]; simp [hb])
    rw [if_neg hne]
    rcases hp.tail_eq with rfl | ⟨tail, rfl⟩
    · -- the piece is the last one
      have hlen : ds.length + piece.length = rest.length := by
        rw [hrest, List.append_nil, List.length_append]
      refine ⟨pre ++ ds, piece, post, (pre ++ ds).length + piece.length, [], hne, hnulp, ?_, ?_, ?_⟩
      · rw [hrest, List.append_nil, strtok_delims_append hp.delims, strtok_piece hne hp.no_delim,
          strtok_nil]
      · rw [if_pos hlen, hrest]
        simp only [List.append_assoc, List.nil_append]
      · intro bytes hb
        exact ⟨pre ++ ds ++ bytes, post, by simp, by simp [hb, Nat.add_assoc], by simp⟩
    · -- a NUL is written over the delimiter behind it
      have hlen : ds.length + piece.length ≠ rest.length := by
        rw [hrest]
        simp only [List.length_append, List.length_cons]
        omega
      have hbuf : pre ++ rest ++ 0 :: post =
          (pre ++ ds ++ piece) ++ delim :: (tail ++ 0 :: post) := by
        rw [hrest]
        simp
      refine ⟨pre ++ ds, piece, tail ++ 0 :: post, (pre ++ ds).length + piece.length + 1, tail, hne,
        hnulp, ?_, ?_, ?_⟩
      · rw [hrest, strtok_delims_append hp.delims, strtok_piece_append hne hp.no_delim]
      · rw [if_neg hlen, hbuf, writeAt_append List.length_append.symm]
        rfl
      · intro bytes hb
        refine ⟨pre ++ ds ++ bytes ++ [0], post, by simp, ?_, fun h0 => hnul ?_⟩
        · simp only [List.length_append, List.length_singleton, hb]
        · rw [hrest]
          simp [h0]

end Buffers

end CLib
