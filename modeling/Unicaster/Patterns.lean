/-
# The interface patterns

`init_ip_patterns` cuts a copy of `SELECTED_INTERFACES` into pieces in place: `strtok` writes a
terminator behind each piece, and the blanks around it are stepped over from both ends.
`initIpPatternsAt` follows the pointers, `none` being an access outside the copy, and
`initIpPatternsAt_eq` says that there is none and that what is stored is what `initIpPatterns`
says.

What a pattern selects is text: the addresses whose dotted quad it begins.  The last section
says which addresses these are in octets.
-/
import Unicaster.Announce
import Unicaster.Lib.CBuffer

namespace Unicaster

open CLib

/-! ## 1. The loop on the copy -/

/-- `while (*pattern == ' ') pattern++`, over the bytes from `pattern` on. -/
def skipBlanksIn : List Byte → Nat → Option Nat
  | [], _ => none
  | b :: bytes, pattern => if b = 32 then skipBlanksIn bytes (pattern + 1) else some pattern

def skipBlanks (buf : Buf) (pattern : Nat) : Option Nat :=
  skipBlanksIn (buf.drop pattern) pattern

/-- `while (end > pattern && *end == ' ') end--`. -/
def backBlanks (buf : Buf) (pattern : Nat) : Nat → Option Nat
  | 0 => some 0
  | last + 1 =>
    if pattern < last + 1 then
      match buf[last + 1]? with
      | none => none
      | some b => if b = 32 then backBlanks buf pattern last else some (last + 1)
    else some (last + 1)

/-- The blanks around the string at `pattern` removed: where it starts now, and the buffer. -/
def trimAt (buf : Buf) (pattern : Nat) : Option (Nat × Buf) := do
  let pattern ← skipBlanks buf pattern
  let s ← strAt buf pattern
  -- the pointer `pattern + strlen(pattern) - 1` must not lie in front of the copy
  if pattern + s.length = 0 then none
  else
    let last ← backBlanks buf pattern (pattern + s.length - 1)
    let buf ← writeAt buf (last + 1) 0
    return (pattern, buf)

/-- The loop of `init_ip_patterns`, at most `fuel` rounds of it. -/
def patternLoopAt (dupOk : Nat → Bool) :
    Nat → Buf → Option Nat → Nat → List (Option Text) → Option (List (Option Text))
  | 0, _, _, _, _ => none
  | _ + 1, _, none, _, patterns => some patterns
  | fuel + 1, buf, some pattern, pos, patterns =>
    if patterns.length < maxIpPatterns then do
      let (pattern, buf) ← trimAt buf pattern
      let text ← strAt buf pattern
      let patterns :=
        if text.length > 0 then
          patterns ++ [if dupOk patterns.length then some text else none]
        else patterns
      let (next, buf, pos) ← strtokAt 44 buf pos
      patternLoopAt dupOk fuel buf next pos patterns
    else some patterns

/-- `init_ip_patterns`, byte by byte; `none` where it would leave the copy. -/
def initIpPatternsAt (e : Environ) (copyOk : Bool) (dupOk : Nat → Bool)
    (patterns : List (Option Text)) : Option (List (Option Text)) :=
  match e.selectedInterfaces with
  | none => some patterns
  | some env =>
    if copyOk then do
      let (pattern, buf, pos) ← strtokAt 44 (env.bytes ++ [0]) 0
      patternLoopAt dupOk (env.bytes.length + 2) buf pattern pos patterns
    else none

/-! ## 2. It stays inside the copy -/

section InPlace

variable {pre post : List Byte}

/-- Blanks are stepped over up to the first byte that is none, the terminator at the latest. -/
theorem skipBlanksIn_append {blanks bytes : List Byte} {b : Byte} (h : ∀ x ∈ blanks, x = 32)
    (hb : b ≠ 32) (i : Nat) : skipBlanksIn (blanks ++ b :: bytes) i = some (i + blanks.length) := by
  induction blanks generalizing i with
  | nil => simp [skipBlanksIn, hb]
  | cons x blanks ih =>
    have hx : x = 32 := h x (by simp)
    rw [List.cons_append, skipBlanksIn, if_pos hx, ih (fun y hy => h y (by simp [hy]))]
    simp only [List.length_cons]
    congr 1
    omega

/-- From the end the blanks are stepped over down to the last byte that is none. -/
theorem backBlanks_append {pre : List Byte} {b : Byte} {pattern : Nat} (hb : b ≠ 32)
    (hp : pattern ≤ pre.length) (n : Nat) (post : List Byte) :
    backBlanks (pre ++ b :: (List.replicate n 32 ++ post)) pattern (pre.length + n)
      = some pre.length := by
  induction n generalizing post with
  | zero =>
    have hread : (pre ++ b :: (List.replicate 0 32 ++ post))[pre.length]? = some b := by simp
    cases hlen : pre.length with
    | zero => rfl
    | succ m =>
      rw [hlen] at hread
      rw [Nat.add_zero, backBlanks, hread]
      simp [hb]
  | succ n ih =>
    have hread : (pre ++ b :: (List.replicate (n + 1) 32 ++ post))[pre.length + n + 1]?
        = some 32 := by
      rw [List.getElem?_append_right (by omega)]
      have hidx : pre.length + n + 1 - pre.length = n + 1 := by omega
      rw [hidx, List.getElem?_cons_succ, List.getElem?_append_left (by simp)]
      simp
    have hsame : pre ++ b :: (List.replicate (n + 1) 32 ++ post) =
        pre ++ b :: (List.replicate n 32 ++ 32 :: post) := by
      rw [List.replicate_succ']
      simp
    rw [← Nat.add_assoc, backBlanks, if_pos (by omega), hread]
    simp only [if_true]
    rw [hsame]
    exact ih (32 :: post)

/-- A piece is its blanks in front, what `trimPattern` leaves, and its blanks behind. -/
theorem trimPattern_split (piece : Text) :
    ∃ blanks n, piece = blanks ++ (trimPattern piece ++ List.replicate n 32) ∧
      (∀ x ∈ blanks, x = 32) ∧ (∀ b, (trimPattern piece).head? = some b → b ≠ 32) ∧
      (∀ b, (trimPattern piece).getLast? = some b → b ≠ 32) ∧
      (trimPattern piece = [] → n = 0) := by
  obtain ⟨more, hmore⟩ : ∃ more, more = piece.dropWhile (· = 32) := ⟨_, rfl⟩
  have htrim : trimPattern piece = more.rdropWhile (· = 32) := by rw [trimPattern, hmore]
  have hfirst : ∀ b, more.head? = some b → b ≠ 32 := fun b hb => by
    obtain ⟨t, ht⟩ := List.head?_eq_some_iff.mp hb
    simpa using of_dropWhile_eq_cons (hmore.symm.trans ht)
  have htail : ∀ b ∈ more.rtakeWhile (· = 32), b = 32 := fun b hb => by
    simpa using List.mem_rtakeWhile_imp hb
  have hsplit : more = trimPattern piece ++
      List.replicate (more.rtakeWhile (· = 32)).length 32 := by
    rw [htrim, ← List.eq_replicate_of_mem htail, List.rdropWhile_append_rtakeWhile]
  refine ⟨piece.takeWhile (· = 32), (more.rtakeWhile (· = 32)).length, ?_, ?_, ?_, ?_, ?_⟩
  · rw [← hsplit, hmore, List.takeWhile_append_dropWhile]
  · intro x hx
    simpa using List.mem_takeWhile_imp hx
  · intro b hb
    refine hfirst b ?_
    obtain ⟨t, ht⟩ := List.head?_eq_some_iff.mp hb
    rw [hsplit, ht]
    rfl
  · intro b hb
    have hne : more.rdropWhile (· = 32) ≠ [] := fun h0 => by
      rw [htrim, h0] at hb
      exact absurd hb (by simp)
    have hlast := List.rdropWhile_last_not _ _ hne
    rw [htrim, List.getLast?_eq_some_getLast hne, Option.some.injEq] at hb
    rw [hb] at hlast
    simpa using hlast
  · intro h0
    rw [htrim, List.rdropWhile_eq_nil_iff] at h0
    cases more with
    | nil => rfl
    | cons b more =>
      exact absurd (by simpa using h0 b (by simp)) (hfirst b rfl)

/-- A piece of blanks only: the terminator is written over itself. -/
theorem trimAt_blanks {blanks : Text} (hne : blanks ≠ []) (h : ∀ x ∈ blanks, x = 32) :
    trimAt (pre ++ blanks ++ 0 :: post) pre.length
      = some ((pre ++ blanks).length, pre ++ blanks ++ 0 :: post) := by
  have hpos : 0 < (pre ++ blanks).length := by
    rw [List.length_append]
    have := List.length_pos_iff.mpr hne
    omega
  have hskip : skipBlanks (pre ++ blanks ++ 0 :: post) pre.length
      = some (pre ++ blanks).length := by
    have hdrop : (pre ++ blanks ++ 0 :: post).drop pre.length = blanks ++ 0 :: post := by
      rw [List.append_assoc, List.drop_left]
    rw [skipBlanks, hdrop, skipBlanksIn_append h (by decide), List.length_append]
  have hstr : strAt (pre ++ blanks ++ 0 :: post) (pre ++ blanks).length = some [] := by
    have hs := strAt_piece (pre ++ blanks) post (List.not_mem_nil : 0 ∉ ([] : Text))
    rwa [List.append_nil] at hs
  have hback : backBlanks (pre ++ blanks ++ 0 :: post) (pre ++ blanks).length
      ((pre ++ blanks).length - 1) = some ((pre ++ blanks).length - 1) := by
    obtain ⟨m, hm⟩ : ∃ m, (pre ++ blanks).length = m + 1 := ⟨_, (Nat.sub_add_cancel hpos).symm⟩
    rw [hm, Nat.add_sub_cancel]
    cases m with
    | zero => rfl
    | succ m => rw [backBlanks, if_neg (by omega)]
  have hwrite : writeAt (pre ++ blanks ++ 0 :: post) ((pre ++ blanks).length - 1 + 1) 0
      = some (pre ++ blanks ++ 0 :: post) := writeAt_append (Nat.sub_add_cancel hpos)
  simp only [trimAt, hskip, hstr, Option.bind_eq_bind, Option.bind_some, List.length_nil,
    Nat.add_zero, hback, hwrite, Option.pure_def]
  exact if_neg (by omega)

/-- Any other piece: the byte behind the last one that is no blank becomes the terminator. -/
theorem trimAt_text {blanks front : Text} {b c : Byte} {n : Nat} (h : ∀ x ∈ blanks, x = 32)
    (hfirst : ∀ x, (front ++ [b]).head? = some x → x ≠ 32) (hb : b ≠ 32)
    (hnul : 0 ∉ front ++ [b] ++ List.replicate n 32) (rest : List Byte)
    (hrest : List.replicate n 32 ++ 0 :: post = c :: rest) :
    trimAt (pre ++ (blanks ++ (front ++ [b] ++ List.replicate n 32)) ++ 0 :: post) pre.length
      = some ((pre ++ blanks).length, pre ++ blanks ++ (front ++ [b]) ++ 0 :: rest) := by
  have hshape : pre ++ (blanks ++ (front ++ [b] ++ List.replicate n 32)) ++ 0 :: post =
      pre ++ blanks ++ (front ++ [b]) ++ c :: rest := by
    rw [← hrest]
    simp
  have hskip : skipBlanks (pre ++ blanks ++ (front ++ [b]) ++ c :: rest) pre.length
      = some (pre ++ blanks).length := by
    have hdrop : (pre ++ blanks ++ (front ++ [b]) ++ c :: rest).drop pre.length =
        blanks ++ (front ++ [b] ++ c :: rest) := by
      simp only [List.append_assoc, List.drop_left]
    rw [skipBlanks, hdrop, List.length_append]
    cases front with
    | nil => exact skipBlanksIn_append h hb _
    | cons x front => exact skipBlanksIn_append h (hfirst x rfl) _
  have hstr : strAt (pre ++ blanks ++ (front ++ [b]) ++ c :: rest) (pre ++ blanks).length
      = some (front ++ [b] ++ List.replicate n 32) := by
    rw [← hrest]
    have hs := strAt_piece (pre ++ blanks) post hnul
    simpa only [List.append_assoc] using hs
  have hback : backBlanks (pre ++ blanks ++ (front ++ [b]) ++ c :: rest) (pre ++ blanks).length
      ((pre ++ blanks).length + (front ++ [b] ++ List.replicate n 32).length - 1)
        = some (pre ++ blanks ++ front).length := by
    have hle : (pre ++ blanks).length ≤ (pre ++ blanks ++ front).length := by
      simp only [List.length_append]
      omega
    have hs := backBlanks_append hb hle n (0 :: post)
    have hidx : (pre ++ blanks).length + (front ++ [b] ++ List.replicate n 32).length - 1 =
        (pre ++ blanks ++ front).length + n := by
      simp only [List.length_append, List.length_singleton, List.length_replicate]
      omega
    rw [hidx, ← hrest]
    simpa only [List.append_assoc, List.singleton_append, List.cons_append, List.nil_append]
      using hs
  have hwrite : writeAt (pre ++ blanks ++ (front ++ [b]) ++ c :: rest)
      ((pre ++ blanks ++ front).length + 1) 0
        = some (pre ++ blanks ++ (front ++ [b]) ++ 0 :: rest) :=
    writeAt_append (by simp only [List.length_append, List.length_singleton]; omega)
  rw [hshape]
  simp only [trimAt, hskip, hstr, Option.bind_eq_bind, Option.bind_some, hback, hwrite,
    Option.pure_def]
  refine if_neg ?_
  simp only [List.length_append, List.length_singleton]
  omega

/-- **The trimming stays inside the piece and its terminator**, also for a piece of blanks only,
and leaves the string `trimPattern` describes. -/
theorem trimAt_piece (pre post : List Byte) {piece : Text} (hne : piece ≠ []) (hnul : 0 ∉ piece) :
    ∃ pattern bytes, trimAt (pre ++ piece ++ 0 :: post) pre.length
        = some (pattern, pre ++ bytes ++ 0 :: post) ∧ bytes.length = piece.length ∧
      strAt (pre ++ bytes ++ 0 :: post) pattern = some (trimPattern piece) := by
  obtain ⟨blanks, n, hsplit, hblanks, hfirst, hlast, hn⟩ := trimPattern_split piece
  rcases List.eq_nil_or_concat' (trimPattern piece) with hcore | ⟨front, b, hcore⟩
  · have hall : piece = blanks := by
      rw [hsplit, hcore, hn hcore]
      simp
    subst hall
    refine ⟨_, piece, trimAt_blanks hne hblanks, rfl, ?_⟩
    have hs := strAt_piece (pre ++ piece) post (List.not_mem_nil : 0 ∉ ([] : Text))
    rw [hcore]
    rwa [List.append_nil] at hs
  · rw [hcore] at hsplit hfirst hlast
    have hb : b ≠ 32 := hlast b (by simp)
    have hnulc : 0 ∉ front ++ [b] ++ List.replicate n 32 := fun h0 => hnul (by
      rw [hsplit]
      exact List.mem_append_right _ h0)
    have hnulf : 0 ∉ front ++ [b] := fun h0 => hnulc (List.mem_append_left _ h0)
    rw [hcore, hsplit]
    cases n with
    | zero =>
      refine ⟨(pre ++ blanks).length, blanks ++ (front ++ [b]), ?_, by simp, ?_⟩
      · rw [trimAt_text (n := 0) hblanks hfirst hb hnulc post rfl]
        simp
      · have hs := strAt_piece (pre ++ blanks) post hnulf
        simpa only [List.append_assoc] using hs
    | succ n =>
      refine ⟨(pre ++ blanks).length, blanks ++ (front ++ [b] ++ 0 :: List.replicate n 32), ?_,
        by simp, ?_⟩
      · rw [trimAt_text (n := n + 1) hblanks hfirst hb hnulc (List.replicate n 32 ++ 0 :: post) rfl]
        simp
      · have hs := strAt_piece (pre ++ blanks) (List.replicate n 32 ++ 0 :: post) hnulf
        simpa only [List.append_assoc, List.cons_append] using hs

/-- Where the loop stands: no piece is left, or `tokens` are the current piece and those
`strtok` has still to find. -/
inductive AtPiece (buf : Buf) : Option Nat → Nat → List Text → Prop where
  | done {pos : Nat} : AtPiece buf none pos []
  | piece {pre piece post : List Byte} {pos : Nat} {rest : Text}
      (hbuf : buf = pre ++ piece ++ 0 :: post) (hne : piece ≠ []) (hnul : 0 ∉ piece)
      (hsaved : ∀ bytes : List Byte, bytes.length = piece.length →
        Saved (pre ++ bytes ++ 0 :: post) pos rest) :
      AtPiece buf (some pre.length) pos (piece :: strtok 44 rest)

theorem strtokAt_atPiece {buf : Buf} {pos : Nat} {rest : Text} (h : Saved buf pos rest) :
    ∃ next buf' pos', strtokAt 44 buf pos = some (next, buf', pos') ∧
      AtPiece buf' next pos' (strtok 44 rest) := by
  rcases strtokAt_cases 44 h with ⟨hnil, pos', hcall⟩ |
    ⟨pre, piece, post, pos', rest', hne, hnul, htok, hcall, hsaved⟩
  · rw [hnil]
    exact ⟨none, buf, pos', hcall, .done⟩
  · rw [htok]
    exact ⟨some pre.length, _, pos', hcall, .piece rfl hne hnul hsaved⟩

/-- **The loop on the copy stores what the loop over the pieces stores**, and ends. -/
theorem patternLoopAt_eq (dupOk : Nat → Bool) {fuel : Nat} {buf : Buf} {next : Option Nat}
    {pos : Nat} {tokens : List Text} (patterns : List (Option Text))
    (h : AtPiece buf next pos tokens) (hf : tokens.length < fuel) :
    patternLoopAt dupOk fuel buf next pos patterns =
      some (patternLoop dupOk tokens patterns) := by
  induction fuel generalizing buf next pos tokens patterns with
  | zero => exact absurd hf (Nat.not_lt_zero _)
  | succ fuel ih =>
    cases h with
    | done => rfl
    | @piece pre piece post pos rest hbuf hne hnul hsaved =>
      subst hbuf
      rw [patternLoopAt, patternLoop]
      by_cases hfull : patterns.length < maxIpPatterns
      · rw [if_pos hfull, if_pos hfull]
        obtain ⟨pattern, bytes, htrim, hlen, hstr⟩ := trimAt_piece pre post hne hnul
        obtain ⟨next, buf', pos', hcall, hat⟩ := strtokAt_atPiece (hsaved bytes hlen)
        have hfuel : (strtok 44 rest).length < fuel := by
          rw [List.length_cons] at hf
          omega
        simp only [htrim, hstr, hcall, Option.bind_eq_bind, Option.bind_some]
        rw [ih _ hat hfuel]
        split <;> rfl
      · rw [if_neg hfull, if_neg hfull]

/-- **`init_ip_patterns` never leaves its copy**: byte by byte it does what `initIpPatterns`
says, for every value of the variable. -/
theorem initIpPatternsAt_eq (e : Environ) (copyOk : Bool) (dupOk : Nat → Bool)
    (patterns : List (Option Text)) :
    initIpPatternsAt e copyOk dupOk patterns = initIpPatterns e copyOk dupOk patterns := by
  unfold initIpPatternsAt initIpPatterns
  cases e.selectedInterfaces with
  | none => rfl
  | some env =>
    cases copyOk with
    | false => rfl
    | true =>
      have hsaved : Saved (env.bytes ++ [0]) 0 env.bytes := ⟨[], [], by simp, rfl, env.noNul⟩
      obtain ⟨next, buf, pos, hcall, hat⟩ := strtokAt_atPiece hsaved
      have hfuel : (strtok 44 env.bytes).length < env.bytes.length + 2 :=
        Nat.lt_succ_of_le (length_strtok_le env.bytes)
      simp only [if_true, hcall, Option.bind_eq_bind, Option.bind_some]
      exact patternLoopAt_eq dupOk patterns hat hfuel

end InPlace

/-! ## 3. What is stored, and what it selects -/

/-- The first `MAX_IP_PATTERNS` of the pieces between the commas of `SELECTED_INTERFACES` that
are more than blanks, without the blanks around them. -/
def selectedPatterns (e : Environ) : List Text :=
  match e.selectedInterfaces with
  | none => []
  | some env => (((env.bytes.splitOn 44).map trimPattern).filter (· ≠ [])).take maxIpPatterns

/-- What is stored of them, by which of the copies are made; `none` is `NULL`. -/
def storedPatterns (e : Environ) (dupOk : Nat → Bool) : List (Option Text) :=
  (selectedPatterns e).mapIdx fun i text => if dupOk i then some text else none

/-- The copies the patterns need are made: of the variable, and of each pattern stored. -/
def CopiesOk (e : Environ) (copyOk : Bool) (dupOk : Nat → Bool) : Prop :=
  e.selectedInterfaces = none ∨
    copyOk = true ∧ ∀ i < (selectedPatterns e).length, dupOk i = true

/-- An address is selected when no pattern is stored, or when one is the beginning of it. -/
def Selected (e : Environ) (ip : Text) : Prop :=
  selectedPatterns e = [] ∨ ∃ pattern ∈ selectedPatterns e, pattern <+: ip

instance (e : Environ) (ip : Text) : Decidable (Selected e ip) :=
  inferInstanceAs (Decidable (_ ∨ ∃ pattern ∈ selectedPatterns e, pattern <+: ip))

section Stored

variable {e : Environ} {copyOk : Bool} {dupOk : Nat → Bool}

/-- The loop adds the trimmed pieces that are not empty, up to the bound, or a `NULL` for a copy
that fails. -/
theorem patternLoop_eq (dupOk : Nat → Bool) (tokens : List Text) :
    ∀ patterns : List (Option Text),
      patternLoop dupOk tokens patterns = patterns ++
        (((tokens.map trimPattern).filter (· ≠ [])).take (maxIpPatterns - patterns.length)).mapIdx
          fun i text => if dupOk (patterns.length + i) then some text else none := by
  induction tokens with
  | nil => simp [patternLoop]
  | cons token tokens ih =>
    intro patterns
    rw [patternLoop]
    by_cases hfull : patterns.length < maxIpPatterns
    · rw [if_pos hfull]
      dsimp only
      by_cases h0 : trimPattern token = []
      · rw [if_neg (by simp [h0]), ih]
        simp [h0]
      · have hroom : maxIpPatterns - patterns.length =
            maxIpPatterns - (patterns.length + 1) + 1 := by
          omega
        rw [if_pos (List.length_pos_iff.mpr h0), ih, List.map_cons,
          List.filter_cons_of_pos (by simpa using h0), hroom, List.take_succ_cons, List.mapIdx_cons,
          List.length_append, List.length_singleton, List.append_assoc, List.singleton_append]
        simp only [Nat.add_assoc, Nat.add_comm 1, Nat.add_zero]
    · have hroom : maxIpPatterns - patterns.length = 0 := by omega
      rw [if_neg hfull, hroom]
      simp

/-- Empty pieces do not count, whoever drops them. -/
theorem filter_trim_strtok (s : Text) :
    ((strtok 44 s).map trimPattern).filter (· ≠ []) =
      ((s.splitOn 44).map trimPattern).filter (· ≠ []) := by
  have hnil : ∀ l : List Text, ((l.filter (· ≠ [])).map trimPattern).filter (· ≠ []) =
      (l.map trimPattern).filter (· ≠ []) := by
    intro l
    induction l with
    | nil => rfl
    | cons t l ih =>
      by_cases ht : t = []
      · subst ht
        rw [List.filter_cons_of_neg (by simp), ih, List.map_cons,
          List.filter_cons_of_neg (by simp [trimPattern])]
      · rw [List.filter_cons_of_pos (by simpa using ht), List.map_cons, List.map_cons,
          List.filter_cons, List.filter_cons, ih]
  exact hnil _

/-- What `init_ip_patterns` stores on an empty table. -/
theorem initIpPatterns_eq :
    initIpPatterns e copyOk dupOk [] =
      match e.selectedInterfaces with
      | none => some []
      | some _ =>
        if copyOk then some (storedPatterns e dupOk) else none := by
  unfold initIpPatterns storedPatterns selectedPatterns
  cases e.selectedInterfaces with
  | none => rfl
  | some env =>
    dsimp only
    rw [patternLoop_eq, filter_trim_strtok]
    simp

theorem storedPatterns_eq_iff :
    storedPatterns e dupOk = (selectedPatterns e).map some ↔
      ∀ i < (selectedPatterns e).length, dupOk i = true := by
  unfold storedPatterns
  constructor
  · intro h i hi
    have hget := congrArg (·[i]?) h
    simp only [List.getElem?_mapIdx, List.getElem?_map, List.getElem?_eq_getElem hi,
      Option.map_some, Option.some.injEq] at hget
    by_contra hno
    rw [if_neg hno] at hget
    exact absurd hget (by simp)
  · intro h
    refine List.ext_getElem (by simp) fun i h1 h2 => ?_
    have hi : i < (selectedPatterns e).length := by simpa using h1
    simp [h i hi]

/-- Without the variable nothing is stored. -/
theorem storedPatterns_unset (hvar : e.selectedInterfaces = none) (dupOk : Nat → Bool) :
    storedPatterns e dupOk = [] := by
  simp [storedPatterns, selectedPatterns, hvar]

/-- A call that returns stored the patterns whose copies were made. -/
theorem initIpPatterns_stored {patterns : List (Option Text)}
    (h : initIpPatterns e copyOk dupOk [] = some patterns) : patterns = storedPatterns e dupOk := by
  rw [initIpPatterns_eq] at h
  cases hvar : e.selectedInterfaces with
  | none =>
    rw [hvar] at h
    rw [storedPatterns_unset hvar]
    exact (Option.some.inj h).symm
  | some env =>
    rw [hvar] at h
    dsimp only at h
    split at h
    · exact (Option.some.inj h).symm
    · exact absurd h (by simp)

/-- **The patterns stored are those of the variable exactly when every copy is made.** -/
theorem initIpPatterns_iff :
    initIpPatterns e copyOk dupOk [] = some ((selectedPatterns e).map some) ↔
      CopiesOk e copyOk dupOk := by
  rw [initIpPatterns_eq, CopiesOk]
  cases hvar : e.selectedInterfaces with
  | none => simp [selectedPatterns, hvar]
  | some env =>
    cases copyOk with
    | false => simp
    | true =>
      simp only [if_true, Option.some.injEq, reduceCtorEq, false_or, true_and]
      exact storedPatterns_eq_iff

theorem CopiesOk.stored (h : CopiesOk e copyOk dupOk) :
    storedPatterns e dupOk = (selectedPatterns e).map some := by
  rcases h with hvar | ⟨-, h⟩
  · rw [storedPatterns_unset hvar]
    simp [selectedPatterns, hvar]
  · exact storedPatterns_eq_iff.mpr h

theorem matchLoop_eq (ip : Text) (patterns : List Text) :
    matchLoop ip (patterns.map some) = some (decide (∃ pattern ∈ patterns, pattern <+: ip)) := by
  induction patterns with
  | nil => simp [matchLoop]
  | cons pattern patterns ih =>
    rw [List.map_cons, matchLoop, ih]
    by_cases h : pattern <+: ip
    · simp [h]
    · simp [h]

/-- **`ip_matches_pattern`**, on the patterns of the variable. -/
theorem ipMatchesPattern_eq (e : Environ) (ip : Text) :
    ipMatchesPattern ip ((selectedPatterns e).map some) = some (decide (Selected e ip)) := by
  unfold ipMatchesPattern
  by_cases h0 : selectedPatterns e = []
  · have hsel : Selected e ip := Or.inl h0
    rw [h0, decide_eq_true hsel]
    rfl
  · rw [if_neg (by simpa using h0), matchLoop_eq]
    simp [Selected, h0]

end Stored

/-! ## 4. In octets -/

/-- One to four complete decimal octets with dots in between. -/
def patternText (octets : List Byte) : Text :=
  List.intercalate [46] (octets.map fun b => natDigits b.toNat)

def octetsOf (a : InAddr) : List Byte := [a.b1, a.b2, a.b3, a.b4]

/-- The decimal text of `o` begins with that of `q`: it is `q`, or `q` with one or two digits
more. -/
def ContinuesOctet (q o : Byte) : Prop :=
  o = q ∨ 0 < q.toNat ∧ (o.toNat / 10 = q.toNat ∨ o.toNat / 100 = q.toNat)

/-- What a pattern selects: its octets but the last are those of the address, and the octet of
the address at the place of the last continues it. -/
def BeginsWith : List Byte → List Byte → Prop
  | [q], o :: _ => ContinuesOctet q o
  | q :: q' :: pattern, o :: address => q = o ∧ BeginsWith (q' :: pattern) address
  | _, _ => False

theorem natDigits_prefix_octet (q o : Byte) :
    natDigits q.toNat <+: natDigits o.toNat ↔ ContinuesOctet q o := by
  have ho : o.toNat < 256 := o.toNat_lt
  have heq : o = q ↔ o.toNat = q.toNat := UInt8.toNat_inj.symm
  -- at most two digits can be taken away
  have hstop : ¬ 10 ≤ o.toNat / 10 / 10 := by omega
  rw [natDigits_prefix_iff, natDigits_prefix_iff, natDigits_prefix_iff (n := o.toNat / 10 / 10),
    ContinuesOctet, heq]
  simp only [hstop, false_and, or_false]
  omega

theorem patternText_cons_cons (b b' : Byte) (octets : List Byte) :
    patternText (b :: b' :: octets) = natDigits b.toNat ++ 46 :: patternText (b' :: octets) := by
  simp [patternText, List.intercalate_cons_cons]

/-- **The prefix test on the texts, in octets.** -/
theorem patternText_prefix_iff : ∀ {pattern address : List Byte}, pattern ≠ [] →
    (patternText pattern <+: patternText address ↔ BeginsWith pattern address)
  | [q], [], _ => by
    have hne : ¬ natDigits q.toNat <+: [] := fun h =>
      natDigits_ne_nil q.toNat (List.prefix_nil.mp h)
    simpa [patternText, BeginsWith] using hne
  | [q], [o], _ => by
    simpa [patternText, BeginsWith] using natDigits_prefix_octet q o
  | [q], o :: o' :: address, _ => by
    rw [patternText_cons_cons, BeginsWith, ← natDigits_prefix_octet]
    have hq : patternText [q] = natDigits q.toNat := by simp [patternText]
    rw [hq, prefix_field_iff (dot_notMem_natDigits _)]
  | q :: q' :: pattern, [], _ => by
    rw [patternText_cons_cons]
    simp [patternText, BeginsWith]
  | q :: q' :: pattern, [o], _ => by
    rw [patternText_cons_cons, BeginsWith]
    constructor
    · intro h
      have hdot : (46 : Byte) ∈ patternText [o] := h.subset (by simp)
      exact absurd hdot (by simpa [patternText] using dot_notMem_natDigits o.toNat)
    · rintro ⟨-, h⟩
      cases pattern <;> exact absurd h (by simp [BeginsWith])
  | q :: q' :: pattern, o :: o' :: address, _ => by
    rw [patternText_cons_cons, patternText_cons_cons, BeginsWith,
      field_prefix_iff (dot_notMem_natDigits _) (dot_notMem_natDigits _),
      patternText_prefix_iff (by simp)]
    have heq : natDigits q.toNat = natDigits o.toNat ↔ q = o :=
      ⟨fun h => UInt8.toNat_inj.mp (natDigits_injective h), fun h => h ▸ rfl⟩
    rw [heq]

/-- Leading octets begin the address. -/
theorem BeginsWith.of_begins : ∀ {pattern address : List Byte}, pattern ≠ [] →
    pattern <+: address → BeginsWith pattern address
  | [q], [], _, h => absurd h (by simp)
  | [q], o :: address, _, h => Or.inl (List.cons_prefix_cons.mp h).1.symm
  | q :: q' :: pattern, [], _, h => absurd h (by simp)
  | q :: q' :: pattern, o :: address, _, h => by
    obtain ⟨hq, ht⟩ := List.cons_prefix_cons.mp h
    exact ⟨hq, BeginsWith.of_begins (by simp) ht⟩

/-- Behind 0 and behind 26 and more there is no room for another digit. -/
theorem BeginsWith.prefix_of_last : ∀ {pattern address : List Byte},
    (∀ q, pattern.getLast? = some q → q = 0 ∨ 26 ≤ q.toNat) → BeginsWith pattern address →
    pattern <+: address
  | [], _, _, h => absurd h (by simp [BeginsWith])
  | [q], [], _, h => absurd h (by simp [BeginsWith])
  | [q], o :: address, hq, h => by
    have ho : o.toNat < 256 := o.toNat_lt
    rcases h with rfl | ⟨hpos, h⟩
    · exact List.cons_prefix_cons.mpr ⟨rfl, List.nil_prefix⟩
    · rcases hq q rfl with rfl | hq
      · exact absurd hpos (by decide)
      · omega
  | q :: q' :: pattern, [], _, h => absurd h (by simp [BeginsWith])
  | q :: q' :: pattern, o :: address, hq, h => by
    obtain ⟨rfl, h⟩ := h
    exact List.cons_prefix_cons.mpr ⟨rfl, BeginsWith.prefix_of_last
      (fun b hb => hq b (by rw [List.getLast?_cons_cons]; exact hb)) h⟩

/-- **Which addresses patterns of octets select**: those that some pattern begins.  Its network
is among them, and nothing else is as soon as no pattern ends in an octet that another
digit can follow. -/
theorem ipMatchesPattern_octets {patterns : List (List Byte)} (hne : patterns ≠ [])
    (hlen : ∀ pattern ∈ patterns, 1 ≤ pattern.length ∧ pattern.length ≤ 4) (a : InAddr) :
    (ipMatchesPattern (inetNtop a) (patterns.map fun p => some (patternText p)) = some true ↔
      ∃ pattern ∈ patterns, BeginsWith pattern (octetsOf a)) ∧
    ((∃ pattern ∈ patterns, pattern <+: octetsOf a) →
      ipMatchesPattern (inetNtop a) (patterns.map fun p => some (patternText p)) = some true) ∧
    ((∀ pattern ∈ patterns, ∀ q, pattern.getLast? = some q → q = 0 ∨ 26 ≤ q.toNat) →
      (ipMatchesPattern (inetNtop a) (patterns.map fun p => some (patternText p)) = some true ↔
        ∃ pattern ∈ patterns, pattern <+: octetsOf a)) := by
  have hnil : ∀ pattern ∈ patterns, pattern ≠ [] := fun pattern hp =>
    List.length_pos_iff.mp (hlen pattern hp).1
  have hsel : ipMatchesPattern (inetNtop a) (patterns.map fun p => some (patternText p))
      = some true ↔ ∃ pattern ∈ patterns, BeginsWith pattern (octetsOf a) := by
    have hmap : (patterns.map fun p => some (patternText p)) =
        (patterns.map patternText).map some := by simp
    rw [ipMatchesPattern, if_neg (by simpa using hne), hmap, matchLoop_eq, Option.some.injEq,
      decide_eq_true_iff]
    constructor
    · rintro ⟨text, hm, h⟩
      obtain ⟨pattern, hp, rfl⟩ := List.mem_map.mp hm
      exact ⟨pattern, hp, (patternText_prefix_iff (hnil pattern hp)).mp h⟩
    · rintro ⟨pattern, hp, h⟩
      exact ⟨_, List.mem_map_of_mem hp, (patternText_prefix_iff (hnil pattern hp)).mpr h⟩
  have hin : (∃ pattern ∈ patterns, pattern <+: octetsOf a) →
      ∃ pattern ∈ patterns, BeginsWith pattern (octetsOf a) := by
    rintro ⟨pattern, hp, h⟩
    exact ⟨pattern, hp, .of_begins (hnil pattern hp) h⟩
  refine ⟨hsel, fun h => hsel.mpr (hin h), fun hlast => hsel.trans ⟨?_, hin⟩⟩
  rintro ⟨pattern, hp, h⟩
  exact ⟨pattern, hp, h.prefix_of_last (hlast pattern hp)⟩

theorem ipMatchesPattern_octets_privateNetworks :
    ipMatchesPattern (inetNtop ⟨192, 168, 1, 7⟩)
        ([[10], [192, 168], [172, 20]].map fun p => some (patternText p)) = some true ↔
      ∃ pattern ∈ [[10], [192, 168], [172, 20]], BeginsWith pattern (octetsOf ⟨192, 168, 1, 7⟩) :=
  (ipMatchesPattern_octets (by simp) (by decide) ⟨192, 168, 1, 7⟩).1

/-- **"10" selects 100.0.0.1**, which is in no network that begins with the octet 10. -/
theorem ten_selects_hundred :
    ¬ ∀ (patterns : List (List Byte)) (a : InAddr), patterns ≠ [] →
      (∀ pattern ∈ patterns, 1 ≤ pattern.length ∧ pattern.length ≤ 4) →
      (ipMatchesPattern (inetNtop a) (patterns.map fun p => some (patternText p)) = some true ↔
        ∃ pattern ∈ patterns, pattern <+: octetsOf a) := by
  intro h
  have hten := h [[10]] ⟨100, 0, 0, 1⟩ (by simp) (by decide)
  have hmatch : ipMatchesPattern (inetNtop ⟨100, 0, 0, 1⟩)
      ([[10]].map fun p => some (patternText p)) = some true := by decide +kernel
  obtain ⟨pattern, hp, hpre⟩ := hten.mp hmatch
  rw [List.mem_singleton.mp hp] at hpre
  exact absurd hpre (by decide)

end Unicaster
