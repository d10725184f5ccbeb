/-
# The response body (`write_body` of `pod_list.c`)

libcurl hands the body of a response over in chunks, and `write_body` collects them in a buffer
that is doubled until the chunk and a terminator fit.  The buffer is to be the response however
it was cut.

`size_t` arithmetic is a parameter: every operation of the code goes through `op`, which is given
the exact result.  `sizeT` is C's and wraps, `sizeTChecked` refuses to.  Below `2 ^ 63` bytes both
are exact wherever the code asks (`ExactSize`), so that they yield the same.

Accesses to memory are checked as in `Lib.CBuffer`: `none` is an access outside an allocation, or
a loop that does not end.
-/
import Unicaster.PodList
import Unicaster.Lib.CBuffer
import Unicaster.Lib.Doubling
import Unicaster.Lib.Lts

namespace Unicaster

open CLib

/-! ## 1. The code -/

/-- An operation on `size_t` whose exact result is `n`. -/
def sizeT (n : Nat) : Option Nat := some (n % 2 ^ 64)

/-- The same, where a result that would wrap is an error. -/
def sizeTChecked (n : Nat) : Option Nat := if n < 2 ^ 64 then some n else none

structure ResponseBody where
  data : Option Buf
  size : Nat
  capacity : Nat

/-- `{0}`. -/
def ResponseBody.zero : ResponseBody := ⟨none, 0, 0⟩

/-- One call of `write_body`: its arguments, and what `realloc` does if it is asked (`none`: it
fails). -/
structure Chunk where
  size : Nat
  nmemb : Nat
  contents : Buf
  length_eq : contents.length = size * nmemb
  fresh : Option (Nat → Byte)

/-- `while (need > capacity) capacity *= 2`.  What does not end within 65 tests never does
(`growCapacity_none`). -/
def growCapacity (op : Nat → Option Nat) (need capacity : Nat) : Option Nat :=
  Doubling.whileBelow (fun c => op (c * 2)) need 65 capacity

namespace ResponseBody

variable (op : Nat → Option Nat) (body : ResponseBody)

/-- Make room for `need` bytes; the inner `none` is a `realloc` that failed. -/
def reserve (need : Nat) (fresh : Option (Nat → Byte)) : Option (Option ResponseBody) :=
  if need > body.capacity then do
    let capacity ← growCapacity op need (if body.capacity ≠ 0 then body.capacity else 16384)
    return (realloc body.data capacity fresh).map fun data =>
      { body with data := some data, capacity := capacity }
  else some (some body)

/-- Copy the chunk behind what is there, and terminate it. -/
def append (contents : Buf) (chunk : Nat) : Option ResponseBody := do
  let data ← copyAt (← body.data) body.size (← readAt contents 0 chunk)
  let size ← op (body.size + chunk)
  return { body with data := some (← writeAt data size 0), size := size }

end ResponseBody

/-- `write_body`: what it returns, and the body behind it. -/
def writeBody (op : Nat → Option Nat) (call : Chunk) (body : ResponseBody) :
    Option (Nat × ResponseBody) := do
  let chunk ← op (call.size * call.nmemb)
  let need ← op ((← op (body.size + chunk)) + 1)
  match ← body.reserve op need call.fresh with
  | none => return (0, body)
  | some grown => return (chunk, ← grown.append op call.contents chunk)

/-- The transfer so far: the body, and the bytes that were taken, as libcurl sees it by the
length returned. -/
structure Transfer where
  body : ResponseBody
  taken : List Byte

/-- The transfer `pod_list_fetch` starts. -/
def Transfer.start : Transfer := ⟨.zero, []⟩

/-- libcurl delivers a chunk. -/
def Transfer.deliver (op : Nat → Option Nat) (t : Transfer) (call : Chunk) : Option Transfer := do
  let (ret, body) ← writeBody op call t.body
  return ⟨body, if ret = call.contents.length then t.taken ++ call.contents else t.taken⟩

/-- What is read of the body: `json_tokener_parse` is given `body.data`, a C string. -/
def ResponseBody.read (parse : Text → Option Json) (body : ResponseBody) : Body :=
  match body.data with
  | none => .empty
  | some data => .data (parse (cstr data))

/-! ## 2. One call -/

/-- The arithmetic is that of the numbers, below `2 ^ 64`. -/
def ExactSize (op : Nat → Option Nat) : Prop := ∀ n < 2 ^ 64, op n = some n

theorem exact_sizeT : ExactSize sizeT := fun n hn => by rw [sizeT, Nat.mod_eq_of_lt hn]

theorem exact_sizeTChecked : ExactSize sizeTChecked := fun _ hn => if_pos hn

/-- `realloc` is asked, and fails. -/
def Chunk.ReallocFails (call : Chunk) (body : ResponseBody) : Prop :=
  body.capacity < body.size + call.contents.length + 1 ∧ call.fresh = none

/-- The first allocation, or less than twice `need`. -/
def Snug (capacity need : Nat) : Prop := capacity ≤ 16384 ∨ capacity < need * 2

/-- The buffer is `text` with its terminator, and not much more. -/
structure ResponseBody.Holds (body : ResponseBody) (text : List Byte) : Prop where
  data : ∃ rest, body.data = some (text ++ 0 :: rest) ∧
    (text ++ 0 :: rest).length = body.capacity
  size : body.size = text.length
  snug : Snug body.capacity (text.length + 1)

/-- Nothing was allocated yet, or the buffer is `text`. -/
def ResponseBody.Keeps (body : ResponseBody) (text : List Byte) : Prop :=
  body = .zero ∧ text = [] ∨ body.Holds text

section Calls

variable {body : ResponseBody} {text contents : List Byte} {call : Chunk} {need capacity : Nat}

/-- After 64 doublings the capacity is 0, and stays 0. -/
theorem iterate_double (n c : Nat) :
    (fun c => c * 2 % 2 ^ 64)^[n + 1] c = c * 2 ^ (n + 1) % 2 ^ 64 := by
  induction n generalizing c with
  | zero => simp
  | succ n ih =>
    rw [Function.iterate_succ_apply, ih, Nat.mod_mul_mod, mul_assoc, ← pow_succ']

/-- **A loop that the model cuts short never ends** in the code. -/
theorem growCapacity_none (h : growCapacity sizeT need capacity = none) (fuel : Nat) :
    Doubling.whileBelow (fun c => sizeT (c * 2)) need fuel capacity = none := by
  refine Doubling.whileBelow_none (f := fun c => c * 2 % 2 ^ 64) (n := 64) (fun _ => rfl) ?_ h fuel
  rw [iterate_double, Nat.mul_mod_left, Nat.zero_mul, Nat.zero_mod]

/-- The capacity the loop ends with, the same in every exact arithmetic. -/
theorem growCapacity_exact (h0 : 0 < capacity) (hneed : need ≤ 2 ^ 63) :
    need ≤ Doubling.rounds need 64 capacity ∧
      (Doubling.rounds need 64 capacity = capacity ∨
        Doubling.rounds need 64 capacity < need * 2) ∧
      ∀ op, ExactSize op →
        growCapacity op need capacity = some (Doubling.rounds need 64 capacity) := by
  have hreach : need ≤ capacity * 2 ^ 64 :=
    hneed.trans ((Nat.pow_le_pow_right two_pos (by decide)).trans (Nat.le_mul_of_pos_left _ h0))
  refine ⟨Doubling.le_rounds (Nat.zero_le _) hreach, Doubling.rounds_cases _ _ _,
    fun op hop => ?_⟩
  refine Doubling.whileBelow_eq (fun y _ hy => hop _ ?_) (Nat.zero_le _) hreach
  omega

/-- What a reader of the buffer finds. -/
theorem ResponseBody.Holds.reads (h : body.Holds text) : ∃ data, body.data = some data ∧
    data.length = body.capacity ∧ data.take body.size = text ∧ data[body.size]? = some 0 ∧
    body.size < body.capacity := by
  obtain ⟨⟨rest, hdata, hcap⟩, hsize, -⟩ := h
  refine ⟨_, hdata, hcap, ?_, ?_, ?_⟩
  · rw [hsize, List.take_left]
  · rw [hsize]
    simp
  · rw [hsize, ← hcap]
    simp

/-- What is allocated starts with the text. -/
theorem ResponseBody.Keeps.allocated (h : body.Keeps text) :
    body.size = text.length ∧ ∃ rest, body.data.getD [] = text ++ rest ∧
      (text ++ rest).length = body.capacity ∧
      (body.capacity ≠ 0 → body.data = some (text ++ rest)) := by
  rcases h with ⟨rfl, rfl⟩ | ⟨⟨rest, hdata, hlen⟩, hsize, -⟩
  · exact ⟨rfl, [], rfl, rfl, fun hne => absurd rfl hne⟩
  · exact ⟨hsize, 0 :: rest, by rw [hdata, Option.getD_some], hlen, fun _ => hdata⟩

/-- The buffer never takes much more than twice the room of the text. -/
theorem ResponseBody.Keeps.snug (h : body.Keeps text) : Snug body.capacity (text.length + 1) := by
  rcases h with ⟨rfl, -⟩ | h
  · exact Or.inl (Nat.zero_le _)
  · exact h.snug

/-- Room for the bytes behind `text`. -/
structure ResponseBody.Roomy (body : ResponseBody) (text : List Byte) (need : Nat) : Prop where
  data : ∃ tail, body.data = some (text ++ tail) ∧ (text ++ tail).length = body.capacity
  size : body.size = text.length
  need_le : need ≤ body.capacity
  snug : Snug body.capacity need

/-- **What `reserve` does**: `realloc` is asked and fails, or there is room behind the text. -/
theorem ResponseBody.Keeps.reserve (h : body.Keeps text) (h0 : text.length < need)
    (hneed : need ≤ 2 ^ 63)
    (fresh : Option (Nat → Byte)) :
    (body.capacity < need ∧ fresh = none) ∧
        (∀ op, ExactSize op → body.reserve op need fresh = some none) ∨
      ¬ (body.capacity < need ∧ fresh = none) ∧
        ∃ grown : ResponseBody, grown.Roomy text need ∧
          ∀ op, ExactSize op → body.reserve op need fresh = some (some grown) := by
  obtain ⟨hsize, rest, hdata, hlen, hsome⟩ := h.allocated
  by_cases hgrow : body.capacity < need
  · have hpos : 0 < if body.capacity ≠ 0 then body.capacity else 16384 := by
      split <;> omega
    obtain ⟨hle, hrounds, hloop⟩ := growCapacity_exact hpos hneed
    generalize Doubling.rounds need 64 _ = capacity at hle hrounds hloop
    have hsnug : Snug capacity need := by
      refine hrounds.imp (fun heq => ?_) id
      split at heq <;> omega
    have hreserve : ∀ op, ExactSize op → body.reserve op need fresh =
        some ((realloc body.data capacity fresh).map fun data =>
          { body with data := some data, capacity := capacity }) := fun op hop => by
      rw [ResponseBody.reserve, if_pos hgrow, hloop op hop]
      rfl
    cases fresh with
    | none => exact Or.inl ⟨⟨hgrow, rfl⟩, hreserve⟩
    | some fresh =>
      have hold : (body.data.getD []).length ≤ capacity := by
        rw [hdata, hlen]
        omega
      obtain ⟨tail, hre, htail⟩ := realloc_enlarged hold fresh
      rw [hdata, List.append_assoc] at hre htail
      have hroomy : (⟨some (text ++ (rest ++ tail)), body.size, capacity⟩ : ResponseBody).Roomy
          text need := ⟨⟨_, rfl, htail⟩, hsize, hle, hsnug⟩
      refine Or.inr ⟨fun hno => absurd hno.2 (by simp), _, hroomy, fun op hop => ?_⟩
      rw [hreserve op hop, hre, Option.map_some]
  · refine Or.inr ⟨fun hno => hgrow hno.1, body,
      ⟨⟨rest, hsome (by omega), hlen⟩, hsize, not_lt.mp hgrow, ?_⟩, fun op _ => if_neg hgrow⟩
    exact h.snug.imp_right fun hlt => by omega

/-- **The chunk goes behind the text**, and the terminator behind it. -/
theorem ResponseBody.Roomy.append (h : body.Roomy text (text.length + contents.length + 1))
    (hfit : text.length + contents.length < 2 ^ 64) :
    ∃ body' : ResponseBody, body'.Holds (text ++ contents) ∧
      ∀ op, ExactSize op → body.append op contents contents.length = some body' := by
  obtain ⟨⟨tail, hdata, hlen⟩, hsize, hle, hsnug⟩ := h
  -- the bytes written over, the byte of the terminator, and what stays
  obtain ⟨old, b, rest, rfl, hold⟩ : ∃ old b rest, tail = old ++ b :: rest ∧
      contents.length = old.length := by
    have hlt : contents.length < tail.length := by
      rw [← hlen, List.length_append] at hle
      omega
    refine ⟨tail.take contents.length, tail[contents.length], tail.drop (contents.length + 1),
      ?_, ?_⟩
    · rw [← List.drop_eq_getElem_cons hlt, List.take_append_drop]
    · rw [List.length_take]
      omega
  have hread : readAt contents 0 contents.length = some contents := by
    simpa using readAt_append [] contents [] rfl rfl
  have hcopy : copyAt (text ++ (old ++ b :: rest)) body.size contents =
      some (text ++ (contents ++ b :: rest)) := copyAt_append _ _ hsize hold
  have hend : writeAt (text ++ (contents ++ b :: rest)) (body.size + contents.length) 0 =
      some (text ++ contents ++ 0 :: rest) := by
    rw [← List.append_assoc]
    exact writeAt_append (by rw [List.length_append, hsize])
  refine ⟨⟨some (text ++ contents ++ 0 :: rest), body.size + contents.length, body.capacity⟩,
    ⟨⟨rest, rfl, ?_⟩, ?_, ?_⟩, fun op hop => ?_⟩
  · rw [← hlen]
    simp only [List.length_append, List.length_cons, hold]
    omega
  · rw [List.length_append, hsize]
  · rwa [List.length_append]
  · have hop' : op (body.size + contents.length) = some (body.size + contents.length) :=
      hop _ (by rwa [hsize])
    simp only [ResponseBody.append, hdata, hread, hcopy, hop', hend, Option.bind_eq_bind,
      Option.bind_some, Option.pure_def]

/-- Up to the `realloc`, the sizes are those of the numbers. -/
theorem writeBody_sizes {op : Nat → Option Nat} (hop : ExactSize op)
    (hsize : body.size = text.length)
    (hfit : text.length + call.contents.length + 1 ≤ 2 ^ 63) :
    writeBody op call body =
      (body.reserve op (text.length + call.contents.length + 1) call.fresh).bind fun
        | none => some (0, body)
        | some grown => (grown.append op call.contents call.contents.length).map fun body' =>
          (call.contents.length, body') := by
  have h1 : op (call.size * call.nmemb) = some call.contents.length := by
    rw [← call.length_eq]
    exact hop _ (by omega)
  have h2 : op (text.length + call.contents.length) = some (text.length + call.contents.length) :=
    hop _ (by omega)
  have h3 : op (text.length + call.contents.length + 1) =
      some (text.length + call.contents.length + 1) := hop _ (by omega)
  simp only [writeBody, h1, hsize, h2, h3, Option.bind_eq_bind, Option.bind_some]
  refine congrArg (Option.bind _) (funext fun grown => ?_)
  cases grown with
  | none => rfl
  | some grown => simp only [Option.pure_def, Option.map_eq_bind, Function.comp_def]

/-- **One call**, in every exact arithmetic: a failing `realloc` returns 0 and leaves the body as it
was, anything else takes the chunk. -/
theorem ResponseBody.Keeps.writeBody (h : body.Keeps text) (call : Chunk)
    (hfit : text.length + call.contents.length + 1 ≤ 2 ^ 63) :
    call.ReallocFails body ∧ (∀ op, ExactSize op → writeBody op call body = some (0, body)) ∨
      ¬ call.ReallocFails body ∧ ∃ body' : ResponseBody, body'.Holds (text ++ call.contents) ∧
        ∀ op, ExactSize op → writeBody op call body = some (call.contents.length, body') := by
  have hsize := h.allocated.1
  unfold Chunk.ReallocFails
  rw [hsize]
  rcases h.reserve (by omega) hfit call.fresh with ⟨hfails, heq⟩ | ⟨hok, grown, hroomy, heq⟩
  · refine Or.inl ⟨hfails, fun op hop => ?_⟩
    rw [writeBody_sizes hop hsize hfit, heq op hop, Option.bind_some]
  · obtain ⟨body', hholds, happ⟩ := hroomy.append (by omega)
    refine Or.inr ⟨hok, body', hholds, fun op hop => ?_⟩
    rw [writeBody_sizes hop hsize hfit, heq op hop, Option.bind_some]
    dsimp only
    rw [happ op hop, Option.map_some]

end Calls

/-! ## 3. A transfer -/

/-- What has been delivered so far. -/
def delivered (calls : List Chunk) : Nat := (calls.map fun call => call.contents.length).sum

section Transfers

variable {t : Transfer} {call : Chunk} {calls : List Chunk}

/-- The body is what was taken. -/
def Transfer.Sound (t : Transfer) : Prop := t.body.Keeps t.taken

/-- A call whose `realloc` fails leaves the transfer as it was. -/
theorem Transfer.deliver_fails {op : Nat → Option Nat}
    (h : writeBody op call t.body = some (0, t.body)) : t.deliver op call = some t := by
  have htaken : (if 0 = call.contents.length then t.taken ++ call.contents else t.taken) =
      t.taken := by
    split
    · rename_i h0
      rw [List.length_eq_zero_iff.mp h0.symm, List.append_nil]
    · rfl
  rw [Transfer.deliver, h, Option.bind_eq_bind, Option.bind_some]
  dsimp only
  rw [htaken]
  rfl

theorem Transfer.deliver_takes {op : Nat → Option Nat} {body : ResponseBody}
    (h : writeBody op call t.body = some (call.contents.length, body)) :
    t.deliver op call = some ⟨body, t.taken ++ call.contents⟩ := by
  rw [Transfer.deliver, h, Option.bind_eq_bind, Option.bind_some]
  dsimp only
  rw [if_pos rfl]
  rfl

/-- A chunk is delivered, and what was taken grows by no more than it. -/
theorem Transfer.Sound.deliver (h : t.Sound) (call : Chunk)
    (hfit : t.taken.length + call.contents.length + 1 ≤ 2 ^ 63) :
    ∃ t' : Transfer, t'.Sound ∧ t'.taken.length ≤ t.taken.length + call.contents.length ∧
      ∀ op, ExactSize op → t.deliver op call = some t' := by
  rcases h.writeBody call hfit with ⟨-, heq⟩ | ⟨-, body', hholds, heq⟩
  · exact ⟨t, h, Nat.le_add_right _ _, fun op hop => Transfer.deliver_fails (heq op hop)⟩
  · exact ⟨⟨body', t.taken ++ call.contents⟩, Or.inr hholds, by simp, fun op hop =>
      Transfer.deliver_takes (heq op hop)⟩

/-- **A transfer that fits is carried out**, in every exact arithmetic alike. -/
theorem Transfer.Sound.deliverAll (h : t.Sound) (calls : List Chunk)
    (hfit : t.taken.length + delivered calls + 1 ≤ 2 ^ 63) :
    ∃ t' : Transfer, t'.Sound ∧ t'.taken.length ≤ t.taken.length + delivered calls ∧
      ∀ op, ExactSize op → Lts.exec (Transfer.deliver op) t calls = some t' := by
  induction calls generalizing t with
  | nil => exact ⟨t, h, Nat.le_add_right _ _, fun op _ => rfl⟩
  | cons call calls ih =>
    simp only [delivered, List.map_cons, List.sum_cons] at hfit ih ⊢
    obtain ⟨t₁, h₁, hlen₁, heq₁⟩ := h.deliver call (by omega)
    obtain ⟨t₂, h₂, hlen₂, heq₂⟩ := ih h₁ (by omega)
    refine ⟨t₂, h₂, by omega, fun op hop => ?_⟩
    rw [Lts.exec, heq₁ op hop, Option.bind_some, heq₂ op hop]

theorem Transfer.sound_start : Transfer.start.Sound := Or.inl ⟨rfl, rfl⟩

/-- Where no `realloc` fails, all that was delivered is taken. -/
theorem Transfer.Sound.taken_eq (h : t.Sound) (hmem : ∀ call ∈ calls, call.fresh ≠ none)
    (hfit : t.taken.length + delivered calls + 1 ≤ 2 ^ 63) {t' : Transfer}
    (hexec : Lts.exec (Transfer.deliver sizeT) t calls = some t') :
    t'.taken = t.taken ++ (calls.map Chunk.contents).flatten := by
  induction calls generalizing t with
  | nil => simp [← Option.some.inj hexec]
  | cons call calls ih =>
    simp only [delivered, List.map_cons, List.sum_cons] at hfit ih
    rcases h.writeBody call (by omega) with ⟨hno, -⟩ | ⟨-, body', hholds, heq⟩
    · exact absurd hno.2 (hmem call (by simp))
    · rw [Lts.exec, Transfer.deliver_takes (heq _ exact_sizeT), Option.bind_some] at hexec
      rw [ih (Or.inr hholds) (fun c hc => hmem c (by simp [hc])) (by
        simp only [List.length_append]; omega) hexec]
      simp

/-- What `json_tokener_parse` is given once something was allocated: the bytes taken. -/
theorem Transfer.Sound.read (h : t.Sound) (hdata : t.body.data ≠ none)
    (parse : Text → Option Json) : t.body.read parse = .data (parse (cstr t.taken)) := by
  rcases h with ⟨hzero, -⟩ | ⟨⟨rest, heq, -⟩, -, -⟩
  · exact absurd (by rw [hzero]; rfl) hdata
  · simp only [ResponseBody.read, heq, cstr_append_nul]

/-- **A pod list is the list of the bytes taken.** -/
theorem Transfer.Sound.list (h : t.Sound) {parse : Text → Option Json} {a : Answer}
    {ips : List Text} (hok : readResponse { a with body := t.body.read parse } = .ok ips) :
    parsePodList (parse (cstr t.taken)) a.mallocOk = .ok ips := by
  obtain ⟨-, -, root, hbody, hparse⟩ := readResponse_ok hok
  dsimp only at hbody
  by_cases hdata : t.body.data = none
  · rw [ResponseBody.read, hdata] at hbody
    exact absurd hbody (by simp)
  · rw [h.read hdata] at hbody
    rwa [Body.data.inj hbody]

/-- `data[0 .. size)`. -/
def ResponseBody.bytes (body : ResponseBody) : List Byte := (body.data.getD []).take body.size

theorem Transfer.Sound.bytes (h : t.Sound) :
    t.body.size = t.taken.length ∧ t.body.bytes = t.taken := by
  obtain ⟨hsize, rest, hdata, -⟩ := ResponseBody.Keeps.allocated h
  refine ⟨hsize, ?_⟩
  rw [ResponseBody.bytes, hdata, hsize, List.take_left]

end Transfers

/-- **The body is the response, however it is cut**: no computation of a size wraps, the loop ends,
and what is there behind each chunk is what was taken. -/
theorem body_is_response (calls : List Chunk) (hfit : delivered calls + 1 ≤ 2 ^ 63) :
    (∀ pre call post, calls = pre ++ call :: post → ∃ (t : Transfer) (ret : Nat)
      (body : ResponseBody),
        Lts.exec (Transfer.deliver sizeT) .start pre = some t ∧
        Lts.exec (Transfer.deliver sizeTChecked) .start pre = some t ∧
        writeBody sizeT call t.body = some (ret, body) ∧
        writeBody sizeTChecked call t.body = some (ret, body) ∧
        (call.ReallocFails t.body → ret = 0 ∧ (call.contents ≠ [] → ret ≠ call.contents.length) ∧
          body = t.body ∧ t.deliver sizeT call = some t) ∧
        (¬ call.ReallocFails t.body → ret = call.contents.length ∧
          t.deliver sizeT call = some ⟨body, t.taken ++ call.contents⟩ ∧
          ∃ data, body.data = some data ∧ data.length = body.capacity ∧
            data.take body.size = t.taken ++ call.contents ∧ data[body.size]? = some 0 ∧
            body.size < body.capacity)) ∧
    ∃ t : Transfer, Lts.exec (Transfer.deliver sizeT) .start calls = some t ∧
      ((∀ call ∈ calls, call.fresh ≠ none) → t.taken = (calls.map Chunk.contents).flatten) ∧
      ∀ (calls' : List Chunk) (t' : Transfer), delivered calls' + 1 ≤ 2 ^ 63 →
        Lts.exec (Transfer.deliver sizeT) .start calls' = some t' → t'.taken = t.taken →
          t'.body.size = t.body.size ∧ t'.body.bytes = t.body.bytes := by
  have hstart : ∀ cs, delivered cs + 1 ≤ 2 ^ 63 →
      Transfer.start.taken.length + delivered cs + 1 ≤ 2 ^ 63 := fun cs hcs => by
    rwa [show Transfer.start.taken.length = 0 from rfl, Nat.zero_add]
  refine ⟨?_, ?_⟩
  · rintro pre call post rfl
    simp only [delivered, List.map_append, List.map_cons, List.sum_append, List.sum_cons] at hfit
    obtain ⟨t, ht, hlen, hexec⟩ := Transfer.sound_start.deliverAll pre
      (hstart pre (by simp only [delivered]; omega))
    have hroom : t.taken.length + call.contents.length + 1 ≤ 2 ^ 63 := by
      simp only [delivered, Transfer.start, List.length_nil] at hlen
      omega
    rcases ht.writeBody call hroom with ⟨hfails, heq⟩ | ⟨hok, body', hholds, heq⟩
    · refine ⟨t, 0, t.body, hexec _ exact_sizeT, hexec _ exact_sizeTChecked, heq _ exact_sizeT,
        heq _ exact_sizeTChecked, fun _ => ⟨rfl, fun hne h0 => ?_, rfl, ?_⟩,
        fun hno => absurd hfails hno⟩
      · exact hne (List.length_eq_zero_iff.mp h0.symm)
      · exact Transfer.deliver_fails (heq _ exact_sizeT)
    · exact ⟨t, call.contents.length, body', hexec _ exact_sizeT, hexec _ exact_sizeTChecked,
        heq _ exact_sizeT, heq _ exact_sizeTChecked, fun hno => absurd hno hok, fun _ =>
        ⟨rfl, Transfer.deliver_takes (heq _ exact_sizeT), hholds.reads⟩⟩
  · obtain ⟨t, ht, -, hexec⟩ := Transfer.sound_start.deliverAll calls
      (hstart calls hfit)
    refine ⟨t, hexec _ exact_sizeT, fun hmem => ?_, fun calls' t' hfit' hexec' htaken => ?_⟩
    · simpa [Transfer.start] using Transfer.sound_start.taken_eq hmem (hstart calls hfit)
        (hexec _ exact_sizeT)
    · obtain ⟨u, hu, -, hexecu⟩ := Transfer.sound_start.deliverAll calls'
        (hstart calls' hfit')
      obtain rfl : u = t' := Option.some.inj ((hexecu _ exact_sizeT).symm.trans hexec')
      rw [hu.bytes.1, hu.bytes.2, ht.bytes.1, ht.bytes.2, htaken]
      exact ⟨rfl, rfl⟩

/-- `contents` as one call, with memory to be had. -/
def oneChunk (contents : Buf) : Chunk :=
  ⟨1, contents.length, contents, (Nat.one_mul _).symm, some fun _ => 255⟩

/-- `{}` in one chunk, and in two with an empty one between them. -/
theorem body_is_response_braces : ∃ t t' : Transfer,
    Lts.exec (Transfer.deliver sizeT) .start [oneChunk [123, 125]] = some t ∧
    Lts.exec (Transfer.deliver sizeT) .start [oneChunk [123], oneChunk [], oneChunk [125]] =
      some t' ∧ t.taken = [123, 125] ∧ t'.body.size = t.body.size ∧
    t'.body.bytes = t.body.bytes := by
  obtain ⟨t, ht, htaken, hcut⟩ := (body_is_response [oneChunk [123, 125]] (by decide)).2
  obtain ⟨t', ht', htaken', -⟩ :=
    (body_is_response [oneChunk [123], oneChunk [], oneChunk [125]] (by decide)).2
  have h := htaken (by simp [oneChunk])
  have h' := htaken' (by simp [oneChunk])
  exact ⟨t, t', ht, ht', h, hcut _ t' (by decide) ht' (h'.trans h.symm)⟩

end Unicaster
