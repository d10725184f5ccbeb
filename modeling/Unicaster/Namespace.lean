/-
# The namespace that is asked for

What the user configures against what `resolve_namespace` makes of it.  The configured name
is `DEPLOYMENT_ENV`, or the trimmed content of the service-account file; a request may only
ever be made for that very name, and only if it is an RFC 1123 label.

The code does not compare names.  It validates a text of its own (`namespaceText`): a prefix
of `DEPLOYMENT_ENV`, or what `read_trimmed` left in the buffer.  So the law is the agreement
of two texts (`namespaceLaw_iff_agrees`), and section 3 says for which inputs they agree.
-/
import Unicaster.PodList

namespace Unicaster

open CLib

/-! ## 1. Labels and the configured name -/

/-- An RFC 1123 label. -/
structure IsLabel (name : Text) : Prop where
  pos : 1 ≤ name.length
  le : name.length ≤ 63
  bytes : ∀ b ∈ name, isLabelByte b = true
  head : name.head? ≠ some 45
  last : name.getLast? ≠ some 45

/-- `is_valid_namespace` accepts exactly the labels. -/
theorem isValidNamespace_iff (name : Text) : isValidNamespace name = true ↔ IsLabel name := by
  have hall : (name.takeWhile isLabelByte).length = name.length ↔
      ∀ b ∈ name, isLabelByte b = true := by
    rw [← List.takeWhile_eq_self_iff]
    constructor
    · intro h
      exact (List.takeWhile_prefix isLabelByte).eq_of_length h
    · intro h
      rw [h]
  unfold isValidNamespace
  dsimp only
  split
  · rename_i hlen
    refine ⟨fun h => absurd h (by simp), fun h => ?_⟩
    have h1 := h.pos
    have h2 := h.le
    simp only [maxNamespaceSize] at hlen
    omega
  · rename_i hlen
    simp only [maxNamespaceSize, not_or, not_le, ge_iff_le] at hlen
    rw [decide_eq_true_iff, hall]
    constructor
    · rintro ⟨h1, h2, h3⟩
      exact ⟨by omega, by omega, h1, h2, h3⟩
    · intro h
      exact ⟨h.bytes, h.head, h.last⟩

theorem IsLabel.noNul {name : Text} (h : IsLabel name) : 0 ∉ name := fun h0 =>
  absurd (h.bytes 0 h0) (by decide)

theorem IsLabel.ne_nil {name : Text} (h : IsLabel name) : name ≠ [] := fun he => by
  have := h.pos
  rw [he] at this
  exact absurd this (by decide)

/-- Surrounding spaces, tabs, CRs and newlines removed. -/
def trim (content : List Byte) : List Byte :=
  (content.rdropWhile (· ∈ whitespace)).dropWhile (· ∈ whitespace)

/-- `DEPLOYMENT_ENV` when it is set and not empty. -/
def envName (env : Option CString) : Option Text :=
  env.bind fun e => if e.bytes ≠ [] then some e.bytes else none

/-- **The name the user configured.** -/
def configuredName (env : Option CString) (file : Option (List Byte)) : Option (List Byte) :=
  match envName env with
  | some name => some name
  | none => file.map trim

/-! ## 2. The text the code validates -/

/-- What `read_trimmed` leaves of a file that fits, read as a C string. -/
def fileText (content : List Byte) : Text :=
  (cstr (content.rdropWhile fun b => b ∈ whitespace ∨ b = 0)).dropWhile (· ∈ whitespace)

/-- The text `is_valid_namespace` is asked about. -/
def namespaceText (env : Option CString) (file : Option (List Byte)) : Option Text :=
  match envName env with
  | some name => some (snprintf maxNamespaceSize name)
  | none => (readTrimmed file maxNamespaceSize).map cstr

/-- Skipping the blanks in front of a C string. -/
theorem cstr_drop_strspn (buf : List Byte) (set : Text) :
    cstr (buf.drop (strspn (cstr buf) set)) = (cstr buf).dropWhile (· ∈ set) := by
  induction buf with
  | nil => rfl
  | cons b l ih =>
    by_cases h0 : b = 0
    · subst h0
      simp [cstr, strspn]
    · have hc : cstr (b :: l) = b :: cstr l := by simp [cstr, h0]
      by_cases hb : b ∈ set
      · have hs : strspn (cstr (b :: l)) set = strspn (cstr l) set + 1 := by
          rw [hc]
          simp [strspn, hb]
        rw [hs, List.drop_succ_cons, ih, hc, List.dropWhile_cons_of_pos (by simpa using hb)]
      · have hs : strspn (cstr (b :: l)) set = 0 := by
          rw [hc]
          simp [strspn, hb]
        rw [hs, List.drop_zero, hc, List.dropWhile_cons_of_neg (by simpa using hb)]

/-- `read_trimmed`, as the text it yields. -/
theorem readTrimmed_text (content : List Byte) (size : Nat) :
    (readTrimmed (some content) size).map cstr =
      if content.length < size ∧ fileText content ≠ [] then some (fileText content) else none := by
  have htext : cstr ((content.rdropWhile fun b => b ∈ whitespace ∨ b = 0).drop
      (strspn (cstr (content.rdropWhile fun b => b ∈ whitespace ∨ b = 0)) whitespace))
        = fileText content := cstr_drop_strspn _ _
  unfold readTrimmed
  dsimp only
  rw [List.length_take]
  by_cases hlen : content.length < size
  · rw [if_neg (by omega), List.take_of_length_le (by omega), htext]
    by_cases hne : fileText content = []
    · rw [if_neg (not_not.mpr hne), if_neg fun h => h.2 hne, Option.map_none]
    · rw [if_pos hne, if_pos (And.intro hlen hne), Option.map_some, htext]
  · rw [if_pos (by omega), if_neg fun h => hlen h.1, Option.map_none]

/-- **`resolve_namespace` in one line**: the text it validates, if that is a label. -/
theorem resolveNamespace_cases (env : Option CString) (file : Option (List Byte)) :
    (∃ name, namespaceText env file = some name ∧ IsLabel name ∧
        resolveNamespace env file maxNamespaceSize = .ok name) ∨
      ((∀ name, namespaceText env file = some name → ¬ IsLabel name) ∧
        ∃ error, resolveNamespace env file maxNamespaceSize = .error error ∧ error ≠ []) := by
  have hquote : ∀ text rest : Text, snprintf errorSize (ascii "'" ++ text ++ rest) ≠ [] :=
    fun text rest => snprintf_errorSize_ne_nil (by simp [ascii])
  have hvalid : ∀ text : Text, namespaceText env file = some text →
      resolveNamespace env file maxNamespaceSize =
        (if isValidNamespace text then .ok text
         else .error (snprintf errorSize
          (ascii "'" ++ text ++ ascii "' is not a valid namespace name"))) →
      (∃ name, namespaceText env file = some name ∧ IsLabel name ∧
          resolveNamespace env file maxNamespaceSize = .ok name) ∨
        ((∀ name, namespaceText env file = some name → ¬ IsLabel name) ∧
          ∃ error, resolveNamespace env file maxNamespaceSize = .error error ∧ error ≠ []) := by
    intro text ht hr
    rw [hr]
    by_cases hv : isValidNamespace text = true
    · exact Or.inl ⟨text, ht, (isValidNamespace_iff text).mp hv, by rw [if_pos hv]⟩
    · refine Or.inr ⟨fun name hn hl => ?_, _, by rw [if_neg hv], hquote _ _⟩
      rw [ht, Option.some.injEq] at hn
      exact hv ((isValidNamespace_iff text).mpr (hn ▸ hl))
  cases henv : envName env with
  | some name =>
    have hname : ∃ e, env = some e ∧ e.bytes = name ∧ e.bytes ≠ [] := by
      simp only [envName, Option.bind_eq_some_iff] at henv
      obtain ⟨e, rfl, he⟩ := henv
      split at he
      · rename_i hne
        exact ⟨e, rfl, Option.some.inj he, hne⟩
      · exact absurd he (by simp)
    obtain ⟨e, rfl, rfl, hne⟩ := hname
    refine hvalid (snprintf maxNamespaceSize e.bytes) (by rw [namespaceText, henv]) ?_
    simp only [resolveNamespace, if_pos hne]
  | none =>
    -- an empty variable is no variable
    have hfile : resolveNamespace env file maxNamespaceSize =
        resolveNamespace none file maxNamespaceSize := by
      cases env with
      | none => rfl
      | some e =>
        have he : ¬ e.bytes ≠ [] := fun hne => by
          simp only [envName, Option.bind_some, if_pos hne] at henv
          exact absurd henv (by simp)
        exact if_neg he
    cases hread : readTrimmed file maxNamespaceSize with
    | none =>
      have herror : ∃ error, resolveNamespace env file maxNamespaceSize = .error error ∧
          error ≠ [] := by
        rw [hfile]
        simp only [resolveNamespace, hread]
        exact ⟨_, rfl, snprintf_errorSize_ne_nil (by simp [ascii])⟩
      refine Or.inr ⟨fun name hn => ?_, herror⟩
      rw [namespaceText, henv, hread] at hn
      exact absurd hn (by simp)
    | some buf =>
      refine hvalid (cstr buf) (by rw [namespaceText, henv, hread]; rfl) ?_
      rw [hfile]
      simp only [resolveNamespace, hread]

/-! ## 3. The law -/

/-- The URL of a label fits its buffer of 256 bytes. -/
theorem IsLabel.url_fits {name : Text} (h : IsLabel name) :
    snprintf 256 (podsEndpoint name) = podsEndpoint name := by
  refine snprintf_eq ?_
  have hpre : urlPrefix.length = 49 := by simp [urlPrefix, ascii]
  have hpods : (ascii "/pods").length = 5 := by decide
  have hquery : podsQuery.length = 87 := by simp [podsQuery, ascii]
  have hle := h.le
  simp only [podsEndpoint, List.length_append, hpre, hpods, hquery]
  omega

/-- **The namespace requested is the namespace configured.** -/
structure NamespaceLaw (env : Option CString) (a : Answer) : Prop where
  accepts : (∃ buf, resolveNamespace env a.namespaceFile maxNamespaceSize = .ok buf) ↔
    ∃ name, configuredName env a.namespaceFile = some name ∧ IsLabel name
  /-- the buffer holds the name, and the URL is the complete endpoint of it -/
  same : ∀ buf, resolveNamespace env a.namespaceFile maxNamespaceSize = .ok buf →
    configuredName env a.namespaceFile = some buf ∧
      ∀ token, readTrimmed a.tokenFile maxTokenSize = some token →
        ∃ request, (podListFetch env a).request = some request ∧ request.url = podsEndpoint buf
  refuses : ∀ error, resolveNamespace env a.namespaceFile maxNamespaceSize = .error error →
    error ≠ [] ∧ (podListFetch env a).list = .error error ∧ (podListFetch env a).request = none

/-- What is validated and what is configured are the same label, or neither is one. -/
structure Agrees (env : Option CString) (file : Option (List Byte)) : Prop where
  sound : ∀ text, namespaceText env file = some text → IsLabel text →
    configuredName env file = some text
  complete : ∀ name, configuredName env file = some name → IsLabel name →
    namespaceText env file = some name

theorem namespaceLaw_iff_agrees (env : Option CString) (a : Answer) :
    NamespaceLaw env a ↔ Agrees env a.namespaceFile := by
  constructor
  · intro h
    constructor
    · intro text ht hl
      rcases resolveNamespace_cases env a.namespaceFile with ⟨name, hn, -, hr⟩ | ⟨hno, -⟩
      · rw [ht, Option.some.injEq] at hn
        subst hn
        exact (h.same text hr).1
      · exact absurd hl (hno text ht)
    · intro name hn hl
      obtain ⟨buf, hbuf⟩ := h.accepts.mpr ⟨name, hn, hl⟩
      rcases resolveNamespace_cases env a.namespaceFile with ⟨text, ht, -, hr⟩ | ⟨-, e, hr, -⟩
      · have hsame := (h.same text hr).1
        rw [hn, Option.some.injEq] at hsame
        exact hsame ▸ ht
      · exact absurd (hbuf.symm.trans hr) (by simp)
  · intro h
    rcases resolveNamespace_cases env a.namespaceFile with ⟨text, ht, hl, hr⟩ | ⟨hno, e, hr, hne⟩
    · refine ⟨⟨fun _ => ⟨text, h.sound text ht hl, hl⟩, fun _ => ⟨text, hr⟩⟩, ?_, ?_⟩
      · intro buf hbuf
        have hbt : text = buf := Except.ok.inj (hr.symm.trans hbuf)
        subst hbt
        refine ⟨h.sound text ht hl, fun token htok => ?_⟩
        simp only [podListFetch, hr, htok, hl.url_fits]
        exact ⟨_, rfl, rfl⟩
      · intro error herr
        exact absurd (hr.symm.trans herr) (by simp)
    · refine ⟨⟨?_, ?_⟩, ?_, ?_⟩
      · rintro ⟨buf, hbuf⟩
        exact absurd (hr.symm.trans hbuf) (by simp)
      · rintro ⟨name, hn, hl⟩
        exact absurd hl (hno name (h.complete name hn hl))
      · intro buf hbuf
        exact absurd (hr.symm.trans hbuf) (by simp)
      · intro error herr
        have he : e = error := Except.error.inj (hr.symm.trans herr)
        subst he
        simp only [podListFetch, hr]
        exact ⟨hne, trivial, trivial⟩

/-- The inputs on which the code validates another name than the configured one. -/
def Misread (env : Option CString) (file : Option (List Byte)) : Prop :=
  match envName env with
  -- cut at 63 bytes, the rest of the name is never looked at
  | some name => 64 ≤ name.length ∧ IsLabel (name.take 63)
  | none => ∃ content, file = some content ∧
      -- the file is refused for its length, blanks included
      (64 ≤ content.length ∧ IsLabel (trim content) ∨
        -- what follows a NUL is never looked at
        content.length < 64 ∧ 0 ∈ content ∧ IsLabel (fileText content))

theorem mem_of_mem_rdropWhile {p : Byte → Bool} {b : Byte} {l : List Byte} (hb : b ∈ l)
    (hp : p b = false) : b ∈ l.rdropWhile p := by
  rw [← List.rdropWhile_append_rtakeWhile (p := p) (l := l)] at hb
  rcases List.mem_append.mp hb with hb | hb
  · exact hb
  · have := List.mem_rtakeWhile_imp hb
    rw [hp] at this
    exact absurd this (by decide)

theorem mem_of_mem_dropWhile {p : Byte → Bool} {b : Byte} {l : List Byte} (hb : b ∈ l)
    (hp : p b = false) : b ∈ l.dropWhile p := by
  rw [← List.takeWhile_append_dropWhile (p := p) (l := l)] at hb
  rcases List.mem_append.mp hb with hb | hb
  · have := List.mem_takeWhile_imp hb
    rw [hp] at this
    exact absurd this (by decide)
  · exact hb

theorem dropWhile_congr {p q : Byte → Bool} {l : List Byte} (h : ∀ b ∈ l, p b = q b) :
    l.dropWhile p = l.dropWhile q := by
  induction l with
  | nil => rfl
  | cons b l ih =>
    have hl : l.dropWhile p = l.dropWhile q := ih fun c hc => h c (List.mem_cons_of_mem b hc)
    rw [List.dropWhile_cons, List.dropWhile_cons, h b List.mem_cons_self, hl]

/-- Without a NUL the code reads the file as it is meant to be read. -/
theorem fileText_eq_trim {content : List Byte} (h : 0 ∉ content) :
    fileText content = trim content := by
  have hr : (content.rdropWhile fun b => b ∈ whitespace ∨ b = 0)
      = content.rdropWhile (· ∈ whitespace) := by
    unfold List.rdropWhile
    congr 1
    refine dropWhile_congr fun b hb => ?_
    have hb0 : b ≠ 0 := fun he => h (he ▸ List.mem_reverse.mp hb)
    simp [hb0]
  have h0 : 0 ∉ content.rdropWhile (· ∈ whitespace) := fun hm =>
    h ((List.rdropWhile_prefix _ _).subset hm)
  rw [fileText, trim, hr, cstr_eq_self h0]

/-- With one, the trimmed content is no label. -/
theorem not_isLabel_trim {content : List Byte} (h : 0 ∈ content) : ¬ IsLabel (trim content) :=
  fun hl => hl.noNul (mem_of_mem_dropWhile (mem_of_mem_rdropWhile h (by decide)) (by decide))

section Agreement

variable {env : Option CString} {content : List Byte}

/-- Of `DEPLOYMENT_ENV` the first 63 bytes are taken. -/
theorem agrees_env_iff {name : List Byte} (henv : envName env = some name)
    (file : Option (List Byte)) :
    Agrees env file ↔ ¬ (64 ≤ name.length ∧ IsLabel (name.take 63)) := by
  have ht : namespaceText env file = some (name.take 63) := by rw [namespaceText, henv]; rfl
  have hc : configuredName env file = some name := by rw [configuredName, henv]
  constructor
  · rintro h ⟨hlen, hl⟩
    have heq := h.sound _ ht hl
    rw [hc, Option.some.injEq] at heq
    have := congrArg List.length heq
    rw [List.length_take] at this
    omega
  · intro h
    constructor
    · intro text htext hl
      rw [ht, Option.some.injEq] at htext
      subst htext
      rw [hc, List.take_of_length_le]
      by_contra hlen
      exact h ⟨by omega, hl⟩
    · intro n hn hl
      rw [hc, Option.some.injEq] at hn
      subst hn
      rw [ht, List.take_of_length_le hl.le]

theorem configuredName_file (henv : envName env = none) (file : Option (List Byte)) :
    configuredName env file = file.map trim := by
  rw [configuredName, henv]

theorem namespaceText_file (henv : envName env = none) (file : Option (List Byte)) :
    namespaceText env file = (readTrimmed file maxNamespaceSize).map cstr := by
  rw [namespaceText, henv]

theorem agrees_noFile (henv : envName env = none) : Agrees env none := by
  constructor
  · intro text htext
    rw [namespaceText_file henv] at htext
    exact absurd htext (by simp [readTrimmed])
  · intro name hn
    rw [configuredName_file henv] at hn
    exact absurd hn (by simp)

/-- A file that does not fit is refused. -/
theorem agrees_long_iff (henv : envName env = none) (hlen : 64 ≤ content.length) :
    Agrees env (some content) ↔ ¬ IsLabel (trim content) := by
  have hc := configuredName_file henv (some content)
  have ht := namespaceText_file henv (some content)
  rw [Option.map_some] at hc
  rw [readTrimmed_text, if_neg fun h => Nat.not_lt.mpr hlen h.1] at ht
  constructor
  · intro h hl
    exact absurd ((h.complete _ hc hl).symm.trans ht) (by simp)
  · intro h
    constructor
    · intro text htext
      exact absurd (htext.symm.trans ht) (by simp)
    · intro name hn hl
      rw [hc, Option.some.injEq] at hn
      exact absurd (hn ▸ hl) h

/-- With a NUL in it what is configured is no label, so the code must find none either. -/
theorem agrees_nul_iff (henv : envName env = none) (hlen : content.length < maxNamespaceSize)
    (h0 : 0 ∈ content) : Agrees env (some content) ↔ ¬ IsLabel (fileText content) := by
  have hc := configuredName_file henv (some content)
  have ht := namespaceText_file henv (some content)
  rw [Option.map_some] at hc
  rw [readTrimmed_text] at ht
  constructor
  · intro h hl
    have hs := h.sound (fileText content) (by rw [ht, if_pos ⟨hlen, hl.ne_nil⟩]) hl
    rw [hc, Option.some.injEq] at hs
    exact not_isLabel_trim h0 (hs ▸ hl)
  · intro h
    constructor
    · intro text htext hl
      rw [ht] at htext
      split at htext
      · rw [Option.some.injEq] at htext
        exact absurd (htext ▸ hl) h
      · exact absurd htext (by simp)
    · intro name hn hl
      rw [hc, Option.some.injEq] at hn
      exact absurd (hn ▸ hl) (not_isLabel_trim h0)

theorem agrees_plain (henv : envName env = none) (hlen : content.length < maxNamespaceSize)
    (h0 : 0 ∉ content) : Agrees env (some content) := by
  have hc := configuredName_file henv (some content)
  have ht := namespaceText_file henv (some content)
  rw [Option.map_some] at hc
  rw [readTrimmed_text, fileText_eq_trim h0] at ht
  constructor
  · intro text htext hl
    rw [ht] at htext
    split at htext
    · exact hc.trans htext
    · exact absurd htext (by simp)
  · intro name hn hl
    rw [hc, Option.some.injEq] at hn
    subst hn
    rw [ht, if_pos ⟨hlen, hl.ne_nil⟩]

/-- **Where the two names agree**: everywhere but on the misread inputs. -/
theorem agrees_iff (env : Option CString) (file : Option (List Byte)) :
    Agrees env file ↔ ¬ Misread env file := by
  unfold Misread
  cases henv : envName env with
  | some name => exact agrees_env_iff henv file
  | none =>
    cases file with
    | none => exact iff_of_true (agrees_noFile henv) (by rintro ⟨content, hf, -⟩; cases hf)
    | some content =>
      simp only [Option.some.injEq, exists_eq_left']
      by_cases hlen : content.length < 64
      · have hshort : ¬ 64 ≤ content.length := Nat.not_le.mpr hlen
        by_cases h0 : 0 ∈ content
        · rw [agrees_nul_iff henv hlen h0]
          simp only [hshort, hlen, h0, false_and, true_and, false_or]
        · refine iff_of_true (agrees_plain henv hlen h0) ?_
          simp only [hshort, h0, false_and, and_false, or_self, not_false_eq_true]
      · have hlong : 64 ≤ content.length := Nat.le_of_not_lt hlen
        rw [agrees_long_iff henv hlong]
        simp only [hlong, hlen, true_and, false_and, or_false]

end Agreement

/-- **When the namespace requested is the namespace configured**: exactly when the input is not
misread. -/
theorem namespace_requested_iff (env : Option CString) (a : Answer) :
    NamespaceLaw env a ↔ ¬ Misread env a.namespaceFile :=
  (namespaceLaw_iff_agrees env a).trans (agrees_iff env a.namespaceFile)

/-- A `DEPLOYMENT_ENV` of 64 letters. -/
def longEnv : CString := ⟨List.replicate 64 97, by simp⟩

/-- The pods of another namespace are requested: that of the first 63 letters. -/
theorem namespace_longEnv_cut :
    ¬ NamespaceLaw (some longEnv) (onePod none) ∧
      ¬ IsLabel longEnv.bytes ∧
      resolveNamespace (some longEnv) none maxNamespaceSize = .ok (List.replicate 63 97) := by
  have hr : resolveNamespace (some longEnv) none maxNamespaceSize
      = .ok (List.replicate 63 97) := by decide +kernel
  refine ⟨fun h => ?_, fun h => ?_, hr⟩
  · have hsame := (h.same _ hr).1
    exact absurd hsame (by decide +kernel)
  · exact absurd h.le (by decide)

end Unicaster
