/-
# Which addresses a pod list holds

`parse_pod_list` filters, prints, sorts and drops neighbouring duplicates in place.  The first
section is about that last loop alone: it is `List.destutter`.  The rest composes the four
into one statement: the list holds exactly the addresses of the eligible pods among the first
`MAX_PODS` items, in the order of `strcmp` and once each (`Exact`), and there is one such list
only.

The bound is applied to the items and not to the addresses, and the last section says what
that costs.
-/
import Unicaster.Announce
import Unicaster.PodCache
import Mathlib.Data.List.Destutter

namespace Unicaster

open CLib

/-! ## 1. The loop that drops duplicates in place -/

/-- **The invariant of the loop**, over what it has still to read.  The slots in front of
`unique` are the result so far, the last of them is `b`; between them and the unread ones lie
the slots that may be written over. -/
theorem foldl_compactStep (b : Text) (rest : List Text) :
    ∀ kept mid : List Text,
      let final := (List.range' (kept.length + 1 + mid.length) rest.length).foldl compactStep
        (kept ++ b :: (mid ++ rest), kept.length + 1)
      final.1.take final.2 = kept ++ rest.destutter' (· ≠ ·) b := by
  induction rest generalizing b with
  | nil =>
    intro kept mid
    have hsplit : kept ++ b :: (mid ++ []) = (kept ++ [b]) ++ mid := by simp
    simp only [List.length_nil, List.range'_zero, List.foldl_nil, hsplit, List.destutter'_nil]
    exact List.take_left' (by simp)
  | cons x rest ih =>
    intro kept mid
    have hlast : (kept ++ b :: (mid ++ x :: rest)).getD (kept.length + 1 - 1) [] = b := by
      simp
    have hread : (kept ++ b :: (mid ++ x :: rest)).getD (kept.length + 1 + mid.length) [] = x := by
      have hsplit : kept ++ b :: (mid ++ x :: rest) = (kept ++ b :: mid) ++ x :: rest := by simp
      have hlen : kept.length + 1 + mid.length = (kept ++ b :: mid).length := by
        simp only [List.length_append, List.length_cons]
        omega
      rw [hsplit, hlen]
      simp
    rw [List.length_cons, List.range'_succ, List.foldl_cons]
    by_cases hbx : b = x
    · -- a duplicate: its slot joins those that may be written over
      subst hbx
      have hstep : compactStep (kept ++ b :: (mid ++ b :: rest), kept.length + 1)
          (kept.length + 1 + mid.length) =
            (kept ++ b :: ((mid ++ [b]) ++ rest), kept.length + 1) := by
        simp only [compactStep, hlast, hread]
        simp
      have h := ih b kept (mid ++ [b])
      rw [List.length_append, List.length_singleton, ← Nat.add_assoc] at h
      rw [hstep, List.destutter'_cons_neg _ (by simp)]
      exact h
    · -- a new address: it is written behind the last one
      have hstep : compactStep (kept ++ b :: (mid ++ x :: rest), kept.length + 1)
          (kept.length + 1 + mid.length) =
            ((kept ++ [b]) ++ x :: ((mid ++ [x]).tail ++ rest), kept.length + 1 + 1) := by
        have hset : (mid ++ x :: rest).set 0 x = x :: ((mid ++ [x]).tail ++ rest) := by
          cases mid <;> simp
        simp only [compactStep, hlast, hread]
        rw [if_pos (Or.inr hbx), List.set_append_right _ _ (by omega), Nat.add_sub_cancel_left,
          List.set_cons_succ, hset]
        simp
      have h := ih x (kept ++ [b]) (mid ++ [x]).tail
      have hidx : (kept ++ [b]).length + 1 + (mid ++ [x]).tail.length =
          kept.length + 1 + mid.length + 1 := by
        simp only [List.length_append, List.length_singleton, List.length_tail]
        omega
      have huniq : (kept ++ [b]).length + 1 = kept.length + 1 + 1 := by simp
      rw [hidx, huniq] at h
      rw [hstep, List.destutter'_cons_pos _ hbx]
      refine h.trans ?_
      simp

/-- **The loop keeps of every run of equal neighbours the first.** -/
theorem compact_eq_destutter (ips : List Text) : compact ips = ips.destutter (· ≠ ·) := by
  cases ips with
  | nil => rfl
  | cons b rest =>
    have h := foldl_compactStep b rest [] []
    have hfirst : compactStep (b :: rest, 0) 0 = (b :: rest, 1) := by simp [compactStep]
    rw [compact, List.range_eq_range', List.length_cons, List.range'_succ, List.foldl_cons, hfirst]
    exact h

/-- On a sorted array the loop keeps each element once. -/
theorem mem_compact_of_sorted {ips : List Text} (hs : ips.Pairwise (· ≤ ·)) (s : Text) :
    s ∈ compact ips ↔ s ∈ ips := by
  rw [compact_eq_destutter, hs.destutter_eq_dedup, List.mem_dedup]

theorem compact_length_le (ips : List Text) : (compact ips).length ≤ ips.length := by
  rw [compact_eq_destutter]
  exact (List.destutter_sublist _ ips).length_le

/-- ... and what is left of a sorted array increases strictly. -/
theorem compact_increasing {ips : List Text} (hs : ips.Pairwise (· ≤ ·)) :
    (compact ips).Pairwise (· < ·) := by
  have hnodup : (compact ips).Nodup := by
    rw [compact_eq_destutter, hs.destutter_eq_dedup]
    exact List.nodup_dedup ips
  have hle : (compact ips).Pairwise (· ≤ ·) := by
    rw [compact_eq_destutter]
    exact hs.sublist (List.destutter_sublist _ ips)
  exact (hle.and hnodup).imp fun h => Std.lt_of_le_of_ne h.1 h.2

/-! ## 2. Eligible pods -/

/-- The status of a pod that has ended. -/
def Json.Finished (status : Json) : Prop :=
  ∃ phase, status.objectGetEx (ascii "phase") = some (.string phase) ∧
    (cstr phase = ascii "Succeeded" ∨ cstr phase = ascii "Failed")

/-- The item is a pod that has not ended, and its `status.podIP` is the IPv4 address `a`. -/
def Json.PodAt (item : Json) (a : InAddr) : Prop :=
  ∃ status podIp, item.objectGetEx (ascii "status") = some status ∧ ¬ status.Finished ∧
    status.objectGetEx (ascii "podIP") = some (.string podIp) ∧ inetPton (cstr podIp) = some a

/-- Some of the items is a pod at `a`. -/
def Eligible (items : List Json) (a : InAddr) : Prop := ∃ item ∈ items, item.PodAt a

/-- The array of a pod list: the root is an object and its `items` is an array. -/
def podItems (root : Option Json) : Option (List Json) :=
  match root.bind (·.objectGetEx (ascii "items")) with
  | some (.array items) => some items
  | _ => none

theorem getString_eq_some_iff {j : Json} {text : Text} :
    j.getString = some text ↔ ∃ bytes, j = .string bytes ∧ cstr bytes = text := by
  cases j <;> simp [Json.getString]

theorem isFinished_iff {status : Json} : isFinished status = true ↔ status.Finished := by
  unfold isFinished Json.Finished
  cases status.objectGetEx (ascii "phase") with
  | none => simp
  | some phase => cases phase <;> simp [Json.getString]

/-- **The filter of the loop is the definition of a pod at an address.** -/
theorem podAddress_eq_some_iff {item : Json} {ip : Text} :
    podAddress item = some ip ↔ ∃ a, item.PodAt a ∧ inetNtop a = ip := by
  constructor
  · intro h
    obtain ⟨status, hstatus, h⟩ := Option.bind_eq_some_iff.mp h
    split at h
    · exact absurd h (by simp)
    · rename_i hfin
      obtain ⟨podIp, hpod, h⟩ := Option.bind_eq_some_iff.mp h
      obtain ⟨text, htext, h⟩ := Option.bind_eq_some_iff.mp h
      obtain ⟨a, ha, hip⟩ := Option.bind_eq_some_iff.mp h
      obtain ⟨bytes, rfl, rfl⟩ := getString_eq_some_iff.mp htext
      exact ⟨a, ⟨status, bytes, hstatus, fun hf => hfin (isFinished_iff.mpr hf), hpod, ha⟩,
        Option.some.inj hip⟩
  · rintro ⟨a, ⟨status, bytes, hstatus, hfin, hpod, ha⟩, rfl⟩
    have hnot : isFinished status ≠ true := fun h => hfin (isFinished_iff.mp h)
    unfold podAddress
    simp only [hstatus, hpod, Json.getString, ha, if_neg hnot, Option.bind_eq_bind,
      Option.bind_some, Option.pure_def]

theorem mem_podAddresses {items : List Json} {a : InAddr} :
    inetNtop a ∈ items.filterMap podAddress ↔ Eligible items a := by
  rw [List.mem_filterMap]
  constructor
  · rintro ⟨item, hm, h⟩
    obtain ⟨b, hb, heq⟩ := podAddress_eq_some_iff.mp h
    exact ⟨item, hm, inetNtop_injective heq ▸ hb⟩
  · rintro ⟨item, hm, h⟩
    exact ⟨item, hm, podAddress_eq_some_iff.mpr ⟨a, h, rfl⟩⟩

theorem Eligible.mono {items items' : List Json} {a : InAddr} (hsub : items ⊆ items')
    (h : Eligible items a) : Eligible items' a := by
  obtain ⟨item, hm, hp⟩ := h
  exact ⟨item, hsub hm, hp⟩

/-! ## 3. Exactly the eligible addresses -/

/-- A slot of a `PodList`: a dotted quad in its one canonical spelling, terminated within
the slot, that `send_unicast_message` sends to. -/
structure IsQuad (ip : Text) : Prop where
  canonical : ∃ a, ip = inetNtop a
  terminated : 0 ∉ ip ∧ ip.length < inetAddrstrlen
  sent : ∀ o : SendOutcome, o.socketOk = true → o.sendtoOk = true → sendUnicastMessage ip o = none

theorem isQuad_inetNtop (a : InAddr) : IsQuad (inetNtop a) where
  canonical := ⟨a, rfl⟩
  terminated :=
    ⟨not_mem_inetNtop (by decide) (by decide), Nat.lt_succ_of_le (inetNtop_length_le a)⟩
  sent := by
    intro o hs ht
    rw [sendUnicastMessage, inetPton_inetNtop]
    exact if_pos ⟨hs, ht⟩

/-- **What `parse_pod_list` makes of an array**: the addresses of the eligible pods among its
first `MAX_PODS` items, in the order of `strcmp` and once each. -/
structure Exact (items : List Json) (ips : List Text) : Prop where
  increasing : ips.Pairwise fun s t => strcmp s t < 0
  short : ips.length ≤ min items.length maxPods
  quad : ∀ ip ∈ ips, IsQuad ip
  mem_iff : ∀ a, inetNtop a ∈ ips ↔ Eligible (items.take maxPods) a

/-- `strcmp` orders the addresses of a list as texts. -/
theorem Exact.sorted {items : List Json} {ips : List Text} (h : Exact items ips) :
    ips.Pairwise (· < ·) :=
  h.increasing.imp_of_mem fun hs ht hlt =>
    (strcmp_neg_iff (h.quad _ hs).terminated.1 (h.quad _ ht).terminated.1).mp hlt

/-- Two lists that increase strictly and have the same members are one list. -/
theorem eq_of_sorted_of_mem_iff {l l' : List Text} (h : l.Pairwise (· < ·))
    (h' : l'.Pairwise (· < ·)) (hm : ∀ s, s ∈ l ↔ s ∈ l') : l = l' := by
  have hne : ∀ {s t : Text}, s < t → s ≠ t := fun hlt heq => Std.lt_irrefl (heq ▸ hlt)
  have hnd : l.Nodup := h.imp hne
  have hnd' : l'.Nodup := h'.imp hne
  exact ((List.perm_ext_iff_of_nodup hnd hnd').mpr hm).eq_of_pairwise
    (fun a b _ _ hab hba => absurd (Std.lt_trans hab hba) Std.lt_irrefl) h h'

/-- **Only the set of eligible addresses counts.** -/
theorem Exact.unique {items items' : List Json} {ips ips' : List Text} (h : Exact items ips)
    (h' : Exact items' ips')
    (hsame : ∀ a, Eligible (items.take maxPods) a ↔ Eligible (items'.take maxPods) a) :
    ips = ips' := by
  refine eq_of_sorted_of_mem_iff h.sorted h'.sorted fun s => ⟨fun hs => ?_, fun hs => ?_⟩
  · obtain ⟨a, rfl⟩ := (h.quad s hs).canonical
    exact (h'.mem_iff a).mpr ((hsame a).mp ((h.mem_iff a).mp hs))
  · obtain ⟨a, rfl⟩ := (h'.quad s hs).canonical
    exact (h.mem_iff a).mpr ((hsame a).mpr ((h'.mem_iff a).mp hs))

/-- The steps of `parse_pod_list` on an array, composed. -/
theorem exact_compact (items : List Json) :
    Exact items
      (compact (((items.take maxPods).filterMap podAddress).insertionSort (· ≤ ·))) := by
  have hs : (((items.take maxPods).filterMap podAddress).insertionSort (· ≤ ·)).Pairwise (· ≤ ·) :=
    List.pairwise_insertionSort _ _
  have hmem : ∀ s, s ∈ compact (((items.take maxPods).filterMap podAddress).insertionSort (· ≤ ·)) ↔
      s ∈ (items.take maxPods).filterMap podAddress := fun s => by
    rw [mem_compact_of_sorted hs, List.mem_insertionSort]
  have hquad : ∀ s ∈ compact (((items.take maxPods).filterMap podAddress).insertionSort (· ≤ ·)),
      IsQuad s := fun s hm => by
    obtain ⟨item, -, hp⟩ := List.mem_filterMap.mp ((hmem s).mp hm)
    obtain ⟨a, -, rfl⟩ := podAddress_eq_some_iff.mp hp
    exact isQuad_inetNtop a
  refine ⟨?_, ?_, hquad, fun a => (hmem _).trans mem_podAddresses⟩
  · exact (compact_increasing hs).imp_of_mem fun hm hm' hlt =>
      (strcmp_neg_iff (hquad _ hm).terminated.1 (hquad _ hm').terminated.1).mpr hlt
  · calc
      _ ≤ (((items.take maxPods).filterMap podAddress).insertionSort (· ≤ ·)).length :=
        compact_length_le _
      _ = ((items.take maxPods).filterMap podAddress).length := List.length_insertionSort _ _
      _ ≤ (items.take maxPods).length := List.length_filterMap_le _ _
      _ = min items.length maxPods := by rw [List.length_take, Nat.min_comm]

theorem parsePodList_of_items {root : Option Json} {items : List Json}
    (h : podItems root = some items) :
    ∃ ips, parsePodList root true = .ok ips ∧ Exact items ips := by
  unfold podItems at h
  cases root with
  | none => exact absurd h (by simp)
  | some r =>
    simp only [Option.bind_some] at h
    split at h
    · rename_i items' hitems
      cases h
      refine ⟨_, ?_, exact_compact items⟩
      simp only [parsePodList, hitems, if_true]
    · exact absurd h (by simp)

theorem parsePodList_error_ne_nil {root : Option Json} {mallocOk : Bool} {error : Text}
    (h : parsePodList root mallocOk = .error error) : error ≠ [] := by
  unfold parsePodList at h
  split at h
  · exact Except.error.inj h ▸ snprintf_errorSize_ne_nil (by decide)
  · split at h
    · split at h
      · exact absurd h (by simp)
      · exact Except.error.inj h ▸ snprintf_errorSize_ne_nil (by decide)
    · exact Except.error.inj h ▸ snprintf_errorSize_ne_nil (by decide)

/-- A list comes out of an array only, and only where it could be allocated. -/
theorem parsePodList_ok {root : Option Json} {mallocOk : Bool} {ips : List Text}
    (h : parsePodList root mallocOk = .ok ips) :
    mallocOk = true ∧ ∃ items, podItems root = some items := by
  unfold parsePodList at h
  split at h
  · exact absurd h (by simp)
  · rename_i r
    split at h
    · rename_i items hitems
      split at h
      · rename_i hok
        exact ⟨hok, items, by simp only [podItems, Option.bind_some, hitems]⟩
      · exact absurd h (by simp)
    · exact absurd h (by simp)

/-- **`parse_pod_list` returns exactly the eligible addresses**, sorted and distinct.  For
arrays within the bound neither the order nor the repetition of items matters, an item that is
no pod at an address has no effect, and whatever is not a list of items is an error with a
reason. -/
theorem parsePodList_exact :
    (∀ root items, podItems root = some items →
      ∃ ips, parsePodList root true = .ok ips ∧ Exact items ips) ∧
    (∀ root items root' items', podItems root = some items → podItems root' = some items' →
      items.length ≤ maxPods → items'.length ≤ maxPods → (∀ item, item ∈ items ↔ item ∈ items') →
      parsePodList root' true = parsePodList root true) ∧
    (∀ root root' front item back, podItems root = some (front ++ item :: back) →
      podItems root' = some (front ++ back) → (front ++ item :: back).length ≤ maxPods →
      (∀ a, ¬ item.PodAt a) → parsePodList root' true = parsePodList root true) ∧
    ∀ root mallocOk, podItems root = none ∨ mallocOk = false →
      ∃ error, parsePodList root mallocOk = .error error ∧ error ≠ [] := by
  have hsame : ∀ {root items root' items'}, podItems root = some items →
      podItems root' = some items' → items.length ≤ maxPods → items'.length ≤ maxPods →
      (∀ a, Eligible items a ↔ Eligible items' a) →
      parsePodList root' true = parsePodList root true := by
    intro root items root' items' h h' hlen hlen' hel
    obtain ⟨ips, hok, hx⟩ := parsePodList_of_items h
    obtain ⟨ips', hok', hx'⟩ := parsePodList_of_items h'
    have heq : ips = ips' := hx.unique hx' fun a => by
      rw [List.take_of_length_le hlen, List.take_of_length_le hlen']
      exact hel a
    rw [hok, hok', heq]
  refine ⟨fun root items h => parsePodList_of_items h, ?_, ?_, ?_⟩
  · intro root items root' items' h h' hlen hlen' hmem
    refine hsame h h' hlen hlen' fun a => ⟨Eligible.mono fun item => (hmem item).mp,
      Eligible.mono fun item => (hmem item).mpr⟩
  · intro root root' front item back h h' hlen hno
    have hlen' : (front ++ back).length ≤ maxPods := by
      simp only [List.length_append, List.length_cons] at hlen ⊢
      omega
    refine hsame h h' hlen hlen' fun a => ⟨?_, Eligible.mono fun j hj => ?_⟩
    · rintro ⟨j, hj, hp⟩
      simp only [List.mem_append, List.mem_cons] at hj
      rcases hj with hj | rfl | hj
      · exact ⟨j, List.mem_append_left _ hj, hp⟩
      · exact absurd hp (hno a)
      · exact ⟨j, List.mem_append_right _ hj, hp⟩
    · simp only [List.mem_append, List.mem_cons] at hj ⊢
      exact hj.imp_right Or.inr
  · intro root mallocOk hno
    cases h : parsePodList root mallocOk with
    | error error => exact ⟨error, rfl, parsePodList_error_ne_nil h⟩
    | ok ips =>
      obtain ⟨hok, items, hitems⟩ := parsePodList_ok h
      rcases hno with hno | hno
      · rw [hno] at hitems
        exact absurd hitems (by simp)
      · rw [hno] at hok
        exact absurd hok (by simp)

/-- A running pod with this `podIP`. -/
def podWith (ip : Text) : Json :=
  .object [(ascii "status", .object [(ascii "podIP", .string ip)])]

/-- Two addresses out of order and one of them twice, a pod that is finished, an item that is
nothing, and an address that is not IPv4. -/
def mixedItems : List Json :=
  [podWith (ascii "10.0.0.9"),
    .object [(ascii "status", .object [(ascii "phase", .string (ascii "Succeeded")),
      (ascii "podIP", .string (ascii "10.0.0.1"))])],
    .null, podWith (ascii "10.0.0.10"), podWith (ascii "fe80::1"), podWith (ascii "10.0.0.9")]

theorem parsePodList_exact_mixed :
    Exact mixedItems [ascii "10.0.0.10", ascii "10.0.0.9"] := by
  obtain ⟨ips, hok, hexact⟩ :=
    parsePodList_exact.1 (some (.object [(ascii "items", .array mixedItems)])) mixedItems rfl
  have hips : parsePodList (some (.object [(ascii "items", .array mixedItems)])) true =
      .ok [ascii "10.0.0.10", ascii "10.0.0.9"] := rfl
  exact Except.ok.inj (hok.symm.trans hips) ▸ hexact

/-! ## 4. The bound comes before the filter

`n_items` is cut to `MAX_PODS` before the loop, so an item without an address takes one of the
places.  Behind the bound nothing is read.
-/

/-- The round goes on to `publish` when the list is not empty. -/
theorem afterFetch_publishing_iff {c : PodCache} (th : Refresher) {l : Nat} {error : Text}
    (hcl : c.closing = false) :
    (c.afterFetch th (some l) error).refresher.map (·.pc) = some (.publishing l) ↔
      (c.lists l).ips ≠ [] := by
  unfold PodCache.afterFetch
  simp only [hcl, Bool.false_eq_true, if_false, PodCache.goto]
  by_cases h0 : (c.lists l).ips = []
  · simp [h0]
  · simp [h0]

/-- **The list misses an eligible address exactly when none of the first `MAX_PODS` items has
it**, and the round is accepted exactly when one of these items has any. -/
theorem parsePodList_complete_iff {root : Option Json} {items : List Json}
    (h : podItems root = some items) :
    ∃ ips, parsePodList root true = .ok ips ∧
      (∀ a, inetNtop a ∈ ips ↔ Eligible (items.take maxPods) a) ∧
      ((∀ a, Eligible items a → inetNtop a ∈ ips) ↔
        ∀ a, Eligible items a → Eligible (items.take maxPods) a) ∧
      (items.length ≤ maxPods → ∀ a, Eligible items a → inetNtop a ∈ ips) ∧
      ∀ (c : PodCache) (th : Refresher) (l : Nat) (error : Text), c.closing = false →
        (c.lists l).ips = ips →
        ((c.afterFetch th (some l) error).refresher.map (·.pc) = some (.publishing l) ↔
          ∃ a, Eligible (items.take maxPods) a) := by
  obtain ⟨ips, hok, hx⟩ := parsePodList_of_items h
  refine ⟨ips, hok, hx.mem_iff, forall_congr' fun a => imp_congr_right fun _ => hx.mem_iff a,
    ?_, ?_⟩
  · intro hlen a ha
    rw [hx.mem_iff, List.take_of_length_le hlen]
    exact ha
  · intro c th l error hcl hl
    rw [afterFetch_publishing_iff th hcl, hl]
    constructor
    · intro hne
      obtain ⟨ip, hip⟩ := List.exists_mem_of_ne_nil _ hne
      obtain ⟨a, rfl⟩ := (hx.quad ip hip).canonical
      exact ⟨a, (hx.mem_iff a).mp hip⟩
    · rintro ⟨a, ha⟩ hnil
      have hm := (hx.mem_iff a).mpr ha
      rw [hnil] at hm
      exact absurd hm (by simp)

/-- A pod at 10.0.0.7. -/
def podSeven : Json := podWith (ascii "10.0.0.7")

theorem not_podAt_null (a : InAddr) : ¬ Json.null.PodAt a := by
  rintro ⟨status, podIp, hstatus, -⟩
  exact absurd hstatus (by simp [Json.objectGetEx])

theorem podSeven_podAt_iff (a : InAddr) : podSeven.PodAt a ↔ a = ⟨10, 0, 0, 7⟩ := by
  have hseven : podAddress podSeven = some (inetNtop ⟨10, 0, 0, 7⟩) := by decide +kernel
  constructor
  · intro h
    have hip := podAddress_eq_some_iff.mpr ⟨a, h, rfl⟩
    exact inetNtop_injective (Option.some.inj (hip.symm.trans hseven))
  · rintro rfl
    obtain ⟨b, hb, heq⟩ := podAddress_eq_some_iff.mp hseven
    exact inetNtop_injective heq ▸ hb

/-- `MAX_PODS` items, the first one a pod and the others nothing, and another pod. -/
def crowdedItems : List Json :=
  podSeven :: List.replicate (maxPods - 1) .null ++ [podWith (ascii "10.0.0.8")]

/-- The pod in front is on the list, and the one behind the bound is not. -/
theorem parsePodList_complete_iff_crowded :
    ∃ ips, parsePodList (some (.object [(ascii "items", .array crowdedItems)])) true = .ok ips ∧
      inetNtop ⟨10, 0, 0, 7⟩ ∈ ips ∧ inetNtop ⟨10, 0, 0, 8⟩ ∉ ips := by
  have hcut : crowdedItems.take maxPods = podSeven :: List.replicate (maxPods - 1) .null := by
    refine List.take_left' ?_
    rw [List.length_cons, List.length_replicate]
    rfl
  obtain ⟨ips, hok, hmem, -⟩ := parsePodList_complete_iff
    (show podItems (some (.object [(ascii "items", .array crowdedItems)])) = some crowdedItems
      from rfl)
  refine ⟨ips, hok, (hmem _).mpr ?_, fun hin => ?_⟩
  · rw [hcut]
    exact ⟨podSeven, List.mem_cons_self, (podSeven_podAt_iff _).mpr rfl⟩
  · obtain ⟨item, hm, hp⟩ := (hmem _).mp hin
    rw [hcut] at hm
    rcases List.mem_cons.mp hm with rfl | hm
    · exact absurd ((podSeven_podAt_iff _).mp hp) (by decide)
    · exact absurd (List.eq_of_mem_replicate hm ▸ hp) (not_podAt_null _)

/-- `MAX_PODS` items that are nothing, and then a pod. -/
def lateItems : List Json := List.replicate maxPods .null ++ [podSeven]

def lateRoot : Json := .object [(ascii "items", .array lateItems)]

theorem eligible_lateItems (a : InAddr) : Eligible lateItems a ↔ a = ⟨10, 0, 0, 7⟩ := by
  rw [← podSeven_podAt_iff]
  constructor
  · rintro ⟨item, hm, hp⟩
    rcases List.mem_append.mp hm with hm | hm
    · exact absurd (List.eq_of_mem_replicate hm ▸ hp) (not_podAt_null a)
    · exact List.mem_singleton.mp hm ▸ hp
  · intro hp
    exact ⟨podSeven, List.mem_append_right _ (List.mem_singleton.mpr rfl), hp⟩

theorem parsePodList_lateRoot : parsePodList (some lateRoot) true = .ok [] := by
  have hitems : podItems (some lateRoot) = some lateItems := rfl
  obtain ⟨ips, hok, hx⟩ := parsePodList_of_items hitems
  have hnil : ips = [] := List.eq_nil_iff_forall_not_mem.mpr fun ip hip => by
    obtain ⟨a, rfl⟩ := (hx.quad ip hip).canonical
    obtain ⟨item, hm, hp⟩ := (hx.mem_iff a).mp hip
    have hcut : lateItems.take maxPods = List.replicate maxPods .null :=
      List.take_left' (by simp)
    rw [hcut] at hm
    exact absurd (List.eq_of_mem_replicate hm ▸ hp) (not_podAt_null a)
  rw [hok, hnil]

/-- **An eligible pod is lost to items that do not count**: one address in all, and the list
is empty. -/
theorem eligible_pod_lost :
    ¬ ∀ (root : Option Json) (items : List Json) (addrs : List InAddr),
      podItems root = some items → addrs.Nodup → 1 ≤ addrs.length → addrs.length ≤ maxPods →
      (∀ a, a ∈ addrs ↔ Eligible items a) →
      ∃ ips, parsePodList root true = .ok ips ∧ (∀ a ∈ addrs, inetNtop a ∈ ips) ∧ ips ≠ [] := by
  intro hall
  obtain ⟨ips, hok, -, hne⟩ := hall (some lateRoot) lateItems [⟨10, 0, 0, 7⟩] rfl (by simp)
    (by decide) (by decide) fun a => by rw [eligible_lateItems, List.mem_singleton]
  rw [parsePodList_lateRoot] at hok
  exact hne (Except.ok.inj hok).symm

end Unicaster
