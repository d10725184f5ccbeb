/-
# The datagrams decode to what was announced

A datagram is a record with tabs in between (`upText_eq`, `downText_eq`), so the text that is
formatted always splits into its fields.  What is sent is that text cut to 255 bytes.  A cut
text is another record, or none, so the datagrams decode exactly when the `up` text fits
(`announcement_decodes_iff`); the `down` text is the shorter one.
-/
import Unicaster.Announce

namespace Unicaster

open CLib

/-! ## 1. The fields -/

/-- `address:port`. -/
def endpointText (a : InAddr) (port : Int) : Text := inetNtop a ++ 58 :: decimal port

def upFields (name : Text) (guid : Guid) (a : InAddr) (port interval : Int) (tls : Bool) :
    List Text :=
  [name, guid.bytes, ascii "up", endpointText a port, decimal interval, transport tls]

def downFields (name : Text) (guid : Guid) (a : InAddr) (port : Int) : List Text :=
  [name, guid.bytes, ascii "down", endpointText a port]

/-- A task holds a dotted quad whole. -/
theorem create_sourceIp (a : InAddr) (port : Int) (tls : Bool) :
    (BroadcastTask.create (inetNtop a) port tls).sourceIp = inetNtop a :=
  snprintf_eq (Nat.lt_succ_of_le (inetNtop_length_le a))

section Fields

variable (name : Text) (guid : Guid) (a : InAddr) (port interval : Int) (tls : Bool)

/-- The `up` text is its six fields with tabs in between. -/
theorem upText_eq :
    upText name guid.bytes (BroadcastTask.create (inetNtop a) port tls) interval =
      List.intercalate [9] (upFields name guid a port interval tls) := by
  have hup : ascii "\tup\t" = 9 :: ascii "up" ++ [9] := rfl
  simp only [upText, create_sourceIp, hup, upFields, endpointText, List.intercalate,
    List.intersperse, List.flatten_cons, List.flatten_nil]
  simp [BroadcastTask.create]

/-- The `down` text is its four fields with tabs in between. -/
theorem downText_eq :
    downText name guid.bytes (BroadcastTask.create (inetNtop a) port tls) =
      List.intercalate [9] (downFields name guid a port) := by
  have hdown : ascii "\tdown\t" = 9 :: ascii "down" ++ [9] := rfl
  simp only [downText, create_sourceIp, hdown, downFields, endpointText, List.intercalate,
    List.intersperse, List.flatten_cons, List.flatten_nil]
  simp [BroadcastTask.create]

theorem upText_length :
    (upText name guid.bytes (BroadcastTask.create (inetNtop a) port tls) interval).length =
      name.length + (inetNtop a).length + (decimal port).length + (decimal interval).length
        + (transport tls).length + 44 := by
  have hup : (ascii "\tup\t").length = 4 := by decide
  simp only [upText, create_sourceIp, List.length_append, List.length_cons, guid.length_eq, hup]
  simp only [BroadcastTask.create]
  omega

theorem downText_length :
    (downText name guid.bytes (BroadcastTask.create (inetNtop a) port tls)).length =
      name.length + (inetNtop a).length + (decimal port).length + 44 := by
  have hdown : (ascii "\tdown\t").length = 6 := by decide
  simp only [downText, create_sourceIp, List.length_append, List.length_cons, guid.length_eq,
    hdown]
  simp only [BroadcastTask.create]
  omega

variable {name}

/-- No field holds a tab, as soon as the name does not. -/
theorem tab_notMem_upFields (hname : 9 ∉ name) :
    ∀ f ∈ upFields name guid a port interval tls, 9 ∉ f := by
  have hguid : 9 ∉ guid.bytes := fun h => absurd (guid.chars 9 h) (by decide)
  have hend : 9 ∉ endpointText a port := by
    simp only [endpointText, List.mem_append, List.mem_cons, not_or]
    exact ⟨not_mem_inetNtop (by decide) (by decide), by decide,
      not_mem_decimal (by decide) (by decide)⟩
  have htls : 9 ∉ transport tls := by cases tls <;> decide
  intro f hf
  simp only [upFields, List.mem_cons, List.not_mem_nil, or_false] at hf
  rcases hf with rfl | rfl | rfl | rfl | rfl | rfl
  · exact hname
  · exact hguid
  · decide
  · exact hend
  · exact not_mem_decimal (by decide) (by decide)
  · exact htls

theorem tab_notMem_downFields (hname : 9 ∉ name) :
    ∀ f ∈ downFields name guid a port, 9 ∉ f := by
  intro f hf
  have hup := tab_notMem_upFields guid a port 0 true hname
  simp only [downFields, List.mem_cons, List.not_mem_nil, or_false] at hf
  rcases hf with rfl | rfl | rfl | rfl
  · exact hname
  · exact hup _ (by simp [upFields])
  · decide
  · exact hup _ (by simp [upFields])

end Fields

/-! ## 2. When a cut record still decodes -/

/-- **A record cut to a bounded buffer decodes exactly when it was not cut.** -/
theorem splitOn_snprintf_iff {size : Nat} {sep : Byte} {f : Text} {fs : List Text}
    (hsize : 0 < size) (h : ∀ g ∈ f :: fs, sep ∉ g) :
    (snprintf size (List.intercalate [sep] (f :: fs))).splitOn sep = f :: fs ↔
      (List.intercalate [sep] (f :: fs)).length < size := by
  rw [← snprintf_eq_iff hsize]
  constructor
  · intro hs
    exact eq_of_splitOn_eq hs
  · intro he
    rw [he, splitOn_fields h]

/-- **The datagrams of a sender decode to what was put in.** -/
structure Decodes (name : Text) (guid : Guid) (a : InAddr) (port interval : Int) (tls : Bool) :
    Prop where
  up : (upMessage name guid.bytes (BroadcastTask.create (inetNtop a) port tls) interval).splitOn 9
    = upFields name guid a port interval tls
  down : (downMessage name guid.bytes (BroadcastTask.create (inetNtop a) port tls)).splitOn 9
    = downFields name guid a port

/-- **When announcements decode**: exactly when the `up` text fits its buffer. -/
theorem announcement_decodes_iff (e : Environ) (guid : Guid) (a : InAddr) (port : Int)
    (tls : Bool) (hname : 9 ∉ e.getServiceName) :
    Decodes e.getServiceName guid a port e.getInterval tls ↔
      e.getServiceName.length + (inetNtop a).length + (decimal port).length
        + (decimal e.getInterval).length + (transport tls).length ≤ 211 := by
  have hup : (upMessage e.getServiceName guid.bytes (BroadcastTask.create (inetNtop a) port tls)
      e.getInterval).splitOn 9 = upFields e.getServiceName guid a port e.getInterval tls ↔
      e.getServiceName.length + (inetNtop a).length + (decimal port).length
        + (decimal e.getInterval).length + (transport tls).length + 44 < messageSize := by
    rw [← upText_length e.getServiceName guid a port e.getInterval tls, upMessage, upText_eq]
    exact splitOn_snprintf_iff (by decide) (tab_notMem_upFields guid a port _ tls hname)
  have hdown : (downMessage e.getServiceName guid.bytes
      (BroadcastTask.create (inetNtop a) port tls)).splitOn 9
        = downFields e.getServiceName guid a port ↔
      e.getServiceName.length + (inetNtop a).length + (decimal port).length + 44
        < messageSize := by
    rw [← downText_length e.getServiceName guid a port tls, downMessage, downText_eq]
    exact splitOn_snprintf_iff (by decide) (tab_notMem_downFields guid a port hname)
  have hsize : messageSize = 256 := rfl
  constructor
  · intro h
    have := hup.mp h.up
    omega
  · intro h
    exact ⟨hup.mpr (by omega), hdown.mpr (by omega)⟩

theorem announcement_decodes_default :
    Decodes (Environ.getServiceName {}) zeroGuid ⟨10, 0, 0, 7⟩ 6379 (Environ.getInterval {})
      false :=
  (announcement_decodes_iff {} zeroGuid ⟨10, 0, 0, 7⟩ 6379 false (by decide)).mpr (by decide)

/-- A service name of 202 letters. -/
def longName : Environ where
  broadcastName :=
    some ⟨List.replicate 202 97, fun h => absurd (List.eq_of_mem_replicate h) (by decide)⟩

/-- The port is cut, and the two datagrams are cut at different places: `up` announces port 637
and `down` port 6, for a broker on 6379. -/
theorem announcement_longName_cut :
    ¬ Decodes longName.getServiceName zeroGuid ⟨10, 0, 0, 7⟩ 6379 longName.getInterval false ∧
      9 ∉ longName.getServiceName ∧
      (upMessage longName.getServiceName zeroGuid.bytes
        (BroadcastTask.create (inetNtop ⟨10, 0, 0, 7⟩) 6379 false) longName.getInterval).splitOn 9
          = [longName.getServiceName, zeroGuid.bytes, ascii "up", ascii "10.0.0.7:637"] ∧
      (downMessage longName.getServiceName zeroGuid.bytes
        (BroadcastTask.create (inetNtop ⟨10, 0, 0, 7⟩) 6379 false)).splitOn 9
          = [longName.getServiceName, zeroGuid.bytes, ascii "down", ascii "10.0.0.7:6"] := by
  have hup : (upMessage longName.getServiceName zeroGuid.bytes
      (BroadcastTask.create (inetNtop ⟨10, 0, 0, 7⟩) 6379 false) longName.getInterval).splitOn 9
        = [longName.getServiceName, zeroGuid.bytes, ascii "up", ascii "10.0.0.7:637"] := by
    decide +kernel
  refine ⟨fun h => ?_, by decide +kernel, hup, by decide +kernel⟩
  have := congrArg List.length (hup.symm.trans h.up)
  exact absurd this (by decide)

end Unicaster
