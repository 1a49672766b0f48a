import EpollChat.Cpp.Numbers
import EpollChat.Utils.Exception

/-! `net::SocketAddress`, made from the texts of an ip and of a port. `inet_pton`
is a parameter: the four bytes of an address, or nothing. The host is little-endian. -/

namespace EpollChat.Net

open Cpp Utils

/-- The fields of `sockaddr_in` that are set. -/
structure SockAddrIn where
  sinFamily : UInt16
  sinPort : UInt16
  sinAddr : UInt32
  deriving DecidableEq

/-- `PF_INET`. -/
def pfInet : UInt16 := 2

/-- `c_str`, as a function of the C library reads it. -/
def cStr (s : Bytes) : Bytes := s.takeWhile (· ≠ 0)

/-- The two bytes of a number exchanged. -/
def htons (hostshort : UInt16) : UInt16 := hostshort <<< 8 ||| hostshort >>> 8

/-- The bytes of a number as they lie in memory, which is how they are sent. -/
def memory (x : UInt16) : Bytes := [UInt8.ofNat (x.toNat % 256), UInt8.ofNat (x.toNat / 256)]

namespace SocketAddress

def reset : SockAddrIn := ⟨pfInet, 0, 0⟩

def parseIp (inetPton : Bytes → Option UInt32) (ip : Bytes) (address : SockAddrIn) : Except Exception SockAddrIn :=
  match inetPton (cStr ip) with
  | some sinAddr => .ok { address with sinAddr := sinAddr }
  | none => .error ⟨"network address", "IP value is incorrect"⟩

def parsePort (port : Bytes) (address : SockAddrIn) : Except Exception SockAddrIn :=
  match stoul port with
  | none => .error ⟨"network address", "Port value is incorrect"⟩
  | some result =>
    if result = 0 ∨ 65535 < result then .error ⟨"network address", "Port number is incorrect"⟩
    else .ok { address with sinPort := htons result.toUInt16 }

/-- The constructor. -/
def make (inetPton : Bytes → Option UInt32) (ip port : Bytes) : Except Exception SockAddrIn := do
  let address ← parseIp inetPton ip reset
  parsePort port address

end SocketAddress

/-! ### The port -/

theorem toNat_htons (x : UInt16) : (htons x).toNat = 256 * (x.toNat % 256) + x.toNat / 256 := by
  have hx : x.toNat < 65536 := x.toNat_lt
  have hhigh : x.toNat <<< 8 % 65536 = (x.toNat % 256) <<< 8 := by
    rw [Nat.shiftLeft_eq, Nat.shiftLeft_eq]
    omega
  have hlow : x.toNat >>> 8 = x.toNat / 256 := Nat.shiftRight_eq_div_pow x.toNat 8
  have htoNat : (htons x).toNat = x.toNat <<< 8 % 65536 ||| x.toNat >>> 8 := by
    rw [htons, UInt16.toNat_or, UInt16.toNat_shiftLeft, UInt16.toNat_shiftRight]
    rfl
  rw [htoNat, hhigh, hlow, ← Nat.shiftLeft_add_eq_or_of_lt (by omega), Nat.shiftLeft_eq]
  omega

/-- Most significant byte first. -/
theorem memory_htons (x : UInt16) : memory (htons x) = [UInt8.ofNat (x.toNat / 256), UInt8.ofNat (x.toNat % 256)] := by
  have hx : x.toNat < 65536 := x.toNat_lt
  have hlow : (256 * (x.toNat % 256) + x.toNat / 256) % 256 = x.toNat / 256 := by omega
  have hhigh : (256 * (x.toNat % 256) + x.toNat / 256) / 256 = x.toNat % 256 := by omega
  rw [memory, toNat_htons, hlow, hhigh]

def InPortRange (value : ℕ) : Prop := 1 ≤ value ∧ value ≤ 65535

instance (value : ℕ) : Decidable (InPortRange value) := inferInstanceAs (Decidable (_ ∧ _))

/-- A port number in decimal. -/
def IsPort (port : Bytes) : Prop := port ≠ [] ∧ (∀ b ∈ port, isdigit b) ∧ InPortRange (digitsValue port)

instance (port : Bytes) : Decidable (IsPort port) := inferInstanceAs (Decidable (_ ∧ _))

/-- There is more in the text than the digits that are read, and what is read is in
the range, after a minus by what is missing to `2 ^ 64`. -/
def Misread (port : Bytes) : Prop :=
  port ≠ stoulDigits port ∧ stoulDigits port ≠ [] ∧ InPortRange (stoulValue port)

instance (port : Bytes) : Decidable (Misread port) := inferInstanceAs (Decidable (_ ∧ _))

/-- `ParsePort` accepts what `std::stoul` reads as a number in the range. -/
theorem parsePort_cases (port : Bytes) (address : SockAddrIn) :
    ((stoulDigits port ≠ [] ∧ InPortRange (stoulValue port)) ∧
      SocketAddress.parsePort port address =
        .ok { address with sinPort := htons (UInt16.ofNat (stoulValue port)) }) ∨
    (¬ (stoulDigits port ≠ [] ∧ InPortRange (stoulValue port)) ∧
      ∃ errorDescription, SocketAddress.parsePort port address = .error ⟨"network address", errorDescription⟩) := by
  unfold SocketAddress.parsePort
  by_cases h : stoulDigits port ≠ [] ∧ InPortRange (stoulValue port)
  · obtain ⟨hne, hrange⟩ := h
    obtain ⟨hlow, hhigh⟩ := hrange
    have hsize : stoulValue port < UInt64.size := lt_of_le_of_lt hhigh (by decide)
    have hof : (UInt64.ofNat (stoulValue port)).toNat = stoulValue port := UInt64.toNat_ofNat_of_lt' hsize
    have hread : stoul port = some (UInt64.ofNat (stoulValue port)) :=
      (stoul_eq_some_iff (by omega)).mpr ⟨hne, hof.symm⟩
    refine .inl ⟨⟨hne, hlow, hhigh⟩, ?_⟩
    rw [hread]
    dsimp only
    rw [if_neg ?_, UInt64.toUInt16_ofNat']
    rw [← UInt64.toNat_inj, UInt64.lt_iff_toNat_lt, hof]
    simp
    omega
  · refine .inr ⟨h, ?_⟩
    cases hread : stoul port with
    | none => exact ⟨_, rfl⟩
    | some result =>
      refine ⟨_, if_pos ?_⟩
      by_contra hrange
      rw [not_or, ← UInt64.toNat_inj, UInt64.lt_iff_toNat_lt] at hrange
      have hpos : 0 < result.toNat := Nat.pos_of_ne_zero hrange.1
      obtain ⟨hne, hvalue⟩ := (stoul_eq_some_iff hpos).mp hread
      exact h ⟨hne, hvalue ▸ ⟨hpos, Nat.not_lt.mp hrange.2⟩⟩

theorem IsPort.stoul {port : Bytes} (h : IsPort port) : stoulDigits port = port ∧ stoulValue port = digitsValue port :=
  ⟨stoulDigits_of_digits h.2.1, stoulValue_of_digits h.1 h.2.1⟩

/-- Without anything else in the text, what is read as a port is one. -/
theorem isPort_of_digits {port : Bytes} (hdigits : port = stoulDigits port) (hne : stoulDigits port ≠ [])
    (hrange : InPortRange (stoulValue port)) : IsPort port := by
  have hd : ∀ b ∈ port, isdigit b := fun b hb => isdigit_of_mem_stoulDigits (hdigits ▸ hb)
  rw [← hdigits] at hne
  exact ⟨hne, hd, stoulValue_of_digits hne hd ▸ hrange⟩

/-- With a valid ip, the port numbers are accepted, in network byte order, and all
other texts refused, if and only if the text is not misread. -/
theorem accepts_ports_iff {inetPton : Bytes → Option UInt32} {ip port : Bytes} {sinAddr : UInt32}
    (hip : inetPton (cStr ip) = some sinAddr) :
    let made := SocketAddress.make inetPton ip port
    let value := digitsValue port
    ((IsPort port → ∃ address, made = .ok address ∧ address.sinAddr = sinAddr ∧
        memory address.sinPort = [UInt8.ofNat (value / 256), UInt8.ofNat (value % 256)]) ∧
      (¬ IsPort port → ∃ e, made = .error e)) ↔ ¬ Misread port := by
  intro made value
  have hmade : made = SocketAddress.parsePort port ⟨pfInet, 0, sinAddr⟩ := by
    show SocketAddress.make inetPton ip port = _
    rw [SocketAddress.make, SocketAddress.parseIp, hip]
    rfl
  rw [hmade]
  rcases parsePort_cases port ⟨pfInet, 0, sinAddr⟩ with ⟨⟨hne, hrange⟩, hok⟩ | ⟨hout, errorDescription, herror⟩
  · rw [hok]
    have hmisread : ¬ Misread port ↔ IsPort port := by
      refine ⟨fun h => ?_, fun h hm => hm.1 h.stoul.1.symm⟩
      by_cases hdigits : port = stoulDigits port
      · exact isPort_of_digits hdigits hne hrange
      · exact absurd ⟨hdigits, hne, hrange⟩ h
    rw [hmisread]
    constructor
    · rintro ⟨-, hrefuses⟩
      by_contra hport
      obtain ⟨e, he⟩ := hrefuses hport
      cases he
    · intro hport
      have hlt : value < 65536 := Nat.lt_succ_of_le hport.2.2.2
      refine ⟨fun _ => ⟨_, rfl, rfl, ?_⟩, fun hnot => absurd hport hnot⟩
      rw [memory_htons, hport.stoul.2, UInt16.toNat_ofNat_of_lt' hlt]
  · rw [herror]
    have hport : ¬ IsPort port := fun h => hout ⟨by rw [h.stoul.1]; exact h.1, h.stoul.2 ▸ h.2.2⟩
    exact iff_of_true ⟨fun h => absurd h hport, fun _ => ⟨_, rfl⟩⟩ fun hm => hout hm.2

theorem accepts_ports_iff_8080 :
    let ip := bytes ['0', '.', '0', '.', '0', '.', '0']
    let port := bytes ['8', '0', '8', '0']
    let made := SocketAddress.make (fun text => if text = ip then some 0 else none) ip port
    let value := digitsValue port
    ((IsPort port → ∃ address, made = .ok address ∧ address.sinAddr = 0 ∧
        memory address.sinPort = [UInt8.ofNat (value / 256), UInt8.ofNat (value % 256)]) ∧
      (¬ IsPort port → ∃ e, made = .error e)) ↔ ¬ Misread port :=
  accepts_ports_iff (if_pos rfl)

/-- Two texts that are no port numbers, accepted as the ports 80 and 1. -/
theorem trailing_bytes_are_ignored :
    let ip := bytes ['0', '.', '0', '.', '0', '.', '0']
    let make := SocketAddress.make (fun text => if text = ip then some 0 else none) ip
    let trailing := bytes ['8', '0', 'a', 'b', 'c']
    let negative := bytes ['-', '1', '8', '4', '4', '6', '7', '4', '4', '0', '7', '3', '7', '0', '9', '5', '5', '1',
      '6', '1', '5']
    (¬ IsPort trailing ∧ make trailing = .ok ⟨pfInet, htons 80, 0⟩) ∧
      (¬ IsPort negative ∧ make negative = .ok ⟨pfInet, htons 1, 0⟩) := by
  decide

end EpollChat.Net
