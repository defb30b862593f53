/-
Piqae/Outgoing/Addresses.lean

The addresses that outgoing requests may reach.  Two parts of the program
send requests to places a customer names: the webhook worker of the control
plane, and the fetcher of content URIs of the agent.  Each resolves the
host, filters the addresses and then connects to a filtered address only
(`pinned_client`, `UriFetcher::fetch`).

Both filters are case lists over octets and segments.  What they are for is
said here over the numbers the addresses stand for: a list of networks
(`internalNetworksV4`, `internalNetworksV6`), and the five ways in which an
IPv6 address carries an IPv4 address (`Carries`).

The filter of the agent keeps to it in both of its modes
(`destinationAllowed_external`, `destinationAllowed_metadata`).  That of the
webhook worker does not know the shared, this-network and reserved IPv4
addresses and takes no IPv4 address out of an IPv6 address, and these are
all it lets through (`internal_iff_unfiltered`).
-/
import Piqae.Base

namespace Piqae.Outgoing

/-! ### Addresses, as the standard library has them -/

structure Ipv4Addr where
  a : UInt8
  b : UInt8
  c : UInt8
  d : UInt8
  deriving DecidableEq, Repr

structure Ipv6Addr where
  s0 : UInt16
  s1 : UInt16
  s2 : UInt16
  s3 : UInt16
  s4 : UInt16
  s5 : UInt16
  s6 : UInt16
  s7 : UInt16
  deriving DecidableEq, Repr

inductive IpAddr where
  | v4 (address : Ipv4Addr)
  | v6 (address : Ipv6Addr)
  deriving DecidableEq, Repr

namespace Ipv4Addr

def broadcast : Ipv4Addr := ⟨255, 255, 255, 255⟩

def isUnspecified (x : Ipv4Addr) : Bool :=
  x = ⟨0, 0, 0, 0⟩

def isLoopback (x : Ipv4Addr) : Bool :=
  x.a = 127

def isPrivate (x : Ipv4Addr) : Bool :=
  x.a = 10 ∨ (x.a = 172 ∧ 16 ≤ x.b ∧ x.b ≤ 31) ∨ (x.a = 192 ∧ x.b = 168)

def isLinkLocal (x : Ipv4Addr) : Bool :=
  x.a = 169 ∧ x.b = 254

def isMulticast (x : Ipv4Addr) : Bool :=
  224 ≤ x.a ∧ x.a ≤ 239

def isBroadcast (x : Ipv4Addr) : Bool :=
  x = broadcast

def isDocumentation (x : Ipv4Addr) : Bool :=
  (x.a = 192 ∧ x.b = 0 ∧ x.c = 2) ∨ (x.a = 198 ∧ x.b = 51 ∧ x.c = 100) ∨
    (x.a = 203 ∧ x.b = 0 ∧ x.c = 113)

/-- The number an address stands for. -/
def value (x : Ipv4Addr) : Nat :=
  x.a.toNat * 2 ^ 24 + x.b.toNat * 2 ^ 16 + x.c.toNat * 2 ^ 8 + x.d.toNat

/-- The address of two segments, through their big-endian bytes. -/
def ofSegments (high low : UInt16) : Ipv4Addr :=
  ⟨(high >>> 8).toUInt8, high.toUInt8, (low >>> 8).toUInt8, low.toUInt8⟩

theorem ofSegments_value (high low : UInt16) :
    (ofSegments high low).value = high.toNat * 2 ^ 16 + low.toNat := by
  have hhigh := high.toNat_lt
  have hlow := low.toNat_lt
  simp [ofSegments, value, Nat.shiftRight_eq_div_pow]
  omega

end Ipv4Addr

namespace Ipv6Addr

def isUnspecified (x : Ipv6Addr) : Bool :=
  x = ⟨0, 0, 0, 0, 0, 0, 0, 0⟩

def isLoopback (x : Ipv6Addr) : Bool :=
  x = ⟨0, 0, 0, 0, 0, 0, 0, 1⟩

def isMulticast (x : Ipv6Addr) : Bool :=
  x.s0 &&& 0xff00 = 0xff00

def isUniqueLocal (x : Ipv6Addr) : Bool :=
  x.s0 &&& 0xfe00 = 0xfc00

def isUnicastLinkLocal (x : Ipv6Addr) : Bool :=
  x.s0 &&& 0xffc0 = 0xfe80

def toIpv4Mapped (x : Ipv6Addr) : Option Ipv4Addr :=
  if x.s0 = 0 ∧ x.s1 = 0 ∧ x.s2 = 0 ∧ x.s3 = 0 ∧ x.s4 = 0 ∧ x.s5 = 0xffff then
    some (.ofSegments x.s6 x.s7)
  else none

def toIpv4 (x : Ipv6Addr) : Option Ipv4Addr :=
  if x.s0 = 0 ∧ x.s1 = 0 ∧ x.s2 = 0 ∧ x.s3 = 0 ∧ x.s4 = 0 ∧ (x.s5 = 0 ∨ x.s5 = 0xffff) then
    some (.ofSegments x.s6 x.s7)
  else none

/-- The number an address stands for. -/
def value (x : Ipv6Addr) : Nat :=
  x.s0.toNat * 2 ^ 112 + x.s1.toNat * 2 ^ 96 + x.s2.toNat * 2 ^ 80 + x.s3.toNat * 2 ^ 64 +
    x.s4.toNat * 2 ^ 48 + x.s5.toNat * 2 ^ 32 + x.s6.toNat * 2 ^ 16 + x.s7.toNat

end Ipv6Addr

/-! ### The filter of the webhook worker -/

namespace IpAddr

def isLoopback : IpAddr → Bool
  | v4 address => address.isLoopback
  | v6 address => address.isLoopback

def isUnspecified : IpAddr → Bool
  | v4 address => address.isUnspecified
  | v6 address => address.isUnspecified

def isMulticast : IpAddr → Bool
  | v4 address => address.isMulticast
  | v6 address => address.isMulticast

end IpAddr

def publicAddress (address : IpAddr) : Bool :=
  !address.isLoopback && !address.isUnspecified && !address.isMulticast &&
    match address with
    | .v4 address =>
      !address.isPrivate && !address.isLinkLocal && !address.isBroadcast &&
        !address.isDocumentation
    | .v6 address =>
      !address.isUniqueLocal && !address.isUnicastLinkLocal &&
        address.s0 &&& 0xffc0 ≠ 0xfec0

/-! ### The filter of the agent -/

def isCloudMetadataV4 (address : Ipv4Addr) : Bool :=
  address = ⟨169, 254, 169, 254⟩ ∨ address = ⟨169, 254, 170, 2⟩ ∨ address = ⟨100, 100, 100, 200⟩

def isNonPublicV4 (address : Ipv4Addr) : Bool :=
  address.isPrivate || address.isLoopback || address.isLinkLocal ||
    address.a = 0 || (address.a = 100 ∧ 64 ≤ address.b ∧ address.b ≤ 127) ||
    (address.a = 192 ∧ address.b = 0 ∧ address.c = 0) ||
    (address.a = 192 ∧ address.b = 0 ∧ address.c = 2) ||
    (address.a = 192 ∧ address.b = 88 ∧ address.c = 99) ||
    (address.a = 198 ∧ (address.b = 18 ∨ address.b = 19)) ||
    (address.a = 198 ∧ address.b = 51 ∧ address.c = 100) ||
    (address.a = 203 ∧ address.b = 0 ∧ address.c = 113) ||
    240 ≤ address.a

def ipv4Allowed (address : Ipv4Addr) (allowPrivate : Bool) : Bool :=
  if address.isUnspecified || address.isMulticast || address = Ipv4Addr.broadcast then false
  else if isCloudMetadataV4 address then false
  else allowPrivate || !isNonPublicV4 address

def isCloudMetadataV6 (address : Ipv6Addr) : Bool :=
  address = ⟨0xfd00, 0x0ec2, 0, 0, 0, 0, 0, 0x0254⟩ ∨
    address = ⟨0xfd20, 0x00ce, 0, 0, 0, 0, 0, 0x0254⟩

def isNonPublicV6 (address : Ipv6Addr) : Bool :=
  address.isLoopback || address.s0 &&& 0xfe00 = 0xfc00 || address.s0 &&& 0xffc0 = 0xfe80 ||
    address.s0 &&& 0xffc0 = 0xfec0 || (address.s0 = 0x2001 ∧ address.s1 = 0x0db8)

/-- The part of `ipv6_allowed` behind the two conversions of the standard library: the address
under the well-known NAT64 network, 6to4 and Teredo. -/
def embeddedIpv4 (address : Ipv6Addr) : Option Ipv4Addr :=
  if address.s0 = 0x0064 ∧ address.s1 = 0xff9b ∧ address.s2 = 0 ∧ address.s3 = 0 ∧
      address.s4 = 0 ∧ address.s5 = 0 then
    some (.ofSegments address.s6 address.s7)
  else if address.s0 = 0x2002 then some (.ofSegments address.s1 address.s2)
  else if address.s0 = 0x2001 ∧ address.s1 = 0 then
    some (.ofSegments (~~~address.s6) (~~~address.s7))
  else none

def ipv6Allowed (address : Ipv6Addr) (allowPrivate : Bool) : Bool :=
  if address.isUnspecified || address.isMulticast then false
  else if isCloudMetadataV6 address then false
  else if address.isLoopback then allowPrivate
  else match address.toIpv4Mapped with
    | some mapped => ipv4Allowed mapped allowPrivate
    | none =>
      match address.toIpv4 with
      | some compatible => ipv4Allowed compatible allowPrivate
      | none =>
        match embeddedIpv4 address with
        | some embedded => ipv4Allowed embedded allowPrivate
        | none => allowPrivate || !isNonPublicV6 address

def destinationAllowed (allowPrivateSources : Bool) : IpAddr → Bool
  | .v4 address => ipv4Allowed address allowPrivateSources
  | .v6 address => ipv6Allowed address allowPrivateSources

/-! ### Internal networks -/

/-- All addresses whose first `length` bits are those of `base`. -/
structure Network where
  base : Nat
  length : Nat

/-- The network holds an address of `bits` bits. -/
def Network.Holds (network : Network) (bits value : Nat) : Prop :=
  value / 2 ^ (bits - network.length) = network.base / 2 ^ (bits - network.length)

instance (network : Network) (bits value : Nat) : Decidable (network.Holds bits value) :=
  inferInstanceAs (Decidable (_ = _))

def sharedV4 : Network := ⟨0x64400000, 10⟩

def thisNetworkV4 : Network := ⟨0, 8⟩

def reservedV4 : Network := ⟨0xf0000000, 4⟩

/-- The networks both filters of IPv4 addresses are for. -/
def internalNetworksV4 : List Network :=
  [⟨0, 32⟩, -- unspecified
    ⟨0x7f000000, 8⟩, -- loopback
    ⟨0x0a000000, 8⟩, ⟨0xac100000, 12⟩, ⟨0xc0a80000, 16⟩, -- private
    ⟨0xa9fe0000, 16⟩, -- link-local
    ⟨0xe0000000, 4⟩, -- multicast
    ⟨0xffffffff, 32⟩, -- broadcast
    sharedV4, thisNetworkV4, reservedV4]

def internalNetworksV6 : List Network :=
  [⟨1, 128⟩, -- loopback
    ⟨0, 128⟩, -- unspecified
    ⟨0xfc00 * 2 ^ 112, 7⟩, -- unique-local
    ⟨0xfe80 * 2 ^ 112, 10⟩, -- link-local
    ⟨0xfec0 * 2 ^ 112, 10⟩, -- site-local
    ⟨0xff00 * 2 ^ 112, 8⟩] -- multicast

def metadataV4 : List Nat := [0xa9fea9fe, 0xa9feaa02, 0x646464c8]

def metadataV6 : List Nat := [0xfd000ec2 * 2 ^ 96 + 0x254, 0xfd2000ce * 2 ^ 96 + 0x254]

def InternalV4 (value : Nat) : Prop :=
  ∃ network ∈ internalNetworksV4, network.Holds 32 value

instance (value : Nat) : Decidable (InternalV4 value) :=
  inferInstanceAs (Decidable (∃ network ∈ internalNetworksV4, _))

/-- The IPv6 address carries the IPv4 address. -/
inductive Carries (value : Nat) : Nat → Prop where
  | mapped : value / 2 ^ 32 = 0xffff → Carries value (value % 2 ^ 32)
  | compatible : value / 2 ^ 32 = 0 → Carries value (value % 2 ^ 32)
  | nat64 : value / 2 ^ 32 = 0x64ff9b * 2 ^ 64 → Carries value (value % 2 ^ 32)
  | sixToFour : value / 2 ^ 112 = 0x2002 → Carries value (value / 2 ^ 80 % 2 ^ 32)
  -- Teredo keeps the address of the client with every bit inverted.
  | teredo : value / 2 ^ 96 = 0x20010000 → Carries value (2 ^ 32 - 1 - value % 2 ^ 32)

namespace IpAddr

def Internal : IpAddr → Prop
  | v4 address => InternalV4 address.value
  | v6 address =>
    (∃ network ∈ internalNetworksV6, network.Holds 128 address.value) ∨
      ∃ carried, Carries address.value carried ∧ InternalV4 carried

/-- An address at which a cloud platform serves the credentials of a machine. -/
def Metadata : IpAddr → Prop
  | v4 address => address.value ∈ metadataV4
  | v6 address =>
    address.value ∈ metadataV6 ∨ ∃ carried, Carries address.value carried ∧ carried ∈ metadataV4

/-- What the filter of the webhook worker does not look for. -/
def Unfiltered : IpAddr → Prop
  | v4 address =>
    sharedV4.Holds 32 address.value ∨ thisNetworkV4.Holds 32 address.value ∨
      reservedV4.Holds 32 address.value
  | v6 address => ∃ carried, Carries address.value carried ∧ InternalV4 carried

end IpAddr

/-! ### IPv4 -/

namespace Ipv4Addr

variable {x y : Ipv4Addr}

theorem ext_value (h : x.value = y.value) : x = y := by
  obtain ⟨a, b, c, d⟩ := x
  obtain ⟨e, f, g, i⟩ := y
  have hb := b.toNat_lt
  have hc := c.toNat_lt
  have hd := d.toNat_lt
  have hf := f.toNat_lt
  have hg := g.toNat_lt
  have hi := i.toNat_lt
  simp only [value] at h
  simp only [Ipv4Addr.mk.injEq, ← UInt8.toNat_inj]
  omega

/-- A network of at most sixteen bits looks at the first two octets. -/
theorem holds_value {network : Network} (h : network.length ≤ 16)
    (hholds : network.Holds 32 x.value) :
    (x.a.toNat * 2 ^ 8 + x.b.toNat) / 2 ^ (16 - network.length) =
      network.base / 2 ^ (32 - network.length) := by
  have hc := x.c.toNat_lt
  have hd := x.d.toNat_lt
  have hhigh : x.value / 2 ^ 16 = x.a.toNat * 2 ^ 8 + x.b.toNat := by
    simp only [value]
    omega
  have hlen : 32 - network.length = 16 + (16 - network.length) := by omega
  rw [← hhigh, Nat.div_div_eq_div_mul, ← Nat.pow_add, ← hlen]
  exact hholds

/-- What an internal address is for the standard library, and what is left. -/
theorem internalV4_cases (h : InternalV4 x.value) :
    x.isPrivate = true ∨ x.isLoopback = true ∨ x.isLinkLocal = true ∨ x.isMulticast = true ∨
      (IpAddr.v4 x).Unfiltered := by
  have ha := x.a.toNat_lt
  have hb := x.b.toNat_lt
  obtain ⟨network, hmem, hholds⟩ := h
  have hoct : network.length ≤ 16 → _ := fun hlen => holds_value hlen hholds
  simp only [internalNetworksV4, List.mem_cons, List.not_mem_nil, or_false] at hmem
  simp only [isPrivate, isLoopback, isLinkLocal, isMulticast, decide_eq_true_eq,
    ← UInt8.toNat_inj, UInt8.le_iff_toNat_le, UInt8.reduceToNat]
  rcases hmem with rfl | rfl | rfl | rfl | rfl | rfl | rfl | rfl | rfl | rfl | rfl
  · -- The unspecified address is one of this network.
    have hzero : thisNetworkV4.Holds 32 x.value := by
      simp only [Network.Holds, thisNetworkV4] at hholds ⊢
      omega
    exact .inr (.inr (.inr (.inr (.inr (.inl hzero)))))
  iterate 6
    · have hoct := hoct (by decide)
      dsimp only at hoct
      omega
  · -- The broadcast address is a reserved one.
    have hresd : reservedV4.Holds 32 x.value := by
      simp only [Network.Holds, reservedV4] at hholds ⊢
      omega
    exact .inr (.inr (.inr (.inr (.inr (.inr hresd)))))
  · exact .inr (.inr (.inr (.inr (.inl hholds))))
  · exact .inr (.inr (.inr (.inr (.inr (.inl hholds)))))
  · exact .inr (.inr (.inr (.inr (.inr (.inr hholds)))))

theorem internalV4_of_unfiltered (h : (IpAddr.v4 x).Unfiltered) : InternalV4 x.value := by
  rcases h with hsh | hthis | hresd
  · exact ⟨sharedV4, by simp [internalNetworksV4], hsh⟩
  · exact ⟨thisNetworkV4, by simp [internalNetworksV4], hthis⟩
  · exact ⟨reservedV4, by simp [internalNetworksV4], hresd⟩

theorem unfiltered_nonPublic (h : (IpAddr.v4 x).Unfiltered) : isNonPublicV4 x = true := by
  have ha := x.a.toNat_lt
  have hb := x.b.toNat_lt
  have hoct : (x.a.toNat = 100 ∧ 64 ≤ x.b.toNat ∧ x.b.toNat ≤ 127) ∨ x.a.toNat = 0 ∨
      240 ≤ x.a.toNat := by
    rcases h with h | h | h
    all_goals
      have hoct := holds_value (by decide) h
      dsimp only [sharedV4, thisNetworkV4, reservedV4] at hoct
      omega
  simp only [isNonPublicV4, Bool.or_eq_true, decide_eq_true_eq, ← UInt8.toNat_inj,
    UInt8.le_iff_toNat_le, UInt8.reduceToNat]
  rcases hoct with h | h | h <;> simp [h]

end Ipv4Addr

theorem ipv4Allowed_external {x : Ipv4Addr} (h : ipv4Allowed x false = true) :
    ¬InternalV4 x.value := by
  simp only [ipv4Allowed, Bool.false_or] at h
  split_ifs at h with hspec hmeta
  simp only [Bool.or_eq_true, not_or] at hspec
  have hpublic : isNonPublicV4 x ≠ true := by simpa using h
  intro hint
  rcases Ipv4Addr.internalV4_cases hint with hcase | hcase | hcase | hcase | hcase
  iterate 3 exact hpublic (by simp [isNonPublicV4, hcase])
  · exact hspec.1.2 hcase
  · exact hpublic (Ipv4Addr.unfiltered_nonPublic hcase)

theorem ipv4Allowed_metadata {x : Ipv4Addr} {allowPrivate : Bool}
    (h : ipv4Allowed x allowPrivate = true) : x.value ∉ metadataV4 := by
  intro hmem
  have hmeta : isCloudMetadataV4 x = true := by
    simp only [metadataV4, List.mem_cons, List.not_mem_nil, or_false] at hmem
    simp only [isCloudMetadataV4, decide_eq_true_eq]
    exact hmem.imp Ipv4Addr.ext_value (.imp Ipv4Addr.ext_value Ipv4Addr.ext_value)
  simp [ipv4Allowed, hmeta] at h

/-! ### IPv6 -/

/-- A mask of the high bits clears the low ones. -/
theorem and_highMask {s : Nat} (n k : Nat) (hs : s < 2 ^ (n + k)) :
    s &&& ((2 ^ n - 1) * 2 ^ k) = s / 2 ^ k * 2 ^ k := by
  have hhigh : (s &&& ((2 ^ n - 1) * 2 ^ k)) / 2 ^ k = s / 2 ^ k := by
    have hlt : s / 2 ^ k < 2 ^ n := by
      rw [Nat.div_lt_iff_lt_mul (Nat.two_pow_pos k), ← Nat.pow_add]
      exact hs
    rw [Nat.and_div_two_pow, Nat.mul_div_cancel _ (Nat.two_pow_pos k),
      Nat.and_two_pow_sub_one_eq_mod, Nat.mod_eq_of_lt hlt]
  have hlow : (s &&& ((2 ^ n - 1) * 2 ^ k)) % 2 ^ k = 0 := by
    rw [Nat.and_mod_two_pow, Nat.mul_mod_left, Nat.and_zero]
  have hsplit := Nat.div_add_mod (s &&& ((2 ^ n - 1) * 2 ^ k)) (2 ^ k)
  rw [hhigh, hlow, Nat.add_zero, Nat.mul_comm] at hsplit
  exact hsplit.symm

namespace Ipv6Addr

variable {x : Ipv6Addr}

/-- A segment under a mask of its high bits. -/
theorem and_mask_iff {segment mask base : UInt16} (n k top : Nat) (hlen : n + k = 16)
    (hmask : mask.toNat = (2 ^ n - 1) * 2 ^ k) (hbase : base.toNat = top * 2 ^ k) :
    segment &&& mask = base ↔ segment.toNat / 2 ^ k = top := by
  have hlt : segment.toNat < 2 ^ (n + k) := by
    rw [hlen]
    exact segment.toNat_lt
  rw [← UInt16.toNat_inj, UInt16.toNat_and, hmask, hbase, and_highMask n k hlt]
  exact Nat.mul_left_inj (Nat.pos_iff_ne_zero.mp (Nat.two_pow_pos k))

theorem isMulticast_iff : x.isMulticast = true ↔ x.s0.toNat / 2 ^ 8 = 0xff :=
  decide_eq_true_iff.trans (and_mask_iff 8 8 0xff rfl rfl rfl)

theorem isUniqueLocal_iff : x.isUniqueLocal = true ↔ x.s0.toNat / 2 ^ 9 = 0x7e :=
  decide_eq_true_iff.trans (and_mask_iff 7 9 0x7e rfl rfl rfl)

theorem isUnicastLinkLocal_iff : x.isUnicastLinkLocal = true ↔ x.s0.toNat / 2 ^ 6 = 0x3fa :=
  decide_eq_true_iff.trans (and_mask_iff 10 6 0x3fa rfl rfl rfl)

theorem siteLocal_iff : x.s0 &&& 0xffc0 = 0xfec0 ↔ x.s0.toNat / 2 ^ 6 = 0x3fb :=
  and_mask_iff 10 6 0x3fb rfl rfl rfl

theorem bounds (x : Ipv6Addr) : x.s1.toNat < 2 ^ 16 ∧ x.s2.toNat < 2 ^ 16 ∧
    x.s3.toNat < 2 ^ 16 ∧ x.s4.toNat < 2 ^ 16 ∧ x.s5.toNat < 2 ^ 16 ∧ x.s6.toNat < 2 ^ 16 ∧
      x.s7.toNat < 2 ^ 16 :=
  ⟨x.s1.toNat_lt, x.s2.toNat_lt, x.s3.toNat_lt, x.s4.toNat_lt, x.s5.toNat_lt, x.s6.toNat_lt,
    x.s7.toNat_lt⟩

theorem value_div_112 : x.value / 2 ^ 112 = x.s0.toNat := by
  have hbounds := x.bounds
  simp only [value]
  omega

theorem value_div_32 : x.value / 2 ^ 32 =
    x.s0.toNat * 2 ^ 80 + x.s1.toNat * 2 ^ 64 + x.s2.toNat * 2 ^ 48 + x.s3.toNat * 2 ^ 32 +
      x.s4.toNat * 2 ^ 16 + x.s5.toNat := by
  have h6 := x.s6.toNat_lt
  have h7 := x.s7.toNat_lt
  simp only [value]
  omega

theorem value_mod_32 : x.value % 2 ^ 32 = x.s6.toNat * 2 ^ 16 + x.s7.toNat := by
  have h6 := x.s6.toNat_lt
  have h7 := x.s7.toNat_lt
  simp only [value]
  omega

theorem ext_value {y : Ipv6Addr} (h : x.value = y.value) : x = y := by
  have hhigh : x.value / 2 ^ 32 = y.value / 2 ^ 32 := by rw [h]
  have hlow : x.value % 2 ^ 32 = y.value % 2 ^ 32 := by rw [h]
  rw [value_div_32, value_div_32] at hhigh
  rw [value_mod_32, value_mod_32] at hlow
  have hx := x.bounds
  have hy := y.bounds
  obtain ⟨s0, s1, s2, s3, s4, s5, s6, s7⟩ := x
  obtain ⟨t0, t1, t2, t3, t4, t5, t6, t7⟩ := y
  dsimp only at hhigh hlow hx hy
  simp only [Ipv6Addr.mk.injEq, ← UInt16.toNat_inj]
  omega

/-- The IPv4 address that `ipv6_allowed` takes out of an address. -/
def carried (x : Ipv6Addr) : Option Ipv4Addr :=
  match x.toIpv4Mapped with
  | some mapped => some mapped
  | none =>
    match x.toIpv4 with
    | some compatible => some compatible
    | none => embeddedIpv4 x

/-- The filter of the agent takes out every IPv4 address that an address carries. -/
theorem carried_of_carries {value : Nat} (h : Carries x.value value) :
    ∃ address, x.carried = some address ∧ address.value = value := by
  have hbounds := x.bounds
  have hdiv := value_div_32 (x := x)
  have hlast : (Ipv4Addr.ofSegments x.s6 x.s7).value = x.value % 2 ^ 32 := by
    rw [value_mod_32, Ipv4Addr.ofSegments_value]
  cases h with
  | mapped h =>
    refine ⟨_, ?_, hlast⟩
    have hsegs : x.s0.toNat = 0 ∧ x.s1.toNat = 0 ∧ x.s2.toNat = 0 ∧ x.s3.toNat = 0 ∧
        x.s4.toNat = 0 ∧ x.s5.toNat = 0xffff := by omega
    simp [carried, toIpv4Mapped, ← UInt16.toNat_inj, hsegs]
  | compatible h =>
    refine ⟨_, ?_, hlast⟩
    have hsegs : x.s0.toNat = 0 ∧ x.s1.toNat = 0 ∧ x.s2.toNat = 0 ∧ x.s3.toNat = 0 ∧
        x.s4.toNat = 0 ∧ x.s5.toNat = 0 := by omega
    simp [carried, toIpv4Mapped, toIpv4, ← UInt16.toNat_inj, hsegs]
  | nat64 h =>
    refine ⟨_, ?_, hlast⟩
    have hsegs : x.s0.toNat = 0x64 ∧ x.s1.toNat = 0xff9b ∧ x.s2.toNat = 0 ∧
        x.s3.toNat = 0 ∧ x.s4.toNat = 0 ∧ x.s5.toNat = 0 := by omega
    simp [carried, toIpv4Mapped, toIpv4, embeddedIpv4, ← UInt16.toNat_inj, hsegs]
  | sixToFour h =>
    have hlow : x.value / 2 ^ 80 % 2 ^ 32 = x.s1.toNat * 2 ^ 16 + x.s2.toNat := by
      simp only [value]
      omega
    rw [value_div_112] at h
    rw [hlow, ← Ipv4Addr.ofSegments_value]
    refine ⟨_, ?_, rfl⟩
    simp [carried, toIpv4Mapped, toIpv4, embeddedIpv4, ← UInt16.toNat_inj, h]
  | teredo h =>
    have hhigh : x.value / 2 ^ 96 = x.s0.toNat * 2 ^ 16 + x.s1.toNat := by
      simp only [value]
      omega
    have hlow : 2 ^ 32 - 1 - x.value % 2 ^ 32 = (~~~x.s6).toNat * 2 ^ 16 + (~~~x.s7).toNat := by
      rw [value_mod_32, UInt16.toNat_not, UInt16.toNat_not]
      simp only [UInt16.size]
      omega
    rw [hhigh] at h
    rw [hlow, ← Ipv4Addr.ofSegments_value]
    refine ⟨_, ?_, rfl⟩
    have hsegs : x.s0.toNat = 0x2001 ∧ x.s1.toNat = 0 := by omega
    simp [carried, toIpv4Mapped, toIpv4, embeddedIpv4, ← UInt16.toNat_inj, hsegs]

/-- Addresses that carry one are in no network of their own. -/
theorem carried_segment {address : Ipv4Addr} (h : x.carried = some address) :
    x.s0.toNat < 0xfc00 := by
  have hseg : x.s0 = 0 ∨ x.s0 = 0x64 ∨ x.s0 = 0x2002 ∨ x.s0 = 0x2001 := by
    simp only [carried, toIpv4Mapped, toIpv4, embeddedIpv4] at h
    grind
  rcases hseg with hseg | hseg | hseg | hseg <;> simp [hseg]

end Ipv6Addr

theorem ipv6Allowed_cases {x : Ipv6Addr} {allowPrivate : Bool}
    (h : ipv6Allowed x allowPrivate = true) :
    x.isUnspecified = false ∧ x.isMulticast = false ∧ isCloudMetadataV6 x = false ∧
      ((x.isLoopback = true ∧ allowPrivate = true) ∨ (x.isLoopback = false ∧
          ((∃ address, x.carried = some address ∧ ipv4Allowed address allowPrivate = true) ∨
            (x.carried = none ∧ (allowPrivate || !isNonPublicV6 x) = true)))) := by
  unfold ipv6Allowed at h
  split_ifs at h with hspec hmeta hloop
  · simp only [Bool.or_eq_true, not_or, Bool.not_eq_true] at hspec
    exact ⟨hspec.1, hspec.2, by simpa using hmeta, .inl ⟨hloop, h⟩⟩
  · simp only [Bool.or_eq_true, not_or, Bool.not_eq_true] at hspec
    refine ⟨hspec.1, hspec.2, by simpa using hmeta, .inr ⟨by simpa using hloop, ?_⟩⟩
    unfold Ipv6Addr.carried
    split at h
    · rename_i mapped _
      exact .inl ⟨mapped, rfl, h⟩
    split at h
    · rename_i compatible _
      exact .inl ⟨compatible, rfl, h⟩
    split at h
    · rename_i embedded hemb
      exact .inl ⟨embedded, hemb, h⟩
    · rename_i hemb
      exact .inr ⟨hemb, h⟩

namespace Ipv6Addr

variable {x : Ipv6Addr} {network : Network}

/-- A network of at most sixteen bits looks at the first segment. -/
theorem holds_value (h : network.length ≤ 16) (hholds : network.Holds 128 x.value) :
    x.s0.toNat / 2 ^ (16 - network.length) = network.base / 2 ^ (128 - network.length) := by
  have hlen : 128 - network.length = 112 + (16 - network.length) := by omega
  rw [← value_div_112, Nat.div_div_eq_div_mul, ← Nat.pow_add, ← hlen]
  exact hholds

theorem internalNetwork_cases (hmem : network ∈ internalNetworksV6)
    (hholds : network.Holds 128 x.value) :
    x.isLoopback = true ∨ x.isUnspecified = true ∨ x.isMulticast = true ∨
      x.isUniqueLocal = true ∨ x.isUnicastLinkLocal = true ∨ x.s0 &&& 0xffc0 = 0xfec0 := by
  rw [isMulticast_iff, isUniqueLocal_iff, isUnicastLinkLocal_iff, siteLocal_iff]
  simp only [internalNetworksV6, List.mem_cons, List.not_mem_nil, or_false] at hmem
  rcases hmem with rfl | rfl | rfl | rfl | rfl | rfl
  · have hval : x.value = 1 := by simpa [Network.Holds] using hholds
    exact .inl (decide_eq_true (ext_value hval))
  · have hval : x.value = 0 := by simpa [Network.Holds] using hholds
    exact .inr (.inl (decide_eq_true (ext_value hval)))
  · exact .inr (.inr (.inr (.inl (holds_value (by decide) hholds))))
  · exact .inr (.inr (.inr (.inr (.inl (holds_value (by decide) hholds)))))
  · exact .inr (.inr (.inr (.inr (.inr (holds_value (by decide) hholds)))))
  · exact .inr (.inr (.inl (holds_value (by decide) hholds)))

/-- The networks of the first segment are no public ones, and their addresses carry none. -/
theorem nonPublic_of_segment
    (h : x.isUniqueLocal = true ∨ x.isUnicastLinkLocal = true ∨ x.s0 &&& 0xffc0 = 0xfec0) :
    x.carried = none ∧ isNonPublicV6 x = true := by
  constructor
  · rw [Option.eq_none_iff_forall_ne_some]
    intro address hcar
    have hseg := carried_segment hcar
    rw [isUniqueLocal_iff, isUnicastLinkLocal_iff, siteLocal_iff] at h
    omega
  · simp only [isUniqueLocal, isUnicastLinkLocal, decide_eq_true_eq] at h
    rcases h with h | h | h <;> simp [isNonPublicV6, h]

end Ipv6Addr

/-! ### What the filters let through -/

variable {address : IpAddr}

/-- What the webhook worker takes for public is internal in the cases it does not look for. -/
theorem internal_iff_unfiltered (h : publicAddress address = true) :
    address.Internal ↔ address.Unfiltered := by
  simp only [publicAddress, Bool.and_eq_true, Bool.not_eq_true', IpAddr.isLoopback,
    IpAddr.isUnspecified, IpAddr.isMulticast] at h
  obtain ⟨⟨⟨hloop, hunsp⟩, hmc⟩, hrest⟩ := h
  cases address with
  | v4 x =>
    simp only [Bool.and_eq_true, Bool.not_eq_true'] at hrest hloop hmc
    refine ⟨fun hint => ?_, Ipv4Addr.internalV4_of_unfiltered⟩
    rcases Ipv4Addr.internalV4_cases hint with hcase | hcase | hcase | hcase | hcase
    · simp [hrest.1.1.1] at hcase
    · simp [hloop] at hcase
    · simp [hrest.1.1.2] at hcase
    · simp [hmc] at hcase
    · exact hcase
  | v6 x =>
    simp only [Bool.and_eq_true, Bool.not_eq_true', decide_eq_true_eq] at hrest
    refine ⟨fun hint => ?_, .inr⟩
    rcases hint with ⟨network, hmem, hholds⟩ | hcar
    · rcases Ipv6Addr.internalNetwork_cases hmem hholds with
        hcase | hcase | hcase | hcase | hcase | hcase
      · simp [hloop] at hcase
      · simp [hunsp] at hcase
      · simp [hmc] at hcase
      · simp [hrest.1.1] at hcase
      · simp [hrest.1.2] at hcase
      · exact absurd hcase hrest.2
    · exact hcar

/-- The agent lets no internal address through while private sources are not allowed. -/
theorem destinationAllowed_external (h : destinationAllowed false address = true) :
    ¬address.Internal := by
  cases address with
  | v4 x => exact ipv4Allowed_external h
  | v6 x =>
    obtain ⟨hunsp, hmc, -, ⟨-, hprivate⟩ | ⟨hloop, hcases⟩⟩ :=
      ipv6Allowed_cases h
    · exact absurd hprivate (by decide)
    rintro (⟨network, hmem, hholds⟩ | ⟨value, hcar, hint⟩)
    · rcases Ipv6Addr.internalNetwork_cases hmem hholds with hcase | hcase | hcase | hcase
      · simp [hloop] at hcase
      · simp [hunsp] at hcase
      · simp [hmc] at hcase
      obtain ⟨hnone, hnonPublic⟩ := Ipv6Addr.nonPublic_of_segment hcase
      rcases hcases with ⟨address, hsome, -⟩ | ⟨-, hpublic⟩
      · simp [hnone] at hsome
      · simp [hnonPublic] at hpublic
    · obtain ⟨address, hsome, rfl⟩ := Ipv6Addr.carried_of_carries hcar
      rcases hcases with ⟨embedded, hemb, hall⟩ | ⟨hnone, -⟩
      · cases hsome.symm.trans hemb
        exact ipv4Allowed_external hall hint
      · simp [hsome] at hnone

/-- No mode of the agent lets a metadata address through. -/
theorem destinationAllowed_metadata {allowPrivate : Bool}
    (h : destinationAllowed allowPrivate address = true) : ¬address.Metadata := by
  cases address with
  | v4 x => exact ipv4Allowed_metadata h
  | v6 x =>
    obtain ⟨-, -, hmeta, hcases⟩ := ipv6Allowed_cases h
    rintro (hmem | ⟨value, hcar, hmem⟩)
    · have hmetadata : isCloudMetadataV6 x = true := by
        simp only [metadataV6, List.mem_cons, List.not_mem_nil, or_false] at hmem
        simp only [isCloudMetadataV6, decide_eq_true_eq]
        exact hmem.imp Ipv6Addr.ext_value Ipv6Addr.ext_value
      simp [hmeta] at hmetadata
    · obtain ⟨address, hsome, rfl⟩ := Ipv6Addr.carried_of_carries hcar
      rcases hcases with ⟨hloop, -⟩ | ⟨-, ⟨embedded, hemb, hall⟩ | ⟨hnone, -⟩⟩
      · -- The loopback address carries 0.0.0.1.
        simp only [Ipv6Addr.isLoopback, decide_eq_true_eq] at hloop
        subst hloop
        cases hsome
        exact absurd hmem (by decide)
      · cases hsome.symm.trans hemb
        exact ipv4Allowed_metadata hall hmem
      · simp [hsome] at hnone

/-! ### The requests -/

/-- The host of a parsed URL. -/
inductive Host where
  | domain (name : String)
  | ipv4 (address : Ipv4Addr)
  | ipv6 (address : Ipv6Addr)
  deriving DecidableEq, Repr

/-- A parsed URL, by what the two requests read of it. -/
structure Url where
  scheme : String
  username : String
  password : Option String
  host : Option Host
  portOrKnownDefault : Option Nat
  deriving DecidableEq, Repr

/-- Name resolution: no addresses when it fails or times out. -/
abbrev Resolver := String → Option (List IpAddr)

/-- `lookup_host` of `host_str`.  The text of an IPv4 address is its own address; that of an IPv6
address has brackets, which are no address and no name. -/
def lookupHostStr (resolver : Resolver) : Host → Option (List IpAddr)
  | .domain name => resolver name
  | .ipv4 address => some [.v4 address]
  | .ipv6 _ => none

def isLocalhost : Host → Bool
  | .domain name => name.toLower = "localhost" || ".localhost".toList <:+ name.toList
  | _ => false

/-- `pinned_client`: the address that the client connects to. -/
def pinnedClient (resolver : Resolver) (url : Url) : Option IpAddr :=
  if (url.scheme ≠ "http" ∧ url.scheme ≠ "https") ∨ url.username ≠ "" ∨ url.password.isSome then
    none
  else do
    let host ← url.host.filter (!isLocalhost ·)
    let _ ← url.portOrKnownDefault
    let addresses ← lookupHostStr resolver host
    if addresses.any (!publicAddress ·) then none else addresses.head?

/-- The name that `fetch` goes on with: a domain, or the text of an address. -/
inductive HostName where
  | name (text : String)
  | address (address : IpAddr)
  deriving DecidableEq, Repr

def normalizedHost : Host → HostName
  | .domain name =>
    .name (String.ofList (name.toList.reverse.dropWhile (· = '.')).reverse).toLower
  | .ipv4 address => .address (.v4 address)
  | .ipv6 address => .address (.v6 address)

def isMetadataHost : HostName → Bool
  | .name host =>
    host ∈ ["metadata.google.internal", "metadata.google.com", "instance-data.ec2.internal",
        "metadata.azure.com", "metadata.azure.internal"] ||
      ".metadata.google.internal".toList <:+ host.toList
  | .address _ => false

inductive UriAuthentication where
  | basic
  | digest
  deriving DecidableEq, Repr

inductive UriFetchError where
  | invalidUri
  | invalidScheme
  | embeddedCredentials
  | blockedHost
  | resolutionFailed
  | blockedDestination
  | digestAuthenticationUnsupported
  deriving DecidableEq, Repr

def lookupHost (resolver : Resolver) : HostName → Option (List IpAddr)
  | .name text => resolver text
  | .address address => some [address]

def resolvedAddresses (resolver : Resolver) (hostName : HostName) : Host → Option (List IpAddr)
  | .ipv4 address => some [.v4 address]
  | .ipv6 address => some [.v6 address]
  | .domain _ => lookupHost resolver hostName

/-- `UriFetcher::resolve`; that the set of addresses is sorted is left out. -/
def resolve (resolver : Resolver) (allowPrivateSources : Bool) (host : Host) (hostName : HostName) :
    Except UriFetchError (List IpAddr) :=
  match resolvedAddresses resolver hostName host with
  | none => .error .resolutionFailed
  | some addresses =>
    let addresses := addresses.dedup
    if addresses.isEmpty then .error .resolutionFailed
    else if addresses.any (!destinationAllowed allowPrivateSources ·) then
      .error .blockedDestination
    else .ok addresses

/-- Where the client of `fetch` connects to: `resolve_to_addrs` gives the addresses for the name
it is told, and a URL with another name is resolved by the client itself. -/
def contacted (resolver : Resolver) (host : Host) (hostName : HostName)
    (addresses : List IpAddr) : List IpAddr :=
  match host with
  | .domain name => if hostName = .name name then addresses else (resolver name).getD []
  | _ => addresses

/-- `UriFetcher::fetch`: the addresses that the request may go to.  `setHost` is what the host
of the URL reads as after `set_host`. -/
def fetch (setHost : HostName → Option Host) (resolver : Resolver) (allowPrivateSources : Bool)
    (url : Url) (authentication : Option UriAuthentication) :
    Except UriFetchError (List IpAddr) :=
  if url.scheme ≠ "http" ∧ url.scheme ≠ "https" then .error .invalidScheme
  else if url.username ≠ "" ∨ url.password.isSome then .error .embeddedCredentials
  else match url.host with
    | none => .error .invalidUri
    | some host =>
      let hostName := normalizedHost host
      if isMetadataHost hostName then .error .blockedHost
      else match setHost hostName with
        | none => .error .invalidUri
        | some host =>
          if url.portOrKnownDefault.isNone then .error .invalidUri
          else do
            let addresses ← resolve resolver allowPrivateSources host hostName
            if authentication = some .digest then .error .digestAuthenticationUnsupported
            else .ok (contacted resolver host hostName addresses)

section

variable {resolver : Resolver} {setHost : HostName → Option Host} {allowPrivate : Bool} {url : Url}
  {authentication : Option UriAuthentication} {host : Host} {hostName : HostName}
  {addresses : List IpAddr}

theorem pinnedClient_public {pinned : IpAddr} (h : pinnedClient resolver url = some pinned) :
    publicAddress pinned = true := by
  unfold pinnedClient at h
  split_ifs at h
  simp only [Option.bind_eq_bind, Option.bind_eq_some_iff] at h
  obtain ⟨host, -, -, -, addresses, -, h⟩ := h
  split_ifs at h with hany
  simp only [List.any_eq_true, not_exists, not_and, Bool.not_eq_true, Bool.not_eq_false'] at hany
  exact hany pinned (List.mem_of_head? h)

theorem resolve_allowed (h : resolve resolver allowPrivate host hostName = .ok addresses) :
    ∀ address ∈ addresses, destinationAllowed allowPrivate address = true := by
  unfold resolve at h
  split at h
  · cases h
  dsimp only at h
  split_ifs at h with hemp hany
  cases h
  intro address hmem
  simp only [List.any_eq_true, not_exists, not_and, Bool.not_eq_true, Bool.not_eq_false'] at hany
  exact hany address hmem

theorem fetch_contacted
    (h : fetch setHost resolver allowPrivate url authentication = .ok addresses) :
    ∃ host host' allowed, url.host = some host ∧ setHost (normalizedHost host) = some host' ∧
      resolve resolver allowPrivate host' (normalizedHost host) = .ok allowed ∧
      addresses = contacted resolver host' (normalizedHost host) allowed := by
  unfold fetch at h
  split at h
  · cases h
  split at h
  · cases h
  split at h
  · cases h
  rename_i host hhost
  dsimp only at h
  split at h
  · cases h
  split at h
  · cases h
  rename_i host' hset
  split at h
  · cases h
  obtain ⟨allowed, hrs, h⟩ := Except.bind_eq_ok h
  split_ifs at h
  cases h
  exact ⟨host, host', allowed, hhost, hset, hrs, rfl⟩

/-- The client of the agent looks up a name that was not filtered: the host of the URL reads as
another name once it was set, and that name has an address that is `Bad`. -/
def Misdirected (setHost : HostName → Option Host) (resolver : Resolver) (url : Url)
    (Bad : IpAddr → Prop) : Prop :=
  ∃ host name addresses, url.host = some host ∧
    setHost (normalizedHost host) = some (.domain name) ∧ normalizedHost host ≠ .name name ∧
    resolver name = some addresses ∧ ∃ address ∈ addresses, Bad address

/-- Addresses that the filter keeps away are contacted through such a name only. -/
theorem fetch_misdirected_iff {Bad : IpAddr → Prop}
    (hfilter : ∀ address, destinationAllowed allowPrivate address = true → ¬Bad address)
    (h : fetch setHost resolver allowPrivate url authentication = .ok addresses) :
    (∀ address ∈ addresses, ¬Bad address) ↔ ¬Misdirected setHost resolver url Bad := by
  obtain ⟨host, host', allowed, hhost, hset, hrs, rfl⟩ := fetch_contacted h
  have hall : ∀ address ∈ allowed, ¬Bad address := fun address hmem =>
    hfilter address (resolve_allowed hrs address hmem)
  constructor
  · rintro hgood ⟨other, name, found, hother, hrenamed, hne, hfound, address, hmem, hbad⟩
    cases hhost.symm.trans hother
    cases hset.symm.trans hrenamed
    refine hgood address ?_ hbad
    show address ∈ if normalizedHost host = .name name then allowed else (resolver name).getD []
    rw [if_neg hne, hfound]
    exact hmem
  · intro hdirect address hmem
    cases host' with
    | domain name =>
      simp only [contacted] at hmem
      split_ifs at hmem with hname
      · exact hall address hmem
      · cases hfound : resolver name with
        | none => simp [hfound] at hmem
        | some found =>
          simp only [hfound, Option.getD_some] at hmem
          intro hbad
          exact hdirect ⟨host, name, found, hhost, hset, hname, hfound, address, hmem, hbad⟩
    | _ => exact hall address hmem

end

/-- **Outgoing requests and internal networks**: for every URL and every result of name
resolution, the address that a webhook is sent to is not internal exactly when it is none of those
the filter does not look for; and the agent contacts no internal address while private sources are
not allowed, and never a metadata address, exactly when it is not misdirected. -/
theorem requests_external_iff (setHost : HostName → Option Host) (resolver : Resolver) (url : Url)
    (authentication : Option UriAuthentication) :
    (∀ pinned, pinnedClient resolver url = some pinned → (¬pinned.Internal ↔ ¬pinned.Unfiltered)) ∧
    (∀ addresses, fetch setHost resolver false url authentication = .ok addresses →
      ((∀ address ∈ addresses, ¬address.Internal) ↔
        ¬Misdirected setHost resolver url IpAddr.Internal)) ∧ ∀ allowPrivate addresses,
      fetch setHost resolver allowPrivate url authentication = .ok addresses →
      ((∀ address ∈ addresses, ¬address.Metadata) ↔
        ¬Misdirected setHost resolver url IpAddr.Metadata) := by
  refine ⟨fun pinned hpin => ?_, fun addresses => ?_, fun allowPrivate addresses => ?_⟩
  · rw [internal_iff_unfiltered (pinnedClient_public hpin)]
  · exact fetch_misdirected_iff fun _ => destinationAllowed_external
  · exact fetch_misdirected_iff fun _ => destinationAllowed_metadata

namespace Sample

def url : Url := ⟨"https", "", none, some (.domain "hooks.example"), some 443⟩

def resolver : Resolver
  | "hooks.example" => some [.v4 ⟨93, 184, 216, 34⟩]
  | _ => none

def setHost : HostName → Option Host
  | .name text => some (.domain text)
  | .address (.v4 address) => some (.ipv4 address)
  | .address (.v6 _) => none

/-- ::ffff:10.0.0.1 -/
def mapped : Ipv6Addr := ⟨0, 0, 0, 0, 0, 0xffff, 0x0a00, 1⟩

end Sample

open Sample

theorem requests_external_public :
    ¬(IpAddr.v4 ⟨93, 184, 216, 34⟩).Internal ∧ ¬(IpAddr.v4 ⟨93, 184, 216, 34⟩).Metadata := by
  obtain ⟨hpin, -, hfetch⟩ := requests_external_iff setHost resolver url none
  have hexternal := hpin (.v4 ⟨93, 184, 216, 34⟩) (by decide +kernel)
  have hmeta := hfetch true [.v4 ⟨93, 184, 216, 34⟩] (by decide +kernel)
  refine ⟨hexternal.mpr ?_, hmeta.mpr ?_ _ List.mem_cons_self⟩
  · show ¬(sharedV4.Holds 32 _ ∨ thisNetworkV4.Holds 32 _ ∨ reservedV4.Holds 32 _)
    decide +kernel
  · rintro ⟨host, name, addresses, hhost, hset, hne, -⟩
    cases hhost
    cases hset
    exact hne rfl

/-- A shared address, and an IPv6 address that carries a private one, are taken for public. -/
theorem internal_address_pinned :
    pinnedClient (fun _ => some [.v4 ⟨100, 64, 0, 1⟩]) Sample.url = some (.v4 ⟨100, 64, 0, 1⟩) ∧
    (IpAddr.v4 ⟨100, 64, 0, 1⟩).Internal ∧
    pinnedClient (fun _ => some [.v6 Sample.mapped]) Sample.url = some (.v6 Sample.mapped) ∧
    (IpAddr.v6 Sample.mapped).Internal := by
  refine ⟨by decide +kernel, ?_, by decide +kernel, ?_⟩
  · show InternalV4 _
    decide +kernel
  · exact .inr ⟨0x0a000001, .mapped (by decide +kernel), by decide +kernel⟩

end Piqae.Outgoing
