import Mathlib.Data.Nat.Bitwise
import Mathlib.Tactic.IntervalCases

/-!
# Internet addresses

IPv4 addresses as four octets and IPv6 addresses as eight segments, the blocks of addresses that
share a prefix, and the endpoints that are not on the public network: loopback, unspecified,
link-local, private and metadata ones. An IPv4-mapped IPv6 address designates the endpoint of the
IPv4 address in it.
-/

@[ext] structure Ipv4Addr where
  a : UInt8
  b : UInt8
  c : UInt8
  d : UInt8
  deriving DecidableEq, Repr

@[ext] structure Ipv6Addr where
  s0 : UInt16
  s1 : UInt16 := 0
  s2 : UInt16 := 0
  s3 : UInt16 := 0
  s4 : UInt16 := 0
  s5 : UInt16 := 0
  s6 : UInt16 := 0
  s7 : UInt16 := 0
  deriving DecidableEq, Repr

inductive IpAddr where
  | v4 (ip : Ipv4Addr)
  | v6 (ip : Ipv6Addr)
  deriving DecidableEq, Repr

/-- The digits in base `2^w`, the first one the highest. -/
def Nat.ofWords (w : ℕ) (words : List ℕ) : ℕ := words.foldl (fun n word => n * 2^w + word) 0

/-- An address as a number. -/
def Ipv4Addr.toBits (ip : Ipv4Addr) : ℕ :=
  Nat.ofWords 8 [ip.a.toNat, ip.b.toNat, ip.c.toNat, ip.d.toNat]

/-- An address as a number. -/
def Ipv6Addr.toBits (ip : Ipv6Addr) : ℕ :=
  Nat.ofWords 16 [ip.s0.toNat, ip.s1.toNat, ip.s2.toNat, ip.s3.toNat, ip.s4.toNat, ip.s5.toNat,
    ip.s6.toNat, ip.s7.toNat]

/-- The order of `IpAddr`: the IPv4 addresses first. -/
def IpAddr.key : IpAddr → ℕ
  | .v4 ip => ip.toBits
  | .v6 ip => 2^32 + ip.toBits

/-- The block `base/len`: the addresses with the first `len` bits of `base`. -/
def Ipv4Addr.InBlock (base : Ipv4Addr) (len : ℕ) (ip : Ipv4Addr) : Prop :=
  ip.toBits / 2^(32 - len) = base.toBits / 2^(32 - len)

/-- The block `base/len`. -/
def Ipv6Addr.InBlock (base : Ipv6Addr) (len : ℕ) (ip : Ipv6Addr) : Prop :=
  ip.toBits / 2^(128 - len) = base.toBits / 2^(128 - len)

instance (base : Ipv4Addr) (len : ℕ) (ip : Ipv4Addr) : Decidable (base.InBlock len ip) :=
  inferInstanceAs (Decidable (_ = _))

instance (base : Ipv6Addr) (len : ℕ) (ip : Ipv6Addr) : Decidable (base.InBlock len ip) :=
  inferInstanceAs (Decidable (_ = _))

/-- The endpoints that are not on the public network. -/
inductive Endpoint where
  | loopback
  | unspecified
  | linkLocal
  | «private»
  | metadata
  deriving DecidableEq, Repr

/-- The endpoints that an IPv4 address designates. -/
def Ipv4Addr.Designates (ip : Ipv4Addr) : Endpoint → Prop
  | .loopback => InBlock ⟨127, 0, 0, 0⟩ 8 ip
  | .unspecified => InBlock ⟨0, 0, 0, 0⟩ 32 ip
  | .linkLocal => InBlock ⟨169, 254, 0, 0⟩ 16 ip
  | .private => InBlock ⟨10, 0, 0, 0⟩ 8 ip ∨ InBlock ⟨172, 16, 0, 0⟩ 12 ip ∨
      InBlock ⟨192, 168, 0, 0⟩ 16 ip
  | .metadata => InBlock ⟨169, 254, 169, 254⟩ 32 ip

/-- The block `::ffff:0:0/96` of the IPv4-mapped addresses. -/
def Ipv6Addr.IsMapped (ip : Ipv6Addr) : Prop := InBlock ⟨0, 0, 0, 0, 0, 0xffff, 0, 0⟩ 96 ip

/-- The IPv4 address in the last 32 bits. -/
def Ipv6Addr.embedded (ip : Ipv6Addr) : Ipv4Addr :=
  ⟨(ip.s6 >>> 8).toUInt8, ip.s6.toUInt8, (ip.s7 >>> 8).toUInt8, ip.s7.toUInt8⟩

/-- The endpoints that an address designates. -/
def IpAddr.Designates (k : Endpoint) : IpAddr → Prop
  | .v4 ip => ip.Designates k
  | .v6 ip => (ip.IsMapped ∧ ip.embedded.Designates k) ∨
      (¬ip.IsMapped ∧
        match k with
        | .loopback => Ipv6Addr.InBlock ⟨0, 0, 0, 0, 0, 0, 0, 1⟩ 128 ip
        | .unspecified => Ipv6Addr.InBlock ⟨0, 0, 0, 0, 0, 0, 0, 0⟩ 128 ip
        | .linkLocal => Ipv6Addr.InBlock ⟨0xfe80, 0, 0, 0, 0, 0, 0, 0⟩ 10 ip
        | .private => Ipv6Addr.InBlock ⟨0xfc00, 0, 0, 0, 0, 0, 0, 0⟩ 7 ip
        | .metadata => False)

instance (ip : Ipv4Addr) (k : Endpoint) : Decidable (ip.Designates k) := by
  cases k <;> unfold Ipv4Addr.Designates <;> infer_instance

instance (ip : Ipv6Addr) : Decidable ip.IsMapped := inferInstanceAs (Decidable (_ = _))

instance (ip : IpAddr) (k : Endpoint) : Decidable (ip.Designates k) := by
  cases ip <;> cases k <;> unfold IpAddr.Designates <;> infer_instance

/-! ## Blocks by octets and segments -/

/-- Bits that are kept at a place are the bits of the number shifted there. -/
theorem Nat.and_mul_two_pow (x m k : ℕ) : x &&& (m * 2^k) = ((x / 2^k) &&& m) * 2^k := by
  refine Nat.eq_of_testBit_eq fun i => ?_
  rw [Nat.testBit_and, Nat.testBit_mul_two_pow, Nat.testBit_mul_two_pow, Nat.testBit_and,
    Nat.testBit_div_two_pow]
  by_cases h : k ≤ i
  · rw [Nat.sub_add_cancel h]
    simp [h]
  · simp [h]

/-- The high bits of a word, under a mask. -/
theorem UInt16.and_mask {x mask value : UInt16} {m v k : ℕ} (hm : mask.toNat = (2^m - 1) * 2^k)
    (hv : value.toNat = v * 2^k) (hbits : m + k = 16) :
    x &&& mask = value ↔ x.toNat / 2^k = v := by
  have hx : x.toNat / 2^k < 2^m := by
    rw [Nat.div_lt_iff_lt_mul (by positivity), ← pow_add, hbits]
    exact x.toNat_lt
  rw [← UInt16.toNat_inj, UInt16.toNat_and, hm, hv, Nat.and_mul_two_pow,
    Nat.and_two_pow_sub_one_eq_mod, Nat.mod_eq_of_lt hx]
  exact Nat.mul_left_inj (by positivity)

section Octets

variable (ip : Ipv4Addr)

theorem Ipv4Addr.toBits_eq :
    ip.toBits = ((ip.a.toNat * 256 + ip.b.toNat) * 256 + ip.c.toNat) * 256 + ip.d.toNat := by
  simp [Ipv4Addr.toBits, Nat.ofWords]

/-- The octets are digits. -/
theorem Ipv4Addr.octets_lt :
    ip.a.toNat < 256 ∧ ip.b.toNat < 256 ∧ ip.c.toNat < 256 ∧ ip.d.toNat < 256 :=
  ⟨ip.a.toNat_lt, ip.b.toNat_lt, ip.c.toNat_lt, ip.d.toNat_lt⟩

/-- The loopback block is told by its first octet. -/
theorem Ipv4Addr.loopback_iff : ip.Designates .loopback ↔ ip.a = 127 := by
  obtain ⟨ha, hb, hc, hd⟩ := ip.octets_lt
  show InBlock _ _ _ ↔ _
  unfold InBlock
  rw [← UInt8.toNat_inj, toBits_eq, toBits_eq]
  simp only [UInt8.reduceToNat]
  omega

theorem Ipv4Addr.linkLocal_iff : ip.Designates .linkLocal ↔ ip.a = 169 ∧ ip.b = 254 := by
  obtain ⟨ha, hb, hc, hd⟩ := ip.octets_lt
  show InBlock _ _ _ ↔ _
  unfold InBlock
  rw [← UInt8.toNat_inj, ← UInt8.toNat_inj, toBits_eq, toBits_eq]
  simp only [UInt8.reduceToNat]
  omega

theorem Ipv4Addr.private_iff : ip.Designates .private ↔ ip.a = 10 ∨
    (ip.a = 172 ∧ 16 ≤ ip.b ∧ ip.b ≤ 31) ∨ (ip.a = 192 ∧ ip.b = 168) := by
  obtain ⟨ha, hb, hc, hd⟩ := ip.octets_lt
  show InBlock _ _ _ ∨ InBlock _ _ _ ∨ InBlock _ _ _ ↔ _
  unfold InBlock
  simp only [← UInt8.toNat_inj, UInt8.le_iff_toNat_le, toBits_eq, UInt8.reduceToNat]
  omega

theorem Ipv4Addr.unspecified_iff : ip.Designates .unspecified ↔ ip = ⟨0, 0, 0, 0⟩ := by
  obtain ⟨ha, hb, hc, hd⟩ := ip.octets_lt
  show InBlock _ _ _ ↔ _
  unfold InBlock
  rw [Ipv4Addr.ext_iff]
  simp only [← UInt8.toNat_inj, toBits_eq, UInt8.reduceToNat]
  omega

theorem Ipv4Addr.metadata_iff : ip.Designates .metadata ↔ ip = ⟨169, 254, 169, 254⟩ := by
  obtain ⟨ha, hb, hc, hd⟩ := ip.octets_lt
  show InBlock _ _ _ ↔ _
  unfold InBlock
  rw [Ipv4Addr.ext_iff]
  simp only [← UInt8.toNat_inj, toBits_eq, UInt8.reduceToNat]
  omega

end Octets

section Segments

variable (ip : Ipv6Addr)

/-- The segments are digits. -/
theorem Ipv6Addr.segments_lt : (ip.s0.toNat < 65536 ∧ ip.s1.toNat < 65536 ∧ ip.s2.toNat < 65536 ∧
    ip.s3.toNat < 65536) ∧ ip.s4.toNat < 65536 ∧ ip.s5.toNat < 65536 ∧ ip.s6.toNat < 65536 ∧
    ip.s7.toNat < 65536 :=
  ⟨⟨ip.s0.toNat_lt, ip.s1.toNat_lt, ip.s2.toNat_lt, ip.s3.toNat_lt⟩, ip.s4.toNat_lt,
    ip.s5.toNat_lt, ip.s6.toNat_lt, ip.s7.toNat_lt⟩

theorem Ipv6Addr.toBits_div : ip.toBits / 2^112 = ip.s0.toNat := by
  have h := ip.segments_lt
  simp only [toBits, Nat.ofWords, List.foldl]
  omega

/-- A block of at most 16 bits is told by the first segment. -/
theorem Ipv6Addr.inBlock_iff {base : Ipv6Addr} {len : ℕ} (h : len ≤ 16) :
    base.InBlock len ip ↔ ip.s0.toNat / 2^(16 - len) = base.s0.toNat / 2^(16 - len) := by
  unfold InBlock
  rw [show 128 - len = 112 + (16 - len) by omega, pow_add, ← Nat.div_div_eq_div_mul,
    ← Nat.div_div_eq_div_mul, toBits_div, toBits_div]

theorem Ipv6Addr.isMapped_iff : ip.IsMapped ↔
    (ip.s0 = 0 ∧ ip.s1 = 0 ∧ ip.s2 = 0 ∧ ip.s3 = 0) ∧ ip.s4 = 0 ∧ ip.s5 = 0xffff := by
  have h := ip.segments_lt
  unfold IsMapped InBlock
  simp only [toBits, Nat.ofWords, List.foldl, ← UInt16.toNat_inj, UInt16.reduceToNat]
  omega

/-- A block of one address. -/
theorem Ipv6Addr.inBlock_full_iff {base : Ipv6Addr} : base.InBlock 128 ip ↔ ip = base := by
  have h := ip.segments_lt
  have h' := base.segments_lt
  unfold InBlock
  rw [Ipv6Addr.ext_iff]
  simp only [toBits, Nat.ofWords, List.foldl, ← UInt16.toNat_inj]
  omega

end Segments
