import Mathlib.Data.List.Dedup
import Mathlib.Data.List.Sort
import Oxydra.Library.IpAddress
import Oxydra.Library.TextSearch

/-!
# Which addresses the web tools may reach

`parse_and_validate_web_url` of `crates/tools/src/sandbox/wasm_runner.rs` parses a URL, resolves its
host, and refuses it where one of the addresses is blocked, unless the allowlist of the egress
policy has the host. `blocked_ip_reason` is the list of the blocked addresses.

`validateWebUrl_iff` says what the list leaves out: the unspecified addresses, and the IPv6 addresses
that embed an IPv4 address which designates an endpoint that is not on the public network.

The URL parser, the resolver and the environment are parameters.
-/

namespace Oxydra

open List Text

/-- What the text of a URL says, with the port as it is written. -/
structure UrlText where
  scheme : String
  host : Option String
  port : Option ℕ := none
  deriving DecidableEq, Repr

/-- `Url`, of which the parser drops a port that is the default of the scheme. -/
structure Url where
  scheme : String
  host : Option String
  port : Option ℕ
  deriving DecidableEq, Repr

/-- The default ports of the URL standard. -/
def defaultPort (scheme : String) : Option ℕ :=
  match scheme with
  | "http" | "ws" => some 80
  | "https" | "wss" => some 443
  | "ftp" => some 21
  | _ => none

/-- The URL of a text. -/
def UrlText.url (t : UrlText) : Url where
  scheme := t.scheme
  host := t.host
  port := if t.port = defaultPort t.scheme then none else t.port

/-- `Url::port_or_known_default`. -/
def Url.portOrKnownDefault (url : Url) : Option ℕ := url.port.or (defaultPort url.scheme)

/-- `matches!(url.scheme(), "http" | "https")`. -/
def isWebScheme (scheme : String) : Bool := scheme = "http" || scheme = "https"

/-- What the web tools are given: the environment, the URL parser and the resolver. -/
structure WebEnvironment where
  env : String → Option String
  readUrl : String → Option UrlText
  lookupHost : String → ℕ → Except String (List IpAddr)

/-- The errors, with what their messages name. -/
inductive WebTargetError where
  | invalidUrl (raw_url : String)
  | unsupportedScheme (scheme : String)
  | missingHost (raw_url : String)
  | missingPort (raw_url scheme : String)
  | unsupportedMode (value : String)
  | strictWithoutAllowlist
  | strictWithoutProxy
  | invalidProxyUrl (proxy_url : String)
  | proxyScheme (proxy_url : String)
  | proxyHost (proxy_url : String)
  | notAllowlisted (host : String) (port : ℕ)
  | unresolved (host error : String)
  | noAddresses (host : String)
  | blockedAddress (host : String) (ip : IpAddr) (reason : String)
  deriving DecidableEq, Repr

/-! ## The policy -/

inductive WebEgressMode where
  | defaultSafe
  | strictAllowlistProxy
  deriving DecidableEq, Repr

/-- `WebEgressPolicy`. The allowlist is a `BTreeSet`, which is asked for members only. -/
structure WebEgressPolicy where
  mode : WebEgressMode := .defaultSafe
  allowlist : List String := []
  deriving DecidableEq, Repr

/-- `normalize_host_for_allowlist`. -/
def normalizeHostForAllowlist (host : String) : String :=
  asciiLower (String.ofList ((trim host).toList.reverse.dropWhile (· == '.')).reverse)

/-- `WebEgressPolicy::destination_allowlisted`. -/
def WebEgressPolicy.destinationAllowlisted (policy : WebEgressPolicy) (host : String) (port : ℕ) :
    Bool :=
  if policy.allowlist = [] then false
  else
    let host := normalizeHostForAllowlist host
    policy.allowlist.contains host || policy.allowlist.contains (host ++ ":" ++ toString port)

namespace WebEnvironment

variable (w : WebEnvironment)

/-- `read_non_empty_env`. -/
def readNonEmptyEnv (name : String) : Option String := ((w.env name).map trim).filter (· ≠ "")

/-- `Url::parse`. -/
def parseUrl (text : String) : Option Url := (w.readUrl text).map UrlText.url

/-- `normalize_allowlist_entry`. -/
def normalizeAllowlistEntry (entry : String) : Option String :=
  let entry := trim entry
  if entry = "" then none
  else
    match w.parseUrl entry with
    | some url => do
      let host ← (url.host.map normalizeHostForAllowlist).filter (· ≠ "")
      match url.port with
      | some port => some (host ++ ":" ++ toString port)
      | none => some host
    | none => some (normalizeHostForAllowlist entry)

/-- `raw.split(',')`. -/
def splitComma (raw : String) : List String :=
  (raw.toList.splitOn ',').map String.ofList

/-- The allowlist of a text. -/
def parseAllowlist (raw : String) : List String :=
  (splitComma raw).filterMap w.normalizeAllowlistEntry

/-- `validate_proxy_url`. -/
def validateProxyUrl (proxy_url : String) : Except WebTargetError Unit :=
  match w.parseUrl proxy_url with
  | none => .error (.invalidProxyUrl proxy_url)
  | some url =>
    if ¬isWebScheme url.scheme then .error (.proxyScheme proxy_url)
    else if url.host = none then .error (.proxyHost proxy_url)
    else .ok ()

/-- `WebEgressPolicy::from_environment`. -/
def policyFromEnvironment : Except WebTargetError WebEgressPolicy := do
  let mode ←
    match (w.readNonEmptyEnv "OXYDRA_WEB_EGRESS_MODE").map asciiLower with
    | none | some "default" | some "safe" => pure WebEgressMode.defaultSafe
    | some "strict" | some "strict_allowlist_proxy" => pure .strictAllowlistProxy
    | some value => .error (.unsupportedMode value)
  let allowlist :=
    ((w.readNonEmptyEnv "OXYDRA_WEB_EGRESS_ALLOWLIST").map w.parseAllowlist).getD []
  match mode, w.readNonEmptyEnv "OXYDRA_WEB_EGRESS_PROXY_URL" with
  | .strictAllowlistProxy, proxy_url =>
    if allowlist = [] then .error .strictWithoutAllowlist
    else
      match proxy_url with
      | none => .error .strictWithoutProxy
      | some proxy_url => w.validateProxyUrl proxy_url
  | .defaultSafe, some proxy_url => w.validateProxyUrl proxy_url
  | .defaultSafe, none => pure ()
  return { mode, allowlist }

end WebEnvironment

/-! ## The addresses -/

/-- `blocked_ip_reason`. -/
def blockedIpReason : IpAddr → Option String
  | .v4 ip =>
    if ip = ⟨169, 254, 169, 254⟩ then some "metadata endpoint is blocked"
    else if ip.a = 127 then some "loopback range 127.0.0.0/8 is blocked"
    else if ip.a = 169 ∧ ip.b = 254 then some "link-local range 169.254.0.0/16 is blocked"
    else if ip.a = 10 then some "private range 10.0.0.0/8 is blocked"
    else if ip.a = 172 ∧ 16 ≤ ip.b ∧ ip.b ≤ 31 then some "private range 172.16.0.0/12 is blocked"
    else if ip.a = 192 ∧ ip.b = 168 then some "private range 192.168.0.0/16 is blocked"
    else none
  | .v6 ip =>
    if ip = ⟨0, 0, 0, 0, 0, 0, 0, 1⟩ then some "loopback IPv6 addresses are blocked"
    else if ip.s0 &&& 0xfe00 = 0xfc00 then some "unique-local IPv6 range fc00::/7 is blocked"
    else if ip.s0 &&& 0xffc0 = 0xfe80 then some "link-local IPv6 range fe80::/10 is blocked"
    else none

/-- `collect::<BTreeSet<_>>`. -/
def uniqueIps (resolved : List IpAddr) : List IpAddr :=
  resolved.dedup.insertionSort fun x y => x.key ≤ y.key

/-- `enforce_web_target_ips`. -/
def enforceWebTargetIps (host : String) (destination_allowlisted : Bool) :
    List IpAddr → Except WebTargetError Unit
  | [] => .ok ()
  | ip :: ips =>
    match blockedIpReason ip with
    | some reason =>
      if destination_allowlisted then enforceWebTargetIps host destination_allowlisted ips
      else .error (.blockedAddress host ip reason)
    | none => enforceWebTargetIps host destination_allowlisted ips

namespace WebEnvironment

variable (w : WebEnvironment)

/-- `resolve_host_ips`. -/
def resolveHostIps (host : String) (port : ℕ) : Except WebTargetError (List IpAddr) :=
  match w.lookupHost host port with
  | .error error => .error (.unresolved host error)
  | .ok resolved =>
    if uniqueIps resolved = [] then .error (.noAddresses host) else .ok (uniqueIps resolved)

/-- `parse_and_validate_web_url`. -/
def parseAndValidateWebUrl (raw_url : String) : Except WebTargetError Url := do
  match w.parseUrl raw_url with
  | none => .error (.invalidUrl raw_url)
  | some url =>
    if ¬isWebScheme url.scheme then .error (.unsupportedScheme url.scheme)
    else
      match url.host, url.portOrKnownDefault with
      | none, _ => .error (.missingHost raw_url)
      | some _, none => .error (.missingPort raw_url url.scheme)
      | some host, some port =>
        let policy ← w.policyFromEnvironment
        let allowlisted := policy.destinationAllowlisted host port
        if policy.mode = .strictAllowlistProxy ∧ ¬allowlisted then
          .error (.notAllowlisted host port)
        else
          let ips ← w.resolveHostIps host port
          enforceWebTargetIps host allowlisted ips
          return url

end WebEnvironment

/-! ## What is blocked -/

/-- The addresses that `blocked_ip_reason` leaves out though they designate endpoints that are not on
the public network: the unspecified ones, and those that embed such an IPv4 address. -/
def Overlooked : IpAddr → Prop
  | .v4 ip => ip = ⟨0, 0, 0, 0⟩
  | .v6 ip => ip = ⟨0, 0, 0, 0, 0, 0, 0, 0⟩ ∨ (ip.IsMapped ∧ ∃ k, ip.embedded.Designates k)

theorem isSome_ite {α : Type*} {p : Prop} [Decidable p] {a : α} {o : Option α} :
    (if p then some a else o).isSome ↔ p ∨ o.isSome := by
  split_ifs with h <;> simp [h]

/-- An IPv4 address is blocked when it designates an endpoint other than the unspecified one. -/
theorem blockedIpReason_v4 (ip : Ipv4Addr) :
    (blockedIpReason (.v4 ip)).isSome ↔ ip.Designates .loopback ∨ ip.Designates .linkLocal ∨
      ip.Designates .private ∨ ip.Designates .metadata := by
  rw [ip.loopback_iff, ip.linkLocal_iff, ip.private_iff, ip.metadata_iff]
  unfold blockedIpReason
  simp only [isSome_ite, Option.isSome_none, Bool.false_eq_true, or_false]
  tauto

/-- The masks of the two IPv6 blocks. -/
theorem blockedIpReason_v6 (ip : Ipv6Addr) :
    (blockedIpReason (.v6 ip)).isSome ↔ Ipv6Addr.InBlock ⟨0, 0, 0, 0, 0, 0, 0, 1⟩ 128 ip ∨
      Ipv6Addr.InBlock ⟨0xfc00, 0, 0, 0, 0, 0, 0, 0⟩ 7 ip ∨
      Ipv6Addr.InBlock ⟨0xfe80, 0, 0, 0, 0, 0, 0, 0⟩ 10 ip := by
  have hlocal : ip.s0 &&& 0xfe00 = 0xfc00 ↔ ip.s0.toNat / 2^9 = 126 :=
    UInt16.and_mask (m := 7) (by decide) (by decide) rfl
  have hlink : ip.s0 &&& 0xffc0 = 0xfe80 ↔ ip.s0.toNat / 2^6 = 1018 :=
    UInt16.and_mask (m := 10) (by decide) (by decide) rfl
  rw [ip.inBlock_full_iff, ip.inBlock_iff (by decide), ip.inBlock_iff (by decide)]
  unfold blockedIpReason
  simp only [isSome_ite, Option.isSome_none, Bool.false_eq_true, or_false, hlocal, hlink]
  rfl

/-- A mapped address is in no other block. -/
theorem blockedIpReason_mapped {ip : Ipv6Addr} (h : ip.IsMapped) :
    blockedIpReason (.v6 ip) = none := by
  obtain ⟨⟨h0, -⟩, -, h5⟩ := ip.isMapped_iff.mp h
  have hone : ip ≠ ⟨0, 0, 0, 0, 0, 0, 0, 1⟩ := by
    rintro rfl
    exact absurd h5 (by decide)
  unfold blockedIpReason
  dsimp only
  rw [if_neg hone, h0]
  rfl

/-- The addresses that designate an endpoint which is not on the public network are those that are
blocked and those that are overlooked. -/
theorem designates_iff (ip : IpAddr) :
    (∃ k, ip.Designates k) ↔ (blockedIpReason ip).isSome ∨ Overlooked ip := by
  cases ip with
  | v4 ip =>
    rw [blockedIpReason_v4]
    constructor
    · rintro ⟨k, hk⟩
      cases k with
      | unspecified => exact .inr (ip.unspecified_iff.mp hk)
      | loopback => exact .inl (.inl hk)
      | linkLocal => exact .inl (.inr (.inl hk))
      | «private» => exact .inl (.inr (.inr (.inl hk)))
      | metadata => exact .inl (.inr (.inr (.inr hk)))
    · rintro ((h | h | h | h) | h)
      · exact ⟨.loopback, h⟩
      · exact ⟨.linkLocal, h⟩
      · exact ⟨.private, h⟩
      · exact ⟨.metadata, h⟩
      · exact ⟨.unspecified, ip.unspecified_iff.mpr h⟩
  | v6 ip =>
    by_cases hmapped : ip.IsMapped
    · have hnone := blockedIpReason_mapped hmapped
      have hunspecified : ip ≠ ⟨0, 0, 0, 0, 0, 0, 0, 0⟩ := by
        rintro rfl
        exact absurd (Ipv6Addr.isMapped_iff _ |>.mp hmapped).2.2 (by decide)
      simp [IpAddr.Designates, Overlooked, hmapped, hnone, hunspecified]
    · rw [blockedIpReason_v6]
      constructor
      · rintro ⟨k, hk⟩
        have hk := (hk.resolve_left fun h => hmapped h.1).2
        cases k with
        | unspecified => exact .inr (.inl (ip.inBlock_full_iff.mp hk))
        | loopback => exact .inl (.inl hk)
        | linkLocal => exact .inl (.inr (.inr hk))
        | «private» => exact .inl (.inr (.inl hk))
        | metadata => exact hk.elim
      · rintro ((h | h | h) | h | h)
        · exact ⟨.loopback, .inr ⟨hmapped, h⟩⟩
        · exact ⟨.private, .inr ⟨hmapped, h⟩⟩
        · exact ⟨.linkLocal, .inr ⟨hmapped, h⟩⟩
        · exact ⟨.unspecified, .inr ⟨hmapped, ip.inBlock_full_iff.mpr h⟩⟩
        · exact absurd h.1 hmapped

/-! ## URLs that are accepted -/

/-- A host that is not allowlisted is let through when none of its addresses is blocked. -/
theorem enforceWebTargetIps_isOk (host : String) (ips : List IpAddr) :
    (enforceWebTargetIps host false ips).isOk ↔ ∀ ip ∈ ips, blockedIpReason ip = none := by
  induction ips with
  | nil => simp [enforceWebTargetIps, Except.isOk, Except.toBool]
  | cons ip ips ih =>
    rw [forall_mem_cons]
    unfold enforceWebTargetIps
    cases hreason : blockedIpReason ip with
    | some reason => simp [Except.isOk, Except.toBool]
    | none => simp [ih]

theorem mem_uniqueIps {ips : List IpAddr} {ip : IpAddr} : ip ∈ uniqueIps ips ↔ ip ∈ ips := by
  unfold uniqueIps
  rw [(perm_insertionSort _ _).mem_iff, mem_dedup]

/-- A URL names a host that is not allowlisted, in the default mode, and the host resolves to some
addresses. -/
structure WebEnvironment.DefaultTarget (w : WebEnvironment) (raw_url host : String)
    (ips : List IpAddr) : Prop where
  accepted : ∃ url, w.parseUrl raw_url = some url ∧ isWebScheme url.scheme ∧
    url.host = some host ∧ ∃ port, url.portOrKnownDefault = some port ∧
    w.lookupHost host port = .ok ips ∧ ∃ policy, w.policyFromEnvironment = .ok policy ∧
    policy.mode = .defaultSafe ∧ policy.destinationAllowlisted host port = false

/-- Such a URL is accepted exactly when there is an address, and none is blocked. -/
theorem WebEnvironment.DefaultTarget.isOk_iff {w : WebEnvironment} {raw_url host : String}
    {ips : List IpAddr} (h : w.DefaultTarget raw_url host ips) :
    (w.parseAndValidateWebUrl raw_url).isOk ↔
      ips ≠ [] ∧ ∀ ip ∈ ips, blockedIpReason ip = none := by
  obtain ⟨url, hurl, hscheme, hhost, port, hport, hips, policy, hpolicy, hmode, hlisted⟩ :=
    h.accepted
  have hempty : uniqueIps ips = [] ↔ ips = [] := by
    simp only [eq_nil_iff_forall_not_mem, mem_uniqueIps]
  have hmem : (∀ ip ∈ uniqueIps ips, blockedIpReason ip = none) ↔
      ∀ ip ∈ ips, blockedIpReason ip = none := by
    simp only [mem_uniqueIps]
  have hresolve : w.resolveHostIps host port =
      if ips = [] then .error (.noAddresses host) else .ok (uniqueIps ips) := by
    unfold resolveHostIps
    rw [hips]
    exact if_congr hempty rfl rfl
  unfold parseAndValidateWebUrl
  rw [hurl]
  dsimp only
  rw [if_neg (by simp [hscheme]), hhost, hport, hpolicy]
  show (if _ then _ else _ : Except WebTargetError Url).isOk ↔ _
  rw [if_neg (by simp [hmode]), hlisted, hresolve]
  by_cases hnone : ips = []
  · simp [hnone, Except.isOk, Except.toBool, bind, Except.bind]
  · rw [if_neg hnone, ← hmem, ← enforceWebTargetIps_isOk host]
    show (Except.isOk (enforceWebTargetIps host false (uniqueIps ips) >>= fun _ => pure url)) ↔ _
    cases enforceWebTargetIps host false (uniqueIps ips) <;>
      simp [hnone, Except.isOk, Except.toBool, bind, Except.bind, pure, Except.pure]

/-- In the default mode, a URL of a host that is not allowlisted is accepted only if no address of
the host designates an endpoint that is not on the public network, exactly when one of its addresses
is blocked or none is overlooked. -/
theorem validateWebUrl_iff {w : WebEnvironment} {raw_url host : String} {ips : List IpAddr}
    (h : w.DefaultTarget raw_url host ips) :
    ((w.parseAndValidateWebUrl raw_url).isOk → ∀ ip ∈ ips, ∀ k, ¬ip.Designates k) ↔
      (∃ ip ∈ ips, (blockedIpReason ip).isSome) ∨ ∀ ip ∈ ips, ¬Overlooked ip := by
  rw [h.isOk_iff]
  constructor
  · intro hsafe
    by_cases hblocked : ∃ ip ∈ ips, (blockedIpReason ip).isSome
    · exact .inl hblocked
    · have hnone : ∀ ip ∈ ips, blockedIpReason ip = none := by
        intro ip hip
        by_contra hsome
        exact hblocked ⟨ip, hip, Option.isSome_iff_ne_none.mpr hsome⟩
      refine .inr fun ip hip hover => ?_
      obtain ⟨k, hk⟩ := (designates_iff ip).mpr (.inr hover)
      exact hsafe ⟨ne_nil_of_mem hip, hnone⟩ ip hip k hk
  · rintro hcond ⟨-, hnone⟩ ip hip k hk
    rcases (designates_iff ip).mp ⟨k, hk⟩ with hblocked | hover
    · rw [hnone ip hip] at hblocked
      exact absurd hblocked (by simp)
    · rcases hcond with ⟨ip', hip', hblocked⟩ | hclean
      · rw [hnone ip' hip'] at hblocked
        exact absurd hblocked (by simp)
      · exact hclean ip hip hover

/-- No variables are set, and one host is known. -/
def oneHost (ips : List IpAddr) : WebEnvironment where
  env _ := none
  readUrl text := if text = "http://host.test/" then some ⟨"http", some "host.test", none⟩ else none
  lookupHost _ _ := .ok ips

theorem oneHost_target (ips : List IpAddr) :
    (oneHost ips).DefaultTarget "http://host.test/" "host.test" ips :=
  ⟨⟨"http", some "host.test", none⟩, rfl, rfl, rfl, 80, rfl, rfl, {}, rfl, rfl, rfl⟩

/-- A URL of a host with an address on the public network is accepted, and the condition holds. -/
theorem publicHost_accepted : ((oneHost [.v4 ⟨93, 184, 216, 34⟩]).parseAndValidateWebUrl
      "http://host.test/").isOk ∧
    ∀ k, ¬(IpAddr.v4 ⟨93, 184, 216, 34⟩).Designates k := by
  have hok : ((oneHost [.v4 ⟨93, 184, 216, 34⟩]).parseAndValidateWebUrl
      "http://host.test/").isOk := by
    rw [(oneHost_target _).isOk_iff]
    decide
  exact ⟨hok, (validateWebUrl_iff (oneHost_target _)).mpr (.inr (by simp [Overlooked])) hok _
    (mem_singleton_self _)⟩

/-- URLs of hosts with the address `0.0.0.0` and with `::ffff:169.254.169.254`, which is the metadata
endpoint, are accepted. -/
theorem overlooked_accepted :
    (((oneHost [.v4 ⟨0, 0, 0, 0⟩]).parseAndValidateWebUrl "http://host.test/").isOk ∧
      (IpAddr.v4 ⟨0, 0, 0, 0⟩).Designates .unspecified) ∧
    ((oneHost [.v6 ⟨0, 0, 0, 0, 0, 0xffff, 0xa9fe, 0xa9fe⟩]).parseAndValidateWebUrl
        "http://host.test/").isOk ∧
      (IpAddr.v6 ⟨0, 0, 0, 0, 0, 0xffff, 0xa9fe, 0xa9fe⟩).Designates .metadata := by
  rw [(oneHost_target _).isOk_iff, (oneHost_target _).isOk_iff]
  decide

end Oxydra
