import Mathlib.Data.List.DropRight
import Oxydra.Library.TextLaws
import Oxydra.Tools.WebEgress

/-!
# The allowlist of the web tools

An entry of the allowlist is a host, a host and a port, or an http(s) URL. `normalize_allowlist_entry`
of `crates/tools/src/sandbox/wasm_runner.rs` takes each for a URL first, and `EntryForm` says what
each of them denotes.

`destinationAllowlisted_iff` says where the two differ. The URL parser reads `localhost:8888` as a
URL of the scheme `localhost` that has no host, so the entry is dropped. It drops the default port of
a scheme, so `http://localhost:80` allows all ports. And a dot at the end of a host is not cut off
where a port follows.

Of the URL parser, what the URL standard says of texts without a scheme, of a scheme and a number,
and of the characters of hosts is assumed.
-/

namespace Oxydra

open List Text

/-! ## Entries -/

/-- A host as it is written: no white space or control characters, not dots alone, and colons only
within brackets. -/
structure IsHostText (host : String) : Prop where
  clean : ∀ c ∈ host.toList, isWhitespace c = false ∧ isControl c = false
  named : normalizeHostForAllowlist host ≠ ""
  bracketed : ':' ∈ host.toList → host.toList.head? = some '[' ∧ host.toList.getLast? = some ']'

/-- The scheme of a URL: a letter, and then letters, digits, `+`, `-` and `.`. -/
def IsScheme (cs : List Char) : Prop :=
  (∃ c ∈ cs.head?, c.isAlpha) ∧ ∀ c ∈ cs, c.isAlphanum ∨ c = '+' ∨ c = '-' ∨ c = '.'

/-- The schemes of the URL standard that are special. -/
def specialSchemes : List String := ["http", "https", "ws", "wss", "ftp", "file"]

/-- What is assumed of the URL parser. -/
structure FollowsUrlStandard (readUrl : String → Option UrlText) : Prop where
  /-- A text without a scheme is no URL. -/
  no_scheme : ∀ text : String, (∀ c ∈ text.toList, isWhitespace c = false ∧ isControl c = false) →
    (∀ scheme rest, text.toList = scheme ++ ':' :: rest → ¬IsScheme scheme) → readUrl text = none
  /-- A scheme and a number are a URL, which has no host unless the scheme is special. -/
  scheme_number : ∀ (scheme : String) (n : ℕ), IsScheme scheme.toList → n < 2^16 →
    ∃ t, readUrl (scheme ++ ":" ++ toString n) = some t ∧ t.scheme = asciiLower scheme ∧
      (asciiLower scheme ∉ specialSchemes → t.host = none)
  /-- The host of a URL has no characters that a host may not have. -/
  host_text : ∀ text t host, readUrl text = some t → t.host = some host →
    normalizeHostForAllowlist host ≠ "" → IsHostText host

/-- What an entry denotes: a host, and a port where it names one. -/
inductive EntryForm (readUrl : String → Option UrlText) (entry : String) :
    String → Option ℕ → Prop
  | host (h : IsHostText entry) : EntryForm readUrl entry entry none
  | hostPort {host : String} {port : ℕ} (htext : IsHostText host) (hport : port < 2^16)
    (hentry : entry = host ++ ":" ++ toString port)
    (hurl : ∀ t, readUrl entry = some t → ¬isWebScheme t.scheme) :
    EntryForm readUrl entry host (some port)
  | url {t : UrlText} {host : String} (hread : readUrl entry = some t) (hweb : isWebScheme t.scheme)
    (hhost : t.host = some host) (htext : IsHostText host) :
    EntryForm readUrl entry host t.port

/-- An entry denotes a destination: its host, up to case and a dot at the end, and its port or
none. -/
def Denotes (readUrl : String → Option UrlText) (entry host : String) (port : ℕ) : Prop :=
  ∃ host' port', EntryForm readUrl entry host' port' ∧
    normalizeHostForAllowlist host' = normalizeHostForAllowlist host ∧
    (port' = none ∨ port' = some port)

/-- A host and a port, and no http(s) URL, of which the URL parser takes the host for a scheme, or
whose host ends with a dot. -/
def IsMissed (readUrl : String → Option UrlText) (entry : String) : Prop :=
  ∃ (host : String) (port : ℕ), entry = host ++ ":" ++ toString port ∧
    (∀ t, readUrl entry = some t → ¬isWebScheme t.scheme) ∧
    (IsScheme host.toList ∨ host.toList.getLast? = some '.')

/-- A URL whose host is the destination's, and whose port, with the default of its scheme dropped, is
none or the destination's. -/
def UrlText.Admits (t : UrlText) (host : String) (port : ℕ) : Prop :=
  (∃ host' ∈ t.host, normalizeHostForAllowlist host' = normalizeHostForAllowlist host) ∧
    (t.url.port = none ∨ t.url.port = some port)

/-- An http(s) URL with its scheme's default port, which is not the destination's; or a host and a
port that the URL parser takes for a URL of the destination's host. -/
def IsWidened (readUrl : String → Option UrlText) (entry host : String) (port : ℕ) : Prop :=
  ∃ t, readUrl entry = some t ∧ t.Admits host port ∧
    (isWebScheme t.scheme → t.port = defaultPort t.scheme ∧ t.port ≠ some port)

/-- The entries of an allowlist that are not empty. -/
def entriesOf (raw : String) : List String :=
  ((WebEnvironment.splitComma raw).map trim).filter (· ≠ "")

/-! ## Hosts -/

section Hosts

variable {host : String}

/-- The characters of a normalized host. -/
theorem toList_normalizeHost (h : ∀ c ∈ host.toList, isWhitespace c = false) :
    (normalizeHostForAllowlist host).toList =
      (host.toList.rdropWhile (· == '.')).map Char.toLower := by
  unfold normalizeHostForAllowlist
  rw [trim_eq_self h, toList_asciiLower, String.toList_ofList]
  rfl

/-- A colon in a normalized host is one of an address in brackets. -/
theorem IsHostText.getLast_normalize (h : IsHostText host)
    (hcolon : ':' ∈ (normalizeHostForAllowlist host).toList) :
    (normalizeHostForAllowlist host).toList.getLast? = some ']' := by
  rw [toList_normalizeHost fun c hc => (h.clean c hc).1] at hcolon ⊢
  obtain ⟨c, hc, hlower⟩ := mem_map.mp hcolon
  rw [(toLower_eq_iff (by decide) c).mp hlower] at hc
  have hlast := (h.bracketed ((List.rdropWhile_prefix _ _).mem hc)).2
  obtain ⟨front, hfront⟩ := List.getLast?_eq_some_iff.mp hlast
  rw [hfront, rdropWhile_concat_neg _ _ _ (by decide)]
  simp

/-- A normalized host does not end with a number behind a colon. -/
theorem IsHostText.normalize_ne (h : IsHostText host) (front : List Char) (n : ℕ) :
    (normalizeHostForAllowlist host).toList ≠ front ++ ':' :: (toString n).toList := by
  intro heq
  have hlast := h.getLast_normalize (by rw [heq]; simp)
  rw [heq, toList_toString] at hlast
  have hbracket : ']' ∈ zeroPad 0 n := by
    have hne : zeroPad 0 n ≠ [] := by
      rw [← toList_toString]
      simp
    rw [List.getLast?_append_of_ne_nil _ (cons_ne_nil _ _),
      List.getLast?_cons_of_ne_nil hne] at hlast
    exact mem_of_getLast? hlast
  exact absurd (isDigit_of_mem_zeroPad hbracket) (by decide)

/-- The text of a number ends with a digit. -/
theorem toString_concat (n : ℕ) : ∃ front d, (toString n).toList = front ++ [d] ∧ d.isDigit := by
  rcases eq_nil_or_concat (toString n).toList with hnil | ⟨front, d, hconcat⟩
  · simp at hnil
  · refine ⟨front, d, by simpa using hconcat, ?_⟩
    have hmem : d ∈ zeroPad 0 n := by
      rw [← toList_toString, hconcat]
      simp
    exact isDigit_of_mem_zeroPad hmem

theorem isDigit_clean {c : Char} (h : c.isDigit) :
    isWhitespace c = false ∧ isControl c = false ∧ c.toLower = c ∧ c ≠ '.' ∧ c ≠ ':' := by
  obtain ⟨hlow, hhigh⟩ : 48 ≤ c.toNat ∧ c.toNat ≤ 57 := by
    simpa [Char.isDigit, UInt32.le_iff_toNat_le] using h
  have hne : ∀ x : Char, x.toNat < 48 ∨ 57 < x.toNat → c ≠ x := by
    rintro x hx rfl
    omega
  refine ⟨?_, ?_, ?_, hne _ (by decide), hne _ (by decide)⟩
  · simp only [isWhitespace, Bool.or_eq_false_iff, Bool.and_eq_false_iff, decide_eq_false_iff_not,
      beq_eq_false_iff_ne]
    omega
  · simp only [isControl, Bool.or_eq_false_iff, Bool.and_eq_false_iff, decide_eq_false_iff_not]
    omega
  · rw [← Char.toNat_inj, toNat_toLower, if_neg (by omega)]

theorem mem_toString {c : Char} {n : ℕ} (h : c ∈ (toString n).toList) : c.isDigit := by
  rw [toList_toString] at h
  exact isDigit_of_mem_zeroPad h

/-- A host and a port have no white space and no control characters. -/
theorem IsHostText.clean_hostPort (h : IsHostText host) (port : ℕ) :
    ∀ c ∈ (host ++ ":" ++ toString port).toList, isWhitespace c = false ∧ isControl c = false := by
  intro c hc
  rw [String.toList_append, String.toList_append, mem_append, mem_append] at hc
  rcases hc with (hc | hc) | hc
  · exact h.clean c hc
  · rw [mem_singleton.mp hc]
    decide
  · exact ⟨(isDigit_clean (mem_toString hc)).1, (isDigit_clean (mem_toString hc)).2.1⟩

/-- What a host and a port are normalized to: a dot at the end of the host stays. -/
theorem IsHostText.normalize_hostPort (h : IsHostText host) (port : ℕ) :
    (normalizeHostForAllowlist (host ++ ":" ++ toString port)).toList =
      host.toList.map Char.toLower ++ ':' :: (toString port).toList := by
  have hlower : (toString port).toList.map Char.toLower = (toString port).toList := by
    refine (map_congr_left fun c hc => ?_).trans (map_id _)
    exact (isDigit_clean (mem_toString hc)).2.2.1
  obtain ⟨front, d, hconcat, hdigit⟩ := toString_concat port
  have hself : (host ++ ":" ++ toString port).toList.rdropWhile (· == '.') =
      host.toList ++ ':' :: (toString port).toList := by
    rw [String.toList_append, String.toList_append, hconcat, ← append_assoc,
      rdropWhile_concat_neg _ _ _ (by simp [(isDigit_clean hdigit).2.2.2.1])]
    simp
  rw [toList_normalizeHost fun c hc => (h.clean_hostPort port c hc).1, hself, map_append,
    map_cons, hlower]
  rfl

/-- A normalized host does not end with a dot. -/
theorem getLast_normalize_ne (h : ∀ c ∈ host.toList, isWhitespace c = false) :
    (normalizeHostForAllowlist host).toList.getLast? ≠ some '.' := by
  rw [toList_normalizeHost h]
  intro hlast
  rw [List.getLast?_map, Option.map_eq_some_iff] at hlast
  obtain ⟨c, hc, hlower⟩ := hlast
  obtain ⟨front, hfront⟩ := List.getLast?_eq_some_iff.mp hc
  have hne : host.toList.rdropWhile (· == '.') ≠ [] := by simp [hfront]
  refine absurd ((toLower_eq_iff (by decide) c).mp hlower) ?_
  have hnot := rdropWhile_last_not _ _ hne
  simpa [hfront] using hnot

/-- The lower case of a host is the normalized destination exactly when the host is the
destination's and does not end with a dot. -/
theorem IsHostText.lower_eq_iff {dest : String} (h : IsHostText host) (hdest : IsHostText dest) :
    host.toList.map Char.toLower = (normalizeHostForAllowlist dest).toList ↔
      normalizeHostForAllowlist host = normalizeHostForAllowlist dest ∧
        host.toList.getLast? ≠ some '.' := by
  have hnormalize := toList_normalizeHost fun c hc => (h.clean c hc).1
  have hkept : host.toList.getLast? ≠ some '.' →
      host.toList.rdropWhile (· == '.') = host.toList := by
    intro hlast
    rw [rdropWhile_eq_self_iff]
    intro hne hdot
    exact hlast (by rw [List.getLast?_eq_some_getLast hne, beq_iff_eq.mp hdot])
  constructor
  · intro heq
    have hlast : host.toList.getLast? ≠ some '.' := by
      intro hdot
      refine getLast_normalize_ne (fun c hc => (hdest.clean c hc).1) ?_
      rw [← heq, List.getLast?_map, hdot]
      rfl
    refine ⟨String.toList_inj.mp ?_, hlast⟩
    rw [hnormalize, hkept hlast, heq]
  · rintro ⟨heq, hlast⟩
    rw [← heq, hnormalize, hkept hlast]

end Hosts

/-! ## What the policy takes an entry for -/

/-- `normalize_allowlist_entry`, of an entry that is trimmed and not empty. -/
def WebEnvironment.takenFor (w : WebEnvironment) (entry : String) : Option String :=
  match w.parseUrl entry with
  | some url => do
    let host ← (url.host.map normalizeHostForAllowlist).filter (· ≠ "")
    match url.port with
    | some port => some (host ++ ":" ++ toString port)
    | none => some host
  | none => some (normalizeHostForAllowlist entry)

/-- What the policy takes an entry for lets a destination through. -/
def WebEnvironment.Admits (w : WebEnvironment) (entry host : String) (port : ℕ) : Prop :=
  ∃ taken ∈ w.takenFor entry, taken = normalizeHostForAllowlist host ∨
    taken = normalizeHostForAllowlist host ++ ":" ++ toString port

variable {w : WebEnvironment} {entry host : String} {port : ℕ}

theorem normalizeAllowlistEntry_eq (entry : String) : w.normalizeAllowlistEntry entry =
    if trim entry = "" then none else w.takenFor (trim entry) := rfl

/-- A destination is allowlisted when an entry lets it through. -/
theorem destinationAllowlisted_iff_admits {policy : WebEgressPolicy} {raw : String}
    (h : policy.allowlist = w.parseAllowlist raw) :
    policy.destinationAllowlisted host port ↔ ∃ entry ∈ entriesOf raw, w.Admits entry host port := by
  have hmem : ∀ taken, taken ∈ policy.allowlist ↔
      ∃ entry ∈ entriesOf raw, w.takenFor entry = some taken := by
    intro taken
    rw [h, WebEnvironment.parseAllowlist, mem_filterMap]
    constructor
    · rintro ⟨text, htext, htaken⟩
      rw [normalizeAllowlistEntry_eq] at htaken
      split_ifs at htaken with hempty
      exact ⟨trim text, mem_filter.mpr ⟨mem_map_of_mem htext, by simpa using hempty⟩,
        htaken⟩
    · rintro ⟨entry, hentry, htaken⟩
      obtain ⟨hentry, hempty⟩ := mem_filter.mp hentry
      obtain ⟨text, htext, rfl⟩ := mem_map.mp hentry
      refine ⟨text, htext, ?_⟩
      rw [normalizeAllowlistEntry_eq, if_neg (by simpa using hempty), htaken]
  unfold WebEgressPolicy.destinationAllowlisted
  constructor
  · intro hlisted
    split_ifs at hlisted
    rw [Bool.or_eq_true, contains_iff_mem, contains_iff_mem, hmem, hmem] at hlisted
    rcases hlisted with ⟨entry, hentry, htaken⟩ | ⟨entry, hentry, htaken⟩
    · exact ⟨entry, hentry, _, htaken, .inl rfl⟩
    · exact ⟨entry, hentry, _, htaken, .inr rfl⟩
  · rintro ⟨entry, hentry, taken, htaken, hsame⟩
    have hin : taken ∈ policy.allowlist := (hmem taken).mpr ⟨entry, hentry, htaken⟩
    rw [if_neg (ne_nil_of_mem hin), Bool.or_eq_true, contains_iff_mem,
      contains_iff_mem]
    rcases hsame with rfl | rfl
    · exact .inl hin
    · exact .inr hin

/-- A host lets through the destinations of the host, at every port. -/
theorem admits_host (hentry : IsHostText entry) (hread : w.readUrl entry = none) :
    w.Admits entry host port ↔
      normalizeHostForAllowlist entry = normalizeHostForAllowlist host := by
  unfold WebEnvironment.Admits WebEnvironment.takenFor WebEnvironment.parseUrl
  rw [hread]
  simp only [Option.map_none, Option.mem_some_iff, exists_eq_left']
  refine or_iff_left fun heq => ?_
  refine hentry.normalize_ne (normalizeHostForAllowlist host).toList port ?_
  rw [heq]
  simp

section Forms

variable (hdest : IsHostText host)
include hdest

/-- An entry that is read as a URL lets through what the URL admits. -/
theorem admits_of_read {t : UrlText} (hread : w.readUrl entry = some t)
    (htext : ∀ host' ∈ t.host, normalizeHostForAllowlist host' ≠ "" → IsHostText host') :
    w.Admits entry host port ↔ t.Admits host port := by
  have hurl : w.parseUrl entry = some t.url := by
    unfold WebEnvironment.parseUrl
    rw [hread]
    rfl
  unfold WebEnvironment.Admits WebEnvironment.takenFor UrlText.Admits
  rw [hurl]
  have hsame : t.url.host = t.host := rfl
  dsimp only
  rw [hsame]
  cases hhost : t.host with
  | none => simp
  | some host' =>
    by_cases hempty : normalizeHostForAllowlist host' = ""
    · have hne : "" ≠ normalizeHostForAllowlist host := fun h => hdest.named h.symm
      have hbind : (((some host').map normalizeHostForAllowlist).filter (· ≠ "")) = none := by
        simp [Option.filter, hempty]
      rw [hbind]
      simp [hempty, hne]
    · have hhost' := htext host' hhost hempty
      have hbind : (((some host').map normalizeHostForAllowlist).filter (· ≠ "")) =
          some (normalizeHostForAllowlist host') := by simp [hempty]
      rw [hbind]
      have hne : ∀ (n : ℕ) {a b : String}, IsHostText b →
          normalizeHostForAllowlist a ++ ":" ++ toString n ≠ normalizeHostForAllowlist b := by
        intro n a b hb heq
        refine hb.normalize_ne (normalizeHostForAllowlist a).toList n ?_
        rw [← heq]
        simp
      -- a URL without a port admits its host at every port
      cases hport : t.url.port with
      | none =>
        simp only [Option.bind_eq_bind, Option.bind_some, Option.mem_some_iff, exists_eq_left',
          true_or, and_true]
        exact or_iff_left fun h => hne port hhost' h.symm
      | some port' =>
        simp only [Option.bind_eq_bind, Option.bind_some, Option.mem_some_iff, exists_eq_left',
          reduceCtorEq, false_or, Option.some.injEq]
        rw [or_iff_right (hne port' hdest)]
        constructor
        · intro heq
          have hchars := congrArg String.toList heq
          rw [String.toList_append, String.toList_append, String.toList_append,
            String.toList_append, append_assoc, append_assoc, toList_toString,
            toList_toString] at hchars
          obtain ⟨hp, hh⟩ := zeroPad_after (by decide) hchars
          exact ⟨String.toList_inj.mp hh, hp⟩
        · rintro ⟨hh, hp⟩
          rw [hh, hp]

/-- A host and a port that are not read as a URL let through the destination that they name, unless
the host ends with a dot. -/
theorem admits_hostPort {host' : String} {port' : ℕ} (htext : IsHostText host')
    (hread : w.readUrl (host' ++ ":" ++ toString port') = none) :
    w.Admits (host' ++ ":" ++ toString port') host port ↔
      (normalizeHostForAllowlist host' = normalizeHostForAllowlist host ∧
        host'.toList.getLast? ≠ some '.') ∧ port' = port := by
  unfold WebEnvironment.Admits WebEnvironment.takenFor WebEnvironment.parseUrl
  rw [hread, ← htext.lower_eq_iff hdest]
  simp only [Option.map_none, Option.mem_some_iff, exists_eq_left']
  simp only [← String.toList_inj, htext.normalize_hostPort]
  constructor
  · rintro (heq | heq)
    · exact absurd heq.symm (hdest.normalize_ne _ _)
    · rw [String.toList_append, String.toList_append, append_assoc, toList_toString,
        toList_toString] at heq
      obtain ⟨hp, hh⟩ := zeroPad_after (by decide) heq
      exact ⟨hh, hp⟩
  · rintro ⟨hh, hp⟩
    refine .inr ?_
    rw [hh, hp, String.toList_append, String.toList_append, append_assoc]
    rfl

end Forms

/-! ## The forms -/

/-- Where the last colon of a host and a port is. -/
theorem hostPort_inj (host host' : String) (port port' : ℕ)
    (h : host ++ ":" ++ toString port = host' ++ ":" ++ toString port') :
    host = host' ∧ port = port' := by
  have hchars := congrArg String.toList h
  rw [String.toList_append, String.toList_append, String.toList_append, String.toList_append,
    append_assoc, append_assoc, toList_toString, toList_toString] at hchars
  obtain ⟨hp, hh⟩ := zeroPad_after (by decide) hchars
  exact ⟨String.toList_inj.mp hh, hp⟩

/-- A host is no host and port. -/
theorem IsHostText.ne_hostPort (h : IsHostText entry) (host : String) (port : ℕ) :
    entry ≠ host ++ ":" ++ toString port := by
  rintro rfl
  have hlast := (h.bracketed (by simp)).2
  obtain ⟨front, d, hconcat, hdigit⟩ := toString_concat port
  rw [String.toList_append, hconcat, ← append_assoc, List.getLast?_concat,
    Option.some.injEq] at hlast
  rw [hlast] at hdigit
  exact absurd hdigit (by decide)

section Schemes

variable (hstd : FollowsUrlStandard w.readUrl)

/-- What stands before a colon in a host is no scheme. -/
theorem IsHostText.not_scheme (h : IsHostText host) {scheme rest : List Char}
    (heq : host.toList = scheme ++ ':' :: rest) : ¬IsScheme scheme := by
  rintro ⟨⟨c, hc, halpha⟩, -⟩
  have hfirst := (h.bracketed (by simp [heq])).1
  obtain ⟨tail, rfl⟩ := List.head?_eq_some_iff.mp hc
  rw [heq, cons_append, List.head?_cons, Option.some.injEq] at hfirst
  rw [hfirst] at halpha
  exact absurd halpha (by decide)

include hstd

/-- A host is not read as a URL. -/
theorem readUrl_host (h : IsHostText host) : w.readUrl host = none :=
  hstd.no_scheme host h.clean fun _ _ heq => h.not_scheme heq

/-- A host and a port are read as a URL exactly when the host is a scheme. -/
theorem readUrl_hostPort (h : IsHostText host) (hport : port < 2^16) :
    w.readUrl (host ++ ":" ++ toString port) = none ↔ ¬IsScheme host.toList := by
  constructor
  · intro hnone hscheme
    obtain ⟨t, hread, -⟩ := hstd.scheme_number host port hscheme hport
    rw [hnone] at hread
    exact absurd hread (by simp)
  · intro hnot
    refine hstd.no_scheme _ (h.clean_hostPort port) fun scheme rest heq hscheme => ?_
    rw [String.toList_append, String.toList_append, append_assoc] at heq
    rcases append_eq_append_iff.mp heq with ⟨mid, rfl, hmid⟩ | ⟨mid, hhost, hmid⟩
    · cases mid with
      | nil => exact hnot (by simpa using hscheme)
      | cons c mid =>
        -- a colon in a scheme
        have hc : c = ':' := by
          simp only [cons_append] at hmid
          exact (List.cons.inj hmid).1.symm
        have hmem := hscheme.2 c (by simp)
        rw [hc] at hmem
        exact absurd hmem (by decide)
    · cases mid with
      | nil => exact hnot (by simpa [hhost] using hscheme)
      | cons c mid =>
        have hc : c = ':' := (List.cons.inj hmid).1.symm
        exact h.not_scheme (by rw [hhost, hc]) hscheme

end Schemes

/-- What the policy lets an entry through for: what the entry denotes, unless it is missed, and what
it is widened to. -/
theorem admits_iff (hstd : FollowsUrlStandard w.readUrl) (hdest : IsHostText host)
    (hform : ∃ host' port', EntryForm w.readUrl entry host' port') :
    w.Admits entry host port ↔
      (Denotes w.readUrl entry host port ∧ ¬IsMissed w.readUrl entry) ∨
        IsWidened w.readUrl entry host port := by
  obtain ⟨host', port', hform⟩ := hform
  cases hform with
  | host htext =>
    have hread := readUrl_host hstd htext
    have hmissed : ¬IsMissed w.readUrl entry := by
      rintro ⟨host', port', heq, -⟩
      exact htext.ne_hostPort host' port' heq
    have hwidened : ¬IsWidened w.readUrl entry host port := by
      rintro ⟨t, ht, -⟩
      simp [hread] at ht
    rw [admits_host htext hread, and_iff_left hmissed, or_iff_left hwidened]
    constructor
    · exact fun hsame => ⟨entry, none, .host htext, hsame, .inl rfl⟩
    · rintro ⟨host', port', hform', hsame, -⟩
      cases hform' with
      | host => exact hsame
      | hostPort _ _ heq _ => exact absurd heq (htext.ne_hostPort _ _)
      | url hread' => simp [hread] at hread'
  | @hostPort _ number htext hnumber heq hurl =>
    have hmissed : IsMissed w.readUrl entry ↔
        IsScheme host'.toList ∨ host'.toList.getLast? = some '.' := by
      constructor
      · rintro ⟨host₂, port₂, heq₂, -, hbad⟩
        rw [(hostPort_inj _ _ _ _ (heq.symm.trans heq₂)).1]
        exact hbad
      · exact fun hbad => ⟨host', number, heq, hurl, hbad⟩
    have hdenotes : Denotes w.readUrl entry host port ↔
        normalizeHostForAllowlist host' = normalizeHostForAllowlist host ∧ number = port := by
      constructor
      · rintro ⟨host₂, port₂, hform₂, hsame, hport⟩
        cases hform₂ with
        | host htext₂ => exact absurd heq (htext₂.ne_hostPort _ _)
        | hostPort _ _ heq₂ _ =>
          obtain ⟨hh, hp⟩ := hostPort_inj _ _ _ _ (heq.symm.trans heq₂)
          exact ⟨hh ▸ hsame, by simpa [hp] using hport⟩
        | url hread hweb => exact absurd hweb (hurl _ hread)
      · rintro ⟨hsame, hport⟩
        exact ⟨host', some number, .hostPort htext hnumber heq hurl, hsame, .inr (by rw [hport])⟩
    by_cases hscheme : IsScheme host'.toList
    · -- the host is taken for a scheme
      obtain ⟨t, hread, -⟩ := hstd.scheme_number host' number hscheme hnumber
      rw [← heq] at hread
      rw [admits_of_read hdest hread fun h hh => hstd.host_text entry t h hread hh]
      have hnone : ¬(Denotes w.readUrl entry host port ∧ ¬IsMissed w.readUrl entry) :=
        fun h => h.2 (hmissed.mpr (.inl hscheme))
      rw [or_iff_right hnone]
      constructor
      · exact fun hadmits => ⟨t, hread, hadmits, fun hweb => absurd hweb (hurl t hread)⟩
      · rintro ⟨t', hread', hadmits, -⟩
        rw [hread, Option.some.injEq] at hread'
        rwa [hread']
    · have hread := (readUrl_hostPort hstd htext hnumber).mpr hscheme
      have hwidened : ¬IsWidened w.readUrl entry host port := by
        rintro ⟨t, ht, -⟩
        rw [heq, hread] at ht
        exact absurd ht (by simp)
      rw [or_iff_left hwidened, hdenotes, hmissed, heq, admits_hostPort hdest htext hread]
      simp only [hscheme, false_or]
      exact and_right_comm
  | @url t _ hread hweb hhost htext =>
    have hmissed : ¬IsMissed w.readUrl entry := by
      rintro ⟨_, _, -, hurl, -⟩
      exact hurl t hread hweb
    have hdenotes : Denotes w.readUrl entry host port ↔
        normalizeHostForAllowlist host' = normalizeHostForAllowlist host ∧
          (t.port = none ∨ t.port = some port) := by
      constructor
      · rintro ⟨host₂, port₂, hform₂, hsame, hport⟩
        cases hform₂ with
        | host htext₂ =>
          rw [readUrl_host hstd htext₂] at hread
          exact absurd hread (by simp)
        | hostPort _ _ _ hurl => exact absurd hweb (hurl t hread)
        | url hread₂ _ hhost₂ _ =>
          rw [hread, Option.some.injEq] at hread₂
          subst hread₂
          rw [hhost, Option.some.injEq] at hhost₂
          exact ⟨hhost₂ ▸ hsame, hport⟩
      · exact fun ⟨hsame, hport⟩ => ⟨host', t.port, .url hread hweb hhost htext, hsame, hport⟩
    have hwidened : IsWidened w.readUrl entry host port ↔ t.Admits host port ∧
        t.port = defaultPort t.scheme ∧ t.port ≠ some port := by
      constructor
      · rintro ⟨t', hread', hadmits, hport⟩
        rw [hread, Option.some.injEq] at hread'
        rw [hread']
        exact ⟨hadmits, hport (hread' ▸ hweb)⟩
      · exact fun ⟨hadmits, hport⟩ => ⟨t, hread, hadmits, fun _ => hport⟩
    have hadmits : t.Admits host port ↔
        normalizeHostForAllowlist host' = normalizeHostForAllowlist host ∧
          (t.url.port = none ∨ t.url.port = some port) := by
      unfold UrlText.Admits
      simp [hhost]
    rw [admits_of_read hdest hread fun h hh => hstd.host_text entry t h hread hh,
      and_iff_left hmissed, hdenotes, hwidened, hadmits]
    -- the default port is dropped
    have hurl : t.url.port = if t.port = defaultPort t.scheme then none else t.port := rfl
    rw [hurl]
    by_cases hdefault : t.port = defaultPort t.scheme
    · rw [if_pos hdefault]
      by_cases hport : t.port = some port
      · simp [hport]
      · simp only [true_or, and_true, hdefault, ne_eq, hdefault ▸ hport, not_false_eq_true]
        exact (or_iff_right_of_imp And.left).symm
    · rw [if_neg hdefault]
      simp [hdefault]

/-- For every allowlist of entries in the three forms, and every destination: it is allowlisted
exactly when some entry denotes it, on the condition that what is widened to it is denoted as well,
and that not all entries which denote it are missed. -/
theorem destinationAllowlisted_iff (hstd : FollowsUrlStandard w.readUrl) (hdest : IsHostText host)
    {policy : WebEgressPolicy} {raw : String} (hpolicy : policy.allowlist = w.parseAllowlist raw)
    (hforms : ∀ entry ∈ entriesOf raw, ∃ host' port', EntryForm w.readUrl entry host' port') :
    (policy.destinationAllowlisted host port ↔
        ∃ entry ∈ entriesOf raw, Denotes w.readUrl entry host port) ↔
      ((∃ entry ∈ entriesOf raw, IsWidened w.readUrl entry host port) →
        ∃ entry ∈ entriesOf raw, Denotes w.readUrl entry host port) ∧
      ((∃ entry ∈ entriesOf raw, Denotes w.readUrl entry host port) →
        ∃ entry ∈ entriesOf raw, (Denotes w.readUrl entry host port ∧
          ¬IsMissed w.readUrl entry) ∨ IsWidened w.readUrl entry host port) := by
  have hadmits : policy.destinationAllowlisted host port ↔ ∃ entry ∈ entriesOf raw,
      (Denotes w.readUrl entry host port ∧ ¬IsMissed w.readUrl entry) ∨
        IsWidened w.readUrl entry host port := by
    rw [destinationAllowlisted_iff_admits hpolicy]
    exact exists_congr fun entry =>
      and_congr_right fun hentry => admits_iff hstd hdest (hforms entry hentry)
  rw [hadmits]
  constructor
  · intro h
    exact ⟨fun ⟨entry, hentry, hwidened⟩ => h.mp ⟨entry, hentry, .inr hwidened⟩, h.mpr⟩
  · rintro ⟨hwidened, hdenoted⟩
    refine ⟨?_, hdenoted⟩
    rintro ⟨entry, hentry, ⟨h, -⟩ | h⟩
    · exact ⟨entry, hentry, h⟩
    · exact hwidened ⟨entry, hentry, h⟩

-- over the characters of the text: a quantifier over all `Char` would be decided by counting them
instance (cs : List Char) : Decidable (IsScheme cs) :=
  decidable_of_iff (cs.head?.any Char.isAlpha ∧
    cs.all fun c => c.isAlphanum || c = '+' || c = '-' || c = '.')
    (by simp [IsScheme, or_assoc, Option.any_eq_true])

instance (host : String) : Decidable (IsHostText host) :=
  decidable_of_iff ((host.toList.all fun c => !isWhitespace c && !isControl c) ∧
      normalizeHostForAllowlist host ≠ "" ∧
      (':' ∈ host.toList → host.toList.head? = some '[' ∧ host.toList.getLast? = some ']'))
    ⟨fun h => ⟨by simpa using h.1, h.2.1, h.2.2⟩,
      fun h => ⟨by simpa using h.clean, h.named, h.bracketed⟩⟩

/-- What stands before the first colon. -/
def beforeColon (text : String) : List Char := text.toList.takeWhile (· ≠ ':')

theorem beforeColon_eq {text : String} {scheme rest : List Char}
    (h : text.toList = scheme ++ ':' :: rest) (hnot : ':' ∉ scheme) : beforeColon text = scheme := by
  unfold beforeColon
  rw [h, takeWhile_append_of_pos, takeWhile_cons_of_neg (by simp), append_nil]
  intro c hc
  simpa using ne_of_mem_of_not_mem hc hnot

theorem IsScheme.colon_not_mem {scheme : List Char} (h : IsScheme scheme) : ':' ∉ scheme :=
  fun hmem => absurd (h.2 ':' hmem) (by decide)

/-- A parser that reads the URL `http://localhost:80`, and else schemes. -/
def readLocalhost (text : String) : Option UrlText :=
  if text = "http://localhost:80" then some ⟨"http", some "localhost", some 80⟩
  else if ':' ∈ text.toList ∧ IsScheme (beforeColon text) then
    some ⟨asciiLower (String.ofList (beforeColon text)), none, none⟩
  else none

theorem localhost_isHostText : IsHostText "localhost" := by decide

theorem readLocalhost_follows : FollowsUrlStandard readLocalhost where
  no_scheme text _ hnone := by
    unfold readLocalhost
    rw [if_neg, if_neg]
    · rintro ⟨hcolon, hscheme⟩
      obtain ⟨scheme, rest, heq, hnot⟩ := eq_append_cons_of_mem hcolon
      rw [beforeColon_eq heq hnot] at hscheme
      exact hnone scheme rest heq hscheme
    · rintro rfl
      exact hnone ['h', 't', 't', 'p'] _ rfl (by decide)
  scheme_number scheme n hscheme _ := by
    have hchars : (scheme ++ ":" ++ toString n).toList =
        scheme.toList ++ ':' :: (toString n).toList := by simp
    have hbefore := beforeColon_eq hchars hscheme.colon_not_mem
    have hother : scheme ++ ":" ++ toString n ≠ "http://localhost:80" := by
      intro heq
      have hurl := (hostPort_inj scheme "http://localhost" n 80 heq).1
      rw [hurl] at hscheme
      exact absurd hscheme (by decide)
    refine ⟨⟨asciiLower scheme, none, none⟩, ?_, rfl, fun _ => rfl⟩
    unfold readLocalhost
    rw [if_neg hother, hbefore, if_pos ⟨by rw [hchars]; simp, hscheme⟩, String.ofList_toList]
  host_text text t host hread hhost _ := by
    unfold readLocalhost at hread
    split_ifs at hread
    · rw [Option.some.injEq] at hread
      subst hread
      rw [← Option.some.inj hhost]
      exact localhost_isHostText
    · rw [Option.some.injEq] at hread
      subst hread
      simp at hhost

/-- An environment with that parser. -/
def localhostEnvironment : WebEnvironment := ⟨fun _ => none, readLocalhost, fun _ _ => .ok []⟩

/-- The policy of an allowlist. -/
def localhostPolicy (raw : String) : WebEgressPolicy :=
  ⟨.defaultSafe, localhostEnvironment.parseAllowlist raw⟩

/-- A host and a port whose host is no scheme: the entry lets its destination through. -/
theorem numericEntry_allowlisted : IsHostText "192.168.1.50" ∧
    (localhostPolicy "192.168.1.50:9000").destinationAllowlisted "192.168.1.50" 9000 := by
  have hhost : IsHostText "192.168.1.50" := by decide
  have hentries : entriesOf "192.168.1.50:9000" = ["192.168.1.50:9000"] := by decide
  have hform : EntryForm readLocalhost "192.168.1.50:9000" "192.168.1.50" (some 9000) :=
    .hostPort hhost (by decide) (by decide) fun t ht => by
      have hnone : readLocalhost "192.168.1.50:9000" = none := by decide
      simp [hnone] at ht
  have hdenotes : Denotes readLocalhost "192.168.1.50:9000" "192.168.1.50" 9000 :=
    ⟨_, _, hform, rfl, .inr rfl⟩
  have hkept : ¬IsMissed readLocalhost "192.168.1.50:9000" := by
    rintro ⟨host, port, heq, -, hbad⟩
    rw [← (hostPort_inj "192.168.1.50" host 9000 port heq).1] at hbad
    revert hbad
    decide
  refine ⟨hhost, ?_⟩
  have hpolicy : (localhostPolicy "192.168.1.50:9000").allowlist =
      localhostEnvironment.parseAllowlist "192.168.1.50:9000" := rfl
  have hforms : ∀ entry ∈ entriesOf "192.168.1.50:9000",
      ∃ host port, EntryForm localhostEnvironment.readUrl entry host port := by
    rw [hentries]
    simpa using ⟨_, _, hform⟩
  have hiff : (_ ↔ ∃ entry ∈ _, Denotes readLocalhost entry "192.168.1.50" 9000) ↔ _ :=
    destinationAllowlisted_iff readLocalhost_follows hhost hpolicy hforms
  rw [hentries] at hiff
  simp only [mem_singleton, exists_eq_left] at hiff
  exact (hiff.mpr ⟨fun _ => hdenotes, fun _ => .inl ⟨hdenotes, hkept⟩⟩).mpr hdenotes

/-- The entry `localhost:8888` does not let its destination through, and `http://localhost:80` lets
through another port. -/
theorem localhost_entries : FollowsUrlStandard readLocalhost ∧
    (Denotes readLocalhost "localhost:8888" "localhost" 8888 ∧
      ¬(localhostPolicy "localhost:8888").destinationAllowlisted "localhost" 8888) ∧
    (¬Denotes readLocalhost "http://localhost:80" "localhost" 443 ∧
      (localhostPolicy "http://localhost:80").destinationAllowlisted "localhost" 443) := by
  refine ⟨readLocalhost_follows, ⟨⟨"localhost", some 8888, ?_, rfl, .inr rfl⟩, ?_⟩, ?_, ?_⟩
  · refine .hostPort localhost_isHostText (by decide) (by decide) fun t ht => ?_
    have hread : readLocalhost "localhost:8888" = some ⟨"localhost", none, none⟩ := by
      decide
    rw [hread, Option.some.injEq] at ht
    rw [← ht]
    decide
  · decide
  · rintro ⟨host, port, hform, -, hport⟩
    have hread : readLocalhost "http://localhost:80" =
        some ⟨"http", some "localhost", some 80⟩ := by decide
    cases hform with
    | host htext => exact absurd (htext.bracketed (by decide)).1 (by decide)
    | hostPort _ _ _ hurl => exact absurd (hurl _ hread) (by decide)
    | url ht =>
      rw [hread, Option.some.injEq] at ht
      rw [← ht] at hport
      simp at hport
  · decide

end Oxydra
