import Oxydra.Runner.SnapshotFiles

/-!
# What a snapshot of the logs keeps

The entries of a snapshot are cut three times: in each file and over all files the older ones, and
for the size of the payload the newer ones, by an estimate that does not know of escapes and
timestamps. `snapshotRight_iff` says when the response fits a frame, keeps the newest lines of each
file, and tells that some are missing.
-/

namespace Oxydra

open List JsonSize

variable {f : SelectedFile}

section

variable (startup : RunnerStartup) (request : RunnerControlLogsRequest) (folder : LogFolder)

/-- The entries of the files before the cuts over all of them. -/
def shownEntries : List RunnerLogEntry :=
  (selectedFiles startup request folder).flatMap fun f => f.shown startup request

/-- The last of them, as many as are asked for. -/
def recentEntries : List RunnerLogEntry :=
  (shownEntries startup request folder).drop
    ((shownEntries startup request folder).length - request.effectiveTail)

/-- The response has at most the bytes of a frame; what it has of a file are the last of the lines
that are not blank and pass the filter; and it is truncated exactly if such a line is missing. -/
def SnapshotRight : Prop :=
  ∃ response, startup.collectLogsSnapshot folder request = some response ∧
    response.encodedBytes ≤ runnerControlMaxFrameBytes ∧
    (∀ f ∈ selectedFiles startup request folder,
      f.among response.entries <:+ f.entries startup request) ∧
    (response.truncated = true ↔ ∃ f ∈ selectedFiles startup request folder,
      (f.among response.entries).length < (f.entries startup request).length)

/-! ## The cut for the payload -/

/-- How many of some entries an estimate of their bytes lets through. -/
def fittingCounts (entries : List RunnerLogEntry) : Set ℕ :=
  {n | n ≤ entries.length ∧
    ((entries.take n).map RunnerLogEntry.estimatedBytes).sum ≤ maxPayloadBytes}

end

/-- What is kept are as many entries as fit. -/
theorem isGreatest_payloadKeep_add {total : ℕ} (h : total ≤ maxPayloadBytes)
    (entries : List RunnerLogEntry) :
    IsGreatest {n | n ≤ entries.length ∧
      total + ((entries.take n).map RunnerLogEntry.estimatedBytes).sum ≤ maxPayloadBytes}
        (payloadKeep total entries) := by
  induction entries generalizing total with
  | nil => exact ⟨⟨le_rfl, by simpa using h⟩, fun n hn => hn.1⟩
  | cons entry rest ih =>
    unfold payloadKeep
    split_ifs with hlarge
    · refine ⟨⟨Nat.zero_le _, by simpa using h⟩, fun n hn => ?_⟩
      by_contra hpos
      obtain ⟨m, rfl⟩ : ∃ m, n = m + 1 := ⟨n - 1, by omega⟩
      have hsum := hn.2
      rw [take_succ_cons, map_cons, sum_cons] at hsum
      omega
    · obtain ⟨⟨hle, hsum⟩, hgreatest⟩ := ih (not_lt.mp hlarge)
      refine ⟨⟨by simpa using hle, ?_⟩, fun n hn => ?_⟩
      · rw [take_succ_cons, map_cons, sum_cons]
        omega
      · rcases n with _ | n
        · exact Nat.zero_le _
        · have hn' := hn
          obtain ⟨hle', hsum'⟩ := hn'
          rw [take_succ_cons, map_cons, sum_cons] at hsum'
          rw [length_cons] at hle'
          exact Nat.succ_le_succ (hgreatest ⟨by omega, by omega⟩)

/-- As many entries are kept as fit. -/
theorem isGreatest_payloadKeep (entries : List RunnerLogEntry) :
    IsGreatest (fittingCounts entries) (payloadKeep 0 entries) := by
  have h := isGreatest_payloadKeep_add (Nat.zero_le _) entries
  unfold fittingCounts
  simpa only [Nat.zero_add] using h

/-! ## The bytes of a response -/

/-- A size in bytes. -/
theorem utf8ByteSize_ofList (text : List Char) : (String.ofList text).utf8ByteSize = size text := by
  induction text with
  | nil => rfl
  | cons c text ih => rw [Text.utf8ByteSize_cons, ih, size_cons]

/-- The bytes of an entry. -/
def RunnerLogEntry.bytes (entry : RunnerLogEntry) : ℕ :=
  (match entry.timestamp with
  | some ts => 13 + textBytes ts
  | none => 0) + 40 + textBytes entry.source.name + textBytes entry.role +
    textBytes entry.stream + textBytes entry.message

/-- The bytes of a response with these parts. -/
def snapshotBytes (entries : List RunnerLogEntry) (truncated : Bool) (warnings : List String) : ℕ :=
  25 + bracketBytes (entries.map RunnerLogEntry.bytes) + (if truncated then 4 else 5) +
    if warnings = [] then 0 else 12 + bracketBytes (warnings.map textBytes)

/-- The size of an entry. -/
theorem RunnerLogEntry.size_text (entry : RunnerLogEntry) : size entry.text = entry.bytes := by
  unfold RunnerLogEntry.text RunnerLogEntry.bytes
  rw [size_object]
  have hnames : textBytes "timestamp" = 11 ∧ textBytes "source" = 8 ∧ textBytes "role" = 6 ∧
      textBytes "stream" = 8 ∧ textBytes "message" = 9 := by decide
  obtain ⟨h1, h2, h3, h4, h5⟩ := hnames
  cases entry.timestamp with
  | none =>
    simp [bracketBytes, size_string, h2, h3, h4, h5]
    omega
  | some ts =>
    simp [bracketBytes, size_string, h1, h2, h3, h4, h5]
    omega

/-- The size of a response. -/
theorem encodedBytes_eq (response : RunnerControlLogsResponse) : response.encodedBytes =
    snapshotBytes response.entries response.truncated response.warnings := by
  unfold RunnerControlLogsResponse.encodedBytes RunnerControlLogsResponse.text snapshotBytes
  have hnames : textBytes "entries" = 9 ∧ textBytes "truncated" = 11 ∧
      textBytes "warnings" = 10 := by decide
  obtain ⟨h1, h2, h3⟩ := hnames
  have hentries : size (array (response.entries.map RunnerLogEntry.text)) =
      bracketBytes (response.entries.map RunnerLogEntry.bytes) := by
    rw [size_array, map_map]
    congr 2
    exact funext RunnerLogEntry.size_text
  have hwarnings : size (array (response.warnings.map string)) =
      bracketBytes (response.warnings.map textBytes) := by
    rw [size_array, map_map]
    congr 2
    exact funext size_string
  have hbool : size (boolText response.truncated) = if response.truncated then 4 else 5 := by
    cases response.truncated <;> rfl
  rw [utf8ByteSize_ofList, size_object, ← hentries, ← hbool, ← hwarnings]
  by_cases h : response.warnings = []
  · rw [if_pos h, if_pos h, bracketBytes]
    simp only [append_nil, map_cons, map_nil, sum_cons, sum_nil, h1, h2]
    omega
  · rw [if_neg h, if_neg h, bracketBytes]
    simp only [cons_append, nil_append, map_cons, map_nil, sum_cons,
      sum_nil, h1, h2, h3]
    omega

/-! ## What is kept of a file -/

/-- A list begins as it ends. -/
theorem take_suffix_iff {α : Type*} {l : List α} {k : ℕ} (h : k ≤ l.length) :
    l.take k <:+ l ↔ ∀ i < k, l[i]? = l[i + (l.length - k)]? := by
  rw [suffix_iff_eq_drop, length_take_of_le h]
  constructor
  · intro heq i hi
    have hget := congrArg (fun l => l[i]?) heq
    rw [List.getElem?_take_of_lt hi, List.getElem?_drop] at hget
    rw [hget, Nat.add_comm]
  · intro hrepeat
    refine ext_getElem? fun i => ?_
    by_cases hi : i < k
    · rw [List.getElem?_take_of_lt hi, List.getElem?_drop, hrepeat i hi, Nat.add_comm]
    · rw [List.getElem?_drop, List.getElem?_eq_none (by rw [length_take]; omega),
        List.getElem?_eq_none (by omega)]

section

variable {startup : RunnerStartup} {request : RunnerControlLogsRequest} {folder : LogFolder}

/-- A selected file has its role and stream. -/
theorem mem_filesOf {role : String} {streams : List String} (h : f ∈ filesOf folder role streams) :
    f.role = role ∧ f.stream ∈ streams := by
  obtain ⟨stream, hstream, hf⟩ := mem_filterMap.mp h
  obtain ⟨file, -, rfl⟩ := Option.map_eq_some_iff.mp hf
  exact ⟨rfl, hstream⟩

/-- Two selected files differ in the role or the stream. -/
theorem selectedFiles_pairwise : (selectedFiles startup request folder).Pairwise fun f g =>
    ¬(f.role = g.role ∧ f.stream = g.stream) := by
  have hroles : (startup.roles request.role).Pairwise fun r s => r.1 ≠ s.1 := by
    cases request.role <;> simp [RunnerStartup.roles]
  have hstreams : (RunnerStartup.streams request.stream).Pairwise (· ≠ ·) := by
    cases request.stream <;> decide
  have hmem : ∀ {role f}, f ∈ roleFiles request folder role → f.role = role.1 := by
    intro role f hf
    unfold roleFiles at hf
    split_ifs at hf
    · exact (mem_filesOf hf).1
    · exact absurd hf not_mem_nil
  unfold selectedFiles
  rw [pairwise_flatMap]
  constructor
  · intro role _
    unfold roleFiles filesOf
    split_ifs
    · rw [pairwise_filterMap]
      refine hstreams.imp fun {s s'} hne f hf g hg => ?_
      obtain ⟨-, -, rfl⟩ := Option.map_eq_some_iff.mp hf
      obtain ⟨-, -, rfl⟩ := Option.map_eq_some_iff.mp hg
      exact fun h => hne h.2
    · exact List.Pairwise.nil
  · refine hroles.imp fun {r s} hne f hf g hg h => hne ?_
    rw [← hmem hf, ← hmem hg, h.1]

/-- Entries behind others. -/
theorem among_append (f : SelectedFile) (a b : List RunnerLogEntry) :
    f.among (a ++ b) = f.among a ++ f.among b := filter_append ..

/-- A shown entry is of its file. -/
theorem mem_shown {entry : RunnerLogEntry} (h : entry ∈ f.shown startup request) :
    entry.role = f.role ∧ entry.stream = f.stream := by
  unfold SelectedFile.shown at h
  split_ifs at h
  · obtain ⟨line, -, rfl⟩ := mem_map.mp (mem_of_mem_drop h)
    exact ⟨rfl, rfl⟩
  · exact absurd h not_mem_nil

/-- Of all entries, those of a file are the ones that it shows. -/
theorem among_shownEntries (hf : f ∈ selectedFiles startup request folder) :
    f.among (shownEntries startup request folder) = f.shown startup request := by
  have hself : f.among (f.shown startup request) = f.shown startup request :=
    filter_eq_self.mpr fun entry h => decide_eq_true (mem_shown h)
  have hother : ∀ {g : SelectedFile}, ¬(f.role = g.role ∧ f.stream = g.stream) →
      f.among (g.shown startup request) = [] := by
    intro g hne
    refine filter_eq_nil_iff.mpr fun entry h hentry => hne ?_
    obtain ⟨hrole, hstream⟩ := mem_shown h
    rw [← hrole, ← hstream]
    have hlabels := of_decide_eq_true hentry
    exact ⟨hlabels.1.symm, hlabels.2.symm⟩
  have hwalk : ∀ files : List SelectedFile, f ∈ files →
      (files.Pairwise fun f g => ¬(f.role = g.role ∧ f.stream = g.stream)) →
      f.among (files.flatMap fun g => g.shown startup request) = f.shown startup request := by
    intro files hmem hpairwise
    induction files with
    | nil => exact absurd hmem not_mem_nil
    | cons g files ih =>
      obtain ⟨hfirst, hrest⟩ := pairwise_cons.mp hpairwise
      rw [flatMap_cons, among_append]
      rcases mem_cons.mp hmem with rfl | hlater
      · have hnone : f.among (files.flatMap fun g => g.shown startup request) = [] := by
          refine filter_eq_nil_iff.mpr fun entry h hentry => ?_
          obtain ⟨g, hg, hshown⟩ := mem_flatMap.mp h
          exact filter_eq_nil_iff.mp (hother (hfirst g hg)) entry hshown hentry
        rw [hself, hnone, append_nil]
      · have hne : ¬(f.role = g.role ∧ f.stream = g.stream) := fun h =>
          hfirst f hlater ⟨h.1.symm, h.2.symm⟩
        rw [hother hne, nil_append, ih hlater hrest]
  exact hwalk _ hf selectedFiles_pairwise

/-- What is shown of a file are the last of its entries. -/
theorem among_recentEntries_suffix (hf : f ∈ selectedFiles startup request folder) :
    f.among (recentEntries startup request folder) <:+ f.entries startup request := by
  have hshown : f.shown startup request <:+ f.entries startup request := by
    unfold SelectedFile.shown
    split_ifs
    · exact drop_suffix _ _
    · exact nil_suffix
  have hrecent := (drop_suffix ((shownEntries startup request folder).length -
    request.effectiveTail) (shownEntries startup request folder)).filter
      fun entry => entry.role = f.role ∧ entry.stream = f.stream
  change f.among _ <:+ f.among _ at hrecent
  rw [among_shownEntries hf] at hrecent
  exact hrecent.trans hshown

/-- The first recent entries have the last entries of a file exactly where its recent entries repeat
after as many of them as are cut. -/
theorem among_take_suffix_iff (hf : f ∈ selectedFiles startup request folder) (n : ℕ) :
    f.among ((recentEntries startup request folder).take n) <:+ f.entries startup request ↔
      ∀ i < (f.among ((recentEntries startup request folder).take n)).length,
        (f.among (recentEntries startup request folder))[i]? =
          (f.among (recentEntries startup request folder))[i +
            ((f.among (recentEntries startup request folder)).length -
              (f.among ((recentEntries startup request folder).take n)).length)]? := by
  have hprefix : f.among ((recentEntries startup request folder).take n) <+:
      f.among (recentEntries startup request folder) := (List.take_prefix _ _).filter _
  have hsuffix := among_recentEntries_suffix hf
  rw [← take_suffix_iff hprefix.length_le, ← prefix_iff_eq_take.mp hprefix]
  exact ⟨fun h => suffix_of_suffix_length_le h hsuffix hprefix.length_le,
    fun h => h.trans hsuffix⟩

/-- A file whose entries are all there is neither cut nor, unless it has none, in error. -/
theorem length_shown_lt_iff (f : SelectedFile) :
    (f.shown startup request).length < (f.entries startup request).length ↔
      f.isCut startup request = true ∨ f.file.error ≠ none ∧ f.entries startup request ≠ [] := by
  unfold SelectedFile.shown SelectedFile.isCut
  rw [decide_eq_true_iff]
  split_ifs with herror
  · rw [length_drop]
    simp only [herror, true_and, ne_eq, not_true_eq_false, false_and, or_false]
    omega
  · simp only [herror, false_and, false_or, ne_eq, not_false_eq_true, true_and, length_nil]
    exact length_pos_iff

section

variable (startup request folder)

/-- Entries are cut: of a file, over all files, or behind the first `n` recent ones. -/
def snapshotCut (n : ℕ) : Bool :=
  ((selectedFiles startup request folder).any fun f => f.isCut startup request) ||
    decide (request.effectiveTail < (shownEntries startup request folder).length) ||
    decide (n < (recentEntries startup request folder).length)

end

/-- An entry of a file is missing if entries are cut, or an entry is in a file with an error. -/
theorem missing_iff (n : ℕ) :
    (∃ f ∈ selectedFiles startup request folder,
      (f.among ((recentEntries startup request folder).take n)).length <
        (f.entries startup request).length) ↔
      snapshotCut startup request folder n = true ∨
        ∃ f ∈ selectedFiles startup request folder,
          f.file.error ≠ none ∧ f.entries startup request ≠ [] := by
  have hall : ∃ pre post, shownEntries startup request folder =
      pre ++ (recentEntries startup request folder).take n ++ post ∧
        pre.length = (shownEntries startup request folder).length - request.effectiveTail ∧
        post = (recentEntries startup request folder).drop n := by
    refine ⟨(shownEntries startup request folder).take
      ((shownEntries startup request folder).length - request.effectiveTail), _, ?_, ?_, rfl⟩
    · rw [append_assoc, take_append_drop, recentEntries, take_append_drop]
    · rw [length_take]
      omega
  obtain ⟨pre, post, hsplit, hpre, hpost⟩ := hall
  have hlengths : ∀ f ∈ selectedFiles startup request folder, (f.shown startup request).length =
      (f.among pre).length + (f.among ((recentEntries startup request folder).take n)).length +
        (f.among post).length := by
    intro f hf
    rw [← among_shownEntries hf, hsplit, among_append, among_append, length_append,
      length_append]
  have hle : ∀ f : SelectedFile,
      (f.shown startup request).length ≤ (f.entries startup request).length := by
    intro f
    unfold SelectedFile.shown
    split_ifs
    · exact (drop_suffix _ _).length_le
    · exact Nat.zero_le _
  have hcut : snapshotCut startup request folder n = true ↔
      (∃ f ∈ selectedFiles startup request folder, f.isCut startup request = true) ∨
        pre ≠ [] ∨ post ≠ [] := by
    have hpre' : pre ≠ [] ↔
        request.effectiveTail < (shownEntries startup request folder).length := by
      rw [← length_pos_iff, hpre]
      omega
    have hpost' : post ≠ [] ↔ n < (recentEntries startup request folder).length := by
      rw [← length_pos_iff, hpost, length_drop]
      omega
    unfold snapshotCut
    rw [Bool.or_eq_true, Bool.or_eq_true, any_eq_true, decide_eq_true_iff, decide_eq_true_iff,
      hpre', hpost', or_assoc]
  rw [hcut]
  constructor
  · rintro ⟨f, hf, hlt⟩
    by_cases hshown : (f.shown startup request).length < (f.entries startup request).length
    · rcases (length_shown_lt_iff f).mp hshown with h | h
      · exact .inl (.inl ⟨f, hf, h⟩)
      · exact .inr ⟨f, hf, h⟩
    · -- nothing is missing in the file, so that the entry is cut with others
      refine .inl (.inr ?_)
      by_contra hnone
      rw [not_or, not_not, not_not] at hnone
      have hlength := hlengths f hf
      rw [hnone.1, hnone.2] at hlength
      simp only [SelectedFile.among, filter_nil, length_nil] at hlength hlt
      omega
  · have hmissing : ∀ f ∈ selectedFiles startup request folder,
        (f.shown startup request).length < (f.entries startup request).length →
          (f.among ((recentEntries startup request folder).take n)).length <
            (f.entries startup request).length := by
      intro f hf hlt
      have hlength := hlengths f hf
      omega
    rintro ((⟨f, hf, h⟩ | hsome) | ⟨f, hf, h⟩)
    · exact ⟨f, hf, hmissing f hf ((length_shown_lt_iff f).mpr (.inl h))⟩
    · obtain ⟨entry, hentry⟩ : ∃ entry, entry ∈ pre ∨ entry ∈ post := by
        rcases hsome with h | h
        · exact (exists_mem_of_ne_nil _ h).imp fun _ => .inl
        · exact (exists_mem_of_ne_nil _ h).imp fun _ => .inr
      have hshown : entry ∈ shownEntries startup request folder := by
        rw [hsplit]
        rcases hentry with h | h
        · exact mem_append_left _ (mem_append_left _ h)
        · exact mem_append_right _ h
      obtain ⟨f, hf, hmem⟩ := mem_flatMap.mp hshown
      have hamong : ∀ {l : List RunnerLogEntry}, entry ∈ l → 0 < (f.among l).length := fun h =>
        length_pos_of_mem (mem_filter.mpr ⟨h, decide_eq_true (mem_shown hmem)⟩)
      have hlength := hlengths f hf
      have hentries := hle f
      refine ⟨f, hf, ?_⟩
      rcases hentry with h | h
      · have hpos := hamong h
        omega
      · have hpos := hamong h
        omega
    · exact ⟨f, hf, hmissing f hf ((length_shown_lt_iff f).mpr (.inr h))⟩

/-- Where every file is read, the response has as many recent entries as fit. -/
theorem collectLogsSnapshot_eq
    (h : ∀ f ∈ selectedFiles startup request folder, f.file.Reads request.since) :
    startup.collectLogsSnapshot folder request = some {
      entries := (recentEntries startup request folder).take
        (payloadKeep 0 (recentEntries startup request folder))
      truncated := snapshotCut startup request folder
        (payloadKeep 0 (recentEntries startup request folder))
      warnings := snapshotWarnings startup request folder } := by
  unfold RunnerStartup.collectLogsSnapshot
  rw [gathered_eq_some_iff.mpr ⟨h, rfl⟩]
  rfl

/-- Every selected file was read. -/
theorem reads_of_collectLogsSnapshot {response : RunnerControlLogsResponse}
    (h : startup.collectLogsSnapshot folder request = some response) :
    ∀ f ∈ selectedFiles startup request folder, f.file.Reads request.since := by
  unfold RunnerStartup.collectLogsSnapshot at h
  obtain ⟨gathered, hgathered, -⟩ := Option.bind_eq_some_iff.mp h
  exact (gathered_eq_some_iff.mp hgathered).1

section

variable (startup request folder)

/-- What the response needs of its first `n` recent entries: with the warnings they take at most the
bytes of a frame; the entries of each file repeat after as many as are cut of them; and if a file
with an error has an entry, others are cut. -/
structure CutsRight (n : ℕ) : Prop where
  fits : snapshotBytes ((recentEntries startup request folder).take n)
    (snapshotCut startup request folder n) (snapshotWarnings startup request folder) ≤
      runnerControlMaxFrameBytes
  repeats : ∀ f ∈ selectedFiles startup request folder,
    ∀ i < (f.among ((recentEntries startup request folder).take n)).length,
      (f.among (recentEntries startup request folder))[i]? =
        (f.among (recentEntries startup request folder))[i +
          ((f.among (recentEntries startup request folder)).length -
            (f.among ((recentEntries startup request folder).take n)).length)]?
  reports : (∃ f ∈ selectedFiles startup request folder,
    f.file.error ≠ none ∧ f.entries startup request ≠ []) →
      snapshotCut startup request folder n = true

/-- A snapshot is right exactly if the since value can be read for each file that is opened, and the
cuts are right for as many recent entries as fit the payload by the estimate. -/
theorem snapshotRight_iff : SnapshotRight startup request folder ↔
    (∀ f ∈ selectedFiles startup request folder, f.file.Reads request.since) ∧
      ∀ n, IsGreatest (fittingCounts (recentEntries startup request folder)) n →
        CutsRight startup request folder n := by
  have hgreatest := isGreatest_payloadKeep (recentEntries startup request folder)
  constructor
  · rintro ⟨response, hresponse, hbytes, hsuffix, htruncated⟩
    have hreads := reads_of_collectLogsSnapshot hresponse
    refine ⟨hreads, fun n hn => ?_⟩
    obtain rfl := hn.unique hgreatest
    rw [collectLogsSnapshot_eq hreads, Option.some.injEq] at hresponse
    subst hresponse
    rw [encodedBytes_eq] at hbytes
    rw [missing_iff] at htruncated
    exact ⟨hbytes, fun f hf => (among_take_suffix_iff hf _).mp (hsuffix f hf),
      fun herror => htruncated.mpr (.inr herror)⟩
  · rintro ⟨hreads, hcuts⟩
    obtain ⟨hfits, hrepeats, hreports⟩ := hcuts _ hgreatest
    refine ⟨_, collectLogsSnapshot_eq hreads, ?_, ?_, ?_⟩
    · rw [encodedBytes_eq]
      exact hfits
    · exact fun f hf => (among_take_suffix_iff hf _).mpr (hrepeats f hf)
    · rw [missing_iff]
      exact ⟨.inl, fun h => h.elim id hreports⟩

end

end

/-! ## A line that does not fit -/

/-- A startup with a process as its runtime. -/
def processStartup : RunnerStartup where
  user_id := "alice"
  sandbox_tier := .process
  shell_available := false
  browser_available := false
  startup_status := ⟨.process, false, false, false, []⟩
  launch := ⟨.process, ⟨⟨.oxydraVm, "oxydra-vm", none, .process⟩, false, true⟩, none, none⟩

/-- A line of one letter. -/
def longLine (length : ℕ) : String := String.ofList (List.replicate length 'b')

/-- The log of a runtime that starts and then writes a long line. -/
def longLog (length : ℕ) : LogFolder := fun role stream =>
  if role = "oxydra-vm" ∧ stream = "stdout" then
    some ⟨.unixEpoch, .ok [.ok "started", .ok (longLine length)]⟩
  else none

/-- The long line has no timestamp. -/
theorem stripTimestamp_longLine (length : ℕ) : stripTimestamp (longLine length) = longLine length := by
  have hrest : (longLine length).toList.dropWhile (fun c => !isDelimiter c) = [] := by
    rw [longLine, String.toList_ofList, dropWhile_replicate]
    rfl
  unfold stripTimestamp
  rw [hrest]
  exact if_neg fun h => h.2 rfl

/-- The log with the long line. -/
theorem selectedFiles_longLog (length : ℕ) : selectedFiles processStartup {} (longLog length) =
    [⟨"oxydra-vm", "stdout",
      ⟨⟨0, 0, by decide, by decide⟩, .ok [.ok "started", .ok (longLine length)]⟩⟩] := rfl

/-- The entry of a line in that log. -/
def longLogEntry (line : String) : RunnerLogEntry :=
  processStartup.logEntry "oxydra-vm" "stdout" line

/-- It is as long as it says. -/
theorem size_longLine (length : ℕ) : (longLine length).utf8ByteSize = length := by
  have hone : 'b'.utf8Size = 1 := by decide
  rw [longLine, Text.utf8ByteSize_replicate, hone, Nat.mul_one]

/-- Its two entries differ. -/
theorem longLogEntry_ne {length : ℕ} (h : 7 < length) :
    longLogEntry "started" ≠ longLogEntry (longLine length) := by
  intro heq
  have hmessage := congrArg (fun entry => entry.message.utf8ByteSize) heq
  change (stripTimestamp "started").utf8ByteSize = (stripTimestamp (longLine length)).utf8ByteSize
    at hmessage
  have hshort : (stripTimestamp "started").utf8ByteSize = 7 := by decide +kernel
  rw [stripTimestamp_longLine, size_longLine, hshort] at hmessage
  omega

/-- And both are recent. -/
theorem recentEntries_longLog {length : ℕ} (h : 0 < length) :
    (∀ f ∈ selectedFiles processStartup {} (longLog length),
      f.entries processStartup {} = [longLogEntry "started", longLogEntry (longLine length)]) ∧
    recentEntries processStartup {} (longLog length) =
      [longLogEntry "started", longLogEntry (longLine length)] := by
  have htrim : Text.trim (longLine length) ≠ "" := by
    rw [Text.trim_eq_self fun c hc => ?_]
    · intro hempty
      have hsize := size_longLine length
      rw [hempty] at hsize
      exact absurd hsize (by change 0 ≠ length; omega)
    · rw [longLine, String.toList_ofList] at hc
      rw [eq_of_mem_replicate hc]
      decide
  have hentries : ∀ f ∈ selectedFiles processStartup {} (longLog length),
      f.entries processStartup {} = [longLogEntry "started", longLogEntry (longLine length)] := by
    intro f hf
    rw [selectedFiles_longLog, mem_singleton] at hf
    subst hf
    have hstarted : Text.trim "started" ≠ "" := by decide +kernel
    have hpassing : ["started", longLine length].filter (fun line => Text.trim line ≠ "" ∧
        isBeforeThreshold none line = false) = ["started", longLine length] := by
      rw [filter_eq_self]
      simp [hstarted, htrim, isBeforeThreshold]
    unfold SelectedFile.entries LogFile.passing LogFile.lines LogFile.threshold
    dsimp only [textLines, Option.bind_none]
    rw [hpassing]
    rfl
  refine ⟨hentries, ?_⟩
  have hshown : shownEntries processStartup {} (longLog length) =
      [longLogEntry "started", longLogEntry (longLine length)] := by
    have hfile := hentries _ (by rw [selectedFiles_longLog]; exact mem_singleton_self _)
    rw [shownEntries, selectedFiles_longLog, flatMap_singleton, SelectedFile.shown, hfile,
      if_pos (by rfl), length_cons, length_singleton, Nat.sub_eq_zero_of_le (by decide),
      drop_zero]
  rw [recentEntries, hshown, length_cons, length_singleton,
    Nat.sub_eq_zero_of_le (by decide), drop_zero]

/-- The newest line is lost, and the older one kept. -/
theorem newestLine_lost : ¬SnapshotRight processStartup {} (longLog 130000) := by
  obtain ⟨length, hlength⟩ : ∃ length, length = 130000 := ⟨_, rfl⟩
  rw [← hlength]
  rintro ⟨response, hresponse, -, hsuffix, -⟩
  obtain ⟨hentries, hrecent⟩ := @recentEntries_longLog length (by omega)
  have hreads : ∀ f ∈ selectedFiles processStartup {} (longLog length), f.file.Reads none :=
    fun _ _ _ _ _ => nofun
  rw [collectLogsSnapshot_eq hreads, Option.some.injEq] at hresponse
  subst hresponse
  have hkeep : payloadKeep 0 [longLogEntry "started", longLogEntry (longLine length)] = 1 := by
    have hfirst : (longLogEntry "started").estimatedBytes = 150 := by decide +kernel
    have hsecond : (longLogEntry (longLine length)).estimatedBytes = length + 143 := by
      have hmessage : (longLogEntry (longLine length)).message.utf8ByteSize = length := by
        change (stripTimestamp (longLine length)).utf8ByteSize = length
        rw [stripTimestamp_longLine, size_longLine]
      rw [RunnerLogEntry.estimatedBytes, hmessage, Nat.add_assoc, Nat.add_assoc]
      rfl
    unfold payloadKeep payloadKeep maxPayloadBytes
    rw [hfirst, hsecond, if_neg (by omega), if_pos (by omega)]
  obtain ⟨f, hf⟩ : ∃ f, f ∈ selectedFiles processStartup {} (longLog length) :=
    ⟨_, by rw [selectedFiles_longLog]; exact mem_singleton_self _⟩
  have hkept := hsuffix f hf
  rw [hrecent, hkeep, hentries f hf] at hkept
  rw [selectedFiles_longLog, mem_singleton] at hf
  subst hf
  change [longLogEntry "started"] <:+ _ at hkept
  rcases suffix_cons_iff.mp hkept with h | h
  · exact absurd (congrArg List.length h) (by simp)
  · have heq := h.eq_of_length rfl
    exact longLogEntry_ne (by omega) (singleton_inj.mp heq)

end Oxydra
