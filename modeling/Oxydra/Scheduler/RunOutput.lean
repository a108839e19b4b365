import Oxydra.Library.CharBoundary
import Oxydra.Scheduler.FailureCounts

/-!
# The output of a run

The executor shortens what a run says to a summary and to the error in a failure notice, and the
tool `schedule_run_output` hands out the stored output page by page. All three cut a text after a
number of bytes. The pages end at character boundaries, and read one after the other they are the
output; the summaries and an offset that a caller makes up may lie inside a character, where the cut
panics (`summaries_safe_iff`, `runOutput_safe_iff`).
-/

namespace Oxydra

open String Option Text

variable {full_output : String}

/-! ## Summaries -/

/-- What `run_scheduled_turn` returns, without attachments: the text of the turn, or an error with
its text. -/
inductive TurnResult where
  | finished (text : String)
  | cancelled
  | failed (error : String)
  deriving DecidableEq, Repr

/-- The status of the run, and `response_text`. -/
def TurnResult.response : TurnResult → ScheduleRunStatus × String
  | .finished text => (.success, text)
  | .cancelled => (.cancelled, "")
  | .failed error => (.failed, "Error: " ++ error)

/-- The marker of a response of which the owner is told. -/
def notifyMarker : String := "[NOTIFY]"

/-- `clean_text`: the response without the marker. -/
def cleanText (schedule : ScheduleDefinition) (response_text : String) : String :=
  if schedule.notification_policy = .conditional ∧
      notifyMarker.toList.isPrefixOf response_text.toList then
    trimStart (String.ofList (response_text.toList.drop notifyMarker.toList.length))
  else response_text

/-- `output_summary`, where it does not panic. -/
def outputSummary (clean_text : String) : Option (Option String) :=
  if clean_text = "" then some none else (shorten 500 497 clean_text).map some

/-- A text that is within the limit, or a prefix of a longer one and three dots. -/
def IsSummary (limit : ℕ) (text summary : String) : Prop :=
  if limit < text.utf8ByteSize then
    ∃ head tail, text = head ++ tail ∧ summary = head ++ "..." ∧ summary.utf8ByteSize ≤ limit
  else summary = text

/-- Where a text is shortened, the cut is at a boundary. -/
def CutsBetween (limit cut : ℕ) (text : String) : Prop :=
  limit < text.utf8ByteSize → IsCharBoundary cut text

theorem isSome_shorten_iff {limit cut : ℕ} {text : String} :
    (shorten limit cut text).isSome ↔ CutsBetween limit cut text := by
  unfold shorten CutsBetween
  split_ifs with hlong
  · rw [isSome_map, isSome_sliceTo_iff]
    exact ⟨fun h _ => h, fun h => h hlong⟩
  · exact iff_of_true rfl fun hlt => absurd hlt hlong

/-- What a text is shortened to is a summary, where the dots fit. -/
theorem isSummary_of_shorten {limit cut : ℕ} {text summary : String} (hfits : cut + 3 ≤ limit)
    (h : shorten limit cut text = some summary) : IsSummary limit text summary := by
  unfold shorten at h
  unfold IsSummary
  split_ifs at h ⊢ with hlong
  · obtain ⟨head, hhead, rfl⟩ := map_eq_some_iff.mp h
    obtain ⟨tail, htext, hsize⟩ := sliceTo_eq_some_iff.mp hhead
    refine ⟨head, tail, htext, rfl, ?_⟩
    have hdots : "...".utf8ByteSize = 3 := rfl
    rw [utf8ByteSize_append]
    omega
  · exact (some.inj h).symm

/-- The summary of a run and the notices of its failure are made without a panic, and where there is
something to shorten they hold a summary of it. -/
structure SummariesSafe (settings : SchedulerSettings) (schedule : ScheduleDefinition)
    (status : ScheduleRunStatus) (clean_text : String) : Prop where
  summary : ∃ summary, outputSummary clean_text = some summary ∧
    (∀ text ∈ summary, IsSummary 500 clean_text text) ∧ (clean_text ≠ "" → summary.isSome)
  notices : ∃ notices, handleFailureNotifications settings schedule status clean_text =
    some notices ∧ ∀ name count error_summary, .failing name count error_summary ∈ notices →
      IsSummary 200 clean_text error_summary

/-- The summary does not panic exactly where its cut is at a boundary. -/
theorem outputSummary_iff {clean_text : String} :
    (∃ summary, outputSummary clean_text = some summary ∧
      (∀ text ∈ summary, IsSummary 500 clean_text text) ∧ (clean_text ≠ "" → summary.isSome)) ↔
      CutsBetween 500 497 clean_text := by
  unfold outputSummary
  split_ifs with hempty
  · subst hempty
    exact iff_of_true ⟨none, rfl, nofun, fun h => absurd rfl h⟩ fun h => absurd h (by decide)
  · rw [← isSome_shorten_iff, isSome_iff_exists]
    constructor
    · rintro ⟨summary, hsummary, -⟩
      obtain ⟨text, htext, -⟩ := map_eq_some_iff.mp hsummary
      exact ⟨text, htext⟩
    · rintro ⟨text, htext⟩
      refine ⟨some text, by rw [htext]; rfl, fun t ht => ?_, fun _ => rfl⟩
      cases ht
      exact isSummary_of_shorten (by decide) htext

/-- The notices of a failure do not panic exactly where their cut is at a boundary. -/
theorem failureNotices_iff {settings : SchedulerSettings} {schedule : ScheduleDefinition}
    {status : ScheduleRunStatus} {clean_text : String} :
    (∃ notices, handleFailureNotifications settings schedule status clean_text = some notices ∧
      ∀ name count error_summary, .failing name count error_summary ∈ notices →
        IsSummary 200 clean_text error_summary) ↔
      (status = .failed → CutsBetween 200 197 clean_text) := by
  unfold handleFailureNotifications
  split_ifs with hquiet
  · refine iff_of_true ⟨[], rfl, nofun⟩ fun hfailed => ?_
    subst hfailed
    exact absurd hquiet (by decide)
  · have hfailed : status = .failed := by
      cases status <;> simp_all
    rw [forall_prop_of_true hfailed, ← isSome_shorten_iff, isSome_iff_exists]
    constructor
    · rintro ⟨notices, hnotices, -⟩
      obtain ⟨text, htext, -⟩ := bind_eq_some_iff.mp hnotices
      exact ⟨text, htext⟩
    · rintro ⟨text, htext⟩
      rw [htext]
      refine ⟨_, rfl, fun name count error_summary hnotice => ?_⟩
      have hsame : error_summary = text := by
        rcases List.mem_append.mp hnotice with hnotice | hnotice
        · split_ifs at hnotice with htell
          · have hfailing := List.mem_singleton.mp hnotice
            injection hfailing
          · exact absurd hnotice List.not_mem_nil
        · split_ifs at hnotice with htell
          · exact absurd (List.mem_singleton.mp hnotice) nofun
          · exact absurd hnotice List.not_mem_nil
      rw [hsame]
      exact isSummary_of_shorten (by decide) htext

/-- The summaries of a run are made safely exactly where no text that is too long has a character
across the cut. -/
theorem summaries_safe_iff (settings : SchedulerSettings) (schedule : ScheduleDefinition)
    (result : TurnResult) :
    SummariesSafe settings schedule result.response.1
        (cleanText schedule result.response.2) ↔
      CutsBetween 500 497 (cleanText schedule result.response.2) ∧
        (result.response.1 = .failed →
          CutsBetween 200 197 (cleanText schedule result.response.2)) := by
  constructor
  · exact fun h => ⟨outputSummary_iff.mp h.summary, failureNotices_iff.mp h.notices⟩
  · exact fun h => ⟨outputSummary_iff.mpr h.1, failureNotices_iff.mpr h.2⟩

/-- An answer of 502 bytes in characters of two bytes each. -/
def accents : String := String.ofList (List.replicate 251 'é')

/-- Its summary would end inside a character. -/
theorem accents_panics :
    outputSummary (cleanText hourlyReport (TurnResult.finished accents).response.2) = none ∧
      ¬SummariesSafe {} hourlyReport (TurnResult.finished accents).response.1
        (cleanText hourlyReport (TurnResult.finished accents).response.2) := by
  have hclean : cleanText hourlyReport (TurnResult.finished accents).response.2 = accents :=
    if_neg fun h => nomatch h.1
  have hsize : accents.utf8ByteSize = 502 := utf8ByteSize_replicate 251 'é'
  have hinside : ¬CutsBetween 500 497 accents := by
    intro hcuts
    have heven := isCharBoundary_replicate (hcuts (by omega))
    exact absurd heven (by decide)
  have hnone : shorten 500 497 accents = none := by
    rw [← not_isSome_iff_eq_none, isSome_shorten_iff]
    exact hinside
  have hne : accents ≠ "" := by
    intro hempty
    rw [hempty] at hsize
    exact absurd hsize (by decide)
  rw [hclean]
  refine ⟨?_, fun hsafe => hinside (outputSummary_iff.mp hsafe.summary)⟩
  rw [outputSummary, if_neg hne, hnone]
  rfl

/-! ## Pages -/

structure ScheduleRunOutputArgs where
  run_id : String
  offset : Option ℕ := none
  max_chars : Option ℕ := none
  deriving DecidableEq, Repr

/-- `ScheduleRunRecord`, the fields that the tool reads. -/
structure ScheduleRunRecord where
  run_id : String
  schedule_id : String
  output : Option String := none
  deriving DecidableEq, Repr

/-- The reply of the tool: that there is no output, or a page of it. -/
structure OutputPage where
  offset : ℕ
  max_chars : ℕ
  chunk : String
  remaining : ℕ
  total_length : ℕ
  deriving DecidableEq, Repr

/-- The name of the tool. -/
def scheduleRunOutputToolName : String := "schedule_run_output"

/-- `get_run_by_id`. -/
def getRunById (runs : List ScheduleRunRecord) (run_id : String) :
    Except SchedulerError ScheduleRunRecord :=
  match runs.find? fun run => run.run_id = run_id with
  | some run => .ok run
  | none => .error (.store ("run not found: " ++ run_id))

/-- The page of an output, where the slice does not panic. A text is shorter than `isize::MAX`, and
the sum does not overflow. -/
def outputPage (full_output : String) (request : ScheduleRunOutputArgs) : Option OutputPage :=
  let offset := request.offset.getD 0
  let max_chars := max 200 (min (request.max_chars.getD 4000) 8000)
  let total_len := full_output.utf8ByteSize
  if total_len ≤ offset then some ⟨offset, max_chars, "", 0, total_len⟩
  else
    let safe_end := floorBoundary offset full_output (min (offset + max_chars) total_len)
    (slice offset safe_end full_output).map fun chunk =>
      ⟨offset, max_chars, chunk, total_len - safe_end, total_len⟩

/-- `ScheduleRunOutputTool::execute`, where it does not panic: the page that the reply is made of,
or none where there is no output. -/
def scheduleRunOutput (runs : List ScheduleRunRecord) (schedules : List ScheduleDefinition)
    (user_id : Option String) (request : ScheduleRunOutputArgs) :
    Option (Except ToolError (Option OutputPage)) :=
  let checked : Except ToolError ScheduleRunRecord := do
    let user_id ← resolveUserId user_id scheduleRunOutputToolName
    let run ← failWith scheduleRunOutputToolName (getRunById runs request.run_id)
    let _ ← ownSchedule schedules user_id run.schedule_id scheduleRunOutputToolName
    return run
  match checked with
  | .error e => some (.error e)
  | .ok run =>
    match run.output with
    | none => some (.ok none)
    | some full_output => (outputPage full_output request).map fun page => .ok (some page)

/-- A page from a boundary on starts there and takes at least a character, up to what remains. -/
theorem outputPage_spec (request : ScheduleRunOutputArgs) {before after : String}
    (hoffset : request.offset.getD 0 = before.utf8ByteSize) (hsplit : full_output = before ++ after)
    :
    ∃ page rest, outputPage full_output request = some page ∧ after = page.chunk ++ rest ∧
      page.remaining = rest.utf8ByteSize ∧ (after ≠ "" → page.chunk ≠ "") := by
  have htotal : full_output.utf8ByteSize = before.utf8ByteSize + after.utf8ByteSize := by
    rw [hsplit, utf8ByteSize_append]
  unfold outputPage
  dsimp only
  rw [hoffset]
  split_ifs with hend
  · have hempty : after = "" := utf8ByteSize_eq_zero_iff.mp (by omega)
    subst hempty
    exact ⟨_, "", rfl, rfl, rfl, fun h => absurd rfl h⟩
  · generalize hstop : min (before.utf8ByteSize + max 200 (min (request.max_chars.getD 4000) 8000))
      full_output.utf8ByteSize = stop
    have hlow : IsCharBoundary before.utf8ByteSize full_output := ⟨before, after, hsplit, rfl⟩
    obtain ⟨hcut, hle, hlast⟩ := floorBoundary_spec hlow (n := stop) (by omega)
    -- the page ends in the last four bytes before its stop, or where the output ends
    have hprogress : before.utf8ByteSize < floorBoundary before.utf8ByteSize full_output stop := by
      by_cases hall : stop = full_output.utf8ByteSize
      · have hlast' := hlast _ (le_of_eq hall.symm) (isCharBoundary_end full_output)
        omega
      · have hstop : stop ≤ full_output.utf8ByteSize := by omega
        obtain ⟨b, hb, hnear, hboundary⟩ := exists_boundary hstop
        have hlast' := hlast b hb hboundary
        omega
    generalize floorBoundary before.utf8ByteSize full_output stop = safe_end at hcut hle hprogress ⊢
    obtain ⟨head, rest, hhead, hsize⟩ := hcut
    obtain ⟨chunk, rfl, hafter⟩ := exists_between (hsplit.symm.trans hhead) (by omega)
    rw [utf8ByteSize_append] at hsize
    have hslice : slice before.utf8ByteSize safe_end full_output = some chunk :=
      slice_eq_some_iff.mpr ⟨before, rest, hhead, rfl, hsize⟩
    rw [hslice]
    refine ⟨_, rest, rfl, hafter, ?_, fun _ hchunk => ?_⟩
    · have hrest : after.utf8ByteSize = chunk.utf8ByteSize + rest.utf8ByteSize := by
        rw [hafter, utf8ByteSize_append]
      show full_output.utf8ByteSize - safe_end = rest.utf8ByteSize
      omega
    · have hzero : chunk.utf8ByteSize = 0 := utf8ByteSize_eq_zero_iff.mpr hchunk
      omega

/-- A page that starts inside a character panics, and no other does. -/
theorem isSome_outputPage_iff {request : ScheduleRunOutputArgs} :
    (outputPage full_output request).isSome ↔
      full_output.utf8ByteSize ≤ request.offset.getD 0 ∨
        IsCharBoundary (request.offset.getD 0) full_output := by
  constructor
  · intro h
    obtain ⟨page, hpage⟩ := isSome_iff_exists.mp h
    unfold outputPage at hpage
    dsimp only at hpage
    split_ifs at hpage with hend
    · exact .inl hend
    · obtain ⟨chunk, hchunk, -⟩ := map_eq_some_iff.mp hpage
      obtain ⟨before, after, hsplit, hsize, -⟩ := slice_eq_some_iff.mp hchunk
      exact .inr ⟨before, chunk ++ after, by rw [hsplit, append_assoc], hsize⟩
  · rintro (hend | ⟨before, after, hsplit, hsize⟩)
    · unfold outputPage
      rw [if_pos hend]
      rfl
    · obtain ⟨page, -, hpage, -⟩ := outputPage_spec _ hsize.symm hsplit
      rw [hpage]
      rfl

section Paging

variable (runs : List ScheduleRunRecord) (schedules : List ScheduleDefinition)
  (user_id : Option String) (run_id : String)

/-- The user owns a run, and this is its output. -/
def Stored (full_output : String) : Prop :=
  ∃ owner run, user_id = some owner ∧ getRunById runs run_id = .ok run ∧
    (∃ schedule, ownSchedule schedules owner run.schedule_id scheduleRunOutputToolName =
      .ok schedule) ∧ run.output = some full_output

/-- The calls from the `call`-th one on, where each continues at the end of the page before until
nothing remains, and their pages. The caller gives any page sizes. -/
inductive Paged (sizes : ℕ → Option ℕ) : ℕ → ℕ → List String → Prop where
  | last {call offset : ℕ} {page : OutputPage} :
      scheduleRunOutput runs schedules user_id ⟨run_id, some offset, sizes call⟩ =
        some (.ok (some page)) → page.remaining = 0 → Paged sizes call offset [page.chunk]
  | next {call offset : ℕ} {page : OutputPage} {pages : List String} :
      scheduleRunOutput runs schedules user_id ⟨run_id, some offset, sizes call⟩ =
        some (.ok (some page)) → page.remaining ≠ 0 →
      Paged sizes (call + 1) (offset + page.chunk.utf8ByteSize) pages →
      Paged sizes call offset (page.chunk :: pages)

variable {runs schedules user_id run_id}

/-- The user's call for a run with an output is answered with a page of it. -/
theorem scheduleRunOutput_stored (h : Stored runs schedules user_id run_id full_output)
    (offset max_chars : Option ℕ) :
    scheduleRunOutput runs schedules user_id ⟨run_id, offset, max_chars⟩ =
      (outputPage full_output ⟨run_id, offset, max_chars⟩).map fun page => .ok (some page) := by
  obtain ⟨owner, run, rfl, hrun, ⟨schedule, hschedule⟩, houtput⟩ := h
  have hchecked : (do
      let user_id ← resolveUserId (some owner) scheduleRunOutputToolName
      let run ← failWith scheduleRunOutputToolName (getRunById runs run_id)
      let _ ← ownSchedule schedules user_id run.schedule_id scheduleRunOutputToolName
      return run : Except ToolError ScheduleRunRecord) = .ok run := by
    rw [hrun]
    show (do
      let _ ← ownSchedule schedules owner run.schedule_id scheduleRunOutputToolName
      return run : Except ToolError ScheduleRunRecord) = .ok run
    rw [hschedule]
    rfl
  unfold scheduleRunOutput
  rw [hchecked]
  dsimp only
  rw [houtput]

/-- The pages from a boundary on are what stands behind it. -/
theorem paged_from (h : Stored runs schedules user_id run_id full_output) (sizes : ℕ → Option ℕ)
    {before after : String} (hsplit : full_output = before ++ after) (call : ℕ) :
    ∃ pages, Paged runs schedules user_id run_id sizes call before.utf8ByteSize pages ∧
      String.join pages = after := by
  -- by induction on what remains
  induction hsize : after.utf8ByteSize using Nat.strong_induction_on
    generalizing before after call with
  | _ size ih =>
    subst hsize
    obtain ⟨page, rest, hpage, rfl, hremaining, hprogress⟩ :=
      outputPage_spec ⟨run_id, some before.utf8ByteSize, sizes call⟩ rfl hsplit
    have hcall := scheduleRunOutput_stored h (some before.utf8ByteSize) (sizes call)
    rw [hpage, map_some] at hcall
    by_cases hnone : page.remaining = 0
    · refine ⟨[page.chunk], .last hcall hnone, ?_⟩
      have hempty : rest = "" := utf8ByteSize_eq_zero_iff.mp (hremaining.symm.trans hnone)
      rw [hempty, join_cons, join_nil]
    · have hrest : rest ≠ "" := by
        rintro rfl
        exact hnone hremaining
      have hchunk : page.chunk.utf8ByteSize ≠ 0 := by
        rw [Ne, utf8ByteSize_eq_zero_iff]
        refine hprogress fun hempty => hrest ?_
        have hzero := congrArg String.utf8ByteSize hempty
        rw [utf8ByteSize_append] at hzero
        exact utf8ByteSize_eq_zero_iff.mp (Nat.eq_zero_of_add_eq_zero_left hzero)
      have hlt : rest.utf8ByteSize < (page.chunk ++ rest).utf8ByteSize := by
        rw [utf8ByteSize_append]
        omega
      obtain ⟨pages, hpages, hjoin⟩ := ih _ hlt
        (by rw [hsplit, append_assoc]) (call + 1) rfl
      rw [utf8ByteSize_append] at hpages
      exact ⟨page.chunk :: pages, .next hcall hnone hpages, by rw [join_cons, hjoin]⟩

/-- Reading an output page by page from its start gives all of it, and a call with an offset of the
caller's own returns. -/
structure RunOutputSafe (runs : List ScheduleRunRecord) (schedules : List ScheduleDefinition)
    (user_id : Option String) (run_id full_output : String) (sizes : ℕ → Option ℕ)
    (offset max_chars : Option ℕ) : Prop where
  reassembles : ∃ pages, Paged runs schedules user_id run_id sizes 0 0 pages ∧
    String.join pages = full_output
  returns : (scheduleRunOutput runs schedules user_id ⟨run_id, offset, max_chars⟩).isSome

/-- The pages always are the output, and a call with any offset returns exactly where the offset is
past the end or not inside a character. -/
theorem runOutput_safe_iff {full_output : String}
    (h : Stored runs schedules user_id run_id full_output) (sizes : ℕ → Option ℕ)
    (offset max_chars : Option ℕ) :
    RunOutputSafe runs schedules user_id run_id full_output sizes offset max_chars ↔
      full_output.utf8ByteSize ≤ offset.getD 0 ∨ IsCharBoundary (offset.getD 0) full_output := by
  have hreturns : (scheduleRunOutput runs schedules user_id ⟨run_id, offset, max_chars⟩).isSome ↔
      full_output.utf8ByteSize ≤ offset.getD 0 ∨ IsCharBoundary (offset.getD 0) full_output := by
    rw [scheduleRunOutput_stored h, isSome_map]
    exact isSome_outputPage_iff
  constructor
  · exact fun hsafe => hreturns.mp hsafe.returns
  · exact fun hoffset => ⟨paged_from h sizes empty_append.symm 0, hreturns.mpr hoffset⟩

/-- Alice's report ran once, and its output is one letter of two bytes. -/
def letterRun : List ScheduleRunRecord := [⟨"r1", "s1", some "é"⟩]

theorem letterRun_stored : Stored letterRun [hourlyReport] (some "alice") "r1" "é" :=
  ⟨"alice", ⟨"r1", "s1", some "é"⟩, rfl, rfl, ⟨hourlyReport, rfl⟩, rfl⟩

/-- The second byte is no place to start at. -/
theorem secondByte_panics :
    Stored letterRun [hourlyReport] (some "alice") "r1" "é" ∧
      scheduleRunOutput letterRun [hourlyReport] (some "alice") ⟨"r1", some 1, none⟩ = none ∧
      ¬RunOutputSafe letterRun [hourlyReport] (some "alice") "r1" "é" (fun _ => none) (some 1)
        none := by
  have hnone : scheduleRunOutput letterRun [hourlyReport] (some "alice") ⟨"r1", some 1, none⟩ =
      none := by
    decide
  refine ⟨letterRun_stored, hnone, fun hsafe => ?_⟩
  have hreturns := hsafe.returns
  rw [hnone] at hreturns
  exact absurd hreturns (by decide)

/-- From the start, the letter is read in one page. -/
theorem letter_read : RunOutputSafe letterRun [hourlyReport] (some "alice") "r1" "é"
    (fun _ => none) (some 0) none :=
  (runOutput_safe_iff letterRun_stored _ _ _).mpr (.inr (isCharBoundary_zero "é"))

end Paging

end Oxydra
