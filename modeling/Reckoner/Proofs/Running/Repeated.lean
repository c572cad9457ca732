import Reckoner.Proofs.Running.History

/-!
# Repeated runs

Runs that come one after the other in one directory, each with a call of its own and on a host of
its own, find the files as the runs before have left them. If all of them keep their calculation log
in the same file, and send their records elsewhere, then this file grows by one line for each run
that calculated something, whatever the others did, and each line tells what its run did.
-/

namespace Reckoner.CommandLine

/-! ### Lines of a text -/

/-- A text that ends with a complete line, or is empty. -/
def IsEnded (text : String) : Prop := text = "" ∨ ∃ before, text = before ++ "\n"

/-- The complete lines of a text. -/
def completeLines (text : String) : List String :=
  ((text.toList.splitOn '\n').dropLast).map String.ofList

/-- The end of a line splits a text. -/
private theorem splitOn_append (before after : List Char) :
    (before ++ '\n' :: after).splitOn '\n' = before.splitOn '\n' ++ after.splitOn '\n' := by
  simp only [List.splitOn_eq_splitOnP]
  exact List.splitOnP_append_cons before after (beq_self_eq_true '\n')

/-- What stands before the end of a line is complete. -/
private theorem completeLines_end (before : String) :
    completeLines (before ++ "\n") = (before.toList.splitOn '\n').map String.ofList := by
  have htext : (before ++ "\n").toList = before.toList ++ ['\n'] := String.toList_append
  rw [completeLines, htext, splitOn_append, List.splitOn_nil, List.dropLast_concat]

/-- A line that is written behind complete lines is one line more. -/
theorem completeLines_append {text line : String} (h : IsEnded text)
    (hline : '\n' ∉ line.toList) :
    completeLines (text ++ (line ++ "\n")) = completeLines text ++ [line] := by
  have hsingle : line.toList.splitOn '\n' = [line.toList] := by
    rw [List.splitOn_eq_splitOnP]
    refine List.splitOnP_eq_singleton fun c hc => ?_
    simp only [beq_eq_false_iff_ne]
    rintro rfl
    exact hline hc
  rw [← String.append_assoc, completeLines_end]
  rcases h with rfl | ⟨before, rfl⟩
  · rw [String.empty_append, hsingle]
    simp [completeLines]
  · have htext : (before ++ "\n" ++ line).toList = before.toList ++ '\n' :: line.toList := by simp
    rw [htext, splitOn_append, hsingle, completeLines_end, List.map_append, List.map_singleton,
      String.ofList_toList]

/-- A line that is written behind complete lines leaves them complete. -/
theorem isEnded_append (text line : String) : IsEnded (text ++ (line ++ "\n")) :=
  .inr ⟨text ++ line, by rw [String.append_assoc]⟩

/-! ### Runs one after the other -/

/-- A call with the host and the time of its run. -/
structure Call where
  /-- The host. -/
  host : Host
  /-- The time. -/
  time : Moment
  /-- The call. -/
  invocation : Invocation

/-- A run in its turn: a call and the files before it. -/
structure Turn extends Call where
  /-- The files before the run. -/
  before : Files

namespace Turn

/-- The outcome of a run. -/
def outcome (r : Turn) : Outcome := run r.host r.time r.invocation r.before

/-- The files after a run. -/
def after (r : Turn) : Files := r.outcome.journal.files

/-- The expression that a run has to calculate, with the result of the calculation. -/
def calculation? (r : Turn) : Option (String × Except Stop Value) :=
  match r.invocation.plan? r.host r.before with
  | none => none
  | some (s, a) =>
    match findExpression r.host a s.maxInputSize r.invocation.input,
      r.host.checkLimit a.maxDepth with
    | .ok expression, .ok limit =>
      some (expression, (calculate r.host.ops ⟨false, false, limit⟩ expression).result)
    | _, _ => none

/-- Whether the arguments of a run ask for a calculation and it ends with the status zero or one. -/
def isLogged (r : Turn) : Bool :=
  (r.invocation.plan? r.host r.before).isSome &&
    match r.outcome.ending with
    | .ok status => status < 2
    | .error _ => false

/-- A run that is asked for a calculation keeps its calculation log at a place and sends its records
elsewhere. -/
def LogsAt (place : List String) (r : Turn) : Prop :=
  KeepsLogAt r.host r.invocation r.before place

instance (place : List String) (r : Turn) : Decidable (r.LogsAt place) :=
  decidable_of_iff (∀ p ∈ r.invocation.plan? r.host r.before,
    (calculationPath? p.2 p.1).map Path.place = some place ∧
      (logPath? p.1).map Path.place ≠ some place) (by simp [LogsAt, KeepsLogAt])

/-- The double that a run results in is read back, if there is one and it is finite. -/
def IsReadable (r : Turn) : Prop :=
  ∀ expression x, r.calculation? = some (expression, .ok (.float x)) → x.isFinite = true →
    ReadsBack x

/-- A line tells what a run did: read strictly it has the expression, and the value with its type if
the run ended with the status zero, or the message and the kind of the fault if it ended with the
status one. -/
inductive Tells (line : String) (r : Turn) : Prop
  /-- The run ended with a value. -/
  | value {expression v result} (hc : r.calculation? = some (expression, .ok v))
      (he : r.outcome.ending = .ok 0) (hs : Stands v result)
      (hr : Data.read? line = some (historyEntry r.time "calculation"
        [("expression", .text expression), ("result", result), ("type", .text v.kindName)]))
  /-- The run ended with a fault. -/
  | fault {expression f} (hc : r.calculation? = some (expression, .error (.fault f)))
      (he : r.outcome.ending = .ok 1)
      (hr : Data.read? line = some (historyEntry r.time "calculation failed"
        [("expression", .text expression), ("error", .text f.message),
          ("kind", .text f.cause.kindName)]))

variable {r : Turn} {place : List String}

/-- A run that comes to a calculation has it to do. -/
theorem calculation?_of_reaches {s : Settings} {a : Arguments} {level limit : Int} {fs : Files}
    {expression : String}
    (h : Reaches r.host r.invocation r.before s a level fs expression limit) :
    r.calculation? =
      some (expression, (calculate r.host.ops ⟨false, false, limit⟩ expression).result) := by
  simp only [calculation?, h.plan, h.hasExpression, h.hasLimit]

/-- A run is logged if it has a calculation to do and ends with a status below two. -/
theorem isLogged_iff : r.isLogged = true ↔
    (r.invocation.plan? r.host r.before).isSome = true ∧ ∃ n < 2, r.outcome.ending = .ok n := by
  unfold isLogged
  cases r.outcome.ending with
  | error e => simp
  | ok status => simp

/-- The fields on the line of a value are read back if the value is. -/
private theorem readable_valueEntry {v : Value} (h : Data.Readable v.toFiniteScalar) (time : Moment)
    (expression : String) : ∀ f ∈ valueEntry time expression v, Data.Readable f.2 := by
  simp [valueEntry, historyEntry, Data.Readable] at h ⊢
  exact h

/-- The fields on the line of a fault are read back. -/
private theorem readable_faultEntry (time : Moment) (expression : String) (f : Fault) :
    ∀ g ∈ faultEntry time expression f, Data.Readable g.2 := by
  simp [faultEntry, historyEntry, Data.Readable]

/-- The value of a run is read back from its line. -/
private theorem IsReadable.readable {expression : String} {v : Value} (h : r.IsReadable)
    (hc : r.calculation? = some (expression, .ok v)) : Data.Readable v.toFiniteScalar := by
  cases v with
  | integer n => trivial
  | float x =>
    rw [Value.toFiniteScalar]
    split
    · rename_i hfinite
      exact ⟨hfinite, h expression x hc hfinite⟩
    · trivial

/-- A logged run adds one line that tells what it did, and any other run adds nothing. -/
theorem content_after (hlog : r.LogsAt place) (hread : r.IsReadable) :
    (r.isLogged = true ∧ ∃ line, (∀ c ∈ line.toList, Data.IsPlain c) ∧ Tells line r ∧
      r.after.content place = r.before.content place ++ (line ++ "\n")) ∨
    r.isLogged = false ∧ r.after.content place = r.before.content place := by
  rcases reaches_or_idle hlog r.time with
    ⟨s, a, level, fs, expression, limit, h⟩ | ⟨hcontent, hidle⟩
  · left
    have hplan : (r.invocation.plan? r.host r.before).isSome = true := by rw [h.plan]; rfl
    have hc : r.calculation? = _ := calculation?_of_reaches h
    have hreadable : ∀ v,
        (calculate r.host.ops ⟨false, false, limit⟩ expression).result = .ok v →
          Data.Readable v.toFiniteScalar := by
      intro v hv
      rw [hv] at hc
      exact hread.readable hc
    obtain ⟨hplace, helse⟩ := hlog s a h.plan
    obtain ⟨p, hp, rfl⟩ := Option.map_eq_some_iff.mp hplace
    rcases h.content_run hp helse hreadable r.time with
      ⟨v, hv, hending, hcontent⟩ | ⟨f, hf, hending, hcontent⟩
    · rw [hv] at hc
      have hfields := readable_valueEntry (hreadable v hv) r.time expression
      exact ⟨isLogged_iff.mpr ⟨hplan, 0, by decide, hending⟩, _,
        fun c => Data.isPlain_of_mem_dataLine hfields,
        .value hc hending (stands_toFiniteScalar v) (Data.readLine?_dataLine hfields), hcontent⟩
    · rw [hf] at hc
      have hfields := readable_faultEntry r.time expression f
      exact ⟨isLogged_iff.mpr ⟨hplan, 1, by decide, hending⟩, _,
        fun c => Data.isPlain_of_mem_dataLine hfields,
        .fault hc hending (Data.readLine?_dataLine hfields), hcontent⟩
  · refine .inr ⟨?_, hcontent⟩
    rw [Bool.eq_false_iff]
    intro hlogged
    obtain ⟨hplan, n, hn, hending⟩ := isLogged_iff.mp hlogged
    exact hidle hplan n hn hending

end Turn

/-- The runs of some calls, one after the other. -/
def turns : Files → List Call → List Turn
  | _, [] => []
  | files, call :: calls =>
    let r : Turn := ⟨call, files⟩
    r :: turns r.after calls

/-- The files after some calls. -/
def filesAfter : Files → List Call → Files
  | files, [] => files
  | files, call :: calls => filesAfter (Turn.after ⟨call, files⟩) calls

/-- A calculation log that is kept by runs one after the other grows by the lines of the logged
runs. -/
private theorem exists_lines {place : List String} {files : Files} {calls : List Call}
    (hlog : ∀ r ∈ turns files calls, r.LogsAt place)
    (hread : ∀ r ∈ turns files calls, r.IsReadable) :
    ∃ lines : List String, (filesAfter files calls).content place =
        files.content place ++ String.join (lines.map (· ++ "\n")) ∧
      (∀ line ∈ lines, ∀ c ∈ line.toList, Data.IsPlain c) ∧
      List.Forall₂ Turn.Tells lines ((turns files calls).filter Turn.isLogged) := by
  induction calls generalizing files with
  | nil => exact ⟨[], by simp [filesAfter], nofun, .nil⟩
  | cons call calls ih =>
    rw [turns, List.forall_mem_cons] at hlog hread
    obtain ⟨lines, hcontent, hplain, htells⟩ := ih hlog.2 hread.2
    rcases Turn.content_after hlog.1 hread.1 with
      ⟨hlogged, line, hline, htell, hafter⟩ | ⟨hnot, hafter⟩
    · refine ⟨line :: lines, ?_, ?_, ?_⟩
      · rw [filesAfter, hcontent, hafter, List.map_cons, String.join_cons, String.append_assoc]
      · exact List.forall_mem_cons.mpr ⟨hline, hplain⟩
      · rw [turns, List.filter_cons_of_pos hlogged]
        exact .cons htell htells
    · refine ⟨lines, ?_, hplain, ?_⟩
      · rw [filesAfter, hcontent, hafter]
      · rw [turns, List.filter_cons_of_neg (by simp [hnot])]
        exact htells

/-- Lines that are written behind complete lines are lines more. -/
private theorem completeLines_join {text : String} (h : IsEnded text) {lines : List String}
    (hlines : ∀ line ∈ lines, '\n' ∉ line.toList) :
    completeLines (text ++ String.join (lines.map (· ++ "\n"))) = completeLines text ++ lines := by
  induction lines generalizing text with
  | nil => simp
  | cons line lines ih =>
    rw [List.forall_mem_cons] at hlines
    rw [List.map_cons, String.join_cons, ← String.append_assoc,
      ih (isEnded_append text line) hlines.2, completeLines_append h hlines.1, List.append_assoc,
      List.singleton_append]

/-- After runs one after the other that keep their calculation log in one file, which is absent or
ends with a complete line, and send their records elsewhere, the file has its old content and behind
it one line for each logged run, in the order of the runs, and no other. Each of these lines is of
printable ASCII characters and tells what its run did. -/
theorem content_filesAfter {place : List String} {files : Files} {calls : List Call}
    (hlog : ∀ r ∈ turns files calls, r.LogsAt place)
    (hread : ∀ r ∈ turns files calls, r.IsReadable) (hstart : IsEnded (files.content place)) :
    ∃ lines : List String,
      (filesAfter files calls).content place =
        files.content place ++ String.join (lines.map (· ++ "\n")) ∧
      completeLines ((filesAfter files calls).content place) =
        completeLines (files.content place) ++ lines ∧
      (∀ line ∈ lines, ∀ c ∈ line.toList, Data.IsPlain c) ∧
      List.Forall₂ Turn.Tells lines ((turns files calls).filter Turn.isLogged) := by
  obtain ⟨lines, hcontent, hplain, htells⟩ := exists_lines hlog hread
  refine ⟨lines, hcontent, ?_, hplain, htells⟩
  rw [hcontent]
  exact completeLines_join hstart fun line hline hmem =>
    absurd (hplain line hline '\n' hmem) (by decide)

/-- Files with a calculation log that has a line already. -/
def keptFiles : Files := ⟨[], [(["h"], "first\n")], []⟩

/-- Calls that result in a double, ask for help, end in a fault and have no expression. -/
def fourCalls : List Call :=
  [["--log", "h", "1/4"], ["--help"], ["--log", "./h", "1/0"], ["--log", "h"]].map fun args =>
    ⟨defaultHost "", ⟨"", ""⟩, ⟨args, [], .closed⟩⟩

/-- Two of the calls add a line to the calculation log. -/
theorem content_fourCalls : ∃ lines : List String, lines.length = 2 ∧
    completeLines ((filesAfter keptFiles fourCalls).content ["h"]) = "first" :: lines := by
  have hlog : ∀ r ∈ turns keptFiles fourCalls, r.LogsAt ["h"] := by decide +kernel
  have hresults : (turns keptFiles fourCalls).map Turn.calculation? =
      [some ("1/4", .ok (.float 0.25)), none,
        some ("1/0", .error (.fault ⟨.divisionByZero, ⟨1, 2⟩⟩)), none] := by decide +kernel
  have hread : ∀ r ∈ turns keptFiles fourCalls, r.IsReadable := by
    intro r hr expression x hc _
    have hmem := List.mem_map_of_mem (f := Turn.calculation?) hr
    rw [hresults, hc] at hmem
    obtain ⟨rfl, rfl⟩ : expression = "1/4" ∧ x = 0.25 := by simpa using hmem
    have hback : readFloat? (floatText 0.25).toList = some 0.25 := by decide +kernel
    exact hback
  have hfirst : completeLines (keptFiles.content ["h"]) = ["first"] := by decide +kernel
  have hlogged : ((turns keptFiles fourCalls).filter Turn.isLogged).length = 2 := by
    decide +kernel
  obtain ⟨lines, -, hlines, -, htells⟩ := content_filesAfter hlog hread (.inr ⟨"first", rfl⟩)
  rw [hfirst] at hlines
  exact ⟨lines, htells.length_eq.trans hlogged, hlines⟩

end Reckoner.CommandLine
