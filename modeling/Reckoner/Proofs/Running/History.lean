import Reckoner.Proofs.Data.Lines
import Reckoner.Proofs.Running.Contents
import Reckoner.Proofs.Running.Streams

/-!
# The calculation log of a run

A run that comes to a calculation and ends with it writes one line to its calculation log, and
nothing else writes to that file as long as the records go elsewhere. A strict reader finds on the
line the expression with the value or with the fault. A run that ends in any other way leaves the
content of the file as it is.
-/

namespace Reckoner

/-! ### Entries -/

/-- Setting fields that are not there adds them at the end. -/
theorem setFields_of_nodup {α : Type} {fields new : List (String × α)}
    (h : ((fields ++ new).map Prod.fst).Nodup) : setFields fields new = fields ++ new := by
  induction new generalizing fields with
  | nil => exact (List.append_nil fields).symm
  | cons f new ih =>
    have hfresh : ¬ fields.any (·.1 == f.1) = true := by
      intro hany
      obtain ⟨g, hg, hgf⟩ := List.any_eq_true.mp hany
      rw [List.map_append, List.nodup_append] at h
      exact h.2.2 _ (List.mem_map_of_mem hg) f.1 (by simp) (beq_iff_eq.mp hgf)
    have hset : setField fields f = fields ++ [f] := by rw [setField, if_neg hfresh]
    rw [List.append_cons] at h ⊢
    rw [← ih h, setFields, List.foldl_cons, hset]
    rfl

/-- A value stands on a line as a whole number, as a finite double or as the text of any other
double. -/
inductive Stands : Value → Scalar → Prop
  /-- A whole number. -/
  | integer (n : Integer) : Stands (.integer n) (.int n.val)
  /-- A finite double. -/
  | finite {x : Float} (h : x.isFinite = true) : Stands (.float x) (.float x)
  /-- An infinite double. -/
  | infinite {x : Float} (h : x.isInf = true) :
      Stands (.float x) (.text (if signBit x then "-inf" else "inf"))
  /-- The double that is no number. -/
  | undefined {x : Float} (h : x.isNaN = true) : Stands (.float x) (.text "nan")

/-- The plain data of a value in the calculation log stands for it. -/
theorem stands_toFiniteScalar (v : Value) : Stands v v.toFiniteScalar := by
  cases v with
  | integer n => exact .integer n
  | float x =>
    rw [Value.toFiniteScalar]
    split
    · rename_i hfinite
      exact .finite hfinite
    · rename_i hfinite
      rcases Data.isNaN_or_isInf (Bool.not_eq_true _ ▸ hfinite) with hnan | ⟨hnan, hinf⟩
      · have htext : floatText x = "nan" := by rw [floatText, if_pos hnan]
        rw [htext]
        exact .undefined hnan
      · have htext : floatText x = if signBit x then "-inf" else "inf" := by
          simp only [floatText, hnan, hinf]
          cases signBit x <;> rfl
        rw [htext]
        exact .infinite hinf

namespace CommandLine

/-- The fields on a line of the calculation log: the time, the level, the logger and the message,
and behind them what it tells about the expression. -/
def historyEntry (time : Moment) (message : String) (about : List (String × Scalar)) :
    List (String × Scalar) :=
  [("timestamp", .text time.iso), ("level", .text "INFO"), ("logger", .text "exprcalc.history"),
    ("message", .text message)] ++ about

/-- The fields of a record of the calculation log, if no name occurs twice among them. -/
private theorem fields_historyRecord {time : Moment} {message : String}
    {about : List (String × Scalar)}
    (h : (["timestamp", "level", "logger", "message"] ++ placeFields ++
      about.map Prod.fst).Nodup) :
    (historyRecord message about).fields time message =
      historyEntry time message [] ++
        [("module", .text "cli"), ("function", .text "main"), ("line", .int 0)] ++ about :=
  setFields_of_nodup (by rwa [List.map_append])

/-- A record of the calculation log is written as its entry, if no name occurs twice on its line and
none is the name of a place in the program, and what it tells is read back. -/
theorem render_historyRecord {time : Moment} {message : String} {about : List (String × Scalar)}
    (h : (["timestamp", "level", "logger", "message"] ++ placeFields ++
      about.map Prod.fst).Nodup) (hread : ∀ f ∈ about, Data.Readable f.2) :
    LineFormat.history.render time (historyRecord message about) =
      .ok (dataLine (historyEntry time message about)) := by
  have hmessage : (historyRecord message about).message = .ok message := rfl
  have hfields : ∀ f ∈ (historyRecord message about).fields time message, Data.Readable f.2 := by
    simpa [fields_historyRecord h, historyEntry, Data.Readable] using hread
  have hkept : about.filter (fun f => !placeFields.contains f.1) = about := by
    refine List.filter_eq_self.mpr fun f hf => ?_
    have hnot : f.1 ∉ placeFields := by
      intro hplace
      exact (List.nodup_append.mp h).2.2 _ (List.mem_append_right _ hplace) _
        (List.mem_map_of_mem hf) rfl
    simpa using hnot
  rw [Data.render_history hmessage hfields, fields_historyRecord h, List.filter_append, hkept]
  rfl

end CommandLine

/-! ### Journals -/

/-- A journal whose calculation log is open at a place that no other handler writes to, with the
content of the file there. -/
structure Journal.LogsAt (j : Journal) (place : List String) (content : String) : Prop where
  /-- The calculation log is apart from the root. -/
  isApart : j.loggers.isHistoryApart = true
  /-- Its only handler writes its lines to the place. -/
  historyHandlers : j.loggers.historyHandlers = [⟨.file place, .history, 0⟩]
  /-- The handlers of the root write elsewhere. -/
  rootHandlers : ∀ h ∈ j.loggers.rootHandlers, h.sink ≠ .file place
  /-- The file has the content. -/
  read : j.files.read? place = some content

namespace Journal.LogsAt

variable {j : Journal} {place : List String} {content : String}

/-- Printing leaves the calculation log as it is. -/
theorem print (hj : j.LogsAt place content) (text : String) : (j.print text).LogsAt place content :=
  ⟨hj.isApart, hj.historyHandlers, hj.rootHandlers, hj.read⟩

/-- A record of another logger leaves the calculation log as it is. -/
theorem log (hj : j.LogsAt place content) {r : Record}
    (hr : Loggers.isHistoryName r.logger = false) : (j.log r).LogsAt place content := by
  refine ⟨hj.isApart, hj.historyHandlers, hj.rootHandlers, ?_⟩
  rw [← hj.read]
  have hhandlers : j.loggers.handlersOf r.logger = j.loggers.rootHandlers := by
    simp [Loggers.handlersOf, Loggers.isApart, hr]
  unfold Journal.log Loggers.log
  split
  · simp only [Journal.files, Loggers.emit, hhandlers]
    split
    · rw [files_lastResort]
    · exact read?_foldl_emit hj.rootHandlers _
  · rfl

/-- A record of the calculation log adds its line at the end of the file, if that has room. -/
theorem log_history (hj : j.LogsAt place content) (hroom : j.files.isFull place = false)
    {message line : String} {about : List (String × Scalar)}
    (hline : LineFormat.history.render j.time (CommandLine.historyRecord message about) =
      .ok line) :
    (j.log (CommandLine.historyRecord message about)).LogsAt place (content ++ (line ++ "\n")) := by
  refine ⟨hj.isApart, hj.historyHandlers, hj.rootHandlers, ?_⟩
  have happend := Files.read?_append hj.read hroom (line ++ "\n")
  have hapart : j.loggers.isApart Loggers.historyName = true := by
    simp [Loggers.isApart, hj.isApart, Loggers.isHistoryName]
  have henabled : j.loggers.isEnabled Loggers.historyName infoLevel = true := by
    simp [Loggers.isEnabled, Loggers.levelOf, hapart, infoLevel]
  have hhandlers : j.loggers.handlersOf Loggers.historyName = [⟨.file place, .history, 0⟩] := by
    rw [Loggers.handlersOf, if_pos hapart, hj.historyHandlers]
  generalize hr : CommandLine.historyRecord message about = r at hline ⊢
  obtain ⟨hlogger, hlevel⟩ : r.logger = Loggers.historyName ∧ r.level = infoLevel := by
    subst hr
    exact ⟨rfl, rfl⟩
  have hlogged : (j.log r).files = j.files.append place (line ++ "\n") := by
    rw [← hlogger] at henabled hhandlers
    rw [← hlevel] at henabled
    have hnot : ¬ r.level < 0 := by
      rw [hlevel]
      decide
    simp only [Journal.log, Journal.files, Loggers.log, if_pos henabled, Loggers.emit, hhandlers,
      List.foldl_cons, List.foldl_nil, Handler.emit, hline, if_neg hnot, Outlets.write]
  rw [hlogged, happend]

end Journal.LogsAt

/-- A journal that may write to the file at a place, but that file is full, with its content. -/
structure Journal.IsFullAt (j : Journal) (place : List String) (content : String) : Prop where
  /-- The file is full. -/
  isFull : j.files.isFull place = true
  /-- The file has the content. -/
  content_eq : j.files.content place = content

namespace Journal.IsFullAt

variable {j : Journal} {place : List String} {content : String}

/-- Printing leaves a file as it is. -/
theorem print (hj : j.IsFullAt place content) (text : String) :
    (j.print text).IsFullAt place content :=
  ⟨hj.isFull, hj.content_eq⟩

/-- A record leaves a full file as it is. -/
theorem log (hj : j.IsFullAt place content) (r : Record) : (j.log r).IsFullAt place content := by
  constructor
  · rw [isFull_log]
    exact hj.isFull
  · rw [Files.content, read?_log_of_isFull hj.isFull]
    exact hj.content_eq

end Journal.IsFullAt

namespace CommandLine

variable {j : Journal} {place : List String} {content : String}

/-- What a calculation gives off does not go to the calculation log. -/
theorem logsAt_note (hj : j.LogsAt place content) (e : Emission) :
    (note j e).LogsAt place content := by
  cases e with
  | printed text => exact hj.print _
  | scanned | parsed | evaluated =>
    apply hj.log
    simp only [stageRecord, Origin.record]
    decide +kernel

/-- Nothing that a calculation gives off goes to the calculation log. -/
theorem logsAt_foldl_note (hj : j.LogsAt place content) (es : List Emission) :
    (es.foldl note j).LogsAt place content := by
  induction es generalizing j with
  | nil => exact hj
  | cons e es ih => exact ih (logsAt_note hj e)

/-- What a calculation gives off leaves a full file as it is. -/
theorem isFullAt_foldl_note (hj : j.IsFullAt place content) (es : List Emission) :
    (es.foldl note j).IsFullAt place content := by
  induction es generalizing j with
  | nil => exact hj
  | cons e es ih =>
    apply ih
    cases e with
    | printed text => exact hj.print _
    | scanned | parsed | evaluated => exact hj.log _

/-- Noting what a calculation gives off leaves the time of the records as it is, and fills no
file. -/
theorem time_full_foldl_note (j : Journal) (es : List Emission) :
    (es.foldl note j).time = j.time ∧ (es.foldl note j).files.full = j.files.full := by
  induction es generalizing j with
  | nil => exact ⟨rfl, rfl⟩
  | cons e es ih =>
    rw [List.foldl_cons, (ih _).1, (ih _).2]
    cases e with
    | printed text => exact ⟨rfl, rfl⟩
    | scanned | parsed | evaluated => exact ⟨rfl, Journal.full_log _ _⟩

/-- The entry of an expression with a value. -/
def valueEntry (time : Moment) (expression : String) (v : Value) : List (String × Scalar) :=
  historyEntry time "calculation" [("expression", .text expression),
    ("result", v.toFiniteScalar), ("type", .text v.kindName)]

/-- The entry of an expression with a fault. -/
def faultEntry (time : Moment) (expression : String) (f : Fault) : List (String × Scalar) :=
  historyEntry time "calculation failed" [("expression", .text expression),
    ("error", .text f.message), ("kind", .text f.cause.kindName)]

/-- The record of a value is written as its entry, if the value is read back. -/
theorem render_value (time : Moment) (expression : String) {v : Value}
    (h : Data.Readable v.toFiniteScalar) :
    LineFormat.history.render time (historyRecord "calculation" [("expression", .text expression),
      ("result", v.toFiniteScalar), ("type", .text v.kindName)]) =
        .ok (dataLine (valueEntry time expression v)) := by
  have hnames : (["timestamp", "level", "logger", "message"] ++ placeFields ++
      ["expression", "result", "type"]).Nodup := by decide
  refine render_historyRecord hnames ?_
  simpa [Data.Readable] using h

/-- The record of a fault is written as its entry. -/
theorem render_fault (time : Moment) (expression : String) (f : Fault) :
    LineFormat.history.render time (historyRecord "calculation failed"
      [("expression", .text expression), ("error", .text f.message),
        ("kind", .text f.cause.kindName)]) = .ok (dataLine (faultEntry time expression f)) := by
  have hnames : (["timestamp", "level", "logger", "message"] ++ placeFields ++
      ["expression", "error", "kind"]).Nodup := by decide
  refine render_historyRecord hnames ?_
  simp [Data.Readable]

/-- The records of a run itself do not go to the calculation log. -/
private theorem isHistoryName_run : Loggers.isHistoryName Origin.run.logger = false := by
  decide +kernel

/-- The end of a run closes its calculation log, if it is open, which changes no content. -/
private theorem content_finish (isOpen : Bool) (status : Nat) (output : String) (j : Journal)
    (place : List String) :
    (finish isOpen status output j).journal.files.content place = j.files.content place := by
  rw [finish_eq]
  cases closingError? isOpen j <;> cases isOpen <;> rfl

/-- A run that succeeds adds the entry of the value to its calculation log. -/
theorem content_succeed (hj : j.LogsAt place content) (hroom : j.files.isFull place = false)
    (expression : String) {v : Value} (hv : Data.Readable v.toFiniteScalar) :
    (succeed true expression v j).journal.files.content place =
      content ++ (dataLine (valueEntry j.time expression v) ++ "\n") := by
  have hlog := hj.log (r := runRecord expression debugLevel "Calculation succeeded" []
    [("type", .text v.kindName)]) isHistoryName_run
  have hread := (hlog.log_history (by rwa [Journal.isFull_log])
    (render_value j.time expression hv)).read
  simp only [succeed]
  rw [content_finish]
  exact congrArg (Option.getD · "") hread

/-- A run that fails adds the entry of the fault to its calculation log. -/
theorem content_fail (hj : j.LogsAt place content) (hroom : j.files.isFull place = false)
    (expression : String) (f : Fault) :
    (fail true expression f j).journal.files.content place =
      content ++ (dataLine (faultEntry j.time expression f) ++ "\n") := by
  have hlog := hj.log (r := runRecord expression infoLevel "Calculation failed: %s"
    [.text f.cause.kindName] [("kind", .text f.cause.kindName), ("start", .int f.span.start),
      ("end", .int f.span.stop)]) isHistoryName_run
  have hread := (hlog.log_history (by rwa [Journal.isFull_log])
    (render_fault j.time expression f)).read
  simp only [fail]
  rw [content_finish]
  exact congrArg (Option.getD · "") hread

/-- A run that succeeds or fails leaves a full file as it is. -/
private theorem content_of_isFullAt (hj : j.IsFullAt place content) (expression : String) :
    (∀ v, (succeed true expression v j).journal.files.content place = content) ∧
      ∀ f, (fail true expression f j).journal.files.content place = content := by
  constructor
  · intro v
    simp only [succeed]
    rw [content_finish]
    exact ((hj.log _).log _).content_eq
  · intro f
    simp only [fail]
    rw [content_finish]
    exact (((hj.log _).log _).print _).content_eq

/-! ### Runs -/

variable {host : Host} {time : Moment} {inv : Invocation} {files fs : Files} {s : Settings}
  {a : Arguments} {level limit : Int} {expression report : String}

/-- The journal of a run whose records go elsewhere is ready to write to the calculation log. -/
theorem logsAt_writing (time : Moment) (report : String) (level : Int) {p : Path}
    (hp : calculationPath? a s = some p) (helse : (logPath? s).map Path.place ≠ some p.place)
    (hf : files.openAll? (logPaths a s) = some fs) :
    (writing time report s level (some p) fs).LogsAt p.place (files.content p.place) := by
  have hcontent := Files.content_openAll? hf p.place
  rw [logPaths, hp, Files.openAll?_append, Option.bind_eq_some_iff] at hf
  obtain ⟨fs₁, -, hopen⟩ := hf
  obtain ⟨content, hread⟩ := Option.isSome_iff_exists.mp (Files.isSome_of_openAll? hopen)
  refine ⟨rfl, rfl, ?_, ?_⟩
  · intro h hh
    rcases List.mem_cons.mp hh with rfl | hh
    · intro hsink
      cases hsink
    · obtain ⟨q, hq, rfl⟩ := List.mem_map.mp hh
      intro hsink
      rw [Option.mem_toList.mp hq] at helse
      exact helse (congrArg some (Sink.file.inj hsink))
  · rw [← hcontent, Files.content, hread]
    exact hread

/-- A run that comes to a calculation adds the entry of the value or of the fault to its calculation
log, if the value is read back. -/
theorem Reaches.content_run (h : Reaches host inv files s a level fs expression limit) {p : Path}
    (hp : calculationPath? a s = some p) (helse : (logPath? s).map Path.place ≠ some p.place)
    (hread : ∀ v, (calculate host.ops ⟨false, false, limit⟩ expression).result = .ok v →
      Data.Readable v.toFiniteScalar) (time : Moment) :
    let o := run host time inv files
    (∃ v, (calculate host.ops ⟨false, false, limit⟩ expression).result = .ok v ∧
      o.ending = .ok 0 ∧ o.journal.files.content p.place =
        files.content p.place ++ (dataLine (valueEntry time expression v) ++ "\n")) ∨
    ∃ f, (calculate host.ops ⟨false, false, limit⟩ expression).result = .error (.fault f) ∧
      o.ending = .ok 1 ∧ o.journal.files.content p.place =
        files.content p.place ++ (dataLine (faultEntry time expression f) ++ "\n") := by
  let es := (calculate host.ops ⟨a.showTokens, a.showTree, limit⟩ expression).emissions
  let report := (host.load inv.environment files).report
  have hj := logsAt_foldl_note (logsAt_writing time report level hp helse h.hasLogs) es
  obtain ⟨htime, hfull⟩ := time_full_foldl_note (writing time report s level (some p) fs) es
  have hroom : (es.foldl note (writing time report s level (some p) fs)).files.isFull p.place =
      false := by
    rw [Files.isFull, hfull]
    exact (Files.isFull_openAll? h.hasLogs p.place).trans (h.hasRoom p hp)
  have hclose := h.closingError? time report es
  have hcases := h.cases time
  simp only [hp, Option.isSome_some] at hcases hclose
  rcases hcases with ⟨v, hv, hrun⟩ | ⟨f, hf, hrun⟩
  · have hcontent := content_succeed hj hroom expression (hread v hv)
    rw [htime] at hcontent
    refine .inl ⟨v, hv, ?_, ?_⟩
    · rw [hrun, succeed_ending, hclose]
    · rw [hrun]
      exact hcontent
  · have hcontent := content_fail hj hroom expression f
    rw [htime] at hcontent
    refine .inr ⟨f, hf, ?_, ?_⟩
    · rw [hrun, fail_ending, hclose]
    · rw [hrun]
      exact hcontent

/-- If the stack runs out in the calculation, the calculation log stays as it is. -/
private theorem content_of_stackEnd {options : Options} {isOpen : Bool} {n : Nat}
    (hj : j.LogsAt place content) (h : host.stackEnd? options expression = some n) :
    (∀ status, (conclude host options isOpen expression j).ending ≠ .ok status) ∧
      (conclude host options isOpen expression j).journal.files.content place = content := by
  have hnoted := logsAt_foldl_note hj ((calculate host.ops options expression).emissions.take n)
  simp only [conclude, h, quit]
  refine ⟨by simp, ?_⟩
  cases isOpen <;> exact congrArg (Option.getD · "") hnoted.read

/-- If the calculation log has no room, it stays as it is. -/
private theorem content_of_isFull {options : Options}
    (hj : j.IsFullAt place content) (hclose : closingError? true j ≠ none)
    (h : host.stackEnd? options expression = none) :
    (∀ status, (conclude host options true expression j).ending ≠ .ok status) ∧
      (conclude host options true expression j).journal.files.content place = content := by
  obtain ⟨e, he⟩ := Option.ne_none_iff_exists'.mp hclose
  obtain ⟨hvalue, hfault⟩ := content_of_isFullAt
    (isFullAt_foldl_note hj (calculate host.ops options expression).emissions) expression
  rcases conclude_cases h true j with ⟨v, -, hv⟩ | ⟨f, -, hf⟩
  · rw [hv, succeed_ending, closingError?_foldl_note, he]
    exact ⟨nofun, hvalue v⟩
  · rw [hf, fail_ending, closingError?_foldl_note, he]
    exact ⟨nofun, hfault f⟩

/-- A run that is refused ends with the status two. -/
private theorem refuse_ending_ne {n : Nat} (hn : n < 2) (text : String) (j : Journal) :
    (refuse text j).ending ≠ .ok n := by
  intro h
  cases h
  exact absurd hn (by decide)

/-- A run keeps its calculation log at a place and sends its records elsewhere, if a calculation is
asked for. -/
def KeepsLogAt (host : Host) (inv : Invocation) (files : Files) (place : List String) : Prop :=
  ∀ s a, inv.plan? host files = some (s, a) →
    (calculationPath? a s).map Path.place = some place ∧
      (logPath? s).map Path.place ≠ some place

/-- A run that has its calculation log and options comes to a calculation, or it leaves the
calculation log as it is and ends without a status. -/
private theorem reaches_or_idle_of_opened {j' : Journal} {isOpen : Bool} {options : Options}
    (hlog : KeepsLogAt host inv files place)
    (h : Ready host time inv files s a j expression) (ho : Opened a s j isOpen j')
    (hi : a.options host = .ok options) :
    (∃ level fs limit, Reaches host inv files s a level fs expression limit) ∨
      (∀ n, (conclude host options isOpen expression j').ending ≠ .ok n) ∧
        (conclude host options isOpen expression j').journal.files.content place =
          files.content place := by
  obtain ⟨limit, hlimit, rfl⟩ := options_eq_ok_iff.mp hi
  obtain ⟨level, fs, hlevel, hf, rfl, rfl⟩ := opened_iff.mp ⟨j, h.loggers, ho⟩
  obtain ⟨hplace, helse⟩ := hlog s a h.plan
  obtain ⟨p, hp, rfl⟩ := Option.map_eq_some_iff.mp hplace
  have hclose := closingError?_writing time (host.load inv.environment files).report s level
    (some p) fs
  simp only [hp, Option.isSome_some, Option.bind_some] at hclose ⊢
  cases hstack : host.stackEnd? ⟨a.showTokens, a.showTree, limit⟩ expression with
  | some n => exact .inr (content_of_stackEnd (logsAt_writing time _ level hp helse hf) hstack)
  | none =>
    cases hfull : files.isFull p.place with
    | false =>
      refine .inl ⟨level, fs, limit, h.plan, hlevel, hf, h.expression, hlimit, hstack, ?_⟩
      intro q hq
      cases hp.symm.trans hq
      exact hfull
    | true =>
      have hfs : fs.isFull p.place = true := (Files.isFull_openAll? hf p.place).trans hfull
      refine .inr (content_of_isFull ⟨hfs, Files.content_openAll? hf p.place⟩ ?_ hstack)
      rw [hclose, if_pos hfs]
      exact Option.some_ne_none _

/-- A run that keeps its calculation log at a place comes to a calculation, or it leaves the file
there as it is; then it asks for no calculation, or it ends with the status two or without one. -/
theorem reaches_or_idle (hlog : KeepsLogAt host inv files place) (time : Moment) :
    (∃ s a level fs expression limit, Reaches host inv files s a level fs expression limit) ∨
      (run host time inv files).journal.files.content place = files.content place ∧
        ((inv.plan? host files).isSome = true →
          ∀ n < 2, (run host time inv files).ending ≠ .ok n) := by
  generalize hrun : run host time inv files = o
  have hcourse := course_run host time inv files
  rw [hrun] at hcourse
  cases hcourse with
  | calculated h ho hi =>
    rcases reaches_or_idle_of_opened hlog h ho hi with ⟨level, fs, limit, hreaches⟩ | ⟨he, hc⟩
    · exact .inl ⟨_, _, level, fs, _, limit, hreaches⟩
    · exact .inr ⟨hc, fun _ n _ => he n⟩
  | invalid => exact .inr ⟨rfl, fun _ n _ heq => by cases heq⟩
  | misused hs hr => exact .inr ⟨rfl, fun _ n hn => refuse_ending_ne hn _ _⟩
  | helped hs hr | versioned hs hr hv | unversioned hs hr hv =>
    refine .inr ⟨rfl, fun hp => ?_⟩
    simp [Invocation.plan?, hs, hr] at hp
  | unlogged hp hj | unread hp hj he hn =>
    exact .inr ⟨Journal.content_setup hj place, fun _ n _ heq => by cases heq⟩
  | wordless hp hj he | flooded hp hj he =>
    exact .inr ⟨Journal.content_setup hj place, fun _ n hn => refuse_ending_ne hn _ _⟩
  | unnamed h hh ho =>
    refine .inr ⟨?_, fun _ n _ heq => by cases heq⟩
    exact (Journal.content_openHistory ho place).trans (Journal.content_setup h.loggers place)
  | unopened h hh ho hn =>
    refine .inr ⟨?_, fun _ n hn => refuse_ending_ne hn _ _⟩
    exact (Journal.content_openHistory ho place).trans (Journal.content_setup h.loggers place)
  | unlimited h ho hi =>
    refine .inr ⟨?_, fun _ n _ heq => by cases heq⟩
    exact (ho.content_eq place).trans (Journal.content_setup h.loggers place)

end CommandLine

end Reckoner
