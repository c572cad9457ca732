import Reckoner.Proofs.Running.Logs

/-!
# The contents of files

A file that is not there has the same content as an empty one. In these terms opening a file for
appending changes no content, whether it can be opened or not, and appending to a file changes the
content of this file alone, or of none if there is no room. So the loggers of a run and its
calculation log are set up without a change of any content, and handlers change the content of their
own files alone. Which files are full never changes.
-/

namespace Reckoner

namespace Files

/-- The content of the file at a place; where there is none, there is no content. -/
def content (fs : Files) (place : List String) : String := (fs.read? place).getD ""

/-- The same files are there, with the same contents and as full as before. -/
structure Keeps (fs fs' : Files) : Prop where
  /-- The files have the same contents. -/
  contents : fs'.contents = fs.contents
  /-- The same files are full. -/
  full : fs'.full = fs.full

/-- What is kept twice is kept. -/
theorem Keeps.trans {fs fs₁ fs₂ : Files} (h : fs.Keeps fs₁) (h' : fs₁.Keeps fs₂) :
    fs.Keeps fs₂ :=
  ⟨h'.contents.trans h.contents, h'.full.trans h.full⟩

/-- With the same files no content has changed. -/
theorem Keeps.read?_eq {fs fs' : Files} (h : fs.Keeps fs') (place : List String) :
    fs'.read? place = fs.read? place := by
  rw [read?, read?, h.contents]

/-- Making a directory keeps the files. -/
private theorem keeps_makeDirectory {fs fs' : Files} {p : Path}
    (h : fs.makeDirectory p = .ok fs') : fs.Keeps fs' := by
  unfold makeDirectory at h
  split at h
  · cases h
  · split at h
    · cases h
    · split at h
      · cases h
      · split at h
        · cases h
        · split at h <;> cases h
          exact ⟨rfl, rfl⟩

/-- Making a directory and those above it keeps the files, also if it comes to an error. -/
theorem keeps_makeDirectories (fs : Files) (isAbsolute : Bool) (parts : List String) :
    fs.Keeps (fs.makeDirectories isAbsolute parts).1 := by
  induction parts with
  | nil => exact ⟨rfl, rfl⟩
  | cons part up ih =>
    unfold makeDirectories
    dsimp only
    split
    · rename_i hmake
      exact keeps_makeDirectory hmake
    · split
      · rename_i hup
        rw [hup] at ih
        exact ih
      · rename_i hup
        rw [hup] at ih
        split
        · rename_i hmake
          exact ih.trans (keeps_makeDirectory hmake)
        · split <;> exact ih
    · split <;> exact ⟨rfl, rfl⟩

/-- A file that was opened for appending is there, and no content has changed: a new file is
empty. -/
theorem content_openAppend {fs fs' : Files} {place : List String}
    (h : fs.openAppend place = .ok fs') :
    (fs'.read? place).isSome = true ∧ ∀ other, fs'.content other = fs.content other := by
  unfold openAppend at h
  split at h
  · cases h
  · rename_i hkind
    cases h
    refine ⟨?_, fun _ => rfl⟩
    unfold kind? at hkind
    split at hkind
    · cases hkind
    · split at hkind
      · rename_i hany
        rwa [read?, Option.isSome_map, List.find?_isSome, ← List.any_eq_true]
      · cases hkind
  · split at h
    · cases h
    · split at h
      · cases h
      · cases h
        constructor
        · simp [read?, List.find?_append]
        · intro other
          simp only [content, read?, List.find?_append]
          cases fs.contents.find? (·.1 == other) with
          | some f => rfl
          | none => by_cases hplace : place = other <;> simp [hplace]

/-- Opening a file for appending fills no file. -/
private theorem full_openAppend {fs fs' : Files} {place : List String}
    (h : fs.openAppend place = .ok fs') : fs'.full = fs.full := by
  unfold openAppend at h
  split at h
  · cases h
  · cases h
    rfl
  · split at h
    · cases h
    · split at h <;> cases h
      rfl

/-- What opening the file of a path does to the files: at first directories are made, and if nothing
stands in the way, the file is opened. -/
theorem openLog_cases (fs : Files) (p : Path) :
    (∃ fs₁ fs₂, fs.Keeps fs₁ ∧ fs₁.openAppend p.place = .ok fs₂ ∧ fs.openLog p = (fs₂, none)) ∨
      ∃ fs₁ e, fs.Keeps fs₁ ∧ fs.openLog p = (fs₁, some e) := by
  have hmade := fs.keeps_makeDirectories p.isAbsolute p.parent.parts.reverse
  unfold openLog
  split
  · exact .inr ⟨fs, _, ⟨rfl, rfl⟩, rfl⟩
  · split
    · rename_i hmake
      rw [hmake] at hmade
      exact .inr ⟨_, _, hmade, rfl⟩
    · rename_i hmake
      rw [hmake] at hmade
      split
      · exact .inr ⟨_, _, hmade, rfl⟩
      · split
        · rename_i hopen
          exact .inl ⟨_, _, hmade, hopen, rfl⟩
        · exact .inr ⟨_, _, hmade, rfl⟩

/-- Opening the file of a path changes no content, also if it comes to an error. -/
theorem content_openLog (fs : Files) (p : Path) (place : List String) :
    (fs.openLog p).1.content place = fs.content place := by
  rcases fs.openLog_cases p with ⟨fs₁, fs₂, hkept, hopen, h⟩ | ⟨fs₁, e, hkept, h⟩
  · rw [h, (content_openAppend hopen).2, content, hkept.read?_eq, content]
  · rw [h, content, hkept.read?_eq, content]

/-- A file that was opened is there. -/
theorem isSome_of_openLog {fs fs' : Files} {p : Path} (h : fs.openLog p = (fs', none)) :
    (fs'.read? p.place).isSome = true := by
  rcases fs.openLog_cases p with ⟨fs₁, fs₂, -, hopen, heq⟩ | ⟨fs₁, e, -, heq⟩
  · cases h.symm.trans heq
    exact (content_openAppend hopen).1
  · cases h.symm.trans heq

/-- Opening the file of a path fills no file. -/
theorem full_openLog (fs : Files) (p : Path) : (fs.openLog p).1.full = fs.full := by
  rcases fs.openLog_cases p with ⟨fs₁, fs₂, hkept, hopen, h⟩ | ⟨fs₁, e, hkept, h⟩
  · rw [h]
    exact (full_openAppend hopen).trans hkept.full
  · rw [h]
    exact hkept.full

/-- Opening files fills no file. -/
theorem isFull_openAll? {fs fs' : Files} {ps : List Path} (h : fs.openAll? ps = some fs')
    (place : List String) : fs'.isFull place = fs.isFull place := by
  induction ps generalizing fs with
  | nil =>
    cases h
    rfl
  | cons p ps ih =>
    unfold openAll? at h
    split at h
    · rename_i fs₁ hopen
      have hfull := fs.full_openLog p
      rw [hopen] at hfull
      rw [ih h, isFull, hfull, isFull]
    · cases h

/-- Opening files changes no content. -/
theorem content_openAll? {fs fs' : Files} {ps : List Path} (h : fs.openAll? ps = some fs')
    (place : List String) : fs'.content place = fs.content place := by
  induction ps generalizing fs with
  | nil =>
    cases h
    rfl
  | cons p ps ih =>
    unfold openAll? at h
    split at h
    · rename_i fs₁ hopen
      have hkept := fs.content_openLog p place
      rw [hopen] at hkept
      exact (ih h).trans hkept
    · cases h

/-- A file that was opened alone is there. -/
theorem isSome_of_openAll? {fs fs' : Files} {p : Path} (h : fs.openAll? [p] = some fs') :
    (fs'.read? p.place).isSome = true := by
  unfold openAll? at h
  split at h
  · rename_i hopen
    cases h
    exact isSome_of_openLog hopen
  · cases h

/-- Appending to a file leaves every other file as it is. -/
theorem read?_append_of_ne {fs : Files} {place other : List String} (h : other ≠ place)
    (text : String) : (fs.append place text).read? other = fs.read? other := by
  unfold append
  split
  · rfl
  rename_i hroom
  clear hroom
  obtain ⟨dirs, files, full⟩ := fs
  simp only [read?]
  induction files with
  | nil => rfl
  | cons f rest ih =>
    simp only [List.map_cons, List.find?_cons]
    cases hf : f.1 == place with
    | true =>
      have hne : (f.1 == other) = false := by simp [beq_iff_eq.mp hf, h.symm]
      simp only [if_true, hne]
      exact ih
    | false =>
      simp only [Bool.false_eq_true, if_false]
      cases f.1 == other with
      | true => rfl
      | false => exact ih

/-- A file that is full keeps its content when something is appended to it. -/
theorem read?_append_of_isFull {fs : Files} {place : List String} (h : fs.isFull place = true)
    (text : String) (other : List String) :
    (fs.append place text).read? other = fs.read? other := by
  rw [append, if_pos h]

/-- Appending to a file fills no file. -/
@[simp] theorem full_append (fs : Files) (place : List String) (text : String) :
    (fs.append place text).full = fs.full := by
  unfold append
  split <;> rfl

end Files

/-- A handler that writes elsewhere leaves a file as it is. -/
theorem Handler.read?_emit {time : Moment} {r : Record} {o : Outlets} {h : Handler}
    {place : List String} (hs : h.sink ≠ .file place) :
    (h.emit time r o).files.read? place = o.files.read? place := by
  unfold emit
  split
  · rfl
  · split
    · rename_i line _
      cases hsink : h.sink with
      | console => rfl
      | file other =>
        have hne : place ≠ other := by
          rintro rfl
          exact hs hsink
        exact Files.read?_append_of_ne hne _
    · rfl

/-- Handlers that write elsewhere leave a file as it is. -/
theorem read?_foldl_emit {time : Moment} {r : Record} {place : List String} {hs : List Handler}
    (h : ∀ x ∈ hs, x.sink ≠ .file place) (o : Outlets) :
    (hs.foldl (Handler.emit time r) o).files.read? place = o.files.read? place := by
  induction hs generalizing o with
  | nil => rfl
  | cons x xs ih =>
    rw [List.foldl_cons, ih fun y hy => h y (List.mem_cons_of_mem x hy),
      Handler.read?_emit (h x List.mem_cons_self)]

/-- A record that finds no handler leaves every file as it is. -/
theorem files_lastResort (r : Record) (o : Outlets) :
    (Loggers.lastResort r o).files = o.files := by
  unfold Loggers.lastResort
  split
  · rfl
  · split <;> rfl

/-- Handlers fill no file. -/
theorem full_foldl_emit (time : Moment) (r : Record) (hs : List Handler) (o : Outlets) :
    (hs.foldl (Handler.emit time r) o).files.full = o.files.full := by
  induction hs generalizing o with
  | nil => rfl
  | cons x xs ih =>
    rw [List.foldl_cons, ih]
    unfold Handler.emit
    split
    · rfl
    · split
      · cases x.sink with
        | console => rfl
        | file place => exact Files.full_append _ _ _
      · rfl

/-- Logging a record fills no file. -/
@[simp] theorem Journal.full_log (j : Journal) (r : Record) :
    (j.log r).files.full = j.files.full := by
  unfold Journal.log Loggers.log
  split
  · simp only [Journal.files, Loggers.emit]
    split
    · rw [files_lastResort]
    · exact full_foldl_emit j.time r _ j.outlets
  · rfl

/-- Logging a record leaves the files as full as they are. -/
theorem Journal.isFull_log (j : Journal) (r : Record) (place : List String) :
    (j.log r).files.isFull place = j.files.isFull place := by
  rw [Files.isFull, full_log, Files.isFull]

/-- Handlers leave a full file as it is. -/
private theorem read?_foldl_emit_of_isFull {time : Moment} {r : Record} {place : List String}
    {hs : List Handler} {o : Outlets} (h : o.files.isFull place = true) :
    (hs.foldl (Handler.emit time r) o).files.read? place = o.files.read? place := by
  induction hs generalizing o with
  | nil => rfl
  | cons x xs ih =>
    have hfull := full_foldl_emit time r [x] o
    rw [List.foldl_cons, List.foldl_nil] at hfull
    rw [List.foldl_cons, ih (by rwa [Files.isFull, hfull])]
    unfold Handler.emit
    split
    · rfl
    · split
      · cases x.sink with
        | console => rfl
        | file other =>
          by_cases hne : place = other
          · subst hne
            exact Files.read?_append_of_isFull h _ _
          · exact Files.read?_append_of_ne hne _
      · rfl

/-- Logging a record leaves a full file as it is. -/
theorem Journal.read?_log_of_isFull {j : Journal} {place : List String}
    (h : j.files.isFull place = true) (r : Record) :
    (j.log r).files.read? place = j.files.read? place := by
  unfold Journal.log Loggers.log
  split
  · simp only [Journal.files, Loggers.emit]
    split
    · rw [files_lastResort]
    · exact read?_foldl_emit_of_isFull h
  · rfl

/-- Setting up the loggers changes no content, also if it comes to an error. -/
theorem Loggers.content_setup (ls : Loggers) (s : Settings) (fs : Files) (place : List String) :
    (ls.setup s fs).1.content place = fs.content place := by
  simp only [setup]
  split
  · rfl
  · split
    · rfl
    · rfl
    · rename_i file _ _
      have hopen := fs.content_openLog (Path.ofText file) place
      split <;>
        (rename_i ho
         rw [ho] at hopen
         exact hopen)

/-- Opening the calculation log changes no content, also if it comes to an error. -/
theorem Loggers.content_openHistory (ls : Loggers) (path : Path) (fs : Files)
    (place : List String) : (ls.openHistory path fs).1.content place = fs.content place := by
  have hopen := fs.content_openLog path place
  simp only [openHistory]
  split
  · rfl
  · split <;>
      (rename_i ho
       rw [ho] at hopen
       exact hopen)

/-- A journal whose loggers are set up has the contents that it had. -/
theorem Journal.content_setup {j j' : Journal} {s : Settings} {e? : Option SetupError}
    (h : j.setup s = (j', e?)) (place : List String) :
    j'.files.content place = j.files.content place := by
  have hsetup := j.loggers.content_setup s j.files place
  unfold setup at h
  split at h <;>
    (rename_i hs
     cases h
     rw [hs] at hsetup
     exact hsetup)

/-- A journal whose calculation log is opened has the contents that it had. -/
theorem Journal.content_openHistory {j j' : Journal} {path : Path} {e? : Option FileError}
    (h : j.openHistory path = (j', e?)) (place : List String) :
    j'.files.content place = j.files.content place := by
  cases h
  exact j.loggers.content_openHistory path j.files place

/-- A run whose calculation log is open, or that has none, has changed no content on the way. -/
theorem CommandLine.Opened.content_eq {a : Arguments} {s : Settings} {j j' : Journal}
    {isOpen : Bool} (h : Opened a s j isOpen j') (place : List String) :
    j'.files.content place = j.files.content place := by
  cases h with
  | without => rfl
  | log _ ho => exact Journal.content_openHistory ho place

end Reckoner
