import HybridObjects.Prover.Backend
import Mathlib.Data.List.TakeWhile

/-!
# HybridObjects.Proofs.Verdicts

When the prover counts as having proved an artifact. `proved_by_clean_run`: if a jar is configured,
the run has finished with success and its output says so in its second-to-last line, and in no other
case. Nothing is checked exactly if no jar is configured. A line feed missing at the end of the
output, what the prover writes to its other stream and what becomes of the kept output make no
difference. The jar is run on the artifact by one command line, and nothing else is run; more time
never takes a proof back (`Backend.proved_of_longer`).

* `Text.SplitsInto`        — the lines of a text, read off its line feeds.
* `ReportsProof`           — what the output of a successful run has to say.
* `Backend.result`         — what running the prover on an artifact gives.
* `Backend.verdictOn`      — the verdict by this result alone.
* `ProverSettings.command_eq` — the command line for an artifact.
-/

namespace HybridObjects

/-! ## Lines -/

namespace Text

/-- The lines of a text. A line ends at a line feed, or at a carriage return directly followed by
one; what stands behind the last line feed is a line too, unless it is empty. -/
inductive SplitsInto : List Char → List (List Char) → Prop where
  | empty : SplitsInto [] []
  | unended {line : List Char} : line ≠ [] → '\n' ∉ line → SplitsInto line [line]
  | ended {line rest : List Char} {later : List (List Char)} : '\n' ∉ line →
      line.getLast? ≠ some '\r' → SplitsInto rest later →
      SplitsInto (line ++ '\n' :: rest) (line :: later)
  | endedByBoth {line rest : List Char} {later : List (List Char)} : '\n' ∉ line →
      SplitsInto rest later → SplitsInto (line ++ '\r' :: '\n' :: rest) (line :: later)

theorem closeLine_carriageReturn (rev : List Char) : closeLine ('\r' :: rev) = rev.reverse :=
  rfl

theorem closeLine_of_ne {rev : List Char} (h : rev.head? ≠ some '\r') :
    closeLine rev = rev.reverse := by
  unfold closeLine
  split
  · simp at h
  · rfl

theorem linesFrom_lineFeed (rev cs : List Char) :
    linesFrom rev ('\n' :: cs) = closeLine rev :: linesFrom [] cs := by
  simp [linesFrom]

theorem linesFrom_append {line : List Char} (h : '\n' ∉ line) (rev cs : List Char) :
    linesFrom rev (line ++ cs) = linesFrom (line.reverse ++ rev) cs := by
  induction line generalizing rev with
  | nil => rfl
  | cons c line ih =>
    obtain ⟨hc, hline⟩ : '\n' ≠ c ∧ '\n' ∉ line := by simpa using h
    rw [List.cons_append, linesFrom, if_neg hc.symm, ih hline, List.reverse_cons, List.append_assoc,
      List.singleton_append]

/-- The characters read since the last line feed belong to the first line of what is returned. -/
theorem splitsInto_linesFrom {rev : List Char} (h : '\n' ∉ rev) (cs : List Char) :
    SplitsInto (rev.reverse ++ cs) (linesFrom rev cs) := by
  induction cs generalizing rev with
  | nil =>
    rw [linesFrom, List.append_nil]
    split
    · next hempty =>
      rw [List.isEmpty_iff.mp hempty]
      exact .empty
    · next hempty => exact .unended (by simpa using hempty) (by simpa using h)
  | cons c cs ih =>
    by_cases hc : c = '\n'
    · subst hc
      have hrest : SplitsInto cs (linesFrom [] cs) := ih List.not_mem_nil
      rw [linesFrom_lineFeed]
      by_cases hreturn : rev.head? = some '\r'
      · obtain ⟨before, rfl⟩ := List.head?_eq_some_iff.mp hreturn
        rw [closeLine_carriageReturn, List.reverse_cons, List.append_assoc, List.singleton_append]
        exact .endedByBoth (by simpa using h) hrest
      · rw [closeLine_of_ne hreturn]
        exact .ended (by simpa using h) (by simpa using hreturn) hrest
    · have hnot : '\n' ∉ c :: rev := by
        simp only [List.mem_cons, not_or]
        exact ⟨fun heq => hc heq.symm, h⟩
      have hrest := ih hnot
      rw [List.reverse_cons, List.append_assoc, List.singleton_append] at hrest
      rwa [linesFrom, if_neg hc]

theorem lines_eq_iff {cs : List Char} {ls : List (List Char)} :
    lines cs = ls ↔ SplitsInto cs ls := by
  constructor
  · rintro rfl
    exact splitsInto_linesFrom List.not_mem_nil cs
  · intro h
    induction h with
    | empty => rfl
    | @unended line hne hnot =>
      have hlines := linesFrom_append hnot [] []
      rw [List.append_nil, List.append_nil] at hlines
      rw [lines, hlines, linesFrom, if_neg (by simpa using hne), List.reverse_reverse]
    | ended hnot hreturn _ ih =>
      rw [lines, linesFrom_append hnot, linesFrom_lineFeed, List.append_nil,
        closeLine_of_ne (by simpa using hreturn), List.reverse_reverse, ← lines, ih]
    | @endedByBoth line rest _ hnot _ ih =>
      have hboth : '\n' ∉ line ++ ['\r'] := by simp [hnot]
      have hlines := linesFrom_append hboth [] ('\n' :: rest)
      rw [List.append_assoc, List.singleton_append] at hlines
      rw [lines, hlines, linesFrom_lineFeed, List.append_nil, List.reverse_append,
        List.reverse_singleton, List.singleton_append, closeLine_carriageReturn,
        List.reverse_reverse, ← lines, ih]

/-- A line feed behind a text that has some characters after its last one changes the last line at
most. -/
theorem linesFrom_append_lineFeed (rev : List Char) {cs : List Char} (hsome : rev ≠ [] ∨ cs ≠ [])
    (hlast : cs.getLast? ≠ some '\n') : ∃ before last last',
      linesFrom rev cs = before ++ [last] ∧ linesFrom rev (cs ++ ['\n']) = before ++ [last'] := by
  induction cs generalizing rev with
  | nil =>
    have hrev : rev ≠ [] := by simpa using hsome
    exact ⟨[], rev.reverse, closeLine rev, by simp [linesFrom, hrev], by simp [linesFrom]⟩
  | cons c cs ih =>
    have hlater : cs.getLast? ≠ some '\n' := by
      intro hcs
      rw [List.getLast?_cons, hcs] at hlast
      simp at hlast
    by_cases hc : c = '\n'
    · subst hc
      have hcs : cs ≠ [] := by
        rintro rfl
        simp at hlast
      obtain ⟨before, last, last', hlines, hlines'⟩ := ih [] (.inr hcs) hlater
      refine ⟨closeLine rev :: before, last, last', ?_, ?_⟩
      · rw [linesFrom_lineFeed, hlines, List.cons_append]
      · rw [List.cons_append, linesFrom_lineFeed, hlines', List.cons_append]
    · obtain ⟨before, last, last', hlines, hlines'⟩ := ih (c :: rev) (.inl (by simp)) hlater
      refine ⟨before, last, last', ?_, ?_⟩
      · rw [linesFrom, if_neg hc, hlines]
      · rw [List.cons_append, linesFrom, if_neg hc, hlines']

/-- A text without blanks in front starts like the trimmed text that has them. -/
theorem isPrefixOf_trimStart_iff (word : List Char) {c : Char} (hc : isBlank c = false)
    {line : List Char} : (c :: word).isPrefixOf (trimStart line) = true ↔
      ∃ blanks rest, line = blanks ++ (c :: word) ++ rest ∧ ∀ b ∈ blanks, isBlank b = true := by
  rw [List.isPrefixOf_iff_prefix]
  constructor
  · rintro ⟨rest, hrest⟩
    refine ⟨line.takeWhile isBlank, rest, ?_, fun b hb => List.mem_takeWhile_imp hb⟩
    rw [List.append_assoc, hrest]
    exact (List.takeWhile_append_dropWhile (p := isBlank)).symm
  · rintro ⟨blanks, rest, rfl, hblanks⟩
    have htrim : trimStart (blanks ++ (c :: word) ++ rest) = (c :: word) ++ rest := by
      rw [trimStart, List.append_assoc, List.dropWhile_append_of_pos hblanks, List.cons_append,
        List.dropWhile_cons_of_neg (by simp [hc])]
    rw [htrim]
    exact List.prefix_append _ _

end Text

/-! ## Outputs -/

/-- The second-to-last line of an output says `PROVED` behind its leading blanks. -/
def ReportsProof (stdout : String) : Prop :=
  ∃ earlier line last, Text.SplitsInto stdout.toList (earlier ++ [line, last]) ∧
    ∃ blanks rest, line = blanks ++ "PROVED".toList ++ rest ∧
      ∀ c ∈ blanks, Text.isBlank c = true

namespace Verdict

theorem secondToLast?_append_singleton {α : Type} (earlier : List α) (last : α) :
    secondToLast? (earlier ++ [last]) = earlier.getLast? := by
  rw [secondToLast?, List.reverse_append, List.reverse_singleton, List.singleton_append,
    List.getLast?_eq_head?_reverse]
  cases earlier.reverse <;> rfl

theorem secondToLast?_eq_some_iff {α : Type} {items : List α} {item : α} :
    secondToLast? items = some item ↔ ∃ earlier last, items = earlier ++ [item, last] := by
  constructor
  · intro h
    rcases List.eq_nil_or_concat items with rfl | ⟨init, last, rfl⟩
    · cases h
    · rw [List.concat_eq_append, secondToLast?_append_singleton] at h
      obtain ⟨earlier, rfl⟩ := List.getLast?_eq_some_iff.mp h
      exact ⟨earlier, last, by simp⟩
  · rintro ⟨earlier, last, rfl⟩
    rw [← List.singleton_append, ← List.append_assoc, secondToLast?_append_singleton,
      List.getLast?_concat]

/-- An output states a proof, or it does not. -/
theorem ofOutput_ne_notChecked (stdout : String) : ofOutput stdout ≠ .notChecked := by
  unfold ofOutput
  split
  · split <;> simp
  · simp

theorem ofOutput_eq_proved_iff {stdout : String} :
    ofOutput stdout = .proved ↔ ReportsProof stdout := by
  have hword : ∀ line : List Char, "PROVED".toList.isPrefixOf (Text.trimStart line) = true ↔
      ∃ blanks rest, line = blanks ++ "PROVED".toList ++ rest ∧
        ∀ c ∈ blanks, Text.isBlank c = true :=
    fun line => Text.isPrefixOf_trimStart_iff "ROVED".toList (c := 'P') rfl
  unfold ofOutput ReportsProof
  generalize "PROVED".toList = word at hword ⊢
  simp only [← hword, ← Text.lines_eq_iff]
  constructor
  · intro h
    split at h
    · next line hline =>
      obtain ⟨earlier, last, hlines⟩ := secondToLast?_eq_some_iff.mp hline
      refine ⟨earlier, line, last, hlines, ?_⟩
      split at h
      · assumption
      · cases h
    · cases h
  · rintro ⟨earlier, line, last, hlines, hstarts⟩
    rw [secondToLast?_eq_some_iff.mpr ⟨earlier, last, hlines⟩]
    exact if_pos hstarts

theorem ofOutput_append_lineFeed {stdout : String} (hsome : stdout ≠ "")
    (hlast : stdout.toList.getLast? ≠ some '\n') :
    ofOutput (stdout ++ "\n") = ofOutput stdout := by
  have hne : stdout.toList ≠ [] := by simpa using hsome
  obtain ⟨earlier, last, last', hlines, hlines'⟩ :=
    Text.linesFrom_append_lineFeed [] (.inr hne) hlast
  have hchars : (stdout ++ "\n").toList = stdout.toList ++ ['\n'] := by simp
  unfold ofOutput Text.lines
  rw [hchars, hlines, hlines', secondToLast?_append_singleton, secondToLast?_append_singleton]

end Verdict

/-! ## Runs -/

/-- The two results are the same but for what was written to the error stream. -/
inductive CommandResult.SameButErrors : CommandResult → CommandResult → Prop where
  | finished {status : ExitStatus} {stdout stderr stderr' : String} :
      SameButErrors (.finished ⟨status, stdout, stderr⟩) (.finished ⟨status, stdout, stderr'⟩)
  | same {result : CommandResult} : SameButErrors result result

namespace Backend

/-- What running the prover on an artifact gives. -/
def result (launcher : Launcher) (s : ProverSettings) (artifact : Path) (w : World) :
    CommandResult :=
  launcher w.files (s.command artifact)
    (if s.timeoutSecs = 0 then Option.none else some (s.timeoutSecs * 1000))

/-- The verdict by the result of a run. -/
def verdictOn : CommandResult → Verdict
  | .finished output => if output.status = .code 0 then .ofOutput output.stdout else .notProved
  | .timedOut | .refused _ => .notProved

theorem judge_fst (s : ProverSettings) (artifact : Path) (r : CommandResult) (w : World) :
    (judge s artifact r w).1 = verdictOn r := by
  cases r with
  | timedOut | refused fault => rfl
  | finished output =>
    by_cases hcode : output.status = .code 0 <;>
      simp [judge, verdictOn, ExitStatus.isSuccess, hcode]

/-- The verdict depends on the settings only by the jar, and on the world only by the result. -/
theorem prover_fst (launcher : Launcher) (s : ProverSettings) (artifact : Path) (w : World) :
    (prover launcher s artifact w).1 =
      if s.jar = "" then .notChecked else verdictOn (result launcher s artifact w) := by
  by_cases hjar : s.jar = ""
  · simp [prover, ProverSettings.isConfigured, hjar]
  · have hconfigured : s.isConfigured = true := by simp [ProverSettings.isConfigured, hjar]
    rw [prover, if_pos hconfigured, if_neg hjar, judge_fst]
    rfl

theorem verdictOn_eq_proved_iff {r : CommandResult} :
    verdictOn r = .proved ↔
      ∃ output, r = .finished output ∧ output.status = .code 0 ∧ ReportsProof output.stdout := by
  cases r with
  | timedOut | refused fault => simp [verdictOn]
  | finished output =>
    by_cases hcode : output.status = .code 0 <;>
      simp [verdictOn, hcode, Verdict.ofOutput_eq_proved_iff]

theorem verdictOn_ne_notChecked (r : CommandResult) : verdictOn r ≠ .notChecked := by
  cases r with
  | timedOut | refused fault => simp [verdictOn]
  | finished output =>
    by_cases hcode : output.status = .code 0 <;>
      simp [verdictOn, hcode, Verdict.ofOutput_ne_notChecked]

theorem verdictOn_congr {r r' : CommandResult} (h : r.SameButErrors r') :
    verdictOn r = verdictOn r' := by
  cases h <;> rfl

/-- A launcher is asked for the one result only. -/
theorem prover_congr {launcher launcher' : Launcher} {s : ProverSettings} {artifact : Path}
    {w : World} (h : result launcher' s artifact w = result launcher s artifact w) :
    prover launcher' s artifact w = prover launcher s artifact w := by
  unfold result at h
  unfold prover
  split
  · simp only [World.note, h]
  · rfl

end Backend

/-- The jar is run by the configured program, or by `java`, with the configured flags and the
artifact behind them. -/
theorem ProverSettings.command_eq (s : ProverSettings) (artifact : Path) :
    ∃ java, java ≠ "" ∧ (s.javaExe ≠ "" → java = s.javaExe) ∧ (s.javaExe = "" → java = "java") ∧
      s.command artifact = java :: "-jar" :: s.jar :: (s.flags ++ ["-prove", artifact]) := by
  by_cases hjava : s.javaExe = ""
  · exact ⟨"java", by decide, fun hne => absurd hjava hne, fun _ => rfl, by simp [command, hjava]⟩
  · exact ⟨s.javaExe, hjava, fun _ => rfl, fun hempty => absurd hempty hjava,
      by simp [command, hjava]⟩

/-! ## Time limits -/

namespace Host

variable {host : Host} {files : FileTree} {line : List String} {limit limit' : Option Nat}
  {output : CommandOutput}

theorem launcher_eq_finished_iff :
    host.launcher files line limit = .finished output ↔
      ∃ name args run, line = name :: args ∧ host files name args = .ok run ∧
        (∀ n ∈ limit, run.elapsed < n) ∧ run.output = output := by
  have hall : ∀ run : ProgramRun, (limit.all fun n => decide (run.elapsed < n)) = true ↔
      ∀ n ∈ limit, run.elapsed < n := by
    intro run
    cases limit <;> simp
  constructor
  · intro h
    cases line with
    | nil => cases h
    | cons name args =>
      rw [launcher] at h
      split at h
      · cases h
      · next run hrun =>
        split at h
        · next hin =>
          cases h
          exact ⟨name, args, run, rfl, hrun, (hall run).mp hin, rfl⟩
        · cases h
  · rintro ⟨name, args, run, rfl, hrun, hin, rfl⟩
    simp only [launcher, hrun, if_pos ((hall run).mpr hin)]

/-- What has finished in time finishes in more time too; where there is no limit, there is more time
than under any. -/
theorem finished_of_longer (hlonger : ∀ n' ∈ limit', ∃ n ∈ limit, n ≤ n')
    (h : host.launcher files line limit = .finished output) :
    host.launcher files line limit' = .finished output := by
  obtain ⟨name, args, run, hline, hrun, hin, houtput⟩ := launcher_eq_finished_iff.mp h
  refine launcher_eq_finished_iff.mpr ⟨name, args, run, hline, hrun, fun n' hn' => ?_, houtput⟩
  obtain ⟨n, hn, hle⟩ := hlonger n' hn'
  exact (hin n hn).trans_le hle

end Host

/-- An artifact that is proved in time is proved if the prover is given more time. -/
theorem Backend.proved_of_longer {host : Host} {s : ProverSettings} {artifact : Path} {w : World}
    {secs : Nat} (hlonger : secs = 0 ∨ 0 < s.timeoutSecs ∧ s.timeoutSecs ≤ secs)
    (h : (prover host.launcher s artifact w).1 = .proved) :
    (prover host.launcher { s with timeoutSecs := secs } artifact w).1 = .proved := by
  rw [prover_fst] at h ⊢
  by_cases hjar : s.jar = ""
  · simp [hjar] at h
  · rw [if_neg hjar, verdictOn_eq_proved_iff] at h ⊢
    obtain ⟨output, hresult, hclean⟩ := h
    refine ⟨output, Host.finished_of_longer ?_ hresult, hclean⟩
    intro n' hn'
    rcases hlonger with rfl | ⟨hpos, hle⟩
    · simp at hn'
    · rw [if_neg (by simpa using (hpos.trans_le hle).ne'), Option.mem_some_iff] at hn'
      refine ⟨s.timeoutSecs * 1000, by rw [if_neg hpos.ne']; rfl, ?_⟩
      rw [← hn']
      exact Nat.mul_le_mul_right 1000 hle

/-- An artifact counts as proved only after a clean run. The verdict is `proved` if and only if a
jar is configured, the run on the artifact has finished with code zero, and its output reports a
proof; nothing is checked if and only if no jar is configured. The verdict stays what it is if the
error stream differs, if the settings differ in anything but the jar, and in every other world, so
also where the output cannot be kept; and if a line feed is added to an output that ends in another
character. The result is the answer to one command line, which runs the jar on the artifact within
the time limit, and all that a launcher is asked for. -/
theorem proved_by_clean_run (launcher : Launcher) (s : ProverSettings) (artifact : Path)
    (w : World) :
    ((Backend.prover launcher s artifact w).1 = .proved ↔
        s.jar ≠ "" ∧ ∃ output, Backend.result launcher s artifact w = .finished output ∧
          output.status = .code 0 ∧ ReportsProof output.stdout) ∧
      ((Backend.prover launcher s artifact w).1 = .notChecked ↔ s.jar = "") ∧
      (∀ launcher' s' artifact' w', s'.jar = s.jar →
        (Backend.result launcher s artifact w).SameButErrors
          (Backend.result launcher' s' artifact' w') →
        (Backend.prover launcher' s' artifact' w').1 = (Backend.prover launcher s artifact w).1) ∧
      (∀ launcher' status stdout stderr, stdout ≠ "" → stdout.toList.getLast? ≠ some '\n' →
        Backend.result launcher s artifact w = .finished ⟨status, stdout, stderr⟩ →
        Backend.result launcher' s artifact w = .finished ⟨status, stdout ++ "\n", stderr⟩ →
        (Backend.prover launcher' s artifact w).1 = (Backend.prover launcher s artifact w).1) ∧
      ∃ java line limit, java ≠ "" ∧ (s.javaExe ≠ "" → java = s.javaExe) ∧
        (s.javaExe = "" → java = "java") ∧
        line = java :: "-jar" :: s.jar :: (s.flags ++ ["-prove", artifact]) ∧
        (s.timeoutSecs = 0 → limit = none) ∧
        (s.timeoutSecs ≠ 0 → limit = some (s.timeoutSecs * 1000)) ∧
        Backend.result launcher s artifact w = launcher w.files line limit ∧
        ∀ launcher', launcher' w.files line limit = launcher w.files line limit →
          Backend.prover launcher' s artifact w = Backend.prover launcher s artifact w := by
  refine ⟨?_, ?_, ?_, ?_, ?_⟩
  · rw [Backend.prover_fst]
    by_cases hjar : s.jar = ""
    · simp [hjar]
    · simp [hjar, Backend.verdictOn_eq_proved_iff]
  · rw [Backend.prover_fst]
    by_cases hjar : s.jar = ""
    · simp [hjar]
    · simp [hjar, Backend.verdictOn_ne_notChecked]
  · intro launcher' s' artifact' w' hjar hresult
    rw [Backend.prover_fst, Backend.prover_fst, hjar, Backend.verdictOn_congr hresult]
  · intro launcher' status stdout stderr hsome hlast hresult hresult'
    rw [Backend.prover_fst, Backend.prover_fst, hresult, hresult', Backend.verdictOn,
      Backend.verdictOn, Verdict.ofOutput_append_lineFeed hsome hlast]
  · obtain ⟨java, hjava, hset, hunset, hcommand⟩ := s.command_eq artifact
    refine ⟨java, s.command artifact, if s.timeoutSecs = 0 then none else some (s.timeoutSecs * 1000),
      hjava, hset, hunset, hcommand, fun h => if_pos h, fun h => if_neg h, rfl, ?_⟩
    exact fun launcher' hanswer => Backend.prover_congr hanswer

/-! ## A run whose output cannot be kept -/

/-- Finishes every command with the given outputs and code zero. -/
def Launcher.saying (stdout stderr : String) : Launcher := fun _ _ _ =>
  .finished ⟨.code 0, stdout, stderr⟩

/-- Answers one command line as another launcher does, and refuses all others. -/
def Launcher.only (line : List String) (launcher : Launcher) : Launcher := fun files line' limit =>
  if line' = line then launcher files line limit else .refused .emptyCommand

/-- A world in which a directory stands where the output for `a.kyx` is to be kept. -/
def World.crowded : World :=
  ⟨{ FileTree.empty with
      directories := FileTree.empty.directories ++ [["tmp", "work", "a.kyx.log"]] }, []⟩

/-- The output ends in a line without a line feed. It is kept in an empty world and cannot be kept
in a crowded one, and the artifact is proved in both, with or without complaints and the line feed;
the same report in the only line of an output does not count. Only one command line is run. -/
theorem proved_by_clean_run_kept :
    let s : ProverSettings := ⟨"", "keymaerax.jar", [], 60, true⟩
    (FileTree.empty.write (s.logFile "a.kyx") "").toBool = true ∧
    (World.crowded.files.write (s.logFile "a.kyx") "").toBool = false ∧
    (Backend.prover (.saying "X\r\n PROVED a\r\nDone." "") s "a.kyx" ⟨.empty, []⟩).1 = .proved ∧
    (Backend.prover (.saying "X\r\n PROVED a\r\nDone." "slow") s "a.kyx" .crowded).1 = .proved ∧
    (Backend.prover (.saying ("X\r\n PROVED a\r\nDone." ++ "\n") "") s "a.kyx" ⟨.empty, []⟩).1 =
      .proved ∧
    (Backend.prover (.saying " PROVED a\r\n" "") s "a.kyx" ⟨.empty, []⟩).1 ≠ .proved ∧
    (Backend.prover (.only ["java", "-jar", "keymaerax.jar", "-prove", "a.kyx"]
      (.saying "X\r\n PROVED a\r\nDone." "")) s "a.kyx" ⟨.empty, []⟩).1 = .proved := by
  intro s
  have hlines : Text.lines "X\r\n PROVED a\r\nDone.".toList =
      ["X".toList, " PROVED a".toList, "Done.".toList] := by decide +kernel
  have hreports : ReportsProof "X\r\n PROVED a\r\nDone." :=
    ⟨["X".toList], " PROVED a".toList, "Done.".toList, Text.lines_eq_iff.mp hlines, [' '],
      " a".toList, by decide +kernel, List.forall_mem_singleton.mpr rfl⟩
  obtain ⟨hclean, -, hsame, hfeed, java, line, limit, -, -, hjava, hline, -, -, -, honly⟩ :=
    proved_by_clean_run (.saying "X\r\n PROVED a\r\nDone." "") s "a.kyx" ⟨.empty, []⟩
  have hproved := hclean.mpr ⟨by decide, _, rfl, rfl, hreports⟩
  refine ⟨by decide +kernel, by decide +kernel, hproved, ?_, ?_, ?_, ?_⟩
  · rw [hsame (.saying _ "slow") s "a.kyx" .crowded rfl .finished, hproved]
  · rw [hfeed _ (.code 0) _ "" (by decide) (by decide +kernel) rfl rfl, hproved]
  · decide +kernel
  · have hasked : line = ["java", "-jar", "keymaerax.jar", "-prove", "a.kyx"] := by
      rw [hline, hjava rfl]
      rfl
    rw [← hasked, honly (.only line _) (if_pos rfl), hproved]

end HybridObjects
