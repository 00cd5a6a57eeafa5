import PrussBindings.Daemon.Os

/-!
# Paths and configuration of the daemon

The `class paths` of `prussd.py` and `set_config`, which extends its two lists
from the configuration file before the first request is served.

* `Paths`, `Paths.initial` — the lists as the source initialises them.
* `configLine`, `configLines` — what one line, and a whole file, adds to them.
* `setConfig` — `set_config` as a program; a line it cannot take apart ends it
  with a `ValueError`.  `wp_setConfig` says that it does nothing else.
-/

namespace Daemon

open Effect Text

/-- `paths.CONFIG_FILE`. -/
def configFile : Str := "/etc/default/prussd.conf".toList

/-- `paths.RPROC_SYSFS_PATH`. -/
def rprocSysfsPath : Str := "/sys/class/remoteproc/remoteproc".toList

/-- `paths.RPROC_DEBUGFS_PATH`. -/
def rprocDebugfsPath : Str := "/sys/kernel/debug/remoteproc/remoteproc".toList

/-- `paths.FIRMWARE_PATH`. -/
def firmwarePath : Str := "/lib/firmware".toList

/-- `paths.MODPROBE_PATH`. -/
def modprobePath : Str := "/sbin/modprobe".toList

/-- The two lists of `class paths` that the configuration file extends. -/
structure Paths where
  rpmsgChannels : List Str
  firmwarePaths : List Str
  deriving DecidableEq, Repr

/-- `class paths` before the configuration file is read. -/
def Paths.initial : Paths where
  rpmsgChannels := ["pruss_api_pru".toList]
  firmwarePaths := [firmwarePath]

/-- `s.strip()` on text. -/
def stripStr (s : Str) : Str := (s.dropWhile isSpace).rdropWhile isSpace

/-- One line of the configuration file: `[key, values] = line.strip().split("=")`
and the assignment after it. -/
def configLine (paths : Paths) (line : Str) : Except PyExc Paths :=
  match (stripStr line).splitOn '=' with
  | [key, values] =>
    if stripStr key = "FIRMWARE".toList then
      .ok { paths with firmwarePaths := paths.firmwarePaths ++ words values }
    else if stripStr key = "RPMSG_CHANNELS".toList then
      .ok { paths with rpmsgChannels := paths.rpmsgChannels ++ words values }
    else .ok paths
  | _ => .error .valueError

/-- The lines of the configuration file, up to the first that cannot be taken
apart. -/
def configLines (paths : Paths) : List Str → Paths × Option PyExc
  | [] => (paths, none)
  | line :: lines =>
    match configLine paths line with
    | .ok paths' => configLines paths' lines
    | .error e => (paths, some e)

/-- `fd.readlines()` on text whose newlines are already translated. -/
def readlines (text : Str) : List Str :=
  match text.splitOn '\n' with
  | [] => []
  | lines => (lines.dropLast.map (· ++ ['\n'])) ++ lines.getLast?.toList.filter (· ≠ [])

/-- `set_config`: the lists it leaves behind, and the exception it ends with if
there is one.  An `OSError` on the way leaves the lists as they are. -/
def setConfig (paths : Paths) : Py (Paths × Option PyExc) := do
  if ← pathExists configFile then
    let text : Py (Option Str) := withOpen configFile .r (some <$> read configFile)
    match ← text.tryCatch (fun | .osError _ => .ret none | e => .raise e) with
    | some text => return configLines paths (readlines text)
    | none => return (paths, none)
  else return (paths, none)

/-! ## What a configuration can change -/

theorem configLine_extends {paths paths' : Paths} {line : Str}
    (h : configLine paths line = .ok paths') :
    paths.rpmsgChannels <+: paths'.rpmsgChannels ∧ paths.firmwarePaths <+: paths'.firmwarePaths := by
  unfold configLine at h
  split at h
  · split_ifs at h <;> cases h
    · exact ⟨List.prefix_rfl, List.prefix_append _ _⟩
    · exact ⟨List.prefix_append _ _, List.prefix_rfl⟩
    · exact ⟨List.prefix_rfl, List.prefix_rfl⟩
  · cases h

/-- A configuration file only adds to the lists. -/
theorem configLines_extends (paths : Paths) (lines : List Str) :
    paths.rpmsgChannels <+: (configLines paths lines).1.rpmsgChannels ∧
      paths.firmwarePaths <+: (configLines paths lines).1.firmwarePaths := by
  induction lines generalizing paths with
  | nil => exact ⟨List.prefix_rfl, List.prefix_rfl⟩
  | cons line lines ih =>
    unfold configLines
    cases h : configLine paths line with
    | ok paths' =>
      obtain ⟨hchan, hfw⟩ := configLine_extends h
      exact ⟨hchan.trans (ih paths').1, hfw.trans (ih paths').2⟩
    | error e => exact ⟨List.prefix_rfl, List.prefix_rfl⟩

/-- What `set_config` leaves behind are the lists extended by some lines, however
the system answers. -/
theorem wp_setConfig {σ : Type} (E : Env OsRes σ) (paths : Paths) (s : σ) :
    wp E (setConfig paths)
      (fun out _ => ∀ res, out = .ret res → ∃ lines, res = configLines paths lines) s := by
  have hnone : ∀ res, (Outcome.ret (paths, none) : Outcome PyExc _) = .ret res →
      ∃ lines, res = configLines paths lines := by
    intro res h
    cases h
    exact ⟨[], rfl⟩
  unfold setConfig
  rw [wp_bind]
  intro b s _
  cases b with
  | false => exact hnone
  | true =>
    refine (wp_bind _ _).2 ?_
    refine (wp_iff_exec _).2 fun out s' _ => ?_
    cases out with
    | ret text =>
      cases text with
      | none => exact hnone
      | some text =>
        intro res h
        cases h
        exact ⟨readlines text, rfl⟩
    | raise e => exact fun res h => by cases h
    | spin => exact fun res h => by cases h

/-- Every channel is a word, whatever the configuration file says. -/
theorem isToken_rpmsgChannels {paths : Paths} (hpaths : ∀ c ∈ paths.rpmsgChannels, IsToken c)
    (lines : List Str) : ∀ c ∈ (configLines paths lines).1.rpmsgChannels, IsToken c := by
  induction lines generalizing paths with
  | nil => exact hpaths
  | cons line lines ih =>
    unfold configLines
    cases h : configLine paths line with
    | error e => exact hpaths
    | ok paths' =>
      apply ih
      unfold configLine at h
      split at h
      · split_ifs at h <;> cases h
        · exact hpaths
        · intro c hc
          rcases List.mem_append.1 hc with hc | hc
          · exact hpaths c hc
          · exact isToken_of_mem_words hc
        · exact hpaths
      · cases h

theorem isToken_initial : ∀ c ∈ Paths.initial.rpmsgChannels, IsToken c := by decide

end Daemon
