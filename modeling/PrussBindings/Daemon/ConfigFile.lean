import PrussBindings.Daemon.Config
import PrussBindings.Lib.Newlines

/-!
# What the configuration file may say

`set_config` takes every line apart at its `=` signs and assigns the pieces to
two names, before it looks at what the line says.

* `configEnv` — a system with a configuration file that can be read.
* `keyOf`, `valuesOf`, `Paths.afterConfig` — what a line, and a file, is meant to
  say: a key before the first `=` and values after it, and any other line nothing.
* `configLine_ok`, `configLine_error` — a line with one `=` is read as it is
  meant, and any other ends `set_config`.
* `set_config_iff` — **`set_config` returns, with the lists the file asks for,
  exactly if every line of it has one `=`.**
-/

namespace Daemon

open Effect Errno Text

/-! ## What a file is meant to say -/

/-- The key of a line. -/
def keyOf (line : Str) : Str := stripStr (line.takeWhile (· ≠ '='))

/-- The values of a line. -/
def valuesOf (line : Str) : List Str := words ((line.dropWhile (· ≠ '=')).drop 1)

/-- The values a line has for a key. -/
def valuesFor (key line : Str) : List Str :=
  if '=' ∈ line ∧ keyOf line = key then valuesOf line else []

/-- The lists that some lines ask for. -/
def Paths.afterConfig (paths : Paths) (lines : List Str) : Paths where
  rpmsgChannels := paths.rpmsgChannels ++ lines.flatMap (valuesFor "RPMSG_CHANNELS".toList)
  firmwarePaths := paths.firmwarePaths ++ lines.flatMap (valuesFor "FIRMWARE".toList)

theorem Paths.afterConfig_nil (paths : Paths) : paths.afterConfig [] = paths := by
  simp [Paths.afterConfig]

theorem Paths.afterConfig_cons (paths : Paths) (line : Str) (lines : List Str) :
    paths.afterConfig (line :: lines) = (paths.afterConfig [line]).afterConfig lines := by
  simp [Paths.afterConfig]

/-! ## Lines -/

/-- What is stripped off a line with something in it. -/
theorem stripStr_append_cons {c : Char} (hc : isSpace c = false) (k v : Str) :
    stripStr (k ++ c :: v) = k.dropWhile isSpace ++ c :: v.rdropWhile isSpace := by
  unfold stripStr
  rw [dropWhile_append_cons hc, List.rdropWhile, List.reverse_append, List.reverse_cons,
    List.append_assoc, List.singleton_append, dropWhile_append_cons hc]
  simp [List.rdropWhile]

theorem stripStr_dropWhile (k : Str) : stripStr (k.dropWhile isSpace) = stripStr k := by
  unfold stripStr
  rw [List.dropWhile_idempotent]

/-- A line with one `=`. -/
theorem exists_of_count_eq_one {line : Str} (h : line.count '=' = 1) :
    ∃ k v, line = k ++ '=' :: v ∧ '=' ∉ k ∧ '=' ∉ v := by
  have hmem : '=' ∈ line := List.count_pos_iff.1 (by omega)
  obtain ⟨k, v, rfl, hk⟩ := List.eq_append_cons_of_mem hmem
  refine ⟨k, v, rfl, hk, fun hv => ?_⟩
  have hpos := List.count_pos_iff.2 hv
  rw [List.count_append, List.count_cons_self] at h
  omega

theorem keyOf_append {k v : Str} (hk : '=' ∉ k) : keyOf (k ++ '=' :: v) = stripStr k := by
  rw [keyOf, takeWhile_ne_append hk]

theorem valuesOf_append {k v : Str} (hk : '=' ∉ k) : valuesOf (k ++ '=' :: v) = words v := by
  rw [valuesOf, dropWhile_ne_append hk, List.drop_one, List.tail_cons]

/-- **A line with one `=` is read as it is meant.** -/
theorem configLine_ok (paths : Paths) {line : Str} (h : line.count '=' = 1) :
    configLine paths line = .ok (paths.afterConfig [line]) := by
  obtain ⟨k, v, rfl, hk, hv⟩ := exists_of_count_eq_one h
  have hk' : '=' ∉ k.dropWhile isSpace := fun hmem => hk (List.dropWhile_subset _ hmem)
  have hv' : '=' ∉ v.rdropWhile isSpace := fun hmem => hv ((List.rdropWhile_prefix _ _).subset hmem)
  have hsplit : (stripStr (k ++ '=' :: v)).splitOn '=' =
      [k.dropWhile isSpace, v.rdropWhile isSpace] := by
    rw [stripStr_append_cons (by decide), List.splitOn_append_cons_self_of_not_mem hk',
      List.splitOn_eq_singleton hv']
  have hvalues (key : Str) : [k ++ '=' :: v].flatMap (valuesFor key) =
      if stripStr k = key then words v else [] := by
    rw [List.flatMap_singleton, valuesFor, keyOf_append hk, valuesOf_append hk]
    simp
  unfold configLine Paths.afterConfig
  rw [hsplit, hvalues, hvalues]
  simp only [stripStr_dropWhile, words_rdropWhile]
  by_cases hfw : stripStr k = "FIRMWARE".toList
  · rw [if_pos hfw, if_pos hfw, hfw, if_neg (by decide), List.append_nil]
  · rw [if_neg hfw, if_neg hfw, List.append_nil]
    by_cases hchan : stripStr k = "RPMSG_CHANNELS".toList
    · rw [if_pos hchan, if_pos hchan]
    · rw [if_neg hchan, if_neg hchan, List.append_nil]

theorem count_stripStr (line : Str) : (stripStr line).count '=' = line.count '=' := by
  have hdrop (s : Str) : (s.dropWhile isSpace).count '=' = s.count '=' := by
    have htake : (s.takeWhile isSpace).count '=' = 0 :=
      List.count_eq_zero.2 fun h => absurd (List.mem_takeWhile_imp h) (by decide)
    have hsum := congrArg (List.count '=') (List.takeWhile_append_dropWhile (p := isSpace) (l := s))
    rw [List.count_append] at hsum
    omega
  rw [stripStr, List.rdropWhile, List.count_reverse, hdrop, List.count_reverse, hdrop]

/-- **Any other line ends `set_config`.** -/
theorem configLine_error (paths : Paths) {line : Str} (h : line.count '=' ≠ 1) :
    configLine paths line = .error .valueError := by
  have hlen := length_splitOn (stripStr line) '='
  rw [count_stripStr] at hlen
  unfold configLine
  split
  next key values hsplit =>
    rw [hsplit] at hlen
    exact absurd hlen (by simpa [eq_comm] using h)
  next => rfl

/-! ## Files -/

theorem configLines_ok (paths : Paths) {lines : List Str} (h : ∀ line ∈ lines, line.count '=' = 1) :
    configLines paths lines = (paths.afterConfig lines, none) := by
  induction lines generalizing paths with
  | nil => rw [configLines, paths.afterConfig_nil]
  | cons line lines ih =>
    rw [List.forall_mem_cons] at h
    rw [configLines, configLine_ok paths h.1]
    simp only [ih _ h.2]
    rw [← paths.afterConfig_cons]

/-- The first line that has not one `=` ends the loop. -/
theorem configLines_error (paths : Paths) {lines : List Str}
    (h : ¬ ∀ line ∈ lines, line.count '=' = 1) : (configLines paths lines).2 ≠ none := by
  induction lines generalizing paths with
  | nil => exact absurd (by simp) h
  | cons line lines ih =>
    rw [configLines]
    by_cases hline : line.count '=' = 1
    · rw [configLine_ok paths hline]
      exact ih _ fun hrest => h (List.forall_mem_cons.2 ⟨hline, hrest⟩)
    · rw [configLine_error paths hline]
      simp

/-- A system whose configuration file holds the given text. -/
def configEnv (text : Str) : (o : OsOp) → Unit → OsRes o × Unit
  | .pathExists _, s => (true, s)
  | .openFile _ _, s => (.ok (), s)
  | .read _, s => (.ok (universalNewlines text), s)
  | .close _, s => ((), s)
  | .readline _, s => (.error (.osError (some EINVAL)), s)
  | .write _ _, s => (.error (.osError (some EPERM)), s)
  | .writeAgain _ _, s => (.error (.osError (some EPERM)), s)
  | .select _ _, s => (.error (.osError (some EINVAL)), s)
  | .popenWait _, s => (.error (.osError (some ENOENT)), s)
  | .copyfile _ _, s => (.error (.osError (some ENOENT)), s)
  | .mmap _ _, s => (.error (.osError (some EPERM)), s)
  | .sleep _, s => ((), s)
  | .peek _, s => (0, s)
  | .poke _ _, s => ((), s)

/-- The lines of the file, as the loop gets them. -/
def fileLines (text : Str) : List Str := readlines (universalNewlines text)

theorem run_setConfig (text : Str) (paths : Paths) :
    run (configEnv text) (setConfig paths) () = (.ret (configLines paths (fileLines text)), ()) := by
  simp [setConfig, pathExists, withOpen, openFile, read, close, configEnv, fileLines,
    Functor.map, Prog.bind]

/-- **`set_config` returns, and both lists are extended by the values the file
has for them, exactly if every line of the file has one `=`.** -/
theorem set_config_iff (text : Str) (paths : Paths) :
    run (configEnv text) (setConfig paths) () =
        (.ret (paths.afterConfig (fileLines text), none), ()) ↔
      ∀ line ∈ fileLines text, line.count '=' = 1 := by
  rw [run_setConfig]
  constructor
  · intro h
    by_contra hlines
    refine configLines_error paths hlines ?_
    exact congrArg Prod.snd (Outcome.ret.inj (congrArg Prod.fst h))
  · intro h
    rw [configLines_ok paths h]

/-- A blank line keeps the daemon from starting. -/
theorem set_config_blank_line :
    run (configEnv "\nRPMSG_CHANNELS=chan\n".toList) (setConfig .initial) () ≠
      (.ret (Paths.initial.afterConfig (fileLines "\nRPMSG_CHANNELS=chan\n".toList), none), ()) := by
  rw [Ne, run_setConfig]
  decide

end Daemon
