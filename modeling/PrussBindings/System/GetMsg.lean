import PrussBindings.Daemon.GetMsg
import PrussBindings.System.Contention

/-!
# The pending messages in the driver

The file object of `get_msg` over the driver's `read`, and what that has to do with
the queue of messages that the handler is thought of as reading.

* `DriverLine`, `textReader` — `readline` over `pruss_api_read`.
* `driverLine_of_readline` — a line of the queue is a line of the device.
* `getMsg_device` — **messages that are deliverable are returned whole from the
  device**, which is empty and free afterwards.
-/

namespace System

open Effect Errno Text TextFile Daemon Driver Transition

/-- `readline` over the driver's `read`, with messages that may come in at any
time.  A read that a signal interrupts is made again by Python. -/
inductive DriverLine :
    PrussApiDev × TextFile → Except PyExc Str → PrussApiDev × TextFile → Prop where
  | arrives {dev : PrussApiDev} {f : TextFile} {data : Message} {res : Except PyExc Str}
      {y : PrussApiDev × TextFile} :
    DriverLine ((prussApiCb dev data).dev, f) res y → DriverLine (dev, f) res y
  | buffered {dev : PrussApiDev} {f : TextFile} : '\n' ∈ f.chars →
    DriverLine (dev, f) (.ok (firstLine f.chars)) (dev, { f with chars := afterLine f.chars })
  | failed {dev : PrussApiDev} {f : TextFile} {fault : Option Nat} {r : FopRet} : '\n' ∉ f.chars →
    prussApiRead dev false false 8192 fault = some r → r.ret < 0 →
    DriverLine (dev, f) (.error (.osError (some (-r.ret)))) (r.dev, f)
  | undecodable {dev : PrussApiDev} {f : TextFile} {fault : Option Nat} {r : FopRet} :
    '\n' ∉ f.chars → prussApiRead dev false false 8192 fault = some r → 0 ≤ r.ret →
    f.readChunk r.stored = none → DriverLine (dev, f) (.error .unicodeDecodeError) (r.dev, f)
  | eof {dev : PrussApiDev} {f f' : TextFile} {fault : Option Nat} {r : FopRet} : '\n' ∉ f.chars →
    prussApiRead dev false false 8192 fault = some r → 0 ≤ r.ret →
    f.readChunk r.stored = some (f', true) →
    DriverLine (dev, f) (.ok f'.chars) (r.dev, { f' with chars := [] })
  | more {dev : PrussApiDev} {f f' : TextFile} {fault : Option Nat} {r : FopRet}
      {res : Except PyExc Str} {y : PrussApiDev × TextFile} : '\n' ∉ f.chars →
    prussApiRead dev false false 8192 fault = some r → 0 ≤ r.ret →
    f.readChunk r.stored = some (f', false) → DriverLine (r.dev, f') res y →
    DriverLine (dev, f) res y

theorem DriverLine.fifoRun {x y : PrussApiDev × TextFile} {res : Except PyExc Str}
    (h : DriverLine x res y) : ∃ es, FifoRun x.1 es y.1 := by
  induction h with
  | arrives _ ih =>
    obtain ⟨es, hes⟩ := ih
    exact ⟨_, .cons (.cb rfl) hes⟩
  | buffered => exact ⟨[], .nil _⟩
  | failed _ hread => exact ⟨_, .cons (.read hread) (.nil _)⟩
  | undecodable _ hread => exact ⟨_, .cons (.read hread) (.nil _)⟩
  | eof _ hread => exact ⟨_, .cons (.read hread) (.nil _)⟩
  | more _ hread _ _ _ ih =>
    obtain ⟨es, hes⟩ := ih
    exact ⟨_, .cons (.read hread) hes⟩

/-- Python's text file over the device. -/
def textReader : LineReader TextFile where
  opened := .opened
  readline := DriverLine
  reads := DriverLine.fifoRun

/-- **A line of the queue is a line of the device that holds it.** -/
theorem driverLine_of_readline {dev : PrussApiDev} {queue queue' : List Bytes} {f f' : TextFile}
    {s : Str} (hdev : Holds dev queue) (h : f.readline queue = .line s f' queue') :
    ∃ dev', DriverLine (dev, f) (.ok s) (dev', f') ∧ Holds dev' queue' := by
  induction queue generalizing dev f with
  | nil =>
    by_cases hnl : '\n' ∈ f.chars
    · rw [readline_of_mem hnl] at h
      cases h
      exact ⟨dev, .buffered hnl, hdev⟩
    · rw [readline_nil hnl] at h
      cases h
  | cons m queue ih =>
    by_cases hnl : '\n' ∈ f.chars
    · rw [readline_of_mem hnl] at h
      cases h
      exact ⟨dev, .buffered hnl, hdev⟩
    · obtain ⟨dev₁, hread, hdev₁⟩ := prussApiRead_cons hdev false false 8192
      rw [readline_cons hnl] at h
      cases hchunk : f.readChunk m with
      | none =>
        rw [hchunk] at h
        cases h
      | some r =>
        obtain ⟨f₁, eof⟩ := r
        rw [hchunk] at h
        have hret : (0 : Int) ≤ (m.length : Int) := Int.natCast_nonneg _
        cases eof with
        | true =>
          cases h
          exact ⟨dev₁, .eof hnl hread hret hchunk, hdev₁⟩
        | false =>
          obtain ⟨dev', hline, hdev'⟩ := ih hdev₁ h
          exact ⟨dev', .more hnl hread hret hchunk hline, hdev'⟩

/-- What `select` says of a device that holds messages. -/
theorem prussApiPoll_holds {dev : PrussApiDev} {queue : List Bytes} (hdev : Holds dev queue) :
    (prussApiPoll dev).pollIn = decide (queue ≠ []) := by
  have hempty := hdev.isEmpty_iff
  by_cases hqueue : queue = []
  · simp [prussApiPoll, hempty.2 hqueue, hqueue]
  · have hfull : dev.msgFifo.isEmpty = false := by
      rw [← Bool.not_eq_true, hempty]
      exact hqueue
    simp [prussApiPoll, hfull, hqueue]

/-- **The loop of `get_msg` on the device** collects what it collects from the
queue. -/
theorem exec_getMsgLoop_device {node : Str} {queue : List Bytes} {n lines : Nat} {t reply : Str}
    {file : TextFile} {d : SharedDevice TextFile} (h : Collects d.file queue n t file)
    (hlines : n ≤ lines) (hdev : Holds d.dev queue) :
    ∃ d', Exec (deviceEnv textReader node) (getMsgLoop node lines reply) d (.ret (reply ++ t)) d' ∧
      Holds d'.dev [] ∧ d'.dev.locked = d.dev.locked := by
  generalize hfile : d.file = f at h
  induction h generalizing d lines reply with
  | nil =>
    refine ⟨d, ?_, hdev, rfl⟩
    have hselect : deviceEnv textReader node (.select node (some 0)) d (.ok false) d :=
      ⟨rfl, .inr ⟨by simp, prussApiPoll_holds hdev, rfl⟩⟩
    rw [List.append_nil]
    cases lines <;> exact .call hselect (.ret _ _)
  | @line f f₁ f₂ m queue queue' s t n hline _ ih =>
    subst hfile
    obtain ⟨lines, rfl⟩ : ∃ l, lines = l + 1 := ⟨lines - 1, by omega⟩
    obtain ⟨dev₁, hread, hdev₁⟩ := driverLine_of_readline hdev hline
    have hselect : deviceEnv textReader node (.select node (some 0)) d (.ok true) d :=
      ⟨rfl, .inl ⟨prussApiPoll_holds hdev, rfl⟩⟩
    have hreadline : deviceEnv textReader node (.readline node) d (.ok s)
        { d with dev := dev₁, file := f₁ } := ⟨hread, rfl, rfl⟩
    obtain ⟨es, hes⟩ := hread.fifoRun
    have hn : n ≤ lines := by omega
    obtain ⟨d', hrest, hholds, hlocked⟩ :=
      @ih lines (reply ++ s) { d with dev := dev₁, file := f₁ } hn hdev₁ rfl
    rw [List.append_assoc] at hrest
    exact ⟨d', .call hselect (.call hreadline hrest), hholds, hlocked.trans (fifoRun_locked hes)⟩

section Device

variable {setup : Setup} {chan : Channel} {cmd : List Str} {d : SharedDevice TextFile}
  {queue : List Bytes}

/-- **Deliverable messages are returned whole from the driver**, and the device is
empty and free afterwards. -/
theorem getMsg_device (hchan : chan.name ∈ setup.paths.rpmsgChannels) (hlen : cmd.length = 3)
    (hargs : getMsgArgs setup cmd = .ok chan) (hfree : d.dev.locked = false)
    (hdev : Holds d.dev queue) (hqueue : queue = [] ∨ Deliverable queue) :
    ∃ text enough, encode text = (if queue = [] then [10] else queue.flatten) ∧
      ∀ lines, enough ≤ lines → ∃ d',
        Exec (deviceEnv textReader chan.devnode) (getMsg { setup with maxLines := lines } cmd) d
          (.ret (.str text)) d' ∧ Holds d'.dev [] ∧ d'.dev.locked = false := by
  obtain ⟨n, t, file, hcollects, htext⟩ := (collects_iff_deliverable queue).2 hqueue
  refine ⟨_, n, htext, fun lines hlines => ?_⟩
  have hheld : Holds { d.dev with locked := true } queue := ⟨hdev.framed, hdev.size, hdev.short⟩
  obtain ⟨d₁, hloop, hempty, -⟩ : ∃ d₁, Exec (deviceEnv textReader chan.devnode)
      (getMsgLoop chan.devnode lines [])
      { d with dev := { d.dev with locked := true }, file := .opened } (.ret ([] ++ t)) d₁ ∧ Holds d₁.dev [] ∧ _ := exec_getMsgLoop_device hcollects hlines hheld
  refine ⟨{ d₁ with dev := (prussApiRelease d₁.dev).dev }, ?_,
    ⟨hempty.framed, hempty.size, hempty.short⟩, rfl⟩
  rw [@getMsg_onDevice { setup with maxLines := lines } chan hchan cmd hlen hargs]
  have hexists : deviceEnv textReader chan.devnode (.pathExists chan.devnode) d true d :=
    ⟨by simp, rfl⟩
  have hopen : deviceEnv textReader chan.devnode (.openFile chan.devnode .r) d (.ok ())
      { d with dev := { d.dev with locked := true }, file := .opened } :=
    (open_free hfree).2 ⟨rfl, rfl⟩
  have hclose : Exec (deviceEnv textReader chan.devnode) (close chan.devnode >>= fun _ => .ret t) d₁
      (.ret t) { d₁ with dev := (prussApiRelease d₁.dev).dev } := .call (r := ()) rfl (.ret _ _)
  have hblock : Exec (deviceEnv textReader chan.devnode)
      (withOpen chan.devnode .r (getMsgLoop chan.devnode lines [])) d (.ret t)
      { d₁ with dev := (prussApiRelease d₁.dev).dev } := by
    have hopened : Exec (deviceEnv textReader chan.devnode) (openFile chan.devnode .r) d (.ret ())
        { d with dev := { d.dev with locked := true }, file := .opened } := .call hopen (.ret _ _)
    exact hopened.bind (.bind (.tryCatch_ret _ hloop) hclose)
  refine .call hexists (.tryCatch_ret _ (.bind hblock ?_))
  show Exec _ (.ret (if t = [] then Resp.str ['\n'] else .str t)) _ _ _
  split_ifs <;> exact .ret _ _

end Device

end System
