import PrussBindings.Lib.Effect
import PrussBindings.Lib.Numeral
import PrussBindings.Errno

/-!
# What the daemon asks of its system

`prussd.py` is written against Python's `os`, `shutil`, `select`, `subprocess`
and `mmap` modules.  Every call it makes to them is an operation of `OsOp`, and
a handler is a program of `Py` that makes such calls, so that nothing is said
here about what the system answers: each theorem chooses its own environment.

* `PyExc` — the exceptions a handler can meet.
* `withOpen` — the `with open(..) as fd` block.
* `writeText` — what a file that was opened in text mode writes.
* `catchOSError` — the `except OSError as err: return -err.errno` clause, which
  itself fails where the exception has no number.
* `parsed` — the `except ValueError: return -errno.EINVAL` clause around the
  conversion of a handler's arguments.

File names and text files are UTF-8.  Python writes to a buffer, and what is in it
goes to the system when the file is closed; `write` is what is asked of the system
then.
-/

namespace Daemon

open Effect Errno Text

/-- The exceptions that can come up while a request is served. -/
inductive PyExc where
  | osError (errno : Option Int)
  | valueError
  | indexError
  | typeError
  | structError
  | overflowError
  | unicodeDecodeError
  deriving DecidableEq, Repr

/-- The error number, if there is one, is not zero. -/
def Nonzero : PyExc → Prop
  | .osError (some k) => k ≠ 0
  | _ => True

/-- The mode of an `open`. -/
inductive OpenMode where
  | r
  | w
  | wb
  | rPlusB
  deriving DecidableEq, Repr

/-- A call to the system. -/
inductive OsOp where
  | pathExists (path : Str)
  | openFile (path : Str) (mode : OpenMode)
  | read (path : Str)
  | readline (path : Str)
  | write (path : Str) (data : Bytes)
  | writeAgain (path : Str) (data : Bytes)
  | close (path : Str)
  | select (path : Str) (timeout : Option Int)
  | sleep (seconds : Nat)
  | popenWait (argv : List Str)
  | copyfile (src dst : Str)
  | mmap (length offset : Nat)
  | peek (index : Nat)
  | poke (index : Nat) (data : UInt8)
  deriving DecidableEq

/-- What a call to the system returns, or raises. -/
abbrev OsRes : OsOp → Type
  | .pathExists _ => Bool
  | .read _ => Except PyExc Str
  | .readline _ => Except PyExc Str
  | .select _ _ => Except PyExc Bool
  | .popenWait _ => Except PyExc Int
  | .close _ => Unit
  | .sleep _ => Unit
  | .peek _ => UInt8
  | .poke _ _ => Unit
  | .openFile _ _ => Except PyExc Unit
  | .write _ _ => Except PyExc Unit
  | .writeAgain _ _ => Except PyExc Unit
  | .copyfile _ _ => Except PyExc Unit
  | .mmap _ _ => Except PyExc Unit

/-- Python code of the daemon. -/
abbrev Py (α : Type) := Prog OsRes PyExc α

/-- What a handler returns to `handle`. -/
inductive Resp where
  | int (n : Int)
  | str (s : Str)
  | none
  deriving DecidableEq, Repr

/-- `str(resp)`. -/
def Resp.toStr : Resp → Str
  | .int n => showInt n
  | .str s => s
  | .none => "None".toList

/-! ## Exceptions -/

/-- The result of a call, or the exception it raises. -/
def check {α : Type} : Except PyExc α → Py α
  | .ok a => .ret a
  | .error e => .raise e

@[simp] theorem check_ok {α : Type} (a : α) : check (.ok a) = .ret a := rfl

@[simp] theorem check_error {α : Type} (e : PyExc) : (check (.error e) : Py α) = .raise e := rfl

/-- `except OSError as err: return -err.errno`.  The number of an `OSError` can
be `None`, and then the minus sign raises a `TypeError`. -/
def exceptOSError : PyExc → Py Resp
  | .osError (some e) => .ret (.int (-e))
  | .osError none => .raise .typeError
  | e => .raise e

/-- `try: p except OSError as err: return -err.errno`. -/
def catchOSError (p : Py Resp) : Py Resp := p.tryCatch exceptOSError

/-- `try: .. except ValueError: return -errno.EINVAL` around the conversion of
the arguments, then the rest of the handler. -/
def parsed {α : Type} (args : Except PyExc α) (rest : α → Py Resp) : Py Resp :=
  match args with
  | .ok a => rest a
  | .error .valueError => .ret (.int (-EINVAL))
  | .error e => .raise e

@[simp] theorem parsed_ok {α : Type} (a : α) (rest : α → Py Resp) :
    parsed (.ok a) rest = rest a := rfl

/-- `cmd[i]`. -/
def index (cmd : List Str) (i : Nat) : Except PyExc Str :=
  match cmd[i]? with
  | some w => .ok w
  | none => .error .indexError

/-- `int(s, base)`. -/
def int (limit : DigitLimit) (base : Nat) (s : Str) : Except PyExc Int :=
  match parseInt limit base s with
  | some n => .ok n
  | none => .error .valueError

theorem int_showInt_eq (limit : DigitLimit) (n : Int) :
    int limit 10 (showInt n) =
      if limit.Allows 10 (showInt n) then .ok n else .error .valueError := by
  unfold int parseInt
  by_cases h : limit.Allows 10 (showInt n)
  · rw [if_pos h, if_pos h, numeral_showInt]
  · rw [if_neg h, if_neg h]

theorem int_showInt (limit : DigitLimit) {n : Int} (hn : n.natAbs < 10 ^ 100) :
    int limit 10 (showInt n) = .ok n := by
  unfold int
  rw [parseInt_showInt limit hn]

/-! ## Calls -/

/-- `os.path.exists(path)`. -/
def pathExists (path : Str) : Py Bool := .call (.pathExists path) fun b : Bool => .ret b

/-- `open(path, mode)`. -/
def openFile (path : Str) (mode : OpenMode) : Py Unit := .call (.openFile path mode) check

/-- `fd.read()`. -/
def read (path : Str) : Py Str := .call (.read path) check

/-- `fd.readline()`. -/
def readline (path : Str) : Py Str := .call (.readline path) check

/-- `fd.write(data)` of a file that was opened in binary mode. -/
def write (path : Str) (data : Bytes) : Py Unit := .call (.write path data) check

/-- The second attempt at a write, when the buffer is closed. -/
def writeAgain (path : Str) (data : Bytes) : Py Unit := .call (.writeAgain path data) check

/-- The block size of the files the daemon writes, which Python gives their buffers. -/
def blockSize : Nat := 4096

/-- `fd.write(text)` of a file that was opened in text mode.  Where there is no text,
nothing is written.  Closing the file flushes the text, and where that fails, closes
the buffer all the same, which writes again what is still in it: text that is longer
than the buffer never was. -/
def writeText (path : Str) (data : Bytes) : Py Unit :=
  if data = [] then return ()
  else (write path data).tryCatch fun e => do
    if data.length ≤ blockSize then
      writeAgain path data
    .raise e

/-- `fd.close()`. -/
def close (path : Str) : Py Unit := .call (.close path) fun _ => .ret ()

/-- `fd in select.select([fd], [], [], timeout)[0]`. -/
def select (path : Str) (timeout : Option Int) : Py Bool := .call (.select path timeout) check

/-- `time.sleep(seconds)`. -/
def sleep (seconds : Nat) : Py Unit := .call (.sleep seconds) fun _ => .ret ()

/-- `subprocess.Popen(argv).wait()`. -/
def popenWait (argv : List Str) : Py Int := .call (.popenWait argv) check

/-- `shutil.copyfile(src, dst)`. -/
def copyfile (src dst : Str) : Py Unit := .call (.copyfile src dst) check

/-- `mmap.mmap(fd.fileno(), length, offset=offset)`. -/
def mmap (length offset : Nat) : Py Unit := .call (.mmap length offset) check

/-- One byte of the mapping. -/
def peek (index : Nat) : Py UInt8 := .call (.peek index) fun b : UInt8 => .ret b

/-- Assigns one byte of the mapping. -/
def poke (index : Nat) (data : UInt8) : Py Unit := .call (.poke index data) fun _ => .ret ()

/-- `with open(path, mode) as fd: body`.  The file is closed however the body
ends. -/
def withOpen {α : Type} (path : Str) (mode : OpenMode) (body : Py α) : Py α := do
  openFile path mode
  let a ← body.tryCatch fun e => do
    close path
    .raise e
  close path
  return a

/-! ## The calls a block makes -/

section Uses

variable {α : Type} {ok : OsOp → Prop}

theorem uses_check (r : Except PyExc α) : Uses ok (check r : Py α) := by
  cases r <;> trivial

theorem uses_writeText {path : Str} {data : Bytes} (hwrite : ok (.write path data))
    (hagain : ok (.writeAgain path data)) : Uses ok (writeText path data) := by
  unfold writeText
  by_cases hnil : data = []
  · rw [if_pos hnil]
    trivial
  rw [if_neg hnil]
  refine uses_tryCatch ⟨hwrite, uses_check⟩ fun e => ?_
  by_cases hfits : data.length ≤ blockSize
  · simp only [if_pos hfits]
    exact uses_bind ⟨hagain, uses_check⟩ fun _ => trivial
  · simp only [if_neg hfits]
    trivial

theorem uses_withOpen {path : Str} {mode : OpenMode} {body : Py α}
    (hopen : ok (.openFile path mode)) (hclose : ok (.close path)) (hbody : Uses ok body) :
    Uses ok (withOpen path mode body) := by
  unfold withOpen
  refine uses_bind ⟨hopen, uses_check⟩ fun _ => uses_bind (uses_tryCatch hbody fun _ => ?_) fun _ => ?_
  · exact ⟨hclose, fun _ => trivial⟩
  · exact ⟨hclose, fun _ => trivial⟩

theorem uses_catchOSError {p : Py Resp} (hp : Uses ok p) : Uses ok (catchOSError p) := by
  refine uses_tryCatch hp fun e => ?_
  cases e with
  | osError errno => cases errno <;> trivial
  | _ => trivial

theorem uses_parsed {args : Except PyExc α} {rest : α → Py Resp}
    (hrest : ∀ a, args = .ok a → Uses ok (rest a)) : Uses ok (parsed args rest) := by
  cases args with
  | ok a => exact hrest a rfl
  | error e => cases e <;> trivial

end Uses

end Daemon
