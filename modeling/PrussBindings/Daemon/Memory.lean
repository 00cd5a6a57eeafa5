import PrussBindings.Daemon.Request
import PrussBindings.Lib.Transition

/-!
# The memory commands

`MEMREAD_*` and `MEMWRITE_*` reach the PRU memories through one mapping of
`/dev/mem`, in which the three memories lie side by side with the instruction
memories and the control registers.  What they are for is the reference model
here: three separate arrays of bytes.

* `Banks`, `BankStep` — the reference model and its steps; a request that is
  not `Valid` is refused with an error number.
* `memStep` — one request served by `handle` over the mapping `Icss`.
* `MemConforms`, `MemRefines` — a request, and a sequence of requests, behaves as the
  reference model does and touches no byte outside the three memories.
* `mem_refines_iff` — **the handlers refine the reference model exactly on the
  sequences in which the requests that can be read are those that stay inside
  their memory**: neither handler checks the offset, a slice of the mapping takes
  negative offsets too, and a numeral can be too long to be read.
-/

namespace Daemon

open Effect Errno Text

/-! ## The reference model -/

/-- The sizes of the memories: 8 KB, 8 KB and 12 KB. -/
def Ram.size : Ram → Nat
  | .dram0 => 8192
  | .dram1 => 8192
  | .sram => 12288

/-- Three separate arrays of bytes. -/
abbrev Banks := (ram : Ram) → Fin ram.size → UInt8

/-- Assigns one byte of one array. -/
def Banks.store (b : Banks) (ram : Ram) (i : Fin ram.size) (v : UInt8) : Banks :=
  Function.update b ram (Function.update (b ram) i v)

/-- A word of a request line. -/
abbrev Word := {w : Str // IsToken w}

/-- A request to read or write one byte. -/
inductive MemRequest where
  | read (ram : Ram) (offset : Word)
  | write (ram : Ram) (offset data : Word)

/-- `int` reads the arguments of the request. -/
def MemRequest.Parses (setup : Setup) : MemRequest → Prop
  | .read _ offset => ∃ o, parseInt setup.maxDigits 10 offset.1 = some o
  | .write _ offset data => (∃ o, parseInt setup.maxDigits 10 offset.1 = some o) ∧
    ∃ d, parseInt setup.maxDigits 16 data.1 = some d

/-- The offset is a number that lies in the memory, and the data is a byte. -/
def MemRequest.Valid : MemRequest → Prop
  | .read ram offset => ∃ i : Fin ram.size, numeral 10 offset.1 = some (i : Int)
  | .write ram offset data =>
    (∃ i : Fin ram.size, numeral 10 offset.1 = some (i : Int)) ∧
      ∃ v : UInt8, numeral 16 data.1 = some (v.toNat : Int)

/-- A reply that is a negated error number. -/
def IsErrno (reply : Option Bytes) : Prop :=
  ∃ e : Int, 0 < e ∧ reply = some (encode (showInt (-e)))

/-- What a request does to the three arrays, and how it is answered. -/
inductive BankStep : Banks → MemRequest × Option Bytes → Banks → Prop where
  | read {b : Banks} {ram : Ram} {offset : Word} {i : Fin ram.size}
      (hi : numeral 10 offset.1 = some (i : Int)) :
      BankStep b (.read ram offset, some (encode (showInt (b ram i).toNat))) b
  | write {b : Banks} {ram : Ram} {offset data : Word} {i : Fin ram.size} {v : UInt8}
      (hi : numeral 10 offset.1 = some (i : Int)) (hv : numeral 16 data.1 = some (v.toNat : Int)) :
      BankStep b (.write ram offset data, some (encode (showInt 0))) (b.store ram i v)
  | refuse {b : Banks} {req : MemRequest} {reply : Option Bytes} (hreq : ¬ req.Valid)
      (hreply : IsErrno reply) : BankStep b (req, reply) b

/-! ## The mapping -/

/-- The bytes of the PRU subsystem. -/
abbrev Icss := Nat → UInt8

/-- `/dev/mem` as a plain array that keeps what is written.  The memory
commands make no other calls. -/
def memEnv : (o : OsOp) → Icss → OsRes o × Icss
  | .peek k, m => (m k, m)
  | .poke k v, m => ((), Function.update m k v)
  | .openFile _ _, m => (.ok (), m)
  | .mmap _ _, m => (.ok (), m)
  | .close _, m => ((), m)
  | .pathExists _, m => (false, m)
  | .read _, m => (.ok [], m)
  | .readline _, m => (.ok [], m)
  | .write _ _, m => (.ok (), m)
  | .writeAgain _ _, m => (.ok (), m)
  | .select _ _, m => (.ok false, m)
  | .sleep _, m => ((), m)
  | .popenWait _, m => (.ok 0, m)
  | .copyfile _ _, m => (.ok (), m)

/-- The three memories in the mapping. -/
def banks (m : Icss) : Banks := fun ram i => m (ram.base + i)

/-- A place of the mapping outside the three memories. -/
def Outside (k : Nat) : Prop := ∀ ram : Ram, ¬ (ram.base ≤ k ∧ k < ram.base + ram.size)

/-- The words of a request. -/
def MemRequest.cmd : MemRequest → List Str
  | .read ram offset => [ram.readCmd, offset.1]
  | .write ram offset data => [ram.writeCmd, offset.1, data.1]

/-- The line of a request. -/
def MemRequest.line (req : MemRequest) : Bytes := encode (unwords req.cmd) ++ [10]

/-- One request served over the mapping: the reply, `none` if the connection
closes without one, and the mapping afterwards. -/
def memStep (setup : Setup) (m : Icss) (req : MemRequest) : Option Bytes × Icss :=
  match run memEnv (handle setup req.line) m with
  | (.ret reply, m') => (some reply, m')
  | (_, m') => (none, m')

/-- One request is served as the reference model says, and no byte outside the
three memories changes. -/
structure MemConforms (m : Icss) (req : MemRequest) (reply : Option Bytes) (m' : Icss) : Prop where
  step : BankStep (banks m) (req, reply) (banks m')
  outside : ∀ k, Outside k → m' k = m k

/-- A sequence of requests is served as the reference model says. -/
def MemRefines (setup : Setup) : Icss → List MemRequest → Prop
  | _, [] => True
  | m, req :: reqs =>
    MemConforms m req (memStep setup m req).1 (memStep setup m req).2 ∧
      MemRefines setup (memStep setup m req).2 reqs

/-! ## What one request does -/

theorem isToken_cmd (req : MemRequest) : ∀ w ∈ req.cmd, IsToken w := by
  cases req with
  | read ram offset =>
    have hcmd : IsToken ram.readCmd := by cases ram <;> decide
    simpa [MemRequest.cmd] using ⟨hcmd, offset.2⟩
  | write ram offset data =>
    have hcmd : IsToken ram.writeCmd := by cases ram <;> decide
    simpa [MemRequest.cmd] using ⟨hcmd, offset.2, data.2⟩

theorem memStep_read (setup : Setup) (m : Icss) (ram : Ram) (offset : Word) :
    memStep setup m (.read ram offset) = match parseInt setup.maxDigits 10 offset.1 with
      | none => (some (encode (showInt (-EINVAL))), m)
      | some o => match sliceByte pruIcssSize (ram.base + o) with
        | some k => (some (encode (showInt (m k).toNat)), m)
        | none => (none, m) := by
  have hserve : serve setup (MemRequest.read ram offset).cmd =
      memRead setup ram (MemRequest.read ram offset).cmd := by cases ram <;> rfl
  have hargs : memReadArgs setup (MemRequest.read ram offset).cmd =
      int setup.maxDigits 10 offset.1 := by cases ram <;> rfl
  unfold memStep MemRequest.line
  rw [handle_line setup _ (isToken_cmd _), hserve]
  unfold memRead
  rw [hargs]
  unfold int
  cases parseInt setup.maxDigits 10 offset.1 with
  | none => rfl
  | some o =>
    simp only [parsed_ok, withOpen, openFile, mmap, close, unpackB]
    cases sliceByte pruIcssSize (ram.base + o) with
    | none => rfl
    | some k => rfl

theorem memStep_write (setup : Setup) (m : Icss) (ram : Ram) (offset data : Word) :
    memStep setup m (.write ram offset data) =
      match parseInt setup.maxDigits 10 offset.1, parseInt setup.maxDigits 16 data.1 with
      | some o, some d =>
        if 0 ≤ d ∧ d < 256 then match sliceByte pruIcssSize (ram.base + o) with
          | some k => (some (encode (showInt 0)), Function.update m k (UInt8.ofNat d.toNat))
          | none => (none, m)
        else (none, m)
      | _, _ => (some (encode (showInt (-EINVAL))), m) := by
  have hserve : serve setup (MemRequest.write ram offset data).cmd =
      memWrite setup ram (MemRequest.write ram offset data).cmd := by cases ram <;> rfl
  have hargs : memWriteArgs setup (MemRequest.write ram offset data).cmd =
      (int setup.maxDigits 10 offset.1 >>= fun o =>
        int setup.maxDigits 16 data.1 >>= fun d => .ok (o, d)) := by
    cases ram <;> rfl
  unfold memStep MemRequest.line
  rw [handle_line setup _ (isToken_cmd _), hserve]
  unfold memWrite
  rw [hargs]
  unfold int
  cases parseInt setup.maxDigits 10 offset.1 with
  | none => rfl
  | some o =>
    cases parseInt setup.maxDigits 16 data.1 with
    | none => rfl
    | some d =>
      rw [show ((Except.ok o : Except PyExc Int) >>= fun o =>
        (Except.ok d : Except PyExc Int) >>= fun d => .ok (o, d)) = .ok (o, d) from rfl]
      simp only [parsed_ok, withOpen, openFile, mmap, close, assignB]
      by_cases hd : 0 ≤ d ∧ d < 256
      · rw [if_pos hd, if_pos hd]
        cases sliceByte pruIcssSize (ram.base + o) with
        | none => rfl
        | some k => rfl
      · rw [if_neg hd, if_neg hd]
        rfl

/-! ## The slice and the memories -/

/-- A slice that starts inside the mapping holds the byte it starts at. -/
theorem sliceByte_of_lt {len k : Nat} (hk : k < len) : sliceByte len (k : Int) = some k := by
  have hstart : sliceIndex len (k : Int) = k := by
    unfold sliceIndex
    rw [if_neg (by omega), Int.toNat_natCast]
    omega
  have hstop : sliceIndex len ((k : Int) + 1) = k + 1 := by
    unfold sliceIndex
    rw [if_neg (by omega), show ((k : Int) + 1).toNat = k + 1 by omega]
    omega
  unfold sliceByte
  rw [hstart, hstop, if_pos (Nat.lt_succ_self k)]

theorem base_add_lt (ram : Ram) (i : Fin ram.size) : ram.base + i < pruIcssSize := by
  have hi := i.2
  cases ram <;> simp only [Ram.base, Ram.size, pruIcssSize] at hi ⊢ <;> omega

/-- The memories do not overlap in the mapping. -/
theorem base_add_inj {ram ram' : Ram} {i : Fin ram.size} {i' : Fin ram'.size}
    (h : ram.base + i = ram'.base + (i' : Nat)) : (⟨ram, i⟩ : (r : Ram) × Fin r.size) = ⟨ram', i'⟩ := by
  have hi := i.2
  have hi' := i'.2
  have hram : ram = ram' := by
    cases ram <;> cases ram' <;> simp only [Ram.base, Ram.size] at h hi hi' <;>
      first | rfl | omega
  subst hram
  have : i = i' := Fin.ext (by omega)
  rw [this]

theorem banks_update (m : Icss) (ram : Ram) (i : Fin ram.size) (v : UInt8) :
    banks (Function.update m (ram.base + i) v) = (banks m).store ram i v := by
  funext ram' i'
  unfold banks Banks.store
  by_cases h : ram' = ram
  · subst h
    rw [Function.update_self]
    by_cases hi : i' = i
    · rw [hi, Function.update_self, Function.update_self]
    · rw [Function.update_of_ne hi, Function.update_of_ne fun heq => hi (Fin.ext (by omega))]
  · rw [Function.update_of_ne h, Function.update_of_ne]
    intro heq
    exact h (congrArg Sigma.fst (base_add_inj heq))

theorem outside_update (m : Icss) (ram : Ram) (i : Fin ram.size) (v : UInt8) {k : Nat}
    (hk : Outside k) : Function.update m (ram.base + i) v k = m k := by
  refine Function.update_of_ne ?_ _ _
  rintro rfl
  have hi := i.2
  exact hk ram ⟨by omega, by omega⟩

/-- A number that is not negative is no error number. -/
theorem not_isErrno_of_nonneg {n : Int} (hn : 0 ≤ n) : ¬ IsErrno (some (encode (showInt n))) := by
  rintro ⟨e, he, heq⟩
  have := showInt_inj.1 (encode_injective (Option.some_inj.1 heq))
  omega

theorem not_isErrno_none : ¬ IsErrno none := by
  rintro ⟨e, -, heq⟩
  cases heq

theorem isErrno_EINVAL : IsErrno (some (encode (showInt (-EINVAL)))) := ⟨EINVAL, by decide, rfl⟩

/-! ## Refinement -/

/-- A request that is refused by the reference model conforms exactly if it is
answered with an error number and changes nothing. -/
theorem conforms_of_refused {m : Icss} {req : MemRequest} {reply : Option Bytes}
    (hreq : ¬ req.Valid) (hreply : IsErrno reply) : MemConforms m req reply m :=
  ⟨.refuse hreq hreply, fun _ _ => rfl⟩

theorem isErrno_of_conforms {m m' : Icss} {req : MemRequest} {reply : Option Bytes}
    (hreq : ¬ req.Valid) (h : MemConforms m req reply m') : IsErrno reply := by
  have hstep := h.step
  generalize hb' : banks m' = b' at hstep
  cases hstep with
  | read hi => exact absurd ⟨_, hi⟩ hreq
  | write hi hv => exact absurd ⟨⟨_, hi⟩, ⟨_, hv⟩⟩ hreq
  | refuse _ hreply => exact hreply

/-- A request whose arguments cannot be read is answered `-EINVAL`. -/
theorem memStep_of_not_parses (setup : Setup) (m : Icss) {req : MemRequest}
    (h : ¬ req.Parses setup) :
    memStep setup m req = (some (encode (showInt (-EINVAL))), m) := by
  cases req with
  | read ram offset =>
    rw [memStep_read]
    cases ho : parseInt setup.maxDigits 10 offset.1 with
    | none => rfl
    | some o => exact absurd ⟨o, ho⟩ h
  | write ram offset data =>
    rw [memStep_write]
    cases ho : parseInt setup.maxDigits 10 offset.1 with
    | none => rfl
    | some o =>
      cases hd : parseInt setup.maxDigits 16 data.1 with
      | none => rfl
      | some d => exact absurd ⟨⟨o, ho⟩, ⟨d, hd⟩⟩ h

/-- A request whose arguments are read is not answered with an error number,
wherever it leads. -/
theorem not_isErrno_of_parses (setup : Setup) (m : Icss) {req : MemRequest}
    (h : req.Parses setup) : ¬ IsErrno (memStep setup m req).1 := by
  cases req with
  | read ram offset =>
    obtain ⟨o, ho⟩ := h
    rw [memStep_read, ho]
    simp only
    cases sliceByte pruIcssSize (ram.base + o) with
    | none => exact not_isErrno_none
    | some k => exact not_isErrno_of_nonneg (Int.natCast_nonneg _)
  | write ram offset data =>
    obtain ⟨⟨o, ho⟩, ⟨d, hd⟩⟩ := h
    rw [memStep_write, ho, hd]
    simp only
    by_cases hrange : 0 ≤ d ∧ d < 256
    · rw [if_pos hrange]
      cases sliceByte pruIcssSize (ram.base + o) with
      | none => exact not_isErrno_none
      | some k => exact not_isErrno_of_nonneg (Int.le_refl 0)
    · rw [if_neg hrange]
      exact not_isErrno_none

/-- What `int` reads of a numeral is its value. -/
theorem parseInt_of_numeral {limit : DigitLimit} {base : Nat} {s : Str} {n o : Int}
    (hn : numeral base s = some n) (ho : parseInt limit base s = some o) :
    parseInt limit base s = some n := by
  rw [parseInt] at ho ⊢
  split_ifs at ho with hallows
  rw [if_pos hallows, hn]

/-- A request that can be read and stays inside its memory is served as the reference
model says. -/
theorem memConforms_of_valid (setup : Setup) (m : Icss) {req : MemRequest}
    (hparses : req.Parses setup) (h : req.Valid) :
    MemConforms m req (memStep setup m req).1 (memStep setup m req).2 := by
  cases req with
  | read ram offset =>
    obtain ⟨i, hi⟩ := h
    obtain ⟨o, ho⟩ := hparses
    have hk := sliceByte_of_lt (base_add_lt ram i)
    rw [Nat.cast_add] at hk
    rw [memStep_read, parseInt_of_numeral hi ho]
    simp only [hk]
    exact ⟨.read hi, fun _ _ => rfl⟩
  | write ram offset data =>
    obtain ⟨⟨i, hi⟩, ⟨v, hv⟩⟩ := h
    obtain ⟨⟨o, ho⟩, ⟨d, hd⟩⟩ := hparses
    have hrange : 0 ≤ (v.toNat : Int) ∧ (v.toNat : Int) < 256 := by
      have := v.toNat_lt
      omega
    have hk := sliceByte_of_lt (base_add_lt ram i)
    rw [Nat.cast_add] at hk
    rw [memStep_write, parseInt_of_numeral hi ho, parseInt_of_numeral hv hd]
    simp only [if_pos hrange, hk, Int.toNat_natCast, UInt8.ofNat_toNat]
    refine ⟨?_, fun k => outside_update m ram i v⟩
    rw [banks_update]
    exact .write hi hv

/-- The reference model answers a request that stays inside its memory with a
number that is not negative. -/
theorem not_isErrno_of_valid {m m' : Icss} {req : MemRequest} {reply : Option Bytes}
    (hreq : req.Valid) (h : MemConforms m req reply m') : ¬ IsErrno reply := by
  have hstep := h.step
  generalize hb' : banks m' = b' at hstep
  cases hstep with
  | read _ => exact not_isErrno_of_nonneg (Int.natCast_nonneg _)
  | write _ _ => exact not_isErrno_of_nonneg (Int.le_refl 0)
  | refuse hnot => exact absurd hreq hnot

/-- **One request** is served as the reference model says exactly if it is read
where it should be. -/
theorem memConforms_iff (setup : Setup) (m : Icss) (req : MemRequest) :
    MemConforms m req (memStep setup m req).1 (memStep setup m req).2 ↔
      (req.Parses setup ↔ req.Valid) := by
  by_cases hparses : req.Parses setup
  · by_cases hvalid : req.Valid
    · exact iff_of_true (memConforms_of_valid setup m hparses hvalid) (iff_of_true hparses hvalid)
    · refine iff_of_false (fun h => ?_) fun h => hvalid (h.1 hparses)
      exact not_isErrno_of_parses setup m hparses (isErrno_of_conforms hvalid h)
  · rw [memStep_of_not_parses setup m hparses]
    by_cases hvalid : req.Valid
    · refine iff_of_false (fun h => ?_) fun h => hparses (h.2 hvalid)
      exact not_isErrno_of_valid hvalid h isErrno_EINVAL
    · exact iff_of_true (conforms_of_refused hvalid isErrno_EINVAL) (iff_of_false hparses hvalid)

/-- **The memory commands are three separate arrays exactly as long as the requests
that can be read are those that stay inside their memory.** -/
theorem mem_refines_iff (setup : Setup) (m : Icss) (reqs : List MemRequest) :
    MemRefines setup m reqs ↔ ∀ req ∈ reqs, req.Parses setup ↔ req.Valid := by
  induction reqs generalizing m with
  | nil => exact iff_of_true trivial (by simp)
  | cons req reqs ih =>
    rw [MemRefines, memConforms_iff, ih, List.forall_mem_cons]

/-- `MEMWRITE_D1 -1 55` is answered `0` and changes the last byte of the first
memory. -/
theorem memWrite_negative_offset :
    (memStep ⟨.initial, 0, 0, .default⟩ (fun _ => 0)
        (.write .dram1 ⟨"-1".toList, by decide⟩ ⟨"55".toList, by decide⟩)).1 =
      some (encode (showInt 0)) ∧
    (memStep ⟨.initial, 0, 0, .default⟩ (fun _ => 0)
        (.write .dram1 ⟨"-1".toList, by decide⟩ ⟨"55".toList, by decide⟩)).2 8191 = 0x55 ∧
    ¬ MemRefines ⟨.initial, 0, 0, .default⟩ (fun _ => 0)
      [.write .dram1 ⟨"-1".toList, by decide⟩ ⟨"55".toList, by decide⟩] := by
  have hoffset : parseInt .default 10 "-1".toList = some (-1) := by decide
  have hdata : parseInt .default 16 "55".toList = some 0x55 := by decide
  refine ⟨?_, ?_, ?_⟩
  · rw [memStep_write, hoffset, hdata]
    rfl
  · rw [memStep_write, hoffset, hdata]
    rfl
  · rintro ⟨h, -⟩
    rw [memConforms_iff] at h
    obtain ⟨⟨i, hi⟩, -⟩ := h.1 ⟨⟨-1, hoffset⟩, ⟨0x55, hdata⟩⟩
    have hneg : (-1 : Int) = i :=
      Option.some_inj.1 ((by decide : numeral 10 "-1".toList = some (-1)).symm.trans hi)
    omega

end Daemon
