import PrussBindings.Lib.PruRun

/-!
# Pulses on a pin

A PRU core makes a pulse by setting a pin of `R30`, incrementing a counter up to
one bound, clearing the pin, and incrementing the counter up to another.  What is
seen of it are the edges of the pin and, for every increment of the counter,
whether the pin is high; marks may be put where a block begins.

* `Event`, `Watch` — what there is to see; `Watch.see`.
* `Watch.straight`, `Watch.jump`, `Watch.fallThrough` — steps of which nothing
  is seen.
* `PulseLoop` — the blocks that make a pulse; `PulseLoop.does` — **the pulse**: how
  many increments are high and how many low, whatever the bounds are;
  `PulseLoop.does_and_back` — and back to a block.
* `Does.filterMap` — an observer that sees less.
-/

namespace PruIsa

variable {L μ : Type}

/-- What is seen: a mark, an edge of the pin, an increment of the counter while the pin
is high or low. -/
inductive Event (μ : Type) where
  | mark (m : μ)
  | rise
  | fall
  | count (high : Bool)
  deriving DecidableEq, Repr

/-- A pin. -/
def pin (bit : Fin 32) (d : Data) : Bool := (d.read R30).getLsbD bit

theorem pin_set (bit : Fin 32) (d : Data) :
    pin bit (d.write R30 (d.read R30 ||| (1 : Word) <<< bit.val)) = true := by
  simp [pin]

theorem pin_clr (bit : Fin 32) (d : Data) :
    pin bit (d.write R30 (d.read R30 &&& ~~~((1 : Word) <<< bit.val))) = false := by
  simp [pin]

/-- A write of another register is not seen at the pin. -/
theorem pin_write {f : Field} (hf : f.reg ≠ R30) (bit : Fin 32) (d : Data) (v : Word) :
    pin bit (d.write f v) = pin bit d := by
  rw [pin, d.read_write_of_apart v (.inl hf)]
  rfl

/-- The edge between two levels of the pin. -/
def edge (before after : Bool) : List (Event μ) :=
  match before, after with
  | false, true => [.rise]
  | true, false => [.fall]
  | _, _ => []

@[simp] theorem edge_self (level : Bool) : edge level level = ([] : List (Event μ)) := by
  cases level <;> rfl

/-- What is seen of a pulse: the marks, the edges, and the increments while the pin is high
and while it is low. -/
def pulseSeen (marks : List μ) (before : Bool) (high low : ℕ) : List (Event μ) :=
  marks.map .mark ++ edge before true ++ List.replicate high (.count true) ++
    .fall :: List.replicate low (.count false)

/-- An instruction that increments the register. -/
def Instr.increments (r : Reg) : Instr L → Bool
  | add dst src (.imm n) => dst = r && src = r && n = 1
  | _ => false

/-- An observer of a pin and a counter. -/
structure Watch (L μ : Type) where
  program : Program L
  bit : Fin 32
  counter : Reg
  counter_ne : counter ≠ R30
  marks : L → Data → List μ

namespace Watch

variable (w : Watch L μ)

/-- What is seen of an instruction. -/
def observe (i : Instr L) (d : Data) : List (Event μ) :=
  (if i.increments w.counter then [.count (pin w.bit d)] else []) ++
    edge (pin w.bit d) (pin w.bit (i.effect d))

/-- What is seen of a state. -/
def see (s : State L) : List (Event μ) :=
  (if s.index = 0 then (w.marks s.label s.data).map .mark else []) ++
    ((w.program.fetch s).map fun i => w.observe i s.data).getD []

/-- An instruction that changes neither the pins nor the counter by one. -/
def quiet (i : Instr L) : Bool := !i.increments w.counter && !i.writes.contains R30

variable {w} {l l' : L} {n : ℕ} {d : Data} {i : Instr L}

theorem observe_of_quiet (h : w.quiet i = true) (d : Data) : w.observe i d = [] := by
  simp only [quiet, Bool.and_eq_true, Bool.not_eq_true', List.contains_eq_mem,
    decide_eq_false_iff_not] at h
  have hpin : pin w.bit (i.effect d) = pin w.bit d := by
    rw [pin, (Instr.keeps_effect i d).read h.2]
    rfl
  rw [observe, h.1, hpin, edge_self]
  rfl

theorem see_eq (hfetch : (w.program.text l)[n]? = some i) (hmarks : n = 0 → w.marks l d = []) :
    w.see ⟨l, n, d⟩ = w.observe i d := by
  unfold see Program.fetch
  simp only [hfetch, Option.map_some, Option.getD_some]
  split
  · rename_i hn
    rw [hmarks hn]
    rfl
  · rfl

/-- A block of which nothing is seen. -/
theorem see_nil (hquiet : (w.program.text l).all w.quiet = true) (hmarks : w.marks l d = [])
    (n : ℕ) : w.see ⟨l, n, d⟩ = [] := by
  cases hfetch : (w.program.text l)[n]? with
  | none => simp [see, Program.fetch, hfetch, hmarks]
  | some i =>
    rw [see_eq hfetch fun _ => hmarks]
    exact observe_of_quiet (List.all_eq_true.1 hquiet i (List.mem_of_getElem? hfetch)) d

/-- The instructions of a block up to the first of which something is seen. -/
theorem straight (is : List (Instr L)) {rest : List (Instr L)}
    (hcode : (w.program.text l).drop n = is ++ rest) (hplain : is.all Instr.plain = true)
    (hquiet : is.all w.quiet = true) (hmarks : n = 0 → ∀ d, w.marks l d = []) (d : Data) :
    Does w.program w.see ⟨l, n, d⟩ [] ⟨l, n + is.length, Instr.effects is d⟩ := by
  refine Does.straight is hcode hplain fun k d' hk => ?_
  have hfetch : (w.program.text l)[n + k]? = some is[k] := by
    rw [← List.getElem?_drop, hcode, List.getElem?_append_left hk, List.getElem?_eq_getElem hk]
  rw [see_eq hfetch fun h => hmarks (by omega) d']
  exact observe_of_quiet (List.all_eq_true.1 hquiet _ (List.getElem_mem hk)) d'

/-- A branch that is taken. -/
theorem jump (hfetch : (w.program.text l)[n]? = some i) (htarget : i.target d = some l')
    (hmarks : n = 0 → w.marks l d = []) (hleaves : i.leaves = false) (hquiet : w.quiet i = true) :
    Does w.program w.see ⟨l, n, d⟩ [] ⟨l', 0, d⟩ :=
  .jump hfetch hleaves htarget ((see_eq hfetch hmarks).trans (observe_of_quiet hquiet d))

/-- A branch that is not taken. -/
theorem pass (hfetch : (w.program.text l)[n]? = some i) (htarget : i.target d = none)
    (hmarks : n = 0 → w.marks l d = []) (hleaves : i.leaves = false) (hquiet : w.quiet i = true) :
    Does w.program w.see ⟨l, n, d⟩ [] ⟨l, n + 1, i.effect d⟩ :=
  .pass hfetch hleaves htarget ((see_eq hfetch hmarks).trans (observe_of_quiet hquiet d))

/-- The end of a block. -/
theorem fallThrough (hend : (w.program.text l)[n]? = none) (hnext : w.program.next l = some l')
    (hn : n ≠ 0) : Does w.program w.see ⟨l, n, d⟩ [] ⟨l', 0, d⟩ :=
  .fallThrough hend hnext (by simp [see, Program.fetch, hend, hn])

/-- A write of the counter is not seen at the pin. -/
theorem pin_write_counter (d : Data) (v : Word) :
    pin w.bit (d.write w.counter v) = pin w.bit d :=
  pin_write w.counter_ne w.bit d v

theorem observe_add (d : Data) :
    w.observe (.add w.counter w.counter (.imm 1)) d = [.count (pin w.bit d)] := by
  have hadd : Instr.increments w.counter (L := L) (.add w.counter w.counter (.imm 1)) = true := by
    simp [Instr.increments]
  rw [observe, hadd, Instr.effect, pin_write_counter, edge_self]
  rfl

/-- A counting loop. -/
theorem countLoop {l : L} {q : Part} {b : Op} {is : List (Instr L)}
    (htext : w.program.text l = .add w.counter w.counter (.imm 1) :: .qbne l ⟨w.counter, q⟩ b :: is)
    (hq : q.lo = 0) (hmarks : ∀ d, w.marks l d = [])
    (hb : ∀ {d'}, Keeps [w.counter, R30] d d' → b.val d' = b.val d)
    (hlt : (b.val d).toNat < 2 ^ q.width) {n : ℕ}
    (hn : n = laps q.width (d.read ⟨w.counter, q⟩).toNat (b.val d).toNat) :
    Does w.program w.see ⟨l, 0, d⟩ (List.replicate n (.count (pin w.bit d)))
      ⟨l, 2, d.write w.counter (d.read w.counter + .ofNat 32 n)⟩ := by
  have hadd : (w.program.text l)[0]? = some (.add w.counter w.counter (.imm 1)) := by
    rw [htext]
    rfl
  have hqbne : (w.program.text l)[1]? = some (.qbne l ⟨w.counter, q⟩ b) := by
    rw [htext]
    rfl
  have hloop := Does.countLoop (o := w.see) (e := [.count (pin w.bit d)]) hadd hqbne hq
    (fun v => hb (.write (by simp) d v)) hlt (fun v => ?_) (fun v => ?_) hn
  · simpa using hloop
  · rw [see_eq hadd fun _ => hmarks _, observe_add, pin_write_counter]
  · rw [see_eq hqbne (by simp)]
    exact observe_of_quiet rfl _

end Watch

/-! ## The pulse -/

/-- The blocks of a pulse: the pin is set, the counter is incremented up to the one
bound, the pin is cleared, and the counter is incremented up to the other. -/
structure PulseLoop (w : Watch L μ) where
  start : L
  high : L
  low : L
  onPart : Part
  totalPart : Part
  on : Op
  total : Op
  nops : ℕ
  rest : List (Instr L)
  text_start : w.program.text start = [.set R30 R30 w.bit]
  next_start : w.program.next start = some high
  text_high : w.program.text high = .add w.counter w.counter (.imm 1) ::
    .qbne high ⟨w.counter, onPart⟩ on :: (List.replicate nops .nop ++ [.clr R30 R30 w.bit])
  next_high : w.program.next high = some low
  text_low : w.program.text low = .add w.counter w.counter (.imm 1) ::
    .qbne low ⟨w.counter, totalPart⟩ total :: rest
  onPart_lo : onPart.lo = 0
  totalPart_lo : totalPart.lo = 0
  marks_high : ∀ d, w.marks high d = []
  marks_low : ∀ d, w.marks low d = []
  on_keeps : ∀ {d d'}, Keeps [w.counter, R30] d d' → on.val d' = on.val d
  total_keeps : ∀ {d d'}, Keeps [w.counter, R30] d d' → total.val d' = total.val d

namespace PulseLoop

variable {w : Watch L μ} (P : PulseLoop w)

theorem effects_nops (n : ℕ) (d : Data) :
    Instr.effects (List.replicate n (.nop : Instr L)) d = d := by
  induction n with
  | zero => rfl
  | succ n ih => exact ih

/-- The pin is set. -/
theorem does_set (d : Data) :
    Does w.program w.see ⟨P.start, 0, d⟩
      ((w.marks P.start d).map .mark ++ edge (pin w.bit d) true)
      ⟨P.high, 0, d.write R30 (d.read R30 ||| (1 : Word) <<< w.bit.val)⟩ := by
  have hset : (w.program.text P.start)[0]? = some (.set R30 R30 w.bit) := by
    rw [P.text_start]
    rfl
  have hend : (w.program.text P.start)[1]? = none := by
    rw [P.text_start]
    rfl
  have hsee : w.see ⟨P.start, 0, d⟩ =
      (w.marks P.start d).map .mark ++ edge (pin w.bit d) true := by
    simp only [Watch.see, Program.fetch, hset, if_true, Option.map_some, Option.getD_some,
      Watch.observe, Instr.effect, pin_set]
    rfl
  simpa [Instr.effect] using Does.head (Program.step_next hset rfl rfl) hsee
    (Watch.fallThrough hend P.next_start one_ne_zero)

/-- The pin is cleared, some instructions after the loop. -/
theorem does_clr (d : Data) :
    Does w.program w.see ⟨P.high, 2, d⟩ (edge (pin w.bit d) false)
      ⟨P.low, 0, d.write R30 (d.read R30 &&& ~~~((1 : Word) <<< w.bit.val))⟩ := by
  have hcode : (w.program.text P.high).drop 2 =
      List.replicate P.nops .nop ++ [.clr R30 R30 w.bit] := by
    rw [P.text_high]
    rfl
  have hnops := Watch.straight (w := w) _ hcode (by simp [Instr.plain])
    (by simp [Watch.quiet, Instr.increments, Instr.writes]) (by simp) d
  rw [effects_nops, List.length_replicate] at hnops
  have hclr : (w.program.text P.high)[2 + P.nops]? = some (.clr R30 R30 w.bit) := by
    rw [← List.getElem?_drop, hcode]
    simp
  have hend : (w.program.text P.high)[2 + P.nops + 1]? = none := by
    rw [Nat.add_assoc, ← List.getElem?_drop, hcode]
    simp
  have hsee : w.see ⟨P.high, 2 + P.nops, d⟩ = edge (pin w.bit d) false := by
    rw [Watch.see_eq hclr (by simp), Watch.observe, Instr.effect, pin_clr]
    rfl
  simpa [Instr.effect] using hnops.trans (Does.head (Program.step_next hclr rfl rfl) hsee
    (Watch.fallThrough hend P.next_high (Nat.succ_ne_zero _)))

/-- **The pulse.**  From a counter at zero, the increments while the pin is high are
the laps to the one bound, those while it is low the laps from there to the other. -/
theorem does {d : Data} (hzero : d.read w.counter = 0)
    (hon : (P.on.val d).toNat < 2 ^ P.onPart.width)
    (htotal : (P.total.val d).toNat < 2 ^ P.totalPart.width) {n m : ℕ}
    (hn : n = laps P.onPart.width 0 (P.on.val d).toNat)
    (hm : m = laps P.totalPart.width (n % 2 ^ P.totalPart.width) (P.total.val d).toNat) :
    ∃ d', Does w.program w.see ⟨P.start, 0, d⟩
        (pulseSeen (w.marks P.start d) (pin w.bit d) n m) ⟨P.low, 2, d'⟩ ∧
      Keeps [w.counter, R30] d d' ∧ pin w.bit d' = false := by
  have hset := P.does_set d
  set d₀ := d.write R30 (d.read R30 ||| (1 : Word) <<< w.bit.val) with hd₀
  have hk₀ : Keeps [w.counter, R30] d d₀ := .write (by simp) d _
  have hcounter₀ : d₀.read w.counter = 0 :=
    (d.read_write_of_apart _ (.inl w.counter_ne.symm)).trans hzero
  have hpin₀ : pin w.bit d₀ = true := pin_set w.bit d
  -- the first loop
  have hhigh := Watch.countLoop (d := d₀) (n := n) P.text_high P.onPart_lo P.marks_high
    (fun hk => (P.on_keeps (hk₀.trans hk)).trans (P.on_keeps hk₀).symm)
    (by rw [P.on_keeps hk₀]; exact hon)
    (by rw [toNat_read_low P.onPart_lo, hcounter₀, P.on_keeps hk₀, hn]; simp)
  rw [hpin₀, hcounter₀] at hhigh
  set d₁ := d₀.write w.counter (0 + .ofNat 32 n) with hd₁
  have hk₁ : Keeps [w.counter, R30] d d₁ := hk₀.trans (.write (by simp) d₀ _)
  have hpin₁ : pin w.bit d₁ = true := (w.pin_write_counter d₀ _).trans hpin₀
  -- the pin is cleared
  have hclr := P.does_clr d₁
  rw [hpin₁] at hclr
  set d₂ := d₁.write R30 (d₁.read R30 &&& ~~~((1 : Word) <<< w.bit.val)) with hd₂
  have hk₂ : Keeps [w.counter, R30] d d₂ := hk₁.trans (.write (by simp) d₁ _)
  have hcounter₂ : (d₂.read ⟨w.counter, P.totalPart⟩).toNat = n % 2 ^ P.totalPart.width := by
    have hdvd : 2 ^ P.totalPart.width ∣ 2 ^ 32 := by
      have := P.totalPart.lo_add_width_le
      exact pow_dvd_pow 2 (by omega)
    rw [toNat_read_low P.totalPart_lo, hd₂, Data.read_write_of_apart d₁ _
      (.inl w.counter_ne.symm), hd₁, Data.read_write_reg, BitVec.toNat_add, BitVec.toNat_ofNat,
      Nat.add_mod_mod, Nat.mod_mod_of_dvd _ hdvd]
    simp
  have hpin₂ : pin w.bit d₂ = false := pin_clr w.bit d₁
  -- the second loop
  have hlow := Watch.countLoop (d := d₂) (n := m) P.text_low P.totalPart_lo P.marks_low
    (fun hk => (P.total_keeps (hk₂.trans hk)).trans (P.total_keeps hk₂).symm)
    (by rw [P.total_keeps hk₂]; exact htotal)
    (by rw [hcounter₂, P.total_keeps hk₂, hm])
  rw [hpin₂] at hlow
  have hall := ((hset.trans hhigh).trans hclr).trans hlow
  refine ⟨_, by simpa [pulseSeen, edge] using hall, hk₂.trans (.write (by simp) d₂ _), ?_⟩
  exact (w.pin_write_counter d₂ _).trans hpin₂

/-- The counter is cleared, and a block begins again. -/
theorem does_back {back : L} {r : List (Instr L)}
    (hrest : P.rest = .sub w.counter w.counter w.counter :: .qba back :: r) (d : Data) :
    Does w.program w.see ⟨P.low, 2, d⟩ [] ⟨back, 0, d.write w.counter 0⟩ := by
  have hcode : (w.program.text P.low).drop 2 =
      [.sub w.counter w.counter w.counter] ++ .qba back :: r := by
    rw [P.text_low, hrest]
    rfl
  have hqba : (w.program.text P.low)[3]? = some (.qba back) := by
    rw [P.text_low, hrest]
    rfl
  have hquiet : w.quiet (.sub w.counter w.counter w.counter : Instr L) = true := by
    simp [Watch.quiet, Instr.increments, Instr.writes, w.counter_ne.symm]
  have hclear := Watch.straight (w := w) _ hcode rfl (by simpa using hquiet) (by simp) d
  have hjump := Watch.jump (w := w) (d := d.write w.counter (d.read w.counter - d.read w.counter))
    hqba rfl (by simp) rfl rfl
  have hall := hclear.trans hjump
  rwa [BitVec.sub_self] at hall

/-- A pulse after which a block begins again. -/
theorem does_and_back {back : L} {r : List (Instr L)}
    (hrest : P.rest = .sub w.counter w.counter w.counter :: .qba back :: r) {d : Data}
    (hzero : d.read w.counter = 0) (hon : (P.on.val d).toNat < 2 ^ P.onPart.width)
    (htotal : (P.total.val d).toNat < 2 ^ P.totalPart.width) {n m : ℕ}
    (hn : n = laps P.onPart.width 0 (P.on.val d).toNat)
    (hm : m = laps P.totalPart.width (n % 2 ^ P.totalPart.width) (P.total.val d).toNat) :
    ∃ d', Does w.program w.see ⟨P.start, 0, d⟩
        (pulseSeen (w.marks P.start d) (pin w.bit d) n m) ⟨back, 0, d'⟩ ∧
      Keeps [w.counter, R30] d d' ∧ d'.read w.counter = 0 ∧ pin w.bit d' = false := by
  obtain ⟨d₁, hpulse, hk, hlow⟩ := P.does hzero hon htotal hn hm
  have hall := hpulse.trans (P.does_back hrest d₁)
  rw [List.append_nil] at hall
  refine ⟨_, hall, hk.trans (.write (by simp) d₁ _), d₁.read_write_reg _ _, ?_⟩
  rw [w.pin_write_counter, hlow]

end PulseLoop

/-! ## Seeing less -/

theorem Does.filterMap {ω ω' : Type} {p : Program L} {see : State L → List ω} {s t : State L}
    {es : List ω} (f : ω → Option ω') (h : Does p see s es t) :
    Does p (fun s => (see s).filterMap f) s (es.filterMap f) t := by
  obtain ⟨ess, hrun, rfl⟩ := h
  refine ⟨ess.map (List.filterMap f), ?_, ?_⟩
  · induction hrun with
    | nil s => exact .nil s
    | cons hstep _ ih => exact .cons ⟨by rw [hstep.1], hstep.2⟩ ih
  · rw [List.filterMap_flatten]

end PruIsa
