import PrussBindings.Firmware.MultichannelPwm

/-!
# The C program and the assembly program

`example5-multichannel-pwm/multich-pwm-c/multi.c` goes through the channels in a loop
with arrays; `PRU0/pru-asm-pwm.asm` has a copy of the loop body for each channel, with
the counters and their reload values in the halves of registers.

* `Multi`, `Multi.channel`, `Multi.loop` — the C program.
* `Matches` — a state of the one, and the registers of the other.
* `does_channel` — a pass through one copy is a pass of the loop body; `does_loop` — four
  of them are an iteration.
* `refines` — **after any number of iterations the pins and the counters agree**.
-/

namespace MultichannelPwm

open PruIsa

/-! ## The C program -/

/-- `onCount`, `offCount` and `__R30`. -/
structure Multi where
  onCount : Fin 4 → Word
  offCount : Fin 4 → Word
  r30 : Word

namespace Multi

variable (on off : Fin 4 → Word)

/-- The counters are initialised. -/
def start (r30 : Word) : Multi := ⟨on, off, r30⟩

/-- The body of the loop over the channels. -/
def channel (s : Multi) (ch : Fin 4) : Multi :=
  if s.onCount ch ≠ 0 then
    { s with
      onCount := Function.update s.onCount ch (s.onCount ch - 1)
      r30 := s.r30 ||| (1 : Word) <<< ch.val }
  else if s.offCount ch ≠ 0 then
    { s with
      offCount := Function.update s.offCount ch (s.offCount ch - 1)
      r30 := s.r30 &&& ~~~((1 : Word) <<< ch.val) }
  else
    { s with
      onCount := Function.update s.onCount ch (on ch)
      offCount := Function.update s.offCount ch (off ch) }

/-- An iteration of `while (1)`. -/
def loop (s : Multi) : Multi := (List.finRange 4).foldl (channel on off) s

end Multi

/-! ## The registers -/

variable {on off onCount offCount : Fin 4 → Word} {d : Data}

/-- A value that fits a half of a register. -/
theorem setWidth_half {v : Word} (hv : v.toNat < 2 ^ 16) : (v.setWidth 16).setWidth 32 = v := by
  apply BitVec.eq_of_toNat_eq
  simp
  omega

/-- The fields of the channels do not overlap. -/
theorem on_apart : ∀ c c' : Fin 4, (onReg c).w0.Apart (onReg c').w2 ∧
    (onReg c).w0.Apart (offReg c').w2 ∧ (onReg c).w0.Apart (offReg c').w0 ∧
    (c ≠ c' → (onReg c).w0.Apart (onReg c').w0) := by
  decide

theorem off_apart : ∀ c c' : Fin 4, (offReg c).w0.Apart (onReg c').w2 ∧
    (offReg c).w0.Apart (offReg c').w2 ∧ (offReg c).w0.Apart (onReg c').w0 ∧
    (c ≠ c' → (offReg c).w0.Apart (offReg c').w0) := by
  decide

theorem pins_apart : ∀ c : Fin 4, (onReg c).w0.Apart R30 ∧ (offReg c).w0.Apart R30 ∧
    onReg c ≠ R30 ∧ offReg c ≠ R30 := by
  decide

namespace Holds

theorem write_onCount (h : Holds on off onCount offCount d) (c : Fin 4) {v : Word}
    (hv : v.toNat < 2 ^ 16) :
    Holds on off (Function.update onCount c v) offCount (d.write (onReg c).w0 v) where
  on c' := (d.read_write_of_apart v (on_apart c c').1).trans (h.on c')
  off c' := (d.read_write_of_apart v (on_apart c c').2.1).trans (h.off c')
  offCount c' := (d.read_write_of_apart v (on_apart c c').2.2.1).trans (h.offCount c')
  onCount c' := by
    by_cases hc : c' = c
    · subst hc
      rw [Function.update_self, Data.read_write_self]
      exact setWidth_half hv
    · rw [Function.update_of_ne hc, ← h.onCount c']
      exact d.read_write_of_apart v ((on_apart c c').2.2.2 (Ne.symm hc))

theorem write_offCount (h : Holds on off onCount offCount d) (c : Fin 4) {v : Word}
    (hv : v.toNat < 2 ^ 16) :
    Holds on off onCount (Function.update offCount c v) (d.write (offReg c).w0 v) where
  on c' := (d.read_write_of_apart v (off_apart c c').1).trans (h.on c')
  off c' := (d.read_write_of_apart v (off_apart c c').2.1).trans (h.off c')
  onCount c' := (d.read_write_of_apart v (off_apart c c').2.2.1).trans (h.onCount c')
  offCount c' := by
    by_cases hc : c' = c
    · subst hc
      rw [Function.update_self, Data.read_write_self]
      exact setWidth_half hv
    · rw [Function.update_of_ne hc, ← h.offCount c']
      exact d.read_write_of_apart v ((off_apart c c').2.2.2 (Ne.symm hc))

theorem write_pins (h : Holds on off onCount offCount d) (v : Word) :
    Holds on off onCount offCount (d.write R30 v) := by
  have hon : ∀ c, R30 ≠ onReg c := fun c => (pins_apart c).2.2.1.symm
  have hoff : ∀ c, R30 ≠ offReg c := fun c => (pins_apart c).2.2.2.symm
  constructor
  · exact fun c => (d.read_write_of_apart v (.inl (hon c))).trans (h.on c)
  · exact fun c => (d.read_write_of_apart v (.inl (hoff c))).trans (h.off c)
  · exact fun c => (d.read_write_of_apart v (.inl (hon c))).trans (h.onCount c)
  · exact fun c => (d.read_write_of_apart v (.inl (hoff c))).trans (h.offCount c)

end Holds

/-- The registers of the assembly program match a state of the C program. -/
structure Matches (on off : Fin 4 → Word) (d : Data) (s : Multi) : Prop where
  holds : Holds on off s.onCount s.offCount d
  pins : d.read R30 = s.r30

/-! ## A pass through one copy -/

/-- What is seen where a copy begins. -/
def seen (c : Fin 4) : List Unit := if c = 0 then [()] else []

theorem see_branchIf (c : Fin 4) (d : Data) : see ⟨.branchIf c, 0, d⟩ = seen c := by
  simp [see, seen]

theorem see_later (l : Label) (n : ℕ) (d : Data) : see ⟨l, n + 1, d⟩ = [] := by
  simp [see]

/-- The `on` counter is at work. -/
theorem does_if {c : Fin 4} (h : d.read (onReg c).w0 ≠ 0) :
    Does program see ⟨.branchIf c, 0, d⟩ (seen c) ⟨.branchIf (c + 1), 0,
      (d.write (onReg c).w0 (d.read (onReg c).w0 - 1)).write R30
        (d.read R30 ||| (1 : Word) <<< c.val)⟩ := by
  have hpass : Does program see ⟨.branchIf c, 0, d⟩ (seen c) ⟨.branchIf c, 1, d⟩ :=
    .pass (i := .qbeq (.branchElif c) (onReg c).w0 (.imm 0)) rfl rfl (if_neg h) (see_branchIf c d)
  have hset := Does.straight (p := program) (o := see) (l := .branchIf c) (n := 1) (d := d)
    [.sub (onReg c).w0 (onReg c).w0 (.imm 1), .set R30 R30 (pinOf c)] rfl rfl
    (fun k d' _ => by rw [Nat.add_comm]; exact see_later _ k d')
  have hjump : ∀ d, Does program see ⟨.branchIf c, 3, d⟩ [] ⟨.branchIf (c + 1), 0, d⟩ := fun d =>
    .jump (i := .qba (.branchIf (c + 1))) rfl rfl rfl (see_later _ 2 d)
  have heffects : Instr.effects (L := Label)
      [.sub (onReg c).w0 (onReg c).w0 (.imm 1), .set R30 R30 (pinOf c)] d =
      (d.write (onReg c).w0 (d.read (onReg c).w0 - 1)).write R30
        (d.read R30 ||| (1 : Word) <<< c.val) := by
    rw [Instr.effects_cons, Instr.effects_cons, Instr.effects_nil, Instr.effect, Instr.effect,
      d.read_write_of_apart _ (pins_apart c).1]
    rfl
  rw [heffects] at hset
  simpa only [List.append_nil] using hpass.trans (hset.trans (hjump _))

/-- The `on` counter is at its end. -/
theorem does_skip_if {c : Fin 4} (h : d.read (onReg c).w0 = 0) :
    Does program see ⟨.branchIf c, 0, d⟩ (seen c) ⟨.branchElif c, 0, d⟩ :=
  .jump (i := .qbeq (.branchElif c) (onReg c).w0 (.imm 0)) rfl rfl (if_pos h) (see_branchIf c d)

/-- The `off` counter is at work. -/
theorem does_elif {c : Fin 4} (h : d.read (offReg c).w0 ≠ 0) :
    Does program see ⟨.branchElif c, 0, d⟩ [] ⟨.branchIf (c + 1), 0,
      (d.write (offReg c).w0 (d.read (offReg c).w0 - 1)).write R30
        (d.read R30 &&& ~~~((1 : Word) <<< c.val))⟩ := by
  have hpass : Does program see ⟨.branchElif c, 0, d⟩ [] ⟨.branchElif c, 1, d⟩ :=
    .pass (i := .qbeq (.branchElse c) (offReg c).w0 (.imm 0)) rfl rfl (if_neg h) (by simp [see])
  have hclr := Does.straight (p := program) (o := see) (l := .branchElif c) (n := 1) (d := d)
    [.sub (offReg c).w0 (offReg c).w0 (.imm 1), .clr R30 R30 (pinOf c)] rfl rfl
    (fun k d' _ => by simp [see])
  have hjump : ∀ d, Does program see ⟨.branchElif c, 3, d⟩ [] ⟨.branchIf (c + 1), 0, d⟩ := fun d =>
    .jump (i := .qba (.branchIf (c + 1))) rfl rfl rfl (see_later _ 2 d)
  have heffects : Instr.effects (L := Label)
      [.sub (offReg c).w0 (offReg c).w0 (.imm 1), .clr R30 R30 (pinOf c)] d =
      (d.write (offReg c).w0 (d.read (offReg c).w0 - 1)).write R30
        (d.read R30 &&& ~~~((1 : Word) <<< c.val)) := by
    rw [Instr.effects_cons, Instr.effects_cons, Instr.effects_nil, Instr.effect, Instr.effect,
      d.read_write_of_apart _ (pins_apart c).2.1]
    rfl
  rw [heffects] at hclr
  exact hpass.trans (hclr.trans (hjump _))

/-- Both counters are at their ends. -/
theorem does_else {c : Fin 4} (h : d.read (offReg c).w0 = 0) :
    Does program see ⟨.branchElif c, 0, d⟩ [] ⟨.branchIf (c + 1), 0,
      (d.write (onReg c).w0 (d.read (onReg c).w2)).write (offReg c).w0 (d.read (offReg c).w2)⟩ := by
  have hskip : Does program see ⟨.branchElif c, 0, d⟩ [] ⟨.branchElse c, 0, d⟩ :=
    .jump (i := .qbeq (.branchElse c) (offReg c).w0 (.imm 0)) rfl rfl (if_pos h) (by simp [see])
  have hmov := Does.straight (p := program) (o := see) (l := .branchElse c) (n := 0) (d := d)
    (r := if c = 3 then [.qba .startif] else [])
    [.mov (onReg c).w0 (onReg c).w2, .mov (offReg c).w0 (offReg c).w2] rfl rfl
    (fun k d' _ => by simp [see])
  have hnext : ∀ d, Does program see ⟨.branchElse c, 2, d⟩ [] ⟨.branchIf (c + 1), 0, d⟩ := by
    intro d
    by_cases hc : c = 3
    · subst hc
      exact .jump (i := .qba .startif) rfl rfl rfl (by simp [see])
    · refine .fallThrough ?_ ?_ (by simp [see])
      · simp [program, text, hc]
      · simp [program, next, hc]
  have heffects : Instr.effects (L := Label)
      [.mov (onReg c).w0 (onReg c).w2, .mov (offReg c).w0 (offReg c).w2] d =
      (d.write (onReg c).w0 (d.read (onReg c).w2)).write (offReg c).w0 (d.read (offReg c).w2) := by
    rw [Instr.effects_cons, Instr.effects_cons, Instr.effects_nil, Instr.effect, Instr.effect,
      d.read_write_of_apart _ (on_apart c c).2.1]
  rw [heffects] at hmov
  exact hskip.trans (hmov.trans (hnext _))

theorem pred_lt {v : Word} (hv : v.toNat < 2 ^ 16) (hne : v ≠ 0) : (v - 1).toNat < 2 ^ 16 := by
  bv_omega

/-- **A pass through one copy is a pass of the loop body.** -/
theorem does_channel {s : Multi} (h : Matches on off d s) (c : Fin 4) :
    ∃ d', Does program see ⟨.branchIf c, 0, d⟩ (seen c) ⟨.branchIf (c + 1), 0, d'⟩ ∧
      Matches on off d' (s.channel on off c) := by
  have hread := h.holds.onCount c
  have hread' := h.holds.offCount c
  have hlt : (s.onCount c).toNat < 2 ^ 16 := hread ▸ d.toNat_read_lt (onReg c).w0
  have hlt' : (s.offCount c).toNat < 2 ^ 16 := hread' ▸ d.toNat_read_lt (offReg c).w0
  by_cases hon : s.onCount c = 0
  · have hskip := does_skip_if (hread.trans hon)
    by_cases hoff : s.offCount c = 0
    · have hchannel : s.channel on off c = { s with
          onCount := Function.update s.onCount c (on c)
          offCount := Function.update s.offCount c (off c) } := by
        rw [Multi.channel, if_neg (not_not.2 hon), if_neg (not_not.2 hoff)]
      have hreload : (on c).toNat < 2 ^ 16 := h.holds.on c ▸ d.toNat_read_lt (onReg c).w2
      have hreload' : (off c).toNat < 2 ^ 16 := h.holds.off c ▸ d.toNat_read_lt (offReg c).w2
      have hdoes := hskip.trans (does_else (hread'.trans hoff))
      rw [List.append_nil] at hdoes
      refine ⟨_, hdoes, ?_⟩
      rw [hchannel, h.holds.on, h.holds.off]
      refine ⟨(h.holds.write_onCount c hreload).write_offCount c hreload', ?_⟩
      rw [Data.read_write_of_apart _ _ (pins_apart c).2.1,
        Data.read_write_of_apart _ _ (pins_apart c).1]
      exact h.pins
    · have hchannel : s.channel on off c = { s with
          offCount := Function.update s.offCount c (s.offCount c - 1)
          r30 := s.r30 &&& ~~~((1 : Word) <<< c.val) } := by
        rw [Multi.channel, if_neg (not_not.2 hon), if_pos hoff]
      have hdoes := does_elif (c := c) (d := d) (hread'.symm ▸ hoff)
      rw [hread', h.pins] at hdoes
      refine ⟨_, by simpa only [List.append_nil] using hskip.trans hdoes, ?_⟩
      rw [hchannel]
      refine ⟨(h.holds.write_offCount c (pred_lt hlt' hoff)).write_pins _, ?_⟩
      exact Data.read_write_reg _ _ _
  · have hchannel : s.channel on off c = { s with
        onCount := Function.update s.onCount c (s.onCount c - 1)
        r30 := s.r30 ||| (1 : Word) <<< c.val } := by
      rw [Multi.channel, if_pos hon]
    have hdoes := does_if (c := c) (d := d) (hread.symm ▸ hon)
    rw [hread, h.pins] at hdoes
    refine ⟨_, hdoes, ?_⟩
    rw [hchannel]
    refine ⟨(h.holds.write_onCount c (pred_lt hlt hon)).write_pins _, ?_⟩
    exact Data.read_write_reg _ _ _

/-- An iteration. -/
theorem does_loop {s : Multi} (h : Matches on off d s) :
    ∃ d', Does program see ⟨.startif, 0, d⟩ [()] ⟨.startif, 0, d'⟩ ∧
      Matches on off d' (s.loop on off) := by
  obtain ⟨d₁, h₁, hm₁⟩ := does_channel h 0
  obtain ⟨d₂, h₂, hm₂⟩ := does_channel hm₁ 1
  obtain ⟨d₃, h₃, hm₃⟩ := does_channel hm₂ 2
  obtain ⟨d₄, h₄, hm₄⟩ := does_channel hm₃ 3
  exact ⟨d₄, ((h₁.trans h₂).trans h₃).trans h₄, hm₄⟩

/-! ## The whole run -/

/-- A pass of the loop body leaves the other pins alone. -/
theorem channel_r30 (s : Multi) (c : Fin 4) {i : ℕ} (hi : 4 ≤ i) :
    (s.channel on off c).r30.getLsbD i = s.r30.getLsbD i := by
  have hbit : ((1 : Word) <<< c.val).getLsbD i = false := by
    have hne : i - c.val ≠ 0 := by omega
    simp [hne]
  unfold Multi.channel
  split_ifs
  · rw [BitVec.getLsbD_or, hbit, Bool.or_false]
  · rw [BitVec.getLsbD_and, BitVec.getLsbD_not, hbit]
    by_cases hlt : i < 32
    · simp only [hlt, decide_true, Bool.not_false, Bool.and_self, Bool.and_true]
    · rw [BitVec.getLsbD_of_ge s.r30 i (by omega), Bool.false_and]
  · rfl

theorem iterate_loop_r30 (s : Multi) (k : ℕ) {i : ℕ} (hi : 4 ≤ i) :
    ((Multi.loop on off)^[k] s).r30.getLsbD i = s.r30.getLsbD i := by
  induction k generalizing s with
  | zero => rfl
  | succ k ih =>
    rw [Function.iterate_succ_apply, ih]
    simp only [Multi.loop, List.finRange_succ, List.finRange_zero, List.map_cons, List.map_nil,
      List.foldl_cons, List.foldl_nil, channel_r30 _ _ hi]

/-- The iterations of the one are those of the other. -/
theorem does_iterations (d : Data) (k : ℕ) :
    ∃ d', Does program see ⟨.setup, 0, d⟩ (List.replicate k ()) ⟨.startif, 0, d'⟩ ∧
      Matches (onByte d) (offByte d) d'
        ((Multi.loop (onByte d) (offByte d))^[k] (.start (onByte d) (offByte d) (d.read R30))) := by
  induction k with
  | zero =>
    obtain ⟨d', hdoes, hholds, hpins⟩ := does_setup d
    exact ⟨d', hdoes, hholds, hpins⟩
  | succ k ih =>
    obtain ⟨d₁, hdoes, hm⟩ := ih
    obtain ⟨d', hloop, hm'⟩ := does_loop hm
    refine ⟨d', ?_, ?_⟩
    · rw [List.replicate_succ']
      exact hdoes.trans hloop
    · rw [Function.iterate_succ_apply']
      exact hm'

/-- **After any number of iterations the pins and the counters agree**, and no other bit of
`R30` has been changed by either. -/
theorem refines (d : Data) (k : ℕ) :
    ∃ d', Does program see ⟨.setup, 0, d⟩ (List.replicate k ()) ⟨.startif, 0, d'⟩ ∧
      let s := (Multi.loop (onByte d) (offByte d))^[k] (.start (onByte d) (offByte d) (d.read R30))
      (∀ c : Fin 4, (d'.read R30).getLsbD c = s.r30.getLsbD c ∧
        d'.read (onReg c).w0 = s.onCount c ∧ d'.read (offReg c).w0 = s.offCount c) ∧
      ∀ i, 4 ≤ i → (d'.read R30).getLsbD i = (d.read R30).getLsbD i ∧
        s.r30.getLsbD i = (d.read R30).getLsbD i := by
  obtain ⟨d', hdoes, hm⟩ := does_iterations d k
  refine ⟨d', hdoes, fun c => ⟨?_, hm.holds.onCount c, hm.holds.offCount c⟩, fun i hi => ⟨?_, ?_⟩⟩
  · rw [hm.pins]
  · rw [hm.pins]
    exact iterate_loop_r30 _ k hi
  · exact iterate_loop_r30 _ k hi

end MultichannelPwm
