import PrussBindings.Lib.PruIsa
import PrussBindings.Lib.Transition

/-!
# Runs of a PRU listing

What a core does is told by what an observer sees of the states it passes
through.  `Does p o s es t` says that the core gets from `s` to `t`, and that the
observer sees `es` on the way; since a core leaves no choice, it says so of the one
run there is.

* `Does.head`, `Does.trans` — runs are put together instruction by instruction
  and one after the other.
* `Does.split` — **of two runs from one state one is the beginning of the
  other**; `Does.eq_of_stopped`, `Does.prefix_or` say what the observer knows of it.
* `Does.straight`, `Does.skip` — the instructions of a block before its first branch,
  and a branch over the rest of it; `Does.clamp`, `Does.countCheck` — two common
  blocks.
* `Does.pieces` — pieces of a run that keep an invariant.
* `laps` — how often a counter of `w` bits is incremented until it is `b`;
  `Does.countLoop` — **the counting loop**: it is left after `laps` rounds, whatever
  the counter and the bound are.
* `Does.pieces_unique` — two ways of telling a run in pieces.
-/

namespace PruIsa

open Transition

variable {L ω : Type}

/-- An instruction and what is seen of the state before it. -/
def Program.Exec (p : Program L) (o : State L → List ω) (s : State L) (e : List ω)
    (t : State L) : Prop :=
  e = o s ∧ p.step s = some t

/-- The core gets from the one state to the other, and the observer sees the list on
the way. -/
def Does (p : Program L) (o : State L → List ω) (s : State L) (es : List ω) (t : State L) :
    Prop :=
  ∃ ess, Run (p.Exec o) s ess t ∧ ess.flatten = es

variable {p : Program L} {o : State L → List ω} {s t u : State L} {e es es' : List ω}

namespace Does

theorem refl (s : State L) : Does p o s [] s := ⟨[], .nil s, rfl⟩

theorem trans (h : Does p o s es t) (h' : Does p o t es' u) : Does p o s (es ++ es') u := by
  obtain ⟨ess, hrun, rfl⟩ := h
  obtain ⟨ess', hrun', rfl⟩ := h'
  exact ⟨ess ++ ess', run_append_iff.2 ⟨t, hrun, hrun'⟩, List.flatten_append⟩

theorem head (hstep : p.step s = some t) (hsee : o s = e) (h : Does p o t es u) :
    Does p o s (e ++ es) u := by
  obtain ⟨ess, hrun, rfl⟩ := h
  exact ⟨e :: ess, .cons ⟨hsee.symm, hstep⟩ hrun, rfl⟩

/-- An instruction of which nothing is seen. -/
theorem silent (hstep : p.step s = some t) (hsee : o s = []) (h : Does p o t es u) :
    Does p o s es u := by
  simpa using head hstep hsee h

theorem single (hstep : p.step s = some t) (hsee : o s = e) : Does p o s e t := by
  simpa using head hstep hsee (refl t)

section Instr

variable {l l' : L} {n : ℕ} {d : Data} {i : Instr L}

/-- A branch that is taken. -/
theorem jump (hfetch : (p.text l)[n]? = some i) (hleaves : i.leaves = false)
    (htarget : i.target d = some l') (hsee : o ⟨l, n, d⟩ = e) :
    Does p o ⟨l, n, d⟩ e ⟨l', 0, d⟩ :=
  single (Program.step_taken hfetch hleaves htarget) hsee

/-- A branch that is not taken, or another instruction. -/
theorem pass (hfetch : (p.text l)[n]? = some i) (hleaves : i.leaves = false)
    (htarget : i.target d = none) (hsee : o ⟨l, n, d⟩ = e) :
    Does p o ⟨l, n, d⟩ e ⟨l, n + 1, i.effect d⟩ :=
  single (Program.step_next hfetch hleaves htarget) hsee

/-- The end of a block. -/
theorem fallThrough (hend : (p.text l)[n]? = none) (hnext : p.next l = some l')
    (hsee : o ⟨l, n, d⟩ = e) : Does p o ⟨l, n, d⟩ e ⟨l', 0, d⟩ :=
  single (Program.step_end hend hnext) hsee

end Instr

/-! ## The one run there is -/

/-- **Of two runs from one state one is the beginning of the other.** -/
theorem split (h : Does p o s es t) (h' : Does p o s es' u) :
    (∃ rest, es' = es ++ rest ∧ Does p o t rest u) ∨
      ∃ rest, es = es' ++ rest ∧ Does p o u rest t := by
  obtain ⟨ess, hrun, rfl⟩ := h
  obtain ⟨ess', hrun', rfl⟩ := h'
  induction hrun generalizing ess' with
  | nil s => exact .inl ⟨ess'.flatten, rfl, ess', hrun', rfl⟩
  | @cons s s₁ t e ess hstep hrun ih =>
    cases hrun' with
    | nil => exact .inr ⟨(e :: ess).flatten, rfl, e :: ess, .cons hstep hrun, rfl⟩
    | @cons _ s₂ _ e' ess' hstep' hrun' =>
      obtain ⟨rfl, hstep⟩ := hstep
      obtain ⟨rfl, hstep'⟩ := hstep'
      obtain rfl : s₁ = s₂ := Option.some.inj (hstep.symm.trans hstep')
      rcases ih ess' hrun' with ⟨rest, heq, hrest⟩ | ⟨rest, heq, hrest⟩
      · exact .inl ⟨rest, by simp [heq], hrest⟩
      · exact .inr ⟨rest, by simp [heq], hrest⟩

/-- A core that has stopped does nothing more. -/
theorem eq_of_stopped (h : Does p o s es t) (hs : p.step s = none) : es = [] ∧ t = s := by
  obtain ⟨ess, hrun, rfl⟩ := h
  cases hrun with
  | nil => exact ⟨rfl, rfl⟩
  | cons hstep _ => exact absurd (hs.symm.trans hstep.2) (by simp)

/-- A core stops in one way. -/
theorem unique_of_stopped (h : Does p o s es t) (ht : p.step t = none)
    (h' : Does p o s es' u) (hu : p.step u = none) : es = es' ∧ t = u := by
  rcases h.split h' with ⟨rest, rfl, hrest⟩ | ⟨rest, rfl, hrest⟩
  · obtain ⟨rfl, rfl⟩ := hrest.eq_of_stopped ht
    simp
  · obtain ⟨rfl, rfl⟩ := hrest.eq_of_stopped hu
    simp

/-- What is seen of a longer run begins with what is seen of a shorter one. -/
theorem prefix_or (h : Does p o s es t) (h' : Does p o s es' u) : es <+: es' ∨ es' <+: es := by
  rcases h.split h' with ⟨rest, rfl, -⟩ | ⟨rest, rfl, -⟩
  · exact .inl (List.prefix_append ..)
  · exact .inr (List.prefix_append ..)

/-- A run of which nothing is seen leaves no state of which something is. -/
theorem eq_of_seen (h : Does p o s [] t) (hs : o s ≠ []) : t = s := by
  obtain ⟨ess, hrun, hnil⟩ := h
  cases hrun with
  | nil => rfl
  | cons hstep _ =>
    rw [List.flatten_cons, List.append_eq_nil_iff] at hnil
    exact absurd (hstep.1.symm.trans hnil.1) hs

/-- Two runs from one state of which the same is seen, up to a state of which something
is seen. -/
theorem unique_of_seen (h : Does p o s es t) (h' : Does p o s es u) (ht : o t ≠ [])
    (hu : o u ≠ []) : t = u := by
  rcases h.split h' with ⟨rest, heq, hrest⟩ | ⟨rest, heq, hrest⟩
  · obtain rfl : rest = [] := by simpa using heq
    exact (hrest.eq_of_seen ht).symm
  · obtain rfl : rest = [] := by simpa using heq
    exact hrest.eq_of_seen hu

/-- Two runs from one state of which equally much is seen. -/
theorem eq_of_length (h : Does p o s es t) (h' : Does p o s es' u)
    (hlen : es.length = es'.length) : es = es' := by
  rcases h.prefix_or h' with hpre | hpre
  · exact hpre.eq_of_length hlen
  · exact (hpre.eq_of_length hlen.symm).symm

/-- Two ways of telling a run in pieces, of which equally much is seen, are one. -/
theorem pieces_unique {f g : ℕ → List ω} {a b : Data → State L}
    (hf : ∀ k, ∃ d, Does p o s ((List.range k).flatMap f) (a d))
    (hg : ∀ k, ∃ d, Does p o s ((List.range k).flatMap g) (b d))
    (hlen : ∀ j, (f j).length = (g j).length) (j : ℕ) : f j = g j := by
  obtain ⟨t, ht⟩ := hf (j + 1)
  obtain ⟨u, hu⟩ := hg (j + 1)
  have heq := ht.eq_of_length hu (by simp only [List.length_flatMap, hlen])
  simp only [List.range_succ, List.flatMap_append, List.flatMap_singleton] at heq
  exact (List.append_inj' heq (hlen j)).2

/-! ## Blocks -/

/-- The instructions of a block up to a branch. -/
theorem straight {l : L} (is : List (Instr L)) {r : List (Instr L)} {n : ℕ} {d : Data}
    (hcode : (p.text l).drop n = is ++ r) (hplain : is.all Instr.plain = true)
    (hsee : ∀ k d', k < is.length → o ⟨l, n + k, d'⟩ = []) :
    Does p o ⟨l, n, d⟩ [] ⟨l, n + is.length, Instr.effects is d⟩ := by
  induction is generalizing n d with
  | nil => exact refl _
  | cons i is ih =>
    rw [List.all_cons, Bool.and_eq_true] at hplain
    have hfetch : (p.text l)[n]? = some i := by
      rw [← Nat.add_zero n, ← List.getElem?_drop, hcode]
      rfl
    have hstep := Program.step_next hfetch (Instr.leaves_of_plain hplain.1)
      (Instr.target_of_plain hplain.1 d)
    refine silent hstep (hsee 0 d (Nat.succ_pos _)) ?_
    have htail : (p.text l).drop (n + 1) = is ++ r := by
      rw [← List.drop_drop, hcode]
      rfl
    rw [List.length_cons, Nat.add_comm is.length, ← Nat.add_assoc]
    refine ih htail hplain.2 fun k d' hk => ?_
    rw [Nat.add_assoc, Nat.add_comm 1]
    exact hsee (k + 1) d' (by simpa using hk)

/-- A branch over the rest of its block to the next one. -/
theorem skip {l l' : L} {i : Instr L} {r : List (Instr L)} {n : ℕ} {d : Data}
    (hcode : (p.text l).drop n = i :: r) (hleaves : i.leaves = false) (heffect : i.effect d = d)
    (hlabel : i.label = some l') (hplain : r.all Instr.plain = true) (hnext : p.next l = some l')
    (hsee : ∀ k d', o ⟨l, n + k, d'⟩ = []) :
    Does p o ⟨l, n, d⟩ [] ⟨l', 0, if i.target d = none then Instr.effects r d else d⟩ := by
  have hfetch : (p.text l)[n]? = some i := by
    rw [← Nat.add_zero n, ← List.getElem?_drop, hcode]
    rfl
  split
  · rename_i hstay
    have htail : (p.text l).drop (n + 1) = r ++ [] := by
      rw [← List.drop_drop, hcode, List.append_nil]
      rfl
    have hend : (p.text l)[n + 1 + r.length]? = none := by
      rw [← List.getElem?_drop, htail, List.append_nil, List.getElem?_eq_none le_rfl]
    have hfirst := pass (o := o) hfetch hleaves hstay (hsee 0 d)
    rw [heffect] at hfirst
    have hrest := straight (o := o) (d := d) r htail hplain fun k d' _ => by
      rw [Nat.add_assoc]
      exact hsee (1 + k) d'
    refine hfirst.trans (hrest.trans (fallThrough hend hnext ?_))
    rw [Nat.add_assoc]
    exact hsee _ _
  · rename_i htaken
    obtain ⟨l'', hl⟩ := Option.ne_none_iff_exists'.1 htaken
    obtain rfl := Option.some.inj (hlabel.symm.trans (Instr.label_of_target hl))
    exact jump hfetch hleaves hl (hsee 0 d)

/-- A field that is not above one bound is set to a value, and then, if it is not below
another bound, to another value. -/
theorem clamp {l l₁ l₂ : L} {n a b c e : ℕ} {f : Field} {d : Data}
    (hlow : (p.text l).drop n = [.qblt l₁ f (.imm (.ofNat 8 a)), .ldi f (.ofNat 16 b)])
    (hnext : p.next l = some l₁)
    (hhigh : p.text l₁ = [.qbgt l₂ f (.imm (.ofNat 8 c)), .ldi f (.ofNat 16 e)])
    (hnext₁ : p.next l₁ = some l₂) (hsee : ∀ k d', o ⟨l, n + k, d'⟩ = [])
    (hsee₁ : ∀ k d', o ⟨l₁, k, d'⟩ = []) (ha : a < 2 ^ 8) (hc : c < 2 ^ 8) (hbc : b < c)
    (he : e < 2 ^ 8) (hwidth : 8 ≤ f.part.width) :
    ∃ d', Does p o ⟨l, n, d⟩ [] ⟨l₂, 0, d'⟩ ∧ KeepsApart [f] d d' ∧
      (d'.read f).toNat = if (d.read f).toNat ≤ a then b
        else if c ≤ (d.read f).toNat then e else (d.read f).toNat := by
  have hldi : ∀ (d : Data) (v : ℕ), v < 2 ^ 8 →
      ((d.write f ((BitVec.ofNat 16 v).setWidth 32)).read f).toNat = v := by
    intro d v hv
    have hval : ((BitVec.ofNat 16 v).setWidth 32).toNat = v := by
      rw [BitVec.toNat_setWidth, BitVec.toNat_ofNat]
      omega
    have hpow : 2 ^ 8 ≤ 2 ^ f.part.width := Nat.pow_le_pow_right (by decide) hwidth
    rw [d.toNat_read_write _ (by omega), hval]
  have hfirst := skip (o := o) (d := d) hlow rfl rfl rfl rfl hnext hsee
  have hdrop : (p.text l₁).drop 0 = [.qbgt l₂ f (.imm (.ofNat 8 c)), .ldi f (.ofNat 16 e)] := hhigh
  have hsecond := fun d => skip (o := o) (d := d) hdrop rfl rfl rfl rfl hnext₁
    fun k d' => hsee₁ _ d'
  simp only [Instr.target_qblt_imm, Instr.target_qbgt_imm, Instr.effects_cons,
    Instr.effects_nil, Instr.effect, BitVec.toNat_ofNat, Nat.mod_eq_of_lt ha,
    Nat.mod_eq_of_lt hc] at hfirst hsecond
  by_cases hle : (d.read f).toNat ≤ a
  · rw [if_pos hle] at hfirst
    have hset := hldi d b (by omega)
    have hstay := hsecond (d.write f ((BitVec.ofNat 16 b).setWidth 32))
    rw [hset, if_neg (by omega)] at hstay
    exact ⟨_, hfirst.trans hstay, .write (List.mem_singleton.2 rfl) d _, by rw [if_pos hle, hset]⟩
  · rw [if_neg hle] at hfirst
    by_cases hge : c ≤ (d.read f).toNat
    · have hset := hsecond d
      rw [if_pos hge] at hset
      exact ⟨_, hfirst.trans hset, .write (List.mem_singleton.2 rfl) d _,
        by rw [if_neg hle, if_pos hge, hldi d e he]⟩
    · have hstay := hsecond d
      rw [if_neg hge] at hstay
      exact ⟨d, hfirst.trans hstay, .refl _ d, by rw [if_neg hle, if_neg hge]⟩

/-- A counter that is incremented once, and compared. -/
theorem countCheck {l l₁ l₂ : L} {r : Reg} {b : Op} {d : Data}
    (htext : p.text l = [.add r r (.imm 1), .qbeq l₁ r b]) (hnext : p.next l = some l₂)
    (hb : b.val (d.write r (d.read r + 1)) = b.val d) (hsee : ∀ k d', o ⟨l, k, d'⟩ = []) :
    Does p o ⟨l, 0, d⟩ [] ⟨if d.read r + 1 = b.val d then l₁ else l₂, 0,
      d.write r (d.read r + 1)⟩ := by
  have hadd : (p.text l)[0]? = some (.add r r (.imm 1)) := by rw [htext]; rfl
  have hqbeq : (p.text l)[1]? = some (.qbeq l₁ r b) := by rw [htext]; rfl
  have hend : (p.text l)[2]? = none := by rw [htext]; rfl
  have hfirst : Does p o ⟨l, 0, d⟩ [] ⟨l, 1, d.write r (d.read r + 1)⟩ :=
    pass hadd rfl rfl (hsee _ _)
  have hread : (d.write r (d.read r + 1)).read r = d.read r + 1 := d.read_write_reg _ r
  refine hfirst.trans ?_
  split
  · rename_i heq
    exact jump hqbeq rfl (if_pos (by rw [hread, hb, heq])) (hsee _ _)
  · rename_i hne
    exact (pass hqbeq rfl (if_neg (by rwa [hread, hb])) (hsee _ _)).trans
      (fallThrough hend hnext (hsee _ _))

/-- Pieces of a run that keep an invariant, each with what is seen of it. -/
theorem pieces {g : ℕ → Data → State L} {P : ℕ → Data → Prop} {f : ℕ → List ω} {n : ℕ}
    (hpiece : ∀ k < n, ∀ d, P k d → ∃ d', Does p o (g k d) (f k) (g (k + 1) d') ∧ P (k + 1) d')
    {d : Data} (hzero : P 0 d) :
    ∃ d', Does p o (g 0 d) ((List.range n).flatMap f) (g n d') ∧ P n d' := by
  induction n with
  | zero => exact ⟨d, refl _, hzero⟩
  | succ n ih =>
    obtain ⟨d₁, hbefore, h₁⟩ := ih fun k hk => hpiece k (by omega)
    obtain ⟨d₂, hlast, h₂⟩ := hpiece n (by omega) d₁ h₁
    rw [List.range_succ, List.flatMap_append, List.flatMap_singleton]
    exact ⟨d₂, hbefore.trans hlast, h₂⟩

end Does

/-! ## The counting loop -/

/-- How often a counter of `w` bits that is at `a` is incremented until it is at
`b`: at least once, so that a counter that is there already goes all the way round. -/
def laps (w a b : ℕ) : ℕ := if a = b then 2 ^ w else (b + 2 ^ w - a) % 2 ^ w

theorem laps_self (w a : ℕ) : laps w a a = 2 ^ w := if_pos rfl

theorem laps_of_lt {w a b : ℕ} (hab : a < b) (hb : b < 2 ^ w) : laps w a b = b - a := by
  rw [laps, if_neg hab.ne, show b + 2 ^ w - a = b - a + 2 ^ w by omega, Nat.add_mod_right]
  exact Nat.mod_eq_of_lt (by omega)

theorem laps_of_gt {w a b : ℕ} (hba : b < a) (ha : a < 2 ^ w) : laps w a b = b + 2 ^ w - a := by
  rw [laps, if_neg hba.ne']
  exact Nat.mod_eq_of_lt (by omega)

/-- After that many increments it is there, -/
theorem add_laps_mod {w a b : ℕ} (ha : a < 2 ^ w) (hb : b < 2 ^ w) :
    (a + laps w a b) % 2 ^ w = b := by
  rcases lt_trichotomy a b with h | rfl | h
  · rw [laps_of_lt h hb, Nat.add_sub_cancel' h.le, Nat.mod_eq_of_lt hb]
  · rw [laps_self, Nat.add_mod_right, Nat.mod_eq_of_lt ha]
  · rw [laps_of_gt h ha, show a + (b + 2 ^ w - a) = b + 2 ^ w by omega, Nat.add_mod_right,
      Nat.mod_eq_of_lt hb]

/-- so that a second bound is as far from there as from the first. -/
theorem laps_laps {w a : ℕ} (ha : a < 2 ^ w) (b : ℕ) :
    laps w (laps w 0 a % 2 ^ w) b = laps w a b := by
  have hmod := add_laps_mod (Nat.two_pow_pos w) ha
  rw [Nat.zero_add] at hmod
  rw [hmod]

/-- It is not there before. -/
theorem add_mod_ne_of_lt_laps {w a b j : ℕ} (ha : a < 2 ^ w) (hb : b < 2 ^ w) (hj : 0 < j)
    (hlt : j < laps w a b) : (a + j) % 2 ^ w ≠ b := by
  rcases lt_trichotomy a b with h | rfl | h
  · rw [laps_of_lt h hb] at hlt
    rw [Nat.mod_eq_of_lt (by omega)]
    omega
  · rw [laps_self] at hlt
    rcases Nat.lt_or_ge (a + j) (2 ^ w) with hsum | hsum
    · rw [Nat.mod_eq_of_lt hsum]
      omega
    · rw [Nat.mod_eq_sub_mod hsum, Nat.mod_eq_of_lt (by omega)]
      omega
  · rw [laps_of_gt h ha] at hlt
    rcases Nat.lt_or_ge (a + j) (2 ^ w) with hsum | hsum
    · rw [Nat.mod_eq_of_lt hsum]
      omega
    · rw [Nat.mod_eq_sub_mod hsum, Nat.mod_eq_of_lt (by omega)]
      omega

theorem laps_pos {w a b : ℕ} (ha : a < 2 ^ w) (hb : b < 2 ^ w) : 0 < laps w a b := by
  rcases lt_trichotomy a b with h | rfl | h
  · rw [laps_of_lt h hb]
    omega
  · rw [laps_self]
    exact Nat.two_pow_pos w
  · rw [laps_of_gt h ha]
    omega

section CountLoop

variable {l : L} {r : Reg} {q : Part} {b : Op} {d : Data}

/-- The low bits of a counter. -/
theorem toNat_read_low (hq : q.lo = 0) (d : Data) :
    (d.read ⟨r, q⟩).toNat = (d.read r).toNat % 2 ^ q.width := by
  simp [Data.read, Part.toNat_get, hq]

/-- The counter after some rounds. -/
theorem toNat_count (hq : q.lo = 0) (d : Data) (n : ℕ) :
    ((d.write r (d.read r + .ofNat 32 n)).read ⟨r, q⟩).toNat =
      ((d.read ⟨r, q⟩).toNat + n) % 2 ^ q.width := by
  have hdvd : 2 ^ q.width ∣ 2 ^ 32 := by
    have := q.lo_add_width_le
    exact pow_dvd_pow 2 (by omega)
  rw [toNat_read_low hq, toNat_read_low hq, Data.read_write_reg, BitVec.toNat_add,
    BitVec.toNat_ofNat, Nat.add_mod_mod, Nat.mod_mod_of_dvd _ hdvd, Nat.mod_add_mod]

/-- One round of a counting loop: it goes on while the counter is not what it is
compared with. -/
theorem Does.round (hadd : (p.text l)[0]? = some (.add r r (.imm 1)))
    (hqbne : (p.text l)[1]? = some (.qbne l ⟨r, q⟩ b)) (hq : q.lo = 0)
    (hb : ∀ v, b.val (d.write r v) = b.val d) (hcount : o ⟨l, 0, d⟩ = e)
    (hcompare : ∀ v, o ⟨l, 1, d.write r v⟩ = []) :
    Does p o ⟨l, 0, d⟩ e
      (if ((d.read ⟨r, q⟩).toNat + 1) % 2 ^ q.width = (b.val d).toNat
        then ⟨l, 2, d.write r (d.read r + .ofNat 32 1)⟩
        else ⟨l, 0, d.write r (d.read r + .ofNat 32 1)⟩) := by
  have hstep : p.step ⟨l, 0, d⟩ = some ⟨l, 1, d.write r (d.read r + .ofNat 32 1)⟩ :=
    Program.step_next hadd rfl rfl
  have heq : (d.write r (d.read r + .ofNat 32 1)).read ⟨r, q⟩ =
      b.val (d.write r (d.read r + .ofNat 32 1)) ↔
      ((d.read ⟨r, q⟩).toNat + 1) % 2 ^ q.width = (b.val d).toNat := by
    rw [← BitVec.toNat_inj, toNat_count hq, hb]
  have hbranch : Does p o ⟨l, 1, d.write r (d.read r + .ofNat 32 1)⟩ []
      (if ((d.read ⟨r, q⟩).toNat + 1) % 2 ^ q.width = (b.val d).toNat
        then ⟨l, 2, d.write r (d.read r + .ofNat 32 1)⟩
        else ⟨l, 0, d.write r (d.read r + .ofNat 32 1)⟩) := by
    split
    · rename_i hexit
      exact single (Program.step_next hqbne rfl (if_neg (not_not.2 (heq.2 hexit)))) (hcompare _)
    · rename_i hstay
      exact single (Program.step_taken hqbne rfl (if_pos fun h => hstay (heq.1 h))) (hcompare _)
  simpa using head hstep hcount hbranch

/-- The rounds of a counting loop. -/
theorem Does.rounds (hadd : (p.text l)[0]? = some (.add r r (.imm 1)))
    (hqbne : (p.text l)[1]? = some (.qbne l ⟨r, q⟩ b)) (hq : q.lo = 0)
    (hb : ∀ v, b.val (d.write r v) = b.val d) (hcount : ∀ v, o ⟨l, 0, d.write r v⟩ = e)
    (hcompare : ∀ v, o ⟨l, 1, d.write r v⟩ = []) {n : ℕ}
    (hstay : ∀ j, 0 < j → j < n + 1 →
      ((d.read ⟨r, q⟩).toNat + j) % 2 ^ q.width ≠ (b.val d).toNat)
    (hlast : ((d.read ⟨r, q⟩).toNat + (n + 1)) % 2 ^ q.width = (b.val d).toNat) :
    Does p o ⟨l, 0, d⟩ (List.replicate (n + 1) e).flatten
      ⟨l, 2, d.write r (d.read r + .ofNat 32 (n + 1))⟩ := by
  have hround := Does.round hadd hqbne hq hb (by simpa using hcount (d.read r)) hcompare
  induction n generalizing d with
  | zero =>
    rw [if_pos hlast] at hround
    simpa using hround
  | succ n ih =>
    rw [if_neg (hstay 1 one_pos (by omega))] at hround
    set d₁ := d.write r (d.read r + .ofNat 32 1) with hd₁
    have hwrite : ∀ v, d₁.write r v = d.write r v := fun v => d.write_write _ v
    have hcounter : ∀ j, ((d₁.read ⟨r, q⟩).toNat + j) % 2 ^ q.width =
        ((d.read ⟨r, q⟩).toNat + (j + 1)) % 2 ^ q.width := by
      intro j
      rw [hd₁, toNat_count hq, Nat.mod_add_mod]
      congr 1
      omega
    have hbound : b.val d₁ = b.val d := hb _
    have hrest := ih (d := d₁) (fun v => by rw [hwrite, hb, hbound])
      (fun v => by rw [hwrite, hcount]) (fun v => by rw [hwrite, hcompare])
      (fun j hj hjn => by rw [hcounter, hbound]; exact hstay (j + 1) (by omega) (by omega))
      (by rw [hcounter, hbound]; exact hlast)
      (Does.round hadd hqbne hq (fun v => by rw [hwrite, hb, hbound])
        (by rw [hd₁, hcount]) fun v => by rw [hwrite, hcompare])
    have hsum : d₁.read r + .ofNat 32 (n + 1) = d.read r + .ofNat 32 (n + 1 + 1) := by
      rw [hd₁, Data.read_write_reg, BitVec.add_assoc, BitVec.ofNat_add_ofNat, Nat.add_comm 1]
    rw [hwrite, hsum] at hrest
    rw [List.replicate_succ, List.flatten_cons]
    exact hround.trans hrest

/-- **The counting loop**: it is left after `laps` rounds. -/
theorem Does.countLoop (hadd : (p.text l)[0]? = some (.add r r (.imm 1)))
    (hqbne : (p.text l)[1]? = some (.qbne l ⟨r, q⟩ b)) (hq : q.lo = 0)
    (hb : ∀ v, b.val (d.write r v) = b.val d) (hlt : (b.val d).toNat < 2 ^ q.width)
    (hcount : ∀ v, o ⟨l, 0, d.write r v⟩ = e) (hcompare : ∀ v, o ⟨l, 1, d.write r v⟩ = [])
    {n : ℕ} (hn : n = laps q.width (d.read ⟨r, q⟩).toNat (b.val d).toNat) :
    Does p o ⟨l, 0, d⟩ (List.replicate n e).flatten ⟨l, 2, d.write r (d.read r + .ofNat 32 n)⟩ := by
  have ha : (d.read ⟨r, q⟩).toNat < 2 ^ q.width := d.toNat_read_lt _
  have hpos := laps_pos ha hlt
  obtain ⟨m, rfl⟩ : ∃ m, n = m + 1 := ⟨n - 1, by omega⟩
  refine Does.rounds hadd hqbne hq hb hcount hcompare (fun j hj hjm => ?_) ?_
  · exact add_mod_ne_of_lt_laps ha hlt hj (hn ▸ hjm)
  · rw [hn, add_laps_mod ha hlt]

end CountLoop

end PruIsa
