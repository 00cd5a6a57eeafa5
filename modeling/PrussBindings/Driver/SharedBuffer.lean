import PrussBindings.Driver.Device
import PrussBindings.Lib.Transition

/-!
# Writes to several devices

`pruss_api_write` copies the data of the user into `pruss_api_buf` and hands
`pruss_api_buf` to `rpmsg_send`.  The buffer is one static array for all
devices, and the lock is one per device, so a write on one device can be between
its two steps while another makes its copy.

* `prussApiWriteCopy`, `prussApiWriteSend` — the two steps; `prussApiWrite_eq`
  puts them together.
* `WriteState`, `WriteStep` — the shared buffer and the writes in progress on any
  number of devices, and the steps they can take in any order.
* `Harmless` — a copy leaves the bytes of every other write in progress as they
  are.
* `writes_own_payload` — **in a run of harmless steps every payload is the user's
  own**, and a copy that is not harmless makes another write send something else.
-/

namespace Driver

open Errno Transition

/-! ## The two steps -/

/-- What a caller passes to `write`: an address, from which on the user's memory
reads `user`, and a count that does not go beyond it. -/
structure WriteCall where
  user : Message
  count : Nat
  enough : count ≤ user.length

/-- The bytes the call is to send. -/
def WriteCall.payload (call : WriteCall) : Message := call.user.take call.count

/-- `pruss_api_write` up to its `copy_from_user`: it returns there, or goes on
with the buffer. -/
def prussApiWriteCopy (buf user : Message) (count : Nat) (fault : Option Nat) :
    WriteRet ⊕ Message :=
  if count > rpmsgBufSize - rpmsgHdrSize then
    .inl ⟨-EINVAL, none, some "Data too large for RPMsg Buffer\n", buf⟩
  else match fault with
    | some k =>
      .inl ⟨-EFAULT, none, some "Error copying buffer from user space",
        user.take k ++ List.replicate (count - k) 0 ++ buf.drop count⟩
    | none => .inr (user.take count ++ buf.drop count)

/-- `pruss_api_write` from `rpmsg_send` on. -/
def prussApiWriteSend (buf : Message) (count : Nat) (send : Int) : WriteRet :=
  if send ≠ 0 then ⟨send, some (buf.take count), some "rpmsg_send failed: %d\n", buf⟩
  else ⟨count, some (buf.take count), none, buf⟩

/-- One after the other the two steps are the whole function. -/
theorem prussApiWrite_eq (buf user : Message) (count : Nat) (fault : Option Nat) (send : Int) :
    prussApiWrite buf user count fault send =
      match prussApiWriteCopy buf user count fault with
      | .inl r => r
      | .inr buf' => prussApiWriteSend buf' count send := by
  unfold prussApiWrite prussApiWriteCopy
  by_cases hcount : count > rpmsgBufSize - rpmsgHdrSize
  · rw [if_pos hcount, if_pos hcount]
  · rw [if_neg hcount, if_neg hcount]
    cases fault with
    | some k => rfl
    | none => rfl

/-- The bytes the copy stores at the front of the buffer: none if the call is
refused, and zeros from where a faulting copy stops. -/
def WriteCall.copied (call : WriteCall) (fault : Option Nat) : Message :=
  if call.count > rpmsgBufSize - rpmsgHdrSize then []
  else match fault with
    | some k => call.user.take k ++ List.replicate (call.count - k) 0
    | none => call.payload

/-! ## Writes on any number of devices -/

section Devices

variable {ι : Type} [DecidableEq ι]

/-- The static buffer, and the write of each device that has made its copy and
not yet sent. -/
structure WriteState (ι : Type) where
  buf : Message
  pending : ι → Option WriteCall

/-- A step of a write, and what it returned: a copy that returns nothing goes
on. -/
inductive WriteEvent (ι : Type) where
  | copy (dev : ι) (call : WriteCall) (fault : Option Nat) (ret : Option WriteRet)
  | send (dev : ι) (call : WriteCall) (result : Int) (ret : WriteRet)

/-- One step of one write.  A device has one write in progress at most. -/
inductive WriteStep : WriteState ι → WriteEvent ι → WriteState ι → Prop where
  | fails {s : WriteState ι} {dev : ι} {call : WriteCall} {fault : Option Nat} {r : WriteRet}
      (idle : s.pending dev = none) (partway : ∀ k ∈ fault, k < call.count)
      (h : prussApiWriteCopy s.buf call.user call.count fault = .inl r) :
      WriteStep s (.copy dev call fault (some r)) { s with buf := r.buf }
  | copies {s : WriteState ι} {dev : ι} {call : WriteCall} {fault : Option Nat} {buf : Message}
      (idle : s.pending dev = none) (partway : ∀ k ∈ fault, k < call.count)
      (h : prussApiWriteCopy s.buf call.user call.count fault = .inr buf) :
      WriteStep s (.copy dev call fault none)
        ⟨buf, Function.update s.pending dev (some call)⟩
  | sends {s : WriteState ι} {dev : ι} {call : WriteCall} (result : Int)
      (h : s.pending dev = some call) :
      WriteStep s (.send dev call result (prussApiWriteSend s.buf call.count result))
        ⟨(prussApiWriteSend s.buf call.count result).buf, Function.update s.pending dev none⟩

/-- A send hands `rpmsg_send` the bytes of its own call. -/
def WriteEvent.OwnPayload : WriteEvent ι → Prop
  | .copy .. => True
  | .send _ call _ ret => ret.sent = some call.payload

/-- The two agree as far as both go. -/
def Agree (a b : Message) : Prop := a.take b.length = b.take a.length

/-- The step does not change the bytes of another write in progress. -/
def Harmless (s : WriteState ι) : WriteEvent ι → Prop
  | .copy dev call fault _ => ∀ other call', other ≠ dev → s.pending other = some call' →
      Agree (call.copied fault) call'.payload
  | .send .. => True

/-- Every write in progress finds its bytes in the buffer. -/
def Intact (s : WriteState ι) : Prop :=
  ∀ dev call, s.pending dev = some call → s.buf.take call.count = call.payload

/-! ## The buffer -/

theorem WriteCall.length_payload (call : WriteCall) : call.payload.length = call.count := by
  simp [payload, call.enough]

/-- Storing `a` at the front of a buffer that begins with `b` keeps `b` exactly
if the two agree. -/
theorem take_overlay_iff {buf a b : Message} (hb : buf.take b.length = b) :
    (a ++ buf.drop a.length).take b.length = b ↔ Agree a b := by
  unfold Agree
  rw [List.take_append]
  constructor
  · intro h
    have htake := congrArg (List.take a.length) h
    rcases Nat.le_total a.length b.length with hle | hle
    · rw [List.take_of_length_le hle] at htake ⊢
      rwa [List.take_left] at htake
    · have hnil : b.length - a.length = 0 := Nat.sub_eq_zero_of_le hle
      rw [hnil, List.take_zero, List.append_nil] at h
      rw [h, List.take_of_length_le hle]
  · intro h
    rw [h]
    rcases Nat.le_total a.length b.length with hle | hle
    · have hrest : (buf.drop a.length).take (b.length - a.length) = b.drop a.length := by
        rw [← List.drop_take, hb]
      rw [hrest, List.take_append_drop]
    · have hnil : b.length - a.length = 0 := Nat.sub_eq_zero_of_le hle
      rw [hnil, List.take_zero, List.append_nil, List.take_of_length_le hle]

/-- **What a copy does to the buffer.** -/
theorem prussApiWriteCopy_buf (buf : Message) {call : WriteCall} {fault : Option Nat}
    (partway : ∀ k ∈ fault, k < call.count) :
    (match prussApiWriteCopy buf call.user call.count fault with
      | .inl r => r.buf
      | .inr buf' => buf') =
      call.copied fault ++ buf.drop (call.copied fault).length := by
  unfold prussApiWriteCopy WriteCall.copied
  by_cases hcount : call.count > rpmsgBufSize - rpmsgHdrSize
  · rw [if_pos hcount, if_pos hcount]
    simp
  · rw [if_neg hcount, if_neg hcount]
    have henough := call.enough
    cases fault with
    | some k =>
      have hk : k < call.count := partway k rfl
      have hlen : (call.user.take k ++ List.replicate (call.count - k) 0).length = call.count := by
        simp only [List.length_append, List.length_take, List.length_replicate]
        omega
      simp only [hlen]
    | none =>
      show call.payload ++ buf.drop call.count = call.payload ++ buf.drop call.payload.length
      rw [call.length_payload]

/-- The call that makes the copy and goes on finds its bytes in the buffer. -/
theorem prussApiWriteCopy_own {buf buf' : Message} {call : WriteCall} {fault : Option Nat}
    (h : prussApiWriteCopy buf call.user call.count fault = .inr buf') :
    buf'.take call.count = call.payload := by
  unfold prussApiWriteCopy at h
  split at h
  · cases h
  · cases fault with
    | some k => cases h
    | none =>
      cases h
      have htake : (call.payload ++ buf.drop call.count).take call.payload.length = call.payload :=
        List.take_left
      rwa [call.length_payload] at htake

/-! ## Steps and runs -/

/-- The payload of a send in a state in which every write has its bytes. -/
theorem prussApiWriteSend_sent (buf : Message) (count : Nat) (result : Int) :
    (prussApiWriteSend buf count result).sent = some (buf.take count) := by
  unfold prussApiWriteSend
  split_ifs <;> rfl

theorem prussApiWriteSend_buf (buf : Message) (count : Nat) (result : Int) :
    (prussApiWriteSend buf count result).buf = buf := by
  unfold prussApiWriteSend
  split_ifs <;> rfl

theorem WriteStep.ownPayload {s s' : WriteState ι} {e : WriteEvent ι} (hs : Intact s)
    (hstep : WriteStep s e s') : e.OwnPayload := by
  cases hstep with
  | fails idle partway h => trivial
  | copies idle partway h => trivial
  | sends result h =>
    show (prussApiWriteSend _ _ _).sent = _
    rw [prussApiWriteSend_sent, hs _ _ h]

/-- **A step keeps every write intact exactly if it is harmless.** -/
theorem WriteStep.intact_iff {s s' : WriteState ι} {e : WriteEvent ι} (hs : Intact s)
    (hstep : WriteStep s e s') : Intact s' ↔ Harmless s e := by
  -- what happens to the bytes of another write
  have hother (dev : ι) {other : ι} {call call' : WriteCall} {fault : Option Nat} {buf' : Message}
      (hbuf : buf' = call.copied fault ++ s.buf.drop (call.copied fault).length)
      (hpending : s.pending other = some call') :
      buf'.take call'.count = call'.payload ↔ Agree (call.copied fault) call'.payload := by
    have hown := hs other call' hpending
    rw [← call'.length_payload] at hown ⊢
    rw [hbuf]
    exact take_overlay_iff hown
  cases hstep with
  | @fails dev call fault r idle partway h =>
    have hbuf := prussApiWriteCopy_buf s.buf partway
    rw [h] at hbuf
    constructor
    · intro hs' other call' _ hpending
      exact (hother dev hbuf hpending).1 (hs' other call' hpending)
    · intro hharmless other call' hpending
      have hne : other ≠ dev := by
        rintro rfl
        rw [show s.pending other = none from idle] at hpending
        cases hpending
      exact (hother dev hbuf hpending).2 (hharmless other call' hne hpending)
  | @copies dev call fault buf' idle partway h =>
    have hbuf := prussApiWriteCopy_buf s.buf partway
    rw [h] at hbuf
    constructor
    · intro hs' other call' hne hpending
      have hafter : Function.update s.pending dev (some call) other = some call' := by
        rwa [Function.update_of_ne hne]
      exact (hother dev hbuf hpending).1 (hs' other call' hafter)
    · intro hharmless other call' hafter
      replace hafter : Function.update s.pending dev (some call) other = some call' := hafter
      by_cases heq : other = dev
      · rw [heq, Function.update_self] at hafter
        cases hafter
        exact prussApiWriteCopy_own h
      · rw [Function.update_of_ne heq] at hafter
        exact (hother dev hbuf hafter).2 (hharmless other call' heq hafter)
  | @sends dev call result h =>
    refine iff_of_true (fun other call' hafter => ?_) trivial
    replace hafter : Function.update s.pending dev none other = some call' := hafter
    by_cases heq : other = dev
    · rw [heq, Function.update_self] at hafter
      cases hafter
    · rw [Function.update_of_ne heq] at hafter
      rw [prussApiWriteSend_buf]
      exact hs other call' hafter

/-- A write in progress can send. -/
theorem intact_iff_sends (s : WriteState ι) :
    Intact s ↔ ∀ e s', WriteStep s e s' → e.OwnPayload := by
  constructor
  · exact fun hs e s' hstep => hstep.ownPayload hs
  · intro hsends dev call hpending
    have hown := hsends _ _ (.sends 0 hpending)
    have hsent := prussApiWriteSend_sent s.buf call.count 0
    exact Option.some.inj (hsent.symm.trans hown)

/-- No write in progress. -/
def WriteState.idle (ι : Type) (buf : Message) : WriteState ι := ⟨buf, fun _ => none⟩

omit [DecidableEq ι] in
theorem intact_idle (buf : Message) : Intact (WriteState.idle ι buf) := by
  intro dev call h
  cases h

/-- **Writes to several devices.**  For any number of devices, and steps of any
writes in any order: as long as no copy changes the bytes of another write in
progress, every payload consists of the first `count` bytes of the user's own
buffer; and after such a run a further step leaves all later payloads right
exactly if it is harmless too. -/
theorem writes_own_payload {buf : Message} {es : List (WriteEvent ι)} {s : WriteState ι}
    (hrun : Run (Guarded Harmless WriteStep) (WriteState.idle ι buf) es s) :
    (∀ e ∈ es, e.OwnPayload) ∧
      ∀ e s', WriteStep s e s' →
        (Harmless s e ↔ ∀ e' s'', WriteStep s' e' s'' → e'.OwnPayload) := by
  have hboth := hrun.history (P := fun es s => Intact s ∧ ∀ e ∈ es, e.OwnPayload)
    ⟨intact_idle buf, by simp⟩ fun past t e t' _ ih hstep => by
      obtain ⟨hs, hown⟩ := ih
      refine ⟨(hstep.2.intact_iff hs).2 hstep.1, fun e' he' => ?_⟩
      rcases List.mem_append.1 he' with he' | he'
      · exact hown e' he'
      · rw [List.mem_singleton.1 he']
        exact hstep.2.ownPayload hs
  refine ⟨hboth.2, fun e s' hstep => ?_⟩
  rw [← hstep.intact_iff hboth.1, intact_iff_sends]

end Devices

/-- A write of one byte. -/
def oneByte (b : UInt8) : WriteCall := ⟨[b], 1, le_rfl⟩

/-- The copy of such a write. -/
theorem copies_oneByte {s : WriteState Nat} (dev : Nat) (b : UInt8) (hdev : s.pending dev = none) :
    WriteStep s (.copy dev (oneByte b) none none)
      ⟨b :: s.buf.drop 1, Function.update s.pending dev (some (oneByte b))⟩ :=
  have partway : ∀ k ∈ (none : Option Nat), k < (oneByte b).count := by simp
  .copies hdev partway rfl

/-- The send of such a write. -/
theorem sends_oneByte {s : WriteState Nat} (dev : Nat) (b : UInt8)
    (hdev : s.pending dev = some (oneByte b)) :
    WriteStep s (.send dev (oneByte b) 0 ⟨1, some (s.buf.take 1), none, s.buf⟩)
      ⟨s.buf, Function.update s.pending dev none⟩ :=
  .sends 0 hdev

/-- Two devices write the same byte at the same time, and then one of them another. -/
def twoDevices : List (WriteEvent Nat) :=
  [.copy 0 (oneByte 7) none none, .copy 1 (oneByte 7) none none,
    .send 1 (oneByte 7) 0 ⟨1, some [7], none, [7]⟩, .send 0 (oneByte 7) 0 ⟨1, some [7], none, [7]⟩,
    .copy 1 (oneByte 8) none none, .send 1 (oneByte 8) 0 ⟨1, some [8], none, [8]⟩]

theorem writes_own_payload_two :
    ∃ s, Run (Guarded Harmless WriteStep) (WriteState.idle Nat []) twoDevices s ∧
      ∀ e ∈ twoDevices, e.OwnPayload := by
  have idle_harmless {s : WriteState Nat} {dev : Nat} {call : WriteCall}
      (hidle : ∀ other, other ≠ dev → s.pending other = none) :
      Harmless s (.copy dev call none none) := by
    intro other call' hne h
    rw [hidle other hne] at h
    cases h
  obtain ⟨s, hrun⟩ : ∃ s,
      Run (Guarded Harmless WriteStep) (WriteState.idle Nat []) twoDevices s := by
    refine ⟨_, .cons ⟨idle_harmless fun _ _ => rfl, copies_oneByte 0 7 rfl⟩
      (.cons ⟨?_, copies_oneByte 1 7 rfl⟩ (.cons ⟨trivial, sends_oneByte 1 7 rfl⟩
        (.cons ⟨trivial, sends_oneByte 0 7 rfl⟩ (.cons ⟨idle_harmless ?_, copies_oneByte 1 8 rfl⟩
          (.cons ⟨trivial, sends_oneByte 1 8 rfl⟩ (.nil _))))))⟩
    · -- the write of device `0` is in progress, with the same byte
      intro other call' hne h
      by_cases hother : other = 0
      · subst hother
        cases h
        rfl
      · have hidle : Function.update (fun _ => none) 0 (some (oneByte 7)) other = some call' := h
        rw [Function.update_of_ne hother] at hidle
        cases hidle
    · intro other hne
      by_cases hother : other = 0
      · subst hother
        rfl
      · show Function.update (Function.update (Function.update (Function.update (fun _ => none) 0
          (some (oneByte 7))) 1 (some (oneByte 7))) 1 none) 0 none other = none
        simp [hother, hne]
  exact ⟨s, hrun, (writes_own_payload hrun).1⟩

/-- **A write on a second device replaces the payload of the first**: device `0`
has copied its byte `1`, device `1` copies its byte `2`, and `rpmsg_send` of
device `0` is handed the `2`. -/
theorem writes_mix :
    ∃ s : WriteState Nat,
      Run WriteStep (WriteState.idle Nat []) [.copy 0 (oneByte 1) none none,
        .copy 1 (oneByte 2) none none, .send 0 (oneByte 1) 0 ⟨1, some [2], none, [2]⟩] s ∧
      ¬ WriteEvent.OwnPayload
        (.send 0 (oneByte 1) 0 ⟨1, some [2], none, [2]⟩ : WriteEvent Nat) := by
  have hfirst := copies_oneByte (s := WriteState.idle Nat []) 0 1 rfl
  have hsecond := copies_oneByte
    (s := ⟨[1], Function.update (fun _ => none) 0 (some (oneByte 1))⟩) 1 2 rfl
  have hsend := sends_oneByte (s := ⟨[2], Function.update
      (Function.update (fun _ => none) 0 (some (oneByte 1))) 1 (some (oneByte 2))⟩) 0 1 rfl
  refine ⟨_, .cons hfirst (.cons hsecond (.cons hsend (.nil _))), fun hown => ?_⟩
  have hsame : some [2] = some (oneByte 1).payload := hown
  exact absurd hsame (by decide)

end Driver
